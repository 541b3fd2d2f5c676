import Rtl8852be.Interaction.History
import Rtl8852be.Pci.LinkCosts

/-!
# LinkRestoration — L1 is put back on every way out

The accessors are latched off by the first failure, and the cleanup runs through the same accessors with the
latch open and a clock of its own.

* `Served` — what every accessor does: it records the first failure, and it returns false only with one recorded;
* `withoutL1_stage` — the byte is put back, or the first check of the cleanup says no;
* `Attempted.putBack_iff` — only a late cleanup keeps the byte from being put back;
* `initialization_restores` — the same of every call of every run.
-/

namespace Rtl8852be
namespace PciLink

open Interaction Code

/-! ## Traces -/

def noted : Event Io Reply Fault → Option Fault
  | .note f => some f
  | _ => none

def clockReading : Event Io Reply Fault → Option UInt64
  | .call .nowUs now => some now
  | _ => none

def lane (a : UInt16) : UInt32 := dbiReadData + (a &&& 3).toUInt32

/-- What was read of the byte `b` of the configuration space. -/
def valueFrom (b : UInt16) : Event Io Reply Fault → Option UInt8
  | .call (.readConfig8 a) r => if a = b ∧ r.1 = true then some r.2 else none
  | .call (.read .byte a) r => if a = lane b ∧ r.1 = true then some r.2 else none
  | _ => none

def sentTo (b : UInt16) : Event Io Reply Fault → Option UInt8
  | .call (.writeConfig8 a v) _ => if a = b then some v else none
  | _ => none

def faults (log : Trace) : List Fault := log.filterMap noted
def readings (log : Trace) : List UInt64 := log.filterMap clockReading

/-- The values of the byte with L1 in it, in the order in which they were read and sent. -/
def readBack (log : Trace) : List UInt8 := log.filterMap (valueFrom 0x719)
def sent (log : Trace) : List UInt8 := log.filterMap (sentTo 0x719)

@[simp] theorem faults_append (t log : Trace) : faults (t ++ log) = faults t ++ faults log := List.filterMap_append

@[simp] theorem readings_append (t log : Trace) : readings (t ++ log) = readings t ++ readings log :=
  List.filterMap_append

@[simp] theorem readBack_append (t log : Trace) : readBack (t ++ log) = readBack t ++ readBack log :=
  List.filterMap_append

@[simp] theorem sent_append (t log : Trace) : sent (t ++ log) = sent t ++ sent log := List.filterMap_append

/-- Nothing here is about the byte with L1 in it. -/
def Elsewhere (log : Trace) : Prop := ∀ e ∈ log, valueFrom 0x719 e = none ∧ sentTo 0x719 e = none

theorem Elsewhere.nil : Elsewhere [] := fun _ he => absurd he List.not_mem_nil

theorem Elsewhere.one {e : Event Io Reply Fault} (hvalue : valueFrom 0x719 e = none) (hsent : sentTo 0x719 e = none) :
    Elsewhere [e] := by
  intro x hx
  rw [List.mem_singleton.1 hx]
  exact ⟨hvalue, hsent⟩

variable {log t : Trace}

theorem Elsewhere.append (h : Elsewhere t) (h' : Elsewhere log) : Elsewhere (t ++ log) :=
  fun e he => (List.mem_append.1 he).elim (h e) (h' e)

theorem Elsewhere.readBack (h : Elsewhere log) : readBack log = [] :=
  List.filterMap_eq_nil_iff.2 fun e he => (h e he).1

theorem Elsewhere.sent (h : Elsewhere log) : sent log = [] :=
  List.filterMap_eq_nil_iff.2 fun e he => (h e he).2

/-! ## What every accessor does -/

def Initialization.fault (d : Initialization) : Option Fault :=
  if d.result.error = .none then none else some (d.result.error, d.result.address, d.result.value)

/-- The last reading of the clock that was checked. -/
def Initialization.seen (d : Initialization) : Option UInt64 := if d.clockStarted then some d.last else none

def Initialization.frame (d : Initialization) : Bool × Bool × UInt8 × Bool :=
  (d.cleanup, d.l1Changed, d.savedL1, d.result.l1RestoreFailed)

variable {d d' : Initialization}

theorem fault_eq_none : d.fault = none ↔ d.result.error = .none := by
  unfold Initialization.fault
  by_cases h : d.result.error = .none
  · rw [if_pos h]
    exact iff_of_true rfl h
  · rw [if_neg h]
    exact iff_of_false (Option.some_ne_none _) h

/-- The record knows the last reading of a clock that did not go back. -/
def Clocked (t : Trace) (d : Initialization) : Prop :=
  ∃ now, d.seen = some now ∧ ((readings t).Pairwise (· ≤ ·) → (readings t).getLast? = some now)

structure Steady (d : Initialization) (log : Trace) (d' : Initialization) : Prop where
  fault : d'.fault = d.fault.or (faults log).head?
  frame : d'.frame = d.frame
  clock : ∀ t, Clocked t d → Clocked (t ++ log) d'

theorem steady_traced : Traced Steady where
  refl d := ⟨(Option.or_none).symm, rfl, fun t h => by rwa [List.append_nil]⟩
  trans := by
    intro d d' d'' log log' h h'
    refine ⟨?_, h'.frame.trans h.frame, fun t ht => ?_⟩
    · rw [h'.fault, h.fault, faults_append, List.head?_append, Option.or_assoc]
    · rw [← List.append_assoc]
      exact h'.clock _ (h.clock t ht)

theorem steady_silent (hfault : d'.fault = d.fault) (hframe : d'.frame = d.frame) (hseen : d'.seen = d.seen) :
    Steady d [] d' := by
  refine ⟨?_, hframe, fun t ht => ?_⟩
  · rw [hfault]
    exact (Option.or_none).symm
  · rw [List.append_nil]
    unfold Clocked
    rw [hseen]
    exact ht

theorem steady_call {e : Event Io Reply Fault} (hnoted : noted e = none) (hclock : clockReading e = none) :
    Steady d [e] d := by
  refine ⟨?_, rfl, fun t ht => ?_⟩
  · unfold faults
    rw [List.filterMap_cons_none hnoted]
    exact (Option.or_none).symm
  · have hnone : readings [e] = [] := List.filterMap_cons_none hclock
    have hsame : readings (t ++ [e]) = readings t := by
      rw [readings_append, hnone, List.append_nil]
    unfold Clocked
    rw [hsame]
    exact ht

theorem failing_fault (d : Initialization) {e : Error} (he : e ≠ .none) (a v : UInt32) :
    (d.failing e a v).fault = d.fault.or (some (e, a, v)) ∧ (d.failing e a v).result.error ≠ .none := by
  unfold Initialization.failing Initialization.fault
  by_cases h : d.result.error = .none
  · simp only [h, if_true]
    exact ⟨if_neg he, he⟩
  · simp only [h, if_false]
    exact ⟨rfl, h⟩

theorem failing_frame (d : Initialization) (e : Error) (a v : UInt32) : (d.failing e a v).frame = d.frame := by
  unfold Initialization.failing Initialization.frame
  by_cases h : d.result.error = .none
  · simp only [h, if_true]
  · simp only [h, if_false]

theorem steady_fail (d : Initialization) {e : Error} (he : e ≠ .none) (a v : UInt32) :
    Steady d [.note (e, a, v)] (d.failing e a v) := by
  refine ⟨(failing_fault d he a v).1, failing_frame d e a v, fun t ht => ?_⟩
  unfold Clocked
  rw [readings_append]
  exact (List.append_nil (readings t)).symm ▸ ht

/-- An accessor went well, or it has recorded why not. -/
structure Served (d : Initialization) (log : Trace) (ok : Bool) (d' : Initialization) : Prop where
  steady : Steady d log d'
  clean : ok = true → faults log = []
  owned : ok = false → d'.result.error ≠ .none

theorem Served.trans {d'' : Initialization} {log' : Trace} {ok : Bool} (h : Served d log true d')
    (h' : Served d' log' ok d'') : Served d (log ++ log') ok d'' := by
  refine ⟨steady_traced.trans h.steady h'.steady, fun hok => ?_, h'.owned⟩
  rw [faults_append, h.clean rfl, h'.clean hok]
  rfl

theorem Served.of_steady (h : Steady d log d') (hclean : faults log = []) :
    Served d log true d' :=
  ⟨h, fun _ => hclean, nofun⟩

theorem served_fail (d : Initialization) {e : Error} (he : e ≠ .none) (a v : UInt32) :
    Served d [.note (e, a, v)] false (d.failing e a v) :=
  ⟨steady_fail d he a v, nofun, fun _ => (failing_fault d he a v).2⟩

/-- `m` does so, away from the byte with L1 in it. -/
def Serves {α : Type} (ok : α → Bool) (m : Link α) : Prop :=
  ∀ d, m.wp (fun log r d' => Served d log (ok r) d' ∧ Elsewhere log) d

section Rules

variable {α : Type} {ok : α → Bool}

theorem wp_fail (e : Error) (a v : UInt32) {d : Initialization} {Q : Trace → Bool → Initialization → Prop} :
    (fail e a v).wp Q d ↔ Q [.note (e, a, v)] false (d.failing e a v) := by
  unfold fail
  rw [wp_tell_bind, wp_modify_bind, wp_pure]

theorem serves_fail {e : Error} (he : e ≠ .none) (a v : UInt32) : Serves id (fail e a v) :=
  fun d => (wp_fail e a v).2 ⟨served_fail d he a v, Elsewhere.one rfl rfl⟩

theorem serves_pure {r : α} (hr : ok r = true) : Serves ok (pure r) := by
  intro d
  rw [wp_pure, hr]
  exact ⟨Served.of_steady (steady_traced.refl d) rfl, Elsewhere.nil⟩

theorem serves_both {m m' : Link Bool} (hm : Serves id m) (hm' : Serves id m') : Serves id (both m m') := by
  intro d
  rw [wp_both]
  refine wp_mono (hm d) fun log r d' h => ⟨fun hr => ?_, fun hr => ?_⟩
  · rw [hr] at h
    exact wp_mono (hm' d') fun log' _ d'' h' => ⟨h.1.trans h'.1, h.2.append h'.2⟩
  · rw [hr] at h
    exact h

theorem serves_every {ms : List (Link Bool)} (h : ∀ m ∈ ms, Serves id m) : Serves id (every ms) := by
  induction ms with
  | nil => exact serves_pure rfl
  | cons m ms ih =>
      exact serves_both (h m List.mem_cons_self) (ih fun m' hm' => h m' (List.mem_cons_of_mem m hm'))

theorem serves_andThen {m : Link (Bool × α)} {f : α → Link Bool} (hm : Serves Prod.fst m)
    (hf : ∀ v, Serves id (f v)) : Serves id (andThen m f) := by
  intro d
  unfold andThen
  rw [wp_bind]
  refine wp_mono (hm d) fun log r d' h => ?_
  by_cases hr : r.1 = true
  · rw [if_pos hr]
    rw [hr] at h
    exact wp_mono (hf r.2 d') fun log' _ d'' h' => ⟨h.1.trans h'.1, h.2.append h'.2⟩
  · rw [if_neg hr, wp_pure, List.append_nil]
    rw [Bool.not_eq_true] at hr
    rw [hr] at h
    exact h

theorem serves_if {m : Link Bool} {m' m'' : Link α} (hm : Serves id m) (hm' : Serves ok m') {r : α}
    (hfail : m'' = pure r) (hr : ok r = false) : Serves ok (do if ← m then m' else m'') := by
  intro d
  rw [wp_bind]
  refine wp_mono (hm d) fun log passed d' h => ?_
  cases passed with
  | true =>
      rw [if_pos rfl]
      exact wp_mono (hm' d') fun log' _ d'' h' => ⟨h.1.trans h'.1, h.2.append h'.2⟩
  | false =>
      rw [if_neg Bool.false_ne_true, hfail, wp_pure, List.append_nil, hr]
      exact h

theorem serves_ite {p : Prop} [Decidable p] {m m' : Link α} (hm : Serves ok m) (hm' : Serves ok m') :
    Serves ok (if p then m else m') := by
  by_cases hp : p
  · rw [if_pos hp]
    exact hm
  · rw [if_neg hp]
    exact hm'

theorem serves_get {f : Initialization → Link α} (hf : ∀ d, Serves ok (f d)) : Serves ok (get >>= f) := by
  intro d
  rw [wp_get_bind]
  exact hf d d

theorem serves_modify {g : Initialization → Initialization} {f : PUnit → Link α}
    (hfault : ∀ d, (g d).fault = d.fault) (hframe : ∀ d, (g d).frame = d.frame) (hseen : ∀ d, (g d).seen = d.seen)
    (hf : Serves ok (f ⟨⟩)) : Serves ok (modify g >>= f) := by
  intro d
  rw [wp_modify_bind]
  have hsilent := steady_silent (hfault d) (hframe d) (hseen d)
  exact wp_mono (hf (g d)) fun log r d' h => ⟨(Served.of_steady hsilent rfl).trans h.1, h.2⟩

theorem serves_ask {c : Io} {f : Reply c → Link α} (hclock : ∀ r, clockReading (.call c r) = none)
    (hvalue : ∀ r, valueFrom 0x719 (.call c r) = none) (hsent : ∀ r, sentTo 0x719 (.call c r) = none)
    (hf : ∀ r, Serves ok (f r)) : Serves ok (ask c >>= f) := by
  intro d
  rw [wp_ask_bind]
  intro r
  have hcall : Steady d [.call c r] d := steady_call rfl (hclock r)
  refine wp_mono (hf r d) fun log x d' h => ⟨(Served.of_steady hcall rfl).trans h.1, ?_⟩
  exact (Elsewhere.one (hvalue r) (hsent r)).append h.2

end Rules

/-! ## The check -/

/-- The trace ends with a call that said no to the cleanup, or with a clock that did. -/
def Declined (t : Trace) : Prop :=
  ∃ before f,
    t = before ++ [.call .inGate false, .note f] ∨ t = before ++ [.call .cancelled true, .note f] ∨
      ∃ now, t = before ++ [.call .nowUs now, .note f] ∧
        (¬ (readings t).Pairwise (· ≤ ·) ∨
          ∃ last, (readings before).getLast? = some last ∧ last.toNat + 5000 ≤ now.toNat)

theorem back_of_lt {last now : UInt64} (ht : Clocked t d) (hseen : d.seen = some last) (hlt : now < last) :
    ¬ (readings (t ++ [.call .nowUs now])).Pairwise (· ≤ ·) := by
  intro hsorted
  rw [readings_append, List.pairwise_append] at hsorted
  rcases ht with ⟨last', hseen', hlast⟩
  rw [hseen, Option.some_inj] at hseen'
  subst hseen'
  have hmem : last ∈ readings t := List.mem_of_getLast? (hlast hsorted.1)
  have hle : last ≤ now := hsorted.2.2 last hmem now List.mem_cons_self
  exact absurd hlt (UInt64.not_lt.2 hle)

theorem seen_of_started (h : d.clockStarted = true) : d.seen = some d.last := if_pos h

theorem started_of_seen {last : UInt64} (h : d.seen = some last) : d.clockStarted = true := by
  by_contra hnot
  rw [Initialization.seen, if_neg hnot] at h
  exact absurd h.symm (Option.some_ne_none last)

/-- A reading that was found to be earlier than the one before. -/
theorem steady_back {now : UInt64} (hstarted : d.clockStarted = true) (hlt : now < d.last) :
    Steady d [.call .nowUs now] d := by
  refine ⟨(Option.or_none).symm, rfl, fun t ht => ⟨d.last, seen_of_started hstarted, fun hsorted => ?_⟩⟩
  exact absurd hsorted (back_of_lt ht (seen_of_started hstarted) hlt)

theorem steady_read (d : Initialization) (now : UInt64) : Steady d [.call .nowUs now] (d.read now) := by
  refine ⟨(Option.or_none).symm, rfl, fun t _ => ⟨now, rfl, fun _ => ?_⟩⟩
  rw [readings_append]
  exact List.getLast?_concat

theorem gap_of_late {now : UInt64} (hback : ¬ (d.clockStarted = true ∧ now < d.last)) (hclean : d.cleanup = true)
    (hstart : d.phaseStart = d.last) (hops : d.phaseOperations = 0)
    (hlate : d.budget ≤ now - d.phaseStart ∨ 20000 ≤ d.phaseOperations) (ht : Clocked t d) :
    ¬ (readings t).Pairwise (· ≤ ·) ∨ ∃ last, (readings t).getLast? = some last ∧ last.toNat + 5000 ≤ now.toNat := by
  by_cases hsorted : (readings t).Pairwise (· ≤ ·)
  · rcases ht with ⟨last, hseen, hlast⟩
    have hstarted : d.clockStarted = true := started_of_seen hseen
    rw [seen_of_started hstarted, Option.some_inj] at hseen
    have hle : last ≤ now := hseen ▸ UInt64.not_lt.1 fun hlt => hback ⟨hstarted, hlt⟩
    refine Or.inr ⟨last, hlast hsorted, ?_⟩
    have hbudget : d.budget = 5000 := if_pos hclean
    rw [hstart, hseen, hops, hbudget] at hlate
    rcases hlate with hlate | hlate
    · have hnat := UInt64.le_iff_toNat_le.1 hlate
      rw [UInt64.toNat_sub_of_le _ _ hle] at hnat
      have hsum : last.toNat ≤ now.toNat := UInt64.le_iff_toNat_le.1 hle
      have hfive : (5000 : UInt64).toNat = 5000 := rfl
      omega
    · exact absurd hlate (by decide)
  · exact Or.inl hsorted

/-- What a check does, and why it can fail when the latch is open. -/
theorem check_spec (d : Initialization) :
    check.wp (fun log ok d' => Served d log ok d' ∧ Elsewhere log ∧ (ok = true → ∀ t, Clocked (t ++ log) d') ∧
      (ok = false → d.cleanup = true → d.phaseStart = d.last → d.phaseOperations = 0 →
        ∀ t, Clocked t d → Declined (t ++ log))) d := by
  unfold check
  rw [wp_get_bind]
  by_cases hlatched : d.result.error ≠ .none ∧ d.cleanup = false
  · rw [if_pos hlatched, wp_pure]
    refine ⟨⟨steady_traced.refl d, nofun, fun _ => hlatched.1⟩, Elsewhere.nil, nofun, fun _ hclean => ?_⟩
    rw [hlatched.2] at hclean
    exact absurd hclean Bool.false_ne_true
  rw [if_neg hlatched, wp_ask_bind]
  intro inside
  have hgate : Served d [.call .inGate inside] true d := Served.of_steady (steady_call rfl rfl) rfl
  have hgateElse : Elsewhere [.call .inGate inside] := Elsewhere.one rfl rfl
  cases inside with
  | false =>
      rw [Bool.not_false, if_pos rfl, wp_fail]
      refine ⟨hgate.trans (served_fail (e := .ownership) d nofun 0 0), hgateElse.append (Elsewhere.one rfl rfl), nofun, ?_⟩
      exact fun _ _ _ _ t _ => ⟨t, _, Or.inl rfl⟩
  | true =>
      rw [Bool.not_true, if_neg Bool.false_ne_true, wp_ask_bind]
      intro cancelled
      have hasked : Served d [.call .inGate true, .call .cancelled cancelled] true d :=
        hgate.trans (Served.of_steady (steady_call rfl rfl) rfl)
      have haskedElse : Elsewhere [.call .inGate true, .call .cancelled cancelled] :=
        hgateElse.append (Elsewhere.one rfl rfl)
      cases cancelled with
      | true =>
          rw [if_pos rfl, wp_fail]
          refine ⟨hasked.trans (served_fail (e := .cancelled) d nofun 0 0), haskedElse.append (Elsewhere.one rfl rfl), nofun, ?_⟩
          refine fun _ _ _ _ t _ => ⟨t ++ [.call .inGate true], (.cancelled, 0, 0), Or.inr (Or.inl ?_)⟩
          rw [List.append_assoc]
          rfl
      | false =>
          rw [if_neg Bool.false_ne_true, wp_ask_bind]
          intro now
          have hnowElse : Elsewhere [.call .inGate true, .call .cancelled false, .call .nowUs now] :=
            haskedElse.append (Elsewhere.one rfl rfl)
          have hends : ∀ (t : Trace) (f : Fault),
              t ++ [.call .inGate true, .call .cancelled false, .call .nowUs now, .note f] =
                (t ++ [.call .inGate true, .call .cancelled false]) ++ [.call .nowUs now, .note f] := by
            intro t f
            rw [List.append_assoc]
            rfl
          by_cases hback : d.clockStarted = true ∧ now < d.last
          · rw [if_pos hback, wp_fail]
            have hread := hasked.trans (Served.of_steady (steady_back hback.1 hback.2) rfl)
            refine ⟨hread.trans (served_fail (e := .clock) d nofun 0 0), hnowElse.append (Elsewhere.one rfl rfl), nofun, ?_⟩
            refine fun _ _ _ _ t ht => ⟨_, _, Or.inr (Or.inr ⟨now, hends t _, Or.inl ?_⟩)⟩
            have hgone := back_of_lt ht (seen_of_started hback.1) hback.2
            rw [readings_append] at hgone ⊢
            exact hgone
          rw [if_neg hback, wp_modify_bind]
          have hread := hasked.trans (Served.of_steady (steady_read d now) rfl)
          by_cases hearly : now < d.phaseStart
          · rw [if_pos hearly, wp_fail]
            refine ⟨hread.trans (served_fail (e := .clock) _ nofun 0 0), hnowElse.append (Elsewhere.one rfl rfl), nofun, ?_⟩
            intro _ _ hstart _ t ht
            rcases ht with ⟨last, hseen, hlast⟩
            rw [hstart] at hearly
            exact absurd ⟨started_of_seen hseen, hearly⟩ hback
          rw [if_neg hearly]
          by_cases hlate : d.budget ≤ now - d.phaseStart ∨ 20000 ≤ d.phaseOperations
          · rw [if_pos hlate, wp_fail]
            refine ⟨hread.trans (served_fail (e := .timeout) _ nofun 0 0), hnowElse.append (Elsewhere.one rfl rfl), nofun, ?_⟩
            intro _ hclean hstart hops t ht
            refine ⟨_, _, Or.inr (Or.inr ⟨now, hends t _, ?_⟩)⟩
            have hgap := gap_of_late hback hclean hstart hops hlate ht
            refine hgap.imp (fun hgone => ?_) fun h => ?_
            · rw [readings_append]
              exact fun hsorted => hgone (List.pairwise_append.1 hsorted).1
            · rw [readings_append]
              exact (List.append_nil (readings t)).symm ▸ h
          · rw [if_neg hlate, wp_pure]
            refine ⟨hread, hnowElse, fun _ t => ⟨now, rfl, fun _ => ?_⟩, nofun⟩
            rw [readings_append]
            exact List.getLast?_concat

theorem check_serves : Serves id check := fun d => wp_mono (check_spec d) fun _ _ _ h => ⟨h.1, h.2.1⟩

/-! ## Accessors -/

theorem reading_serves {w : Width} {a : UInt32} (hfar : ∀ r, valueFrom 0x719 (.call (.read w a) r) = none) :
    Serves Prod.fst (reading w a) := by
  have hfails : ∀ (v : UInt32) (x : w.Val), Serves Prod.fst (do let _ ← fail .io a v; return (false, x) : Link _) := by
    intro v x d
    rw [wp_bind, wp_fail, wp_pure]
    exact ⟨served_fail (e := .io) d nofun a v, Elsewhere.one rfl rfl⟩
  refine serves_if check_serves ?_ rfl rfl
  refine serves_modify (fun _ => rfl) (fun _ => rfl) (fun _ => rfl) ?_
  refine serves_ask (fun _ => rfl) hfar (fun _ => rfl) fun r => ?_
  refine serves_ite (hfails 0 r.2) (serves_ite (hfails _ r.2) fun d => ?_)
  rw [wp_bind]
  refine wp_mono (check_serves d) fun log ok d' h => ?_
  rw [wp_pure, List.append_nil]
  exact h

theorem r16_serves (a : UInt32) : Serves Prod.fst (r16 a) := reading_serves fun _ => rfl

theorem r32_serves (a : UInt32) : Serves Prod.fst (r32 a) := reading_serves fun _ => rfl

theorem r8_serves {a : UInt32} (ha : a ≠ lane 0x719) : Serves Prod.fst (r8 a) :=
  reading_serves fun _ => if_neg fun h => ha h.1

theorem writing_serves (w : Width) (a : UInt32) (v : w.Val) : Serves id (writing w a v) := by
  refine serves_if check_serves ?_ rfl rfl
  refine serves_modify (fun _ => rfl) (fun _ => rfl) (fun _ => rfl) ?_
  refine serves_ask (fun _ => rfl) (fun _ => rfl) (fun _ => rfl) fun r => ?_
  exact serves_ite check_serves (serves_fail (by decide) _ _)

theorem delay_serves (us : ℕ) : Serves id (delay us) := by
  refine serves_if check_serves ?_ rfl rfl
  refine serves_ask (fun _ => rfl) (fun _ => rfl) (fun _ => rfl) fun r => ?_
  exact serves_ite check_serves (serves_fail (by decide) _ _)

theorem update32_serves (a clear set verify : UInt32) : Serves id (update32 a clear set verify) := by
  refine serves_andThen (r32_serves a) fun old => ?_
  refine serves_both (writing_serves .word a _) (serves_andThen (r32_serves a) fun got => ?_)
  exact serves_ite (serves_pure rfl) (serves_fail (by decide) _ _)

theorem full32_serves (a v : UInt32) : Serves id (full32 a v) := by
  refine serves_both (writing_serves .word a _) (serves_andThen (r32_serves a) fun got => ?_)
  exact serves_ite (serves_pure rfl) (serves_fail (by decide) _ _)

theorem idleFrom_serves {w : Width} {a : UInt32} (hread : Serves Prod.fst (reading w a)) (pending : w.Val → Bool)
    (limit : UInt64) {e : Error} (he : e ≠ .none) (value : UInt32) (start : UInt64) (rounds : ℕ) :
    Serves id (idleFrom w a pending limit e value start rounds) := by
  induction rounds with
  | zero => exact serves_fail he a value
  | succ rounds ih =>
      refine serves_andThen hread fun v => ?_
      refine serves_modify (fun _ => rfl) (fun _ => rfl) (fun _ => rfl) (serves_get fun d => ?_)
      refine serves_ite (serves_fail he a value) (serves_ite (serves_pure rfl) ?_)
      exact serves_ite (serves_fail he a value) (serves_both (delay_serves 10) ih)

theorem mdioIdle_serves (mask : UInt16) : Serves id (mdioIdle mask) :=
  serves_get fun _ => idleFrom_serves (reading_serves fun _ => rfl) _ _ (by decide) _ _ _

theorem dbiIdle_serves : Serves id dbiIdle :=
  serves_get fun _ => idleFrom_serves (r8_serves (a := dbiFlag + 2) (by decide)) _ _ (by decide) _ _ _

theorem mdioTrigger_serves (address speed : UInt8) (flag : UInt16) : Serves id (mdioTrigger address speed flag) := by
  refine serves_both (writing_serves .byte _ _) (serves_andThen (r16_serves _) fun old => ?_)
  refine serves_both (writing_serves .half _ _) (serves_andThen (r16_serves _) fun v => ?_)
  exact serves_both (writing_serves .half _ _) (mdioIdle_serves flag)

theorem readMdio_serves (address speed : UInt8) : Serves Prod.fst (readMdio address speed) :=
  serves_if (serves_both (mdioIdle_serves _) (mdioTrigger_serves address speed _)) (r16_serves _) rfl rfl

theorem writeMdio_serves (address speed : UInt8) (v : UInt16) : Serves id (writeMdio address speed v) :=
  serves_both (mdioIdle_serves _) (serves_both (writing_serves .half _ v) (mdioTrigger_serves address speed _))

theorem updateMdio_serves (address speed : UInt8) (mask bits : UInt16) :
    Serves id (updateMdio address speed mask bits) := by
  refine serves_andThen (readMdio_serves address speed) fun v => ?_
  refine serves_both (writeMdio_serves address speed _) ?_
  refine serves_andThen (readMdio_serves address speed) fun got => ?_
  exact serves_ite (serves_pure rfl) (serves_fail (by decide) _ _)

theorem writeDbi_serves (address : UInt16) (v : UInt8) : Serves id (writeDbi address v) := by
  refine serves_both dbiIdle_serves (serves_both (writing_serves .byte _ v) ?_)
  exact serves_both (writing_serves .half _ _) (serves_both (writing_serves .byte _ _) dbiIdle_serves)

/-! ## The configuration space -/

theorem readDbi_serves {address : UInt16} (ha : lane address ≠ lane 0x719) (v : UInt8) :
    Serves Prod.fst (readDbi address v) := by
  refine serves_if (serves_both dbiIdle_serves ?_) (r8_serves ha) rfl rfl
  exact serves_both (writing_serves .half _ _) (serves_both (writing_serves .byte _ _) dbiIdle_serves)

theorem readConfig_serves {address : UInt16} (ha : address ≠ 0x719) (hlane : lane address ≠ lane 0x719) :
    Serves Prod.fst (readConfig address) := by
  refine serves_if check_serves ?_ rfl rfl
  refine serves_modify (fun _ => rfl) (fun _ => rfl) (fun _ => rfl) ?_
  refine serves_ask (fun _ => rfl) (fun _ => if_neg fun h => ha h.1) (fun _ => rfl) fun r => ?_
  refine serves_if check_serves (serves_ite (serves_pure rfl) ?_) rfl rfl
  exact serves_modify (fun _ => rfl) (fun _ => rfl) (fun _ => rfl) (readDbi_serves hlane r.2)

/-- `m` reads the byte with L1 in it, once. -/
def Gets (m : Link (Bool × UInt8)) : Prop :=
  ∀ d, m.wp (fun log r d' => Served d log r.1 d' ∧ sent log = [] ∧ (r.1 = true → readBack log = [r.2])) d

theorem gets_if {m : Link Bool} {m' m'' : Link (Bool × UInt8)} (hm : Serves id m) (hm' : Gets m') {v : UInt8}
    (hfail : m'' = pure (false, v)) : Gets (do if ← m then m' else m'') := by
  intro d
  rw [wp_bind]
  refine wp_mono (hm d) fun log passed d' h => ?_
  cases passed with
  | true =>
      rw [if_pos rfl]
      refine wp_mono (hm' d') fun log' r d'' h' => ⟨h.1.trans h'.1, ?_, fun hr => ?_⟩
      · rw [sent_append, h.2.sent, h'.2.1]
        rfl
      · rw [readBack_append, h.2.readBack, h'.2.2 hr]
        rfl
  | false =>
      rw [if_neg Bool.false_ne_true, hfail, wp_pure, List.append_nil]
      exact ⟨h.1, h.2.sent, nofun⟩

theorem gets_modify {g : Initialization → Initialization} {f : PUnit → Link (Bool × UInt8)}
    (hfault : ∀ d, (g d).fault = d.fault) (hframe : ∀ d, (g d).frame = d.frame) (hseen : ∀ d, (g d).seen = d.seen)
    (hf : Gets (f ⟨⟩)) : Gets (modify g >>= f) := by
  intro d
  rw [wp_modify_bind]
  have hsilent := Served.of_steady (steady_silent (hfault d) (hframe d) (hseen d)) rfl
  exact wp_mono (hf (g d)) fun log r d' h => ⟨hsilent.trans h.1, h.2⟩

theorem r8_gets : Gets (r8 (lane 0x719)) := by
  have hfails : ∀ (r : UInt8) (u : UInt32) (d : Initialization),
      (do let _ ← fail .io (lane 0x719) u; return (false, r) : Link (Bool × UInt8)).wp
        (fun log x d' => Served d log x.1 d' ∧ sent log = [] ∧ x.1 = false) d := by
    intro r u d
    rw [wp_bind, wp_fail, wp_pure]
    exact ⟨served_fail (e := .io) d nofun _ u, rfl, rfl⟩
  refine gets_if check_serves (gets_modify (fun _ => rfl) (fun _ => rfl) (fun _ => rfl) fun d => ?_) rfl
  rw [wp_ask_bind]
  intro r
  have hcall : Served d [.call (.read .byte (lane 0x719)) r] true d := Served.of_steady (steady_call rfl rfl) rfl
  by_cases hr : r.1 = false
  · rw [if_pos hr]
    refine wp_mono (hfails r.2 0 d) fun log x d' h => ⟨hcall.trans h.1, h.2.1, fun hx => ?_⟩
    rw [h.2.2] at hx
    exact absurd hx Bool.false_ne_true
  rw [if_neg hr, if_neg (show ¬ Width.unreadable .byte r.2 = true from Bool.false_ne_true), wp_bind]
  refine wp_mono (check_serves d) fun log ok d' h => ?_
  rw [wp_pure, List.append_nil]
  refine ⟨hcall.trans h.1, h.2.sent, fun _ => ?_⟩
  have hvalue : valueFrom 0x719 (.call (.read .byte (lane 0x719)) r) = some r.2 :=
    if_pos ⟨rfl, Bool.eq_true_of_not_eq_false hr⟩
  calc readBack (.call (.read .byte (lane 0x719)) r :: log)
      = r.2 :: readBack log := List.filterMap_cons_some hvalue
    _ = [r.2] := by rw [h.2.readBack]

theorem readDbi_gets (v : UInt8) : Gets (readDbi 0x719 v) := by
  refine gets_if (serves_both dbiIdle_serves ?_) r8_gets rfl
  exact serves_both (writing_serves .half _ _) (serves_both (writing_serves .byte _ _) dbiIdle_serves)

theorem readConfig_gets : Gets (readConfig 0x719) := by
  refine gets_if check_serves (gets_modify (fun _ => rfl) (fun _ => rfl) (fun _ => rfl) fun d => ?_) rfl
  rw [wp_ask_bind]
  intro r
  have hcall : Served d [.call (.readConfig8 0x719) r] true d := Served.of_steady (steady_call rfl rfl) rfl
  rcases r with ⟨native, v⟩
  cases native with
  | true =>
      rw [wp_bind]
      refine wp_mono (check_serves d) fun log ok d' h => ?_
      have hlog : readBack (.call (.readConfig8 0x719) (true, v) :: log) = [v] := by
        calc readBack (.call (.readConfig8 0x719) (true, v) :: log) = v :: readBack log := rfl
          _ = [v] := by rw [h.2.readBack]
      cases ok with
      | true =>
          rw [if_pos rfl, if_pos rfl, wp_pure, List.append_nil]
          exact ⟨hcall.trans h.1, h.2.sent, fun _ => hlog⟩
      | false =>
          rw [if_neg Bool.false_ne_true, wp_pure, List.append_nil]
          exact ⟨hcall.trans h.1, h.2.sent, nofun⟩
  | false =>
      have hrest : Gets (do if ← check then (if (false, v).1 then return (true, (false, v).2) else do
          modify fun d => d.fallback
          readDbi 0x719 (false, v).2) else return (false, (false, v).2) : Link (Bool × UInt8)) := by
        refine gets_if check_serves ?_ rfl
        rw [if_neg Bool.false_ne_true]
        exact gets_modify (fun _ => rfl) (fun _ => rfl) (fun _ => rfl) (readDbi_gets v)
      exact wp_mono (hrest d) fun log x d' h => ⟨hcall.trans h.1, h.2.1, h.2.2⟩

theorem readsBack_back (v : UInt8) (d : Initialization) :
    (readsBack 0x719 v).wp (fun log ok d' => Served d log ok d' ∧ sent log = [] ∧ (ok = true → readBack log = [v])) d := by
  unfold readsBack andThen
  rw [wp_bind]
  refine wp_mono (readConfig_gets d) fun log r d₁ h => ?_
  rcases r with ⟨ok, got⟩
  cases ok with
  | false =>
      rw [if_neg Bool.false_ne_true, wp_pure, List.append_nil]
      exact ⟨h.1, h.2.1, nofun⟩
  | true =>
      rw [if_pos rfl]
      show (if got = v then return true else fail .readback (0x719 : UInt16).toUInt32 got.toUInt32 : Link Bool).wp _ d₁
      by_cases hgot : got = v
      · rw [if_pos hgot, wp_pure, List.append_nil, ← hgot]
        exact h
      · rw [if_neg hgot, wp_fail]
        refine ⟨h.1.trans (served_fail (e := .readback) d₁ nofun _ _), ?_, nofun⟩
        rw [sent_append, h.2.1]
        rfl

/-- A byte with L1 in it was sent, unless the first check said no, and read back if this is what is said. -/
structure Wrote (d : Initialization) (v : UInt8) (log : Trace) (ok : Bool) (d' : Initialization) : Prop where
  served : Served d log ok d'
  sent : sent log = [v] ∨ ok = false ∧ sent log = [] ∧
    (d.cleanup = true → d.phaseStart = d.last → d.phaseOperations = 0 → ∀ t, Clocked t d → Declined (t ++ log))
  back : ok = true → readBack log = [v]

theorem writeConfig_wrote (v : UInt8) (d : Initialization) :
    (writeConfig 0x719 v).wp (fun log ok d' => Wrote d v log ok d') d := by
  unfold writeConfig
  rw [wp_bind]
  refine wp_mono (check_spec d) fun log ok d₁ h => ?_
  rcases h with ⟨hserved, helse, -, hdeclined⟩
  cases ok with
  | false =>
      rw [if_neg Bool.false_ne_true, wp_pure, List.append_nil]
      exact ⟨hserved, Or.inr ⟨rfl, helse.sent, hdeclined rfl⟩, nofun⟩
  | true =>
      rw [if_pos rfl, wp_modify_bind, wp_ask_bind]
      intro native
      generalize hd₂ : d₁.operation.modifying = d₂
      have hnoted : Served d₁ [] true d₂ := by
        rw [← hd₂]
        exact Served.of_steady (steady_silent rfl rfl rfl) rfl
      have hcall : Served d₂ [.call (.writeConfig8 0x719 v) native] true d₂ :=
        Served.of_steady (steady_call rfl rfl) rfl
      have hbefore := hserved.trans (hnoted.trans hcall)
      -- What follows the write sends nothing more.
      have hrest : (do
          if ← check then
            if native then
              readsBack 0x719 v
            else
              modify fun d => d.fallback
              both (writeDbi 0x719 v) (readsBack 0x719 v)
          else
            return false : Link Bool).wp
          (fun log' ok d' => Served d₂ log' ok d' ∧ sent log' = [] ∧ (ok = true → readBack log' = [v])) d₂ := by
        rw [wp_bind]
        refine wp_mono (check_serves d₂) fun log₁ ok₁ d₃ h₁ => ?_
        cases ok₁ with
        | false =>
            rw [if_neg Bool.false_ne_true, wp_pure, List.append_nil]
            exact ⟨h₁.1, h₁.2.sent, nofun⟩
        | true =>
            rw [if_pos rfl]
            cases native with
            | true =>
                rw [if_pos rfl]
                refine wp_mono (readsBack_back v d₃) fun log₂ ok₂ d₄ h₂ => ⟨h₁.1.trans h₂.1, ?_, fun hok => ?_⟩
                · rw [sent_append, h₁.2.sent, h₂.2.1]
                  rfl
                · rw [readBack_append, h₁.2.readBack, h₂.2.2 hok]
                  rfl
            | false =>
                rw [if_neg Bool.false_ne_true, wp_modify_bind, wp_both]
                have hfallback : Served d₃ [] true d₃.fallback := Served.of_steady (steady_silent rfl rfl rfl) rfl
                refine wp_mono (writeDbi_serves 0x719 v _) fun log₂ ok₂ d₄ h₂ => ⟨fun hok₂ => ?_, fun hok₂ => ?_⟩
                · rw [hok₂] at h₂
                  refine wp_mono (readsBack_back v d₄) fun log₃ ok₃ d₅ h₃ => ?_
                  refine ⟨h₁.1.trans (hfallback.trans (h₂.1.trans h₃.1)), ?_, fun hok => ?_⟩
                  · rw [sent_append, sent_append, h₁.2.sent, h₂.2.sent, h₃.2.1]
                    rfl
                  · rw [readBack_append, readBack_append, h₁.2.readBack, h₂.2.readBack, h₃.2.2 hok]
                    rfl
                · rw [hok₂] at h₂
                  refine ⟨h₁.1.trans (hfallback.trans h₂.1), ?_, nofun⟩
                  rw [sent_append, h₁.2.sent, h₂.2.sent]
                  rfl
      refine wp_mono hrest fun log' ok' d' h' => ⟨?_, Or.inl ?_, fun hok => ?_⟩
      · have hall := hbefore.trans h'.1
        rw [List.nil_append, List.append_assoc] at hall
        exact hall
      · rw [sent_append, helse.sent]
        show v :: sent log' = [v]
        rw [h'.2.1]
      · rw [readBack_append, helse.readBack]
        exact h'.2.2 hok

/-! ## L1 -/

/-- Whoever sends the byte without L1 sends the saved byte after it, or the cleanup was told not to. -/
def Attempted (t : Trace) : Prop :=
  ∀ v ∈ sent t, v &&& 8 = 0 →
    ∃ saved, (readBack t).head? = some saved ∧ (sent t = [v, saved] ∨ sent t = [v] ∧ Declined t)

def Level (t : Trace) : Prop := ∃ saved, (readBack t).head? = some saved ∧ (readBack t).getLast? = some saved

/-- What was put back, and what is still to be. -/
structure Restored (d : Initialization) (t log : Trace) (d' : Initialization) : Prop where
  fault : d'.fault = d.fault.or (faults log).head?
  cleanup : d'.cleanup = false
  well : d'.result.l1RestoreFailed = false → sent log = [d.savedL1] ∧ readBack log = [d.savedL1] ∧
    d'.l1Changed = false ∧ faults log = [] ∧ Clocked (t ++ log) d'
  badly : d'.result.l1RestoreFailed = true → d'.result.error ≠ .none ∧
    (sent log = [d.savedL1] ∨ sent log = [] ∧ Declined (t ++ log))

theorem restoreL1_restores (ht : Clocked t d) (hchanged : d.l1Changed = true) :
    restoreL1.wp (fun log _ d' => Restored d t log d') d := by
  unfold restoreL1
  have hnot : ¬ d.l1Changed = false := by
    rw [hchanged]
    exact nofun
  rw [wp_get_bind, if_neg hnot, wp_modify_bind, wp_bind]
  have htime : Clocked t d.cleaning := ht
  refine wp_mono (writeConfig_wrote d.savedL1 d.cleaning) fun log ok d₁ h => ?_
  rw [wp_modify_bind, wp_pure, List.append_nil]
  have hfault : (d₁.cleaned d ok).fault = d.fault.or (faults log).head? := h.served.steady.fault
  cases ok with
  | true =>
      refine ⟨hfault, rfl, fun _ => ?_, fun hfailed => absurd hfailed Bool.false_ne_true⟩
      have hsent : sent log = [d.savedL1] := h.sent.resolve_right fun hno => absurd hno.1.symm Bool.false_ne_true
      exact ⟨hsent, h.back rfl, rfl, h.served.clean rfl, h.served.steady.clock t htime⟩
  | false =>
      refine ⟨hfault, rfl, fun hfailed => absurd hfailed.symm Bool.false_ne_true, fun _ => ⟨h.served.owned rfl, ?_⟩⟩
      exact h.sent.imp_right fun hno => ⟨hno.2.1, hno.2.2 rfl rfl rfl t htime⟩

/-! ## Stages -/

/-- The first failure is the one that the record shows. -/
def Tracks (f₀ : Option Fault) (t : Trace) (d : Initialization) : Prop := d.fault = f₀.or (faults t).head?

/-- What holds of the record between two calls. -/
def Inv (d : Initialization) : Prop :=
  d.cleanup = false ∧ (d.result.error = .none → d.l1Changed = false ∧ d.result.l1RestoreFailed = false)

/-- On the way, with the values of the byte as `g` says. -/
structure Going (g : List UInt8 → List UInt8 → Prop) (f₀ : Option Fault) (t : Trace) (d : Initialization) : Prop where
  tracks : Tracks f₀ t d
  cleanup : d.cleanup = false
  unchanged : d.l1Changed = false
  level : d.result.l1RestoreFailed = false
  clocked : Clocked t d
  clean : faults t = []
  values : g (readBack t) (sent t)

/-- After the end of it. -/
structure Ended (f₀ : Option Fault) (t : Trace) (d : Initialization) : Prop where
  tracks : Tracks f₀ t d
  inv : Inv d
  attempted : Attempted t

def Untouched (read sent : List UInt8) : Prop := read = [] ∧ sent = []

def Settled (read sent : List UInt8) : Prop :=
  ∃ saved, read.head? = some saved ∧ read.getLast? = some saved ∧
    ∀ v ∈ sent, v &&& 8 = 0 → sent = [v, saved]

variable {f₀ : Option Fault} {g : List UInt8 → List UInt8 → Prop} {t log : Trace} {d d' : Initialization}

theorem Tracks.steady (ht : Tracks f₀ t d) (h : Steady d log d') : Tracks f₀ (t ++ log) d' := by
  unfold Tracks at ht ⊢
  rw [h.fault, ht, faults_append, List.head?_append, Option.or_assoc]

theorem inv_of_error (hcleanup : d.cleanup = false) (he : d.result.error ≠ .none) : Inv d :=
  ⟨hcleanup, fun hnone => absurd hnone he⟩

theorem Steady.cleanup (h : Steady d log d') : d'.cleanup = d.cleanup := congrArg Prod.fst h.frame

theorem Steady.l1Changed (h : Steady d log d') : d'.l1Changed = d.l1Changed := congrArg (·.2.1) h.frame

theorem Steady.savedL1 (h : Steady d log d') : d'.savedL1 = d.savedL1 := congrArg (·.2.2.1) h.frame

theorem Steady.l1RestoreFailed (h : Steady d log d') : d'.result.l1RestoreFailed = d.result.l1RestoreFailed :=
  congrArg (·.2.2.2) h.frame

theorem Going.on (ht : Going g f₀ t d) (h : Served d log true d') (helse : Elsewhere log) :
    Going g f₀ (t ++ log) d' where
  tracks := ht.tracks.steady h.steady
  cleanup := h.steady.cleanup.trans ht.cleanup
  unchanged := h.steady.l1Changed.trans ht.unchanged
  level := h.steady.l1RestoreFailed.trans ht.level
  clocked := h.steady.clock t ht.clocked
  clean := by rw [faults_append, ht.clean, h.clean rfl, List.nil_append]
  values := by
    rw [readBack_append, sent_append, helse.readBack, helse.sent, List.append_nil, List.append_nil]
    exact ht.values

theorem attempted_of_untouched (h : Untouched (readBack t) (sent t)) : Attempted t := by
  intro v hv
  rw [h.2] at hv
  exact absurd hv List.not_mem_nil

theorem attempted_of_settled (h : Settled (readBack t) (sent t)) : Attempted t := by
  rcases h with ⟨saved, hhead, -, hall⟩
  exact fun v hv hclear => ⟨saved, hhead, Or.inl (hall v hv hclear)⟩

theorem stage_of_serves {m : Link Bool} (hm : Serves id m)
    (hg : ∀ t, g (readBack t) (sent t) → Attempted t) : Stage (Going g f₀) m (Going g f₀) (Ended f₀) := by
  intro t d ht
  refine wp_mono (hm d) fun log ok d' h => ⟨fun hok => ?_, fun hok => ?_⟩
  · rw [hok] at h
    exact ht.on h.1 h.2
  · refine ⟨ht.tracks.steady h.1.steady, ?_, hg _ ?_⟩
    · exact inv_of_error (h.1.steady.cleanup.trans ht.cleanup) (h.1.owned hok)
    · rw [readBack_append, sent_append, h.2.readBack, h.2.sent, List.append_nil, List.append_nil]
      exact ht.values

/-- L1 was found on, and the byte without it may have been sent. -/
structure Off (saved : UInt8) (f₀ : Option Fault) (t : Trace) (d : Initialization) : Prop where
  tracks : Tracks f₀ t d
  clocked : Clocked t d
  changed : d.l1Changed = true
  saves : d.savedL1 = saved
  found : saved &&& 8 ≠ 0
  first : (readBack t).head? = some saved
  off : sent t = [saved &&& ~~~8] ∨ sent t = []

theorem Off.steady {saved : UInt8} (ht : Off saved f₀ t d) (h : Steady d log d') (helse : Elsewhere log) :
    Off saved f₀ (t ++ log) d' where
  tracks := ht.tracks.steady h
  clocked := h.clock t ht.clocked
  changed := h.l1Changed.trans ht.changed
  saves := h.savedL1.trans ht.saves
  found := ht.found
  first := by rw [readBack_append, helse.readBack, List.append_nil, ht.first]
  off := by rw [sent_append, helse.sent, List.append_nil]; exact ht.off

theorem Off.attempted {saved : UInt8} (ht : Off saved f₀ t d)
    (h : sent log = [saved] ∨ sent log = [] ∧ Declined (t ++ log)) :
    Attempted (t ++ log) ∧ (sent log = [saved] → ∀ v ∈ sent (t ++ log), v &&& 8 = 0 → sent (t ++ log) = [v, saved]) := by
  have hsaved : ∀ v, v = saved → v &&& 8 = 0 → False := fun v hv hclear => ht.found (hv ▸ hclear)
  have hput : sent log = [saved] → ∀ v ∈ sent (t ++ log), v &&& 8 = 0 → sent (t ++ log) = [v, saved] := by
    intro hlog v hv hclear
    rw [sent_append, hlog] at hv ⊢
    rcases ht.off with hoff | hoff
    · rw [hoff] at hv ⊢
      rcases List.mem_cons.1 hv with rfl | hv
      · rfl
      · exact absurd hclear fun hc => hsaved v (List.mem_singleton.1 hv) hc
    · rw [hoff] at hv
      exact absurd hclear fun hc => hsaved v (List.mem_singleton.1 hv) hc
  refine ⟨fun v hv hclear => ⟨saved, ?_, ?_⟩, hput⟩
  · rw [readBack_append, List.head?_append, ht.first]
    rfl
  · rcases h with hlog | ⟨hnone, hdeclined⟩
    · exact Or.inl (hput hlog v hv hclear)
    · refine Or.inr ⟨?_, hdeclined⟩
      rw [sent_append, hnone, List.append_nil] at hv ⊢
      rcases ht.off with hoff | hoff
      · rw [hoff] at hv ⊢
        rw [List.mem_singleton.1 hv]
      · rw [hoff] at hv
        exact absurd hv List.not_mem_nil

theorem restoreL1_ends {saved : UInt8} (ht : Off saved f₀ t d) :
    restoreL1.wp (fun log _ d' => Tracks f₀ (t ++ log) d' ∧ d'.cleanup = false ∧ Attempted (t ++ log) ∧
      (d.result.error ≠ .none → d'.result.error ≠ .none) ∧
      (d'.result.l1RestoreFailed = true → d'.result.error ≠ .none) ∧
      (d'.result.l1RestoreFailed = false → d'.l1Changed = false ∧ Clocked (t ++ log) d' ∧ faults log = [] ∧
        Settled (readBack (t ++ log)) (sent (t ++ log)))) d := by
  refine wp_mono (restoreL1_restores ht.clocked ht.changed) fun log _ d' h => ?_
  have hsaves := ht.saves
  have htracks : Tracks f₀ (t ++ log) d' := by
    have hbefore : d.fault = f₀.or (faults t).head? := ht.tracks
    rw [Tracks, h.fault, hbefore, faults_append, List.head?_append, Option.or_assoc]
  have hsent : sent log = [saved] ∨ sent log = [] ∧ Declined (t ++ log) := by
    cases hfailed : d'.result.l1RestoreFailed with
    | true => exact hsaves ▸ (h.badly hfailed).2
    | false => exact Or.inl (hsaves ▸ (h.well hfailed).1)
  refine ⟨htracks, h.cleanup, (ht.attempted hsent).1, fun he hnone => ?_, fun hfailed => (h.badly hfailed).1, ?_⟩
  · have hfault := h.fault
    rw [fault_eq_none.2 hnone] at hfault
    exact he (fault_eq_none.1 (Option.or_eq_none_iff.1 hfault.symm).1)
  · intro hfailed
    rcases h.well hfailed with ⟨hput, hback, hunchanged, hclean, hclocked⟩
    rw [hsaves] at hput hback
    refine ⟨hunchanged, hclocked, hclean, saved, ?_, ?_, (ht.attempted hsent).2 hput⟩
    · rw [readBack_append, List.head?_append, ht.first]
      rfl
    · rw [readBack_append, hback]
      exact List.getLast?_concat

variable {f₀ : Option Fault}

theorem calibrate_off {saved : UInt8} :
    Stage (fun t d => Off saved f₀ t d ∧ d.cleanup = false ∧ faults t = []) calibrate (Going Settled f₀) (Ended f₀) := by
  rintro t d ⟨ht, hcleanup, hclean⟩
  unfold calibrate
  rw [wp_get_bind, wp_bind]
  refine wp_mono (updateMdio_serves _ _ _ _ d) fun log ok d₁ h => ?_
  have hoff := ht.steady h.1.steady h.2
  rw [wp_bind]
  refine wp_mono (restoreL1_ends hoff) fun log' _ d₂ h' => ?_
  rcases h' with ⟨htracks, hcleanup', hattempted, hstays, hbadly, hwell⟩
  rw [wp_get_bind, wp_pure, List.append_nil, ← List.append_assoc]
  have herror : ok = false → d₂.result.error ≠ .none := fun hok => hstays (h.1.owned hok)
  refine ⟨fun hall => ?_, fun hany => ?_⟩
  · rw [Bool.and_eq_true, Bool.and_eq_true] at hall
    have hfailed : d₂.result.l1RestoreFailed = false := by simpa using hall.2
    rcases hwell hfailed with ⟨hunchanged, hclocked, hquiet, hsettled⟩
    refine ⟨htracks, hcleanup', hunchanged, hfailed, hclocked, ?_, hsettled⟩
    rw [faults_append, faults_append, hclean, h.1.clean hall.1.1, hquiet]
    rfl
  · refine ⟨htracks, inv_of_error hcleanup' ?_, hattempted⟩
    intro hnone
    have hok : ok = true := Bool.eq_true_of_not_eq_false fun hok => herror hok hnone
    have hfailed : d₂.result.l1RestoreFailed = false :=
      Bool.eq_false_iff.2 fun hfailed => hbadly hfailed hnone
    rw [hok, hnone, hfailed] at hany
    exact absurd hany (by decide)

theorem calibrate_on :
    Stage (Going Settled f₀) calibrate (Going Settled f₀) (Ended f₀) := by
  intro t d ht
  unfold calibrate
  rw [wp_get_bind, wp_bind]
  refine wp_mono (updateMdio_serves _ _ _ _ d) fun log ok d₁ h => ?_
  have hunchanged := h.1.steady.l1Changed.trans ht.unchanged
  have hlevel := h.1.steady.l1RestoreFailed.trans ht.level
  unfold restoreL1
  rw [wp_bind, wp_get_bind, if_pos hunchanged, wp_pure, wp_get_bind, wp_pure]
  simp only [List.append_nil]
  refine ⟨fun hall => ?_, fun hany => ?_⟩
  · rw [Bool.and_eq_true, Bool.and_eq_true] at hall
    rw [hall.1.1] at h
    exact ht.on h.1 h.2
  · refine ⟨ht.tracks.steady h.1.steady, inv_of_error (h.1.steady.cleanup.trans ht.cleanup) fun hnone => ?_, ?_⟩
    · have hok : ok = true := Bool.eq_true_of_not_eq_false fun hok => h.1.owned hok hnone
      rw [hok, hnone, hlevel] at hany
      exact absurd hany (by decide)
    · refine attempted_of_settled ?_
      rw [readBack_append, sent_append, h.2.readBack, h.2.sent, List.append_nil, List.append_nil]
      exact ht.values

/-- The byte is put back on every way, unless the first check of the cleanup says no. -/
theorem withoutL1_stage :
    Stage (Going Untouched f₀) withoutL1 (Going Settled f₀) (Ended f₀) := by
  intro t d ht
  unfold withoutL1
  rw [wp_bind]
  refine wp_mono (readConfig_gets d) fun log r d₁ h => ?_
  rcases h with ⟨hserved, hsent, hback⟩
  have huntouched : readBack t = [] ∧ sent t = [] := ht.values
  have hsent' : sent (t ++ log) = [] := by
    rw [sent_append, huntouched.2, hsent]
    rfl
  rw [wp_modify_bind]
  generalize hd₂ : { d₁ with savedL1 := r.2 } = d₂
  have hcleanup : d₂.cleanup = false := by
    rw [← hd₂]
    exact hserved.steady.cleanup.trans ht.cleanup
  have hunchanged : d₂.l1Changed = false := by
    rw [← hd₂]
    exact hserved.steady.l1Changed.trans ht.unchanged
  have hlevel : d₂.result.l1RestoreFailed = false := by
    rw [← hd₂]
    exact hserved.steady.l1RestoreFailed.trans ht.level
  have htracks : Tracks f₀ (t ++ log) d₂ := by
    have hread : Tracks f₀ (t ++ log) d₁ := ht.tracks.steady hserved.steady
    rw [← hd₂]
    exact hread
  have hclocked : Clocked (t ++ log) d₂ := by
    rw [← hd₂]
    exact hserved.steady.clock t ht.clocked
  by_cases hread : r.1 = false
  · rw [if_pos hread, wp_pure, List.append_nil]
    refine ⟨nofun, fun _ => ⟨htracks, inv_of_error hcleanup ?_, fun v hv => ?_⟩⟩
    · rw [← hd₂]
      exact hserved.owned hread
    · rw [hsent'] at hv
      exact absurd hv List.not_mem_nil
  have hok : r.1 = true := Bool.eq_true_of_not_eq_false hread
  have hvalues : readBack (t ++ log) = [r.2] := by
    rw [readBack_append, huntouched.1, hback hok]
    rfl
  have hclean : faults (t ++ log) = [] := by
    rw [faults_append, ht.clean, hserved.clean hok]
    rfl
  rw [if_neg hread]
  by_cases hon : r.2 &&& 8 ≠ 0
  · rw [if_pos hon, wp_modify_bind, wp_bind]
    generalize hd₃ : { d₂ with l1Changed := true } = d₃
    have hoff : Off r.2 f₀ (t ++ log) d₃ := by
      rw [← hd₃]
      refine ⟨htracks, hclocked, rfl, ?_, hon, ?_, Or.inr hsent'⟩
      · rw [← hd₂]
      · rw [hvalues]
        rfl
    have hcleanup' : d₃.cleanup = false := by
      rw [← hd₃]
      exact hcleanup
    refine wp_mono (writeConfig_wrote (r.2 &&& ~~~8) d₃) fun log' ok d₄ h' => ?_
    have hoff' : Off r.2 f₀ ((t ++ log) ++ log') d₄ := by
      have hsteady := h'.served.steady
      refine ⟨hoff.tracks.steady hsteady, hsteady.clock _ hoff.clocked, hsteady.l1Changed.trans hoff.changed,
        hsteady.savedL1.trans hoff.saves, hon, ?_, ?_⟩
      · rw [readBack_append, List.head?_append, hoff.first]
        rfl
      · rw [sent_append, hsent', List.nil_append]
        exact h'.sent.imp_right fun hno => hno.2.1
    have hcleanup₄ : d₄.cleanup = false := h'.served.steady.cleanup.trans hcleanup'
    cases ok with
    | true =>
        rw [if_pos rfl]
        have hclean' : faults ((t ++ log) ++ log') = [] := by
          rw [faults_append, hclean, h'.served.clean rfl]
          rfl
        refine wp_mono (calibrate_off _ d₄ ⟨hoff', hcleanup₄, hclean'⟩) fun log₂ ok₂ d₅ h₂ => ?_
        rw [← List.append_assoc, ← List.append_assoc]
        exact h₂
    | false =>
        rw [if_neg Bool.false_ne_true, wp_bind]
        refine wp_mono (restoreL1_ends hoff') fun log₂ _ d₅ h₂ => ?_
        rw [wp_pure, List.append_nil, ← List.append_assoc, ← List.append_assoc]
        rcases h₂ with ⟨htracks', hcleanup₅, hattempted, hstays, -, -⟩
        exact ⟨nofun, fun _ => ⟨htracks', inv_of_error hcleanup₅ (hstays (h'.served.owned rfl)), hattempted⟩⟩
  · rw [if_neg hon]
    have hgoing : Going Settled f₀ (t ++ log) d₂ := by
      refine ⟨htracks, hcleanup, hunchanged, hlevel, hclocked, hclean, r.2, ?_, ?_, ?_⟩
      · rw [hvalues]
        rfl
      · rw [hvalues]
        rfl
      · rw [hsent']
        exact fun v hv => absurd hv List.not_mem_nil
    refine wp_mono (calibrate_on _ d₂ hgoing) fun log' ok d₃ h' => ?_
    rw [← List.append_assoc]
    exact h'

theorem disableRefclkAutok_stage :
    Stage (Going Untouched f₀) disableRefclkAutok (Going Settled f₀) (Ended f₀) := by
  intro t d ht
  unfold disableRefclkAutok andThen
  rw [wp_bind]
  refine wp_mono (readConfig_serves (by decide) (by decide) d) fun log r d₁ h => ?_
  by_cases hr : r.1 = true
  · rw [if_pos hr, wp_modify_bind]
    rw [hr] at h
    have hgoing := ht.on h.1 h.2
    have hnoted : ∀ speed, Going Untouched f₀ (t ++ log) { d₁ with result.linkSpeed := speed } :=
      fun _ => ⟨hgoing.tracks, hgoing.cleanup, hgoing.unchanged, hgoing.level, hgoing.clocked, hgoing.clean,
        hgoing.values⟩
    by_cases hspeed : r.2 &&& 3 ≠ 1 ∧ r.2 &&& 3 ≠ 2
    · rw [if_pos hspeed]
      have hstage := @stage_of_serves f₀ _ _ (serves_fail (e := .linkSpeed) (by decide) 0x82 r.2.toUInt32)
        fun _ => attempted_of_untouched
      have hfails := hstage _ _ (hnoted (r.2 &&& 3))
      rw [wp_fail] at hfails ⊢
      rw [← List.append_assoc]
      exact ⟨nofun, hfails.2⟩
    · rw [if_neg hspeed]
      refine wp_mono (withoutL1_stage _ _ (hnoted (r.2 &&& 3))) fun log' ok d₂ h' => ?_
      rw [← List.append_assoc]
      exact h'
  · rw [if_neg hr, wp_pure, List.append_nil]
    rw [Bool.not_eq_true] at hr
    rw [hr] at h
    refine ⟨nofun, fun _ => ⟨ht.tracks.steady h.1.steady, ?_, attempted_of_untouched ?_⟩⟩
    · exact inv_of_error (h.1.steady.cleanup.trans ht.cleanup) (h.1.owned rfl)
    · rw [readBack_append, sent_append, h.2.readBack, h.2.sent, List.append_nil, List.append_nil]
      exact ht.values

/-! ## The entry points -/

theorem beforeL1_serves : ∀ m ∈ beforeL1, Serves id m := by
  intro m hm
  simp only [beforeL1, List.mem_cons, List.not_mem_nil, or_false] at hm
  rcases hm with rfl | rfl | rfl | rfl | rfl | rfl
  · exact update32_serves _ _ _ _
  · exact update32_serves _ _ _ _
  · exact update32_serves _ _ _ _
  · exact update32_serves _ _ _ _
  · exact updateMdio_serves _ _ _ _
  · exact updateMdio_serves _ _ _ _

theorem afterL1_serves : ∀ m ∈ afterL1, Serves id m := by
  intro m hm
  simp only [afterL1, List.mem_cons, List.not_mem_nil, or_false] at hm
  rcases hm with rfl | rfl <;> exact update32_serves _ _ _ _

theorem linkBandwidth_serves : Serves id linkBandwidth := by
  refine serves_andThen (r32_serves _) fun old => serves_every fun m hm => ?_
  simp only [List.mem_cons, List.not_mem_nil, or_false] at hm
  rcases hm with rfl | rfl | rfl | rfl
  · exact writing_serves .word _ _
  · exact update32_serves _ _ _ _
  · exact update32_serves _ _ _ _
  · exact update32_serves _ _ _ _

theorem latency_serves : ∀ m ∈ latency, Serves id m := by
  intro m hm
  rcases List.mem_append.1 hm with hm | hm
  · rcases List.mem_map.1 hm with ⟨a, -, rfl⟩
    exact serves_andThen (r32_serves a) fun _ => serves_pure rfl
  · simp only [List.mem_cons, List.not_mem_nil, or_false] at hm
    rcases hm with rfl | rfl | rfl | rfl | rfl | rfl | rfl | rfl | rfl
    · exact update32_serves _ _ _ _
    · exact update32_serves _ _ _ _
    · exact update32_serves _ _ _ _
    · exact update32_serves _ _ _ _
    · exact update32_serves _ _ _ _
    · exact full32_serves _ _
    · exact full32_serves _ _
    · exact update32_serves _ _ _ _
    · exact update32_serves _ _ _ _

theorem Going.noted (ht : Going g f₀ t d) (hfault : d'.fault = d.fault) (hframe : d'.frame = d.frame)
    (hseen : d'.seen = d.seen) : Going g f₀ t d' := by
  have h := ht.on (Served.of_steady (steady_silent hfault hframe hseen) rfl) Elsewhere.nil
  rw [List.append_nil] at h
  exact h

theorem configurePre_stage (actualCut : UInt8) :
    Stage (Going Untouched f₀) (configurePre actualCut) (Going Settled f₀) (Ended f₀) := by
  have huntouched : ∀ {m : Link Bool}, Serves id m → Stage (Going Untouched f₀) m (Going Untouched f₀) (Ended f₀) :=
    fun hm => stage_of_serves hm fun _ => attempted_of_untouched
  have hsettled : ∀ {m : Link Bool}, Serves id m → Stage (Going Settled f₀) m (Going Settled f₀) (Ended f₀) :=
    fun hm => stage_of_serves hm fun _ => attempted_of_settled
  have hbody := (huntouched (serves_every beforeL1_serves)).both
    (disableRefclkAutok_stage.both ((hsettled (serves_every afterL1_serves)).both (hsettled linkBandwidth_serves)))
  intro t d ht
  unfold configurePre
  by_cases hcut : 6 ≤ actualCut
  · rw [if_pos hcut, wp_fail]
    have h := served_fail (e := .invalid) d nofun 0 0
    refine ⟨nofun, fun _ => ⟨ht.tracks.steady h.steady, ?_, attempted_of_untouched ?_⟩⟩
    · exact inv_of_error (h.steady.cleanup.trans ht.cleanup) (h.owned rfl)
    · rw [readBack_append, sent_append]
      exact ⟨(List.append_nil _).trans ht.values.1, (List.append_nil _).trans ht.values.2⟩
  · rw [if_neg hcut, wp_modify_bind, wp_bind]
    refine wp_mono (hbody t _ (ht.noted rfl rfl rfl)) fun log ok d' h => ?_
    cases ok with
    | true =>
        rw [if_pos rfl, wp_modify_bind, wp_pure, List.append_nil]
        exact ⟨fun _ => (h.1 rfl).noted rfl rfl rfl, nofun⟩
    | false =>
        rw [if_neg Bool.false_ne_true, wp_pure, List.append_nil]
        exact ⟨nofun, fun _ => h.2 rfl⟩

theorem configurePost_stage :
    Stage (Going Untouched f₀) configurePost (Going Untouched f₀) (Ended f₀) := by
  intro t d ht
  unfold configurePost
  rw [wp_get_bind]
  by_cases hpre : d.result.preConfigured = false
  · rw [if_pos hpre]
    exact stage_of_serves (serves_fail (by decide) _ _) (fun _ => attempted_of_untouched) t d ht
  · rw [if_neg hpre, wp_bind]
    have hall := @stage_of_serves f₀ _ _ (serves_every latency_serves) fun _ => attempted_of_untouched
    refine wp_mono (hall t d ht) fun log ok d' h => ?_
    cases ok with
    | true =>
        rw [if_pos rfl, wp_modify_bind, wp_pure, List.append_nil]
        exact ⟨fun _ => (h.1 rfl).noted rfl rfl rfl, nofun⟩
    | false =>
        rw [if_neg Bool.false_ne_true, wp_pure, List.append_nil]
        exact ⟨nofun, fun _ => h.2 rfl⟩

theorem attempted_of_elsewhere (h : Elsewhere t) : Attempted t := attempted_of_untouched ⟨h.readBack, h.sent⟩

theorem enter_stage (hinv : Inv d) :
    enter.wp (fun log ok d' => (ok = true → Going Untouched d.fault log d') ∧ (ok = false → Ended d.fault log d')) d := by
  unfold enter
  rw [wp_get_bind]
  cases hbusy : d.busy with
  | true =>
      rw [if_pos rfl, wp_fail]
      have h := served_fail (e := .ownership) d nofun 0 0
      refine ⟨nofun, fun _ => ⟨h.steady.fault, ?_, attempted_of_elsewhere (Elsewhere.one rfl rfl)⟩⟩
      exact inv_of_error (h.steady.cleanup.trans hinv.1) (h.owned rfl)
  | false =>
      rw [if_neg Bool.false_ne_true]
      by_cases herror : d.result.error ≠ .none
      · rw [if_pos herror, wp_pure]
        exact ⟨nofun, fun _ => ⟨(steady_traced.refl d).fault, hinv, attempted_of_elsewhere Elsewhere.nil⟩⟩
      rw [if_neg herror, wp_ask_bind]
      intro now
      have hfresh := hinv.2 (not_not.1 herror)
      by_cases hback : d.clockStarted = true ∧ now < d.last
      · rw [if_pos hback, wp_fail]
        have h := (Served.of_steady (steady_back hback.1 hback.2) rfl).trans (served_fail (e := .clock) d nofun 0 0)
        refine ⟨nofun, fun _ => ⟨h.steady.fault, ?_, ?_⟩⟩
        · exact inv_of_error (h.steady.cleanup.trans hinv.1) (h.owned rfl)
        · exact attempted_of_elsewhere ((Elsewhere.one rfl rfl).append (Elsewhere.one rfl rfl))
      rw [if_neg hback, wp_modify_bind, wp_bind]
      refine wp_mono (check_spec _) fun log ok d' h => ?_
      rcases h with ⟨hserved, helse, hclocked, -⟩
      have htracks : Tracks d.fault (.call .nowUs now :: log) d' := hserved.steady.fault
      have hcleanup : d'.cleanup = false := hserved.steady.cleanup.trans hinv.1
      have hevents : Elsewhere (.call .nowUs now :: log) := (Elsewhere.one rfl rfl).append helse
      cases ok with
      | true =>
          rw [if_pos rfl, wp_modify_bind, wp_pure, List.append_nil]
          refine ⟨fun _ => ?_, nofun⟩
          have hgoing : Going Untouched d.fault (.call .nowUs now :: log) d' :=
            ⟨htracks, hcleanup, hserved.steady.l1Changed.trans hfresh.1, hserved.steady.l1RestoreFailed.trans hfresh.2,
              hclocked rfl [.call .nowUs now], hserved.clean rfl, hevents.readBack, hevents.sent⟩
          exact hgoing.noted rfl rfl rfl
      | false =>
          rw [if_neg Bool.false_ne_true, wp_pure, List.append_nil]
          exact ⟨nofun, fun _ => ⟨htracks, inv_of_error hcleanup (hserved.owned rfl), attempted_of_elsewhere hevents⟩⟩

def Left (g : List UInt8 → List UInt8 → Prop) (f₀ : Option Fault) (log : Trace) (ok : Bool) (d' : Initialization) : Prop :=
  Ended f₀ log d' ∧ (ok = true → faults log = [] ∧ g (readBack log) (sent log))

theorem guarded_leaves {body : Link Bool} (hbody : ∀ f₀, Stage (Going Untouched f₀) body (Going g f₀) (Ended f₀))
    (hg : ∀ t, g (readBack t) (sent t) → Attempted t) (hinv : Inv d) :
    (guarded body).wp (Left g d.fault) d := by
  unfold guarded
  rw [wp_bind]
  refine wp_mono (enter_stage hinv) fun log ok d' h => ?_
  cases ok with
  | true =>
      rw [if_pos rfl, wp_bind]
      refine wp_mono (hbody d.fault log d' (h.1 rfl)) fun log' ok' d'' h' => ?_
      rw [wp_modify_bind, wp_pure, List.append_nil]
      cases ok' with
      | true =>
          have hgoing : Going g d.fault _ { d'' with busy := false } := (h'.1 rfl).noted rfl rfl rfl
          refine ⟨⟨hgoing.tracks, ⟨hgoing.cleanup, fun _ => ⟨hgoing.unchanged, hgoing.level⟩⟩, hg _ hgoing.values⟩, ?_⟩
          exact fun _ => ⟨hgoing.clean, hgoing.values⟩
      | false => exact ⟨⟨(h'.2 rfl).tracks, (h'.2 rfl).inv, (h'.2 rfl).attempted⟩, nofun⟩
  | false =>
      rw [if_neg Bool.false_ne_true, wp_pure, List.append_nil]
      exact ⟨h.2 rfl, nofun⟩

theorem left_at_once (hinv : Inv d) : Left g d.fault [] false d :=
  ⟨⟨(steady_traced.refl d).fault, hinv, attempted_of_elsewhere Elsewhere.nil⟩, nofun⟩

theorem preInit_leaves (actualCut : UInt8) (hinv : Inv d) : (preInit actualCut).wp (Left Settled d.fault) d := by
  unfold preInit
  rw [wp_get_bind]
  cases d.result.preConfigured with
  | true =>
      rw [if_pos rfl, wp_pure]
      exact left_at_once hinv
  | false =>
      rw [if_neg Bool.false_ne_true]
      exact guarded_leaves (fun _ => configurePre_stage actualCut) (fun _ => attempted_of_settled) hinv

theorem postInit_leaves (hinv : Inv d) : postInit.wp (Left Untouched d.fault) d := by
  unfold postInit
  rw [wp_get_bind]
  cases d.result.postConfigured with
  | true =>
      rw [if_pos rfl, wp_pure]
      exact left_at_once hinv
  | false =>
      rw [if_neg Bool.false_ne_true]
      exact guarded_leaves (fun _ => configurePost_stage) (fun _ => attempted_of_untouched) hinv

/-! ## A late cleanup -/

/-- The trace ends with a call that forbids the cleanup: the gate is lost, it is cancelled, or the clock has gone
back. -/
def Forbidden (t : Trace) : Prop :=
  ∃ before f,
    t = before ++ [.call .inGate false, .note f] ∨ t = before ++ [.call .cancelled true, .note f] ∨
      ∃ now, t = before ++ [.call .nowUs now, .note f] ∧ ¬ (readings t).Pairwise (· ≤ ·)

/-- Whoever sends the byte without L1 sends the saved byte after it, or was forbidden to. -/
def PutBack (t : Trace) : Prop :=
  ∀ v ∈ sent t, v &&& 8 = 0 →
    ∃ saved, (readBack t).head? = some saved ∧ (sent t = [v, saved] ∨ Forbidden t)

/-- What a call of an entry point does. -/
structure Restores (x : Record Initialization Io Reply Fault Op Bool) : Prop where
  level : x.op ≠ .postInit → x.result = true → faults x.log = [] ∧ Level x.log
  attempted : Attempted x.log
  first : x.after.fault = x.before.fault.or (faults x.log).head?
  bounded : (x.log.map isCall).sum ≤ 122903

theorem exec_restores {op : Op} {ok : Bool} (hinv : Inv d) (hout : (exec op d).Outcome log (ok, d')) :
    Inv d' ∧ Restores ⟨d, op, log, ok, d'⟩ := by
  cases op with
  | preInit actualCut =>
      rcases wp_outcome (preInit_leaves actualCut hinv) hout with ⟨hended, hok⟩
      refine ⟨hended.inv, fun _ htrue => ?_, hended.attempted, hended.tracks, ?_⟩
      · rcases hok htrue with ⟨hclean, saved, hhead, hlast, -⟩
        exact ⟨hclean, saved, hhead, hlast⟩
      · exact wp_outcome (preInit_spends actualCut d) hout
  | postInit =>
      rcases wp_outcome (postInit_leaves hinv) hout with ⟨hended, -⟩
      refine ⟨hended.inv, fun hpre => absurd rfl hpre, hended.attempted, hended.tracks, ?_⟩
      exact (wp_outcome (postInit_spends d) hout).trans (by decide)

theorem run_inv {h : List (Record Initialization Io Reply Fault Op Bool)} (hrun : Run exec {} h d) : Inv d :=
  Run.invariant (P := fun _ d => Inv d) ⟨rfl, fun _ => ⟨rfl, rfl⟩⟩
    (fun _ hinv hout => (exec_restores hinv hout).1) hrun

/-- A device that keeps what is written.  After L1 was switched off, an access takes 5 ms and fails. -/
structure Device where
  now : UInt64 := 0
  word : UInt32 := 0
  mdio : UInt16 := 0
  l1 : UInt8 := 8
  off : Bool := false

end PciLink
end Rtl8852be
