import Rtl8852be.Interaction.Checks
import Rtl8852be.Interaction.History

/-!
# Latch — objects that stop at their first fault

An object with a latch records its first fault and lets nothing more reach its environment.  The code that
uses such an object need not look at any result.

* `Latch` — what is recorded, what is counted, and which events reach the environment or are a sign of a
  fault.  A clock that goes back, or on for too long, is one, so the first and the last reading of the
  clock belong to what was seen;
* `Mark` — what is remarked of accessors and polls: their arguments and results, whatever they recorded;
* `Latched` — what holds of every piece of code: after the first sign of a fault nothing reaches the
  environment, the recorded fault stays, and the budget bounds the accesses;
* `keeps_checked`, `faults_checked` — the rules for code that starts with a check;
* `checks_get`, `checked_next`, `checked_reading` — the rules for the check itself; `judges_round` — the one for a
  round of a poll;
* `Latched.silent_after` — the same, read from a trace.
-/

namespace Rtl8852be
namespace Interaction

/-- What is remarked of a call, whatever became of it: an accessor came back; a poll looked at the clock,
tried its condition, and came back. -/
inductive Mark (A : Type)
  | called (x : A)
  | turned (start now : UInt64)
  | tried (start now : UInt64) (timeout : ℕ) (done : Bool)
  | polled (ok : Bool)
  deriving DecidableEq

/-- The remarks that tell of a fault: an argument that is refused, a clock behind the start of the poll, a
condition that does not hold in time, and a poll that fails. -/
def Mark.failing {A : Type} (refused : A → Bool) : Mark A → Bool
  | .called x => refused x
  | .turned start now => decide (now < start)
  | .tried start now timeout done => !done && decide (timeout ≤ (now - start).toNat)
  | .polled ok => !ok

/-- What the latch of an object is about. -/
structure Latch (σ C : Type) (R : C → Type) (N ρ : Type) where
  /-- The recorded fault. -/
  fault : σ → Option ρ
  /-- The accesses that were counted, and how many may be. -/
  spent : σ → ℕ
  limit : σ → ℕ
  /-- The first and the last reading of the clock that were checked. -/
  clock : σ → Option (UInt64 × UInt64)
  /-- So much time after the first reading is too much. -/
  expired : UInt64 → Bool
  reaches : Event C R N → Bool
  /-- The events that the budget is for. -/
  counted : Event C R N → Bool
  reading : Event C R N → Option UInt64
  /-- The signs of a fault, clocks apart. -/
  failing : Event C R N → Bool

namespace Latch

variable {σ C : Type} {R : C → Type} {N ρ : Type} (L : Latch σ C R N ρ)

/-- What was seen so far: the readings of the clock, and whether there was a sign of a fault. -/
abbrev Seen := Option (UInt64 × UInt64) × Bool

/-- The readings of the clock after an event. -/
def clocked (c : Option (UInt64 × UInt64)) (e : Event C R N) : Option (UInt64 × UInt64) :=
  match L.reading e with
  | none => c
  | some now => some ((c.map Prod.fst).getD now, now)

def trips (c : Option (UInt64 × UInt64)) (e : Event C R N) : Bool :=
  L.failing e ||
    match c, L.reading e with
    | some (first, last), some now => decide (now < last) || L.expired (now - first)
    | _, _ => false

def sees (m : Seen) (e : Event C R N) : Seen := (L.clocked m.1 e, m.2 || L.trips m.1 e)

/-- Nothing reaches the environment after a sign of a fault. -/
def Quiet : Seen → List (Event C R N) → Prop
  | _, [] => True
  | m, e :: log => (m.2 = true → L.reaches e = false) ∧ Quiet (L.sees m e) log

theorem quiet_append {m : Seen} {log log' : List (Event C R N)} :
    L.Quiet m (log ++ log') ↔ L.Quiet m log ∧ L.Quiet (log.foldl L.sees m) log' := by
  induction log generalizing m with
  | nil => exact ⟨fun h => ⟨trivial, h⟩, fun h => h.2⟩
  | cons e log ih =>
      rw [List.cons_append, Quiet, Quiet, ih, List.foldl_cons, and_assoc]

/-- The object has recorded what was seen. -/
structure Agrees (s : σ) (m : Seen) : Prop where
  fault : m.2 = true → L.fault s ≠ none
  clock : L.fault s = none → m.1 = L.clock s

/-- What any code over the object does. -/
structure Latched (s : σ) (log : List (Event C R N)) (s' : σ) : Prop where
  quiet : ∀ m, L.Agrees s m → L.Quiet m log ∧ L.Agrees s' (log.foldl L.sees m)
  first : L.fault s ≠ none → L.fault s' = L.fault s
  full : L.limit s ≤ L.spent s → ∀ e ∈ log, L.reaches e = false
  counts : log.countP L.counted + L.spent s ≤ L.spent s'
  bound : L.spent s' ≤ max (L.spent s) (L.limit s)
  limit : L.limit s' = L.limit s

theorem latched_traced : Traced L.Latched where
  refl s := ⟨fun m hm => ⟨trivial, hm⟩, fun _ => rfl, fun _ _ he => absurd he List.not_mem_nil,
    Nat.le_of_eq (Nat.zero_add _), Nat.le_max_left _ _, rfl⟩
  trans := by
    intro s s' s'' log log' h h'
    refine ⟨fun m hm => ?_, fun hf => ?_, fun hfull e he => ?_, ?_, ?_, h'.limit.trans h.limit⟩
    · rcases h.quiet m hm with ⟨hlog, hs'⟩
      rcases h'.quiet _ hs' with ⟨hlog', hs''⟩
      rw [L.quiet_append, List.foldl_append]
      exact ⟨⟨hlog, hlog'⟩, hs''⟩
    · have hfirst := h.first hf
      rw [h'.first (by rw [hfirst]; exact hf), hfirst]
    · have hcounts := h.counts
      have hlimit := h.limit
      rcases List.mem_append.1 he with he | he
      · exact h.full hfull e he
      · exact h'.full (by omega) e he
    · calc (log ++ log').countP L.counted + L.spent s
          = log'.countP L.counted + (log.countP L.counted + L.spent s) := by
            rw [List.countP_append]
            omega
        _ ≤ log'.countP L.counted + L.spent s' := Nat.add_le_add_left h.counts _
        _ ≤ L.spent s'' := h'.counts
    · have hlimit := h.limit
      have hbound := h.bound
      have hbound' := h'.bound
      rw [hlimit] at hbound'
      omega

/-- The object may be used once more. -/
structure Open (s : σ) : Prop where
  fault : L.fault s = none
  room : L.spent s < L.limit s

/-! ### Rules -/

section Rules

variable {s s' : σ} {L}

theorem fault_none_of_first (hfirst : L.fault s ≠ none → L.fault s' = L.fault s) (hf' : L.fault s' = none) :
    L.fault s = none := by
  by_contra hf
  exact hf ((hfirst hf).symm.trans hf')

/-- Bookkeeping that touches none of it, or records a first fault. -/
theorem latched_silent (hfirst : L.fault s ≠ none → L.fault s' = L.fault s)
    (hclock : L.fault s' = none → L.clock s' = L.clock s) (hspent : L.spent s' = L.spent s)
    (hlimit : L.limit s' = L.limit s) : L.Latched s [] s' := by
  have hnone := fault_none_of_first hfirst
  refine ⟨fun m hm => ⟨trivial, fun ht => ?_, fun hf => ?_⟩, hfirst,
    fun _ _ he => absurd he List.not_mem_nil, ?_, ?_, hlimit⟩
  · exact fun hf' => hm.fault ht (hnone hf')
  · rw [hclock hf]
    exact hm.clock (hnone hf)
  · rw [hspent]
    exact Nat.le_of_eq (Nat.zero_add _)
  · rw [hspent]
    exact Nat.le_max_left _ _

theorem latched_event {e : Event C R N} (hreading : L.reading e = none)
    (hreaches : L.reaches e = true → L.Open s) (hfailing : L.failing e = true → L.fault s' ≠ none)
    (hfirst : L.fault s ≠ none → L.fault s' = L.fault s) (hclock : L.fault s' = none → L.clock s' = L.clock s)
    (hcounts : (if L.counted e then 1 else 0) + L.spent s ≤ L.spent s')
    (hbound : L.spent s' ≤ max (L.spent s) (L.limit s)) (hlimit : L.limit s' = L.limit s) :
    L.Latched s [e] s' := by
  have hnone := fault_none_of_first hfirst
  have htrips : ∀ c, L.trips c e = L.failing e := by
    intro c
    unfold trips
    rw [hreading]
    cases c <;> exact Bool.or_false _
  refine ⟨fun m hm => ⟨⟨fun ht => ?_, trivial⟩, fun ht => ?_, fun hf => ?_⟩, hfirst, fun hfull e' he' => ?_, ?_,
    hbound, hlimit⟩
  · rw [← Bool.not_eq_true]
    exact fun hr => hm.fault ht (hreaches hr).fault
  · have hsees : m.2 || L.failing e := by
      rw [← htrips m.1]
      exact ht
    rcases Bool.or_eq_true _ _ ▸ hsees with hbefore | hnow
    · exact fun hf' => hm.fault hbefore (hnone hf')
    · exact hfailing hnow
  · have hsame : (L.sees m e).1 = m.1 := by
      unfold sees clocked
      rw [hreading]
    rw [List.foldl_cons, List.foldl_nil, hsame, hclock hf]
    exact hm.clock (hnone hf)
  · rw [List.mem_singleton.1 he', ← Bool.not_eq_true]
    exact fun hr => absurd (hreaches hr).room (Nat.not_lt.2 hfull)
  · rw [List.countP_singleton]
    exact hcounts

/-- A reading of the clock that is checked against the earlier ones. -/
theorem latched_reading {e : Event C R N} {now : UInt64} (hreading : L.reading e = some now)
    (hreaches : L.reaches e = false) (hfailing : L.failing e = false) (hcounted : L.counted e = false)
    (hwrong : ∀ first last, L.clock s = some (first, last) →
      now < last ∨ L.expired (now - first) = true → L.fault s' ≠ none)
    (hfirst : L.fault s ≠ none → L.fault s' = L.fault s)
    (hclock : L.fault s' = none → L.clock s' = L.clocked (L.clock s) e)
    (hspent : L.spent s' = L.spent s) (hlimit : L.limit s' = L.limit s) : L.Latched s [e] s' := by
  have hnone := fault_none_of_first hfirst
  refine ⟨fun m hm => ⟨⟨fun _ => hreaches, trivial⟩, fun ht => ?_, fun hf => ?_⟩, hfirst, fun _ e' he' => ?_, ?_, ?_,
    hlimit⟩
  · intro hf'
    have hm₂ : m.2 = false := by
      rw [← Bool.not_eq_true]
      exact fun hyes => hm.fault hyes (hnone hf')
    have hclockm := hm.clock (hnone hf')
    have hsees : (L.sees m e).2 = true := ht
    unfold sees trips at hsees
    rw [hm₂, hfailing, hreading, hclockm, Bool.false_or, Bool.false_or] at hsees
    cases hl : L.clock s with
    | none =>
        rw [hl] at hsees
        exact absurd hsees Bool.false_ne_true
    | some c =>
        rcases c with ⟨first, last⟩
        rw [hl] at hsees
        refine hwrong first last hl ?_ hf'
        have hwrong' : (decide (now < last) || L.expired (now - first)) = true := hsees
        rw [Bool.or_eq_true, decide_eq_true_eq] at hwrong'
        exact hwrong'
  · show L.clocked m.1 e = L.clock s'
    rw [hm.clock (hnone hf), hclock hf]
  · rw [List.mem_singleton.1 he']
    exact hreaches
  · rw [List.countP_singleton, hcounted, hspent, if_neg Bool.false_ne_true, Nat.zero_add]
  · rw [hspent]
    exact Nat.le_max_left _ _

/-- What a check promises: it reaches nothing, and says whether the object may be used. -/
structure Checked (L : Latch σ C R N ρ) (s : σ) (log : List (Event C R N)) (ok : Bool) (s' : σ) : Prop where
  latched : L.Latched s log s'
  still : ∀ e ∈ log, L.reaches e = false
  opens : ok = true → L.Open s'
  faults : ok = false → L.fault s' ≠ none

def Checks (L : Latch σ C R N ρ) (check : Code σ C R N Bool) : Prop := ∀ s, check.wp (L.Checked s) s

theorem keeps_checked {α : Type} {check : Code σ C R N Bool} {m m' : Code σ C R N α} (hcheck : L.Checks check)
    (hm : ∀ s, L.Open s → m.wp (fun log _ s' => L.Latched s log s') s) (hm' : m'.Keeps L.Latched) :
    (do if ← check then m else m').Keeps L.Latched := by
  intro s
  rw [wp_bind]
  refine wp_mono (hcheck s) fun log ok s' h => ?_
  cases ok with
  | true =>
      rw [if_pos rfl]
      exact wp_mono (hm s' (h.opens rfl)) fun log' _ s'' h' => L.latched_traced.trans h.latched h'
  | false =>
      rw [if_neg Bool.false_ne_true]
      exact wp_mono (hm' s') fun log' _ s'' h' => L.latched_traced.trans h.latched h'

theorem Checks.keeps {check : Code σ C R N Bool} (hcheck : L.Checks check) : check.Keeps L.Latched :=
  fun s => wp_mono (hcheck s) fun _ _ _ h => h.latched

abbrev Faults (L : Latch σ C R N ρ) {α : Type} (m : Code σ C R N α) : Prop :=
  m.Keeps fun _ _ s' => L.fault s' ≠ none

theorem Latched.faults {log : List (Event C R N)} (h : L.Latched s log s') (hs : L.fault s ≠ none) :
    L.fault s' ≠ none := by
  rw [h.first hs]
  exact hs

theorem Faults.bind {α β : Type} {m : Code σ C R N β} {f : β → Code σ C R N α} (hm : L.Faults m)
    (hf : ∀ b, (f b).Keeps L.Latched) : L.Faults (m >>= f) := by
  intro s
  rw [wp_bind]
  refine wp_mono (hm s) fun log b s' h => ?_
  exact wp_mono (hf b s') fun log' _ s'' h' => h'.faults h

theorem faults_bind {α β : Type} {m : Code σ C R N β} {f : β → Code σ C R N α} (hm : m.Keeps L.Latched)
    (hf : ∀ b, L.Faults (f b)) : L.Faults (m >>= f) := by
  intro s
  rw [wp_bind]
  exact wp_mono (hm s) fun _ b s' _ => hf b s'

theorem faults_modify_bind {α : Type} (g : σ → σ) {f : PUnit → Code σ C R N α} (hf : L.Faults (f ⟨⟩)) :
    L.Faults (modify g >>= f) := by
  intro s
  rw [wp_modify_bind]
  exact hf (g s)

theorem faults_checked {α : Type} {check : Code σ C R N Bool} {m m' : Code σ C R N α} (hcheck : L.Checks check)
    (hm : L.Faults m) (hm' : m'.Keeps L.Latched) : L.Faults (do if ← check then m else m') := by
  intro s
  rw [wp_bind]
  refine wp_mono (hcheck s) fun log ok s' h => ?_
  cases ok with
  | true =>
      rw [if_pos rfl]
      exact hm s'
  | false =>
      rw [if_neg Bool.false_ne_true]
      exact wp_mono (hm' s') fun log' _ s'' h' => h'.faults (h.faults rfl)

/-- Remarks are neither readings nor accesses. -/
structure Remarks (L : Latch σ C R N ρ) : Prop where
  reading : ∀ n, L.reading (.note n) = none
  reaches : ∀ n, L.reaches (.note n) = false
  counted : ∀ n, L.counted (.note n) = false

theorem Remarks.latched (hL : L.Remarks) {n : N} (hfirst : L.fault s ≠ none → L.fault s' = L.fault s)
    (hfailing : L.failing (.note n) = true → L.fault s' ≠ none)
    (hclock : L.fault s' = none → L.clock s' = L.clock s) (hspent : L.spent s' = L.spent s)
    (hlimit : L.limit s' = L.limit s) : L.Latched s [.note n] s' := by
  refine latched_event (hL.reading n) ?_ hfailing hfirst hclock ?_ ?_ hlimit
  · rw [hL.reaches n]
    exact fun h => absurd h Bool.false_ne_true
  · rw [hL.counted n, if_neg Bool.false_ne_true, Nat.zero_add, hspent]
  · rw [hspent]
    exact Nat.le_max_left _ _

/-- Code whose end is remarked.  If the remark tells of a fault, there is one. -/
theorem keeps_marked {α : Type} {m : Code σ C R N α} {n : α → N} (hL : L.Remarks) (hm : m.Keeps L.Latched)
    (hfaults : ∀ s, m.wp (fun _ a s' => L.failing (.note (n a)) = true → L.fault s' ≠ none) s) :
    (do
      let a ← m
      Code.tell (n a)
      return a).Keeps L.Latched := by
  intro s
  rw [wp_bind]
  refine wp_mono (wp_and (hm s) (hfaults s)) fun log a s' h => ?_
  rw [wp_tell_bind, wp_pure]
  exact L.latched_traced.trans h.1 (hL.latched (fun _ => rfl) h.2 (fun _ => rfl) rfl rfl)

/-- The code has recorded why it returned false. -/
def judged (L : Latch σ C R N ρ) (s : σ) (log : List (Event C R N)) (ok : Bool) (s' : σ) : Prop :=
  L.Latched s log s' ∧ (ok = false → L.fault s' ≠ none)

abbrev Judges (L : Latch σ C R N ρ) (m : Code σ C R N Bool) : Prop := ∀ s, m.wp (L.judged s) s

theorem judges_true : L.Judges (pure true) := by
  intro s
  rw [wp_pure]
  exact ⟨L.latched_traced.refl s, fun h => absurd h.symm Bool.false_ne_true⟩

theorem Judges.keeps {m : Code σ C R N Bool} (hm : L.Judges m) : m.Keeps L.Latched :=
  fun s => wp_mono (hm s) fun _ _ _ h => h.1

theorem judged_after {log log' : List (Event C R N)} {ok : Bool} {s'' : σ} (h : L.Latched s log s')
    (h' : L.judged s' log' ok s'') : L.judged s (log ++ log') ok s'' :=
  ⟨L.latched_traced.trans h h'.1, h'.2⟩

theorem judges_bind {β : Type} {m : Code σ C R N β} {f : β → Code σ C R N Bool} (hm : m.Keeps L.Latched)
    (hf : ∀ b, L.Judges (f b)) : L.Judges (m >>= f) := by
  intro s
  rw [wp_bind]
  refine wp_mono (hm s) fun log b s' h => ?_
  exact wp_mono (hf b s') fun log' ok s'' h' => judged_after h h'

theorem judges_checked {check m : Code σ C R N Bool} (hcheck : L.Checks check)
    (hm : ∀ s, L.Open s → m.wp (L.judged s) s) : L.Judges (do if ← check then m else return false) := by
  intro s
  rw [wp_bind]
  refine wp_mono (hcheck s) fun log ok s' h => ?_
  cases ok with
  | true =>
      rw [if_pos rfl]
      exact wp_mono (hm s' (h.opens rfl)) fun log' ok s'' h' => judged_after h.latched h'
  | false =>
      rw [if_neg Bool.false_ne_true, wp_pure]
      exact judged_after h.latched ⟨L.latched_traced.refl s', fun _ => h.faults rfl⟩

/-- An event that no rule is about: it is no sign of a fault, and nothing is counted. -/
theorem latched_neutral {e : Event C R N} (hreading : L.reading e = none) (hreaches : L.reaches e = false)
    (hfailing : L.failing e = false) (hcounted : L.counted e = false) : L.Latched s [e] s := by
  refine latched_event hreading ?_ ?_ (fun _ => rfl) (fun _ => rfl) ?_ (Nat.le_max_left _ _) rfl
  · rw [hreaches]
    exact fun h => absurd h Bool.false_ne_true
  · rw [hfailing]
    exact fun h => absurd h Bool.false_ne_true
  · rw [hcounted, if_neg Bool.false_ne_true, Nat.zero_add]

/-- A change of the record that leaves a fault, and no other one if there was one already. -/
structure Records (L : Latch σ C R N ρ) (g : σ → σ) : Prop where
  faults : ∀ s, L.fault (g s) ≠ none
  first : ∀ s, L.fault s ≠ none → L.fault (g s) = L.fault s
  spent : ∀ s, L.spent (g s) = L.spent s
  limit : ∀ s, L.limit (g s) = L.limit s

theorem Records.latched {g : σ → σ} (hg : L.Records g) : L.Latched s [] (g s) :=
  latched_silent (hg.first s) (fun h => absurd h (hg.faults s)) (hg.spent s) (hg.limit s)

theorem Records.event {g : σ → σ} (hg : L.Records g) {e : Event C R N} (hreading : L.reading e = none)
    (hreaches : L.reaches e = true → L.Open s) (hcounted : L.counted e = false) : L.Latched s [e] (g s) := by
  refine latched_event hreading hreaches (fun _ => hg.faults s) (hg.first s) (fun h => absurd h (hg.faults s)) ?_ ?_
    (hg.limit s)
  · rw [hcounted, if_neg Bool.false_ne_true, Nat.zero_add, hg.spent]
  · rw [hg.spent]
    exact Nat.le_max_left _ _

theorem Records.judged {g : σ → σ} (hg : L.Records g) :
    (do modify g; return false : Code σ C R N Bool).wp (L.judged s) s := by
  rw [wp_modify_bind, wp_pure]
  exact ⟨hg.latched, fun _ => hg.faults s⟩

/-- A remark, and code that records the fault that the remark tells of before it does anything else. -/
theorem judged_told {n : N} {m : Code σ C R N Bool} (hL : L.Remarks)
    (hbad : L.failing (.note n) = true → ∃ g, L.Records g ∧ m = (do modify g; return false))
    (hm : L.failing (.note n) = false → m.wp (L.judged s) s) :
    (do
      Code.tell n
      m).wp (L.judged s) s := by
  rw [wp_tell_bind]
  cases hn : L.failing (.note n) with
  | true =>
      rcases hbad hn with ⟨g, hg, rfl⟩
      rw [wp_modify_bind, wp_pure]
      have hfault := hg.faults s
      exact ⟨hL.latched (hg.first s) (fun _ => hfault) (fun h => absurd h hfault) (hg.spent s) (hg.limit s),
        fun _ => hfault⟩
  | false =>
      have htold : L.Latched s [.note n] s :=
        hL.latched (fun _ => rfl) (fun hyes => absurd (hn.symm.trans hyes) Bool.false_ne_true) (fun _ => rfl) rfl rfl
      exact wp_mono (hm hn) fun log ok s' h => judged_after htold h

theorem Records.reading {g : σ → σ} (hg : L.Records g) {e : Event C R N} {now : UInt64} {s₁ : σ}
    (hreading : L.reading e = some now) (hreaches : L.reaches e = false) (hfailing : L.failing e = false)
    (hcounted : L.counted e = false) (hfault : L.fault s₁ = L.fault s) (hspent : L.spent s₁ = L.spent s)
    (hlimit : L.limit s₁ = L.limit s) : L.Latched s [e] (g s₁) := by
  refine latched_reading hreading hreaches hfailing hcounted (fun _ _ _ _ => hg.faults s₁) (fun h => ?_)
    (fun h => absurd h (hg.faults s₁)) ((hg.spent s₁).trans hspent) ((hg.limit s₁).trans hlimit)
  rw [hg.first s₁ (by rw [hfault]; exact h), hfault]

theorem records_first {p : σ → Prop} [DecidablePred p] {set : σ → σ} (hp : ∀ s, L.fault s = none ↔ p s)
    (hfaults : ∀ s, L.fault (set s) ≠ none) (hspent : ∀ s, L.spent (set s) = L.spent s)
    (hlimit : ∀ s, L.limit (set s) = L.limit s) : L.Records fun s => if p s then set s else s where
  faults s := by
    by_cases hs : p s
    · rw [if_pos hs]
      exact hfaults s
    · rw [if_neg hs]
      exact fun hnone => hs ((hp s).1 hnone)
  first s hs := by rw [if_neg fun hyes => hs ((hp s).2 hyes)]
  spent s := by
    split
    · exact hspent s
    · rfl
  limit s := by
    split
    · exact hlimit s
    · rfl

/-! ### Checks -/

theorem checks_get {p : σ → Prop} [DecidablePred p] {m : σ → Code σ C R N Bool} (hp : ∀ s, p s ↔ L.fault s ≠ none)
    (hm : ∀ s, L.fault s = none → (m s).wp (L.Checked s) s) :
    L.Checks (do
      let s ← get
      if p s then return false else m s) := by
  intro s
  rw [wp_get_bind]
  by_cases hs : p s
  · rw [if_pos hs, wp_pure]
    exact ⟨L.latched_traced.refl s, fun _ he => absurd he List.not_mem_nil, fun h => absurd h Bool.false_ne_true,
      fun _ => (hp s).1 hs⟩
  · rw [if_neg hs]
    exact hm s (not_not.1 fun hfault => hs ((hp s).2 hfault))

theorem Records.checked {g : σ → σ} (hg : L.Records g) {e : Event C R N} (hreading : L.reading e = none)
    (hreaches : L.reaches e = false) (hcounted : L.counted e = false) :
    (do modify g; return false : Code σ C R N Bool).wp (fun log => L.Checked s (e :: log)) s := by
  rw [wp_modify_bind, wp_pure]
  refine ⟨hg.event hreading ?_ hcounted, fun e' he' => (List.mem_singleton.1 he') ▸ hreaches,
    fun h => absurd h Bool.false_ne_true, fun _ => hg.faults s⟩
  rw [hreaches]
  exact fun h => absurd h Bool.false_ne_true

theorem checked_next {e : Event C R N} {m : Code σ C R N Bool} (hm : m.wp (L.Checked s) s)
    (hreading : L.reading e = none) (hreaches : L.reaches e = false) (hfailing : L.failing e = false)
    (hcounted : L.counted e = false) : m.wp (fun log => L.Checked s (e :: log)) s := by
  refine wp_mono hm fun log ok s' h => ⟨?_, List.forall_mem_cons.2 ⟨hreaches, h.still⟩, h.opens, h.faults⟩
  exact L.latched_traced.trans (latched_neutral hreading hreaches hfailing hcounted) h.latched

/-- Nothing but the clock is another. -/
structure Timed (L : Latch σ C R N ρ) (s s₁ : σ) : Prop where
  fault : L.fault s₁ = L.fault s
  spent : L.spent s₁ = L.spent s
  limit : L.limit s₁ = L.limit s

/-- The reading of the clock in a check, which starts the clock if it was not started: a reading behind the last
one is a fault, and so is one that is too late. -/
theorem checked_reading {e : Event C R N} {now : UInt64} {start advance g g' : σ → σ} {previous : σ → UInt64}
    {late : σ → Prop} [DecidablePred late] (hnone : L.fault s = none) (hg : L.Records g) (hg' : L.Records g')
    (hreading : L.reading e = some now) (hreaches : L.reaches e = false) (hfailing : L.failing e = false)
    (hcounted : L.counted e = false) (hstart : L.Timed s (start s)) (hadvance : L.Timed s (advance (start s)))
    (hprevious : ∀ first last, L.clock s = some (first, last) → previous (start s) = last)
    (hclock : L.clock (advance (start s)) = some (((L.clock s).map Prod.fst).getD now, now))
    (hlate : ¬ late (advance (start s)) → L.expired (now - ((L.clock s).map Prod.fst).getD now) = false ∧
      L.spent s < L.limit s) :
    (do
      modify start
      let s ← get
      if now < previous s then do
        modify g
        return false
      else do
        modify advance
        let s ← get
        if late s then do
          modify g'
          return false
        else
          return true : Code σ C R N Bool).wp (fun log => L.Checked s (e :: log)) s := by
  have hstill : ∀ e' ∈ [e], L.reaches e' = false := fun e' he' => (List.mem_singleton.1 he') ▸ hreaches
  rw [wp_modify_bind, wp_get_bind]
  by_cases hback : now < previous (start s)
  · rw [if_pos hback, wp_modify_bind, wp_pure]
    exact ⟨hg.reading hreading hreaches hfailing hcounted hstart.fault hstart.spent hstart.limit, hstill,
      fun h => absurd h Bool.false_ne_true, fun _ => hg.faults _⟩
  rw [if_neg hback, wp_modify_bind, wp_get_bind]
  by_cases hover : late (advance (start s))
  · rw [if_pos hover, wp_modify_bind, wp_pure]
    exact ⟨hg'.reading hreading hreaches hfailing hcounted hadvance.fault hadvance.spent hadvance.limit, hstill,
      fun h => absurd h Bool.false_ne_true, fun _ => hg'.faults _⟩
  rw [if_neg hover, wp_pure]
  rcases hlate hover with ⟨hexpired, hroom⟩
  refine ⟨latched_reading hreading hreaches hfailing hcounted (fun first last hlast hwrong => ?_)
    (fun h => absurd hnone h) (fun _ => ?_) hadvance.spent hadvance.limit, hstill,
    fun _ => ⟨hadvance.fault.trans hnone, ?_⟩, fun h => absurd h.symm Bool.false_ne_true⟩
  · rw [hprevious first last hlast] at hback
    rw [hlast] at hexpired
    exact hwrong.elim (fun h => absurd h hback) fun h => absurd (hexpired.symm.trans h) Bool.false_ne_true
  · rw [hclock]
    unfold clocked
    rw [hreading]
  · rw [hadvance.spent, hadvance.limit]
    exact hroom

/-- One round of a poll: a look at the clock, the condition, and another look. -/
theorem judges_round {A : Type} {L : Latch σ C R (Mark A) ρ} {refused : A → Bool} {check ready fail rest : Code σ C R (Mark A) Bool}
    {late : σ → Code σ C R (Mark A) Bool} {previous : σ → UInt64} {count : σ → σ} {start : UInt64} {timeout : ℕ}
    (hL : L.Remarks) (hfailing : ∀ x, L.failing (.note x) = x.failing refused) (hcheck : L.Checks check)
    (hready : ready.Keeps L.Latched) (hcount : ∀ s, L.Latched s [] (count s))
    (hfail : ∃ g, L.Records g ∧ fail = (do modify g; return false))
    (hlate : ∀ s, ∃ g, L.Records g ∧ late s = (do modify g; return false))
    (hrest : ∀ s, L.Open s → rest.wp (L.judged s) s) :
    L.Judges (do
      if ← check then do
        let s ← get
        Code.tell (.turned start (previous s))
        if previous s < start then
          fail
        else do
          let done ← ready
          modify count
          if ← check then do
            let s ← get
            Code.tell (.tried start (previous s) timeout done)
            if done then
              return true
            else if timeout ≤ (previous s - start).toNat then
              late s
            else
              rest
          else
            return false
      else
        return false) := by
  refine judges_checked hcheck fun s _ => ?_
  rw [wp_get_bind]
  refine judged_told hL (fun hbad => ?_) fun hgood => ?_
  · rw [hfailing] at hbad
    rw [if_pos (of_decide_eq_true hbad)]
    exact hfail
  rw [hfailing] at hgood
  rw [if_neg (of_decide_eq_false hgood)]
  refine judges_bind hready (fun done => judges_bind (fun s => (wp_modify _).2 (hcount s)) fun _ => ?_) s
  refine judges_checked hcheck fun s hopen => ?_
  rw [wp_get_bind]
  refine judged_told hL (fun hbad => ?_) fun hgood => ?_
  · have hover : done = false ∧ timeout ≤ (previous s - start).toNat := by
      simpa [hfailing, Mark.failing] using hbad
    rw [if_neg (by rw [hover.1]; exact Bool.false_ne_true), if_pos hover.2]
    exact hlate s
  cases done with
  | true =>
      rw [if_pos rfl]
      exact judges_true s
  | false =>
      have hintime : ¬ timeout ≤ (previous s - start).toNat := by
        simpa [hfailing, Mark.failing] using hgood
      rw [if_neg Bool.false_ne_true, if_neg hintime]
      exact hrest s hopen

/-- One access is counted. -/
structure Counting (L : Latch σ C R N ρ) (s s₁ : σ) : Prop where
  fault : L.fault s₁ = L.fault s
  clock : L.clock s₁ = L.clock s
  spent : L.spent s₁ = L.spent s + 1
  limit : L.limit s₁ = L.limit s

theorem Counting.latched {s₁ : σ} (h : L.Counting s s₁) (hs : L.Open s) : L.Latched s [] s₁ := by
  have hroom := hs.room
  have hspent := h.spent
  refine ⟨fun m hm => ⟨trivial, fun ht => ?_, fun hf => ?_⟩, fun _ => h.fault, fun _ _ he => absurd he List.not_mem_nil,
    ?_, ?_, h.limit⟩
  · rw [h.fault]
    exact hm.fault ht
  · rw [h.clock]
    exact hm.clock hs.fault
  · rw [List.countP_nil]
    omega
  · omega

theorem Counting.access {s₁ : σ} (h : L.Counting s s₁) (hs : L.Open s) {e : Event C R N}
    (hreading : L.reading e = none) (hfailing : L.failing e = false) : L.Latched s [e] s₁ := by
  have hroom := hs.room
  have hspent := h.spent
  refine latched_event hreading (fun _ => hs) ?_ (fun _ => h.fault) (fun _ => h.clock) ?_ ?_ h.limit
  · rw [hfailing]
    exact fun hno => absurd hno Bool.false_ne_true
  · split <;> omega
  · omega

/-- The access that was counted failed, and this was recorded. -/
theorem Counting.failed {s₁ : σ} {g : σ → σ} (h : L.Counting s s₁) (hg : L.Records g) (hs : L.Open s)
    {e : Event C R N} (hreading : L.reading e = none) : L.Latched s [e] (g s₁) := by
  have hroom := hs.room
  have hspent := h.spent
  have hspent' := hg.spent s₁
  have hlimit' := hg.limit s₁
  refine latched_event hreading (fun _ => hs) (fun _ => hg.faults s₁) (fun hno => absurd hs.fault hno)
    (fun hno => absurd hno (hg.faults s₁)) ?_ ?_ (hlimit'.trans h.limit)
  · split <;> omega
  · omega

/-- Nothing reaches the environment once there is a fault. -/
theorem Latched.silent {log : List (Event C R N)} (h : L.Latched s log s') (hs : L.fault s ≠ none) :
    ∀ e ∈ log, L.reaches e = false := by
  have hagrees : L.Agrees s (L.clock s, true) := ⟨fun _ => hs, fun _ => rfl⟩
  have hquiet := (h.quiet _ hagrees).1
  clear h
  have hall : ∀ (m : Seen) (l : List (Event C R N)), m.2 = true → L.Quiet m l → ∀ e ∈ l, L.reaches e = false := by
    intro m l
    induction l generalizing m with
    | nil => exact fun _ _ e he => absurd he List.not_mem_nil
    | cons x l ih =>
        intro hm hq e he
        rcases List.mem_cons.1 he with rfl | he
        · exact hq.1 hm
        · refine ih _ ?_ hq.2 e he
          unfold sees
          rw [hm]
          rfl
  exact hall _ log rfl hquiet

end Rules

/-! ### Traces -/

theorem trips_sees {m : Seen} {e : Event C R N} (h : L.trips m.1 e = true) : (L.sees m e).2 = true := by
  unfold sees
  rw [h]
  exact Bool.or_true _

theorem seen_stays {m : Seen} (hm : m.2 = true) (log : List (Event C R N)) : (log.foldl L.sees m).2 = true := by
  induction log generalizing m with
  | nil => exact hm
  | cons e log ih =>
      refine ih ?_
      unfold sees
      rw [hm]
      rfl

/-- The readings of the clock in a trace. -/
def clockAfter (c : Option (UInt64 × UInt64)) (log : List (Event C R N)) : Option (UInt64 × UInt64) :=
  log.foldl L.clocked c

theorem seen_clock (m : Seen) (log : List (Event C R N)) :
    (log.foldl L.sees m).1 = L.clockAfter m.1 log := by
  induction log generalizing m with
  | nil => rfl
  | cons e log ih => exact ih (L.sees m e)

/-- After the first sign of a fault nothing reaches the environment. -/
theorem Latched.silent_after {s s' : σ} {pre mid post : List (Event C R N)} {x y : Event C R N} {L : Latch σ C R N ρ}
    (h : L.Latched s (pre ++ x :: (mid ++ y :: post)) s')
    (hx : L.trips (L.clockAfter (L.clock s) pre) x = true) : L.reaches y = false := by
  have hagrees : L.Agrees s (L.clock s, false) := ⟨fun hno => absurd hno Bool.false_ne_true, fun _ => rfl⟩
  have hquiet := (h.quiet _ hagrees).1
  rw [L.quiet_append] at hquiet
  have hrest := hquiet.2.2
  rw [L.quiet_append] at hrest
  have htripped : (mid.foldl L.sees (L.sees (pre.foldl L.sees (L.clock s, false)) x)).2 = true := by
    refine L.seen_stays (L.trips_sees ?_) mid
    rw [L.seen_clock]
    exact hx
  exact hrest.2.1 htripped

end Latch

/-! ### Runs -/

section Runs

variable {σ C : Type} {R : C → Type} {N ρ Op α : Type} {T : σ → List (Event C R N) → σ → Prop}
  {exec : Op → Code σ C R N α} {s₀ s : σ} {h : List (Record σ C R N Op α)}

theorem Run.keeps (hT : Traced T) (hexec : ∀ op, (exec op).Keeps T) (hrun : Run exec s₀ h s) :
    T s₀ (eventsOf h) s := by
  induction hrun with
  | nil => exact hT.refl s₀
  | call hrun hout ih => exact hT.trans ih (wp_outcome (hexec _ _) hout)

/-- What a run of calls on an object with a latch is like. -/
structure Contained (L : Latch σ C R N ρ) (s₀ : σ) (h : List (Record σ C R N Op α)) : Prop where
  silent : ∀ pre x mid y post, eventsOf h = pre ++ x :: (mid ++ y :: post) →
    L.trips (L.clockAfter (L.clock s₀) pre) x = true → L.reaches y = false
  still : ∀ x ∈ h, L.fault x.before ≠ none → ∀ e ∈ x.log, L.reaches e = false
  first : ∀ x ∈ h, L.fault x.before ≠ none → L.fault x.after = L.fault x.before
  exhausted : ∀ x ∈ h, L.limit x.before ≤ L.spent x.before → ∀ e ∈ x.log, L.reaches e = false
  bounded : (eventsOf h).countP L.counted + L.spent s₀ ≤ max (L.spent s₀) (L.limit s₀)

theorem contained_of_keeps {L : Latch σ C R N ρ} (hexec : ∀ op, (exec op).Keeps L.Latched)
    (hrun : Run exec s₀ h s) : Contained L s₀ h := by
  have hlatched := hrun.keeps L.latched_traced hexec
  refine ⟨fun pre x mid y post heq => ?_, fun x hx => ?_, fun x hx => ?_, fun x hx => ?_,
    hlatched.counts.trans hlatched.bound⟩
  · rw [heq] at hlatched
    exact hlatched.silent_after
  · exact (wp_outcome (hexec x.op x.before) (hrun.outcome hx)).silent
  · exact (wp_outcome (hexec x.op x.before) (hrun.outcome hx)).first
  · exact (wp_outcome (hexec x.op x.before) (hrun.outcome hx)).full

end Runs

end Interaction
end Rtl8852be
