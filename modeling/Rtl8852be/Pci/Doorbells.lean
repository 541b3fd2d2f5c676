import Rtl8852be.Pci.BusMaster

/-!
# Doorbells — when the runtime rings, and when it does not

* `Orderly` — what one call does to the host indices, the fault flag and the interrupt masks;
* `doorbell_discipline` — the same over every run.
-/

namespace Rtl8852be
namespace Pci
namespace PciRuntime

open Interaction Network Code

/-! ## Observations on a trace -/

/-- Neither a doorbell nor an interrupt mask that is not zero. -/
structure Calm (e : Event Access Reply Mark) : Prop where
  doorbell : Event.doorbell e = false
  arms : Event.arms e = false

/-- The host index of ring `n` that this access has written. -/
def Event.hostWritten (n : Fin 9) : Event Access Reply Mark → Option UInt16
  | .call (.write16 a v) ok => if ok && a == (ringRegisters n).index then some v else none
  | .call (.write32 a v) ok => if ok && a == (ringRegisters n).index then some (hostHalf v) else none
  | _ => none

/-- The last host index that was written, if `old` was written before. -/
def lastWritten (n : Fin 9) (old : UInt16) (log : Trace) : UInt16 :=
  log.foldl (fun last e => (Event.hostWritten n e).getD last) old

/-- After the first fault everything is calm. -/
def Latched : Trace → Prop
  | [] => True
  | .note .fault :: log => ∀ e ∈ log, Calm e
  | .call _ _ :: log => Latched log

/-- The runtime has failed, or has been stopped after a start. -/
def Dead (s : PciRuntime) : Prop := s.faulted = true ∨ (s.attempted = true ∧ s.running = false)

variable {s s' : PciRuntime} {log log' : Trace}

theorem not_dead_of_isRunning (h : s.isRunning = true) : ¬ Dead s := by
  simp only [isRunning, Bool.and_eq_true, Bool.not_eq_true'] at h
  rintro (hfaulted | ⟨-, hrunning⟩)
  · exact absurd (h.2.symm.trans hfaulted) nofun
  · exact absurd (hrunning.symm.trans h.1) nofun

variable {e : Event Access Reply Mark}

theorem hostWritten_eq_none (h : Event.doorbell e = false) (n : Fin 9) :
    Event.hostWritten n e = none := by
  unfold Event.hostWritten
  split
  · exact absurd h nofun
  · rw [if_neg]
    intro hwritten
    simp only [Bool.and_eq_true, beq_iff_eq] at hwritten
    simp only [Event.doorbell, decide_eq_false_iff_not] at h
    exact h ⟨n, hwritten.2⟩
  · rfl

theorem lastWritten_append (n : Fin 9) (old : UInt16) (log log' : Trace) :
    lastWritten n old (log ++ log') = lastWritten n (lastWritten n old log) log' :=
  List.foldl_append

theorem lastWritten_of_silent (n : Fin 9) :
    ∀ {log : Trace} (old : UInt16), (∀ e ∈ log, Event.doorbell e = false) →
      lastWritten n old log = old := by
  intro log
  induction log with
  | nil =>
      intro old _
      rfl
  | cons e log ih =>
      intro old h
      have hnone := hostWritten_eq_none (h e List.mem_cons_self) n
      have hrest := ih old fun e' he' => h e' (List.mem_cons_of_mem e he')
      calc
        lastWritten n old (e :: log)
            = lastWritten n ((Event.hostWritten n e).getD old) log := rfl
        _ = lastWritten n old log := by rw [hnone]; rfl
        _ = old := hrest

theorem latched_of_calm (h : ∀ e ∈ log, Calm e) : Latched log := by
  induction log with
  | nil => trivial
  | cons e log ih =>
      have hrest : ∀ e' ∈ log, Calm e' := fun e' he' => h e' (List.mem_cons_of_mem e he')
      cases e with
      | note m => exact hrest
      | call c r => exact ih hrest

theorem latched_of_clean (h : .note .fault ∉ log) : Latched log := by
  induction log with
  | nil => trivial
  | cons e log ih =>
      cases e with
      | note m => exact absurd List.mem_cons_self h
      | call c r => exact ih fun hmem => h (List.mem_cons_of_mem _ hmem)

theorem latched_append (h : Latched log) (hfault : .note .fault ∈ log → ∀ e ∈ log', Calm e)
    (hclean : .note .fault ∉ log → Latched log') : Latched (log ++ log') := by
  induction log with
  | nil => exact hclean List.not_mem_nil
  | cons e log ih =>
      cases e with
      | note m =>
          intro e he
          rcases List.mem_append.1 he with he | he
          · exact h e he
          · exact hfault List.mem_cons_self e he
      | call c r =>
          refine ih h (fun hmem => hfault (List.mem_cons_of_mem _ hmem)) fun hnot => hclean fun hmem => ?_
          rcases List.mem_cons.1 hmem with hmem | hmem
          · exact absurd hmem nofun
          · exact hnot hmem

theorem Latched.after {early late : Trace} (h : Latched (early ++ .note .fault :: late)) :
    ∀ e ∈ late, Calm e := by
  induction early with
  | nil => exact h
  | cons e early ih =>
      cases e with
      | note m =>
          intro e he
          exact h e (List.mem_append_right early (List.mem_cons_of_mem _ he))
      | call c r => exact ih h

/-! ## One call -/

/-- What every call does to the fault flag and the host indices, and what it does not do once the
runtime is dead. -/
structure Orderly (x : Called) : Prop where
  faulted : x.after.faulted = true ↔ x.before.faulted = true ∨ .note .fault ∈ x.log
  host : ∀ n, x.after.host n = lastWritten n (x.before.host n) x.log
  latched : Latched x.log
  dead : Dead x.before → (∀ e ∈ x.log, Calm e) ∧ Dead x.after

variable {x : Called}

theorem orderly_of_calm (hcalm : ∀ e ∈ x.log, Calm e) (hhost : x.after.host = x.before.host)
    (hfaulted : x.after.faulted = true ↔ x.before.faulted = true ∨ .note .fault ∈ x.log)
    (hdead : Dead x.before → Dead x.after) : Orderly x where
  faulted := hfaulted
  host := by
    intro n
    rw [lastWritten_of_silent n _ fun e he => (hcalm e he).doorbell, hhost]
  latched := latched_of_calm hcalm
  dead := fun h => ⟨hcalm, hdead h⟩

theorem Frame.orderly {P : Event Access Reply Mark → Prop} (hP : ∀ e, P e → Calm e) {op : Op}
    {r : Returned} (h : Frame P s log s') : Orderly ⟨s, op, log, r, s'⟩ := by
  refine orderly_of_calm (fun e he => hP e (h.only e he)) h.host h.faulted ?_
  rintro (hfaulted | ⟨hattempted, hrunning⟩)
  · exact Or.inl (h.faulted.2 (Or.inl hfaulted))
  · exact Or.inr ⟨h.attempted.trans hattempted, h.running.trans hrunning⟩

theorem Inert.calm (h : Inert e) : Calm e := ⟨h.doorbell, h.arms⟩

theorem Harmless.calm (h : Harmless e) : Calm e := ⟨h.doorbell, h.arms⟩

theorem Quiet.calm (h : Quiet e) : Calm e := ⟨h.doorbell, h.arms⟩

variable {ok : Bool}

theorem Stopped.orderly (h : Stopped s log ok s') :
    Orderly ⟨s, .stop, log, .bool ok, s'⟩ := by
  refine orderly_of_calm (fun e he => (h.only e he).calm) h.host h.faulted ?_
  rintro (hfaulted | ⟨hattempted, -⟩)
  · exact Or.inl (h.faulted.2 (Or.inl hfaulted))
  · exact Or.inr ⟨h.attempted.trans hattempted, h.running⟩

theorem Read.orderly {n : Fin 9} {op : Op} {r : Bool × UInt16 × UInt16} {r' : Returned}
    (h : Read n s log r s') : Orderly ⟨s, op, log, r', s'⟩ := by
  rcases h with ⟨v, -, ⟨-, -, rfl, rfl⟩ | ⟨-, -, rfl, rfl⟩⟩
  · refine orderly_of_calm ?_ rfl (by simp [failed]) fun _ => Or.inl rfl
    intro e he
    rcases List.mem_cons.1 he with rfl | he
    · exact ⟨rfl, rfl⟩
    · rw [List.mem_singleton.1 he]
      exact ⟨rfl, rfl⟩
  · refine orderly_of_calm ?_ rfl (by simp) id
    intro e he
    rw [List.mem_singleton.1 he]
    exact ⟨rfl, rfl⟩

theorem Enabled.orderly (h : Enabled s log ok s') :
    Orderly ⟨s, .enableInterrupts, log, .bool ok, s'⟩ := by
  have hhost : ∀ {s s' : PciRuntime} {log : Trace}, Frame Silent s log s' →
      ∀ n, s'.host n = lastWritten n (s.host n) log := by
    intro s s' log hframe n
    rw [lastWritten_of_silent n _ fun e he => (hframe.only e he).doorbell, hframe.host]
  cases h with
  | refused _ => exact orderly_of_calm nofun rfl (by simp) id
  | armed hrunning hframe hclean =>
      exact ⟨hframe.faulted, hhost hframe, latched_of_clean hclean,
        fun hdead => absurd hdead (not_dead_of_isRunning hrunning)⟩
  | failed hrunning hframe hearly hlate =>
      refine ⟨hframe.faulted, hhost hframe, ?_,
        fun hdead => absurd hdead (not_dead_of_isRunning hrunning)⟩
      apply latched_append (latched_of_clean hearly)
      · intro hmem
        exact absurd hmem hearly
      · intro _ e he
        exact (hlate e he).calm

/-- The accesses to the command register are no doorbells. -/
theorem calm_around_command {early late : Trace} {cmd actual : UInt16} {wrote : Bool}
    (h : ∀ e ∈ early ++ late, Harmless e) :
    ∀ e ∈ early ++ .call (.writeCommand cmd) wrote :: .call .command actual :: late, Calm e := by
  intro e he
  simp only [List.mem_append, List.mem_cons] at he h
  rcases he with he | rfl | rfl | he
  · exact (h e (Or.inl he)).calm
  · exact ⟨rfl, rfl⟩
  · exact ⟨rfl, rfl⟩
  · exact (h e (Or.inr he)).calm

theorem start_orderly {rings : Fin 9 → RingMemory}
    (h : ((s.attempted || s.faulted) = true ∧ log = [] ∧ ok = false ∧ s' = s) ∨
      ((s.attempted || s.faulted) = false ∧ Launched (Ready rings) (setAttempted s) log ok s')) :
    Orderly ⟨s, .start rings, log, .bool ok, s'⟩ := by
  rcases h with ⟨-, rfl, rfl, rfl⟩ | ⟨hfresh, h⟩
  · exact orderly_of_calm nofun rfl (by simp) id
  rw [Bool.or_eq_false_iff] at hfresh
  have hnot : ¬ Dead s := by
    rintro (hfaulted | ⟨hattempted, -⟩)
    · exact absurd (hfresh.2.symm.trans hfaulted) nofun
    · exact absurd (hfresh.1.symm.trans hattempted) nofun
  cases h with
  | unready hframe =>
      exact orderly_of_calm (fun e he => (hframe.only e he).calm) hframe.host hframe.faulted
        fun hdead => absurd hdead hnot
  | unconfirmed _ _ hframe =>
      refine orderly_of_calm (calm_around_command hframe.only) hframe.host ?_
        fun hdead => absurd hdead hnot
      have hfaulted := hframe.faulted
      simpa [setAttempted] using hfaulted
  | @mastered early late cmd ok s₁ _ _ hframe =>
      have hfaulted := hframe.faulted
      refine orderly_of_calm (calm_around_command hframe.only) ?_ ?_
        fun hdead => absurd hdead hnot
      · cases ok with
        | false => exact hframe.host
        | true => exact hframe.host
      · cases ok with
        | false => simpa [setAttempted, setMastered] using hfaulted
        | true => simpa [setAttempted, setMastered, setRunning] using hfaulted

/-! ### Doorbells -/

/-- Where a doorbell may move the host index: one entry ahead, but not onto the hardware index, when
transmitting; not past the hardware index when receiving. -/
structure Steps (n : Fin 9) (host hardware next : UInt16) : Prop where
  transmit : n < 7 → next.toNat = (host.toNat + 1) % 64 ∧ next ≠ hardware
  receive : 7 ≤ n → advance host next ≤ advance host hardware

theorem steps_of_refusal {n : Fin 9} {host hardware next : UInt16}
    (h : refusal n host hardware next = none) (hhost : host < 64) (hnext : next < 64) :
    Steps n host hardware next := by
  have hhost' : host.toNat < 64 := hhost
  have hnext' : next.toNat < 64 := hnext
  rw [refusal] at h
  by_cases hn : n < 7
  · rw [if_pos hn] at h
    by_cases hwrong : advance host next ≠ 1 ∨ next = hardware
    · rw [if_pos hwrong] at h
      exact absurd h nofun
    · rw [not_or, not_not, advance] at hwrong
      exact ⟨fun _ => ⟨by omega, hwrong.2⟩, fun hn' => absurd hn (not_lt.2 hn')⟩
  · rw [if_neg hn] at h
    by_cases hwrong : advance host next > advance host hardware
    · rw [if_pos hwrong] at h
      exact absurd h nofun
    · exact ⟨fun hn' => absurd hn' hn, fun _ => not_lt.1 hwrong⟩

/-- Every doorbell of this call is a write of the host half in `publish`, right after the indices were
read, and is where it may be. -/
def RungRightly (x : Called) : Prop :=
  ∀ e ∈ x.log, Event.doorbell e = true →
    ∃ (n : Fin 9) (next : UInt16) (ok : Bool) (v : UInt32) (late : Trace),
      x.op = .publish n next ∧ e = .call (.write16 (ringRegisters n).index next) ok ∧
      x.log = .call (.read32 (ringRegisters n).index) v :: .call .barrier () :: e :: late ∧
      hostHalf v = x.before.host n ∧ Steps n (x.before.host n) (hardwareHalf v) next

theorem rungRightly_of_silent (h : ∀ e ∈ x.log, Event.doorbell e = false) :
    RungRightly x := by
  intro e he hdoorbell
  exact absurd ((h e he).symm.trans hdoorbell) nofun

/-- What was read back cannot be right: the register is unreadable, an index is out of range, or the
host half is not what was written last.  The hardware half is not looked at when a write is confirmed. -/
def ReadBack (x : Called) : Prop :=
  ∀ (early late : Trace) (n : Fin 9) (v : UInt32),
    x.log = early ++ .call (.read32 (ringRegisters n).index) v :: late →
    ((∀ e ∈ early, Event.doorbell e = false) →
      Mismatch (lastWritten n (x.before.host n) early) v → x.after.faulted = true) ∧
    (bad v = true ∨ hostHalf v ≠ lastWritten n (x.before.host n) early → x.after.faulted = true)

theorem readBack_of_faulted (h : x.after.faulted = true) : ReadBack x :=
  fun _ _ _ _ _ => ⟨fun _ _ => h, fun _ => h⟩

theorem readBack_of_unread (h : ∀ e ∈ x.log, Event.readsIndex e = false) : ReadBack x := by
  intro early late n v hlog
  have hread := h (.call (.read32 (ringRegisters n).index) v) (by rw [hlog]; simp)
  simp only [Event.readsIndex, decide_eq_false_iff_not, not_exists] at hread
  exact absurd rfl (hread n)

/-- In a `start` no host index has been written yet. -/
theorem readBack_of_fresh (hhost : ∀ n, x.before.host n = 0) (hsilent : ∀ e ∈ x.log, Event.doorbell e = false)
    (h : ∀ (n : Fin 9) (v : UInt32), .call (.read32 (ringRegisters n).index) v ∈ x.log →
      Mismatch 0 v → x.after.faulted = true) :
    ReadBack x := by
  intro early late n v hlog
  have hlast : lastWritten n (x.before.host n) early = 0 := by
    rw [lastWritten_of_silent n _ fun e he => hsilent e (by rw [hlog]; simp [he]), hhost]
  have hmem : .call (.read32 (ringRegisters n).index) v ∈ x.log := by
    rw [hlog]
    simp
  rw [hlast]
  refine ⟨fun _ => h n v hmem, fun hwrong => h n v hmem ?_⟩
  rcases hwrong with hbad | hne
  · exact Or.inl hbad
  · exact Or.inr (Or.inr (Or.inr hne))

theorem index_injective : Function.Injective fun n => (ringRegisters n).index := by decide

theorem read_injective {n n' : Fin 9} {v v' : UInt32}
    (h : (.call (.read32 (ringRegisters n).index) v : Event Access Reply Mark) =
      .call (.read32 (ringRegisters n').index) v') : n = n' ∧ v = v' := by
  have hn : n = n' := by
    apply index_injective
    exact Access.read32.inj (Event.call.inj h).1
  subst hn
  refine ⟨rfl, ?_⟩
  cases h
  rfl

theorem mismatch_of_wrong {host : UInt16} {v : UInt32} (h : bad v = true ∨ hostHalf v ≠ host) :
    Mismatch host v := by
  rcases h with hbad | hne
  · exact Or.inl hbad
  · exact Or.inr (Or.inr (Or.inr hne))

theorem readBack_cons {n : Fin 9} {v : UInt32} {rest : Trace}
    (hlog : x.log = .call (.read32 (ringRegisters n).index) v :: rest) (hgood : ¬ Mismatch (x.before.host n) v)
    (hrest : ∀ (early late : Trace) (n' : Fin 9) (v' : UInt32),
      rest = early ++ .call (.read32 (ringRegisters n').index) v' :: late →
      (∃ e ∈ early, Event.doorbell e = true) ∧
      ¬ (bad v' = true ∨ hostHalf v' ≠ lastWritten n' (x.before.host n') early)) :
    ReadBack x := by
  intro early late n' v' heq
  rw [hlog] at heq
  cases early with
  | nil =>
      rcases read_injective (List.cons.inj heq).1 with ⟨rfl, rfl⟩
      exact ⟨fun _ hmismatch => absurd hmismatch hgood,
        fun hwrong => absurd (mismatch_of_wrong hwrong) hgood⟩
  | cons e early =>
      have hparts := List.cons.inj heq
      rcases hrest early late n' v' hparts.2 with ⟨⟨e', he', hdoorbell⟩, hright⟩
      refine ⟨fun hsilent => ?_, fun hwrong => ?_⟩
      · exact absurd ((hsilent e' (List.mem_cons_of_mem e he')).symm.trans hdoorbell) nofun
      · rw [← hparts.1] at hwrong
        exact absurd hwrong hright

/-! ### `publish` -/

section Publish

variable {n : Fin 9} {next : UInt16} {ok : Bool}

theorem hostWritten_write16 (n m : Fin 9) (next : UInt16) :
    Event.hostWritten m (.call (.write16 (ringRegisters n).index next) true) =
      if m = n then some next else none := by
  by_cases hm : m = n
  · subst hm
    simp [Event.hostWritten]
  · have hne : (ringRegisters n).index ≠ (ringRegisters m).index := fun h =>
      hm (index_injective h.symm)
    simp [Event.hostWritten, hm, hne]

theorem lastWritten_setHost (early late : Trace) (hearly : ∀ e ∈ early, Event.doorbell e = false)
    (hlate : ∀ e ∈ late, Event.doorbell e = false) (m : Fin 9) :
    (setHost n next s).host m = lastWritten m (s.host m)
      (early ++ .call (.write16 (ringRegisters n).index next) true :: late) := by
  rw [lastWritten_append, lastWritten_of_silent m _ hearly]
  show _ = lastWritten m ((Event.hostWritten m _).getD (s.host m)) late
  rw [lastWritten_of_silent m _ hlate, hostWritten_write16]
  by_cases hm : m = n
  · subst hm
    simp [setHost]
  · simp [setHost, hm]

theorem Rung.faulted {v : UInt32} (h : Rung n next s log ok s') :
    s'.faulted = true ↔ s.faulted = true ∨
      .note .fault ∈ (.call (.read32 (ringRegisters n).index) v :: .call .barrier () :: log : Trace) := by
  cases h with
  | unwritten hframe => simpa using hframe.faulted
  | confirmed _ _ => simp [setHost]
  | unconfirmed _ hframe => simpa [setHost] using hframe.faulted

theorem Rung.host {v : UInt32} (h : Rung n next s log ok s') (m : Fin 9) :
    s'.host m = lastWritten m (s.host m)
      (.call (.read32 (ringRegisters n).index) v :: .call .barrier () :: log) := by
  cases h with
  | unwritten hframe =>
      rw [hframe.host]
      rfl
  | @confirmed v' _ _ =>
      exact lastWritten_setHost [.call (.read32 (ringRegisters n).index) v, .call .barrier ()]
        [.call (.read32 (ringRegisters n).index) v'] (by simp [Event.doorbell])
        (by simp [Event.doorbell]) m
  | @unconfirmed v' _ _ hframe =>
      rw [hframe.host]
      exact lastWritten_setHost [.call (.read32 (ringRegisters n).index) v, .call .barrier ()]
        [.call (.read32 (ringRegisters n).index) v', .note .fault] (by simp [Event.doorbell])
        (by simp [Event.doorbell]) m

theorem Rung.latched {v : UInt32} (h : Rung n next s log ok s') :
    Latched (.call (.read32 (ringRegisters n).index) v :: .call .barrier () :: log) := by
  cases h with
  | unwritten _ => exact nofun
  | confirmed _ _ => trivial
  | unconfirmed _ _ => exact nofun

theorem Published.orderly (h : Published n next s log ok s') :
    Orderly ⟨s, .publish n next, log, .bool ok, s'⟩ := by
  have hread : ∀ {v : UInt32} (e : Event Access Reply Mark),
      e ∈ ([.call (.read32 (ringRegisters n).index) v] : Trace) → Calm e := by
    intro v e he
    rw [List.mem_singleton.1 he]
    exact ⟨rfl, rfl⟩
  cases h with
  | refused => exact orderly_of_calm nofun rfl (by simp) id
  | rejected _ _ hframe =>
      refine orderly_of_calm ?_ hframe.host (by simpa using hframe.faulted) fun _ =>
        Or.inl (hframe.faulted.2 (by simp))
      intro e he
      rcases List.mem_cons.1 he with rfl | he
      · exact ⟨rfl, rfl⟩
      · rw [List.mem_singleton.1 he]
        exact ⟨rfl, rfl⟩
  | unchanged _ _ _ _ => exact orderly_of_calm hread rfl (by simp) id
  | rung hrunning _ _ _ hrung =>
      exact ⟨hrung.faulted, hrung.host, hrung.latched,
        fun hdead => absurd hdead (not_dead_of_isRunning hrunning)⟩

theorem Published.rungRightly (h : Published n next s log ok s') :
    RungRightly ⟨s, .publish n next, log, .bool ok, s'⟩ := by
  cases h with
  | refused => exact rungRightly_of_silent (by simp)
  | rejected _ _ _ =>
      apply rungRightly_of_silent
      simp [Event.doorbell]
  | unchanged _ _ _ _ =>
      apply rungRightly_of_silent
      simp [Event.doorbell]
  | @rung v late ok s' _ hgood hrefusal hnext hrung =>
      simp only [Mismatch, not_or, not_not] at hgood
      have hhost : hostHalf v < 64 := by simpa using hgood.2.1
      have hsteps := steps_of_refusal hrefusal hhost hnext
      rw [hgood.2.2.2] at hsteps
      intro e he hdoorbell
      -- The only doorbell is the first access after the barrier.
      cases hrung with
      | unwritten _ =>
          simp only [List.mem_cons, List.not_mem_nil, or_false] at he
          rcases he with rfl | rfl | rfl | rfl
          · exact absurd hdoorbell (by rintro ⟨⟩)
          · exact absurd hdoorbell (by rintro ⟨⟩)
          · exact ⟨n, next, false, v, _, rfl, rfl, rfl, hgood.2.2.2, hsteps⟩
          · exact absurd hdoorbell (by rintro ⟨⟩)
      | confirmed _ _ =>
          simp only [List.mem_cons, List.not_mem_nil, or_false] at he
          rcases he with rfl | rfl | rfl | rfl
          · exact absurd hdoorbell (by rintro ⟨⟩)
          · exact absurd hdoorbell (by rintro ⟨⟩)
          · exact ⟨n, next, true, v, _, rfl, rfl, rfl, hgood.2.2.2, hsteps⟩
          · exact absurd hdoorbell (by rintro ⟨⟩)
      | unconfirmed _ _ =>
          simp only [List.mem_cons, List.not_mem_nil, or_false] at he
          rcases he with rfl | rfl | rfl | rfl | rfl
          · exact absurd hdoorbell (by rintro ⟨⟩)
          · exact absurd hdoorbell (by rintro ⟨⟩)
          · exact ⟨n, next, true, v, _, rfl, rfl, rfl, hgood.2.2.2, hsteps⟩
          · exact absurd hdoorbell (by rintro ⟨⟩)
          · exact absurd hdoorbell (by rintro ⟨⟩)

theorem Published.readBack (h : Published n next s log ok s') :
    ReadBack ⟨s, .publish n next, log, .bool ok, s'⟩ := by
  cases h with
  | refused => exact readBack_of_unread nofun
  | rejected _ _ hframe => exact readBack_of_faulted (hframe.faulted.2 (by simp))
  | unchanged _ hgood _ _ =>
      refine readBack_cons rfl hgood fun early late n' v' heq => ?_
      exact absurd heq (by simp)
  | rung _ hgood _ _ hrung =>
      cases hrung with
      | unwritten hframe => exact readBack_of_faulted (hframe.faulted.2 (by simp))
      | unconfirmed _ hframe => exact readBack_of_faulted (hframe.faulted.2 (by simp))
      | @confirmed v' hbad hnext =>
          refine readBack_cons rfl hgood fun early late n' w heq => ?_
          -- The second reading comes after the write.
          rcases early with _ | ⟨e₁, _ | ⟨e₂, _ | ⟨e₃, early⟩⟩⟩
          · exact absurd (List.cons.inj heq).1 nofun
          · exact absurd (List.cons.inj (List.cons.inj heq).2).1 nofun
          · simp only [List.cons_append, List.nil_append, List.cons.injEq] at heq
            rcases heq with ⟨rfl, rfl, hread, -⟩
            rcases read_injective hread with ⟨rfl, rfl⟩
            have hlast : lastWritten n (s.host n) [.call .barrier (),
                .call (.write16 (ringRegisters n).index next) true] = next := by
              simp [lastWritten, Event.hostWritten]
            refine ⟨⟨_, List.mem_cons_of_mem _ List.mem_cons_self, rfl⟩, ?_⟩
            rw [hlast, hbad, hnext]
            simp
          · exact absurd heq (by simp)

end Publish

/-! ### Every call -/

/-- A `start` that returned true: everything was as it should be, and after that the bus master was
enabled and the device confirmed it. -/
def StartedRightly (x : Called) : Prop :=
  ∀ rings, x.op = .start rings → x.result = .bool true →
    x.before.attempted = false ∧ x.after.attempted = true ∧ ∃ (early late : Trace) (cmd : UInt16),
      x.log = early ++ .call (.writeCommand cmd) true :: .call .command cmd :: late ∧
      Ready rings early ∧ cmd &&& 4 ≠ 0 ∧ ∀ e ∈ early ++ late, Event.commands e = false

/-- Nothing runs, and no host index is written, before the first start. -/
structure Sane (s : PciRuntime) : Prop where
  attempted : s.running = true → s.attempted = true
  host : s.attempted = false → ∀ n, s.host n = 0

/-- All that is claimed of a single call. -/
structure CallSound (x : Called) : Prop where
  orderly : Orderly x
  rung : RungRightly x
  readBack : Sane x.before → ReadBack x
  started : StartedRightly x
  sane : Sane x.before → Sane x.after
  attempted : x.before.attempted = true → x.after.attempted = true
  tried : (∃ rings, x.op = .start rings) → x.after.attempted = true ∨ x.after.faulted = true
  stopped : x.op = .stop → (∀ e ∈ x.log, Calm e) ∧ x.after.running = false

theorem startedRightly_of_ne (h : ∀ rings, x.op ≠ .start rings) : StartedRightly x :=
  fun rings hop => absurd hop (h rings)

/-- A call that is neither `start` nor `stop`. -/
theorem callSound_of_flags (horderly : Orderly x) (hrung : RungRightly x) (hread : ReadBack x)
    (hstart : ∀ rings, x.op ≠ .start rings) (hstop : x.op ≠ .stop)
    (hattempted : x.after.attempted = x.before.attempted) (hrunning : x.after.running = x.before.running)
    (hhost : x.before.running = false → x.after.host = x.before.host) : CallSound x where
  orderly := horderly
  rung := hrung
  readBack := fun _ => hread
  started := startedRightly_of_ne hstart
  sane := by
    intro h
    refine ⟨fun hrun => hattempted.trans (h.attempted (hrunning.symm.trans hrun)), fun hnot n => ?_⟩
    have hidle : x.before.running = false := by
      cases hr : x.before.running with
      | false => rfl
      | true => exact absurd (hnot.symm.trans (hattempted.trans (h.attempted hr))) nofun
    rw [hhost hidle]
    exact h.host (hattempted.symm.trans hnot) n
  attempted := fun h => hattempted.trans h
  tried := fun ⟨rings, hop⟩ => absurd hop (hstart rings)
  stopped := fun hop => absurd hop hstop

/-- A call that does nothing but read and write registers. -/
theorem callSound_of_inert {op : Op} {r : Returned} (h : Frame Inert s log s')
    (hstart : ∀ rings, op ≠ .start rings) (hstop : op ≠ .stop) :
    CallSound ⟨s, op, log, r, s'⟩ := by
  refine callSound_of_flags (h.orderly fun e he => he.calm) ?_ ?_ hstart hstop h.attempted h.running
    fun _ => h.host
  · exact rungRightly_of_silent fun e he => (h.only e he).doorbell
  · exact readBack_of_unread fun e he => (h.only e he).readsIndex

theorem Enabled.callSound (h : Enabled s log ok s') :
    CallSound ⟨s, .enableInterrupts, log, .bool ok, s'⟩ := by
  have hframe : Frame Silent s log s' := by
    cases h with
    | refused _ => exact (frame_traced Silent).refl s
    | armed _ hframe _ => exact hframe
    | failed _ hframe _ _ => exact hframe
  refine callSound_of_flags h.orderly ?_ ?_ nofun nofun hframe.attempted hframe.running
    fun _ => hframe.host
  · exact rungRightly_of_silent fun e he => (hframe.only e he).doorbell
  · exact readBack_of_unread fun e he => (hframe.only e he).readsIndex

theorem Read.callSound {n : Fin 9} {m : ℕ} {host hardware : UInt16} {r : Bool × UInt16 × UInt16}
    {r' : Returned} (h : Read n s log r s') :
    CallSound ⟨s, .readIndices m host hardware, log, r', s'⟩ := by
  have horderly : Orderly ⟨s, .readIndices m host hardware, log, r', s'⟩ := h.orderly
  rcases h with ⟨v, -, ⟨-, -, rfl, rfl⟩ | ⟨hgood, -, rfl, rfl⟩⟩
  · refine callSound_of_flags horderly ?_ (readBack_of_faulted rfl) (by simp) (by rintro ⟨⟩) rfl rfl fun _ => rfl
    apply rungRightly_of_silent
    simp [Event.doorbell]
  · refine callSound_of_flags horderly ?_ ?_ (by simp) (by rintro ⟨⟩) rfl rfl fun _ => rfl
    · apply rungRightly_of_silent
      simp [Event.doorbell]
    · refine readBack_cons rfl hgood fun early late n' v' heq => ?_
      exact absurd heq (by simp)

theorem Published.callSound {n : Fin 9} {next : UInt16} (h : Published n next s log ok s') :
    CallSound ⟨s, .publish n next, log, .bool ok, s'⟩ := by
  have hflags : s'.attempted = s.attempted ∧ s'.running = s.running ∧
      (s.running = false → s'.host = s.host) := by
    cases h with
    | refused => exact ⟨rfl, rfl, fun _ => rfl⟩
    | rejected _ _ hframe => exact ⟨hframe.attempted, hframe.running, fun _ => hframe.host⟩
    | unchanged _ _ _ _ => exact ⟨rfl, rfl, fun _ => rfl⟩
    | rung hrunning _ _ _ hrung =>
        have hidle : s.running = false → s'.host = s.host := by
          intro hno
          rw [isRunning, hno] at hrunning
          exact absurd hrunning nofun
        cases hrung with
        | unwritten hframe => exact ⟨hframe.attempted, hframe.running, hidle⟩
        | confirmed _ _ => exact ⟨rfl, rfl, hidle⟩
        | unconfirmed _ hframe => exact ⟨hframe.attempted, hframe.running, hidle⟩
  exact callSound_of_flags h.orderly h.rungRightly h.readBack nofun nofun hflags.1 hflags.2.1 hflags.2.2

theorem Stopped.callSound (h : Stopped s log ok s') :
    CallSound ⟨s, .stop, log, .bool ok, s'⟩ where
  orderly := h.orderly
  rung := rungRightly_of_silent fun e he => (h.only e he).doorbell
  readBack := fun _ => readBack_of_unread fun e he => (h.only e he).readsIndex
  started := startedRightly_of_ne nofun
  sane := by
    intro hs
    refine ⟨fun hrun => absurd (h.running.symm.trans hrun) nofun, fun hnot n => ?_⟩
    rw [h.host]
    exact hs.host (h.attempted.symm.trans hnot) n
  attempted := fun hs => h.attempted.trans hs
  tried := nofun
  stopped := fun _ => ⟨fun e he => (h.only e he).calm, h.running⟩

/-- What `Launched` says about index registers and the flags. -/
theorem Launched.fresh {K : Trace → Prop} (h : Launched K s log ok s') :
    (∀ e ∈ log, Calm e) ∧ s'.attempted = s.attempted ∧
    ∀ (n : Fin 9) (v : UInt32), .call (.read32 (ringRegisters n).index) v ∈ log →
      Mismatch 0 v → s'.faulted = true := by
  -- A reading of an index register is not one of the accesses to the command register.
  have hreads : ∀ {early late : Trace} {cmd actual : UInt16} {wrote : Bool} {n : Fin 9} {v : UInt32},
      .call (.read32 (ringRegisters n).index) v ∈
        early ++ .call (.writeCommand cmd) wrote :: .call .command actual :: late →
      .call (.read32 (ringRegisters n).index) v ∈ early ++ late := by
    intro early late cmd actual wrote n v hmem
    simpa using hmem
  cases h with
  | unready hframe => exact ⟨fun e he => (hframe.only e he).calm, hframe.attempted, hframe.reads⟩
  | unconfirmed _ _ hframe =>
      exact ⟨calm_around_command hframe.only, hframe.attempted,
        fun n v hv => hframe.reads n v (hreads hv)⟩
  | @mastered early late cmd ok s₁ _ _ hframe =>
      refine ⟨calm_around_command hframe.only, ?_, fun n v hv hmismatch => ?_⟩
      · cases ok with
        | false => exact hframe.attempted
        | true => exact hframe.attempted
      · have hfaulted := hframe.reads n v (hreads hv) hmismatch
        cases ok with
        | false => exact hfaulted
        | true => exact hfaulted

theorem start_callSound {rings : Fin 9 → RingMemory}
    (h : ((s.attempted || s.faulted) = true ∧ log = [] ∧ ok = false ∧ s' = s) ∨
      ((s.attempted || s.faulted) = false ∧ Launched (Ready rings) (setAttempted s) log ok s')) :
    CallSound ⟨s, .start rings, log, .bool ok, s'⟩ := by
  have horderly := start_orderly h
  rcases h with ⟨htried, rfl, rfl, rfl⟩ | ⟨hfresh, h⟩
  · refine ⟨horderly, rungRightly_of_silent nofun, fun _ => readBack_of_unread nofun, nofun, id, id,
      fun _ => ?_, nofun⟩
    simpa using htried
  rw [Bool.or_eq_false_iff] at hfresh
  rcases h.fresh with ⟨hcalm, hattempted, hreads⟩
  refine ⟨horderly, rungRightly_of_silent fun e he => (hcalm e he).doorbell, fun hsane => ?_, ?_,
    fun _ => ⟨fun _ => hattempted, fun hnot => absurd (hnot.symm.trans hattempted) nofun⟩,
    fun _ => hattempted, fun _ => Or.inl hattempted, nofun⟩
  · exact readBack_of_fresh (hsane.host hfresh.1) (fun e he => (hcalm e he).doorbell) hreads
  · intro rings' hop hresult
    cases hop
    cases hresult
    cases h with
    | mastered hready hcmd hframe =>
        exact ⟨hfresh.1, hattempted, _, _, _, rfl, hready, hcmd,
          fun e he => (hframe.only e he).commands⟩

theorem call_sound {op : Op} {r : Returned} (hout : (exec op s).Outcome log (r, s')) :
    CallSound ⟨s, op, log, r, s'⟩ := by
  have hnothing : ∀ {op : Op} {r : Returned} (s : PciRuntime), (∀ rings, op ≠ .start rings) →
      op ≠ .stop → CallSound ⟨s, op, [], r, s⟩ :=
    fun s hstart hstop => callSound_of_inert ((frame_traced Inert).refl s) hstart hstop
  have hwp : (exec op).wp (fun log r s' => CallSound ⟨s, op, log, r, s'⟩) s := by
    cases op with
    | start rings =>
        rw [exec, wp_map]
        exact wp_mono (start_cases rings s) fun log ok s' h => start_callSound h
    | readIndices ring host hardware =>
        rw [exec, wp_map]
        refine wp_mono (readIndices_cases ring host hardware s) fun log r s' h => ?_
        rcases h with ⟨rfl, -, rfl⟩ | ⟨hring, -, h⟩
        · exact hnothing s' (by simp) (by rintro ⟨⟩)
        · exact h.callSound
    | publish ring next =>
        rw [exec, wp_map]
        refine wp_mono (publish_cases ring next s) fun log ok s' h => ?_
        rcases h with ⟨-, rfl, -, rfl⟩ | ⟨hring, h⟩
        · exact hnothing s' (by simp) (by rintro ⟨⟩)
        · exact h.callSound
    | maskInterrupts =>
        rw [exec, wp_map]
        exact wp_mono (maskInterrupts_frame s) fun log ok s' h => callSound_of_inert h (by simp) (by rintro ⟨⟩)
    | enableInterrupts =>
        rw [exec, wp_map]
        exact wp_mono (enableInterrupts_cases s) fun log ok s' h => h.callSound
    | acknowledgeInterrupts =>
        rw [exec, wp_map]
        exact wp_mono (acknowledgeInterrupts_frame s) fun log r s' h => callSound_of_inert h (by simp) (by rintro ⟨⟩)
    | stop =>
        rw [exec, wp_map]
        exact wp_mono (stop_cases s) fun log ok s' h => h.callSound
  exact wp_outcome hwp hout

/-! ## Runs -/

def trace : List Called → Trace
  | [] => []
  | x :: h => trace h ++ x.log

/-- A `start` that returned true. -/
def hasStarted (x : Called) : Bool :=
  match x.op, x.result with
  | .start _, .bool ok => ok
  | _, _ => false

theorem hasStarted_iff :
    hasStarted x = true ↔ (∃ rings, x.op = .start rings) ∧ x.result = .bool true := by
  unfold hasStarted
  split
  · rename_i rings ok hop hresult
    rw [hop, hresult]
    simp
  · rename_i hne
    refine ⟨nofun, ?_⟩
    rintro ⟨⟨rings, hop⟩, hresult⟩
    exact absurd hresult (hne rings true hop)

/-- The discipline of the doorbells, for a run that has made the calls `h` and left the record `s`. -/
structure Disciplined (h : List Called) (s : PciRuntime) : Prop where
  /-- The cached host indices are the last ones written. -/
  host : ∀ n, s.host n = lastWritten n 0 (trace h)
  /-- Doorbells are rung by `publish`, and only where they may be. -/
  rung : ∀ x ∈ h, RungRightly x
  /-- An index that cannot be right is a fault. -/
  readBack : ∀ x ∈ h, ReadBack x
  /-- The mark in the trace is the flag of the record. -/
  faulted : s.faulted = true ↔ .note .fault ∈ trace h
  /-- After a fault nothing is rung or armed. -/
  latched : ∀ early late, trace h = early ++ .note .fault :: late → ∀ e ∈ late, Calm e
  /-- Nor in and after a `stop` that follows a `start`. -/
  stopped : ∀ later x earlier, h = later ++ x :: earlier → x.op = .stop →
    (∃ y ∈ earlier, ∃ rings, y.op = .start rings) → ∀ y ∈ x :: later, ∀ e ∈ y.log, Calm e
  /-- No more than one `start` returns true. -/
  once : (h.filter hasStarted).length ≤ 1
  /-- And when it does, all was checked before, and the bus master is on. -/
  started : ∀ x ∈ h, StartedRightly x

variable {h : List Called}

theorem run_sane (hrun : Run exec {} h s) : Sane s := by
  refine Run.invariant (P := fun _ s => Sane s) ⟨fun h => absurd h (by decide), fun _ _ => rfl⟩ ?_ hrun
  intro h s s' op log r _ hsane hout
  exact (call_sound hout).sane hsane

theorem run_host (hrun : Run exec {} h s) (n : Fin 9) : s.host n = lastWritten n 0 (trace h) := by
  refine Run.invariant (P := fun h s => s.host n = lastWritten n 0 (trace h)) rfl ?_ hrun
  intro h s s' op log r _ hhost hout
  have hcall := (call_sound hout).orderly.host n
  calc
    s'.host n = lastWritten n (s.host n) log := hcall
    _ = lastWritten n (lastWritten n 0 (trace h)) log := by rw [hhost]
    _ = lastWritten n 0 (trace h ++ log) := (lastWritten_append n 0 (trace h) log).symm

theorem run_faulted (hrun : Run exec {} h s) : s.faulted = true ↔ .note .fault ∈ trace h := by
  refine Run.invariant (P := fun h s => s.faulted = true ↔ .note .fault ∈ trace h) (by simp [trace]) ?_
    hrun
  intro h s s' op log r _ hfaulted hout
  have hcall := (call_sound hout).orderly.faulted
  rw [trace, List.mem_append, ← hfaulted]
  exact hcall

theorem run_latched (hrun : Run exec {} h s) : Latched (trace h) := by
  refine Run.invariant (P := fun h _ => Latched (trace h)) trivial ?_ hrun
  intro h s s' op log r hrun hlatched hout
  have horderly := (call_sound hout).orderly
  apply latched_append hlatched
  · intro hmem
    exact (horderly.dead (Or.inl ((run_faulted hrun).2 hmem))).1
  · intro _
    exact horderly.latched

/-- Once a start was made the runtime has been started, or has failed before. -/
theorem run_tried (hrun : Run exec {} h s) (hstart : ∃ x ∈ h, ∃ rings, x.op = .start rings) :
    s.attempted = true ∨ s.faulted = true := by
  rcases hstart with ⟨x, hx, rings, hop⟩
  rcases List.append_of_mem hx with ⟨later, earlier, rfl⟩
  have hx := (call_sound (Run.drop hrun).tail.2.2).tried ⟨rings, hop⟩
  refine (Run.stable (P := fun s => s.attempted = true ∨ s.faulted = true) ?_ later hx hrun).1
  rintro s s' op log r (hattempted | hfaulted) hout
  · exact Or.inl ((call_sound hout).attempted hattempted)
  · exact Or.inr ((call_sound hout).orderly.faulted.2 (Or.inl hfaulted))

/-- A runtime that was stopped after a start stays calm. -/
theorem run_stopped {later earlier : List Called} (hrun : Run exec {} (later ++ x :: earlier) s) (hop : x.op = .stop)
    (hstart : ∃ y ∈ earlier, ∃ rings, y.op = .start rings) :
    ∀ y ∈ x :: later, ∀ e ∈ y.log, Calm e := by
  rcases (Run.drop hrun).tail with ⟨hbefore, -, hout⟩
  have hcall := call_sound hout
  have hdead : Dead x.after := by
    rcases run_tried hbefore hstart with hattempted | hfaulted
    · exact Or.inr ⟨hcall.attempted hattempted, (hcall.stopped hop).2⟩
    · exact Or.inl (hcall.orderly.faulted.2 (Or.inl hfaulted))
  have hall := (Run.stable (P := Dead)
    (fun hs hout => ((call_sound hout).orderly.dead hs).2) later hdead hrun).2
  intro y hy
  rcases List.mem_cons.1 hy with rfl | hy
  · exact (hcall.stopped hop).1
  · have hout := hrun.outcome (List.mem_append_left _ hy)
    exact ((call_sound hout).orderly.dead (hall y hy)).1

/-- At most one `start` returns true. -/
theorem run_once (hrun : Run exec {} h s) : (h.filter hasStarted).length ≤ 1 := by
  refine (Run.invariant (P := fun h s => (h.filter hasStarted).length ≤ 1 ∧
    (s.attempted = false → h.filter hasStarted = [])) ⟨by simp, fun _ => rfl⟩ ?_ hrun).1
  rintro h s s' op log r hrun ⟨hone, hnone⟩ hout
  have hcall := call_sound hout
  cases hstarted : hasStarted ⟨s, op, log, r, s'⟩ with
  | false =>
      rw [List.filter_cons_of_neg (by simp [hstarted])]
      refine ⟨hone, fun hnot => hnone ?_⟩
      cases hs : s.attempted with
      | false => rfl
      | true => exact absurd (hnot.symm.trans (hcall.attempted hs)) nofun
  | true =>
      rcases hasStarted_iff.1 hstarted with ⟨⟨rings, hop⟩, hresult⟩
      rcases hcall.started rings hop hresult with ⟨hbefore, hafter, -⟩
      rw [List.filter_cons_of_pos hstarted, hnone hbefore]
      exact ⟨by simp, fun hnot => absurd (hnot.symm.trans hafter) nofun⟩

/-- The discipline holds in every run, whatever the device does. -/
theorem doorbell_discipline (hrun : Run exec {} h s) : Disciplined h s where
  host := run_host hrun
  rung := fun x hx => (call_sound (hrun.outcome hx)).rung
  readBack := by
    intro x hx
    rcases List.append_of_mem hx with ⟨later, earlier, rfl⟩
    rcases (Run.drop hrun).tail with ⟨hbefore, -, hout⟩
    exact (call_sound hout).readBack (run_sane hbefore)
  faulted := run_faulted hrun
  latched := by
    intro early late htrace
    have hlatched := run_latched hrun
    rw [htrace] at hlatched
    exact hlatched.after
  stopped := by
    rintro later x earlier rfl hop hstart
    exact run_stopped hrun hop hstart
  once := run_once hrun
  started := fun x hx => (call_sound (hrun.outcome hx)).started

/-- An index register is read whose hardware half is out of range. -/
def Event.outOfRange : Event Access Reply Mark → Bool
  | .call (.read32 a) v => decide (∃ n, a = (ringRegisters n).index) && decide (64 ≤ hardwareHalf v)
  | _ => false

/-- When a doorbell is confirmed, a hardware half that is out of range is not a fault. -/
theorem readBack_outOfRange :
    ∃ h s, Run exec {} h s ∧ s.faulted = false ∧ ∃ x ∈ h, ∃ e ∈ x.log, Event.outOfRange e = true := by
  have hrun := replay_run exec (readyDevice nineRings none 100) [.start nineRings, .publish 0 1] {} {}
  have hseen : ((replay exec (readyDevice nineRings none 100)
      [.start nineRings, .publish 0 1] {} {}).1.any fun x => x.log.any Event.outOfRange) = true := by
    decide +kernel
  simp only [List.any_eq_true] at hseen
  exact ⟨_, _, hrun, by decide +kernel, hseen⟩

/-- A start, two doorbells, and a stop. -/
theorem doorbell_discipline_started :
    let r := replay exec (readyDevice nineRings none 0)
      [.start nineRings, .enableInterrupts, .publish 0 1, .publish 0 2, .stop] {} {}
    r.2.1.host 0 = 2 ∧ r.2.1.faulted = false ∧ r.2.1.result.stopped = true ∧ Disciplined r.1 r.2.1 :=
  ⟨by decide +kernel, by decide +kernel, by decide +kernel, doorbell_discipline (replay_run exec
    (readyDevice nineRings none 0)
    [.start nineRings, .enableInterrupts, .publish 0 1, .publish 0 2, .stop] {} {})⟩

end PciRuntime
end Pci
end Rtl8852be
