import Rtl8852be.RadioBoot.HookedSequence
import Rtl8852be.RadioBoot.Sequencing

/-!
# FaultLatch — the backend calls the sequence back

While an entry point is served, a hook may call `service` or `stop`.  Both find the sequence active and record a fault.

* `Visits` — what the calls during a hook do to an active sequence;
* `Held` — an active sequence that was called back keeps its error;
* `interrupted_iff` — the entry point that was called back reports the fault, unless the operation is finished in it.
-/

namespace Rtl8852be
namespace RadioBoot
namespace Hooked

open Interaction Reentrant

abbrev Log := List (Happening Call Reply Call Empty Op Bool)

/-- `service` or `stop` was called. -/
def calledBack : Happening Call Reply Call Empty Op Bool → Bool
  | .entered (.service _) => true
  | .entered .stop => true
  | _ => false

/-- The last step of an operation was accepted. -/
def finishes : Happening Call Reply Call Empty Op Bool → Bool
  | .call (.finishOperation _) ok => ok
  | _ => false

def Interrupted (log : Log) : Prop := ∃ e ∈ log, calledBack e = true

def Finished (log : Log) : Prop := ∃ e ∈ log, finishes e = true

theorem failing_failing (s : Sequence) (e e' : Error) (he : e ≠ .none) :
    (s.failing e).failing e' = s.failing e := by
  unfold Sequence.failing
  by_cases h : s.result.error = .none
  · simp only [h, if_true, he, if_false]
  · simp only [h, if_false]

/-- The calls during a hook, one after the other. -/
structure Visits (s : Sequence) (log : Log) (s' : Sequence) : Prop where
  faults : s.active = true → Interrupted log → s' = s.failing .ownership
  passes : s.active = true → ¬ Interrupted log → s' = s
  open_ : s.active = true → ¬ Finished log

variable {log log' t : Log}

theorem interrupted_append : Interrupted (log ++ log') ↔ Interrupted log ∨ Interrupted log' := by
  unfold Interrupted
  simp only [List.mem_append, or_and_right, exists_or]

theorem finished_append : Finished (log ++ log') ↔ Finished log ∨ Finished log' := by
  unfold Finished
  simp only [List.mem_append, or_and_right, exists_or]

variable {e : Happening Call Reply Call Empty Op Bool}

theorem interrupted_single : Interrupted [e] ↔ calledBack e = true := by
  unfold Interrupted
  simp only [List.mem_singleton, exists_eq_left]

theorem finished_single : Finished [e] ↔ finishes e = true := by
  unfold Finished
  simp only [List.mem_singleton, exists_eq_left]

theorem not_interrupted_nil : ¬ Interrupted [] := by
  rintro ⟨e, he, -⟩
  exact absurd he List.not_mem_nil

theorem not_finished_nil : ¬ Finished [] := by
  rintro ⟨e, he, -⟩
  exact absurd he List.not_mem_nil

theorem visits_refl (s : Sequence) : Visits s [] s :=
  ⟨fun _ h => absurd h not_interrupted_nil, fun _ _ => rfl, fun _ => not_finished_nil⟩

variable {s s' : Sequence}

theorem Visits.active (h : Visits s log s') (hs : s.active = true) : s'.active = true := by
  by_cases hi : Interrupted log
  · rw [h.faults hs hi]
    exact hs
  · rw [h.passes hs hi]
    exact hs

theorem visits_trans {s'' : Sequence} (h : Visits s log s') (h' : Visits s' log' s'') :
    Visits s (log ++ log') s'' := by
  refine ⟨fun hs hi => ?_, fun hs hi => ?_, fun hs hf => ?_⟩
  · have hs' := h.active hs
    by_cases hlog : Interrupted log
    · have hmid := h.faults hs hlog
      by_cases hlog' : Interrupted log'
      · rw [h'.faults hs' hlog', hmid]
        exact failing_failing s _ _ (by decide)
      · rw [h'.passes hs' hlog', hmid]
    · rw [h'.faults hs' ((interrupted_append.1 hi).resolve_left hlog), h.passes hs hlog]
  · have hnot := fun hlog => hi (interrupted_append.2 hlog)
    rw [h'.passes (h.active hs) fun hlog => hnot (Or.inr hlog), h.passes hs fun hlog => hnot (Or.inl hlog)]
  · exact (finished_append.1 hf).elim (h.open_ hs) (h'.open_ (h.active hs))

/-- `begin` and `launch` refuse an active sequence. -/
theorem visits_refused {op : Op} (hop : calledBack (.entered op) = false) :
    Visits s [.entered op, .left op false] s := by
  have hquiet : ¬ Interrupted [Happening.entered op, .left op false] := by
    rintro ⟨e, he, hcalled⟩
    simp only [List.mem_cons, List.not_mem_nil, or_false] at he
    rcases he with rfl | rfl
    · exact absurd (hop.symm.trans hcalled) Bool.false_ne_true
    · exact absurd hcalled Bool.false_ne_true
  refine ⟨fun _ hi => absurd hi hquiet, fun _ _ => rfl, ?_⟩
  rintro - ⟨e, he, hfinishes⟩
  simp only [List.mem_cons, List.not_mem_nil, or_false] at he
  rcases he with rfl | rfl <;> exact absurd hfinishes Bool.false_ne_true

/-- `service` and `stop` record the fault. -/
theorem visits_faulted {op : Op} (hop : calledBack (.entered op) = true) :
    Visits s [.entered op, .call .failed (), .left op false] (s.failing .ownership) := by
  refine ⟨fun _ _ => rfl, fun _ hi => absurd ⟨_, List.mem_cons_self, hop⟩ hi, ?_⟩
  rintro - ⟨e, he, hfinishes⟩
  simp only [List.mem_cons, List.not_mem_nil, or_false] at he
  rcases he with rfl | rfl | rfl <;> exact absurd hfinishes Bool.false_ne_true

theorem exec_visits (op : Op) (s : Sequence) :
    (exec op s).Meets Visits (fun log x s' => Visits s (.entered op :: log ++ [.left op x]) s') [] := by
  by_cases hs : s.active = true
  · cases op with
    | begin now =>
        show ((if s.result.stage ≠ .idle ∨ s.active then return false else _ : Gated Bool) s).Meets _ _ _
        rw [if_pos (Or.inr hs)]
        exact visits_refused rfl
    | launch a now =>
        show ((if s.result.stage ≠ .ready ∨ !s.result.initialized ∨ s.active then return false else _ : Gated Bool) s).Meets
          _ _ _
        rw [if_pos (Or.inr (Or.inr hs))]
        exact visits_refused rfl
    | service now =>
        show ((if s.active then fail .ownership else _ : Gated Bool) s).Meets _ _ _
        rw [if_pos hs]
        exact fun _ => visits_faulted rfl
    | stop =>
        show ((if s.active then fail .ownership else _ : Gated Bool) s).Meets _ _ _
        rw [if_pos hs]
        exact fun _ => visits_faulted rfl
  · refine Task.meets_trivial (fun t x s' => ?_) _
    exact ⟨fun h => absurd h hs, fun h => absurd h hs, fun h => absurd h hs⟩

/-! ## The entry point that was called back -/

/-- The record after a fault. -/
structure Faulted (s : Sequence) : Prop where
  error : s.result.error ≠ .none
  tuned : s.result.tuned = false
  fullCalibration : s.result.fullCalibration = false
  requiresRecovery : s.result.requiresRecovery = true

variable (s₀ : Sequence)

/-- An entry point that began in `s₀` is active: once it was called back, its error stays. -/
structure Held (t : Log) (s : Sequence) : Prop where
  active : s.active = true
  completion : s.result.completion = s₀.result.completion
  faulted : Interrupted t → Faulted s
  open_ : ¬ Finished t

/-- How it ends. -/
structure Ended (t : Log) (ok : Bool) (s : Sequence) : Prop where
  latched : Interrupted t → ¬ Finished t → ok = false ∧ s.result.stage = .fault ∧ Faulted s
  completion : ¬ Finished t → s.result.completion = s₀.result.completion
  finished : Finished t → s.result.completion = s₀.result.completion + 1

variable {s₀}

theorem faulted_failing (s : Sequence) {e : Error} (he : e ≠ .none) : Faulted (s.failing e) := by
  refine ⟨?_, rfl, rfl, rfl⟩
  show (if s.result.error = .none then e else s.result.error) ≠ .none
  by_cases h : s.result.error = .none
  · rw [if_pos h]
    exact he
  · rw [if_neg h]
    exact h

theorem Held.visited (h : Held s₀ t s) (hv : Visits s log s') : Held s₀ (t ++ log) s' := by
  have hopen : ¬ Finished (t ++ log) := fun hf => (finished_append.1 hf).elim h.open_ (hv.open_ h.active)
  by_cases hi : Interrupted log
  · have hs' := hv.faults h.active hi
    rw [hs']
    exact ⟨h.active, h.completion, fun _ => faulted_failing s (by decide), hopen⟩
  · have hs' := hv.passes h.active hi
    rw [hs']
    exact ⟨h.active, h.completion, fun hb => h.faulted ((interrupted_append.1 hb).resolve_right hi), hopen⟩

/-- What is no call of the sequence and does not finish an operation. -/
theorem Held.event (h : Held s₀ t s) (hcalled : calledBack e = false) (hfinishes : finishes e = false) :
    Held s₀ (t ++ [e]) s := by
  refine ⟨h.active, h.completion, fun hi => ?_, fun hf => ?_⟩
  · rw [interrupted_append, interrupted_single, hcalled] at hi
    exact h.faulted (hi.resolve_right Bool.false_ne_true)
  · rw [finished_append, finished_single, hfinishes] at hf
    exact h.open_ (hf.resolve_right Bool.false_ne_true)

theorem hook_held {c : Call} (hc : ∀ x, finishes (.call c x) = false) :
    Meets Visits (Held s₀) (hook c) fun t _ s => Held s₀ t s := by
  refine @Meets.bind _ _ _ _ _ _ _ _ _ _ _ _ (fun t _ s => Held s₀ t s) _ _ (Meets.lend fun t s log s' b h hv => ?_)
    fun _ => Meets.ask fun t x s h => h.event rfl (hc x)
  exact (h.visited hv).event rfl rfl

/-- The end of a part, or the beginning of the next. -/
def Passed (s₀ : Sequence) (t : Log) (ok : Bool) (s : Sequence) : Prop :=
  Ended s₀ t ok s ∧ (ok = true → Held s₀ t s)

theorem fail_passed {e : Error} (he : e ≠ .none) : Meets Visits (Held s₀) (fail e) (Passed s₀) := by
  let P (t : Log) (s : Sequence) : Prop := Held s₀ t s ∧ s.result.stage = .fault ∧ Faulted s
  refine Meets.modify_bind (K := P) (fun t s h => ?_)
    (@Meets.bind _ _ _ _ _ _ _ _ _ _ _ _ (fun t _ s => P t s) _ _ (Meets.ask fun t _ s h => ?_)
      fun _ => Meets.pure fun t s h => ?_)
  · exact ⟨⟨h.active, h.completion, fun _ => faulted_failing s he, h.open_⟩, rfl, faulted_failing s he⟩
  · exact ⟨h.1.event rfl rfl, h.2⟩
  · exact ⟨⟨fun _ _ => ⟨rfl, h.2⟩, fun _ => h.1.completion, fun hf => absurd hf h.1.open_⟩, nofun⟩

theorem fail_ended : Meets Visits (Held s₀) (fail .backend) (Ended s₀) :=
  (fail_passed (by decide)).conseq (fun _ _ h => h) fun _ _ _ h => h.1

theorem Held.moved (h : Held s₀ t s) (hactive : s'.active = s.active)
    (hcompletion : s'.result.completion = s.result.completion) (hfaulted : Faulted s → Faulted s') : Held s₀ t s' :=
  ⟨hactive.trans h.active, hcompletion.trans h.completion, fun hi => hfaulted (h.faulted hi), h.open_⟩

theorem Faulted.inStage (h : Faulted s) (stage : Stage) : Faulted (s.inStage stage) :=
  ⟨h.error, h.tuned, h.fullCalibration, h.requiresRecovery⟩

theorem settle_ended : Meets Visits (Held s₀) settle (Ended s₀) := by
  refine Meets.get_bind fun s₁ => Meets.ite (fun herror => ?_) fun hclean => ?_
  · refine Meets.modify_bind (K := fun t s => Held s₀ t s ∧ s.result.stage = .fault) ?_ (Meets.pure fun t s h => ?_)
    · rintro t s ⟨h, rfl⟩
      exact ⟨h.moved rfl rfl fun hf => hf.inStage .fault, rfl⟩
    · exact ⟨fun hi _ => ⟨rfl, h.2, h.1.faulted hi⟩, fun _ => h.1.completion, fun hf => absurd hf h.1.open_⟩
  · refine Meets.pure ?_
    rintro t s ⟨h, rfl⟩
    -- Without an error, nobody called.
    have hquiet : ¬ Interrupted t := fun hi => hclean (h.faulted hi).error
    exact ⟨fun hi => absurd hi hquiet, fun _ => h.completion, fun hf => absurd hf h.open_⟩

theorem enter_held (stage : Stage) : Meets Visits (Held s₀) (enter stage) fun t _ s => Held s₀ t s :=
  Meets.modify_bind (K := Held s₀) (fun _ _ h => h.moved rfl rfl fun hf => hf.inStage stage)
    (Meets.pure fun _ _ h => h)

theorem checked_passed (ok : Bool) (stage : Stage) :
    Meets Visits (Held s₀) (clean ok >>= fun ok => if ok then enter stage else fail .backend) (Passed s₀) := by
  refine Meets.get_bind fun s₁ => Meets.ite (fun hok => ?_) fun _ => ?_
  · have hnone : s₁.result.error = .none := eq_of_beq (Bool.and_eq_true_iff.1 hok).2
    refine Meets.modify_bind (K := fun t s => Held s₀ t s ∧ s.result.error = .none) ?_ (Meets.pure fun t s h => ?_)
    · rintro t s ⟨h, rfl⟩
      exact ⟨h.moved rfl rfl fun hf => hf.inStage stage, hnone⟩
    · have hquiet : ¬ Interrupted t := fun hi => (h.1.faulted hi).error h.2
      exact ⟨⟨fun hi => absurd hi hquiet, fun _ => h.1.completion, fun hf => absurd hf h.1.open_⟩, fun _ => h.1⟩
  · exact (fail_passed (by decide)).conseq (fun t s h => h.1) fun _ _ _ h => h

theorem acquire_passed : Meets Visits (Held s₀) acquire (Passed s₀) := by
  refine Meets.modify_bind (K := Held s₀) (fun t s h => ?_) (Meets.get_bind fun s₁ => ?_)
  · exact h.moved rfl rfl fun hf => ⟨hf.error, hf.tuned, hf.fullCalibration, hf.requiresRecovery⟩
  · refine Meets.bind ((hook_held fun _ => rfl).conseq (fun t s h => h.1) fun _ _ _ h => h) fun ok => ?_
    exact checked_passed ok .acquire

theorem acquire_settles : Meets Visits (Held s₀) (Reentrant.both acquire settle) (Ended s₀) :=
  Meets.both (acquire_passed.conseq (fun _ _ h => h) fun _ _ _ h => ⟨h.2, fun hok => hok ▸ h.1⟩) settle_ended

theorem entered_settles (stage : Stage) :
    Meets Visits (Held s₀) (do let _ ← enter stage; settle) (Ended s₀) :=
  Meets.bind (enter_held stage) fun _ => settle_ended

theorem hooks_held {m m' : Gated Bool} (hm : Meets Visits (Held s₀) m fun t _ s => Held s₀ t s)
    (hm' : Meets Visits (Held s₀) m' fun t _ s => Held s₀ t s) :
    Meets Visits (Held s₀) (Reentrant.both m m') fun t _ s => Held s₀ t s :=
  Meets.both (hm.conseq (fun _ _ h => h) fun _ _ _ h => ⟨fun _ => h, fun _ => h⟩) hm'

/-- The last hook of an operation: it is finished, whoever called. -/
theorem finish_ended (a : Action) : Meets Visits (Held s₀) (do
    if ← hook (Call.finishOperation a) then do
      modify Sequence.completed
      settle
    else
      fail .backend) (Ended s₀) := by
  let P (t : Log) (ok : Bool) (s : Sequence) : Prop :=
    (ok = false → Held s₀ t s) ∧ (ok = true → Finished t ∧ s.result.completion = s₀.result.completion)
  refine @Meets.bind _ _ _ _ _ _ _ _ _ _ _ _ P _ _ ?_ fun ok => ?_
  · refine @Meets.bind _ _ _ _ _ _ _ _ _ _ _ _ (fun t _ s => Held s₀ t s) _ _ (Meets.lend fun t s log s' b h hv => ?_)
      fun _ => Meets.ask fun t x s h => ⟨fun hx => ?_, fun hx => ?_⟩
    · exact (h.visited hv).event rfl rfl
    · exact h.event rfl hx
    · exact ⟨⟨_, List.mem_append.2 (Or.inr List.mem_cons_self), hx⟩, h.completion⟩
  · refine Meets.ite (fun hok => ?_) fun hok => fail_ended.conseq (fun _ _ h => ?_) fun _ _ _ h => h
    · refine Meets.modify_bind (K := fun t s => Finished t ∧ s.result.completion = s₀.result.completion + 1) ?_ ?_
      · exact fun t s h => ⟨(h.2 hok).1, congrArg (· + 1) (h.2 hok).2⟩
      · refine Meets.get_bind fun s₂ => Meets.ite (fun _ => ?_) fun _ => Meets.pure ?_
        · refine Meets.modify_bind (K := fun t s => Finished t ∧ s.result.completion = s₀.result.completion + 1) ?_
            (Meets.pure fun t s h => ?_)
          · rintro t s ⟨h, rfl⟩
            exact h
          · exact ⟨fun _ hf => absurd h.1 hf, fun hf => absurd h.1 hf, fun _ => h.2⟩
        · rintro t s ⟨h, rfl⟩
          exact ⟨fun _ hf => absurd h.1 hf, fun hf => absurd h.1 hf, fun _ => h.2⟩
    · exact h.1 (Bool.eq_false_iff.2 hok)

theorem advance_ended (stage : Stage) (hstage : stage ≠ .fault ∧ stage ≠ .stopped) :
    Meets Visits (Held s₀) (advance stage) (Ended s₀) := by
  cases stage with
  | upload =>
      refine Meets.bind (hook_held fun _ => rfl) fun p => ?_
      cases p with
      | pending => exact settle_ended
      | failed => exact fail_ended
      | complete =>
          refine Meets.bind (hook_held fun _ => rfl) fun ok => Meets.ite (fun _ => ?_) fun _ => fail_ended
          exact entered_settles .btInitialization
  | btInitialization =>
      refine Meets.bind (hook_held fun _ => rfl) fun p => ?_
      cases p with
      | pending => exact settle_ended
      | failed => exact fail_ended
      | complete =>
          refine Meets.modify_bind (K := Held s₀) (fun t s h => ?_) acquire_settles
          exact h.moved rfl rfl fun hf => ⟨hf.error, hf.tuned, hf.fullCalibration, hf.requiresRecovery⟩
  | acquire =>
      refine Meets.bind (hook_held fun _ => rfl) fun p => ?_
      cases p with
      | pending => exact settle_ended
      | failed => exact fail_ended
      | complete => exact entered_settles .run
  | run =>
      refine Meets.get_bind fun s₁ => Meets.bind ((hooks_held (hook_held fun _ => rfl) (hook_held fun _ => rfl)).conseq
        (fun t s h => h.1) fun _ _ _ h => h) fun ok => Meets.ite (fun _ => entered_settles .restore) fun _ => fail_ended
  | restore =>
      refine Meets.bind (hook_held fun _ => rfl) fun p => ?_
      cases p with
      | pending => exact settle_ended
      | failed => exact fail_ended
      | complete =>
          refine Meets.modify_bind (K := Held s₀) (fun t s h => ?_) (Meets.get_bind fun s₁ => ?_)
          · exact h.moved rfl rfl fun hf => ⟨hf.error, hf.tuned, hf.fullCalibration, hf.requiresRecovery⟩
          · refine Meets.ite (fun _ => ?_) fun _ => ?_
            · exact acquire_settles.conseq (fun _ _ h => h.1) fun _ _ _ h => h
            · exact (finish_ended s₁.action).conseq (fun _ _ h => h.1) fun _ _ _ h => h
  | idle => exact settle_ended
  | ready => exact settle_ended
  | fault => exact absurd rfl hstage.1
  | stopped => exact absurd rfl hstage.2

/-! ## Whole calls -/

/-- Nobody called yet. -/
structure Started (s₀ : Sequence) (t : Log) (s : Sequence) : Prop where
  completion : s.result.completion = s₀.result.completion
  quiet : ¬ Interrupted t
  open_ : ¬ Finished t

theorem Started.ended (h : Started s₀ t s) (ok : Bool) : Ended s₀ t ok s :=
  ⟨fun hi => absurd hi h.quiet, fun _ => h.completion, fun hf => absurd hf h.open_⟩

theorem Started.event (h : Started s₀ t s) (hcalled : calledBack e = false) (hfinishes : finishes e = false) :
    Started s₀ (t ++ [e]) s := by
  refine ⟨h.completion, fun hi => ?_, fun hf => ?_⟩
  · rw [interrupted_append, interrupted_single, hcalled] at hi
    exact hi.elim h.quiet Bool.false_ne_true
  · rw [finished_append, finished_single, hfinishes] at hf
    exact hf.elim h.open_ Bool.false_ne_true

theorem fail_started (e : Error) : Meets Visits (Started s₀) (fail e) fun t _ s => Started s₀ t s := by
  refine Meets.modify_bind (K := Started s₀) (fun t s h => ⟨h.completion, h.quiet, h.open_⟩) ?_
  exact @Meets.bind _ _ _ _ _ _ _ _ _ _ _ _ (fun t _ s => Started s₀ t s) _ _
    (Meets.ask fun t _ s h => h.event rfl rfl) fun _ => Meets.pure fun _ _ h => h

theorem check_started (now : UInt64) : Meets Visits (Started s₀) (check now) fun t _ s => Started s₀ t s := by
  have hask : ∀ c : Call, (∀ x, finishes (.call c x) = false) →
      Meets Visits (Started s₀) (Reentrant.ask c) fun t _ s => Started s₀ t s :=
    fun c hc => Meets.ask fun t x s h => h.event rfl (hc x)
  refine Meets.get_bind fun s₁ => Meets.bind ((hask .inGate fun _ => rfl).conseq (fun _ _ h => h.1) fun _ _ _ h => h)
    fun inside => Meets.ite (fun _ => Meets.ite (fun _ => fail_started .clock) fun _ => ?_) fun _ => fail_started .ownership
  refine Meets.modify_bind (K := Started s₀) (fun t s h => ⟨h.completion, h.quiet, h.open_⟩) ?_
  refine Meets.ite (fun _ => Meets.pure fun _ _ h => h) fun _ => Meets.ite (fun _ => fail_started .timeout) fun _ => ?_
  refine Meets.bind (hask .healthy fun _ => rfl) fun healthy => ?_
  exact Meets.ite (fun _ => Meets.pure fun _ _ h => h) fun _ => fail_started .backend

theorem Started.held (h : Started s₀ t s) (hactive : s.active = true) : Held s₀ t s :=
  ⟨hactive, h.completion, fun hi => absurd hi h.quiet, h.open_⟩

theorem guarded_ended {m : Gated Bool} (hm : Meets Visits (fun t s => Started s₀ t s ∧ s.active = true) m (Ended s₀)) :
    Meets Visits (Started s₀) (guarded m) (Ended s₀) := by
  refine Meets.modify_bind (K := fun t s => Started s₀ t s ∧ s.active = true) (fun t s h => ?_) ?_
  · exact ⟨⟨h.completion, h.quiet, h.open_⟩, rfl⟩
  · refine Meets.bind hm fun ok => Meets.modify_bind (K := fun t s => Ended s₀ t ok s) (fun t s h => ?_)
      (Meets.pure fun _ _ h => h)
    refine ⟨fun hi hf => ?_, h.completion, h.finished⟩
    rcases h.latched hi hf with ⟨hok, hstage, hfaulted⟩
    exact ⟨hok, hstage, ⟨hfaulted.error, hfaulted.tuned, hfaulted.fullCalibration, hfaulted.requiresRecovery⟩⟩

theorem checked_ended {m : Gated Bool} (now : UInt64)
    (hm : Meets Visits (fun t s => Started s₀ t s ∧ s.active = true) m (Ended s₀)) :
    Meets Visits (Started s₀) (do if ← check now then guarded m else return false) (Ended s₀) :=
  Meets.bind (check_started now) fun _ => Meets.ite (fun _ => guarded_ended hm) fun _ => Meets.pure fun _ _ h => h.ended false

theorem fail_refused (e : Error) : Meets Visits (Started s₀) (fail e) (Ended s₀) :=
  (fail_started e).conseq (fun _ _ h => h) fun _ ok _ h => h.ended ok

theorem begin_ended (now : UInt64) : Meets Visits (Started s₀) (begin now) (Ended s₀) := by
  refine Meets.get_bind fun s₁ => Meets.ite (fun _ => Meets.pure fun _ _ h => h.1.ended false) fun _ => ?_
  refine (checked_ended now ?_).conseq (fun _ _ h => h.1) fun _ _ _ h => h
  refine Meets.modify_bind (K := Held s₀) (fun t s h => ?_)
    (Meets.bind (hooks_held (hook_held fun _ => rfl) (hook_held fun _ => rfl)) fun ok => ?_)
  · exact (h.1.held h.2).moved rfl rfl fun hf => ⟨hf.error, hf.tuned, hf.fullCalibration, hf.requiresRecovery⟩
  · exact (checked_passed ok .upload).conseq (fun _ _ h => h) fun _ _ _ h => h.1

theorem launch_ended (a : Action) (now : UInt64) : Meets Visits (Started s₀) (launch a now) (Ended s₀) := by
  refine Meets.get_bind fun s₁ => Meets.ite (fun _ => Meets.pure fun _ _ h => h.1.ended false) fun _ => ?_
  refine Meets.ite (fun _ => Meets.pure fun _ _ h => h.1.ended false) fun _ => ?_
  refine (checked_ended now ?_).conseq (fun _ _ h => h.1) fun _ _ _ h => h
  refine Meets.modify_bind (K := Held s₀) (fun t s h => ?_) (Meets.bind (hook_held fun _ => rfl) fun ok => ?_)
  · exact (h.1.held h.2).moved rfl rfl fun hf => ⟨hf.error, rfl, rfl, hf.requiresRecovery⟩
  · refine Meets.get_bind fun s₂ => Meets.ite (fun _ => ?_) fun _ => ?_
    · exact acquire_passed.conseq (fun _ _ h => h.1) fun _ _ _ h => h.1
    · exact fail_ended.conseq (fun _ _ h => h.1) fun _ _ _ h => h

theorem service_ended (now : UInt64) : Meets Visits (Started s₀) (service now) (Ended s₀) := by
  refine Meets.get_bind fun s₁ => Meets.ite (fun _ => ?_) fun _ => ?_
  · exact (fail_refused .ownership).conseq (fun _ _ h => h.1) fun _ _ _ h => h
  refine (checked_ended now (Meets.get_bind fun s₂ => ?_)).conseq (fun _ _ h => h.1) fun _ _ _ h => h
  by_cases hstage : s₂.result.stage ≠ .fault ∧ s₂.result.stage ≠ .stopped
  · exact (advance_ended _ hstage).conseq (fun _ _ h => h.1.1.held h.1.2) fun _ _ _ h => h
  -- Nothing is done for a sequence at its end.
  · have hend : s₂.result.stage = .fault ∨ s₂.result.stage = .stopped := by
      by_contra hno
      exact hstage ⟨fun h => hno (Or.inl h), fun h => hno (Or.inr h)⟩
    rcases hend with h | h
    · rw [h]
      exact Meets.pure fun _ _ h => h.1.1.ended false
    · rw [h]
      exact Meets.pure fun _ _ h => h.1.1.ended false

theorem stop_ended : Meets Visits (Started s₀) stop (Ended s₀) := by
  refine Meets.get_bind fun s₁ => Meets.ite (fun _ => ?_) fun _ => ?_
  · exact (fail_refused .ownership).conseq (fun _ _ h => h.1) fun _ _ _ h => h
  · refine @Meets.bind _ _ _ _ _ _ _ _ _ _ _ _ (fun t _ s => Started s₀ t s) _ _
      (Meets.ask fun t _ s h => h.1.event rfl rfl) fun _ => ?_
    refine Meets.modify_bind (K := Started s₀) (fun t s h => ⟨h.completion, h.quiet, h.open_⟩) ?_
    exact Meets.pure fun _ _ h => h.ended true

theorem exec_ended (op : Op) : Meets Visits (Started s₀) (exec op) (Ended s₀) := by
  cases op with
  | begin now => exact begin_ended now
  | launch a now => exact launch_ended a now
  | service now => exact service_ended now
  | stop => exact stop_ended

/-- A call of an entry point from any state, with any calls of the entry points during its hooks. -/
abbrev Called (op : Op) (s : Sequence) (log : Log) (ok : Bool) (s' : Sequence) : Prop := (exec op s).Ran exec log ok s'

theorem called_ended {op : Op} {ok : Bool} (h : Called op s log ok s') :
    Ended s log ok s' := by
  have hstart : Started s [] s := ⟨rfl, not_interrupted_nil, not_finished_nil⟩
  exact h.meets visits_refl visits_trans exec_visits (exec_ended op [] s hstart)

/-- The fault stands. -/
structure Latched (s : Sequence) (ok : Bool) (s' : Sequence) : Prop where
  refused : ok = false
  stage : s'.result.stage = .fault
  tuned : s'.result.tuned = false
  fullCalibration : s'.result.fullCalibration = false
  requiresRecovery : s'.result.requiresRecovery = true
  completion : s'.result.completion = s.result.completion

/-- **The fault latch.**  If a hook calls `service` or `stop` of the sequence it serves, the fault stands exactly if
`finishOperation` does not report success in the same call. -/
theorem interrupted_iff {op : Op} {s s' : Sequence} {log : Log} {ok : Bool} (hcalled : Called op s log ok s')
    (hinterrupted : Interrupted log) : Latched s ok s' ↔ ¬ Finished log := by
  have hended := called_ended hcalled
  constructor
  · intro h hf
    have hnext := hended.finished hf
    rw [h.completion] at hnext
    exact absurd hnext (by
      intro h0
      have h1 : s.result.completion.toNat = (s.result.completion + 1).toNat := congrArg UInt64.toNat h0
      rw [UInt64.toNat_add] at h1
      have hlt := s.result.completion.toNat_lt
      simp only [UInt64.reduceToNat] at h1
      omega)
  · intro hf
    rcases hended.latched hinterrupted hf with ⟨hok, hstage, hfaulted⟩
    exact ⟨hok, hstage, hfaulted.tuned, hfaulted.fullCalibration, hfaulted.requiresRecovery, hended.completion hf⟩

/-- The state before the last service of the first tuning. -/
def closing : Sequence where
  result := { stage := .restore, step := .dpk, completion := 1, initialized := true }
  started := 3
  last := 4
  action := .tune
  index := 4

def agreeing (c : Call) : Reply c := (granting c ()).1

/-- This hook calls `stop`. -/
def stopIn (hook : Call) (c : Call) : List Op := if c = hook then [.stop] else []

/-- One service, with a call of `stop` in one hook. -/
def served (s : Sequence) (hook : Call) : Log × Bool × Sequence := (service 5 s).play exec agreeing (stopIn hook)

theorem served_called (s : Sequence) (hook : Call) :
    Called (.service 5) s (served s hook).1 (served s hook).2.1 (served s hook).2.2 :=
  Task.ran_play exec agreeing (stopIn hook) (service 5 s)

theorem interrupted_of_any (h : log.any calledBack = true) : Interrupted log := List.any_eq_true.1 h

/-- The fault is recorded while the lease is awaited. -/
theorem interrupted_iff_lease :
    Latched { closing with result := { closing.result with stage := .acquire } } false
        (served { closing with result := { closing.result with stage := .acquire } } .pollLease).2.2 ↔
      ¬ Finished (served { closing with result := { closing.result with stage := .acquire } } .pollLease).1 :=
  interrupted_iff (served_called _ .pollLease) (interrupted_of_any (by decide +kernel))

/-- The last step of the first tuning calls `stop` while the operation is finished: the call fails, and the sequence
counts a complete calibration. -/
theorem stopped_while_finishing :
    (∃ h, RadioBoot.Run h closing) ∧
      Called (.service 5) closing (served closing (.finishOperation .tune)).1 false
        (served closing (.finishOperation .tune)).2.2 ∧
      Interrupted (served closing (.finishOperation .tune)).1 ∧
      (served closing (.finishOperation .tune)).2.2.result.stage = .fault ∧
      (served closing (.finishOperation .tune)).2.2.result.tuned = true ∧
      (served closing (.finishOperation .tune)).2.2.result.fullCalibration = true ∧
      (served closing (.finishOperation .tune)).2.2.result.completion = closing.result.completion + 1 := by
  have hreached : (replay RadioBoot.exec granting bootAndTune.dropLast {} ()).2.1 = closing := by decide +kernel
  refine ⟨⟨_, hreached ▸ replay_run RadioBoot.exec granting bootAndTune.dropLast {} ()⟩,
    served_called closing (.finishOperation .tune), interrupted_of_any (by decide +kernel), ?_⟩
  decide +kernel

end Hooked
end RadioBoot
end Rtl8852be
