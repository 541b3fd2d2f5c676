import Rtl8852be.RadioBoot.Operations

/-!
# Sequencing — whole runs of the sequence

* `Accounted` — the marks of a run are those of completed operations, each of which was allowed where it
  stands, and the beginning of at most one more;
* `Accounted.moves` — one call keeps this, by one case for everything that a call can do;
* `boot_sequencing` — the same for every run.
-/

namespace Rtl8852be
namespace RadioBoot

open Interaction

/-! ## The order of operations -/

/-- Whether a scan is open after these operations. -/
def scanningAfter (ops : List Action) : Bool :=
  ops.foldl (fun open_ a => if a = .scanBegin then true else if a = .scanEnd then false else open_) false

def Allowed (ops : List Action) : Action → Prop
  | .initialization => ops = []
  | .tune => ops ≠ [] ∧ scanningAfter ops = false
  | .scanBegin => (ops.getLast? = some .tune ∨ ops.getLast? = some .scanEnd) ∧ scanningAfter ops = false
  | .scanTune | .scanEnd => scanningAfter ops = true

/-- Each operation was allowed after those before it. -/
inductive Legal : List Action → Prop
  | nil : Legal []
  | snoc {ops : List Action} {a : Action} (hops : Legal ops) (ha : Allowed ops a) : Legal (ops ++ [a])

def Mark.refused : Mark → Mark
  | .leased step _ => .leased step false
  | .ran step _ => .ran step false
  | .returned _ => .returned false
  | .closed action _ => .closed action false
  | m => m

/-- The beginning of an operation, of which the last mark may have been refused. -/
def Begun (a : Action) (rest : List Mark) : Prop :=
  rest <+: a.transcript ∨ ∃ front m, rest = front ++ [m.refused] ∧ front ++ [m] <+: a.transcript

theorem scanningAfter_snoc (ops : List Action) (a : Action) :
    scanningAfter (ops ++ [a]) =
      if a = .scanBegin then true else if a = .scanEnd then false else scanningAfter ops := by
  unfold scanningAfter
  rw [List.foldl_append, List.foldl_cons, List.foldl_nil]

/-! ## Transcripts -/

/-- The marks of the first `i` steps. -/
def Action.done (a : Action) (i : ℕ) : List Mark := (a.steps.take i).flatMap Step.transcript

theorem count_pos (a : Action) : 0 < a.count := by cases a <;> decide

theorem count_eq (a : Action) : a.count = a.steps.length := by cases a <;> rfl

theorem stepAt_eq {a : Action} {i : ℕ} (hi : i < a.count) : a.steps[i]? = some (a.stepAt i) := by
  have hfinite : ∀ i < a.count, a.steps[i]? = some (a.stepAt i) := by cases a <;> decide
  exact hfinite i hi

theorem done_succ {a : Action} {i : ℕ} (hi : i < a.count) :
    a.done (i + 1) = a.done i ++ (a.stepAt i).transcript := by
  unfold Action.done
  rw [List.take_add_one, stepAt_eq hi, List.flatMap_append, Option.toList_some, List.flatMap_singleton]

theorem done_count (a : Action) : a.done a.count = a.work := by
  unfold Action.done Action.work
  rw [count_eq, List.take_length]

theorem work_starts (a : Action) (i : ℕ) : a.done i <+: a.work := by
  refine ⟨(a.steps.drop i).flatMap Step.transcript, ?_⟩
  calc a.done i ++ (a.steps.drop i).flatMap Step.transcript
      = (a.steps.take i ++ a.steps.drop i).flatMap Step.transcript := List.flatMap_append.symm
    _ = a.work := by rw [List.take_append_drop]; rfl

/-- What was marked of a step continues the steps before it. -/
theorem within_transcript {a : Action} {i : ℕ} (hi : i < a.count) {front : List Mark}
    (hfront : front <+: (a.stepAt i).transcript) : a.done i ++ front <+: a.transcript := by
  have hstep : a.done i ++ front <+: a.done (i + 1) := by
    rw [done_succ hi]
    exact (List.prefix_append_right_inj _).2 hfront
  exact (hstep.trans (work_starts a (i + 1))).trans (List.prefix_append _ _)

theorem completed_append (ms ms' : List Mark) : completed (ms ++ ms') = completed ms ++ completed ms' :=
  List.filterMap_append

/-! ## The account -/

def Control.soFar (c : Control) : List Mark :=
  match c.stage with
  | .acquire => c.action.done c.index ++ [.leased c.step true]
  | .run => c.action.done c.index ++ [.leased c.step true, .acquired]
  | .restore =>
      c.action.done c.index ++ [.leased c.step true, .acquired, .ran c.step true, .returned true]
  | _ => []

/-- Where the sequence is, after the operations `ops` and the marks `rest`. -/
def Control.At (c : Control) (ops : List Action) (rest : List Mark) : Prop :=
  match c.stage with
  | .idle | .upload | .btInitialization => rest = [] ∧ ops = [] ∧ c.action = .initialization
  | .acquire | .run | .restore =>
      rest = c.soFar ∧ Allowed ops c.action ∧ c.index < c.action.count ∧ c.step = c.action.stepAt c.index
  | .ready => rest = []
  | .fault | .stopped => rest = [] ∨ ∃ a, Allowed ops a ∧ Begun a rest

/-- The flags tell which operations were completed. -/
structure Told (ops : List Action) (c : Control) : Prop where
  legal : Legal ops
  scanning : c.scanning = scanningAfter ops
  initialized : c.initialized = true → ops ≠ []
  full : c.fullCalibration = true →
    c.stage = .ready ∧ (ops.getLast? = some .tune ∨ ops.getLast? = some .scanEnd)

structure Accounted (ms : List Mark) (c : Control) : Prop where
  told : Told (completed ms) c
  marks : ∃ rest, ms = (completed ms).flatMap Action.transcript ++ rest ∧ c.At (completed ms) rest

theorem accounted_new : Accounted [] {} :=
  ⟨⟨.nil, rfl, nofun, nofun⟩, [], rfl, rfl, rfl, rfl⟩

variable {c c' : Control}

/-- A call after which the same operations are completed. -/
theorem Accounted.continues {ms new : List Mark} (h : Accounted ms c) (hnew : completed new = [])
    (hscanning : c'.scanning = c.scanning) (hready : c'.initialized = c.initialized)
    (hfull : c'.fullCalibration = true → c.fullCalibration = true ∧ c'.stage = c.stage)
    (hat : ∀ rest, c.At (completed ms) rest → c'.At (completed ms) (rest ++ new)) :
    Accounted (ms ++ new) c' := by
  have hsame : completed (ms ++ new) = completed ms := by
    rw [completed_append, hnew, List.append_nil]
  rcases h.marks with ⟨rest, hms, hrest⟩
  refine ⟨?_, rest ++ new, ?_, ?_⟩
  · rw [hsame]
    refine ⟨h.told.legal, hscanning.trans h.told.scanning, fun hi => ?_, fun hf => ?_⟩
    · exact h.told.initialized (hready.symm.trans hi)
    · rcases hfull hf with ⟨hbefore, hstage⟩
      rw [hstage]
      exact h.told.full hbefore
  · rw [hsame, ← List.append_assoc, ← hms]
  · rw [hsame]
    exact hat rest hrest

/-! ## One call -/

section Moves

variable {ms : List Mark} {c : Control}

theorem begun_refused {a : Action} {front : List Mark} {m : Mark} (h : front ++ [m] <+: a.transcript) :
    Begun a (front ++ [m.refused]) :=
  .inr ⟨front, m, rfl, h⟩

theorem Control.At.ongoing {ops : List Action} {rest : List Mark} (h : c.At ops rest)
    (hstage : c.stage = .acquire ∨ c.stage = .run ∨ c.stage = .restore) :
    rest = c.soFar ∧ Allowed ops c.action ∧ c.index < c.action.count ∧ c.step = c.action.stepAt c.index := by
  unfold Control.At at h
  rcases hstage with hstage | hstage | hstage <;> rw [hstage] at h <;> exact h

theorem at_fault {c' : Control} {ops : List Action} {rest : List Mark} {a : Action}
    (hstage : c'.stage = .fault) (ha : Allowed ops a) (hrest : Begun a rest) : c'.At ops rest := by
  unfold Control.At
  rw [hstage]
  exact .inr ⟨a, ha, hrest⟩

theorem Control.At.ends {ops : List Action} {rest : List Mark} (h : c.At ops rest) :
    rest = [] ∨ ∃ a, Allowed ops a ∧ Begun a rest := by
  have hbegun : ∀ front : List Mark, c.index < c.action.count →
      front <+: (c.action.stepAt c.index).transcript → Begun c.action (c.action.done c.index ++ front) :=
    fun front hi hfront => .inl (within_transcript hi hfront)
  cases hstage : c.stage with
  | idle | upload | btInitialization =>
      unfold Control.At at h
      rw [hstage] at h
      exact .inl h.1
  | ready =>
      unfold Control.At at h
      rw [hstage] at h
      exact .inl h
  | fault | stopped =>
      unfold Control.At at h
      rw [hstage] at h
      exact h
  | acquire =>
      rcases h.ongoing (.inl hstage) with ⟨hrest, hallowed, hi, hstep⟩
      refine .inr ⟨c.action, hallowed, ?_⟩
      rw [hrest]
      unfold Control.soFar
      rw [hstage, hstep]
      exact hbegun _ hi ⟨[.acquired, .ran _ true, .returned true, .restored], rfl⟩
  | run =>
      rcases h.ongoing (.inr (.inl hstage)) with ⟨hrest, hallowed, hi, hstep⟩
      refine .inr ⟨c.action, hallowed, ?_⟩
      rw [hrest]
      unfold Control.soFar
      rw [hstage, hstep]
      exact hbegun _ hi ⟨[.ran _ true, .returned true, .restored], rfl⟩
  | restore =>
      rcases h.ongoing (.inr (.inr hstage)) with ⟨hrest, hallowed, hi, hstep⟩
      refine .inr ⟨c.action, hallowed, ?_⟩
      rw [hrest]
      unfold Control.soFar
      rw [hstage, hstep]
      exact hbegun _ hi ⟨[.restored], rfl⟩

/-- An action that is not refused may follow what was completed. -/
theorem Told.allowed {ops : List Action} {a : Action} (h : Told ops c) (hready : c.initialized = true)
    (hrefuses : c.refuses a = false) : Allowed ops a := by
  have hops := h.initialized hready
  cases a with
  | initialization => exact absurd hrefuses nofun
  | tune =>
      have hscanning : c.scanning = false := by simpa [Control.refuses] using hrefuses
      exact ⟨hops, h.scanning.symm.trans hscanning⟩
  | scanBegin =>
      have hflags : c.fullCalibration = true ∧ c.scanning = false := by
        simpa [Control.refuses] using hrefuses
      exact ⟨(h.full hflags.1).2, h.scanning.symm.trans hflags.2⟩
  | scanTune | scanEnd =>
      have hscanning : c.scanning = true := by simpa [Control.refuses] using hrefuses
      exact h.scanning.symm.trans hscanning

theorem first_lease (a : Action) : a.done 0 ++ [.leased (a.stepAt 0) true] <+: a.transcript :=
  within_transcript (count_pos a) ⟨[.acquired, .ran _ true, .returned true, .restored], rfl⟩

/-- The marks of a step that ends, with the lease of the next one. -/
theorem next_lease {a : Action} {i : ℕ} (hmore : i + 1 < a.count) :
    a.done (i + 1) ++ [.leased (a.stepAt (i + 1)) true] <+: a.transcript :=
  within_transcript hmore ⟨[.acquired, .ran _ true, .returned true, .restored], rfl⟩

theorem soFar_restored {rest : List Mark} (hstage : c.stage = .restore) (hrest : rest = c.soFar)
    (hi : c.index < c.action.count) (hstep : c.step = c.action.stepAt c.index) :
    rest ++ [.restored] = c.action.done (c.index + 1) := by
  rw [done_succ hi, hrest]
  unfold Control.soFar
  rw [hstage, List.append_assoc, hstep]
  rfl

/-- A failure ends the operation under way, or the one that was just launched. -/
theorem Accounted.fails {new : List Mark} {c' : Control} (h : Accounted ms c) (hnew : Failing c new)
    (hstage : c'.stage = .fault) (hfull : c'.fullCalibration = false) (hscanning : c'.scanning = c.scanning)
    (hready : c'.initialized = c.initialized) : Accounted (ms ++ new) c' := by
  have hcompleted : completed new = [] := by
    cases hnew <;> rfl
  refine h.continues hcompleted hscanning hready (fun hf => ?_) fun rest hrest => ?_
  · rw [hfull] at hf
    exact absurd hf Bool.false_ne_true
  cases hnew with
  | nothing =>
      unfold Control.At
      rw [hstage, List.append_nil]
      exact hrest.ends
  | first hbefore =>
      unfold Control.At at hrest
      rw [hbefore] at hrest
      rcases hrest with ⟨hrest, hops, haction⟩
      rw [hrest, haction]
      refine at_fault hstage (a := .initialization) hops ?_
      exact begun_refused (first_lease .initialization)
  | ran hbefore =>
      rcases hrest.ongoing (.inr (.inl hbefore)) with ⟨hrest, hallowed, hi, hstep⟩
      refine at_fault hstage hallowed ?_
      rw [hrest]
      unfold Control.soFar
      rw [hbefore, hstep]
      refine begun_refused (m := .ran (c.action.stepAt c.index) true) ?_
      rw [List.append_assoc]
      exact within_transcript hi ⟨[.returned true, .restored], rfl⟩
  | returned hbefore =>
      rcases hrest.ongoing (.inr (.inl hbefore)) with ⟨hrest, hallowed, hi, hstep⟩
      refine at_fault hstage hallowed ?_
      rw [hrest]
      unfold Control.soFar
      rw [hbefore, hstep, List.append_cons]
      refine begun_refused (m := .returned true) ?_
      rw [List.append_assoc, List.append_assoc]
      exact within_transcript hi ⟨[.restored], rfl⟩
  | next hbefore hmore =>
      rcases hrest.ongoing (.inr (.inr hbefore)) with ⟨hrest, hallowed, hi, hstep⟩
      refine at_fault hstage hallowed ?_
      rw [List.append_cons, soFar_restored hbefore hrest hi hstep]
      exact begun_refused (m := .leased _ true) (next_lease hmore)
  | closing hbefore hlast =>
      rcases hrest.ongoing (.inr (.inr hbefore)) with ⟨hrest, hallowed, hi, hstep⟩
      refine at_fault hstage hallowed ?_
      have hcount : c.index + 1 = c.action.count := Nat.le_antisymm hi hlast
      rw [List.append_cons, soFar_restored hbefore hrest hi hstep, hcount, done_count]
      exact begun_refused (m := .closed _ true) (List.prefix_refl _)
  | launched a hbefore hinitialized hallowed =>
      unfold Control.At at hrest
      rw [hbefore] at hrest
      rw [hrest]
      refine at_fault hstage (h.told.allowed hinitialized hallowed) ?_
      exact begun_refused (m := .leased _ true) (first_lease a)

/-- The operation is closed: it is the last one that was completed. -/
theorem Accounted.closes (h : Accounted ms c) (hstage : c.stage = .restore)
    (hlast : c.action.count ≤ c.index + 1) : Accounted (ms ++ [.restored, .closed c.action true]) c.closed := by
  rcases h.marks with ⟨rest, hms, hat⟩
  rcases hat.ongoing (.inr (.inr hstage)) with ⟨hrest, hallowed, hi, hstep⟩
  have hcount : c.index + 1 = c.action.count := Nat.le_antisymm hi hlast
  have hops : completed (ms ++ [.restored, .closed c.action true]) = completed ms ++ [c.action] :=
    completed_append _ _
  have hwork : rest ++ [.restored, .closed c.action true] = c.action.transcript := by
    rw [List.append_cons, soFar_restored hstage hrest hi hstep, hcount, done_count]
    rfl
  refine ⟨?_, [], ?_, rfl⟩
  · rw [hops]
    refine ⟨.snoc h.told.legal hallowed, ?_, fun _ => by simp, fun hfull => ⟨rfl, ?_⟩⟩
    · rw [scanningAfter_snoc, ← h.told.scanning]
      rfl
    · rw [List.getLast?_concat]
      have hactions : c.action = .tune ∨ c.action = .scanEnd := by simpa [Control.closed] using hfull
      rcases hactions with haction | haction
      · exact .inl (congrArg some haction)
      · exact .inr (congrArg some haction)
  · calc ms ++ [.restored, .closed c.action true]
        = (completed ms).flatMap Action.transcript ++ (rest ++ [.restored, .closed c.action true]) := by
          rw [← List.append_assoc, ← hms]
      _ = (completed ms ++ [c.action]).flatMap Action.transcript := by
          rw [hwork, List.flatMap_append, List.flatMap_singleton]
      _ = _ := by rw [hops, List.append_nil]

theorem Accounted.moves {new : List Mark} {c' : Control} (h : Accounted ms c) (hmoves : Moves c new c') :
    Accounted (ms ++ new) c' := by
  have hquiet : ∀ c' : Control, c'.scanning = c.scanning → c'.initialized = c.initialized →
      (c'.fullCalibration = true → c.fullCalibration = true ∧ c'.stage = c.stage) →
      (∀ rest, c.At (completed ms) rest → c'.At (completed ms) rest) → Accounted (ms ++ []) c' := by
    intro c' hscanning hready hfull hat
    refine h.continues rfl hscanning hready hfull fun rest hrest => ?_
    rw [List.append_nil]
    exact hat rest hrest
  -- Only a sequence that is ready has its calibration, and none of these calls starts there.
  have hnone : c.stage ≠ .ready → c.fullCalibration = true → False := fun hne hfull => hne (h.told.full hfull).1
  cases hmoves with
  | stays => exact hquiet c rfl rfl (fun hfull => ⟨hfull, rfl⟩) fun _ hrest => hrest
  | begins hstage =>
      refine hquiet _ rfl rfl (fun hfull => (hnone (by rw [hstage]; exact nofun) hfull).elim) fun rest hrest => ?_
      unfold Control.At at hrest
      rw [hstage] at hrest
      exact hrest
  | uploads hstage =>
      refine hquiet _ rfl rfl (fun hfull => (hnone (by rw [hstage]; exact nofun) hfull).elim) fun rest hrest => ?_
      unfold Control.At at hrest
      rw [hstage] at hrest
      exact hrest
  | first hstage =>
      refine h.continues rfl rfl rfl (fun hfull => (hnone (by rw [hstage]; exact nofun) hfull).elim)
        fun rest hrest => ?_
      unfold Control.At at hrest
      rw [hstage] at hrest
      rcases hrest with ⟨hrest, hops, haction⟩
      rw [hrest, haction]
      exact ⟨rfl, hops, Nat.succ_pos 2, rfl⟩
  | acquires hstage =>
      refine h.continues rfl rfl rfl (fun hfull => (hnone (by rw [hstage]; exact nofun) hfull).elim)
        fun rest hrest => ?_
      rcases hrest.ongoing (.inl hstage) with ⟨hrest, hallowed, hi, hstep⟩
      refine ⟨?_, hallowed, hi, hstep⟩
      rw [hrest]
      unfold Control.soFar
      rw [hstage, List.append_assoc]
      rfl
  | runs hstage =>
      refine h.continues rfl rfl rfl (fun hfull => (hnone (by rw [hstage]; exact nofun) hfull).elim)
        fun rest hrest => ?_
      rcases hrest.ongoing (.inr (.inl hstage)) with ⟨hrest, hallowed, hi, hstep⟩
      refine ⟨?_, hallowed, hi, hstep⟩
      rw [hrest]
      unfold Control.soFar
      rw [hstage, List.append_assoc]
      rfl
  | next hstage hmore =>
      refine h.continues rfl rfl rfl (fun hfull => (hnone (by rw [hstage]; exact nofun) hfull).elim)
        fun rest hrest => ?_
      rcases hrest.ongoing (.inr (.inr hstage)) with ⟨hrest, hallowed, hi, hstep⟩
      refine ⟨?_, hallowed, hmore, rfl⟩
      rw [List.append_cons, soFar_restored hstage hrest hi hstep]
      rfl
  | closes hstage hlast => exact h.closes hstage hlast
  | launches a hstage hready hallowed =>
      refine h.continues rfl rfl rfl (fun hfull => absurd hfull Bool.false_ne_true) fun rest hrest => ?_
      unfold Control.At at hrest
      rw [hstage] at hrest
      rw [hrest]
      exact ⟨rfl, h.told.allowed hready hallowed, count_pos a, rfl⟩
  | fails hnew hstage hfull hscanning hready => exact h.fails hnew hstage hfull hscanning hready
  | stops =>
      refine hquiet _ rfl rfl (fun hfull => absurd hfull Bool.false_ne_true) fun rest hrest => ?_
      exact hrest.ends

end Moves

/-! ## Launching -/

/-- What must hold for an action to be launched. -/
structure Permitted (r : Result) (a : Action) : Prop where
  stage : r.stage = .ready
  once : a ≠ .initialization
  tune : a = .tune → r.scanning = false
  scanBegin : a = .scanBegin → r.fullCalibration = true ∧ r.scanning = false
  scan : a = .scanTune ∨ a = .scanEnd → r.scanning = true

theorem permitted_of {r : Result} {a : Action} (hstage : r.stage = .ready) (h : r.refuses a = false) :
    Permitted r a := by
  refine ⟨hstage, ?_, ?_, ?_, ?_⟩
  · intro ha
    subst ha
    exact absurd h nofun
  · intro ha
    subst ha
    simpa [Result.refuses] using h
  · intro ha
    subst ha
    simpa [Result.refuses] using h
  · rintro (ha | ha) <;> subst ha <;> simpa [Result.refuses] using h

/-- A launch that asks anything was permitted, and no calibration is complete after it. -/
theorem launch_spec (s : Sequence) (a : Action) (now : UInt64) :
    (launch a now).wp (fun log _ s' =>
      log = [] ∨ Permitted s.result a ∧ s'.result.fullCalibration = false) s := by
  unfold launch
  rw [wp_get_bind]
  by_cases hno : s.result.stage ≠ .ready ∨ !s.result.initialized ∨ s.active
  · rw [if_pos hno, wp_pure]
    exact .inl rfl
  rw [if_neg hno]
  have hready : s.result.stage = .ready := not_not.1 (not_or.1 hno).1
  by_cases hrefuses : s.result.refuses a
  · rw [if_pos hrefuses, wp_pure]
    exact .inl rfl
  rw [if_neg hrefuses]
  have hpermitted : Permitted s.result a := permitted_of hready (Bool.eq_false_iff.2 hrefuses)
  rw [wp_bind]
  refine wp_mono (check_spec now) fun log ok s₁ hcheck => ?_
  cases ok with
  | false =>
      rw [if_neg Bool.false_ne_true, wp_pure]
      rcases hcheck.2.2.2 rfl with hfault | ⟨-, hended⟩
      · exact .inr ⟨hpermitted, hfault.full⟩
      · rw [hready] at hended
        rcases hended with hended | hended <;> cases hended
  | true =>
      rw [if_pos rfl]
      refine wp_guarded ?_
      rw [wp_modify_bind, wp_ask_bind]
      intro paused
      unfold clean
      rw [wp_bind, wp_get_bind, wp_pure, wp_ite]
      refine ⟨fun _ => ?_, fun _ => wp_fail _ (.inr ⟨hpermitted, rfl⟩)⟩
      unfold acquire
      rw [wp_modify_bind, wp_get_bind, wp_ask_bind]
      intro leased
      unfold clean
      rw [wp_bind, wp_get_bind, wp_pure, wp_ite]
      refine ⟨fun _ => ?_, fun _ => wp_fail _ (.inr ⟨hpermitted, rfl⟩)⟩
      unfold enter
      rw [wp_modify_bind, wp_pure]
      exact .inr ⟨hpermitted, rfl⟩

/-! ## Every run -/

def Sequence.Ended (s : Sequence) : Prop := s.result.stage = .fault ∨ s.result.stage = .stopped

/-- An action was launched by this call, though its first lease may have been refused. -/
def Launches (x : Record) : Prop := (∃ a now, x.op = .launch a now) ∧ x.log ≠ []

/-- The calibration was completed by this call. -/
def Calibrates (x : Record) : Prop :=
  .closed .tune true ∈ marks x.log ∨ .closed .scanEnd true ∈ marks x.log

theorem run_sane {h : List Record} {s : Sequence} (hrun : Run h s) : Sane s :=
  hrun.invariant (P := fun _ s => Sane s) sane_new fun _ hs hout =>
    (wp_outcome (exec_went hs _) hout).1

theorem run_accounted {h : List Record} {s : Sequence} (hrun : Run h s) :
    Accounted (marks (eventsOf h)) s.control := by
  refine hrun.invariant (P := fun h (s : Sequence) => Accounted (marks (eventsOf h)) s.control) ?_ ?_
  · exact accounted_new
  · intro h s s' op log r hrun haccounted hout
    have hwent := wp_outcome (exec_went (run_sane hrun) op) hout
    have hmarks : marks (eventsOf (⟨s, op, log, r, s'⟩ :: h)) = marks (eventsOf h) ++ marks log :=
      marks_append _ _
    rw [hmarks]
    exact haccounted.moves hwent.2

theorem run_moves {h : List Record} {s : Sequence} {x : Record} (hrun : Run h s) (hx : x ∈ h) :
    Sane x.before ∧ Moves x.before.control (marks x.log) x.after.control ∧
      ∃ ms, Accounted ms x.before.control := by
  rcases List.append_of_mem hx with ⟨later, earlier, rfl⟩
  rcases (Run.drop hrun).tail with ⟨hbefore, -, hout⟩
  have hsane := run_sane hbefore
  exact ⟨hsane, (wp_outcome (exec_went hsane x.op) hout).2, _, run_accounted hbefore⟩

/-- Nothing is marked once the sequence has ended, and it stays so. -/
theorem Moves.ended {new : List Mark} (h : Moves c new c') (hended : c.stage = .fault ∨ c.stage = .stopped) :
    new = [] ∧ (c'.stage = .fault ∨ c'.stage = .stopped) := by
  have hno : ∀ stage : Stage, c.stage = stage → stage ≠ .fault → stage ≠ .stopped → False := by
    intro stage hstage hfault hstopped
    rw [hstage] at hended
    exact hended.elim hfault hstopped
  cases h with
  | stays => exact ⟨rfl, hended⟩
  | begins hstage | uploads hstage | first hstage | acquires hstage | runs hstage | next hstage _
  | closes hstage _ | launches _ hstage _ _ => exact (hno _ hstage nofun nofun).elim
  | fails hnew hstage _ _ _ =>
      refine ⟨?_, .inl hstage⟩
      cases hnew with
      | nothing => rfl
      | first hbefore | ran hbefore | returned hbefore | next hbefore _ | closing hbefore _
      | launched _ hbefore _ _ => exact (hno _ hbefore nofun nofun).elim
  | stops => exact ⟨rfl, .inr rfl⟩

theorem run_ended {later earlier : List Record} {x : Record} {s : Sequence}
    (hrun : Run (later ++ x :: earlier) s) (hx : x.after.Ended) : ∀ y ∈ later, marks y.log = [] := by
  induction later generalizing s with
  | nil => exact fun y hy => absurd hy List.not_mem_nil
  | cons z later ih =>
      intro y hy
      rcases hrun.tail with ⟨hbefore, -, hout⟩
      have hstable := Run.stable_while (P := fun s => Sane s ∧ s.Ended) (q := fun _ => True)
        (fun w _ hw hwout => by
          have hwent := wp_outcome (exec_went hw.1 w.op) hwout
          exact ⟨hwent.1, (hwent.2.ended hw.2).2⟩)
        later ⟨run_sane (Run.drop hbefore), hx⟩ (fun _ _ => trivial) hbefore
      rcases List.mem_cons.1 hy with rfl | hy
      · have hwent := wp_outcome (exec_went hstable.1.1 y.op) hout
        exact (hwent.2.ended hstable.1.2).1
      · exact ih hbefore y hy

/-- A scan is opened and closed by its own operations only. -/
theorem Moves.scanning {new : List Mark} (h : Moves c new c') :
    c'.scanning = c.scanning ∨ c'.scanning = true ∧ .closed .scanBegin true ∈ new ∨
      c'.scanning = false ∧ .closed .scanEnd true ∈ new := by
  cases h with
  | stays | begins _ | uploads _ | first _ | acquires _ | runs _ | next _ _ | launches _ _ _ _ | stops =>
      exact .inl rfl
  | fails _ _ _ hscanning _ => exact .inl hscanning
  | closes hstage hlast =>
      cases haction : c.action with
      | initialization | tune | scanTune => exact .inl (by unfold Control.closed; rw [haction]; rfl)
      | scanBegin => exact .inr (.inl ⟨by unfold Control.closed; rw [haction]; rfl, by simp⟩)
      | scanEnd => exact .inr (.inr ⟨by unfold Control.closed; rw [haction]; rfl, by simp⟩)

/-- The lease for a scan is only ever requested with a complete calibration. -/
theorem Moves.scanBegin {ms : List Mark} {new : List Mark} {ok : Bool} (h : Moves c new c') (hc : Accounted ms c)
    (hnew : .leased .scanBegin ok ∈ new) : c.fullCalibration = true ∧ c.scanning = false := by
  have hlaunched : ∀ a : Action, a.stepAt 0 = .scanBegin → c.refuses a = false →
      c.fullCalibration = true ∧ c.scanning = false := by
    intro a ha hrefuses
    cases a with
    | initialization | tune | scanTune | scanEnd => exact absurd ha (by decide)
    | scanBegin => simpa [Control.refuses] using hrefuses
  -- Before the first operation the action is the initialization.
  have hfirst : c.stage = .btInitialization → c.action.stepAt 0 ≠ .scanBegin := by
    intro hstage
    rcases hc.marks with ⟨rest, -, hat⟩
    unfold Control.At at hat
    rw [hstage] at hat
    rw [hat.2.2]
    decide
  have hnext : ∀ (a : Action) (i : ℕ), i + 1 < a.count → a.stepAt (i + 1) ≠ .scanBegin := by
    intro a i hi
    have hfinite : ∀ j < a.count, 0 < j → a.stepAt j ≠ .scanBegin := by cases a <;> decide
    exact hfinite (i + 1) hi (Nat.succ_pos i)
  cases h with
  | stays | begins _ | uploads _ | stops => exact absurd hnew List.not_mem_nil
  | first hstage =>
      have hstep : Step.scanBegin = c.action.stepAt 0 ∧ ok = true := by simpa using hnew
      exact absurd hstep.1.symm (hfirst hstage)
  | acquires hstage => exact absurd hnew (by simp)
  | runs hstage => exact absurd hnew (by simp)
  | next hstage hmore =>
      have hstep : Step.scanBegin = c.action.stepAt (c.index + 1) ∧ ok = true := by simpa using hnew
      exact absurd hstep.1.symm (hnext _ _ hmore)
  | closes hstage hlast => exact absurd hnew (by simp)
  | launches a hstage hready hallowed =>
      have hstep : Step.scanBegin = a.stepAt 0 ∧ ok = true := by simpa using hnew
      exact hlaunched a hstep.1.symm hallowed
  | fails hfailing hstage hfull hscanning hready =>
      cases hfailing with
      | nothing => exact absurd hnew List.not_mem_nil
      | first hstage =>
          have hstep : Step.scanBegin = c.action.stepAt 0 ∧ ok = false := by simpa using hnew
          exact absurd hstep.1.symm (hfirst hstage)
      | ran _ => exact absurd hnew (by simp)
      | returned _ => exact absurd hnew (by simp)
      | next _ hmore =>
          have hstep : Step.scanBegin = c.action.stepAt (c.index + 1) ∧ ok = false := by simpa using hnew
          exact absurd hstep.1.symm (hnext _ _ hmore)
      | closing _ _ => exact absurd hnew (by simp)
      | launched a _ _ hallowed =>
          have hstep : Step.scanBegin = a.stepAt 0 ∧ ok = false := by simpa using hnew
          exact hlaunched a hstep.1.symm hallowed

/-- A calibration that is complete was complete before, or is completed by this call. -/
theorem Moves.calibrated {new : List Mark} (h : Moves c new c') (hfull : c'.fullCalibration = true) :
    c.fullCalibration = true ∨ .closed .tune true ∈ new ∨ .closed .scanEnd true ∈ new := by
  cases h with
  | stays | begins _ | uploads _ | first _ | acquires _ | runs _ | next _ _ => exact .inl hfull
  | launches a hstage hready hallowed => exact absurd hfull Bool.false_ne_true
  | stops => exact absurd hfull Bool.false_ne_true
  | fails hnew hstage hno hscanning hready =>
      rw [hno] at hfull
      exact absurd hfull Bool.false_ne_true
  | closes hstage hlast =>
      have hactions : c.action = .tune ∨ c.action = .scanEnd := by simpa [Control.closed] using hfull
      rcases hactions with haction | haction
      · exact .inr (.inl (by simp [haction]))
      · exact .inr (.inr (by simp [haction]))

/-- Nothing was launched since the calibration was completed. -/
theorem run_calibrated {h : List Record} {s : Sequence} (hrun : Run h s)
    (hfull : s.result.fullCalibration = true) :
    Since (fun y => ¬ Launches y) (fun x _ => Calibrates x) h := by
  revert hfull
  refine hrun.invariant (P := fun h s => s.result.fullCalibration = true →
    Since (fun y => ¬ Launches y) (fun x _ => Calibrates x) h) (fun hfull => absurd hfull Bool.false_ne_true) ?_
  intro h s s' op log r hrun hbefore hout hfull
  have hmoves := (wp_outcome (exec_went (run_sane hrun) op) hout).2
  rcases hmoves.calibrated hfull with hold | hclosed
  · refine Since.cons ?_ (hbefore hold)
    rintro ⟨⟨a, now, hop⟩, hlog⟩
    have hop' : op = .launch a now := hop
    subst hop'
    rcases wp_outcome (launch_spec s a now) hout with hempty | ⟨-, hnone⟩
    · exact hlog hempty
    · rw [hfull] at hnone
      exact absurd hnone nofun
  · exact Since.here hclosed

/-- A run of the sequence, read from what it asked. -/
structure Sequenced (h : List Record) (s : Sequence) : Prop where
  /-- Each operation was allowed where it stands: the initialization is the first one and only that. -/
  legal : Legal (completed (marks (eventsOf h)))
  /-- The steps of each operation were taken one after the other, and only then was it closed. -/
  steps : ∃ rest, marks (eventsOf h) = (completed (marks (eventsOf h))).flatMap Action.transcript ++ rest ∧
    (rest = [] ∨ ∃ a, Allowed (completed (marks (eventsOf h))) a ∧ Begun a rest) ∧
    (s.result.fullCalibration = true → rest = [])
  full : s.result.fullCalibration = true → s.result.stage = .ready ∧
    ((completed (marks (eventsOf h))).getLast? = some .tune ∨
      (completed (marks (eventsOf h))).getLast? = some .scanEnd) ∧
    Since (fun y => ¬ Launches y) (fun x _ => Calibrates x) h
  scanning : s.result.scanning = scanningAfter (completed (marks (eventsOf h)))
  changes : ∀ x ∈ h, x.after.result.scanning = x.before.result.scanning ∨
    x.after.result.scanning = true ∧ .closed .scanBegin true ∈ marks x.log ∨
    x.after.result.scanning = false ∧ .closed .scanEnd true ∈ marks x.log
  opened : ∀ x ∈ h, ∀ ok, .leased .scanBegin ok ∈ marks x.log →
    x.before.result.fullCalibration = true ∧ x.before.result.scanning = false
  launched : ∀ x ∈ h, ∀ a now, x.op = .launch a now → x.log ≠ [] → Permitted x.before.result a
  ended : ∀ later x earlier, h = later ++ x :: earlier → x.after.Ended → ∀ y ∈ later, marks y.log = []

/-- In every run, whatever the backend replies, each operation takes its own steps in their order, each of
them once and only after the one before it was restored; a complete calibration is one of the last operation,
with nothing launched since; and nothing more is asked for once the sequence has ended. -/
theorem boot_sequencing {h : List Record} {s : Sequence} (hrun : Run h s) : Sequenced h s := by
  have haccounted := run_accounted hrun
  rcases haccounted.marks with ⟨rest, hms, hat⟩
  refine ⟨haccounted.told.legal, ⟨rest, hms, hat.ends, fun hfull => ?_⟩, fun hfull => ?_,
    haccounted.told.scanning, ?_, ?_, ?_, ?_⟩
  · have hstage := (haccounted.told.full hfull).1
    unfold Control.At at hat
    rw [hstage] at hat
    exact hat
  · rcases haccounted.told.full hfull with ⟨hstage, hlast⟩
    exact ⟨hstage, hlast, run_calibrated hrun hfull⟩
  · intro x hx
    exact (run_moves hrun hx).2.1.scanning
  · intro x hx ok hleased
    rcases run_moves hrun hx with ⟨-, hmoves, ms, hms⟩
    exact hmoves.scanBegin hms hleased
  · intro x hx a now hop hlog
    have hout := hrun.outcome hx
    rw [hop] at hout
    rcases wp_outcome (launch_spec x.before a now) hout with hempty | ⟨hpermitted, -⟩
    · exact absurd hempty hlog
    · exact hpermitted
  · intro later x earlier heq hx
    subst heq
    exact run_ended hrun hx

/-- A backend that grants everything at once. -/
def granting (call : Call) (_ : Unit) : Reply call × Unit :=
  match call with
  | .inGate | .healthy | .pause | .prepare | .startBt | .requestLease _ | .run _ | .finishLease
  | .finishOperation _ => (true, ())
  | .upload | .pollBt | .pollLease | .pollRestore => (.complete, ())
  | .failed => ((), ())

def bootAndTune : List Op :=
  .begin 1 :: List.replicate 11 (.service 2) ++ .launch .tune 3 :: List.replicate 15 (.service 4)

theorem boot_sequencing_tuned :
    (replay exec granting bootAndTune {} ()).2.1.result.fullCalibration = true ∧
      completed (marks (eventsOf (replay exec granting bootAndTune {} ()).1)) = [.initialization, .tune] ∧
      Sequenced (replay exec granting bootAndTune {} ()).1 (replay exec granting bootAndTune {} ()).2.1 :=
  ⟨by decide +kernel, by decide +kernel, boot_sequencing (replay_run exec granting bootAndTune {} ())⟩

end RadioBoot
end Rtl8852be
