import Rtl8852be.RadioBoot.RadioBootSequence

/-!
# Operations — the steps of an operation, in order

What the backend is asked is read as a list of marks.  The marks of a completed operation are those of its
steps, one step after the other, and then that it was closed.

* `Control` — the part of the sequence that decides what comes next;
* `Moves` — what one call can do to it;
* `Accounted` — the marks of a run are completed operations, and the beginning of one more.
-/

namespace Rtl8852be
namespace RadioBoot

open Interaction

/-! ## Marks -/

/-- What was asked for a step or an operation, and whether it was granted. -/
inductive Mark
  | leased (step : Step) (ok : Bool)
  | acquired
  | ran (step : Step) (ok : Bool)
  | returned (ok : Bool)
  | restored
  | closed (action : Action) (ok : Bool)
  deriving DecidableEq

def mark : Event Call Reply Empty → Option Mark
  | .call (.requestLease step) ok => some (.leased step ok)
  | .call .pollLease p => if p = Progress.complete then some .acquired else none
  | .call (.run step) ok => some (.ran step ok)
  | .call .finishLease ok => some (.returned ok)
  | .call .pollRestore p => if p = Progress.complete then some .restored else none
  | .call (.finishOperation action) ok => some (.closed action ok)
  | _ => none

def marks (t : Trace) : List Mark := t.filterMap mark

theorem marks_append (t t' : Trace) : marks (t ++ t') = marks t ++ marks t' := List.filterMap_append

def Action.steps : Action → List Step
  | .initialization => [.rck, .dack, .initialRxDc]
  | .tune => [.channel, .rxDc, .iqk, .tssi, .dpk]
  | .scanBegin => [.scanBegin]
  | .scanTune => [.channel, .scanTune]
  | .scanEnd => [.scanEnd]

/-- A step from its lease to its restoration: the calibration is run once, between them. -/
def Step.transcript (s : Step) : List Mark :=
  [.leased s true, .acquired, .ran s true, .returned true, .restored]

def Action.work (a : Action) : List Mark := a.steps.flatMap Step.transcript

def Action.transcript (a : Action) : List Mark := a.work ++ [.closed a true]

/-- The operations that were completed, first one first. -/
def completed (ms : List Mark) : List Action :=
  ms.filterMap fun m =>
    match m with
    | .closed a true => some a
    | _ => none

/-! ## What comes next -/

structure Control where
  stage : Stage := .idle
  action : Action := .initialization
  index : ℕ := 0
  step : Step := .rck
  scanning : Bool := false
  fullCalibration : Bool := false
  initialized : Bool := false
  deriving DecidableEq

def Sequence.control (s : Sequence) : Control where
  stage := s.result.stage
  action := s.action
  index := s.index
  step := s.result.step
  scanning := s.result.scanning
  fullCalibration := s.result.fullCalibration
  initialized := s.result.initialized

/-- The step that is requested for index `i` of an action. -/
def Action.stepAt (a : Action) (i : ℕ) : Step :=
  match a with
  | .initialization => Step.ofIndex i
  | .tune => Step.ofIndex (3 + i)
  | .scanTune => if i ≠ 0 then .scanTune else .channel
  | .scanBegin => .scanBegin
  | .scanEnd => .scanEnd

def Control.leasing (c : Control) (a : Action) (i : ℕ) : Control :=
  { c with stage := .acquire, action := a, index := i, step := a.stepAt i }

def Control.closed (c : Control) : Control :=
  { c with
    stage := .ready
    index := c.index + 1
    initialized := true
    fullCalibration := c.action = .tune ∨ c.action = .scanEnd
    scanning := if c.action = .scanBegin then true else if c.action = .scanEnd then false else c.scanning }

def Control.refuses (c : Control) (a : Action) : Bool :=
  a == .initialization || a == .tune && c.scanning ||
    a == .scanBegin && (!c.fullCalibration || c.scanning) ||
      (a == .scanTune || a == .scanEnd) && !c.scanning

/-- What was marked before the backend failed. -/
inductive Failing (c : Control) : List Mark → Prop
  | nothing : Failing c []
  | first (hstage : c.stage = .btInitialization) : Failing c [.leased (c.action.stepAt 0) false]
  | ran (hstage : c.stage = .run) : Failing c [.ran c.step false]
  | returned (hstage : c.stage = .run) : Failing c [.ran c.step true, .returned false]
  | next (hstage : c.stage = .restore) (hmore : c.index + 1 < c.action.count) :
      Failing c [.restored, .leased (c.action.stepAt (c.index + 1)) false]
  | closing (hstage : c.stage = .restore) (hlast : c.action.count ≤ c.index + 1) :
      Failing c [.restored, .closed c.action false]
  | launched (a : Action) (hstage : c.stage = .ready) (hready : c.initialized = true)
      (hallowed : c.refuses a = false) : Failing c [.leased (a.stepAt 0) false]

/-- The marks that one call adds, and what it leaves. -/
inductive Moves (c : Control) : List Mark → Control → Prop
  | stays : Moves c [] c
  | begins (hstage : c.stage = .idle) : Moves c [] { c with stage := .upload }
  | uploads (hstage : c.stage = .upload) : Moves c [] { c with stage := .btInitialization }
  | first (hstage : c.stage = .btInitialization) :
      Moves c [.leased (c.action.stepAt 0) true] (c.leasing c.action 0)
  | acquires (hstage : c.stage = .acquire) : Moves c [.acquired] { c with stage := .run }
  | runs (hstage : c.stage = .run) : Moves c [.ran c.step true, .returned true] { c with stage := .restore }
  | next (hstage : c.stage = .restore) (hmore : c.index + 1 < c.action.count) :
      Moves c [.restored, .leased (c.action.stepAt (c.index + 1)) true] (c.leasing c.action (c.index + 1))
  | closes (hstage : c.stage = .restore) (hlast : c.action.count ≤ c.index + 1) :
      Moves c [.restored, .closed c.action true] c.closed
  | launches (a : Action) (hstage : c.stage = .ready) (hready : c.initialized = true)
      (hallowed : c.refuses a = false) :
      Moves c [.leased (a.stepAt 0) true] ({ c with fullCalibration := false }.leasing a 0)
  | fails {ms : List Mark} {c' : Control} (hms : Failing c ms) (hstage : c'.stage = .fault)
      (hfull : c'.fullCalibration = false) (hscanning : c'.scanning = c.scanning)
      (hready : c'.initialized = c.initialized) : Moves c ms c'
  | stops : Moves c [] { c with stage := .stopped, fullCalibration := false }

/-! ## What a call does -/

/-- No guard is left behind, and an error is one of a sequence that has ended. -/
structure Sane (s : Sequence) : Prop where
  active : s.active = false
  error : s.result.error ≠ .none → s.result.stage = .fault ∨ s.result.stage = .stopped

theorem sane_new : Sane {} := ⟨rfl, fun h => absurd rfl h⟩

section Calls

variable {s : Sequence} {now : UInt64}

theorem next_eq (s : Sequence) : s.next = s.action.stepAt s.index := by
  unfold Sequence.next Action.stepAt
  cases s.action <;> rfl

theorem refuses_eq (s : Sequence) (a : Action) : s.result.refuses a = s.control.refuses a := rfl

/-- Nothing but the times and the guard differ. -/
structure Same (s s' : Sequence) : Prop where
  control : s'.control = s.control
  error : s'.result.error = s.result.error

/-- A failure leaves a fault behind, whatever went before. -/
structure Faulted (s s' : Sequence) : Prop where
  stage : s'.result.stage = .fault
  full : s'.result.fullCalibration = false
  scanning : s'.result.scanning = s.result.scanning
  initialized : s'.result.initialized = s.result.initialized

theorem Faulted.moves {s' : Sequence} {ms : List Mark} (h : Faulted s s') (hms : Failing s.control ms) :
    Moves s.control ms s'.control :=
  .fails hms h.stage h.full h.scanning h.initialized

variable {Q : Trace → Bool → Sequence → Prop}

theorem wp_fail (e : Error) (h : Q [.call .failed ()] false (s.failing e)) : (fail e).wp Q s := by
  unfold fail
  rw [wp_modify_bind, wp_ask_bind]
  intro r
  rw [wp_pure]
  exact h

theorem check_spec (now : UInt64) :
    (check now).wp (fun log ok s' => marks log = [] ∧ s'.active = s.active ∧
      (ok = true → Same s s' ∧ s.result.stage ≠ .fault ∧ s.result.stage ≠ .stopped) ∧
      (ok = false → Faulted s s' ∨
        Same s s' ∧ (s.result.stage = .fault ∨ s.result.stage = .stopped))) s := by
  have hfailed : ∀ (e : Error) (s₁ : Sequence), Same s s₁ → Faulted s (s₁.failing e) := by
    intro e s₁ hsame
    have hcontrol := hsame.control
    exact ⟨rfl, rfl, congrArg Control.scanning hcontrol, congrArg Control.initialized hcontrol⟩
  have hticked : Same s { s with last := now } := ⟨rfl, rfl⟩
  unfold check
  rw [wp_get_bind, wp_ask_bind]
  intro gated
  cases gated with
  | false => exact wp_fail _ ⟨rfl, rfl, nofun, fun _ => .inl (hfailed _ _ ⟨rfl, rfl⟩)⟩
  | true =>
      simp only [if_true]
      by_cases hclock : now < s.last
      · rw [if_pos hclock]
        exact wp_fail _ ⟨rfl, rfl, nofun, fun _ => .inl (hfailed _ _ ⟨rfl, rfl⟩)⟩
      rw [if_neg hclock, wp_modify_bind]
      by_cases hended : s.result.stage = .fault ∨ s.result.stage = .stopped
      · rw [if_pos hended, wp_pure]
        exact ⟨rfl, rfl, nofun, fun _ => .inr ⟨hticked, hended⟩⟩
      rw [if_neg hended]
      by_cases hlate : s.busy ∧ s.action.limitUs ≤ now - s.started
      · rw [if_pos hlate]
        exact wp_fail _ ⟨rfl, rfl, nofun, fun _ => .inl (hfailed _ _ hticked)⟩
      rw [if_neg hlate, wp_ask_bind]
      intro healthy
      cases healthy with
      | false => exact wp_fail _ ⟨rfl, rfl, nofun, fun _ => .inl (hfailed _ _ hticked)⟩
      | true =>
          rw [if_pos rfl, wp_pure]
          exact ⟨rfl, rfl, fun _ => ⟨hticked, not_or.1 hended⟩, nofun⟩

/-- What a call may leave. -/
structure Goes (s : Sequence) (log : Trace) (s' : Sequence) : Prop where
  moves : Moves s.control (marks log) s'.control
  error : s'.result.error ≠ .none → s'.result.stage = .fault ∨ s'.result.stage = .stopped

theorem Faulted.goes {s' : Sequence} {log : Trace} (h : Faulted s s') (hms : Failing s.control (marks log)) :
    Goes s log s' :=
  ⟨h.moves hms, fun _ => .inl h.stage⟩

theorem faulted_failing (e : Error) (s₁ : Sequence) (hcontrol : s₁.result.scanning = s.result.scanning)
    (hready : s₁.result.initialized = s.result.initialized) : Faulted s (s₁.failing e) :=
  ⟨rfl, rfl, hcontrol, hready⟩

theorem wp_clean_bind {ok : Bool} {f : Bool → Gated Bool} (herror : s.result.error = .none) (h : (f ok).wp Q s) :
    (clean ok >>= f).wp Q s := by
  unfold clean
  rw [wp_bind, wp_get_bind, wp_pure, herror, beq_self_eq_true, Bool.and_true]
  exact h

theorem acquire_spec (herror : s.result.error = .none) :
    acquire.wp (fun log ok s' =>
      (ok = true → marks log = [.leased (s.action.stepAt s.index) true] ∧
        s'.control = s.control.leasing s.action s.index ∧ s'.result.error = .none) ∧
      (ok = false → marks log = [.leased (s.action.stepAt s.index) false] ∧ Faulted s s')) s := by
  unfold acquire
  rw [wp_modify_bind, wp_get_bind, wp_ask_bind, next_eq]
  intro leased
  refine wp_clean_bind (s := { s with result := { s.result with step := s.action.stepAt s.index } }) herror ?_
  cases leased with
  | true =>
      rw [if_pos rfl]
      unfold enter
      rw [wp_modify_bind, wp_pure]
      exact ⟨fun _ => ⟨rfl, rfl, herror⟩, nofun⟩
  | false =>
      rw [if_neg Bool.false_ne_true]
      exact wp_fail _ ⟨nofun, fun _ => ⟨rfl, faulted_failing _ _ rfl rfl⟩⟩

theorem wp_settle (herror : s.result.error = .none) (h : Q [] true s) : settle.wp Q s := by
  unfold settle
  rw [wp_get_bind, if_neg (not_not.2 herror), wp_pure]
  exact h

theorem wp_enter_settle {stage : Stage} (herror : s.result.error = .none) (h : Q [] true (s.inStage stage)) :
    (do let _ ← enter stage; settle).wp Q s := by
  unfold enter
  rw [wp_bind, wp_modify_bind, wp_pure]
  exact wp_settle herror h

/-- A poll that leaves the stage, fails, or changes nothing. -/
theorem wp_poll {p : Progress} {done : Gated Bool} (herror : s.result.error = .none)
    (hpending : p = .pending → Q [] true s) (hfailed : p = .failed → Q [.call .failed ()] false (s.failing .backend))
    (hcomplete : p = .complete → done.wp Q s) :
    (match p with
      | .failed => fail .backend
      | .pending => settle
      | .complete => done).wp Q s := by
  cases p with
  | pending => exact wp_settle herror (hpending rfl)
  | failed => exact wp_fail _ (hfailed rfl)
  | complete => exact hcomplete rfl

/-- The state machine of `service`, one stage after the other. -/
theorem advance_spec (hs : s.result.stage ≠ .fault ∧ s.result.stage ≠ .stopped)
    (herror : s.result.error = .none) :
    (advance s.result.stage).wp (fun log _ s' => Goes s log s') s := by
  have hquiet : ∀ {log : Trace}, marks log = [] → Goes s log s := by
    intro log hlog
    refine ⟨?_, fun h => absurd herror h⟩
    rw [hlog]
    exact .stays
  have hbroken : ∀ {log : Trace} (e : Error), marks log = [] → Goes s log (s.failing e) := by
    intro log e hlog
    refine (faulted_failing e s rfl rfl).goes ?_
    rw [hlog]
    exact .nothing
  cases hstage : s.result.stage with
  | idle | ready => exact wp_settle herror (hquiet rfl)
  | fault => exact absurd hstage hs.1
  | stopped => exact absurd hstage hs.2
  | upload =>
      rw [advance, wp_ask_bind]
      intro p
      refine wp_poll herror (fun _ => hquiet rfl) (fun _ => hbroken _ rfl) fun _ => ?_
      rw [wp_ask_bind]
      intro started
      cases started with
      | true => exact wp_enter_settle herror ⟨.uploads hstage, fun h => absurd herror h⟩
      | false => exact wp_fail _ (hbroken _ rfl)
  | btInitialization =>
      rw [advance, wp_ask_bind]
      intro p
      refine wp_poll herror (fun _ => hquiet rfl) (fun _ => hbroken _ rfl) fun _ => ?_
      rw [wp_modify_bind, Code.wp_both]
      refine wp_mono (acquire_spec herror) fun log ok s' hs' => ⟨fun hok => ?_, fun hok => ?_⟩
      · rcases hs'.1 hok with ⟨hlog, hcontrol, herror'⟩
        refine wp_settle herror' ⟨?_, fun h => absurd herror' h⟩
        have hmarks : marks (.call .pollBt p :: (log ++ [])) = [.leased (s.action.stepAt 0) true] := by
          rw [List.append_nil]
          exact hlog
        rw [hmarks, hcontrol]
        exact .first hstage
      · rcases hs'.2 hok with ⟨hlog, hfault⟩
        refine ⟨.fails ?_ hfault.stage hfault.full hfault.scanning hfault.initialized, fun _ => .inl hfault.stage⟩
        have hmarks : marks (.call .pollBt p :: log) = [.leased (s.action.stepAt 0) false] := hlog
        rw [hmarks]
        exact .first hstage
  | acquire =>
      rw [advance, wp_ask_bind]
      intro p
      have hpoll : p ≠ .complete → marks [.call .pollLease p] = [] := by
        intro hp
        cases p with
        | complete => exact absurd rfl hp
        | pending | failed => rfl
      refine wp_poll herror (fun hp => hquiet (hpoll (by rw [hp]; exact nofun)))
        (fun hp => hbroken _ (by rw [hp]; rfl)) fun hp => ?_
      subst hp
      exact wp_enter_settle herror ⟨.acquires hstage, fun h => absurd herror h⟩
  | run =>
      rw [advance, wp_get_bind, wp_bind, Code.wp_both, wp_ask]
      intro ran
      refine ⟨fun hran => ?_, fun hran => ?_⟩
      · subst hran
        rw [wp_ask]
        intro returned
        cases returned with
        | true => exact wp_enter_settle herror ⟨.runs hstage, fun h => absurd herror h⟩
        | false => exact wp_fail _ ((faulted_failing _ _ rfl rfl).goes (.returned hstage))
      · subst hran
        exact wp_fail _ ((faulted_failing _ _ rfl rfl).goes (.ran hstage))
  | restore =>
      rw [advance, wp_ask_bind]
      intro p
      have hpoll : p ≠ .complete → marks [.call .pollRestore p] = [] := by
        intro hp
        cases p with
        | complete => exact absurd rfl hp
        | pending | failed => rfl
      refine wp_poll herror (fun hp => hquiet (hpoll (by rw [hp]; exact nofun)))
        (fun hp => hbroken _ (by rw [hp]; rfl)) fun hp => ?_
      subst hp
      rw [wp_modify_bind, wp_get_bind]
      by_cases hmore : s.index + 1 < s.action.count
      · rw [if_pos hmore, Code.wp_both]
        refine wp_mono (acquire_spec herror) fun log ok s' hs' => ⟨fun hok => ?_, fun hok => ?_⟩
        · rcases hs'.1 hok with ⟨hlog, hcontrol, herror'⟩
          refine wp_settle herror' ⟨?_, fun h => absurd herror' h⟩
          have hmarks : marks (.call .pollRestore .complete :: (log ++ [])) =
              [.restored, .leased (s.action.stepAt (s.index + 1)) true] := by
            rw [List.append_nil]
            exact congrArg (Mark.restored :: ·) hlog
          rw [hmarks, hcontrol]
          exact .next hstage hmore
        · rcases hs'.2 hok with ⟨hlog, hfault⟩
          refine ⟨.fails ?_ hfault.stage hfault.full hfault.scanning hfault.initialized,
            fun _ => .inl hfault.stage⟩
          have hmarks : marks (.call .pollRestore .complete :: log) =
              [.restored, .leased (s.action.stepAt (s.index + 1)) false] := congrArg (Mark.restored :: ·) hlog
          rw [hmarks]
          exact .next hstage hmore
      · rw [if_neg hmore, wp_ask_bind]
        intro closed
        cases closed with
        | true =>
            rw [if_pos rfl, wp_modify_bind]
            exact wp_settle herror ⟨.closes hstage (Nat.not_lt.1 hmore), fun h => absurd herror h⟩
        | false =>
            rw [if_neg Bool.false_ne_true]
            have hfault : Faulted s ({ s with index := s.index + 1 }.failing .backend) :=
              faulted_failing _ _ rfl rfl
            exact wp_fail _ (hfault.goes (.closing hstage (Nat.not_lt.1 hmore)))

/-! ## Every call -/

theorem wp_guarded {body : Gated Bool}
    (h : body.wp (fun log ok s' => Q log ok { s' with active := false }) { s with active := true }) :
    (guarded body).wp Q s := by
  unfold guarded
  rw [wp_modify_bind, wp_bind]
  refine wp_mono h fun log ok s' hq => ?_
  rw [wp_modify_bind, wp_pure, List.append_nil]
  exact hq

def Went (s : Sequence) (log : Trace) (s' : Sequence) : Prop :=
  Sane s' ∧ Moves s.control (marks log) s'.control

theorem Goes.went {s₁ s₂ s' : Sequence} {log log' : Trace} (h : Goes s₁ log s₂)
    (hlog' : marks log' = marks log) (hcontrol : s₁.control = s.control) (hafter : s'.control = s₂.control)
    (herror : s'.result = s₂.result) (hactive : s'.active = false) : Went s log' s' := by
  refine ⟨⟨hactive, ?_⟩, ?_⟩
  · rw [herror]
    exact h.error
  · rw [hlog', hafter, ← hcontrol]
    exact h.moves

theorem went_stays (hs : Sane s) {log : Trace} (hlog : marks log = []) : Went s log s := by
  refine ⟨hs, ?_⟩
  rw [hlog]
  exact .stays

theorem wp_checked {body : Gated Bool} (hs : Sane s)
    (h : ∀ s₁, Same s s₁ → s.result.stage ≠ .fault ∧ s.result.stage ≠ .stopped → s₁.result.error = .none →
      body.wp (fun log _ s' => Goes s log s') { s₁ with active := true }) :
    (do
      if ← check now then
        guarded body
      else
        return false).wp (fun log _ s' => Went s log s') s := by
  rw [wp_bind]
  refine wp_mono (check_spec now) fun log ok s₁ hcheck => ?_
  rcases hcheck with ⟨hlog, hactive, hok, hno⟩
  cases ok with
  | true =>
      rcases hok rfl with ⟨hsame, hstage⟩
      have herror : s₁.result.error = .none := by
        rw [hsame.error]
        by_contra hne
        rcases hs.error hne with hfault | hstopped
        · exact hstage.1 hfault
        · exact hstage.2 hstopped
      rw [if_pos rfl]
      refine wp_guarded (wp_mono (h s₁ hsame hstage herror) fun log' ok' s' hgoes => ?_)
      refine hgoes.went ?_ rfl rfl rfl rfl
      rw [marks_append, hlog, List.nil_append]
  | false =>
      rw [if_neg Bool.false_ne_true, wp_pure, List.append_nil]
      rcases hno rfl with hfault | ⟨hsame, hended⟩
      · have hgoes : Goes s log s₁ := hfault.goes (by rw [hlog]; exact .nothing)
        exact hgoes.went rfl rfl rfl rfl (hactive.trans hs.active)
      · refine ⟨⟨hactive.trans hs.active, ?_⟩, ?_⟩
        · intro _
          have hstage : s₁.result.stage = s.result.stage := congrArg Control.stage hsame.control
          rw [hstage]
          exact hended
        · rw [hlog, hsame.control]
          exact .stays

theorem begin_went (hs : Sane s) : (begin now).wp (fun log _ s' => Went s log s') s := by
  unfold begin
  rw [wp_get_bind]
  by_cases hno : s.result.stage ≠ .idle ∨ s.active
  · rw [if_pos hno, wp_pure]
    exact went_stays hs rfl
  rw [if_neg hno]
  have hidle : s.result.stage = .idle := not_not.1 (not_or.1 hno).1
  refine wp_checked hs fun s₁ hsame hstage herror => ?_
  have hscanning : s₁.result.scanning = s.result.scanning := congrArg Control.scanning hsame.control
  have hinitialized : s₁.result.initialized = s.result.initialized :=
    congrArg Control.initialized hsame.control
  rw [wp_modify_bind]
  generalize hs₂ : ({ s₁ with active := true, started := now } : Sequence) = s₂
  have hcontrol : s₂.control = s.control := by
    rw [← hs₂, ← hsame.control]
    rfl
  have herror₂ : s₂.result.error = .none := by
    rw [← hs₂]
    exact herror
  have hend : ∀ (ok : Bool) (log : Trace), marks log = [] →
      (do if ← clean ok then enter .upload else fail .backend).wp
        (fun log' _ s' => Goes s (log ++ log') s') s₂ := by
    intro ok log hlog
    apply wp_clean_bind herror₂
    cases ok with
    | true =>
        rw [if_pos rfl]
        unfold enter
        rw [wp_modify_bind, wp_pure]
        have hafter : (s₂.inStage .upload).control = { s.control with stage := .upload } := by
          rw [← hcontrol]
          rfl
        refine ⟨?_, fun h => absurd herror₂ h⟩
        rw [List.append_nil, hlog, hafter]
        exact .begins hidle
    | false =>
        rw [if_neg Bool.false_ne_true]
        have hfault : Faulted s (s₂.failing .backend) :=
          faulted_failing _ _ (congrArg Control.scanning hcontrol) (congrArg Control.initialized hcontrol)
        refine wp_fail _ (hfault.goes ?_)
        rw [marks_append, hlog]
        exact .nothing
  rw [wp_bind, Code.wp_both, wp_ask]
  intro paused
  refine ⟨fun hpaused => ?_, fun hpaused => hend false [.call .pause paused] rfl⟩
  rw [wp_ask]
  intro prepared
  exact hend prepared [.call .pause paused, .call .prepare prepared] rfl

theorem launch_went (hs : Sane s) (a : Action) : (launch a now).wp (fun log _ s' => Went s log s') s := by
  unfold launch
  rw [wp_get_bind]
  by_cases hno : s.result.stage ≠ .ready ∨ !s.result.initialized ∨ s.active
  · rw [if_pos hno, wp_pure]
    exact went_stays hs rfl
  rw [if_neg hno]
  simp only [not_or, not_not, Bool.not_eq_true', Bool.not_eq_false] at hno
  by_cases hrefuses : s.result.refuses a
  · rw [if_pos hrefuses, wp_pure]
    exact went_stays hs rfl
  rw [if_neg hrefuses]
  have hallowed : s.control.refuses a = false := by
    rw [← refuses_eq]
    exact Bool.eq_false_iff.2 hrefuses
  refine wp_checked hs fun s₁ hsame hstage herror => ?_
  have hscanning : s₁.result.scanning = s.result.scanning := congrArg Control.scanning hsame.control
  have hinitialized : s₁.result.initialized = s.result.initialized :=
    congrArg Control.initialized hsame.control
  rw [wp_modify_bind, wp_ask_bind]
  generalize hs₂ : ({ s₁ with active := true } : Sequence).launched a now = s₂
  have hcontrol : s₂.control.leasing s₂.action s₂.index =
      { s.control with fullCalibration := false }.leasing a 0 := by
    rw [← hs₂, ← hsame.control]
    rfl
  have herror₂ : s₂.result.error = .none := by
    rw [← hs₂]
    exact herror
  have haction : s₂.action.stepAt s₂.index = a.stepAt 0 := by
    rw [← hs₂]
    rfl
  have hscanning : s₂.result.scanning = s.result.scanning := by
    rw [← hs₂]
    exact congrArg Control.scanning hsame.control
  have hinitialized : s₂.result.initialized = s.result.initialized := by
    rw [← hs₂]
    exact congrArg Control.initialized hsame.control
  intro paused
  apply wp_clean_bind herror₂
  cases paused with
  | false =>
      rw [if_neg Bool.false_ne_true]
      exact wp_fail _ ((faulted_failing _ _ hscanning hinitialized).goes .nothing)
  | true =>
      rw [if_pos rfl]
      refine wp_mono (acquire_spec herror₂) fun log ok s' hs' => ?_
      cases ok with
      | true =>
          rcases hs'.1 rfl with ⟨hlog, hafter, herror'⟩
          have hmarks : marks (.call .pause true :: log) = [.leased (a.stepAt 0) true] := by
            rw [← haction]
            exact hlog
          refine ⟨?_, fun h => absurd herror' h⟩
          rw [hmarks, hafter, hcontrol]
          exact .launches a hno.1 hno.2.1 hallowed
      | false =>
          rcases hs'.2 rfl with ⟨hlog, hfault⟩
          have hmarks : marks (.call .pause true :: log) = [.leased (a.stepAt 0) false] := by
            rw [← haction]
            exact hlog
          refine ⟨?_, fun _ => .inl hfault.stage⟩
          rw [hmarks]
          exact .fails (.launched a hno.1 hno.2.1 hallowed) hfault.stage hfault.full
            (hfault.scanning.trans hscanning) (hfault.initialized.trans hinitialized)

theorem service_went (hs : Sane s) : (service now).wp (fun log _ s' => Went s log s') s := by
  unfold service
  rw [wp_get_bind, if_neg (by rw [hs.active]; exact Bool.false_ne_true)]
  refine wp_checked hs fun s₁ hsame hstage herror => ?_
  rw [wp_get_bind]
  have hstage₁ : s₁.result.stage = s.result.stage := congrArg Control.stage hsame.control
  have hspec := advance_spec (s := { s₁ with active := true }) (by rw [hstage₁]; exact hstage) herror
  refine wp_mono hspec fun log ok s' hgoes => ⟨?_, hgoes.error⟩
  rw [← hsame.control]
  exact hgoes.moves

theorem stop_went (hs : Sane s) : stop.wp (fun log _ s' => Went s log s') s := by
  unfold stop
  rw [wp_get_bind, if_neg (by rw [hs.active]; exact Bool.false_ne_true), wp_ask_bind]
  intro r
  rw [wp_modify_bind, wp_pure]
  exact ⟨⟨hs.active, fun _ => .inr rfl⟩, .stops⟩

theorem exec_went (hs : Sane s) (op : Op) : (exec op).wp (fun log _ s' => Went s log s') s := by
  cases op with
  | begin now => exact begin_went hs
  | launch a now => exact launch_went hs a
  | service now => exact service_went hs
  | stop => exact stop_went hs

end Calls

end RadioBoot
end Rtl8852be
