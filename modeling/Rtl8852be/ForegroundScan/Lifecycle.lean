import Rtl8852be.ForegroundScan.NativeForegroundScan
import Rtl8852be.NativeScan.Passes

/-!
# Lifecycle — what a foreground scan went through

A completed request has visited every channel of its plan.  `account h` reads the current request and what
was done for it off the calls `h`, and `Tracked` ties the controller's counters and flags to it.

* `Stepped` — what one call can do to the controller;
* `Sound` — what holds of the controller alone, whatever was called;
* `foreground_scan_lifecycle` — both of them over whole runs, and what follows for the caller.
-/

namespace Rtl8852be
namespace ForegroundScan

open Interaction NativeScan

/-! ## What a caller can see -/

/-- A request, as its accepted `begin` stated it. -/
structure Request where
  token : Token
  plan : List Channel
  activeScan : Bool
  now : UInt64
  deriving DecidableEq

/-- One thing done for a request: a call with a dwell that returned true. -/
inductive Milestone
  | accepted (d : Dwell) (channel : Option Channel)
  | requested (d : Dwell) (channel : Channel)
  | submitted (d : Dwell)
  | completed (d : Dwell)
  | finished (d : Dwell) (cancelled : Bool) (now : UInt64)
  deriving DecidableEq

def opening : Op → Result → Option Request
  | .begin _ activeScan _ now (some plan) _, .admission .accepted out =>
      some ⟨out.token, plan, activeScan, now⟩
  | _, _ => none

/-- The channel of an accepted dwell is the one that `next` shows. -/
def milestone (c : Controller) : Op → Result → Option Milestone
  | .accepted d, .flag true => some (.accepted d c.next)
  | .requestProbe d channel, .flag true => some (.requested d channel)
  | .submittedProbe d, .flag true => some (.submitted d)
  | .completedProbe d, .flag true => some (.completed d)
  | .channelFinished d cancelled now, .flag true => some (.finished d cancelled now)
  | _, _ => none

/-- The last request, and what was done for it since, first thing first. -/
def account : List Record → Option (Request × List Milestone)
  | [] => none
  | x :: h =>
      match opening x.op x.result with
      | some q => some (q, [])
      | none => (account h).map fun (q, ms) => (q, ms ++ (milestone x.before x.op x.result).toList)

/-- The visit of one channel. -/
structure Visit where
  dwell : Dwell
  channel : Channel
  finishedAt : UInt64

/-- A visit from its acceptance to its end, with one probe if the scan is active. -/
def Visit.story (activeScan : Bool) (v : Visit) : List Milestone :=
  [.accepted v.dwell (some v.channel)] ++
    (if activeScan then [.requested v.dwell v.channel, .submitted v.dwell, .completed v.dwell] else []) ++
    [.finished v.dwell false v.finishedAt]

/-! ## What one call does -/

/-- The numbers of the request and of the dwell stay. -/
structure Kept (c c' : Controller) : Prop where
  token : c'.status.token = c.status.token
  serial : c'.serial = c.serial
  epoch : c'.epoch = c.epoch
  lastOperation : c'.lastOperation = c.lastOperation

/-- The request ends, or drains. -/
structure Leaves (c c' : Controller) : Prop extends Kept c c' where
  request : c.status.phase ≠ .none
  phase : c'.status.phase = .draining ∧ c'.dwell.operation ≠ 0 ∧ c'.status.reason ≠ .none ∨
    (c'.status.phase = .cancelled ∨ c'.status.phase = .timedOut) ∧ c'.dwell.operation = 0 ∨
    c'.status.phase = .failed
  drained : c'.status.drained = true ↔ c'.dwell.operation = 0

inductive Stepped (c : Controller) : Op → Result → Controller → Prop
  | stays {op : Op} {r : Result} (hopening : opening op r = none) (hmilestone : milestone c op r = none) :
      Stepped c op r c
  | opens {r : Readiness} {activeScan : Bool} {epoch now : UInt64} {plan : List Channel} {dwellMs : UInt16}
      (hactive : c.active = false) (hdwell : c.dwell.operation = 0) (hepoch : c.epoch ≤ epoch)
      (hserial : c.serial ≠ 0xffffffffffffffff) (hplan : plan ≠ [])
      (hnow : ¬ (0xffffffffffffffff : UInt64) - now < timeoutUs) :
      Stepped c (.begin r activeScan epoch now (some plan) dwellMs)
        (.admission .accepted (c.begun activeScan epoch now plan dwellMs).status)
        (c.begun activeScan epoch now plan dwellMs)
  | accepts {d : Dwell} (hphase : c.status.phase = .queued)
      (hmore : c.status.completedChannels < c.status.plannedChannels)
      (hnext : c.next = some (c.channels c.status.completedChannels))
      (hepoch : d.epoch = c.status.token.epoch) (hzero : d.operation ≠ 0)
      (hlast : c.lastOperation < d.operation) :
      Stepped c (.accepted d) (.flag true)
        { c with
          lastOperation := d.operation
          dwell := d
          probeRequested := false
          probeSubmitted := false
          probeCompleted := false
          status := { c.status with phase := .scanning, drained := false } }
  | requests (hphase : c.status.phase = .scanning) (hactive : c.status.activeScan = true)
      (hrequested : c.probeRequested = false) :
      Stepped c (.requestProbe c.dwell (c.channels c.status.completedChannels)) (.flag true)
        { c with probeRequested := true }
  | submits (hphase : c.status.phase = .scanning) (hactive : c.status.activeScan = true)
      (hrequested : c.probeRequested = true) (hsubmitted : c.probeSubmitted = false) :
      Stepped c (.submittedProbe c.dwell) (.flag true)
        { c with
          probeSubmitted := true
          status := { c.status with probesSubmitted := c.status.probesSubmitted + 1 } }
  | completes (hphase : c.status.phase = .scanning) (hactive : c.status.activeScan = true)
      (hsubmitted : c.probeSubmitted = true) (hcompleted : c.probeCompleted = false) :
      Stepped c (.completedProbe c.dwell) (.flag true) { c with probeCompleted := true }
  | finishes {now : UInt64} (hphase : c.status.phase = .scanning) (hstart : c.status.startedAtUs ≤ now)
      (hdeadline : now < c.status.deadlineUs)
      (hprobe : c.status.activeScan = true → c.probeCompleted = true) :
      Stepped c (.channelFinished c.dwell false now) (.flag true)
        { c with
          dwell := {}
          status := { c.status with
            drained := true
            completedChannels := c.status.completedChannels + 1
            phase := .queued } }
  | closes {snapshot : NativeScan.Token} {now : UInt64} (hphase : c.status.phase = .queued)
      (hall : c.status.completedChannels = c.status.plannedChannels) (hdwell : c.dwell.operation = 0) :
      Stepped c (.complete snapshot now) (.flag true)
        { c with
          status := { c.status with
            snapshot := snapshot
            phase := .complete
            drained := true
            finishedAtUs := now } }
  | leaves {op : Op} {r : Result} {c' : Controller} (hopening : opening op r = none)
      (hmilestone : milestone c op r = none ∨
        ∃ d cancelled now, milestone c op r = some (.finished d cancelled now))
      (hleaves : Leaves c c') : Stepped c op r c'

/-! ## The controller alone -/

structure Sound (c : Controller) : Prop where
  drained : c.status.phase ≠ .none → (c.status.drained = true ↔ c.dwell.operation = 0)
  home : c.status.phase = .none ∨ c.status.phase = .queued ∨ c.status.phase = .complete ∨
    c.status.phase = .cancelled ∨ c.status.phase = .timedOut → c.dwell.operation = 0
  away : c.status.phase = .scanning ∨ c.status.phase = .draining → c.dwell.operation ≠ 0
  reason : c.status.phase = .draining → c.status.reason ≠ .none
  request : c.status.phase = .none ↔ c.status.token.request = 0
  serial : c.status.token.request = c.serial
  epoch : c.status.phase ≠ .none → c.status.token.epoch = c.epoch

theorem sound_new : Sound {} where
  drained := fun h => absurd rfl h
  home := fun _ => rfl
  away := by rintro (h | h) <;> cases h
  reason := Phase.noConfusion
  request := ⟨fun _ => rfl, fun _ => rfl⟩
  serial := rfl
  epoch := fun h => absurd rfl h

section Steps

variable {c c' : Controller} {op : Op} {r : Result}

theorem active_iff : c.active = true ↔
    c.status.phase = .queued ∨ c.status.phase = .scanning ∨ c.status.phase = .draining := by
  simp [Controller.active, or_assoc]

theorem phase_of_active (hactive : c.active = true) : c.status.phase ≠ .none := by
  rcases active_iff.1 hactive with hphase | hphase | hphase
  all_goals
    rw [hphase]
    exact Phase.noConfusion

variable {d : Dwell}

theorem owns_iff : c.owns d = true ↔ c.active = true ∧ c.dwell.operation ≠ 0 ∧ c.dwell = d := by
  simp [Controller.owns, and_assoc]

theorem observing_iff : c.observing d = true ↔
    c.status.phase = .scanning ∧ c.dwell.operation ≠ 0 ∧ c.dwell = d := by
  simp only [Controller.observing, Bool.and_eq_true, beq_iff_eq, owns_iff]
  constructor
  · rintro ⟨hphase, -, hrest⟩
    exact ⟨hphase, hrest⟩
  · rintro ⟨hphase, hrest⟩
    exact ⟨hphase, active_iff.2 (Or.inr (Or.inl hphase)), hrest⟩

variable {now : UInt64}

theorem begin_stepped {ready : Readiness} {activeScan : Bool} {epoch : UInt64} {plan : Option (List Channel)}
    {dwellMs : UInt16} :
    Stepped c (.begin ready activeScan epoch now plan dwellMs)
      (apply (.begin ready activeScan epoch now plan dwellMs) c).1
      (apply (.begin ready activeScan epoch now plan dwellMs) c).2 := by
  -- a refused `begin` changes nothing, whichever check refused it
  have hrefused : ∀ a : Admission, a ≠ .accepted →
      Stepped c (.begin ready activeScan epoch now plan dwellMs) (.admission a {}) c := by
    intro a ha
    apply Stepped.stays
    · cases a <;> cases plan <;> first | rfl | exact absurd rfl ha
    · rfl
  simp only [apply, Controller.begin]
  split
  · exact hrefused .unsupported (by decide)
  · split
    · exact hrefused .notReady (by decide)
    · split
      · exact hrefused .busy (by decide)
      · rename_i hbusy
        simp only [Bool.or_eq_true, bne_iff_ne, Bool.not_eq_true', not_or, Bool.not_eq_true,
          Decidable.not_not] at hbusy
        cases plan with
        | none => exact hrefused .invalid (by decide)
        | some cs =>
            dsimp only
            split
            · exact hrefused .invalid (by decide)
            · rename_i hvalid
              simp only [not_or] at hvalid
              exact Stepped.opens (by simp [hbusy]) (by simp [hbusy]) (UInt64.not_lt.1 hvalid.2.1) hvalid.2.2.1
                hvalid.2.2.2.1 hvalid.2.2.2.2.2.2.2.1

theorem accepted_stepped :
    Stepped c (.accepted d) (.flag (c.accepted d).1) (c.accepted d).2 := by
  unfold Controller.accepted
  split
  · exact Stepped.stays rfl rfl
  · rename_i hgo
    simp only [not_or, Decidable.not_not, UInt64.not_le] at hgo
    rcases hgo with ⟨hnext, hepoch, hzero, hlast⟩
    unfold Controller.next at hnext
    split at hnext
    · exact absurd rfl hnext
    · rename_i hqueued
      have hsome : c.next = some (c.channels c.status.completedChannels) := if_neg hqueued
      simp only [not_or, Decidable.not_not, not_le] at hqueued
      exact Stepped.accepts hqueued.1 hqueued.2.2 hsome hepoch hzero hlast

theorem requestProbe_stepped {channel : Channel} :
    Stepped c (.requestProbe d channel) (.flag (c.requestProbe d channel).1)
      (c.requestProbe d channel).2 := by
  unfold Controller.requestProbe
  split
  · exact Stepped.stays rfl rfl
  · rename_i hgo
    simp only [Bool.or_eq_true, Bool.not_eq_true', not_or, Bool.not_eq_false, Bool.not_eq_true,
      bne_iff_ne, Decidable.not_not] at hgo
    rcases hgo with ⟨⟨⟨hobserving, hactive⟩, hrequested⟩, rfl⟩
    rcases observing_iff.1 hobserving with ⟨hphase, -, rfl⟩
    exact Stepped.requests hphase hactive hrequested

theorem submittedProbe_stepped :
    Stepped c (.submittedProbe d) (.flag (c.submittedProbe d).1) (c.submittedProbe d).2 := by
  unfold Controller.submittedProbe
  split
  · exact Stepped.stays rfl rfl
  · rename_i hpending
    unfold Controller.pendingProbe at hpending
    split at hpending
    · exact absurd rfl hpending
    · rename_i hgo
      simp only [Bool.or_eq_true, Bool.not_eq_true', not_or, Bool.not_eq_false, Bool.not_eq_true] at hgo
      rcases hgo with ⟨⟨⟨hobserving, hactive⟩, hrequested⟩, hsubmitted⟩
      rcases observing_iff.1 hobserving with ⟨hphase, -, rfl⟩
      exact Stepped.submits hphase hactive hrequested hsubmitted

theorem completedProbe_stepped :
    Stepped c (.completedProbe d) (.flag (c.completedProbe d).1) (c.completedProbe d).2 := by
  unfold Controller.completedProbe
  split
  · exact Stepped.stays rfl rfl
  · rename_i hgo
    simp only [Bool.or_eq_true, Bool.not_eq_true', not_or, Bool.not_eq_false, Bool.not_eq_true] at hgo
    rcases hgo with ⟨⟨⟨hobserving, hactive⟩, hsubmitted⟩, hcompleted⟩
    rcases observing_iff.1 hobserving with ⟨hphase, -, rfl⟩
    exact Stepped.completes hphase hactive hsubmitted hcompleted

theorem complete_stepped {snapshot : NativeScan.Token} :
    Stepped c (.complete snapshot now) (.flag (c.complete snapshot now).1) (c.complete snapshot now).2 := by
  unfold Controller.complete
  split
  · exact Stepped.stays rfl rfl
  · rename_i hgo
    simp only [Bool.or_eq_true, Bool.not_eq_true', not_or, Bool.not_eq_false, Controller.readyToFinish,
      Bool.and_eq_true, beq_iff_eq] at hgo
    rcases hgo with ⟨⟨⟨⟨⟨⟨⟨hphase, -⟩, hall⟩, hdwell⟩, -⟩, -⟩, -⟩, -⟩
    exact Stepped.closes hphase hall hdwell

/-! ## Calls that end a request -/

theorem endCancellation_leaves (hphase : c.status.phase ≠ .none) (now : UInt64) :
    Leaves c (c.endCancellation now) where
  token := rfl
  serial := rfl
  epoch := rfl
  lastOperation := rfl
  request := hphase
  phase := by
    refine Or.inr (Or.inl ⟨?_, rfl⟩)
    show c.cancelledPhase = .cancelled ∨ c.cancelledPhase = .timedOut
    unfold Controller.cancelledPhase
    split
    · exact Or.inr rfl
    · exact Or.inl rfl
  drained := ⟨fun _ => rfl, fun _ => rfl⟩

theorem fail_leaves (hactive : c.active = true) (reason : Reason) (now : UInt64) :
    Leaves c (c.fail reason now) := by
  unfold Controller.fail
  rw [if_pos hactive]
  exact
    { token := rfl
      serial := rfl
      epoch := rfl
      lastOperation := rfl
      request := phase_of_active hactive
      phase := Or.inr (Or.inr rfl)
      drained := beq_iff_eq }

theorem abandon_leaves (hs : Sound c) (hphase : c.status.phase ≠ .none) {reason : Reason}
    (hreason : reason ≠ .none) (now : UInt64) : Leaves c (c.abandon reason now) := by
  unfold Controller.abandon
  dsimp only
  split
  · rename_i hdwell
    exact
      { token := rfl
        serial := rfl
        epoch := rfl
        lastOperation := rfl
        request := hphase
        phase := Or.inl ⟨rfl, hdwell, hreason⟩
        drained := hs.drained hphase }
  · have hends := endCancellation_leaves (c := { c with status := { c.status with
      reason := reason, snapshot := {} } }) hphase now
    exact ⟨⟨hends.token, hends.serial, hends.epoch, hends.lastOperation⟩, hphase, hends.phase, hends.drained⟩

theorem cancel_stepped (hs : Sound c) {token : Token} {reason : Reason}
    (hopening : opening op (.flag (c.cancel token reason now).1) = none)
    (hmilestone : milestone c op (.flag (c.cancel token reason now).1) = none) :
    Stepped c op (.flag (c.cancel token reason now).1) (c.cancel token reason now).2 := by
  unfold Controller.cancel at *
  split
  · rename_i hno
    rw [if_pos hno] at hopening hmilestone
    exact Stepped.stays hopening hmilestone
  · rename_i hgo
    rw [if_neg hgo] at hopening hmilestone
    simp only [Bool.or_eq_true, Bool.not_eq_true', not_or, Bool.not_eq_false, beq_iff_eq] at hgo
    split
    · rename_i hdraining
      rw [if_pos hdraining] at hopening hmilestone
      exact Stepped.stays hopening hmilestone
    · rename_i hdraining
      rw [if_neg hdraining] at hopening hmilestone
      exact Stepped.leaves hopening (Or.inl hmilestone)
        (abandon_leaves hs (phase_of_active hgo.1.1) hgo.2 now)

theorem expired_stepped (hs : Sound c) :
    Stepped c (.expired now) (.flag (c.expired now).1) (c.expired now).2 := by
  unfold Controller.expired
  split
  · exact Stepped.stays rfl rfl
  · exact cancel_stepped hs rfl rfl

/-- The deadline is looked at before a dwell ends: a late end is a drain. -/
theorem expired_of_late (howns : c.owns d = true) (hlate : c.status.deadlineUs ≤ now ∨ c.status.phase = .draining) :
    (c.expired now).2.status.phase = .draining := by
  rcases owns_iff.1 howns with ⟨hactive, hdwell, -⟩
  unfold Controller.expired
  by_cases hdraining : c.status.phase = .draining
  · rw [if_pos (by simp [Controller.draining, hdraining])]
    exact hdraining
  · have hdeadline := hlate.resolve_right hdraining
    rw [if_neg (by simp [Controller.draining, hdraining, hactive, hdeadline])]
    unfold Controller.cancel
    rw [if_neg (by simp [hactive]), if_neg hdraining]
    unfold Controller.abandon
    simp [hdwell]

theorem expired_of_early (hearly : now < c.status.deadlineUs) : (c.expired now).2 = c := by
  unfold Controller.expired
  rw [if_pos (by simp [hearly])]

theorem Leaves.of_kept {d : Controller} (hleaves : Leaves d c') (hkept : Kept c d)
    (hphase : c.status.phase ≠ .none) : Leaves c c' where
  token := hleaves.token.trans hkept.token
  serial := hleaves.serial.trans hkept.serial
  epoch := hleaves.epoch.trans hkept.epoch
  lastOperation := hleaves.lastOperation.trans hkept.lastOperation
  request := hphase
  phase := hleaves.phase
  drained := hleaves.drained

theorem expired_kept (hs : Sound c) (now : UInt64) : Kept c (c.expired now).2 := by
  unfold Controller.expired
  split
  · exact ⟨rfl, rfl, rfl, rfl⟩
  · rename_i hgo
    simp only [Bool.or_eq_true, Bool.not_eq_true', not_or, Bool.not_eq_false] at hgo
    unfold Controller.cancel
    split
    · exact ⟨rfl, rfl, rfl, rfl⟩
    · split
      · exact ⟨rfl, rfl, rfl, rfl⟩
      · exact (abandon_leaves hs (phase_of_active hgo.1.1) Reason.noConfusion now).toKept

theorem channelFinished_stepped (hs : Sound c) {cancelled : Bool} :
    Stepped c (.channelFinished d cancelled now) (.flag (c.channelFinished d cancelled now).1)
      (c.channelFinished d cancelled now).2 := by
  have hleft : ∀ {c' : Controller}, Leaves c c' →
      Stepped c (.channelFinished d cancelled now) (.flag true) c' :=
    fun hleaves => Stepped.leaves rfl (Or.inr ⟨d, cancelled, now, rfl⟩) hleaves
  unfold Controller.channelFinished
  split
  · exact Stepped.stays rfl rfl
  · rename_i howns
    simp only [Bool.not_eq_true', Bool.not_eq_false] at howns
    have hown := owns_iff.1 howns
    have hphase := phase_of_active hown.1
    split
    · exact hleft (fail_leaves hown.1 .clock now)
    · rename_i hclock
      -- a drain, or a dwell that ends after the deadline, ends the request
      by_cases hlate : ¬ now < c.status.deadlineUs ∨ c.status.phase = .draining
      · have hdraining := expired_of_late howns (hlate.imp_left UInt64.not_lt.1)
        have hends : (c.expired now).2.settle cancelled now =
            ({ (c.expired now).2 with
              dwell := {}
              status := { (c.expired now).2.status with drained := true } } :
              Controller).endCancellation now := by
          unfold Controller.settle
          simp [Controller.draining, hdraining]
        rw [hends]
        apply hleft
        have hkept := expired_kept hs now
        refine (endCancellation_leaves ?_ now).of_kept ?_ hphase
        · simp [hdraining]
        · exact ⟨hkept.token, hkept.serial, hkept.epoch, hkept.lastOperation⟩
      · simp only [not_or, Decidable.not_not] at hlate
        have hscanning : c.status.phase = .scanning := by
          rcases active_iff.1 hown.1 with hqueued | hscanning | hdraining
          · exact absurd (hs.home (Or.inr (Or.inl hqueued))) hown.2.1
          · exact hscanning
          · exact absurd hdraining hlate.2
        rw [expired_of_early hlate.1]
        unfold Controller.settle
        dsimp only
        rw [if_neg (by simp [Controller.draining, hscanning])]
        split
        · refine hleft (Leaves.of_kept (endCancellation_leaves ?_ now) ⟨rfl, rfl, rfl, rfl⟩ hphase)
          exact hphase
        · rename_i hcancelled
          split
          · refine hleft (Leaves.of_kept (fail_leaves ?_ .probe now) ⟨rfl, rfl, rfl, rfl⟩ hphase)
            exact hown.1
          · rename_i hprobe
            simp only [Bool.not_eq_true] at hcancelled
            rw [hcancelled, ← hown.2.2]
            refine Stepped.finishes hscanning ?_ hlate.1 ?_
            · simpa [Controller.clockValid, hown.1] using hclock
            · intro hactive
              simpa [hactive] using hprobe

theorem hardwareStopped_stepped :
    Stepped c (.hardwareStopped now) .nothing (c.hardwareStopped now) := by
  unfold Controller.hardwareStopped
  split
  · exact Stepped.stays rfl rfl
  · split
    · rename_i hactive
      have hphase := phase_of_active hactive
      refine Stepped.leaves rfl (Or.inl rfl)
        (Leaves.of_kept (endCancellation_leaves ?_ now) ⟨rfl, rfl, rfl, rfl⟩ hphase)
      exact hphase
    · split
      · rename_i hfailed
        refine Stepped.leaves rfl (Or.inl rfl) ⟨⟨rfl, rfl, rfl, rfl⟩, ?_, Or.inr (Or.inr hfailed), ?_⟩
        · rw [hfailed]
          exact Phase.noConfusion
        · exact ⟨fun _ => rfl, fun _ => rfl⟩
      · exact Stepped.stays rfl rfl

theorem apply_stepped (hs : Sound c) (hout : apply op c = (r, c')) : Stepped c op r c' := by
  rcases Prod.ext_iff.1 hout with ⟨rfl, rfl⟩
  cases op with
  | begin ready activeScan epoch now plan dwellMs => exact begin_stepped
  | next => exact Stepped.stays rfl rfl
  | accepted d => exact accepted_stepped
  | requestProbe d channel => exact requestProbe_stepped
  | pendingProbe d => exact Stepped.stays rfl rfl
  | submittedProbe d => exact submittedProbe_stepped
  | completedProbe d => exact completedProbe_stepped
  | cancel token reason now => exact cancel_stepped hs rfl rfl
  | expired now => exact expired_stepped hs
  | channelFinished d cancelled now => exact channelFinished_stepped hs
  | complete snapshot now => exact complete_stepped
  | fail reason now =>
      by_cases hactive : c.active = true
      · exact Stepped.leaves rfl (Or.inl rfl) (fail_leaves hactive reason now)
      · have hsame : c.fail reason now = c := if_neg hactive
        show Stepped c _ .nothing (c.fail reason now)
        rw [hsame]
        exact Stepped.stays rfl rfl
  | hardwareStopped now => exact hardwareStopped_stepped
  | copy token => exact Stepped.stays rfl rfl

theorem Sound.step (hs : Sound c) (hstep : Stepped c op r c') : Sound c' := by
  cases hstep with
  | stays => exact hs
  | opens hactive hdwell hepoch hserial hplan hnow =>
      have hfirst : c.serial + 1 ≠ 0 := by
        intro hzero
        apply hserial
        have hlast : c.serial = 0 - 1 := by
          rw [← hzero, UInt64.add_sub_cancel]
        exact hlast.trans (by decide)
      exact
        { drained := fun _ => ⟨fun _ => rfl, fun _ => rfl⟩
          home := fun _ => rfl
          away := by rintro (h | h) <;> cases h
          reason := Phase.noConfusion
          request := ⟨Phase.noConfusion, fun h => absurd h hfirst⟩
          serial := rfl
          epoch := fun _ => rfl }
  | accepts hphase hmore hnext hepoch hzero hlast =>
      have hsome : c.status.phase ≠ .none := by simp [hphase]
      exact
        { drained := fun _ => ⟨Bool.noConfusion, fun h => absurd h hzero⟩
          home := by rintro (h | h | h | h | h) <;> cases h
          away := fun _ => hzero
          reason := Phase.noConfusion
          request := ⟨Phase.noConfusion, fun h => absurd (hs.request.2 h) hsome⟩
          serial := hs.serial
          epoch := fun _ => hs.epoch hsome }
  | requests => exact ⟨hs.drained, hs.home, hs.away, hs.reason, hs.request, hs.serial, hs.epoch⟩
  | submits => exact ⟨hs.drained, hs.home, hs.away, hs.reason, hs.request, hs.serial, hs.epoch⟩
  | completes => exact ⟨hs.drained, hs.home, hs.away, hs.reason, hs.request, hs.serial, hs.epoch⟩
  | finishes hphase =>
      have hsome : c.status.phase ≠ .none := by simp [hphase]
      exact
        { drained := fun _ => ⟨fun _ => rfl, fun _ => rfl⟩
          home := fun _ => rfl
          away := by rintro (h | h) <;> cases h
          reason := Phase.noConfusion
          request := ⟨Phase.noConfusion, fun h => absurd (hs.request.2 h) hsome⟩
          serial := hs.serial
          epoch := fun _ => hs.epoch hsome }
  | closes hphase hall hdwell =>
      have hsome : c.status.phase ≠ .none := by simp [hphase]
      exact
        { drained := fun _ => ⟨fun _ => hdwell, fun _ => rfl⟩
          home := fun _ => hdwell
          away := by rintro (h | h) <;> cases h
          reason := Phase.noConfusion
          request := ⟨Phase.noConfusion, fun h => absurd (hs.request.2 h) hsome⟩
          serial := hs.serial
          epoch := fun _ => hs.epoch hsome }
  | leaves hopening hmilestone hleaves =>
      have hrequest : c'.status.token.request ≠ 0 := by
        rw [hleaves.token]
        exact fun hzero => hleaves.request (hs.request.2 hzero)
      have hserial : c'.status.token.request = c'.serial := by
        rw [hleaves.token, hleaves.serial]
        exact hs.serial
      have hepoch : c'.status.token.epoch = c'.epoch := by
        rw [hleaves.token, hleaves.epoch]
        exact hs.epoch hleaves.request
      rcases hleaves.phase with ⟨hphase, hdwell, hreason⟩ | ⟨hphase | hphase, hdwell⟩ | hphase
      all_goals
        refine ⟨fun _ => hleaves.drained, ?_, ?_, ?_, ?_, hserial, fun _ => hepoch⟩
        all_goals simp_all

end Steps

/-! ## The request so far -/

/-- The dwell under way, with what was done about its probe. -/
def underway (c : Controller) : List Milestone :=
  [.accepted c.dwell (some (c.channels c.status.completedChannels))] ++
    (if c.probeRequested then [.requested c.dwell (c.channels c.status.completedChannels)] else []) ++
    (if c.probeSubmitted then [.submitted c.dwell] else []) ++
    (if c.probeCompleted then [.completed c.dwell] else [])

/-- The controller's numbers, for a request whose first channels were visited. -/
structure Agrees (q : Request) (visits : List Visit) (c : Controller) : Prop where
  planned : c.status.plannedChannels = q.plan.length
  channels : ∀ i < q.plan.length, q.plan[i]? = some (c.channels i)
  activeScan : c.status.activeScan = q.activeScan
  started : c.status.startedAtUs = q.now
  deadline : c.status.deadlineUs.toNat = q.now.toNat + timeoutUs.toNat
  count : visits.length = c.status.completedChannels
  bound : c.status.completedChannels ≤ c.status.plannedChannels
  order : visits.map Visit.channel = q.plan.take visits.length
  times : ∀ v ∈ visits, q.now ≤ v.finishedAt ∧ v.finishedAt < c.status.deadlineUs

structure Follows (q : Request) (ms : List Milestone) (c : Controller) : Prop where
  token : c.status.token = q.token
  between : c.status.phase = .queued ∨ c.status.phase = .complete →
    ∃ visits, Agrees q visits c ∧ ms = visits.flatMap (Visit.story q.activeScan) ∧
      c.status.probesSubmitted = if q.activeScan then visits.length else 0
  during : c.status.phase = .scanning →
    ∃ visits, Agrees q visits c ∧ visits.length < c.status.plannedChannels ∧
      ms = visits.flatMap (Visit.story q.activeScan) ++ underway c ∧
      (c.probeCompleted = true → c.probeSubmitted = true) ∧
      (c.probeSubmitted = true → c.probeRequested = true) ∧
      (c.probeRequested = true → q.activeScan = true) ∧
      c.status.probesSubmitted =
        (if q.activeScan then visits.length else 0) + (if c.probeSubmitted then 1 else 0)
  all : c.status.phase = .complete → c.status.completedChannels = c.status.plannedChannels

def Tracked : Option (Request × List Milestone) → Controller → Prop
  | none, c => c.status.phase = .none
  | some (q, ms), c => Follows q ms c

section Following

variable {c c' : Controller} {op : Op} {r : Result} {q : Request} {ms : List Milestone} {visits : List Visit}

theorem Agrees.of_same (ha : Agrees q visits c) (hplanned : c'.status.plannedChannels = c.status.plannedChannels)
    (hchannels : c'.channels = c.channels) (hactive : c'.status.activeScan = c.status.activeScan)
    (hstarted : c'.status.startedAtUs = c.status.startedAtUs)
    (hdeadline : c'.status.deadlineUs = c.status.deadlineUs)
    (hcompleted : c'.status.completedChannels = c.status.completedChannels) : Agrees q visits c' where
  planned := hplanned.trans ha.planned
  channels := by
    rw [hchannels]
    exact ha.channels
  activeScan := hactive.trans ha.activeScan
  started := hstarted.trans ha.started
  deadline := by
    rw [hdeadline]
    exact ha.deadline
  count := ha.count.trans hcompleted.symm
  bound := by
    rw [hcompleted, hplanned]
    exact ha.bound
  order := ha.order
  times := by
    rw [hdeadline]
    exact ha.times

theorem follows_begun {activeScan : Bool} {epoch now : UInt64} {plan : List Channel} {dwellMs : UInt16}
    (hnow : ¬ (0xffffffffffffffff : UInt64) - now < timeoutUs) :
    Follows ⟨⟨epoch, c.serial + 1⟩, plan, activeScan, now⟩ [] (c.begun activeScan epoch now plan dwellMs) where
  token := rfl
  between := by
    intro _
    refine ⟨[], ?_, rfl, ?_⟩
    · exact
        { planned := rfl
          channels := by
            intro i hi
            simp [Controller.begun, show i < plan.length from hi, List.getD_eq_getElem?_getD]
          activeScan := rfl
          started := rfl
          deadline := by
            show (now + timeoutUs).toNat = now.toNat + timeoutUs.toNat
            rw [UInt64.toNat_add]
            apply Nat.mod_eq_of_lt
            have hroom : ¬ ((0xffffffffffffffff : UInt64) - now).toNat < timeoutUs.toNat := hnow
            rw [UInt64.toNat_sub_of_le _ _ (UInt64.le_iff_toNat_le.2 (Nat.le_pred_of_lt now.toNat_lt))] at hroom
            have hmax : (0xffffffffffffffff : UInt64).toNat = 2 ^ 64 - 1 := rfl
            have hlt := now.toNat_lt
            omega
          count := rfl
          bound := Nat.zero_le _
          order := rfl
          times := fun v hv => absurd hv List.not_mem_nil }
    · simp [Controller.begun]
  during := Phase.noConfusion
  all := Phase.noConfusion

theorem Follows.accepts {d : Dwell} (hf : Follows q ms c) (hphase : c.status.phase = .queued)
    (hmore : c.status.completedChannels < c.status.plannedChannels)
    (hnext : c.next = some (c.channels c.status.completedChannels)) :
    Follows q (ms ++ [.accepted d c.next])
      { c with
        lastOperation := d.operation
        dwell := d
        probeRequested := false
        probeSubmitted := false
        probeCompleted := false
        status := { c.status with phase := .scanning, drained := false } } where
  token := hf.token
  between := by rintro (h | h) <;> cases h
  during := by
    intro _
    rcases hf.between (Or.inl hphase) with ⟨visits, ha, rfl, hprobes⟩
    refine ⟨visits, ha.of_same rfl rfl rfl rfl rfl rfl, ?_, ?_, Bool.noConfusion, Bool.noConfusion,
      Bool.noConfusion, hprobes⟩
    · rw [ha.count]
      exact hmore
    · rw [hnext]
      rfl
  all := Phase.noConfusion

/-- A visit ends in time: it joins the visits made so far. -/
theorem Agrees.visited {now : UInt64} (ha : Agrees q visits c) (hmore : visits.length < c.status.plannedChannels)
    (hstart : c.status.startedAtUs ≤ now) (hdeadline : now < c.status.deadlineUs) :
    Agrees q (visits ++ [⟨c.dwell, c.channels c.status.completedChannels, now⟩])
      { c with
        dwell := {}
        status := { c.status with
          drained := true
          completedChannels := c.status.completedChannels + 1
          phase := .queued } } where
  planned := ha.planned
  channels := ha.channels
  activeScan := ha.activeScan
  started := ha.started
  deadline := ha.deadline
  count := by simp [ha.count]
  bound := by
    have hcount := ha.count
    show c.status.completedChannels + 1 ≤ c.status.plannedChannels
    omega
  order := by
    have hindex : visits.length < q.plan.length := by
      rw [← ha.planned]
      exact hmore
    rw [List.map_append, ha.order, List.length_append, List.length_singleton, List.take_add_one,
      ha.channels _ hindex, ha.count]
    rfl
  times := by
    intro v hv
    rcases List.mem_append.1 hv with hv | hv
    · exact ha.times v hv
    · rw [List.mem_singleton.1 hv, ← ha.started]
      exact ⟨hstart, hdeadline⟩

theorem Follows.finishes {now : UInt64} (hf : Follows q ms c) (hphase : c.status.phase = .scanning)
    (hstart : c.status.startedAtUs ≤ now) (hdeadline : now < c.status.deadlineUs)
    (hprobe : c.status.activeScan = true → c.probeCompleted = true) :
    Follows q (ms ++ [.finished c.dwell false now])
      { c with
        dwell := {}
        status := { c.status with
          drained := true
          completedChannels := c.status.completedChannels + 1
          phase := .queued } } where
  token := hf.token
  between := by
    intro _
    rcases hf.during hphase with ⟨visits, ha, hmore, rfl, hcs, hsr, hra, hprobes⟩
    refine ⟨visits ++ [⟨c.dwell, c.channels c.status.completedChannels, now⟩], ha.visited hmore hstart hdeadline,
      ?_, ?_⟩
    · rw [List.flatMap_append, List.flatMap_singleton, List.append_assoc]
      congr 1
      -- the flags of an active scan are all set, and those of a passive one are all clear
      by_cases hactive : q.activeScan = true
      · have hcompleted := hprobe (ha.activeScan.trans hactive)
        simp [underway, Visit.story, hactive, hcompleted, hcs hcompleted, hsr (hcs hcompleted)]
      · have hrequested : c.probeRequested = false := Bool.eq_false_iff.2 fun h => hactive (hra h)
        have hsubmitted : c.probeSubmitted = false :=
          Bool.eq_false_iff.2 fun h => Bool.eq_false_iff.1 hrequested (hsr h)
        have hcompleted : c.probeCompleted = false :=
          Bool.eq_false_iff.2 fun h => Bool.eq_false_iff.1 hsubmitted (hcs h)
        simp [underway, Visit.story, hactive, hrequested, hsubmitted, hcompleted]
    · show c.status.probesSubmitted = _
      rw [hprobes]
      by_cases hactive : q.activeScan = true
      · have hcompleted := hprobe (ha.activeScan.trans hactive)
        simp [hactive, hcs hcompleted]
      · have hsubmitted : c.probeSubmitted = false := Bool.eq_false_iff.2 fun h => hactive (hra (hsr h))
        simp [hactive, hsubmitted]
  during := Phase.noConfusion
  all := Phase.noConfusion

/-- Something new is known about the probe of the dwell under way. -/
theorem Follows.probe {m : Milestone} (hf : Follows q ms c) (hphase : c.status.phase = .scanning)
    (hphase' : c'.status.phase = .scanning) (htoken : c'.status.token = c.status.token)
    (hagrees : ∀ visits, Agrees q visits c → Agrees q visits c')
    (hplanned : c'.status.plannedChannels = c.status.plannedChannels)
    (hunderway : underway c' = underway c ++ [m])
    (hcs : (c.probeCompleted = true → c.probeSubmitted = true) →
      c'.probeCompleted = true → c'.probeSubmitted = true)
    (hsr : (c.probeSubmitted = true → c.probeRequested = true) →
      c'.probeSubmitted = true → c'.probeRequested = true)
    (hra : (c.probeRequested = true → q.activeScan = true) → c'.probeRequested = true → q.activeScan = true)
    (hprobes : c'.status.probesSubmitted + (if c.probeSubmitted then 1 else 0) =
      c.status.probesSubmitted + if c'.probeSubmitted then 1 else 0) : Follows q (ms ++ [m]) c' where
  token := htoken.trans hf.token
  between := by
    rw [hphase']
    rintro (h | h) <;> cases h
  during := by
    intro _
    rcases hf.during hphase with ⟨visits, ha, hmore, rfl, hcs', hsr', hra', hcount⟩
    refine ⟨visits, hagrees visits ha, ?_, ?_, hcs hcs', hsr hsr', hra hra', ?_⟩
    · rw [hplanned]
      exact hmore
    · rw [hunderway, List.append_assoc]
    · omega
  all := by
    rw [hphase']
    exact Phase.noConfusion

theorem Follows.leaves (hf : Follows q ms c) (hleaves : Leaves c c') (ms' : List Milestone) :
    Follows q ms' c' where
  token := hleaves.token.trans hf.token
  between := by
    intro hphase
    rcases hleaves.phase with ⟨h, -⟩ | ⟨h | h, -⟩ | h <;> simp [h] at hphase
  during := by
    intro hphase
    rcases hleaves.phase with ⟨h, -⟩ | ⟨h | h, -⟩ | h <;> simp [h] at hphase
  all := by
    intro hphase
    rcases hleaves.phase with ⟨h, -⟩ | ⟨h | h, -⟩ | h <;> simp [h] at hphase

theorem Follows.step (hf : Follows q ms c) (hflags : c.status.phase = .scanning →
    (c.probeCompleted = true → c.probeSubmitted = true) ∧ (c.probeSubmitted = true → c.probeRequested = true))
    (hstep : Stepped c op r c') (hopening : opening op r = none) :
    Follows q (ms ++ (milestone c op r).toList) c' := by
  cases hstep with
  | stays _ hmilestone => simpa [hmilestone] using hf
  | opens => simp [opening] at hopening
  | accepts hphase hmore hnext => exact hf.accepts hphase hmore hnext
  | requests hphase hactive hrequested =>
      -- nothing was submitted before anything was requested
      have hsubmitted : c.probeSubmitted = false :=
        Bool.eq_false_iff.2 fun h => Bool.eq_false_iff.1 hrequested ((hflags hphase).2 h)
      have hcompleted : c.probeCompleted = false :=
        Bool.eq_false_iff.2 fun h => Bool.eq_false_iff.1 hsubmitted ((hflags hphase).1 h)
      have hq : q.activeScan = true := by
        rcases hf.during hphase with ⟨visits, ha, -⟩
        exact ha.activeScan.symm.trans hactive
      refine hf.probe hphase hphase rfl (fun _ ha => ha.of_same rfl rfl rfl rfl rfl rfl) rfl ?_ id (fun _ _ => rfl)
        (fun _ _ => hq) rfl
      simp [underway, hrequested, hsubmitted, hcompleted]
  | submits hphase hactive hrequested hsubmitted =>
      have hcompleted : c.probeCompleted = false :=
        Bool.eq_false_iff.2 fun h => Bool.eq_false_iff.1 hsubmitted ((hflags hphase).1 h)
      refine hf.probe hphase hphase rfl (fun _ ha => ha.of_same rfl rfl rfl rfl rfl rfl) rfl ?_ (fun _ _ => rfl)
        (fun _ _ => hrequested) id ?_
      · simp [underway, hsubmitted, hcompleted]
      · simp [hsubmitted]
  | completes hphase hactive hsubmitted hcompleted =>
      refine hf.probe hphase hphase rfl (fun _ ha => ha.of_same rfl rfl rfl rfl rfl rfl) rfl ?_
        (fun _ _ => hsubmitted) id id rfl
      simp [underway, hcompleted]
  | finishes hphase hstart hdeadline hprobe => exact hf.finishes hphase hstart hdeadline hprobe
  | closes hphase hall hdwell =>
      refine ⟨hf.token, fun _ => ?_, Phase.noConfusion, fun _ => hall⟩
      rcases hf.between (Or.inl hphase) with ⟨visits, ha, hms, hprobes⟩
      exact ⟨visits, ha.of_same rfl rfl rfl rfl rfl rfl, by simpa [milestone] using hms, hprobes⟩
  | leaves _ _ hleaves => exact hf.leaves hleaves _

theorem Tracked.step {log : List (Event Empty NoCall Empty)} {h : List Record} (ht : Tracked (account h) c)
    (hstep : Stepped c op r c') : Tracked (account (⟨c, op, log, r, c'⟩ :: h)) c' := by
  simp only [account]
  split
  · rename_i q hopening
    cases hstep with
    | opens hactive hdwell hepoch hserial hplan hnow =>
        cases hopening
        exact follows_begun hnow
    | stays hno => exact absurd (hno.symm.trans hopening) (by simp)
    | leaves hno => exact absurd (hno.symm.trans hopening) (by simp)
    | _ => simp [opening] at hopening
  · rename_i hopening
    cases haccount : account h with
    | none =>
        rw [haccount] at ht
        have hnone : c.status.phase = .none := ht
        cases hstep with
        | stays => exact hnone
        | opens => simp [opening] at hopening
        | leaves _ _ hleaves => exact absurd hnone hleaves.request
        | accepts hphase => exact absurd (hnone.symm.trans hphase) Phase.noConfusion
        | requests hphase => exact absurd (hnone.symm.trans hphase) Phase.noConfusion
        | submits hphase => exact absurd (hnone.symm.trans hphase) Phase.noConfusion
        | completes hphase => exact absurd (hnone.symm.trans hphase) Phase.noConfusion
        | finishes hphase => exact absurd (hnone.symm.trans hphase) Phase.noConfusion
        | closes hphase => exact absurd (hnone.symm.trans hphase) Phase.noConfusion
    | some a =>
        rw [haccount] at ht
        have hf : Follows a.1 a.2 c := ht
        refine Follows.step hf ?_ hstep hopening
        intro hphase
        rcases hf.during hphase with ⟨_, _, _, _, hcs, hsr, _⟩
        exact ⟨hcs, hsr⟩

end Following

/-! ## Numbers -/

/-- The requests that were accepted, newest first. -/
def requests (h : List Record) : List Request := h.filterMap fun x => opening x.op x.result

/-- The dwells that were accepted, newest first. -/
def dwells (h : List Record) : List Dwell :=
  h.filterMap fun x =>
    match milestone x.before x.op x.result with
    | some (.accepted d _) => some d
    | _ => none

structure Numbered (h : List Record) (c : Controller) : Prop where
  requests : (requests h).Pairwise fun new old => old.token.request < new.token.request
  serial : ∀ q ∈ ForegroundScan.requests h, q.token.request ≤ c.serial
  operations : (dwells h).Pairwise fun new old => old.epoch = new.epoch → old.operation < new.operation
  epoch : ∀ d ∈ dwells h, d.epoch ≤ c.epoch
  lastOperation : ∀ d ∈ dwells h, d.epoch = c.epoch → d.operation ≤ c.lastOperation

section Numbers

variable {c c' : Controller} {op : Op} {r : Result} {h : List Record} {log : List (Event Empty NoCall Empty)}

theorem requests_of_none (hopening : opening op r = none) :
    requests (⟨c, op, log, r, c'⟩ :: h) = requests h := by
  simp [requests, hopening]

theorem dwells_of_other (hmilestone : ∀ d channel, milestone c op r ≠ some (.accepted d channel)) :
    dwells (⟨c, op, log, r, c'⟩ :: h) = dwells h := by
  unfold dwells
  rw [List.filterMap_cons]
  split
  · rfl
  · rename_i hsome
    split at hsome
    · rename_i hm
      exact absurd hm (hmilestone _ _)
    · cases hsome

theorem Numbered.kept (hn : Numbered h c) (hopening : opening op r = none)
    (hmilestone : ∀ d channel, milestone c op r ≠ some (.accepted d channel)) (hserial : c'.serial = c.serial)
    (hepoch : c'.epoch = c.epoch) (hlast : c'.lastOperation = c.lastOperation) :
    Numbered (⟨c, op, log, r, c'⟩ :: h) c' := by
  have hrequests : ForegroundScan.requests (⟨c, op, log, r, c'⟩ :: h) = ForegroundScan.requests h :=
    requests_of_none hopening
  have hdwells : dwells (⟨c, op, log, r, c'⟩ :: h) = dwells h := dwells_of_other hmilestone
  refine ⟨?_, ?_, ?_, ?_, ?_⟩
  · rw [hrequests]
    exact hn.requests
  · rw [hrequests, hserial]
    exact hn.serial
  · rw [hdwells]
    exact hn.operations
  · rw [hdwells, hepoch]
    exact hn.epoch
  · rw [hdwells, hepoch, hlast]
    exact hn.lastOperation

theorem Numbered.step (hn : Numbered h c) (hs : Sound c) (hstep : Stepped c op r c') :
    Numbered (⟨c, op, log, r, c'⟩ :: h) c' := by
  cases hstep with
  | stays hopening hmilestone => exact hn.kept hopening (by simp [hmilestone]) rfl rfl rfl
  | opens hactive hdwell hepoch hserial hplan hnow =>
      rename_i ready activeScan epoch now plan dwellMs
      have hlt : c.serial < c.serial + 1 := Bits.lt_next hserial
      refine ⟨?_, ?_, hn.operations, ?_, ?_⟩
      · exact List.pairwise_cons.2 ⟨fun q hq => UInt64.lt_of_le_of_lt (hn.serial q hq) hlt, hn.requests⟩
      · intro q hq
        rcases List.mem_cons.1 hq with rfl | hq
        · exact UInt64.le_refl (c.serial + 1)
        · exact UInt64.le_trans (hn.serial q hq) (UInt64.le_of_lt hlt)
      · intro d hd
        exact UInt64.le_trans (hn.epoch d hd) hepoch
      · intro d hd hsame
        show d.operation ≤ if epoch ≠ c.epoch then 0 else c.lastOperation
        have hsame' : d.epoch = epoch := hsame
        -- a dwell of the new epoch can only be there if the epoch is not new
        have hold : epoch = c.epoch := by
          apply UInt64.le_antisymm _ hepoch
          rw [← hsame']
          exact hn.epoch d hd
        rw [if_neg (by simpa using hold)]
        exact hn.lastOperation d hd (hsame'.trans hold)
  | accepts hphase hmore hnext hepoch hzero hlast =>
      rename_i d
      have hcurrent : d.epoch = c.epoch := hepoch.trans (hs.epoch (by simp [hphase]))
      refine ⟨hn.requests, hn.serial, ?_, ?_, ?_⟩
      · refine List.pairwise_cons.2 ⟨fun d' hd' hsame => ?_, hn.operations⟩
        exact UInt64.lt_of_le_of_lt (hn.lastOperation d' hd' (hsame.trans hcurrent)) hlast
      · intro d' hd'
        rcases List.mem_cons.1 hd' with rfl | hd'
        · exact UInt64.le_of_eq hcurrent
        · exact hn.epoch d' hd'
      · intro d' hd' hsame
        rcases List.mem_cons.1 hd' with rfl | hd'
        · exact UInt64.le_refl _
        · exact UInt64.le_trans (hn.lastOperation d' hd' hsame) (UInt64.le_of_lt hlast)
  | requests => exact hn.kept rfl (by simp [milestone]) rfl rfl rfl
  | submits => exact hn.kept rfl (by simp [milestone]) rfl rfl rfl
  | completes => exact hn.kept rfl (by simp [milestone]) rfl rfl rfl
  | finishes => exact hn.kept rfl (by simp [milestone]) rfl rfl rfl
  | closes => exact hn.kept rfl (by simp [milestone]) rfl rfl rfl
  | leaves hopening hmilestone hleaves =>
      refine hn.kept hopening ?_ hleaves.serial hleaves.epoch hleaves.lastOperation
      rcases hmilestone with hnone | ⟨d, cancelled, now, hfinished⟩
      · simp [hnone]
      · simp [hfinished]

end Numbers

/-! ## Calls without effect -/

/-- The call names another request, another dwell or another epoch than the current one.  `accepted`
brings the number of a new dwell, and is not for now while one is outstanding. -/
def Op.Other (c : Controller) : Op → Prop
  | .accepted d => c.dwell.operation ≠ 0 ∨ d.epoch ≠ c.status.token.epoch
  | .requestProbe d _ => d ≠ c.dwell
  | .pendingProbe d => d ≠ c.dwell
  | .submittedProbe d => d ≠ c.dwell
  | .completedProbe d => d ≠ c.dwell
  | .channelFinished d _ _ => d ≠ c.dwell
  | .cancel token _ _ => token ≠ c.status.token
  | .copy token => token ≠ c.status.token
  | .complete snapshot _ => snapshot.epoch ≠ c.status.token.epoch
  | _ => False

/-- The calls that end the drain of `d`. -/
def Op.Settles (d : Dwell) : Op → Prop
  | .channelFinished d' _ _ => d' = d
  | .hardwareStopped _ => True
  | .fail _ _ => True
  | _ => False

section Refused

variable {c : Controller} {op : Op} {d : Dwell}

theorem begin_busy (hbusy : c.active = true ∨ c.dwell.operation ≠ 0) (ready : Readiness) (activeScan : Bool)
    (epoch now : UInt64) (plan : Option (List Channel)) (dwellMs : UInt16) :
    (c.begin ready activeScan epoch now plan dwellMs).1 ≠ .accepted ∧
      (c.begin ready activeScan epoch now plan dwellMs).2 = c := by
  unfold Controller.begin
  split
  · exact ⟨Admission.noConfusion, rfl⟩
  · split
    · exact ⟨Admission.noConfusion, rfl⟩
    · rw [if_pos (by rcases hbusy with h | h <;> simp [h])]
      exact ⟨Admission.noConfusion, rfl⟩

theorem next_eq_none (hno : c.status.phase ≠ .queued ∨ c.dwell.operation ≠ 0) : c.next = none := by
  apply if_pos
  rcases hno with h | h
  · exact Or.inl h
  · exact Or.inr (Or.inl h)

theorem accepted_refused (hno : c.next = none ∨ d.epoch ≠ c.status.token.epoch) : c.accepted d = (false, c) := by
  apply if_pos
  rcases hno with h | h
  · exact Or.inl h
  · exact Or.inr (Or.inl h)

theorem requestProbe_refused (hno : c.observing d = false) (channel : Channel) :
    c.requestProbe d channel = (false, c) :=
  if_pos (by simp [hno])

theorem pendingProbe_refused (hno : c.observing d = false) : c.pendingProbe d = none :=
  if_pos (by simp [hno])

theorem submittedProbe_refused (hno : c.observing d = false) : c.submittedProbe d = (false, c) :=
  if_pos (pendingProbe_refused hno)

theorem completedProbe_refused (hno : c.observing d = false) : c.completedProbe d = (false, c) :=
  if_pos (by simp [hno])

theorem channelFinished_refused (hno : c.owns d = false) (cancelled : Bool) (now : UInt64) :
    c.channelFinished d cancelled now = (false, c) :=
  if_pos (by simp [hno])

theorem complete_refused {snapshot : NativeScan.Token}
    (hno : c.status.phase ≠ .queued ∨ snapshot.epoch ≠ c.status.token.epoch) (now : UInt64) :
    c.complete snapshot now = (false, c) := by
  apply if_pos
  rcases hno with h | h <;> simp [h, Controller.readyToFinish]

theorem observing_other (hother : d ≠ c.dwell) : c.observing d = false := by
  rw [← Bool.not_eq_true, observing_iff]
  exact fun h => hother h.2.2.symm

theorem owns_other (hother : d ≠ c.dwell) : c.owns d = false := by
  rw [← Bool.not_eq_true, owns_iff]
  exact fun h => hother h.2.2.symm

theorem apply_other (hother : op.Other c) :
    (apply op c).2 = c ∧ ((apply op c).1 = .flag false ∨ (apply op c).1 = .channel none ∨
      (apply op c).1 = .status none) := by
  cases op with
  | accepted d =>
      have hno : c.next = none ∨ d.epoch ≠ c.status.token.epoch := by
        rcases hother with h | h
        · exact Or.inl (next_eq_none (Or.inr h))
        · exact Or.inr h
      simp [apply, accepted_refused hno]
  | requestProbe d channel => simp [apply, requestProbe_refused (observing_other hother)]
  | pendingProbe d => simp [apply, pendingProbe_refused (observing_other hother)]
  | submittedProbe d => simp [apply, submittedProbe_refused (observing_other hother)]
  | completedProbe d => simp [apply, completedProbe_refused (observing_other hother)]
  | channelFinished d cancelled now => simp [apply, channelFinished_refused (owns_other hother)]
  | cancel token reason now =>
      have hrefused : c.cancel token reason now = (false, c) := if_pos (by simp [show token ≠ _ from hother])
      simp [apply, hrefused]
  | complete snapshot now => simp [apply, complete_refused (Or.inr hother)]
  | copy token =>
      have hrefused : c.copy token = none := if_pos (Or.inr hother)
      simp [apply, hrefused]
  | _ => exact hother.elim

/-- Away from the queue and from a dwell that is observed, these calls do nothing; the rest either ends
the request or is about a dwell. -/
theorem apply_away (hqueued : c.status.phase ≠ .queued) (hscanning : c.status.phase ≠ .scanning)
    (hbusy : c.active = true ∨ c.dwell.operation ≠ 0)
    (hcancel : ∀ token reason now, (c.cancel token reason now).2 = c) (hexpired : ∀ now, (c.expired now).2 = c)
    (hfinished : ∀ d cancelled now, op = .channelFinished d cancelled now →
      (c.channelFinished d cancelled now).2 = c)
    (hfail : ∀ reason now, op = .fail reason now → c.fail reason now = c)
    (hstop : ∀ now, op ≠ .hardwareStopped now) : (apply op c).2 = c := by
  have hobserving : ∀ d, c.observing d = false := by
    intro d
    rw [← Bool.not_eq_true, observing_iff]
    exact fun h => hscanning h.1
  cases op with
  | begin ready activeScan epoch now plan dwellMs =>
      exact (begin_busy hbusy ready activeScan epoch now plan dwellMs).2
  | next => rfl
  | accepted d => simp [apply, accepted_refused (Or.inl (next_eq_none (Or.inl hqueued)))]
  | requestProbe d channel => simp [apply, requestProbe_refused (hobserving d)]
  | pendingProbe d => rfl
  | submittedProbe d => simp [apply, submittedProbe_refused (hobserving d)]
  | completedProbe d => simp [apply, completedProbe_refused (hobserving d)]
  | cancel token reason now => exact hcancel token reason now
  | expired now => exact hexpired now
  | channelFinished d cancelled now => exact hfinished d cancelled now rfl
  | complete snapshot now => simp [apply, complete_refused (Or.inl hqueued)]
  | fail reason now => exact hfail reason now rfl
  | hardwareStopped now => exact absurd rfl (hstop now)
  | copy token => rfl

theorem apply_draining (hphase : c.status.phase = .draining) (hop : ¬ op.Settles c.dwell) :
    (apply op c).2 = c := by
  have hactive : c.active = true := active_iff.2 (Or.inr (Or.inr hphase))
  refine apply_away (by simp [hphase]) (by simp [hphase]) (Or.inl hactive) ?_ ?_ ?_ ?_ ?_
  · intro token reason now
    -- the first cause stays
    simp only [Controller.cancel, if_pos hphase]
    split
    · rfl
    · rfl
  · intro now
    unfold Controller.expired
    rw [if_pos (by simp [Controller.draining, hphase])]
  · rintro d cancelled now rfl
    rw [channelFinished_refused (owns_other hop)]
  · rintro reason now rfl
    exact absurd trivial hop
  · rintro now rfl
    exact absurd trivial hop

theorem apply_failed (hphase : c.status.phase = .failed) (hdwell : c.dwell.operation ≠ 0)
    (hop : ∀ now, op ≠ .hardwareStopped now) : (apply op c).2 = c := by
  have hactive : c.active = false := by simp [Controller.active, hphase]
  refine apply_away (by simp [hphase]) (by simp [hphase]) (Or.inr hdwell) ?_ ?_ ?_ ?_ hop
  · intro token reason now
    unfold Controller.cancel
    rw [if_pos (by simp [hactive])]
  · intro now
    unfold Controller.expired
    rw [if_pos (by simp [hactive])]
  · intro d cancelled now _
    rw [channelFinished_refused (by simp [Controller.owns, hactive])]
  · intro reason now _
    exact if_neg (by simp [hactive])

/-- The end of a drain keeps its reason and says by its phase whether that was the deadline. -/
theorem draining_ends (hphase : c.status.phase = .draining) (hdwell : c.dwell.operation ≠ 0)
    (hrequest : c.status.token.request ≠ 0) (hreason : c.status.reason ≠ .none) (now : UInt64) :
    (c.hardwareStopped now).status.reason = c.status.reason ∧
      (c.hardwareStopped now).status.phase = c.cancelledPhase ∧
      (c.status.startedAtUs ≤ now → ∀ cancelled,
        (c.channelFinished c.dwell cancelled now).2.status.reason = c.status.reason ∧
        (c.channelFinished c.dwell cancelled now).2.status.phase = c.cancelledPhase) := by
  have hactive : c.active = true := active_iff.2 (Or.inr (Or.inr hphase))
  refine ⟨?_, ?_, ?_⟩
  · simp [Controller.hardwareStopped, hrequest, hactive, hreason, Controller.endCancellation]
  · simp [Controller.hardwareStopped, hrequest, hactive, hreason, Controller.endCancellation,
      Controller.cancelledPhase]
  · intro hstart cancelled
    have howns : c.owns c.dwell = true := owns_iff.2 ⟨hactive, hdwell, rfl⟩
    have hexpired : (c.expired now).2 = c := by
      unfold Controller.expired
      rw [if_pos (by simp [Controller.draining, hphase])]
    unfold Controller.channelFinished
    rw [if_neg (by simp [howns]), if_neg (by simp [Controller.clockValid, hstart]), hexpired]
    simp [Controller.settle, Controller.draining, hphase, Controller.endCancellation, Controller.cancelledPhase]

end Refused

/-! ## Whole runs -/

section Runs

variable {c c' : Controller} {op : Op} {r : Result} {h : List Record}

theorem exec_outcome {log : List (Event Empty NoCall Empty)} (hout : (exec op c).Outcome log (r, c')) :
    apply op c = (r, c') :=
  wp_outcome (Q := fun _ r c' => apply op c = (r, c')) ((Code.wp_direct _).2 rfl) hout

theorem run_apply (hrun : Run h c) (op : Op) : ∃ h', Run h' (apply op c).2 := by
  have hout : (exec op c).Outcome [] (apply op c) := .done (apply op c)
  exact ⟨_, hrun.call hout⟩

theorem run_sound (hrun : Run h c) : Sound c ∧ Tracked (account h) c ∧ Numbered h c := by
  refine hrun.invariant (P := fun h c => Sound c ∧ Tracked (account h) c ∧ Numbered h c)
    ⟨sound_new, rfl, ?_⟩ ?_
  · exact ⟨List.Pairwise.nil, by simp [requests], List.Pairwise.nil, by simp [dwells], by simp [dwells]⟩
  · rintro h c c' op log r - ⟨hs, ht, hn⟩ hout
    have hstep := apply_stepped hs (exec_outcome hout)
    exact ⟨hs.step hstep, ht.step hstep, hn.step hs hstep⟩

/-- What every use of the controller can rely on. -/
structure Lifecycle (h : List Record) (c : Controller) : Prop where
  drained : c.status.token.request ≠ 0 → (c.status.drained = true ↔ c.dwell.operation = 0)
  admission : ∀ x ∈ h, opening x.op x.result ≠ none →
    x.before.active = false ∧ x.before.dwell.operation = 0
  failed : ∀ later x earlier, h = later ++ x :: earlier → x.after.status.phase = .failed →
    x.after.dwell.operation ≠ 0 → (∀ y ∈ later, ∀ now, y.op ≠ .hardwareStopped now) →
    c = x.after ∧ ∀ y ∈ later, opening y.op y.result = none
  requests : (requests h).Pairwise fun new old => old.token.request < new.token.request
  operations : (dwells h).Pairwise fun new old => old.epoch = new.epoch → old.operation < new.operation
  complete : c.status.phase = .complete → ∃ (q : Request) (visits : List Visit),
    account h = some (q, visits.flatMap (Visit.story q.activeScan)) ∧ c.status.token = q.token ∧
    visits.map Visit.channel = q.plan ∧ c.status.plannedChannels = q.plan.length ∧
    (∀ v ∈ visits, q.now ≤ v.finishedAt ∧ v.finishedAt < c.status.deadlineUs) ∧
    c.status.deadlineUs.toNat = q.now.toNat + timeoutUs.toNat ∧
    c.status.probesSubmitted = if q.activeScan then c.status.plannedChannels else 0
  other : ∀ op : Op, op.Other c → (apply op c).2 = c ∧
    ((apply op c).1 = .flag false ∨ (apply op c).1 = .channel none ∨ (apply op c).1 = .status none)
  draining : ∀ later x earlier, h = later ++ x :: earlier → x.after.status.phase = .draining →
    (∀ y ∈ later, ¬ y.op.Settles x.after.dwell) → c = x.after
  ends : c.status.phase = .draining → ∀ now,
    (c.hardwareStopped now).status.reason = c.status.reason ∧
    (c.hardwareStopped now).status.phase = c.cancelledPhase ∧
    (c.status.startedAtUs ≤ now → ∀ cancelled,
      (c.channelFinished c.dwell cancelled now).2.status.reason = c.status.reason ∧
      (c.channelFinished c.dwell cancelled now).2.status.phase = c.cancelledPhase)

theorem complete_visits (ht : Tracked (account h) c) (hphase : c.status.phase = .complete) : ∃ (q : Request) (visits : List Visit),
    account h = some (q, visits.flatMap (Visit.story q.activeScan)) ∧ c.status.token = q.token ∧
    visits.map Visit.channel = q.plan ∧ c.status.plannedChannels = q.plan.length ∧
    (∀ v ∈ visits, q.now ≤ v.finishedAt ∧ v.finishedAt < c.status.deadlineUs) ∧
    c.status.deadlineUs.toNat = q.now.toNat + timeoutUs.toNat ∧
    c.status.probesSubmitted = if q.activeScan then c.status.plannedChannels else 0 := by
  cases haccount : account h with
  | none =>
      rw [haccount] at ht
      exact absurd (hphase.symm.trans ht) Phase.noConfusion
  | some a =>
      rcases a with ⟨q, ms⟩
      rw [haccount] at ht
      have hf : Follows q ms c := ht
      rcases hf.between (Or.inr hphase) with ⟨visits, ha, rfl, hprobes⟩
      have hlength : visits.length = c.status.plannedChannels := ha.count.trans (hf.all hphase)
      refine ⟨q, visits, rfl, hf.token, ?_, ha.planned, ha.times, ha.deadline, ?_⟩
      · rw [ha.order, hlength, ha.planned, List.take_length]
      · rw [hprobes, hlength]

theorem begin_opening (hs : Sound c) (hout : apply op c = (r, c')) (hopening : opening op r ≠ none) :
    c.active = false ∧ c.dwell.operation = 0 := by
  cases apply_stepped hs hout with
  | opens hactive hdwell => exact ⟨hactive, hdwell⟩
  | stays hno => exact absurd hno hopening
  | leaves hno => exact absurd hno hopening
  | _ => simp [opening] at hopening

theorem foreground_scan_lifecycle (hrun : Run h c) : Lifecycle h c := by
  rcases run_sound hrun with ⟨hs, ht, hn⟩
  -- before a call of the run, the controller was sound as well
  have hbefore : ∀ x ∈ h, Sound x.before := by
    intro x hx
    rcases List.append_of_mem hx with ⟨later, earlier, rfl⟩
    exact (run_sound (Interaction.Run.drop hrun).tail.1).1
  have hadmission : ∀ x ∈ h, opening x.op x.result ≠ none →
      x.before.active = false ∧ x.before.dwell.operation = 0 := fun x hx hopening =>
    begin_opening (hbefore x hx) (exec_outcome (Interaction.Run.outcome hrun hx)) hopening
  refine ⟨?_, hadmission, ?_, hn.requests, hn.operations, complete_visits ht, fun op => apply_other, ?_, ?_⟩
  · intro hrequest
    exact hs.drained fun hnone => hrequest (hs.request.1 hnone)
  · rintro later x earlier rfl hphase hdwell hlater
    have hstill : ∀ y : Record, (∀ now, y.op ≠ .hardwareStopped now) → y.before = x.after →
        (exec y.op y.before).Outcome y.log (y.result, y.after) → y.after = x.after := by
      intro y hop hbefore hout
      rw [hbefore] at hout
      rw [← apply_failed hphase hdwell hop, exec_outcome hout]
    rcases Interaction.Run.stable_while (P := fun s => s = x.after) hstill later rfl hlater hrun with ⟨hc, hall⟩
    refine ⟨hc, fun y hy => ?_⟩
    by_contra hopening
    have hidle := hadmission y (List.mem_append_left _ hy) hopening
    rw [hall y hy] at hidle
    exact hdwell hidle.2
  · rintro later x earlier rfl hphase hlater
    have hstill : ∀ y : Record, ¬ y.op.Settles x.after.dwell → y.before = x.after →
        (exec y.op y.before).Outcome y.log (y.result, y.after) → y.after = x.after := by
      intro y hop hbefore hout
      rw [hbefore] at hout
      rw [← apply_draining hphase hop, exec_outcome hout]
    exact (Interaction.Run.stable_while (P := fun s => s = x.after) hstill later rfl hlater hrun).1
  · intro hphase
    have hrequest : c.status.token.request ≠ 0 := by
      rw [Ne, ← hs.request, hphase]
      exact Phase.noConfusion
    exact draining_ends hphase (hs.away (Or.inr hphase)) hrequest (hs.reason hphase)

def oneChannel : List Op :=
  [.begin { ready := true, stationIdle := true, protocolIdle := true, activeAllowed := true } true 1 10
      (some [⟨.ghz2, 6⟩]) 120,
    .accepted ⟨1, 1⟩, .requestProbe ⟨1, 1⟩ ⟨.ghz2, 6⟩, .submittedProbe ⟨1, 1⟩, .completedProbe ⟨1, 1⟩,
    .channelFinished ⟨1, 1⟩ false 20, .complete ⟨1, 1⟩ 30]

theorem foreground_scan_lifecycle_oneChannel :
    ∃ h c, Run h c ∧ c.status.phase = .complete ∧ c.status.token.request = 1 ∧ c.status.drained = true ∧
      c.dwell.operation = 0 ∧
      account h = some (⟨⟨1, 1⟩, [⟨.ghz2, 6⟩], true, 10⟩,
        Visit.story true ⟨⟨1, 1⟩, ⟨.ghz2, 6⟩, 20⟩) ∧
      c.status.probesSubmitted = 1 ∧
      ∃ (q : Request) (visits : List Visit),
        account h = some (q, visits.flatMap (Visit.story q.activeScan)) ∧
        visits.map Visit.channel = q.plan := by
  have hrun := replay_run exec (fun c (_ : Unit) => c.elim) oneChannel {} ()
  refine ⟨_, _, hrun, by decide +kernel, by decide +kernel, by decide +kernel, ?_, by decide +kernel,
    by decide +kernel, ?_⟩
  · exact ((foreground_scan_lifecycle hrun).drained (by decide +kernel)).1 (by decide +kernel)
  · rcases (foreground_scan_lifecycle hrun).complete (by decide +kernel) with ⟨q, visits, hms, -, hplan, -⟩
    exact ⟨q, visits, hms, hplan⟩

end Runs

end ForegroundScan
end Rtl8852be
