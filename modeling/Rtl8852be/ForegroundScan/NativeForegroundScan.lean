import Rtl8852be.NativeScan.NativeScanCache

/-!
# NativeForegroundScan — one foreground scan at a time

`NativeForegroundScan.hpp`.  A request visits the channels of its plan one after the other.  Each visit is
a dwell, which the hardware accepts and finishes; an active scan sends one probe during it.  A request
that is cancelled while a dwell is outstanding drains until the hardware reports the end of that dwell.
-/

namespace Rtl8852be
namespace ForegroundScan

open Interaction NativeScan

/-! ## Types -/

def timeoutUs : UInt64 := 120000000

structure Token where
  epoch : UInt64 := 0
  request : UInt64 := 0
  deriving DecidableEq, Repr

structure Dwell where
  epoch : UInt64 := 0
  operation : UInt64 := 0
  deriving DecidableEq, Repr

inductive Phase
  | none
  | queued
  | scanning
  | draining
  | complete
  | cancelled
  | timedOut
  | failed
  deriving DecidableEq, Repr

inductive Reason
  | none
  | caller
  | selection
  | disabled
  | shutdown
  | timeout
  | backend
  | observation
  | protocol
  | clock
  | probe
  deriving DecidableEq, Repr

inductive Admission
  | accepted
  | busy
  | notReady
  | unsupported
  | invalid
  deriving DecidableEq, Repr

structure Readiness where
  ready : Bool := false
  stationIdle : Bool := false
  protocolIdle : Bool := false
  connected : Bool := false
  pendingJoin : Bool := false
  legacyCredentials : Bool := false
  otherWork : Bool := false
  activeAllowed : Bool := false
  deriving DecidableEq

structure Status where
  token : Token := {}
  snapshot : NativeScan.Token := {}
  startedAtUs : UInt64 := 0
  deadlineUs : UInt64 := 0
  finishedAtUs : UInt64 := 0
  plannedChannels : ℕ := 0
  completedChannels : ℕ := 0
  probesSubmitted : ℕ := 0
  dwellMs : UInt16 := 0
  activeScan : Bool := false
  phase : Phase := .none
  reason : Reason := .none
  drained : Bool := false
  deriving DecidableEq

structure Controller where
  channels : ℕ → Channel := fun _ => {}
  status : Status := {}
  dwell : Dwell := {}
  serial : UInt64 := 0
  epoch : UInt64 := 0
  lastOperation : UInt64 := 0
  probeRequested : Bool := false
  probeSubmitted : Bool := false
  probeCompleted : Bool := false

namespace Controller

/-! ## Queries -/

def cancelledPhase (c : Controller) : Phase := if c.status.reason = .timeout then .timedOut else .cancelled

def active (c : Controller) : Bool :=
  c.status.phase == .queued || c.status.phase == .scanning || c.status.phase == .draining

def draining (c : Controller) : Bool := c.status.phase == .draining

def owns (c : Controller) (token : Dwell) : Bool := c.active && c.dwell.operation != 0 && c.dwell == token

def observing (c : Controller) (token : Dwell) : Bool := c.status.phase == .scanning && c.owns token

def next (c : Controller) : Option Channel :=
  if c.status.phase ≠ .queued ∨ c.dwell.operation ≠ 0 ∨
      c.status.plannedChannels ≤ c.status.completedChannels then
    none
  else
    some (c.channels c.status.completedChannels)

def pendingProbe (c : Controller) (operation : Dwell) : Option Channel :=
  if !c.observing operation || !c.status.activeScan || !c.probeRequested || c.probeSubmitted then
    none
  else
    some (c.channels c.status.completedChannels)

def clockValid (c : Controller) (now : UInt64) : Bool := !c.active || decide (c.status.startedAtUs ≤ now)

def readyToFinish (c : Controller) : Bool :=
  c.status.phase == .queued && c.status.plannedChannels != 0 &&
    c.status.completedChannels == c.status.plannedChannels && c.dwell.operation == 0

def copy (c : Controller) (token : Token) : Option Status :=
  if token.request = 0 ∨ token ≠ c.status.token then none else some c.status

/-! ## Transitions -/

def endCancellation (c : Controller) (now : UInt64) : Controller :=
  { c with
    status := { c.status with phase := c.cancelledPhase, drained := true, finishedAtUs := now }
    dwell := {} }

def begun (c : Controller) (activeScan : Bool) (epoch now : UInt64) (plan : List Channel)
    (dwellMs : UInt16) : Controller :=
  { c with
    lastOperation := if epoch ≠ c.epoch then 0 else c.lastOperation
    epoch := epoch
    serial := c.serial + 1
    status := {
      token := ⟨epoch, c.serial + 1⟩
      startedAtUs := now
      deadlineUs := now + timeoutUs
      plannedChannels := plan.length
      dwellMs := dwellMs
      phase := .queued
      drained := true
      activeScan := activeScan }
    dwell := {}
    probeRequested := false
    probeSubmitted := false
    probeCompleted := false
    channels := fun i => if i < plan.length then plan.getD i {} else c.channels i }

/-- A null plan is `none`; otherwise its length is the `count` of the caller.  The nested loops are those
of `Store::plan`. -/
def begin (c : Controller) (r : Readiness) (activeScan : Bool) (epoch now : UInt64)
    (plan : Option (List Channel)) (dwellMs : UInt16) : Admission × Controller :=
  if activeScan && !r.activeAllowed then
    (.unsupported, c)
  else if !r.ready then
    (.notReady, c)
  else if c.active || c.dwell.operation != 0 || r.connected || r.pendingJoin || r.legacyCredentials ||
      r.otherWork || !r.stationIdle || !r.protocolIdle then
    (.busy, c)
  else
    match plan with
    | none => (.invalid, c)
    | some cs =>
        if epoch = 0 ∨ epoch < c.epoch ∨ c.serial = 0xffffffffffffffff ∨ cs = [] ∨ dwellMs < 10 ∨
            1000 < dwellMs ∨ maxChannels < cs.length ∨ (0xffffffffffffffff : UInt64) - now < timeoutUs ∨
            Store.validPlan cs = false then
          (.invalid, c)
        else
          (.accepted, c.begun activeScan epoch now cs dwellMs)

def accepted (c : Controller) (operation : Dwell) : Bool × Controller :=
  if c.next = none ∨ operation.epoch ≠ c.status.token.epoch ∨ operation.operation = 0 ∨
      operation.operation ≤ c.lastOperation then
    (false, c)
  else
    (true, { c with
      lastOperation := operation.operation
      dwell := operation
      probeRequested := false
      probeSubmitted := false
      probeCompleted := false
      status := { c.status with phase := .scanning, drained := false } })

def requestProbe (c : Controller) (operation : Dwell) (channel : Channel) : Bool × Controller :=
  if !c.observing operation || !c.status.activeScan || c.probeRequested ||
      channel != c.channels c.status.completedChannels then
    (false, c)
  else
    (true, { c with probeRequested := true })

def submittedProbe (c : Controller) (operation : Dwell) : Bool × Controller :=
  if c.pendingProbe operation = none then
    (false, c)
  else
    (true, { c with
      probeSubmitted := true
      status := { c.status with probesSubmitted := c.status.probesSubmitted + 1 } })

def completedProbe (c : Controller) (operation : Dwell) : Bool × Controller :=
  if !c.observing operation || !c.status.activeScan || !c.probeSubmitted || c.probeCompleted then
    (false, c)
  else
    (true, { c with probeCompleted := true })

/-- The last three statements of `cancel`. -/
def abandon (c : Controller) (reason : Reason) (now : UInt64) : Controller :=
  let c := { c with status := { c.status with reason := reason, snapshot := {} } }
  if c.dwell.operation ≠ 0 then
    { c with status := { c.status with phase := .draining } }
  else
    c.endCancellation now

def cancel (c : Controller) (token : Token) (reason : Reason) (now : UInt64) : Bool × Controller :=
  if !c.active || token != c.status.token || reason == .none then
    (false, c)
  else if c.status.phase = .draining then
    (true, c)
  else
    (true, c.abandon reason now)

def expired (c : Controller) (now : UInt64) : Bool × Controller :=
  if !c.active || c.draining || decide (now < c.status.deadlineUs) then
    (false, c)
  else
    c.cancel c.status.token .timeout now

def fail (c : Controller) (reason : Reason) (now : UInt64) : Controller :=
  if c.active then
    { c with
      status := { c.status with
        reason := reason
        phase := .failed
        snapshot := {}
        drained := c.dwell.operation == 0
        finishedAtUs := now } }
  else
    c

/-- `channelFinished`, after the deadline was looked at. -/
def settle (c : Controller) (cancelled : Bool) (now : UInt64) : Controller :=
  let c := { c with dwell := {}, status := { c.status with drained := true } }
  if c.draining then
    c.endCancellation now
  else if cancelled then
    { c with status := { c.status with reason := .backend } }.endCancellation now
  else if c.status.activeScan && !c.probeCompleted then
    c.fail .probe now
  else
    { c with
      status := { c.status with completedChannels := c.status.completedChannels + 1, phase := .queued } }

def channelFinished (c : Controller) (operation : Dwell) (cancelled : Bool) (now : UInt64) :
    Bool × Controller :=
  if !c.owns operation then
    (false, c)
  else if !c.clockValid now then
    (true, c.fail .clock now)
  else
    (true, (c.expired now).2.settle cancelled now)

def complete (c : Controller) (snapshot : NativeScan.Token) (now : UInt64) : Bool × Controller :=
  if !c.readyToFinish || snapshot.generation == 0 || snapshot.epoch != c.status.token.epoch ||
      !c.clockValid now || decide (c.status.deadlineUs ≤ now) then
    (false, c)
  else
    (true, { c with
      status := { c.status with
        snapshot := snapshot
        phase := .complete
        drained := true
        finishedAtUs := now } })

def hardwareStopped (c : Controller) (now : UInt64) : Controller :=
  if c.status.token.request = 0 then
    c
  else if c.active then
    { c with
      status := { c.status with
        reason := if c.status.reason = Reason.none then .shutdown else c.status.reason } }.endCancellation now
  else if c.status.phase = .failed then
    { c with dwell := {}, status := { c.status with drained := true } }
  else
    c

end Controller

/-! ## Calls -/

inductive Op
  | begin (r : Readiness) (activeScan : Bool) (epoch now : UInt64) (plan : Option (List Channel))
      (dwellMs : UInt16)
  | next
  | accepted (operation : Dwell)
  | requestProbe (operation : Dwell) (channel : Channel)
  | pendingProbe (operation : Dwell)
  | submittedProbe (operation : Dwell)
  | completedProbe (operation : Dwell)
  | cancel (token : Token) (reason : Reason) (now : UInt64)
  | expired (now : UInt64)
  | channelFinished (operation : Dwell) (cancelled : Bool) (now : UInt64)
  | complete (snapshot : NativeScan.Token) (now : UInt64)
  | fail (reason : Reason) (now : UInt64)
  | hardwareStopped (now : UInt64)
  | copy (token : Token)

/-- What a call returns.  The status that `begin` and `copy` leave in `out` is all zero where they fail. -/
inductive Result
  | admission (a : Admission) (out : Status)
  | flag (ok : Bool)
  | channel (c : Option Channel)
  | status (out : Option Status)
  | nothing
  deriving DecidableEq

def apply : Op → Controller → Result × Controller
  | .begin r activeScan epoch now plan dwellMs, c =>
      let (a, c') := c.begin r activeScan epoch now plan dwellMs
      (.admission a (if a = .accepted then c'.status else {}), c')
  | .next, c => (.channel c.next, c)
  | .accepted operation, c => (c.accepted operation).map .flag id
  | .requestProbe operation channel, c => (c.requestProbe operation channel).map .flag id
  | .pendingProbe operation, c => (.channel (c.pendingProbe operation), c)
  | .submittedProbe operation, c => (c.submittedProbe operation).map .flag id
  | .completedProbe operation, c => (c.completedProbe operation).map .flag id
  | .cancel token reason now, c => (c.cancel token reason now).map .flag id
  | .expired now, c => (c.expired now).map .flag id
  | .channelFinished operation cancelled now, c =>
      (c.channelFinished operation cancelled now).map .flag id
  | .complete snapshot now, c => (c.complete snapshot now).map .flag id
  | .fail reason now, c => (.nothing, c.fail reason now)
  | .hardwareStopped now, c => (.nothing, c.hardwareStopped now)
  | .copy token, c => (.status (c.copy token), c)

def exec (op : Op) : Code Controller Empty NoCall Empty Result := Code.direct (apply op)

abbrev Record := Interaction.Record Controller Empty NoCall Empty Op Result

/-- Any calls, with any arguments, from a new controller. -/
abbrev Run : List Record → Controller → Prop := Interaction.Run exec {}

end ForegroundScan
end Rtl8852be
