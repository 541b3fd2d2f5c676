import Rtl8852be.Interaction.Checks
import Rtl8852be.Interaction.History

/-!
# RadioBootSequence — the order of calibrations

`RadioBootSequence.hpp`.  One machine drives every operation on the radio: the initialization after boot,
tuning, and the three operations of a scan.  An operation is a list of steps.  For each of them a lease is
requested and awaited, the calibration is run under the lease, and the lease is given back and its
restoration awaited.

The backend is not reentrant: nothing that it does calls into the sequence.
-/

namespace Rtl8852be
namespace RadioBoot

open Interaction

/-! ## Types -/

inductive Step
  | rck
  | dack
  | initialRxDc
  | channel
  | rxDc
  | iqk
  | tssi
  | dpk
  | scanBegin
  | scanTune
  | scanEnd
  deriving DecidableEq, Repr

inductive Action
  | initialization
  | tune
  | scanBegin
  | scanTune
  | scanEnd
  deriving DecidableEq, Repr

inductive Progress
  | pending
  | complete
  | failed
  deriving DecidableEq

inductive Stage
  | idle
  | upload
  | btInitialization
  | acquire
  | run
  | restore
  | ready
  | fault
  | stopped
  deriving DecidableEq, Repr

inductive Error
  | none
  | ownership
  | clock
  | timeout
  | backend
  | cancelled
  deriving DecidableEq, Repr

structure Result where
  stage : Stage := .idle
  error : Error := .none
  step : Step := .rck
  completion : UInt64 := 0
  initialized : Bool := false
  tuned : Bool := false
  fullCalibration : Bool := false
  scanning : Bool := false
  requiresRecovery : Bool := false
  deriving DecidableEq

structure Sequence where
  result : Result := {}
  started : UInt64 := 0
  last : UInt64 := 0
  active : Bool := false
  action : Action := .initialization
  index : ℕ := 0
  deriving DecidableEq

/-- What the sequence asks of its backend. -/
inductive Call
  | inGate
  | healthy
  | failed
  | pause
  | prepare
  | upload
  | startBt
  | pollBt
  | requestLease (step : Step)
  | pollLease
  | run (step : Step)
  | finishLease
  | pollRestore
  | finishOperation (action : Action)
  deriving DecidableEq

abbrev Reply : Call → Type
  | .upload | .pollBt | .pollLease | .pollRestore => Progress
  | .failed => Unit
  | _ => Bool

abbrev Gated := Code Sequence Call Reply Empty

abbrev Trace := List (Event Call Reply Empty)

/-! ## Checks -/

def Sequence.busy (s : Sequence) : Bool :=
  s.result.stage != .idle && s.result.stage != .ready && s.result.stage != .fault &&
    s.result.stage != .stopped

/-- The enumerators in the order of their values.  No value beyond the last one is ever converted. -/
def Step.ofIndex (i : ℕ) : Step :=
  [.rck, .dack, .initialRxDc, .channel, .rxDc, .iqk, .tssi, .dpk, .scanBegin, .scanTune].getD i .scanEnd

def Action.limitUs (a : Action) : UInt64 := if a = .initialization ∨ a = .tune then 10000000 else 2000000

def Action.count : Action → ℕ
  | .initialization => 3
  | .tune => 5
  | .scanTune => 2
  | _ => 1

/-- The step that `acquire` requests. -/
def Sequence.next (s : Sequence) : Step :=
  match s.action with
  | .initialization => Step.ofIndex s.index
  | .tune => Step.ofIndex (3 + s.index)
  | .scanTune => if s.index ≠ 0 then .scanTune else .channel
  | .scanBegin => .scanBegin
  | .scanEnd => .scanEnd

def Sequence.failing (s : Sequence) (e : Error) : Sequence :=
  { s with
    result := { s.result with
      error := if s.result.error = .none then e else s.result.error
      stage := .fault
      tuned := false
      fullCalibration := false
      requiresRecovery := true } }

def fail (e : Error) : Gated Bool := do
  modify fun s => s.failing e
  Code.ask Call.failed
  return false

def check (now : UInt64) : Gated Bool := do
  let s ← get
  if ← Code.ask Call.inGate then
    if now < s.last then
      fail .clock
    else do
      modify fun s => { s with last := now }
      if s.result.stage = .fault ∨ s.result.stage = .stopped then
        return false
      else if s.busy ∧ s.action.limitUs ≤ now - s.started then
        fail .timeout
      else if ← Code.ask Call.healthy then
        return true
      else
        fail .backend
  else
    fail .ownership

/-- `Guard`: `active` is reset however its owner leaves. -/
def guarded (body : Gated Bool) : Gated Bool := do
  modify fun s => { s with active := true }
  let ok ← body
  modify fun s => { s with active := false }
  return ok

/-- The `result.error != Error::none` that follows a call into the backend. -/
def clean (ok : Bool) : Gated Bool := do
  let s ← get
  return ok && s.result.error == .none

def Sequence.inStage (s : Sequence) (stage : Stage) : Sequence :=
  { s with result := { s.result with stage := stage } }

def enter (stage : Stage) : Gated Bool := do
  modify fun s => s.inStage stage
  return true

def acquire : Gated Bool := do
  modify fun s => { s with result := { s.result with step := s.next } }
  let s ← get
  let ok ← Code.ask (Call.requestLease s.result.step)
  if ← clean ok then
    enter .acquire
  else
    fail .backend

/-! ## Operations -/

def begin (now : UInt64) : Gated Bool := do
  let s ← get
  if s.result.stage ≠ .idle ∨ s.active then
    return false
  else if ← check now then
    guarded do
      modify fun s => { s with started := now }
      let ok ← Code.both (Code.ask Call.pause) (Code.ask Call.prepare)
      if ← clean ok then
        enter .upload
      else
        fail .backend
  else
    return false

def Result.refuses (r : Result) (a : Action) : Bool :=
  a == .initialization || a == .tune && r.scanning ||
    a == .scanBegin && (!r.fullCalibration || r.scanning) ||
      (a == .scanTune || a == .scanEnd) && !r.scanning

/-- The state in which the first step of an action is requested. -/
def Sequence.launched (s : Sequence) (a : Action) (now : UInt64) : Sequence :=
  { s with
    started := now
    action := a
    index := 0
    result := { s.result with tuned := false, fullCalibration := false } }

def launch (a : Action) (now : UInt64) : Gated Bool := do
  let s ← get
  if s.result.stage ≠ .ready ∨ !s.result.initialized ∨ s.active then
    return false
  else if s.result.refuses a then
    return false
  else if ← check now then
    guarded do
      modify fun s => s.launched a now
      let ok ← Code.ask Call.pause
      if ← clean ok then
        acquire
      else
        fail .backend
  else
    return false

/-- What `service` does after its last backend call. -/
def settle : Gated Bool := do
  let s ← get
  if s.result.error ≠ .none then do
    modify fun s => s.inStage .fault
    return false
  else
    return true

/-- The state after the last restoration of an operation. -/
def Sequence.completed (s : Sequence) : Sequence :=
  { s with
    result := { s.result with
      initialized := true
      tuned := s.action ≠ .initialization
      fullCalibration := s.action = .tune ∨ s.action = .scanEnd
      scanning := if s.action = .scanBegin then true else if s.action = .scanEnd then false
        else s.result.scanning
      stage := .ready
      completion := s.result.completion + 1 } }

/-- The state machine of `service`, with the stage it found. -/
def advance : Stage → Gated Bool
  | .upload => do
      let p : Progress ← Code.ask Call.upload
      match p with
      | .failed => fail .backend
      | .pending => settle
      | .complete =>
          if ← Code.ask Call.startBt then do
            let _ ← enter .btInitialization
            settle
          else
            fail .backend
  | .btInitialization => do
      let p : Progress ← Code.ask Call.pollBt
      match p with
      | .failed => fail .backend
      | .pending => settle
      | .complete => do
          modify fun s => { s with index := 0 }
          Code.both acquire settle
  | .acquire => do
      let p : Progress ← Code.ask Call.pollLease
      match p with
      | .failed => fail .backend
      | .pending => settle
      | .complete => do
          let _ ← enter .run
          settle
  | .run => do
      let s ← get
      if ← Code.both (Code.ask (Call.run s.result.step)) (Code.ask Call.finishLease) then do
        let _ ← enter .restore
        settle
      else
        fail .backend
  | .restore => do
      let p : Progress ← Code.ask Call.pollRestore
      match p with
      | .failed => fail .backend
      | .pending => settle
      | .complete => do
          modify fun s => { s with index := s.index + 1 }
          let s ← get
          if s.index < s.action.count then
            Code.both acquire settle
          else if ← Code.ask (Call.finishOperation s.action) then do
            modify Sequence.completed
            settle
          else
            fail .backend
  | .idle | .ready => settle
  | .fault | .stopped => return false

def service (now : UInt64) : Gated Bool := do
  let s ← get
  if s.active then
    fail .ownership
  else if ← check now then
    guarded do
      let s ← get
      advance s.result.stage
  else
    return false

def stop : Gated Bool := do
  let s ← get
  if s.active then
    fail .ownership
  else do
    Code.ask Call.failed
    modify fun s =>
      { s with result := { s.result with tuned := false, fullCalibration := false, stage := .stopped } }
    return true

/-! ## Calls -/

inductive Op
  | begin (now : UInt64)
  | launch (action : Action) (now : UInt64)
  | service (now : UInt64)
  | stop
  deriving DecidableEq

def exec : Op → Gated Bool
  | .begin now => begin now
  | .launch action now => launch action now
  | .service now => service now
  | .stop => stop

abbrev Record := Interaction.Record Sequence Call Reply Empty Op Bool

/-- Any calls, with any arguments, from a new sequence. -/
abbrev Run : List Record → Sequence → Prop := Interaction.Run exec {}

end RadioBoot
end Rtl8852be
