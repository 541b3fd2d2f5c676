import Rtl8852be.Interaction.Triple
import Rtl8852be.Firmware.FirmwarePackets

/-!
# FirmwareTransfer — sending the packets of a firmware image

`FirmwareTransfer.hpp`.  The backend owns the device and the packet buffers; `transfer` decides what it
has to do and when.  The steps of the transfer are left at the first failure, and then the buffers are
released, unless the device may still use them.

A packet set is known to the transfer by its number of packets.
-/

namespace Rtl8852be
namespace Transport

open Interaction

/-! ## Types -/

inductive Phase
  | idle
  | waitH2c
  | header
  | waitDownload
  | clearHalt
  | sections
  | waitReady
  | drain
  | quiesce
  | done
  deriving DecidableEq, Repr

inductive TransferStatus
  | notRun
  | complete
  | invalidPlan
  | prepareFailed
  | startFailed
  | clockInvalid
  | timeout
  | cancelled
  | registerInvalid
  | checksumFailed
  | securityFailed
  | cutMismatch
  | submitFailed
  | clearFailed
  | indexInvalid
  | staleReady
  | quiesceFailed
  | releaseFailed
  deriving DecidableEq, Repr

structure TransferResult where
  status : TransferStatus := .notRun
  operationStatus : TransferStatus := .notRun
  phase : Phase := .idle
  failedPhase : Phase := .idle
  submitted : ℕ := 0
  attempted : ℕ := 0
  polls : ℕ := 0
  lastControl : UInt8 := 0
  lastIndex : UInt32 := 0
  elapsedUs : UInt64 := 0
  cleanupAttempted : Bool := false
  quiesced : Bool := false
  buffersReleased : Bool := false
  retainBuffers : Bool := false
  deriving DecidableEq

/-- The result so far, and the local variables of `transfer`. -/
structure Transfer where
  result : TransferResult := {}
  start : UInt64 := 0
  previous : UInt64 := 0
  prepared : Bool := false
  startAttempted : Bool := false

/-! ## The backend -/

/-- Where the clock is read: when the transfer begins, in `check`, and when a loop with a time limit
begins.  The backend does not see this. -/
inductive Sample
  | start
  | check
  | begin
  deriving DecidableEq, Repr

inductive Call
  | nowUs (site : Sample)
  | cancelled
  | prepare
  | startDownload
  | readControl
  | readIndex
  | delayUs
  | publish (index : ℕ)
  | clearHaltControls
  | quiesceAndProveIdle
  | releaseAll
  deriving DecidableEq

@[reducible] def Reply : Call → Type
  | .nowUs _ => UInt64
  | .cancelled => Bool
  | .prepare => Bool
  | .startDownload => Bool
  | .readControl => UInt8
  | .readIndex => UInt32
  | .delayUs => Unit
  | .publish _ => Bool
  | .clearHaltControls => Bool
  | .quiesceAndProveIdle => Bool
  | .releaseAll => Bool

abbrev TraceEvent := Event Call Reply Empty

abbrev Trace := List TraceEvent

abbrev Gated := Code Transfer Call Reply Empty

def nowUs (site : Sample) : Gated UInt64 := Code.ask (Call.nowUs site)

def readControl : Gated UInt8 := Code.ask Call.readControl

def readIndex : Gated UInt32 := Code.ask Call.readIndex

/-! ## The transfer -/

/-- The firmware state in a control byte. -/
def firmwareState (c : UInt8) : UInt8 := (c >>> 5) &&& 7

def controlError (c : UInt8) : TransferStatus :=
  if c = 0xff then .registerInvalid
  else if firmwareState c = 2 then .checksumFailed
  else if firmwareState c = 3 then .securityFailed
  else if firmwareState c = 4 then .cutMismatch
  else .notRun

def setStatus (status : TransferStatus) : Gated Unit :=
  modify fun s => { s with result := { s.result with status := status } }

def setPhase (phase : Phase) : Gated Unit :=
  modify fun s => { s with result := { s.result with phase := phase } }

/-- `r.status = status; break;` -/
def give (status : TransferStatus) : Gated Bool := do
  setStatus status
  return false

def check : Gated Bool := do
  let now ← nowUs .check
  let s ← get
  if now < s.previous then
    give .clockInvalid
  else do
    modify fun s => { s with
      previous := now
      result := { s.result with elapsedUs := now - s.start } }
    let cancelled ← Code.ask .cancelled
    if cancelled then
      give .cancelled
    else if 5000000 ≤ now - s.start then
      give .timeout
    else
      return true

/-- The limit of a loop that began at `begin`. -/
def inTime (begin : UInt64) : Gated Bool := do
  let s ← get
  if s.previous < begin ∨ 400000 ≤ s.previous - begin then
    give .timeout
  else
    return true

/-- `readControl`, counted. -/
def pollControl : Gated UInt8 := do
  let control ← readControl
  modify fun s => { s with
    result := { s.result with lastControl := control, polls := s.result.polls + 1 } }
  return control

def pollIndex : Gated UInt32 := do
  let index ← readIndex
  modify fun s => { s with
    result := { s.result with lastIndex := index, polls := s.result.polls + 1 } }
  return index

/-- What `wait` is waiting for: a bit on the way to the download, or firmware state 7 at its end. -/
def awaited (path : Bool) (bit control : UInt8) : Bool :=
  if path then (control &&& bit) != 0 else firmwareState control == 7

/-- The loop of `wait`, with so many rounds left. -/
def waitFrom (path : Bool) (bit : UInt8) (begin : UInt64) : ℕ → Gated Bool
  | 0 => give .timeout
  | rounds + 1 =>
      Code.both check <| Code.both (inTime begin) <| do
        let control ← pollControl
        Code.both check <| Code.both (inTime begin) <|
          if controlError control ≠ .notRun then
            give (controlError control)
          else if path ∧ firmwareState control = 7 then
            give .staleReady
          else if awaited path bit control then
            return true
          else if rounds ≠ 0 then do
            let _ ← Code.ask .delayUs
            waitFrom path bit begin rounds
          else
            waitFrom path bit begin rounds

def wait (path : Bool) (bit : UInt8) : Gated Bool := do
  let begin ← nowUs .begin
  waitFrom path bit begin 8001

def prepare : Gated Bool := do
  modify fun s => { s with prepared := true }
  let ok ← Code.ask .prepare
  if ok then
    return true
  else
    give .prepareFailed

def startDownload : Gated Bool := do
  modify fun s => { s with startAttempted := true }
  let ok ← Code.ask .startDownload
  if ok then
    return true
  else
    give .startFailed

/-- `publish`, counted before and after. -/
def publish (index : ℕ) : Gated Bool := do
  modify fun s => { s with result := { s.result with attempted := s.result.attempted + 1 } }
  let ok ← Code.ask (.publish index)
  if ok then do
    modify fun s => { s with result := { s.result with submitted := s.result.submitted + 1 } }
    return true
  else
    give .submitFailed

def clearHalt : Gated Bool := do
  let ok ← Code.ask .clearHaltControls
  if ok then
    return true
  else
    give .clearFailed

/-- The loop over the section packets: `n` more, the next one with this index.  Whatever breaks it has set
the status that is tested after the loop. -/
def sectionsFrom : ℕ → ℕ → Gated Bool
  | 0, _ => pure true
  | n + 1, index => Code.both check <| Code.both (publish index) (sectionsFrom n (index + 1))

/-- `AX` firmware needs a settling delay before its readiness poll. -/
def settle : ℕ → Gated Bool
  | 0 => pure true
  | n + 1 => Code.both check <| do
      let _ ← Code.ask .delayUs
      settle n

def hostIndex (index : UInt32) : UInt32 := index &&& 0xfff

def hardwareIndex (index : UInt32) : UInt32 := (index >>> 16) &&& 0xfff

/-- The index register does not fit a batch of so many packets. -/
def badIndex (count : ℕ) (index : UInt32) : Bool :=
  index == 0xffffffff || index == 0xdeadbeef || (hostIndex index).toNat != count ||
    decide (count < (hardwareIndex index).toNat)

/-- The loop that waits until the hardware has consumed the batch. -/
def drainFrom (count : ℕ) (begin : UInt64) : ℕ → Gated Bool
  | 0 => give .timeout
  | rounds + 1 =>
      Code.both check <| Code.both (inTime begin) <| do
        let index ← pollIndex
        Code.both check <| Code.both (inTime begin) <|
          if badIndex count index then
            give .indexInvalid
          else if (hardwareIndex index).toNat = count then
            return true
          else if rounds ≠ 0 then do
            let _ ← Code.ask .delayUs
            drainFrom count begin rounds
          else
            drainFrom count begin rounds

def drain (count : ℕ) : Gated Bool := do
  let begin ← nowUs .begin
  drainFrom count begin 8001

def inPhase (phase : Phase) (m : Gated Bool) : Gated Bool := do
  setPhase phase
  m

def complete : Gated Bool := do
  setStatus .complete
  return true

/-- The body that a `break` leaves. -/
def steps (count : ℕ) : List (Gated Bool) :=
  [check, prepare, check, startDownload,
    inPhase .waitH2c (wait true 2), inPhase .header (publish 1),
    inPhase .waitDownload (wait true 4), inPhase .clearHalt check, clearHalt,
    inPhase .sections (sectionsFrom (count - 1) 2),
    inPhase .waitReady (settle 100), wait false 0,
    inPhase .drain (drain count), complete]

/-- Let go of the buffers if the device is known not to use them. -/
def releaseBuffers (quiesced : Bool) : Gated Unit := do
  modify fun s => { s with result := { s.result with quiesced := quiesced } }
  if quiesced then do
    let released ← Code.ask .releaseAll
    modify fun s => { s with result := { s.result with buffersReleased := released } }
    if released then
      return ()
    else
      modify fun s => { s with
        result := { s.result with retainBuffers := true, status := .releaseFailed } }
  else
    modify fun s => { s with
      result := { s.result with retainBuffers := true, status := .quiesceFailed } }

def cleanup : Gated Unit := do
  modify fun s => { s with result := { s.result with cleanupAttempted := true, phase := .quiesce } }
  let s ← get
  if s.startAttempted then do
    let quiesced ← Code.ask .quiesceAndProveIdle
    releaseBuffers quiesced
  else
    releaseBuffers true

/-- The result of the steps, before the buffers are let go. -/
def operationDone : Gated Unit :=
  modify fun s => { s with result := { s.result with
    failedPhase := if s.result.status = .complete then .idle else s.result.phase
    operationStatus := s.result.status } }

def transfer (count : ℕ) : Gated TransferResult := do
  if count = 0 ∨ maxPackets < count then
    setStatus .invalidPlan
    return (← get).result
  else
    let start ← nowUs .start
    modify fun s => { s with start := start, previous := start }
    let _ ← Code.every (steps count)
    operationDone
    if (← get).prepared then
      cleanup
    setPhase .done
    return (← get).result

end Transport
end Rtl8852be
