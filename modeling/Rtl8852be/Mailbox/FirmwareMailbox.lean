import Rtl8852be.Interaction.Triple
import Rtl8852be.Interaction.History

/-!
# FirmwareMailbox — requests and replies in registers

`FirmwareMailbox.hpp`.  The host writes a request into four registers, counts it, and triggers it; the
firmware answers in four others.  One object owns the mailbox of a device.  Whatever goes wrong in the
middle of an exchange leaves the mailbox in a fault from which it does not recover.
-/

namespace Rtl8852be
namespace Mail

open Interaction

/-! ## Registers -/

/-- A mailbox has a first word. -/
scoped instance firstWord : NeZero 4 := ⟨by decide⟩

def h2cData (i : Fin 4) : UInt32 := 0x8140 + 4 * UInt32.ofNat i

def c2hData (i : Fin 4) : UInt32 := 0x8150 + 4 * UInt32.ofNat i

def h2cControl : UInt32 := 0x8160

def c2hControl : UInt32 := 0x8164

def hostCounters : UInt32 := 0x1f5

def firmwareControl : UInt32 := 0x1e0

def schedulerTx : UInt32 := 0xc348

def schedulerCommand : UInt8 := 5

def schedulerReply : UInt8 := 4

/-! ## Types -/

inductive MailError
  | none
  | invalid
  | ownership
  | io
  | timeout
  | clock
  | cancelled
  | staleReply
  | malformedReply
  | unexpectedReply
  | readback
  deriving DecidableEq, Repr

structure Request where
  function : UInt8 := 0
  contentBytes : UInt8 := 0
  words : Fin 4 → UInt32 := fun _ => 0

structure MailReply where
  words : Fin 4 → UInt32 := fun _ => 0
  function : UInt8 := 0
  contentBytes : UInt8 := 0
  sequence : UInt8 := 0
  ack : Bool := false

structure MailResult where
  error : MailError := .none
  address : UInt32 := 0
  value : UInt32 := 0
  operations : ℕ := 0
  polls : ℕ := 0
  triggerAttempted : Bool := false
  replyCaptured : Bool := false
  replyAcknowledged : Bool := false
  stateUncertain : Bool := false
  reply : MailReply := {}

/-- The class `Mailbox`. -/
structure Mailbox where
  active : Bool := false
  faulted : Bool := false
  paused : Bool := false
  savedTx : UInt16 := 0
  begin : UInt64 := 0
  previous : UInt64 := 0
  clockStarted : Bool := false
  result : MailResult := {}

/-- The template parameter `Io`.  A read says whether it succeeded and what it left in the variable. -/
inductive Call
  | inGate
  | cancelled
  | nowUs
  | read8 (a : UInt32)
  | read16 (a : UInt32)
  | read32 (a : UInt32)
  | write8 (a : UInt32) (v : UInt8)
  | write32 (a : UInt32) (v : UInt32)
  | delayUs (us : ℕ)
  deriving DecidableEq

@[reducible] def Reply : Call → Type
  | .inGate => Bool
  | .cancelled => Bool
  | .nowUs => UInt64
  | .read8 _ => Bool × UInt8
  | .read16 _ => Bool × UInt16
  | .read32 _ => Bool × UInt32
  | .write8 _ _ => Bool
  | .write32 _ _ => Bool
  | .delayUs _ => Bool

abbrev TraceEvent := Event Call Reply Empty

abbrev Trace := List TraceEvent

abbrev Gated := Code Mailbox Call Reply Empty

/-! ## Checked accesses -/

def fail (error : MailError) (a : UInt32) (v : UInt32) : Gated Bool := do
  modify fun s =>
    let r := if s.result.error = .none then { s.result with error := error, address := a, value := v }
      else s.result
    { s with
      result := { r with stateUncertain := r.triggerAttempted || r.replyCaptured }
      faulted := true }
  return false

def check : Gated Bool := do
  let s ← get
  if s.faulted ∨ s.result.error ≠ .none then
    return false
  else do
    let inGate ← Code.ask .inGate
    if inGate then do
      let cancelled ← Code.ask .cancelled
      if cancelled then
        fail .cancelled 0 0
      else do
        let t ← Code.ask .nowUs
        modify fun s =>
          if s.clockStarted then s else { s with begin := t, previous := t, clockStarted := true }
        let s ← get
        if t < s.previous then
          fail .clock 0 0
        else do
          modify fun s => { s with previous := t }
          if 1100000 < t - s.begin ∨ 1100000 < s.result.operations then
            fail .timeout 0 0
          else
            return true
    else
      fail .ownership 0 0

def counted : Gated Unit :=
  modify fun s => { s with result := { s.result with operations := s.result.operations + 1 } }

/-- A read with checks before and after it, and what it left in the variable. -/
def reading {α : Type} (zero : α) (read : Gated (Bool × α)) (a : UInt32) : Gated (Bool × α) := do
  if ← check then do
    counted
    let (ok, v) ← read
    let passed ← Code.both (if ok then pure true else fail .io a 0) check
    return (passed, v)
  else
    return (false, zero)

def read8 (a : UInt32) : Gated (Bool × UInt8) := reading 0 (Code.ask (Call.read8 a)) a

def read16 (a : UInt32) : Gated (Bool × UInt16) := reading 0 (Code.ask (Call.read16 a)) a

def read32 (a : UInt32) : Gated (Bool × UInt32) := reading 0 (Code.ask (Call.read32 a)) a

/-- A write with checks before and after it. -/
def writing (write : Gated Bool) (a : UInt32) (v : UInt32) : Gated Bool :=
  Code.both check <| do
    counted
    let ok ← write
    Code.both (if ok then pure true else fail .io a v) check

def write8 (a : UInt32) (v : UInt8) : Gated Bool := writing (Code.ask (Call.write8 a v)) a v.toUInt32

def write32 (a : UInt32) (v : UInt32) : Gated Bool := writing (Code.ask (Call.write32 a v)) a v

def delay (us : ℕ) : Gated Bool :=
  Code.both check <| do
    let ok ← Code.ask (Call.delayUs us)
    if ok then return true else fail .io 0 0

/-- The rounds of `waitControl` that are left. -/
def waitFrom (address : UInt32) (wanted : UInt8) (step timeout : ℕ) (start : UInt64) : ℕ → Gated Bool
  | 0 => fail .timeout address 0
  | rounds + 1 => do
      let (ok, v) ← read8 address
      if ok then do
        modify fun s => { s with result := { s.result with polls := s.result.polls + 1 } }
        let s ← get
        if 1 < v then
          fail .io address v.toUInt32
        else if s.previous < start then
          fail .clock address 0
        else if UInt64.ofNat timeout < s.previous - start then
          fail .timeout address 0
        else if v = wanted then
          return true
        else if s.previous - start = UInt64.ofNat timeout then
          fail .timeout address 0
        else
          Code.both (delay step) (waitFrom address wanted step timeout start rounds)
      else
        return false

def waitControl (address : UInt32) (wanted : UInt8) (step timeout : ℕ) : Gated Bool := do
  let start ← Code.ask .nowUs
  waitFrom address wanted step timeout start (timeout / step + 1)

/-- One nibble of the counter byte, plus one. -/
def bump (sending : Bool) (v : UInt8) : UInt8 :=
  if sending then
    (v &&& 0xf0) ||| ((v + 1) &&& 15)
  else
    let high : UInt8 := v >>> 4
    let n : UInt8 := (high + 1) &&& 15
    let shifted : UInt8 := n <<< 4
    (v &&& 0x0f) ||| shifted

def incrementCounter (sending : Bool) : Gated Bool := do
  let (ok, v) ← read8 hostCounters
  if ok then
    write8 hostCounters (bump sending v)
  else
    return false

/-! ## Exchanges -/

def badFirmware (fw : UInt32) : Bool := fw == 0xffffffff || fw == 0xdeadbeef || (fw &&& 0xe0) != 0xe0

def release : Gated Unit := modify fun s => { s with active := false }

def start : Gated Bool := do
  let s ← get
  if s.active then
    fail .ownership 0 0
  else if s.faulted then
    return false
  else do
    modify fun s => { s with result := {}, clockStarted := false }
    if ← check then do
      modify fun s => { s with active := true }
      let (ok, fw) ← read32 firmwareControl
      if !ok || badFirmware fw then do
        let _ ← fail .invalid firmwareControl fw
        release
        return false
      else
        return true
    else
      return false

/-- `ActiveGuard`: the mailbox is released however its owner leaves. -/
def guarded (m : Gated Bool) : Gated Bool := do
  if ← start then do
    let ok ← m
    release
    return ok
  else
    return false

def captureWord (i : Fin 4) : Gated Bool := do
  let (ok, w) ← read32 (c2hData i)
  modify fun s => { s with result := { s.result with
    reply := { s.result.reply with words := Function.update s.result.reply.words i w } } }
  return ok

def note (f : MailResult → MailResult) : Gated Bool := do
  modify fun s => { s with result := f s.result }
  return true

def parseReply : Gated Bool := do
  let s ← get
  let w := s.result.reply.words 0
  let length := (w >>> 8) &&& 15
  modify fun s => { s with result := { s.result with reply := { s.result.reply with
    function := (w &&& 127).toUInt8, sequence := ((w >>> 12) &&& 15).toUInt8, ack := (w &&& 128) != 0 } } }
  if length < 1 ∨ 4 < length then
    fail .malformedReply (c2hData 0) w
  else do
    modify fun s => { s with result := { s.result with reply := { s.result.reply with
      contentBytes := (length * 4 - 2).toUInt8 } } }
    check

def receive : Gated Bool :=
  Code.every [
    waitControl c2hControl 1 1 1000000,
    captureWord 0, captureWord 1, captureWord 2, captureWord 3,
    note fun r => { r with replyCaptured := true },
    write8 c2hControl 0,
    note fun r => { r with replyAcknowledged := true },
    incrementCounter false,
    parseReply]

def rejectStale (v : UInt8) : Gated Bool :=
  if v ≠ 1 then
    fail .io c2hControl v.toUInt32
  else do
    modify fun s => { s with
      result := { s.result with error := .staleReply, address := c2hControl, value := v.toUInt32 } }
    return false

/-- A reply that is already there is not one to the request that is about to be sent. -/
def checkStale : Gated Bool := do
  let (ok, stale) ← read8 c2hControl
  if ok then
    if stale ≠ 0 then rejectStale stale else return true
  else
    return false

def Request.size (q : Request) : ℕ := (q.contentBytes.toNat + 2 + 3) / 4

/-- A register of the request, with everything behind its content cleared. -/
def Request.word (q : Request) (i : Fin 4) : UInt32 :=
  let w := if i.val < q.size then q.words i else 0
  let length : UInt32 := UInt32.ofNat q.size <<< 8
  let w := if i = 0 then (w &&& 0xffff0000) ||| q.function.toUInt32 ||| length else w
  let bytes := q.contentBytes.toNat + 2
  if i.val < q.size ∧ bytes < i.val * 4 + 4 then
    let limit : UInt32 := 1 <<< UInt32.ofNat ((bytes - i.val * 4) * 8)
    w &&& (limit - 1)
  else
    w

def checkFunction (expected : UInt8) : Gated Bool := do
  let s ← get
  if s.result.reply.function ≠ expected then
    fail .unexpectedReply (c2hData 0) (s.result.reply.words 0)
  else
    return true

def exchangeInner (q : Request) (expected : UInt8) : Gated Bool :=
  Code.every [
    checkStale,
    waitControl h2cControl 0 1000 5000,
    checkStale,
    write32 (h2cData 0) (q.word 0), write32 (h2cData 1) (q.word 1),
    write32 (h2cData 2) (q.word 2), write32 (h2cData 3) (q.word 3),
    incrementCounter true,
    check,
    note fun r => { r with triggerAttempted := true },
    write8 h2cControl 1,
    receive,
    checkFunction expected]

def schedulerRequest (value : UInt16) : Request where
  function := schedulerCommand
  contentBytes := 6
  words := fun i => if i = 0 then value.toUInt32 <<< 16 else if i = 1 then 0xffff else 0

/-- Read a mask from the scheduler register. -/
def readScheduler (accept : UInt16 → Gated Bool) : Gated Bool := do
  let (ok, v) ← read16 schedulerTx
  if ok then accept v else return false

def setScheduler (value : UInt16) : Gated Bool :=
  Code.both (exchangeInner (schedulerRequest value) schedulerReply) <|
    readScheduler fun actual => Code.both check <|
      if actual = value then return true else fail .readback schedulerTx actual.toUInt32

/-! ## Operations -/

inductive Op
  | exchange (q : Request) (expected : UInt8)
  | receivePending
  | setSchedulerMask (value : UInt16)
  | pauseScheduler
  | resumeScheduler

def badRequest (q : Request) (expected : UInt8) : Bool :=
  decide (127 < q.function) || q.function == schedulerCommand || decide (14 < q.contentBytes) ||
    decide (127 < expected)

def exchange (q : Request) (expected : UInt8) : Gated Bool :=
  if badRequest q expected then return false else guarded (exchangeInner q expected)

def receivePending : Gated Bool := guarded receive

def setSchedulerMask (value : UInt16) : Gated Bool := do
  if (← get).paused then return false else guarded (setScheduler value)

def pauseScheduler : Gated Bool := do
  if (← get).paused then
    return false
  else
    guarded <| readScheduler fun old => Code.both (setScheduler 0) <| do
      modify fun s => { s with savedTx := old, paused := true }
      return true

def resumeScheduler : Gated Bool := do
  if !(← get).paused then
    return false
  else
    guarded <| readScheduler fun current =>
      if current ≠ 0 then
        fail .readback schedulerTx current.toUInt32
      else do
        let s ← get
        Code.both (setScheduler s.savedTx) <| do
          modify fun s => { s with paused := false }
          return true

def exec : Op → Gated Bool
  | .exchange q expected => exchange q expected
  | .receivePending => receivePending
  | .setSchedulerMask value => setSchedulerMask value
  | .pauseScheduler => pauseScheduler
  | .resumeScheduler => resumeScheduler

abbrev Record := Interaction.Record Mailbox Call Reply Empty Op Bool

/-- The operations of a mailbox that was new. -/
abbrev Run : List Record → Mailbox → Prop := Interaction.Run exec {}

end Mail
end Rtl8852be
