import Rtl8852be.Interaction.History
import Rtl8852be.Wire.FirmwareProtocol

/-!
# FirmwareCommands — the command bus

`FirmwareCommands.hpp`.  All H2C commands of a firmware epoch share one allocator of sequences and one
router of acknowledgements.  A receiver is notified from inside `accept` and may use the bus from
there, so a notification splits `accept` in two: it is suspended when it enters the receiver and goes
on with the call `returned`.  Everything the receiver does is made of the calls in between.
Receivers do not nest: while one is notified `accept` refuses to notify another.
-/

namespace Rtl8852be
namespace Commands

open Interaction Network

/-! ## Types -/

/-- A pointer and the length that comes with it: the null pointer, or the bytes it points to. -/
inductive Buffer
  | null (length : ℕ)
  | bytes (data : List UInt8)
  deriving DecidableEq

def Buffer.length : Buffer → ℕ
  | .null length => length
  | .bytes data => data.length

def Buffer.isNull : Buffer → Bool
  | .null _ => true
  | .bytes _ => false

/-- What a pointer that is not null points to. -/
def Buffer.data : Buffer → List UInt8
  | .null _ => []
  | .bytes data => data

/-- The two pointers of a receiver; `none` is the null pointer. -/
structure CommandReceiver where
  owner : Option ℕ := none
  event : Option ℕ := none
  deriving DecidableEq

inductive CommandError
  | none
  | clock
  | timeout
  | transport
  | receiver
  | firmwareRejected
  | exhausted
  | invalidated
  deriving DecidableEq, Repr

inductive CommandEvent
  | unrelated
  | received
  | completed
  | fault
  deriving DecidableEq, Repr

inductive CommandState
  | unused
  | reserved
  | pending
  | complete
  deriving DecidableEq, Repr

structure CommandRecord where
  state : CommandState := .unused
  id : CommandId := {}
  receiver : CommandReceiver := {}
  token : UInt64 := 0
  deadline : UInt64 := 0
  receiveAck : Bool := false
  doneAck : Bool := false
  received : Bool := false
  deriving DecidableEq

/-- A record that must not be used again yet. -/
def CommandRecord.busy (r : CommandRecord) : Bool := r.state == .reserved || r.state == .pending

/-- The bus between two calls.  `suspended` is the control state of an `accept` whose receiver has
been entered and has not returned: whether the firmware rejected the command. -/
structure FirmwareCommands where
  epoch : UInt64
  records : UInt8 → CommandRecord := fun _ => {}
  next : UInt32 := 0
  lastTime : UInt64 := 0
  clockStarted : Bool := false
  publishing : Bool := false
  delivering : Bool := false
  error : CommandError := .none
  suspended : Option Bool := none

/-! ## The environment -/

/-- The transport, and the receivers. -/
inductive Call
  | inGate
  | nowUs
  | publish (packet : List UInt8)
  | event (receiver : CommandReceiver) (event : FirmwareEvent) (epoch token : UInt64)
  deriving DecidableEq

abbrev Reply : Call → Type
  | .inGate => Bool
  | .nowUs => UInt64
  | .publish _ => Bool
  | .event _ _ _ _ => Unit

/-- Annotations: a reservation, and the moment `error_` is set. -/
inductive Note
  | reserved (sequence : UInt8) (receiver : CommandReceiver) (token : UInt64)
  | failed (error : CommandError)
  deriving DecidableEq

abbrev TraceEvent := Event Call Reply Note

abbrev Trace := List TraceEvent

abbrev Gated := Code FirmwareCommands Call Reply Note

def inGate : Gated Bool := Code.ask Call.inGate

def nowUs : Gated UInt64 := Code.ask Call.nowUs

def transportPublish (packet : List UInt8) : Gated Bool :=
  Code.ask (Call.publish packet)

/-! ## The class -/

/-- `packet_` has room for a packet of this many bytes. -/
def packetCapacity : ℕ := 16383

def uint32Max : UInt32 := 0xffffffff

def uint64Max : UInt64 := 0xffffffffffffffff

def fail (e : CommandError) : Gated Bool := do
  if (← get).error = .none then
    modify fun b => { b with error := e }
    Code.tell (.failed e)
  return false

/-- The loop of `check` over all records. -/
def overdue (b : FirmwareCommands) (now : UInt64) : Bool :=
  (List.range 256).any fun i =>
    (b.records (UInt8.ofNat i)).busy && decide ((b.records (UInt8.ofNat i)).deadline ≤ now)

def check : Gated Bool := do
  let b ← get
  if b.epoch = 0 ∨ b.error ≠ .none then
    return false
  if !(← inGate) then
    return false
  let now ← nowUs
  if b.clockStarted ∧ now < b.lastTime then
    return ← fail .clock
  modify fun b => { b with lastTime := now, clockStarted := true }
  if overdue (← get) now then
    return ← fail .timeout
  return true

def setRecord (sequence : UInt8) (r : CommandRecord) : Gated Unit :=
  modify fun b => { b with records := Function.update b.records sequence r }

/-- The returned sequence, or `none` where the source returns `false`. -/
def reserve (receiver : CommandReceiver) (token timeoutUs : UInt64) : Gated (Option UInt8) := do
  if (← get).publishing then
    return none
  if !(← check) then
    return none
  let b ← get
  if timeoutUs = 0 ∨ timeoutUs > 10000000 ∨ receiver.owner.isSome ≠ receiver.event.isSome ∨
      uint64Max - b.lastTime < timeoutUs then
    return none
  if b.next = uint32Max then
    let _ ← fail .exhausted
    return none
  let sequence := b.next.toUInt8
  if (b.records sequence).busy then
    let _ ← fail .exhausted
    return none
  modify fun b => { b with next := b.next + 1 }
  setRecord sequence
    { state := .reserved, receiver := receiver, token := token, deadline := b.lastTime + timeoutUs }
  Code.tell (.reserved sequence receiver token)
  return some sequence

/-- The fields `publish` reads from the header of a packet. -/
structure Header where
  sequence : UInt8
  id : CommandId
  receiveAck : Bool
  doneAck : Bool
  deriving DecidableEq

def header (packet : List UInt8) : Header :=
  let w0 := little32 packet
  let w1 := little32 (packet.drop 4)
  { sequence := (w0 >>> 24).toUInt8
    id := ⟨(w0 &&& 3).toUInt8, ((w0 >>> 2) &&& 63).toUInt8, (w0 >>> 8).toUInt8⟩
    receiveAck := (w1 &&& 0x4000) != 0
    doneAck := (w1 &&& 0x8000) != 0 }

/-- Reserved header bits are clear and the length is the packet's own. -/
def wellFormed (packet : List UInt8) : Bool :=
  let w0 := little32 packet
  let w1 := little32 (packet.drop 4)
  (w0 &&& 0x00ff0000) == 0 && (w1 &&& 0xffff0000) == 0 && (w1 &&& 0x3fff).toNat == packet.length

def publish (buffer : Buffer) : Gated Bool := do
  if (← get).publishing then
    return false
  if !(← check) then
    return false
  if buffer.isNull ∨ buffer.length < 8 ∨ buffer.length > packetCapacity then
    return false
  let packet := buffer.data
  if !wellFormed packet then
    return false
  let hd := header packet
  let r := (← get).records hd.sequence
  if r.state ≠ .reserved then
    return false
  let r := { r with id := hd.id, receiveAck := hd.receiveAck, doneAck := hd.doneAck }
  setRecord hd.sequence r
  -- Commands without an acknowledgement cannot notify anybody.
  if r.receiver.event.isSome ∧ !r.receiveAck ∧ !r.doneAck then
    return false
  setRecord hd.sequence { r with state := .pending }
  modify fun b => { b with publishing := true }
  let ok ← transportPublish packet
  modify fun b => { b with publishing := false }
  if !ok then
    return ← fail .transport
  if !(← check) then
    return false
  let r := (← get).records hd.sequence
  if !r.receiveAck ∧ !r.doneAck then
    setRecord hd.sequence { r with state := .complete }
  return true

/-- The returned flag, and what is left in the argument `sequence`. -/
def submit (id : CommandId) (receiveAck doneAck : Bool) (payload : Buffer)
    (receiver : CommandReceiver) (token timeoutUs : UInt64) : Gated (Bool × UInt8) := do
  if (← get).publishing then
    return (false, 0)
  if id.category > 3 ∨ id.commandClass > 63 ∨ (payload.isNull ∧ payload.length ≠ 0) ∨
      payload.length > packetCapacity - 8 then
    return (false, 0)
  if receiver.event.isSome ∧ !receiveAck ∧ !doneAck then
    return (false, 0)
  match ← reserve receiver token timeoutUs with
  | none => return (false, 0)
  | some sequence =>
      match encodeH2c id sequence receiveAck doneAck payload.data packetCapacity with
      | none => return (false, sequence)
      | some packet => return (← publish (.bytes packet), sequence)

/-- How a call of the bus ends: with the value it returns, or inside a receiver. -/
inductive Result
  | value (ok : Bool)
  | sequence (reserved : Option UInt8)
  | submitted (sent : Bool × UInt8)
  | event (e : CommandEvent)
  | entered
  deriving DecidableEq

/-- `deliver` up to the receiver.  `rejected` is whether `accept` returns `fault` in any case. -/
def deliver (r : CommandRecord) (event : FirmwareEvent) (rejected : Bool) : Gated Result := do
  if r.receiver.event.isNone then
    return .event (if rejected then .fault else .completed)
  modify fun b => { b with delivering := true, suspended := some rejected }
  let b ← get
  let _ ← Code.ask (.event r.receiver event b.epoch r.token)
  return .entered

/-- `deliver` and `accept` after the receiver. -/
def returned (ok : Bool) : Gated Result := do
  match (← get).suspended with
  | none => return .value false
  | some rejected => do
      modify fun b => { b with delivering := false, suspended := none }
      let delivered ← if ok then check else fail .receiver
      return .event (if rejected || !delivered then .fault else .completed)

def accept (event : FirmwareEvent) (receiveEpoch : UInt64) : Gated Result := do
  let b ← get
  if receiveEpoch ≠ b.epoch then
    return .event .unrelated
  if b.publishing ∨ b.delivering then
    let _ ← fail .receiver
    return .event .fault
  if !(← check) then
    return .event .fault
  match decodeAck event with
  | none => return .event .unrelated
  | some ack => do
      let r := (← get).records ack.sequence
      if r.state ≠ .pending ∨ !sameCommand ack.command r.id then
        return .event .unrelated
      if ack.done then
        if !r.doneAck then
          return .event .unrelated
        setRecord ack.sequence { r with state := .complete }
        if ack.returnCode ≠ 0 then
          let _ ← fail .firmwareRejected
          deliver r event true
        else
          deliver r event false
      else
        if !r.receiveAck ∨ r.received then
          return .event .unrelated
        setRecord ack.sequence { r with received := true }
        -- Reception is not execution.
        if r.doneAck then
          return .event .received
        setRecord ack.sequence { r with received := true, state := .complete }
        deliver r event false

/-! ## Calls -/

inductive Op
  | reserve (receiver : CommandReceiver) (token timeoutUs : UInt64)
  | publish (buffer : Buffer)
  | submit (id : CommandId) (receiveAck doneAck : Bool) (payload : Buffer)
      (receiver : CommandReceiver) (token timeoutUs : UInt64)
  | accept (event : FirmwareEvent) (receiveEpoch : UInt64)
  | returned (ok : Bool)
  | service
  | invalidate

def exec : Op → Gated Result
  | .reserve receiver token timeoutUs => do return .sequence (← reserve receiver token timeoutUs)
  | .publish buffer => do return .value (← publish buffer)
  | .submit id receiveAck doneAck payload receiver token timeoutUs => do
      return .submitted (← submit id receiveAck doneAck payload receiver token timeoutUs)
  | .accept event receiveEpoch => accept event receiveEpoch
  | .returned ok => returned ok
  | .service => do return .value (← check)
  | .invalidate => do return .value (← fail .invalidated)

abbrev Record := Interaction.Record FirmwareCommands Call Reply Note Op Result

/-- Any calls, nested or not, on the bus of one verified epoch, with any clock and transport. -/
abbrev Run (epoch : UInt64) : List Record → FirmwareCommands → Prop :=
  Interaction.Run exec { epoch := epoch }

end Commands
end Rtl8852be
