import Rtl8852be.Checked.Reader
import Rtl8852be.Interaction.History

/-!
# AuthenticationEvents — the queue of received authentication frames

`AuthenticationEvents.hpp`.  One owner binds the queue to an association attempt, the receive path admits
the frames of that attempt, and the owner reads them back in order.  A frame that does not fit makes the
queue forget what it has, until the next binding.
-/

namespace Rtl8852be
namespace AuthEvents

open Interaction Checked

/-! ## Types -/

abbrev Address := Fin 6 → UInt8

/-- An address has a first octet. -/
scoped instance firstOctet : NeZero 6 := ⟨by decide⟩

inductive Kind
  | empty
  | authentication
  | association
  | eapol
  deriving DecidableEq, Repr

/-- `sizeof(Event::body)`. -/
def bodyBytes : ℕ := 2048

structure Event where
  version : UInt32 := 0
  kind : Kind := .empty
  generation : UInt64 := 0
  epoch : UInt64 := 0
  operation : UInt64 := 0
  sampledAtUs : UInt64 := 0
  dropped : UInt32 := 0
  length : UInt32 := 0
  own : Address := fun _ => 0
  peer : Address := fun _ => 0
  source : Address := fun _ => 0
  channel : UInt8 := 0
  flags : UInt8 := 0
  body : List UInt8 := List.replicate bodyBytes 0
  deriving DecidableEq

def unicast (a : Address) : Bool := decide (∃ i, a i ≠ 0) && a 0 &&& 1 == 0

def ringSize : ℕ := 8

/-- A client is known by its address; a null pointer is `none`. -/
abbrev Client := Option ℕ

structure Queue where
  owner : Client := none
  generation : UInt64 := 0
  epoch : UInt64 := 0
  operation : UInt64 := 0
  own : Address := fun _ => 0
  peer : Address := fun _ => 0
  channel : UInt8 := 0
  active : Bool := false
  overflow : Bool := false
  head : ℕ := 0
  count : ℕ := 0
  dropped : UInt32 := 0
  entries : ℕ → Event := fun _ => {}

namespace Queue

/-! ## Bindings -/

def bump (q : Queue) : Queue :=
  { q with generation := if q.generation + 1 = 0 then 1 else q.generation + 1 }

def clear (q : Queue) : Queue := { q with entries := fun _ => {}, head := 0, count := 0 }

def loss (q : Queue) : Bool × Queue :=
  (false, { q.clear with dropped := UInt32.ofNat (q.count + 1), overflow := true })

def header (q : Queue) : Event where
  version := 1
  generation := q.generation
  epoch := q.epoch
  operation := q.operation
  channel := q.channel
  dropped := q.dropped
  flags := (if q.active then 1 else 0) ||| (if q.overflow then 2 else 0)
  own := q.own
  peer := q.peer

def owned (q : Queue) (who : Client) : Bool := who.isSome && q.owner == who

def invalidate (q : Queue) : Queue :=
  { q.clear with
    active := false
    overflow := false
    epoch := 0
    operation := 0
    channel := 0
    dropped := 0
    own := fun _ => 0
    peer := fun _ => 0 }.bump

def enable (q : Queue) (who : Client) : Bool × Queue :=
  if who = none ∨ (q.owner ≠ none ∧ q.owner ≠ who) then
    (false, q)
  else if q.owner = who then
    (true, q)
  else
    (true, { q with owner := who }.invalidate)

/-- `disable()`. -/
def disable (q : Queue) : Queue := { q.invalidate with owner := none }

/-- `disable(who)`. -/
def disableFor (q : Queue) (who : Client) : Bool × Queue :=
  if q.owned who then (true, q.disable) else (false, q)

def bound (q : Queue) (epoch operation : UInt64) (own peer : Address) (channel : UInt8) : Queue :=
  { q with epoch := epoch, operation := operation, channel := channel, own := own, peer := peer, active := true }

def bind (q : Queue) (epoch operation : UInt64) (own peer : Option Address) (channel : UInt8) : Bool × Queue :=
  if q.owner = none then
    (false, q)
  else
    match own, peer with
    | some own, some peer =>
        if epoch = 0 ∨ operation = 0 ∨ unicast own = false ∨ unicast peer = false ∨ own = peer ∨ channel = 0 then
          (false, q.invalidate)
        else
          (true, q.invalidate.bound epoch operation own peer channel)
    | _, _ => (false, q.invalidate)

end Queue

/-! ## Frames -/

/-- `equal(frame + offset, a)`, for the bytes in this list. -/
def equalAt (frame : List UInt8) (offset : ℕ) (a : Address) : List (Fin 6) → Reader Unit Bool
  | [] => return true
  | i :: is => do
      if (← byteAt frame (offset + i)) ≠ a i then return false else equalAt frame offset a is

def bytesFrom (frame : List UInt8) (offset : ℕ) : ℕ → Reader Unit (List UInt8)
  | 0 => return []
  | n + 1 => do
      let b ← byteAt frame offset
      return b :: (← bytesFrom frame (offset + 1) n)

/-- The kind of a frame, and where its body is. -/
structure Part where
  kind : Kind
  offset : ℕ
  bodyLength : ℕ

def everyByte : List (Fin 6) := [0, 1, 2, 3, 4, 5]

/-- Authentication and association frames. -/
def managementPart (frame : List UInt8) (peer : Address) (subtype : UInt8) : Reader Unit Part := do
  if (← byteAt frame 1) &&& 3 ≠ 0 then
    early ()
  else if !(← equalAt frame 16 peer everyByte) then
    early ()
  else if frame.length - 24 < 6 then
    early ()
  else
    return ⟨if subtype = 0xb0 then .authentication else .association, 24, frame.length - 24⟩

def snap : List UInt8 := [0xaa, 0xaa, 3, 0, 0, 0, 0x88, 0x8e]

/-- The comparison of the LLC header, one byte after the other. -/
def snapAt (frame : List UInt8) (offset : ℕ) : List UInt8 → Reader Unit Bool
  | [] => return true
  | s :: rest => do
      if (← byteAt frame offset) ≠ s then return false else snapAt frame (offset + 1) rest

/-- The EAPOL frame behind the LLC header at `offset`. -/
def eapolPart (frame : List UInt8) (offset : ℕ) : Reader Unit Part := do
  if frame.length - offset < 12 then
    early ()
  else if !(← snapAt frame offset snap) then
    early ()
  else do
    let version ← byteAt frame (offset + 8)
    if version < 1 ∨ 3 < version then
      early ()
    else if 4 < (← byteAt frame (offset + 8 + 1)) then
      early ()
    else do
      let high ← byteAt frame (offset + 8 + 2)
      let low ← byteAt frame (offset + 8 + 3)
      let bodyLength := 4 + high.toNat * 256 + low.toNat
      if frame.length - (offset + 8) < bodyLength then
        early ()
      else
        return ⟨.eapol, offset + 8, bodyLength⟩

def dataPart (frame : List UInt8) (subtype : UInt8) : Reader Unit Part := do
  if (← byteAt frame 1) &&& 3 ≠ 2 then
    early ()
  else if subtype = 0x88 then
    if frame.length < 26 then
      early ()
    else if (← byteAt frame 24) &&& 0x80 ≠ 0 then
      early ()
    else
      eapolPart frame 26
  else
    eapolPart frame 24

namespace Queue

/-- `observe` up to the limits of the queue. -/
def classify (q : Queue) (frame : List UInt8) (channel : UInt8) : Reader Unit Part := do
  if q.active = false ∨ q.overflow = true ∨ frame.length < 24 ∨ channel ≠ q.channel then
    early ()
  else if (← byteAt frame 0) &&& 3 ≠ 0 then
    early ()
  else if (← byteAt frame 1) &&& 0xc4 ≠ 0 then
    early ()
  else if (← byteAt frame 22) &&& 15 ≠ 0 then
    early ()
  else if !(← equalAt frame 4 q.own everyByte) then
    early ()
  else if !(← equalAt frame 10 q.peer everyByte) then
    early ()
  else do
    let subtype := (← byteAt frame 0) &&& 0xfc
    if subtype = 0xb0 ∨ subtype = 0x10 ∨ subtype = 0x30 then
      managementPart frame q.peer subtype
    else if subtype = 0x08 ∨ subtype = 0x88 then
      dataPart frame subtype
    else
      early ()

def event (q : Queue) (part : Part) (source body : List UInt8) (retry : Bool) (timestamp : UInt64) : Event :=
  { q.header with
    kind := part.kind
    length := UInt32.ofNat part.bodyLength
    source := fun i => source.getD i 0
    sampledAtUs := timestamp
    flags := q.header.flags ||| if retry then 4 else 0
    body := body ++ List.replicate (bodyBytes - body.length) 0 }

def push (q : Queue) (e : Event) : Queue :=
  { q with entries := Function.update q.entries ((q.head + q.count) % ringSize) e, count := q.count + 1 }

def store (q : Queue) (frame : List UInt8) (part : Part) (timestamp : UInt64) : Reader Unit (Bool × Queue) := do
  if bodyBytes < part.bodyLength then
    return q.loss
  else if q.count = ringSize then
    return q.loss
  else do
    let source ← bytesFrom frame (if part.kind = .eapol then 16 else 10) 6
    let retry ← byteAt frame 1
    let body ← bytesFrom frame part.offset part.bodyLength
    return (true, q.push (q.event part source body (retry &&& 8 != 0) timestamp))

/-- A null pointer is `none`; otherwise the frame has its `length` bytes. -/
def observe (q : Queue) (frame : Option (List UInt8)) (channel : UInt8) (timestamp : UInt64) :
    Reader Empty (Bool × Queue) :=
  match frame with
  | none => return (false, q)
  | some frame => returned (fun _ => (false, q)) id do
      let part ← q.classify frame channel
      q.store frame part timestamp

def read (q : Queue) (who : Client) : Bool × Event × Queue :=
  if !q.owned who then
    (false, {}, q)
  else if q.count = 0 then
    (true, q.header, q)
  else
    (true, q.entries q.head,
      { q with
        entries := Function.update q.entries q.head {}
        head := (q.head + 1) % ringSize
        count := q.count - 1 })

end Queue

/-! ## Calls -/

inductive Op
  | enable (who : Client)
  | bind (epoch operation : UInt64) (own peer : Option Address) (channel : UInt8)
  | invalidate
  | disable
  | disableFor (who : Client)
  | observe (frame : Option (List UInt8)) (channel : UInt8) (timestamp : UInt64)
  | read (who : Client)

inductive Result
  | flag (ok : Bool)
  | event (ok : Bool) (e : Event)
  | nothing
  | stopped (why : Stop Empty)
  deriving DecidableEq

def apply : Op → Queue → Result × Queue
  | .enable who, q => (q.enable who).map .flag id
  | .bind epoch operation own peer channel, q => (q.bind epoch operation own peer channel).map .flag id
  | .invalidate, q => (.nothing, q.invalidate)
  | .disable, q => (.nothing, q.disable)
  | .disableFor who, q => (q.disableFor who).map .flag id
  | .observe frame channel timestamp, q =>
      match q.observe frame channel timestamp with
      | .ok (ok, q') => (.flag ok, q')
      | .error why => (.stopped why, q)
  | .read who, q => (.event (q.read who).1 (q.read who).2.1, (q.read who).2.2)

/-- The queue asks nothing of its environment. -/
abbrev NoCall (call : Empty) : Type := call.elim

def exec (op : Op) : Code Queue Empty NoCall Empty Result := Code.direct (apply op)

abbrev Record := Interaction.Record Queue Empty NoCall Empty Op Result

/-- Any calls, with any frames, from a new queue. -/
abbrev Run : List Record → Queue → Prop := Interaction.Run exec {}

end AuthEvents
end Rtl8852be
