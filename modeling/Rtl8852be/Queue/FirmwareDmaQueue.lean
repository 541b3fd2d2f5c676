import Rtl8852be.Queue.TxOwnership
import Rtl8852be.Wire.Descriptors

/-!
# FirmwareDmaQueue — the ring of firmware commands

`FirmwareDmaQueue.hpp` and `Net80211FirmwareQueue`.  Commands have no release reports: a packet buffer is
given back when eight later ones have been consumed, because the device may still read it until then.
-/

namespace Rtl8852be
namespace Queue

open Network

/-! ## The wire -/

/-- `encodeCommandDma`: the descriptor and the command as they are placed in the buffer, and the buffer
descriptor.  `source` and `target` are the addresses of the command and of the buffer. -/
def encodeCommandDma (command : List UInt8) (source target physical capacity : ℕ) :
    Option (List UInt8 × List UInt8) :=
  let length := command.length
  if length < 8 ∨ length > 16383 ∨ capacity < length + 24 ∨ !dma32Range physical (length + 24) then
    none
  else if (little32 (command.drop 4) &&& 0x3fff).toNat ≠ length then
    none
  else if (if source ≤ target then target - source < length else source - target < length + 24) then
    none
  else
    let info : TxInfo :=
      { chDma := 12
        pktSize := length.toUInt16
        seq := if 24 ≤ length then
            ((command.getD 22 0).toUInt16 ||| ((command.getD 23 0).toUInt16 <<< 8)) >>> 4
          else 0 }
    match encodeTx info capacity with
    | .error _ => none
    | .ok descriptor =>
        if descriptor.length ≠ 24 then
          none
        else
          some (descriptor ++ command,
            store16 (length + 24).toUInt16 ++ store16 0x4000 ++ store32 physical.toUInt32)

/-! ## The ledger -/

/-- The template argument of `FirmwareDmaOwnership`, with its `static_assert`. -/
structure CommandRing where
  count : ℕ
  gt_nine : 9 < count
  le_max : count ≤ 4095

theorem CommandRing.pos (n : CommandRing) : 0 < n.count := lt_trans (by decide) n.gt_nine

structure FirmwareDmaOwnership (κ : Type) where
  cookies : ℕ → Option κ := fun _ => none
  retained : ℕ → UInt16 := fun _ => 0
  producer : ℕ := 0
  consumer : ℕ := 0
  pending : ℕ := 0
  holdHead : ℕ := 0
  holdTail : ℕ := 0
  held : ℕ := 0

namespace FirmwareDmaOwnership

variable {κ : Type} (n : CommandRing)

def full (s : FirmwareDmaOwnership κ) : Bool :=
  s.pending == n.count - 1 || (s.cookies s.producer).isSome

def commit (slot : UInt16) (cookie : Option κ) (s : FirmwareDmaOwnership κ) :
    Bool × FirmwareDmaOwnership κ :=
  if cookie.isNone ∨ s.full n ∨ slot.toNat ≠ s.producer then
    (false, s)
  else
    (true, { s with
      cookies := Function.update s.cookies s.producer cookie
      producer := (s.producer + 1) % n.count
      pending := s.pending + 1 })

/-- The first half of a round of `consumeTo`: the slot moves to the retained ones. -/
def retain (s : FirmwareDmaOwnership κ) : FirmwareDmaOwnership κ :=
  { s with
    retained := Function.update s.retained s.holdTail (UInt16.ofNat s.consumer)
    holdTail := (s.holdTail + 1) % n.count
    held := s.held + 1
    consumer := (s.consumer + 1) % n.count
    pending := s.pending - 1 }

/-- The second half: the oldest slot beyond eight is given back. -/
def expel (s : FirmwareDmaOwnership κ) : List (Option κ) × FirmwareDmaOwnership κ :=
  if 8 < s.held then
    let slot := (s.retained s.holdHead).toNat
    ([s.cookies slot], { s with
      holdHead := (s.holdHead + 1) % n.count
      held := s.held - 1
      cookies := Function.update s.cookies slot none })
  else
    ([], s)

/-- The loop of `consumeTo`: the cookies given to `release`, in order. -/
def consume : ℕ → FirmwareDmaOwnership κ → List (Option κ) × FirmwareDmaOwnership κ
  | 0, s => ([], s)
  | k + 1, s =>
      let (released, s) := expel n (retain n s)
      let (more, s) := consume k s
      (released ++ more, s)

/-- How far `consumeTo` advances. -/
def advance (index : ℕ) (s : FirmwareDmaOwnership κ) : ℕ :=
  (index + n.count - s.consumer) % n.count

def consumeTo (index : ℕ) (s : FirmwareDmaOwnership κ) :
    Bool × List (Option κ) × FirmwareDmaOwnership κ :=
  if n.count ≤ index then
    (false, [], s)
  else if s.pending < s.advance n index then
    (false, [], s)
  else
    (true, consume n (s.advance n index) s)

/-- `reclaimAfterDmaStopped`: the cookies given to `release`, in order. -/
def reclaimAfterDmaStopped (s : FirmwareDmaOwnership κ) : List κ × FirmwareDmaOwnership κ :=
  ((List.range n.count).filterMap s.cookies,
    { s with
      cookies := fun i => if i < n.count then none else s.cookies i
      producer := 0
      consumer := 0
      pending := 0
      holdHead := 0
      holdTail := 0
      held := 0 })

end FirmwareDmaOwnership

/-! ## The queue -/

/-- `Net80211FirmwareQueue::count`. -/
def commandRing : CommandRing where
  count := 64
  gt_nine := by decide
  le_max := by decide

/-- A packet buffer and what it holds. -/
structure PacketBuffer where
  mapping : DataMapping := {}
  data : List UInt8 := []
  deriving DecidableEq

/-- `Net80211FirmwareQueue`.  Cookies are the addresses of the packet buffers, given by their slots;
`attached` is `ring_.bytes != nullptr` and `ring` holds the buffer descriptors. -/
structure Net80211FirmwareQueue where
  attached : Bool := false
  packets : ℕ → PacketBuffer := fun _ => {}
  ring : ℕ → List UInt8 := fun _ => []
  ownership : FirmwareDmaOwnership ℕ := {}
  retired : ℕ := 0

namespace Net80211FirmwareQueue

/-- The mappings `initialize` accepts: they are large enough and nothing overlaps. -/
def mappingsFit (ring : DataMapping) (packets : ℕ → PacketBuffer) : Bool :=
  validMapping ring (commandRing.count * 8) && ring.physical % 8 == 0 &&
    ((List.range commandRing.count).all fun i =>
      validMapping (packets i).mapping (24 + 16383) && !overlaps ring (packets i).mapping) &&
    (List.range commandRing.count).all fun i => (List.range i).all fun j =>
      !overlaps (packets i).mapping (packets j).mapping

/-- `initialize`: an error, or `none`. -/
def initializeQueue (ring : DataMapping) (packets : ℕ → PacketBuffer) (q : Net80211FirmwareQueue) :
    Option Errno × Net80211FirmwareQueue :=
  if q.ownership.pending ≠ 0 ∨ q.ownership.held ≠ 0 then
    (some .ebusy, q)
  else if !mappingsFit ring packets then
    (some .einval, q)
  else
    (none,
      { attached := true
        packets := packets
        ring := fun _ => List.replicate 8 0
        ownership := (q.ownership.reclaimAfterDmaStopped commandRing).2
        retired := 0 })

/-- The queue after a command has been placed in its packet buffer. -/
def placed (q : Net80211FirmwareQueue) (slot : ℕ) (bytes : List UInt8) : Net80211FirmwareQueue :=
  let packet : PacketBuffer := { q.packets slot with data := overwrite bytes (q.packets slot).data }
  { q with packets := Function.update q.packets slot packet }

/-- `stage`: an error, or the producer to publish.  `source` is the address of the command. -/
def stage (command : List UInt8) (source : ℕ) (q : Net80211FirmwareQueue) :
    Except Errno UInt16 × Net80211FirmwareQueue :=
  if !q.attached then
    (.error .enetdown, q)
  else if q.ownership.full commandRing then
    (.error .enobufs, q)
  else
    let slot := q.ownership.producer
    let mapping := (q.packets slot).mapping
    match mapping.bytes with
    | none => (.error .einval, q)
    | some target =>
        match encodeCommandDma command source target mapping.physical mapping.capacity with
        | none => (.error .einval, q)
        | some (bytes, bd) =>
            match q.ownership.commit commandRing (UInt16.ofNat slot) (some slot) with
            | (false, _) => (.error .ebusy, q.placed slot bytes)
            | (true, ownership) =>
                (.ok (UInt16.ofNat ownership.producer),
                  { q.placed slot bytes with
                    ownership := ownership
                    ring := Function.update q.ring slot bd })

def consumeTo (hardwareConsumer : ℕ) (q : Net80211FirmwareQueue) :
    Option Errno × Net80211FirmwareQueue :=
  if !q.attached then
    (some .enetdown, q)
  else
    match q.ownership.consumeTo commandRing hardwareConsumer with
    | (false, _, _) => (some .einval, q)
    | (true, released, ownership) =>
        (none, { q with ownership := ownership, retired := q.retired + released.length })

def reclaimAfterDmaStopped (q : Net80211FirmwareQueue) : Net80211FirmwareQueue :=
  { attached := false
    packets := fun _ => {}
    ring := fun _ => []
    ownership := (q.ownership.reclaimAfterDmaStopped commandRing).2
    retired := q.retired + (q.ownership.reclaimAfterDmaStopped commandRing).1.length }

end Net80211FirmwareQueue

end Queue
end Rtl8852be
