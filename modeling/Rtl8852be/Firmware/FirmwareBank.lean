import Rtl8852be.Interaction.Triple
import Rtl8852be.Firmware.FirmwarePackets

/-!
# FirmwareBank — packets in memory that the device can read

`FirmwareBank.hpp`, with the mappings and buffer descriptors of `DmaProbe.hpp`.  Slot 0 is the ring, slots
1 to `count` are pages with one packet each.  `prepareBank` fills them and then reads everything again.

A slot is memory of 4096 bytes: it holds what was written to it, and keeps its address and its mapping.
-/

namespace Rtl8852be
namespace Transport

open Interaction Sequence Firmware

/-! ## Mappings -/

def pageBytes : ℕ := 4096

structure Mapping where
  address : ℕ := 0
  length : ℕ := 0
  offset : ℕ := 0
  segments : ℕ := 0
  deriving DecidableEq

def validMapping (m : Mapping) : Bool :=
  m.segments == 1 && m.length == pageBytes && m.offset == pageBytes && m.address != 0 &&
    m.address % 4096 == 0 && decide (m.address ≤ 0x100000000 - pageBytes)

/-- The eight bytes that `encodeBd` leaves behind, and whether it succeeded. -/
def encodeBd (address length : ℕ) : Bool × List UInt8 :=
  if length = 0 ∨ 0xffff < length ∨ address = 0 ∨ 0xffffffff < address ∨
      0x100000000 - address < length then
    (false, List.replicate 8 0)
  else
    (true, [UInt8.ofNat length, UInt8.ofNat (length >>> 8), 0, 0x40] ++
      (List.range 4).map fun i => UInt8.ofNat (address >>> (8 * i)))

/-! ## The bank -/

inductive BankStatus
  | notRun
  | ready
  | invalidPlan
  | unsafeCommand
  | allocationFailed
  | prepareFailed
  | mappingInvalid
  | mappingOverlap
  | encodeFailed
  | syncFailed
  | verifyFailed
  deriving DecidableEq, Repr

structure BankResult where
  status : BankStatus := .notRun
  allocated : ℕ := 0
  prepared : ℕ := 0
  synced : ℕ := 0
  packets : ℕ := 0
  failedSlot : ℕ := 0
  ringAddress : ℕ := 0
  payloadBytes : ℕ := 0
  deriving DecidableEq

/-- A buffer of one page. -/
structure Page where
  bytes : List UInt8
  sized : bytes.length = pageBytes

namespace Page

def write (page : Page) (offset : ℕ) (bytes : List UInt8) : Page where
  bytes := overwrite page.bytes offset bytes
  sized := by rw [length_overwrite, page.sized]

end Page

/-- What does not change while the bank is prepared: where the slots are, for the device and for the
host. -/
structure Slots where
  mapping : ℕ → Mapping
  bytes : ℕ → Option ℕ

/-- The result so far, and the slots. -/
structure Bank where
  result : BankResult := {}
  pages : ℕ → Page

inductive BankCall
  | command
  | allocate (slot : ℕ)
  | prepare (slot : ℕ)
  | synchronize (slot : ℕ)
  deriving DecidableEq

@[reducible] def BankReply : BankCall → Type
  | .command => UInt16
  | .allocate _ => Bool
  | .prepare _ => Bool
  | .synchronize _ => Bool

abbrev Banking := Code Bank BankCall BankReply Empty

/-- `r.status = status; return r;` -/
def stopWith (status : BankStatus) : Banking Bool := do
  modify fun s => { s with result := { s.result with status := status } }
  return false

def expect (ok : Bool) (status : BankStatus) : Banking Bool :=
  if ok then return true else stopWith status

def update (f : BankResult → BankResult) : Banking Bool := do
  modify fun s => { s with result := f s.result }
  return true

def writePage (slot offset : ℕ) (bytes : List UInt8) : Banking Bool := do
  modify fun s => { s with pages := Function.update s.pages slot ((s.pages slot).write offset bytes) }
  return true

/-- The PCI command register must not let the device read memory yet. -/
def checkCommand : Banking Bool := do
  let command ← Code.ask .command
  expect (command &&& 4 == 0) .unsafeCommand

/-- `encode` with the default sequence.  Packets that were initialized are encoded without a read outside
the container, so there always is a result. -/
def encoded (packets : Packets) (ordinal : ℕ) (out : Output) : PacketStatus × PacketInfo × List UInt8 :=
  match packets.encode ordinal out 0 with
  | .ok result => result
  | .error _ => (.notInitialized, {}, out.contents)

/-- A packet goes into its page, and its address into the ring. -/
def fillPacket (slots : Slots) (packets : Packets) (slot : ℕ) : Banking Bool := do
  let s ← get
  let (status, info, contents) :=
    encoded packets (slot - 1) ⟨slots.bytes slot, (s.pages slot).bytes⟩
  Code.every [
    writePage slot 0 contents,
    expect (status = .ok) .encodeFailed,
    writePage 0 ((slot - 1) * 8) (encodeBd (slots.mapping slot).address info.bytes).2,
    expect (encodeBd (slots.mapping slot).address info.bytes).1 .encodeFailed,
    update fun r => { r with payloadBytes := r.payloadBytes + info.bytes }]

def fillSlot (slots : Slots) (packets : Packets) (slot : ℕ) : Banking Bool :=
  Code.every [
    update fun r => { r with failedSlot := slot },
    (do expect (← Code.ask (.allocate slot)) .allocationFailed),
    update fun r => { r with allocated := r.allocated + 1 },
    (do expect (← Code.ask (.prepare slot)) .prepareFailed),
    update fun r => { r with prepared := r.prepared + 1 },
    expect (validMapping (slots.mapping slot)) .mappingInvalid,
    expect ((List.range slot).all fun j => (slots.mapping slot).address != (slots.mapping j).address)
      .mappingOverlap,
    expect (slots.bytes slot).isSome .encodeFailed,
    writePage slot 0 (List.replicate pageBytes 0),
    if slot = 0 then
      update fun r => { r with ringAddress := (slots.mapping 0).address }
    else
      fillPacket slots packets slot]

/-- Packet data first, then the ring that points to it. -/
def syncSlot (packets slot : ℕ) : Banking Bool :=
  let i := (slot + 1) % (packets + 1)
  Code.every [
    update fun r => { r with failedSlot := i },
    (do expect (← Code.ask (.synchronize i)) .syncFailed),
    update fun r => { r with synced := r.synced + 1 }]

/-- A page holds its packet and nothing else, and the ring says where it is. -/
def slotAgrees (slots : Slots) (pages : ℕ → Page) (slot : ℕ) (info : PacketInfo)
    (expected : List UInt8) : Bool :=
  ((List.range pageBytes).all fun j =>
    (pages slot).bytes.getD j 0 == if j < info.bytes then expected.getD j 0 else 0) &&
  (List.range 8).all fun j =>
    (pages 0).bytes.getD ((slot - 1) * 8 + j) 0 ==
      (encodeBd (slots.mapping slot).address info.bytes).2.getD j 0

/-- The packets from `slot` on, compared with the ones that are encoded again into a local buffer. -/
def verifyFrom (slots : Slots) (packets : Packets) (address : ℕ) :
    ℕ → ℕ → List UInt8 → Banking Bool
  | 0, _, _ => return true
  | n + 1, slot, expected => do
      let s ← get
      let (status, info, expected) := encoded packets (slot - 1) ⟨some address, expected⟩
      Code.every [
        update fun r => { r with failedSlot := slot },
        expect (status = .ok) .encodeFailed,
        expect (slotAgrees slots s.pages slot info expected) .verifyFailed,
        verifyFrom slots packets address n (slot + 1) expected]

def verifyTail (count : ℕ) : Banking Bool := do
  let s ← get
  expect ((List.range' (count * 8) (pageBytes - count * 8)).all fun j => (s.pages 0).bytes.getD j 0 == 0)
    .verifyFailed

/-- The loops of `prepareBank`.  `address` is where its local buffer lies. -/
def bankSteps (slots : Slots) (packets : Packets) (address : ℕ) : List (Banking Bool) :=
  [checkCommand] ++ (List.range (packets.count + 1)).map (fillSlot slots packets) ++
    (List.range (packets.count + 1)).map (syncSlot packets.count) ++
    [verifyFrom slots packets address packets.count 1 (List.replicate maxPacketBytes 0),
      verifyTail packets.count, checkCommand, update fun r => { r with status := .ready }]

def prepareBank (slots : Slots) (packets : Packets) (address : ℕ) : Banking BankResult := do
  modify fun s => { s with result := { s.result with packets := packets.count } }
  if packets.count = 0 ∨ maxPackets < packets.count then
    modify fun s => { s with result := { s.result with status := .invalidPlan } }
    return (← get).result
  else
    let _ ← Code.every (bankSteps slots packets address)
    return (← get).result

end Transport
end Rtl8852be
