import Rtl8852be.Commands.Codec
import Rtl8852be.Radio.TableRuns
import Rtl8852be.Sequence.Pieces

/-!
# RadioFirmware — the pages of radio registers for the firmware

`RadioFirmware.hpp`.  The firmware gets the radio registers of a path again, as words in up to three pages.
`prepareRadioFirmware` collects them in storage of the caller, after a pass that only counts them;
`RadioFirmwarePages.encode` writes the command for one page.  Storage and commands are buffers in one memory,
which the table is not part of: its address is compared with the storage before anything is written.
-/

namespace Rtl8852be
namespace Radio

open Interaction Network Sequence
open Bits (Memory)

/-! ## The model -/

/-- No data is a null pointer. -/
structure RadioFirmwarePages where
  data : Option ℕ := none
  words : ℕ := 0
  path : UInt8 := 0
  deriving DecidableEq

namespace RadioFirmwarePages

def pages (p : RadioFirmwarePages) : ℕ := (p.words + 499) / 500

/-- The number of bytes written and the memory, or `none` for false. -/
def encode (p : RadioFirmwarePages) (m : Memory) (page : ℕ) (sequence : UInt8) (out : Option ℕ)
    (capacity : ℕ) : Option (ℕ × Memory) :=
  match p.data, out with
  | some src, some dst =>
      if p.words = 0 ∨ 1500 < p.words ∨ 1 < p.path ∨ p.pages ≤ page then
        none
      else
        let start := page * 500
        let count := if 500 < p.words - start then 500 else p.words - start
        if (if src ≤ dst then dst - src < p.words * 4 else src - dst < capacity) then
          none
        else
          encodeH2cAt m ⟨2, if p.path ≠ 0 then 9 else 8, UInt8.ofNat page⟩ sequence false false
            (some (src + start * 4)) (count * 4) (some dst) capacity
  | _, _ => none

end RadioFirmwarePages

/-- The storage may be a null pointer: then words are only counted. -/
structure RadioFirmwareCollector where
  storage : Option ℕ
  capacity : ℕ
  count : ℕ := 0
  memory : Memory

/-- The word of a register, as the firmware has it. -/
def registerWord (address value : UInt32) : UInt32 := (address <<< 20) ||| value

/-- The bits of a register address and of its value. -/
def Registers (address value : UInt32) : Prop :=
  address &&& ~~~0x100ff = 0 ∧ value &&& ~~~0xfffff = 0

instance (address value : UInt32) : Decidable (Registers address value) :=
  inferInstanceAs (Decidable (_ ∧ _))

namespace RadioFirmwareCollector

def answer : SinkCall → RadioFirmwareCollector → Bool × RadioFirmwareCollector
  | .rfWrite _ address value, c =>
      if ¬ Registers address value then
        (false, c)
      else if address < 0x100 then
        (true, c)
      else if 1500 ≤ c.count ∨ c.capacity / 4 ≤ c.count then
        (false, c)
      else
        let memory := match c.storage with
          | none => c.memory
          | some storage => c.memory.store (storage + c.count * 4) (store32 (registerWord address value))
        (true, { c with memory := memory, count := c.count + 1 })
  | _, c => (false, c)

end RadioFirmwareCollector

/-- The status, what `out` is afterwards, and the memory.  `registers` is the address of the table. -/
def prepareRadioFirmware (m : Memory) (table : RadioTable) (registers : ℕ) (rfe cut : UInt8)
    (storage : Option ℕ) (capacity : ℕ) : RadioTableStatus × RadioFirmwarePages × Memory :=
  match storage with
  | none => (.invalid, {}, m)
  | some dst =>
      let count := (table.registers.getD []).length
      if table.kind ≠ .radio then
        (.invalid, {}, m)
      else if 65536 < count ∨
          (if registers ≤ dst then dst - registers < count * 8 else registers - dst < capacity) then
        (.invalid, {}, m)
      else
        let check := (applyRadioTable table rfe cut).run RadioFirmwareCollector.answer
          { storage := none, capacity := capacity, memory := m }
        if check.2.1.status ≠ .ok then
          (check.2.1.status, {}, m)
        else
          let store := (applyRadioTable table rfe cut).run RadioFirmwareCollector.answer
            { storage := some dst, capacity := capacity, memory := m }
          if store.2.1.status = .ok then
            (store.2.1.status, { data := some dst, words := store.2.2.count, path := table.path },
              store.2.2.memory)
          else
            (store.2.1.status, {}, store.2.2.memory)

/-! ## Collecting -/

def wordBytes (words : List UInt32) : List UInt8 := words.flatMap store32

/-- What collecting these words does. -/
structure Collected (words : List UInt32) (c c' : RadioFirmwareCollector) : Prop where
  storage : c'.storage = c.storage
  capacity : c'.capacity = c.capacity
  count : c'.count = c.count + words.length
  fits : c.count ≤ 1500 → c.count * 4 ≤ c.capacity → c'.count ≤ 1500 ∧ c'.count * 4 ≤ c.capacity
  stored : ∀ p, c.storage = some p →
    c'.memory.load p (c'.count * 4) = c.memory.load p (c.count * 4) ++ wordBytes words
  frame : ∀ p, c.storage = some p → ∀ a, a < p + c.count * 4 ∨ p + c'.count * 4 ≤ a → c'.memory a = c.memory a
  unstored : c.storage = none → c'.memory = c.memory

theorem Collected.refl (c : RadioFirmwareCollector) : Collected [] c c where
  storage := rfl
  capacity := rfl
  count := rfl
  fits := fun h h' => ⟨h, h'⟩
  stored := fun _ _ => (List.append_nil _).symm
  frame := fun _ _ _ _ => rfl
  unstored := fun _ => rfl

theorem Collected.trans {words words' : List UInt32} {c c' c'' : RadioFirmwareCollector}
    (h : Collected words c c') (h' : Collected words' c' c'') : Collected (words ++ words') c c'' where
  storage := h'.storage.trans h.storage
  capacity := h'.capacity.trans h.capacity
  count := by rw [h'.count, h.count, List.length_append, Nat.add_assoc]
  fits := by
    intro hcount hcapacity
    have hmid := h.fits hcount hcapacity
    have hend := h'.fits hmid.1 (h.capacity.symm ▸ hmid.2)
    exact ⟨hend.1, h.capacity ▸ hend.2⟩
  stored := by
    intro p hp
    rw [h'.stored p (h.storage.trans hp), h.stored p hp, List.append_assoc, wordBytes, wordBytes, wordBytes,
      List.flatMap_append]
  frame := by
    intro p hp a ha
    have hcount := h.count
    have hcount' := h'.count
    rw [h'.frame p (h.storage.trans hp) a (by omega), h.frame p hp a (by omega)]
  unstored := fun hnone => (h'.unstored (h.storage.trans hnone)).trans (h.unstored hnone)

variable {table : RadioTable} {rfe cut : UInt8} {target : UInt32}

/-- The rows of a table that are for the target. -/
def selectedRows (target : UInt32) (items : List Item) : List RadioRegister :=
  items.flatMap (Item.chosen target)

/-- The words of the registers from `0x100` on. -/
def firmwareWords (rows : List RadioRegister) : List UInt32 :=
  (rows.filter fun r => 0x100 ≤ r.address).map fun r => r.address <<< (20 : UInt32) ||| r.value

/-- The rows are collected in the storage, and nothing else is written. -/
structure Prepared (table : RadioTable) (rfe cut : UInt8) (dst capacity : ℕ) (m m' : Memory)
    (rows : List RadioRegister) (pages : RadioFirmwarePages) : Prop where
  kind : table.kind = .radio
  layout : ∃ headlines items target, Layout table rfe cut headlines items target ∧
    rows = selectedRows target items
  registers : ∀ r ∈ rows, Registers r.address r.value
  pages_eq : pages = { data := some dst, words := (firmwareWords rows).length, path := table.path }
  fits : (firmwareWords rows).length ≤ 1500 ∧ (firmwareWords rows).length * 4 ≤ capacity
  stored : m'.load dst ((firmwareWords rows).length * 4) = wordBytes (firmwareWords rows)
  frame : ∀ a, a < dst ∨ dst + (firmwareWords rows).length * 4 ≤ a → m' a = m a

theorem deliveries_radio {items : List Item} (h : table.kind = .radio) :
    deliveries table target items =
      (selectedRows target items).map fun r => .rfWrite table.path r.address r.value := by
  rw [deliveries, h, List.map_eq_flatMap]
  rfl

theorem pages_eq (p : RadioFirmwarePages) : p.pages = pieceCount 2000 (p.words * 4) := by
  rw [RadioFirmwarePages.pages, pieceCount]
  split
  · omega
  · omega

end Radio
end Rtl8852be
