import Rtl8852be.Checked.Reader
import Rtl8852be.Radio.TableRuns

/-!
# BasebandGain — gain tables of the baseband

`BasebandGain.hpp`.  A gain record names one of nine arrays, and in it the row of a band and a path and the
cells to fill.  A table is gone through twice: once to look at its records, and once more to store them.
-/

namespace Rtl8852be
namespace Radio

open Interaction Checked

inductive GainArray
  | lnaGain
  | tiaGain
  | lnaGainBypass
  | lnaOp1db
  | tiaLnaOp1db
  | rplOfst20
  | rplOfst40
  | rplOfst80
  | rplOfst160
  deriving DecidableEq

def GainArray.size : GainArray → ℕ
  | .lnaGain => 7
  | .tiaGain => 2
  | .lnaGainBypass => 7
  | .lnaOp1db => 7
  | .tiaLnaOp1db => 8
  | .rplOfst20 => 1
  | .rplOfst40 => 9
  | .rplOfst80 => 13
  | .rplOfst160 => 15

/-- The cell of an array for a band and a path. -/
abbrev BasebandGain := GainArray → ℕ → ℕ → ℕ → Int8

def BasebandGain.zero : BasebandGain := fun _ _ _ _ => 0

def BasebandGain.write (gain : BasebandGain) (array : GainArray) (band path i : ℕ) (v : Int8) :
    Reader Empty BasebandGain :=
  if band < 8 ∧ path < 2 ∧ i < array.size then
    .ok fun a b p k => if a = array ∧ b = band ∧ p = path ∧ k = i then v else gain a b p k
  else
    .error .outside

def signedByte (value : UInt8) : Int8 := value.toInt8

/-- What a record fills: `count` cells of an array from `start` on. -/
structure GainTarget where
  array : GainArray
  start : ℕ
  count : ℕ

/-- The array for the amplifier at the antenna. -/
def lnaArray (config : ℕ) : GainArray :=
  if config = 0 then .lnaGain else if config = 2 then .lnaGainBypass else .lnaOp1db

/-- The cases of `applyGainRecord` for the gains and compression points. -/
def gainTarget (config type : ℕ) : Option GainTarget :=
  if type < 2 then
    some ⟨lnaArray config, if type = 1 then 4 else 0, if type = 1 then 3 else 4⟩
  else if config = 0 ∧ type = 2 then
    some ⟨.tiaGain, 0, 2⟩
  else if config = 3 ∧ (type = 2 ∨ type = 3) then
    some ⟨.tiaLnaOp1db, if type = 3 then 4 else 0, 4⟩
  else
    none

/-- The array of a bandwidth above 20 MHz. -/
def offsetArray (width : ℕ) : GainArray :=
  if width = 1 then .rplOfst40 else if width = 2 then .rplOfst80 else .rplOfst160

/-- The cases for the offsets of the received power, by bandwidth and place in it. -/
def offsetTarget (width rxsc : ℕ) : Option GainTarget :=
  if width = 0 then
    some ⟨.rplOfst20, 0, 1⟩
  else if width ≤ 3 then
    if rxsc = 0 then some ⟨offsetArray width, rxsc, 1⟩
    else if rxsc = 1 then some ⟨offsetArray width, rxsc, if width = 1 then 2 else 4⟩
    else if rxsc = 9 ∧ 2 ≤ width then some ⟨offsetArray width, rxsc, if width = 2 then 2 else 4⟩
    else if width = 3 ∧ rxsc = 5 then some ⟨offsetArray width, rxsc, 4⟩
    else if width = 3 ∧ rxsc = 13 then some ⟨offsetArray width, rxsc, 2⟩
    else none
  else
    none

/-- The target of a record by its configuration and type. -/
def recordTarget (config type : ℕ) : Option GainTarget :=
  if config = 0 ∨ config = 2 ∨ config = 3 then gainTarget config type
  else if config = 1 then offsetTarget (type / 16) (type % 16)
  else none

/-- `n` more cells, from `i` on, with the bytes of the value. -/
def fill (array : GainArray) (band path : ℕ) : ℕ → ℕ → UInt32 → BasebandGain → Reader Empty BasebandGain
  | 0, _, _, gain => return gain
  | n + 1, i, value, gain => do
      let gain ← gain.write array band path i (signedByte value.toUInt8)
      fill array band path n (i + 1) (value >>> 8) gain

/-- The answer, and the gains if they are there. -/
def applyGainRecord (out : Option BasebandGain) (rfe : UInt8) (address value : UInt32) :
    Reader Empty (Bool × Option BasebandGain) :=
  let type := (address &&& 255).toNat
  let path := ((address >>> 8) &&& 255).toNat
  let band := ((address >>> 16) &&& 255).toNat
  let config := (address >>> 24).toNat
  if 2 ≤ path ∨ 8 ≤ band ∨ (0xf9 ≤ address ∧ address ≤ 0xfe) then
    return (false, out)
  else
    match recordTarget config type with
    | none =>
        -- Records for a front end that other boards have.
        return (config = 4 && rfe < 50, out)
    | some target =>
        match out with
        | none => return (true, none)
        | some gain => do
            let gain ← fill target.array band path target.count target.start value gain
            return (true, some gain)

/-- `GainCollector`; `outside` tells that a record was written beyond its array. -/
structure GainCollector where
  gain : Option BasebandGain
  rfe : UInt8
  outside : Bool := false

def GainCollector.answer : SinkCall → GainCollector → Bool × GainCollector
  | .gainRecord address value, c =>
      match applyGainRecord c.gain c.rfe address value with
      | .ok (accepted, gain) => (accepted, { c with gain := gain })
      | .error _ => (false, { c with outside := true })
  | _, c => (false, c)

/-- The cells of a target are cells of its array. -/
def GainTarget.Inside (t : GainTarget) : Prop := t.start + t.count ≤ t.array.size

theorem fill_safe {F : Empty → Prop} {array : GainArray} {band path : ℕ} (hband : band < 8) (hpath : path < 2) :
    ∀ (n i : ℕ) (value : UInt32) (gain : BasebandGain), i + n ≤ array.size →
      Safe F (fun _ => True) (fill array band path n i value gain) := by
  intro n
  induction n with
  | zero => exact fun _ _ _ _ => Safe.pure trivial
  | succ n ih =>
      intro i value gain hle
      have hwrite : Safe F (fun _ => True) (gain.write array band path i (signedByte value.toUInt8)) := by
        rw [BasebandGain.write, if_pos ⟨hband, hpath, by omega⟩]
        exact Safe.pure trivial
      exact hwrite.bind fun gain _ => ih (i + 1) (value >>> 8) gain (by omega)

variable {table : RadioTable} {rfe cut : UInt8}

end Radio
end Rtl8852be
