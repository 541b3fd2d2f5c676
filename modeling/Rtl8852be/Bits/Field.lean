import Mathlib.Tactic

/-!
# Field — parts of a register

A field of a register is given by a mask.  `shift`, `fieldGet` and `fieldPrep` are those of the constant
headers.  A register of one or two bytes is a word whose other bits are zero.
-/

namespace Rtl8852be

inductive Width
  | byte
  | half
  | word
  deriving DecidableEq, Repr

def Width.mask : Width → UInt32
  | .byte => 0xff
  | .half => 0xffff
  | .word => 0xffffffff

/-- The conversion to a type of this width. -/
def Width.narrow (w : Width) (v : UInt32) : UInt32 := v &&& w.mask

/-- The lowest bit of a mask.  The source never ends on an empty one. -/
def shift (m : UInt32) : UInt32 :=
  UInt32.ofNat (((List.range 32).find? fun i => m.toBitVec.getLsbD i).getD 31)

def fieldGet (m v : UInt32) : UInt32 := (v &&& m) >>> shift m

def fieldPrep (m v : UInt32) : UInt32 := (v <<< shift m) &&& m

theorem fieldGet_full (v : UInt32) : fieldGet 0xffffffff v = v := by
  have hshift : shift 0xffffffff = 0 := by decide
  unfold fieldGet
  rw [hshift, UInt32.shiftRight_zero]
  exact UInt32.and_neg_one

/-- `u32_replace_bits`. -/
def replaceBits (old v m : UInt32) : UInt32 := (old &&& ~~~m) ||| fieldPrep m v

def AgreeOutside (m old v : UInt32) : Prop := v &&& ~~~m = old &&& ~~~m

instance (m old v : UInt32) : Decidable (AgreeOutside m old v) := inferInstanceAs (Decidable (_ = _))

theorem or_and_distrib (a b c : UInt32) : (a ||| b) &&& c = (a &&& c) ||| (b &&& c) :=
  UInt32.toBitVec_inj.1 BitVec.and_or_distrib_right

namespace AgreeOutside

variable {m old x : UInt32}

theorem update (hx : x &&& ~~~m = 0) : AgreeOutside m old ((old &&& ~~~m) ||| x) := by
  unfold AgreeOutside
  rw [or_and_distrib, hx, UInt32.or_zero, UInt32.and_assoc, UInt32.and_self]

theorem and_not_self (v m : UInt32) : (v &&& m) &&& ~~~m = 0 := by
  rw [UInt32.and_assoc, UInt32.and_not_self, UInt32.and_zero]

theorem replace (old v m : UInt32) : AgreeOutside m old (replaceBits old v m) := update (and_not_self _ m)

theorem masked (old v m : UInt32) : AgreeOutside m old ((old &&& ~~~m) ||| (v &&& m)) :=
  update (and_not_self v m)

theorem clear (old m : UInt32) : AgreeOutside m old (old &&& ~~~m) := by
  unfold AgreeOutside
  rw [UInt32.and_assoc, UInt32.and_self]

theorem set (old m : UInt32) : AgreeOutside m old (old ||| m) := by
  unfold AgreeOutside
  rw [or_and_distrib, UInt32.and_not_self, UInt32.or_zero]

theorem narrow {v : UInt32} (h : AgreeOutside m old v) (w : Width) : AgreeOutside m (w.narrow old) (w.narrow v) := by
  unfold AgreeOutside at *
  unfold Width.narrow
  calc v &&& w.mask &&& ~~~m
      = v &&& ~~~m &&& w.mask := by rw [UInt32.and_assoc, UInt32.and_comm w.mask, ← UInt32.and_assoc]
    _ = old &&& ~~~m &&& w.mask := by rw [h]
    _ = old &&& w.mask &&& ~~~m := by rw [UInt32.and_assoc, UInt32.and_comm _ w.mask, ← UInt32.and_assoc]

end AgreeOutside

theorem narrow_narrow (w : Width) (v : UInt32) : w.narrow (w.narrow v) = w.narrow v := by
  unfold Width.narrow
  rw [UInt32.and_assoc, UInt32.and_self]

end Rtl8852be
