import Mathlib.Tactic

/-!
# Flags — sets of small numbers in a word of 64 bits

A number below 64 is in the set if its bit is set.
-/

namespace Rtl8852be
namespace Bits

variable {v k : UInt64} {i : ℕ}

def flag (k : UInt64) : UInt64 := 1 <<< k

theorem testBit_flag (hk : k.toNat < 64) (hi : i < 64) : (flag k).toNat.testBit i = decide (i = k.toNat) := by
  rw [flag, UInt64.toNat_shiftLeft, Nat.mod_eq_of_lt hk, Nat.testBit_mod_two_pow, decide_eq_true hi,
    Bool.true_and, UInt64.toNat_one, Nat.shiftLeft_eq, Nat.one_mul, Nat.testBit_two_pow]
  exact decide_eq_decide.2 eq_comm

theorem testBit_or_flag (hk : k.toNat < 64) (hi : i < 64) :
    (v ||| flag k).toNat.testBit i = (v.toNat.testBit i || decide (i = k.toNat)) := by
  rw [UInt64.toNat_or, Nat.testBit_or, testBit_flag hk hi]

theorem and_flag_ne_zero (hk : k.toNat < 64) : v &&& flag k ≠ 0 ↔ v.toNat.testBit k.toNat = true := by
  have hbit : ∀ i, i < 64 → (v &&& flag k).toNat.testBit i = (v.toNat.testBit i && decide (i = k.toNat)) := by
    intro i hi
    rw [UInt64.toNat_and, Nat.testBit_and, testBit_flag hk hi]
  constructor
  · intro hne
    by_contra hclear
    refine hne (UInt64.toNat_inj.1 (Nat.eq_of_testBit_eq fun i => ?_))
    rw [UInt64.toNat_zero, Nat.zero_testBit]
    by_cases hi : i < 64
    · rw [hbit i hi]
      by_cases heq : i = k.toNat
      · rw [heq, Bool.eq_false_iff.2 hclear, Bool.false_and]
      · rw [decide_eq_false heq, Bool.and_false]
    · exact Nat.testBit_lt_two_pow (lt_of_lt_of_le (UInt64.toNat_lt _) (Nat.pow_le_pow_right two_pos (by omega)))
  · intro hset hzero
    have hone := hbit k.toNat hk
    rw [hzero, UInt64.toNat_zero, Nat.zero_testBit, hset, decide_eq_true rfl] at hone
    exact Bool.false_ne_true hone

end Bits
end Rtl8852be
