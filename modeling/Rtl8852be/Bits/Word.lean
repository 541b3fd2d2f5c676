import Mathlib.Tactic

/-!
# Word — fields of 32-bit words, and counters

Headers are built with shifts and ors, and read with masks and shifts.  Seen as numbers, fields that do
not overlap are added, a mask of low bits is a remainder and a shift to the right is a quotient, so that
what a header says can be computed with linear arithmetic.

* `toNat_or_shiftLeft` — a field above the bits already there is added;
* `toNat_and_low`, `toNat_shiftRight` — reading a field;
* `and_field_eq_zero`, `and_bit_ne_zero` — testing reserved bits and flags;
* `lt_next`, `next_ne_zero` — counting on.
-/

namespace Rtl8852be
namespace Bits

/-! ## Numbers -/

/-- A field above the bits of `a`. -/
theorem or_shiftLeft {a b k : ℕ} (ha : a < 2 ^ k) : a ||| b <<< k = a + b * 2 ^ k := by
  rw [Nat.or_comm, ← Nat.shiftLeft_add_eq_or_of_lt ha, Nat.shiftLeft_eq, Nat.add_comm]

theorem and_field (x n k : ℕ) : x &&& (2 ^ n - 1) <<< k = (x / 2 ^ k % 2 ^ n) <<< k := by
  apply Nat.eq_of_testBit_eq
  intro i
  rw [Nat.testBit_and, Nat.testBit_shiftLeft, Nat.testBit_shiftLeft]
  by_cases hi : k ≤ i
  · rw [Nat.testBit_two_pow_sub_one, Nat.testBit_mod_two_pow, Nat.testBit_div_two_pow]
    simp [hi, Bool.and_comm]
  · simp [hi]

/-! ## Words -/

variable {a b w : UInt32} {k : ℕ}

theorem toNat_shift {k : UInt32} (hk : k.toNat < 32) (hb : b.toNat * 2 ^ k.toNat < 2 ^ 32) :
    (b <<< k).toNat = b.toNat <<< k.toNat := by
  rw [UInt32.toNat_shiftLeft, Nat.mod_eq_of_lt hk, Nat.mod_eq_of_lt]
  rwa [Nat.shiftLeft_eq]

theorem toNat_or_shiftLeft {k : UInt32} (hk : k.toNat < 32) (ha : a.toNat < 2 ^ k.toNat)
    (hb : b.toNat * 2 ^ k.toNat < 2 ^ 32) :
    (a ||| b <<< k).toNat = a.toNat + b.toNat * 2 ^ k.toNat := by
  rw [UInt32.toNat_or, toNat_shift hk hb, or_shiftLeft ha]

theorem toNat_shiftRight {k : UInt32} (hk : k.toNat < 32) :
    (w >>> k).toNat = w.toNat / 2 ^ k.toNat := by
  rw [UInt32.toNat_shiftRight, Nat.mod_eq_of_lt hk, Nat.shiftRight_eq_div_pow]

/-- A mask of the low `n` bits. -/
theorem toNat_and_low {m : UInt32} {n : ℕ} (hm : m.toNat = 2 ^ n - 1) :
    (w &&& m).toNat = w.toNat % 2 ^ n := by
  rw [UInt32.toNat_and, hm, Nat.and_two_pow_sub_one_eq_mod]

/-- A mask of `n` bits from bit `k` on. -/
theorem and_field_eq_zero {m : UInt32} {n : ℕ} (hm : m.toNat = (2 ^ n - 1) <<< k) :
    w &&& m = 0 ↔ w.toNat / 2 ^ k % 2 ^ n = 0 := by
  rw [← UInt32.toNat_inj, UInt32.toNat_and, hm, and_field, Nat.shiftLeft_eq]
  constructor
  · intro h
    rcases Nat.mul_eq_zero.1 h with h | h
    · exact h
    · exact absurd h (Nat.two_pow_pos k).ne'
  · intro h
    simp [h]

theorem and_bit_ne_zero {m : UInt32} (hm : m.toNat = 2 ^ k) :
    w &&& m ≠ 0 ↔ w.toNat / 2 ^ k % 2 = 1 := by
  have hfield : w &&& m = 0 ↔ w.toNat / 2 ^ k % 2 ^ 1 = 0 :=
    and_field_eq_zero (by rw [hm, Nat.shiftLeft_eq]; simp)
  rw [Ne, hfield, Nat.pow_one]
  omega

/-! ## Counters -/

theorem lt_next {n : UInt64} (h : n ≠ 0xffffffffffffffff) : n < n + 1 := by
  have hsize := n.toNat_lt
  have hone : (1 : UInt64).toNat = 1 := rfl
  have hne : n.toNat ≠ 2 ^ 64 - 1 := fun heq => h (UInt64.toNat_inj.1 heq)
  rw [UInt64.lt_iff_toNat_lt, UInt64.toNat_add]
  omega

theorem next_ne_zero {n : UInt64} (h : n ≠ 0xffffffffffffffff) : n + 1 ≠ 0 := by
  intro hzero
  have hlt := lt_next h
  rw [hzero, UInt64.lt_iff_toNat_lt] at hlt
  exact Nat.not_lt_zero _ hlt

end Bits
end Rtl8852be
