import Rtl8852be.Bits.Word

/-!
# Stream — numbers in a string of bits

A string of bits is read in pieces that do not begin at a byte.  The number in a piece has its lowest bit
first.

* `value_add` — a piece is put together from two;
* `foldl_value` — the loop that reads a piece bit by bit.
-/

namespace Rtl8852be
namespace Bits

/-- The string in a memory, the lowest bit of a byte first. -/
def bitAt (m : ℕ → UInt8) (n : ℕ) : Bool := (m (n / 8)).toNat.testBit (n % 8)

/-- The number in `n` bits from this position on. -/
def value (b : ℕ → Bool) (position : ℕ) : ℕ → ℕ
  | 0 => 0
  | n + 1 => value b position n + 2 ^ n * (b (position + n)).toNat

variable {b : ℕ → Bool} {position m n : ℕ}

theorem value_lt (b : ℕ → Bool) (position n : ℕ) : value b position n < 2 ^ n := by
  induction n with
  | zero => exact Nat.one_pos
  | succ n ih =>
      have hbit := Bool.toNat_le (b (position + n))
      have hmul := Nat.mul_le_mul_left (2 ^ n) hbit
      rw [value, Nat.pow_succ]
      omega

theorem value_add (b : ℕ → Bool) (position m n : ℕ) :
    value b position (m + n) = value b position m + 2 ^ m * value b (position + m) n := by
  induction n with
  | zero => rfl
  | succ n ih =>
      rw [← Nat.add_assoc, value, ih, value, Nat.mul_add, ← Nat.mul_assoc, ← Nat.pow_add,
        Nat.add_assoc position, Nat.add_assoc]

theorem value_mod (b : ℕ → Bool) (position m n : ℕ) :
    value b position (m + n) % 2 ^ m = value b position m := by
  rw [value_add, Nat.add_mul_mod_self_left, Nat.mod_eq_of_lt (value_lt b position m)]

theorem value_div (b : ℕ → Bool) (position m n : ℕ) :
    value b position (m + n) / 2 ^ m = value b (position + m) n := by
  rw [value_add, Nat.add_mul_div_left _ _ (Nat.two_pow_pos m),
    Nat.div_eq_of_lt (value_lt b position m), Nat.zero_add]

theorem value_congr {b b' : ℕ → Bool} {position position' : ℕ}
    (h : ∀ j < n, b (position + j) = b' (position' + j)) :
    value b position n = value b' position' n := by
  induction n with
  | zero => rfl
  | succ n ih =>
      rw [value, value, ih fun j hj => h j (Nat.lt_succ_of_lt hj), h n (Nat.lt_succ_self n)]

theorem value_testBit (x n : ℕ) : value x.testBit 0 n = x % 2 ^ n := by
  induction n with
  | zero => rw [value, Nat.pow_zero, Nat.mod_one]
  | succ n ih => rw [value, ih, Nat.zero_add, Nat.toNat_testBit, Nat.mod_pow_succ]

theorem foldl_count {bit : ℕ → ℕ} {p : ℕ → Bool} (is : List ℕ) (h : ∀ i ∈ is, bit i = (p i).toNat) :
    ∀ c : ℕ, is.foldl (fun c i => c + bit i) c = c + is.countP p := by
  induction is with
  | nil =>
      intro c
      rfl
  | cons i is ih =>
      intro c
      rw [List.foldl_cons, ih fun j hj => h j (List.mem_cons_of_mem i hj), h i List.mem_cons_self,
        List.countP_cons]
      cases p i with
      | false => simp
      | true =>
          simp
          omega

/-- A single bit, as it is read with a shift and a mask. -/
theorem shiftRight_and_one (x i : ℕ) : (x >>> i) &&& 1 = (x.testBit i).toNat := by
  rw [Nat.and_one_is_mod, Nat.shiftRight_eq_div_pow, Nat.toNat_testBit]

theorem foldl_value (bit : ℕ → ℕ) (hbit : ∀ j < n, bit j = (b (position + j)).toNat) :
    (List.range n).foldl (fun v j => v ||| bit j <<< j) 0 = value b position n := by
  induction n with
  | zero => rfl
  | succ n ih =>
      have hrest := ih fun j hj => hbit j (Nat.lt_succ_of_lt hj)
      rw [List.range_succ, List.foldl_append, hrest]
      show value b position n ||| bit n <<< n = _
      rw [or_shiftLeft (value_lt b position n), hbit n (Nat.lt_succ_self n), value, Nat.mul_comm]

end Bits
end Rtl8852be
