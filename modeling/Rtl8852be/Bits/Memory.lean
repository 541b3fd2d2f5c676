import Mathlib.Tactic

/-!
# Memory — byte buffers in one address space

A flat memory, so that two buffers of a program may be the same one or overlap.  The two byte loops that
copy a buffer, upwards and downwards, leave the same memory as long as they do not overwrite what they
have not read yet.
-/

namespace Rtl8852be
namespace Bits

abbrev Memory := ℕ → UInt8

namespace Memory

variable {m : Memory} {dst src n a : ℕ}

def load (m : Memory) (p n : ℕ) : List UInt8 := (List.range n).map fun i => m (p + i)

def store (m : Memory) (p : ℕ) (bytes : List UInt8) : Memory :=
  fun a => if p ≤ a ∧ a < p + bytes.length then bytes.getD (a - p) 0 else m a

/-- `for (i = 0; i < n; ++i) dst[i] = src[i]`. -/
def copyUp (m : Memory) (dst src : ℕ) : ℕ → Memory
  | 0 => m
  | n + 1 => Function.update (copyUp m dst src n) (dst + n) (copyUp m dst src n (src + n))

/-- `for (i = n; i > 0; --i) dst[i - 1] = src[i - 1]`. -/
def copyDown (m : Memory) (dst src : ℕ) : ℕ → Memory
  | 0 => m
  | n + 1 => copyDown (Function.update m (dst + n) (m (src + n))) dst src n

@[simp] theorem length_load : (m.load src n).length = n := by
  simp [load]

theorem load_eq_iff {m' : Memory} :
    m'.load dst n = m.load src n ↔ ∀ i < n, m' (dst + i) = m (src + i) := by
  simp [load]

theorem copyUp_apply (hdisjoint : dst + n ≤ src ∨ src + n ≤ dst) :
    copyUp m dst src n a = if dst ≤ a ∧ a < dst + n then m (src + (a - dst)) else m a := by
  induction n generalizing a with
  | zero =>
      rw [if_neg]
      · rfl
      · omega
  | succ n ih =>
      have hn : dst + n ≤ src ∨ src + n ≤ dst := by omega
      rw [copyUp, Function.update_apply, ih hn, ih hn]
      by_cases ha : a = dst + n
      · -- The byte read in this round has not been written in an earlier one.
        have hread : ¬ (dst ≤ src + n ∧ src + n < dst + n) := by omega
        rw [if_pos ha, if_neg hread, if_pos (by omega)]
        congr 1
        omega
      · rw [if_neg ha]
        by_cases hin : dst ≤ a ∧ a < dst + n
        · rw [if_pos hin, if_pos (by omega)]
        · rw [if_neg hin, if_neg (by omega)]

/-- A downward copy to a higher or equal address, whether the buffers overlap or not. -/
theorem copyDown_apply (hle : src ≤ dst) :
    copyDown m dst src n a = if dst ≤ a ∧ a < dst + n then m (src + (a - dst)) else m a := by
  induction n generalizing m with
  | zero =>
      rw [if_neg]
      · rfl
      · omega
  | succ n ih =>
      rw [copyDown, ih]
      by_cases hin : dst ≤ a ∧ a < dst + n
      · have hread : src + (a - dst) ≠ dst + n := by omega
        rw [if_pos hin, if_pos (by omega), Function.update_of_ne hread]
      · rw [if_neg hin]
        by_cases ha : a = dst + n
        · subst ha
          rw [Function.update_self, if_pos (by omega)]
          congr 1
          omega
        · rw [Function.update_of_ne ha, if_neg (by omega)]

theorem store_apply_of_lt {bytes : List UInt8} {p i : ℕ} (hi : i < bytes.length) :
    m.store p bytes (p + i) = bytes[i] := by
  rw [store, if_pos (by omega), Nat.add_sub_cancel_left]
  simp [hi]

theorem store_apply_of_not {bytes : List UInt8} {p : ℕ} (ha : ¬ (p ≤ a ∧ a < p + bytes.length)) :
    m.store p bytes a = m a := by
  rw [store, if_neg ha]

theorem load_store_append (m : Memory) (p n : ℕ) (bytes : List UInt8) :
    (m.store (p + n) bytes).load p (n + bytes.length) = m.load p n ++ bytes := by
  apply List.ext_getElem
  · simp
  · intro i hi _
    rw [length_load] at hi
    simp only [load, List.getElem_map, List.getElem_range]
    by_cases hin : i < n
    · rw [store_apply_of_not (by omega), List.getElem_append_left (by simpa using hin)]
      simp
    · have haddr : p + i = p + n + (i - n) := by omega
      rw [haddr, store_apply_of_lt (by omega), List.getElem_append_right (by simpa using hin)]
      simp

end Memory

end Bits
end Rtl8852be
