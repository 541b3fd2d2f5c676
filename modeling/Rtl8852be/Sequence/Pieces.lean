import Mathlib.Tactic

/-!
# Pieces — a run of bytes cut into pieces of at most `n`

All pieces but the last have `n` elements, and the last has what is left.  Put together again they are the
run.
-/

namespace Rtl8852be
namespace Sequence

variable {α : Type} {n t : ℕ}

/-- `size` elements from `start` on. -/
def slice (l : List α) (start size : ℕ) : List α := (l.drop start).take size

theorem length_slice {l : List α} {start size : ℕ} (h : start + size ≤ l.length) :
    (slice l start size).length = size := by
  rw [slice, List.length_take, List.length_drop]
  omega

theorem slice_append (l : List α) (start a b : ℕ) :
    slice l start a ++ slice l (start + a) b = slice l start (a + b) := by
  rw [slice, slice, slice, List.take_add, List.drop_drop]

@[simp] theorem slice_zero (l : List α) (start : ℕ) : slice l start 0 = [] := List.take_zero

def pieceCount (n t : ℕ) : ℕ := t / n + if t % n ≠ 0 then 1 else 0

def pieceSize (n t k : ℕ) : ℕ := if t - k * n < n then t - k * n else n

theorem lt_pieceCount (hn : 0 < n) {k : ℕ} : k < pieceCount n t ↔ k * n < t := by
  rw [pieceCount]
  by_cases hmod : t % n = 0
  · rw [if_neg (not_not.2 hmod), Nat.add_zero, Nat.lt_div_iff_mul_lt' (Nat.dvd_of_mod_eq_zero hmod),
      Nat.mul_comm]
  · -- The multiples of `n` up to `t` are below it.
    rw [if_pos hmod, Nat.lt_succ_iff, Nat.le_div_iff_mul_le hn]
    constructor
    · intro hle
      refine lt_of_le_of_ne hle fun heq => hmod ?_
      rw [← heq, Nat.mul_mod_left]
    · exact le_of_lt

theorem pieceCount_eq (hn : 0 < n) : (t + n - 1) / n = pieceCount n t := by
  apply eq_of_forall_lt_iff
  intro k
  rw [lt_pieceCount hn, Nat.lt_iff_add_one_le, Nat.le_div_iff_mul_le hn, Nat.add_mul, Nat.one_mul]
  omega

theorem pieceSize_bounds (hn : 0 < n) {k : ℕ} (hk : k < pieceCount n t) :
    1 ≤ pieceSize n t k ∧ pieceSize n t k ≤ n ∧ k * n + pieceSize n t k ≤ t := by
  rw [lt_pieceCount hn] at hk
  rw [pieceSize]
  split
  · omega
  · omega

theorem flatMap_slice_range (l : List α) (start : ℕ) : ∀ m : ℕ,
    (List.range m).flatMap (fun k => slice l (start + k * n) (pieceSize n t k)) =
      slice l start (min t (m * n)) := by
  intro m
  induction m with
  | zero => simp
  | succ m ih =>
      rw [List.range_succ, List.flatMap_append, ih, List.flatMap_singleton, Nat.succ_mul]
      by_cases hm : m * n ≤ t
      · have hsize : min t (m * n + n) = m * n + pieceSize n t m := by
          rw [pieceSize]
          split
          · omega
          · omega
        rw [Nat.min_eq_right hm, slice_append, hsize]
      · -- Nothing is left for this piece.
        have hn : n ≠ 0 := by
          rintro rfl
          exact hm (Nat.zero_le t)
        have hsize : pieceSize n t m = 0 := by
          rw [pieceSize, if_pos]
          · omega
          · omega
        have hmin : min t (m * n) = min t (m * n + n) := by omega
        rw [hsize, slice_zero, List.append_nil, hmin]

theorem flatMap_slice (hn : 0 < n) (l : List α) (start : ℕ) :
    (List.range (pieceCount n t)).flatMap (fun k => slice l (start + k * n) (pieceSize n t k)) =
      slice l start t := by
  have hall : t ≤ pieceCount n t * n := by
    by_contra hlt
    exact absurd ((lt_pieceCount hn).2 (not_le.1 hlt)) (lt_irrefl _)
  rw [flatMap_slice_range, Nat.min_eq_left hall]

end Sequence
end Rtl8852be
