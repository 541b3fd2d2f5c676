import Mathlib.Tactic

/-!
# Window — the live part of a ring of cells

A ring buffer keeps its contents in `size` cells; the live ones are the `len` cells from `start` on,
modulo `size`.  `window` reads them as a list, oldest first.  Writing the cell after the last live one
appends to the list, moving `start` forward drops from its front, and as long as `len < size` no
write touches a live cell.
-/

namespace Rtl8852be
namespace Ring

variable {α : Type*} {size start len k i : ℕ} {cells : ℕ → α} {a : α}

def window (size : ℕ) (cells : ℕ → α) (start len : ℕ) : List α :=
  (List.range len).map fun i => cells ((start + i) % size)

@[simp] theorem length_window : (window size cells start len).length = len := by
  simp [window]

@[simp] theorem window_zero : window size cells start 0 = [] := rfl

theorem mem_window : a ∈ window size cells start len ↔ ∃ i < len, cells ((start + i) % size) = a := by
  simp [window]

theorem getElem_window (hi : i < (window size cells start len).length) :
    (window size cells start len)[i] = cells ((start + i) % size) := by
  simp [window]

theorem window_succ :
    window size cells start (len + 1) =
      window size cells start len ++ [cells ((start + len) % size)] := by
  simp [window, List.range_succ]

/-- Two offsets inside the ring that reach the same cell are equal. -/
theorem offset_injective (hi : i < size) (hk : k < size)
    (h : (start + i) % size = (start + k) % size) : i = k := by
  have hmod : i ≡ k [MOD size] := Nat.ModEq.add_left_cancel' start h
  exact Nat.ModEq.eq_of_lt_of_lt hmod hi hk

theorem window_update (hlen : len < size) :
    window size (Function.update cells ((start + len) % size) a) start (len + 1) =
      window size cells start len ++ [a] := by
  rw [window_succ, Function.update_self]
  congr 1
  refine List.map_congr_left fun i hi => Function.update_of_ne (fun h => ?_) _ _
  have hi : i < len := List.mem_range.1 hi
  exact absurd (offset_injective (hi.trans hlen) hlen h) hi.ne

theorem window_advance :
    window size cells ((start + k) % size) (len - k) = (window size cells start len).drop k := by
  refine List.ext_getElem (by simp) fun i hi hi' => ?_
  rw [getElem_window, List.getElem_drop, getElem_window, Nat.mod_add_mod, Nat.add_assoc]

/-- The first cell is taken out, and may be overwritten. -/
theorem window_pop (hs : start < size) (hlen : len ≤ size) :
    window size (Function.update cells start a) ((start + 1) % size) (len - 1) =
      (window size cells start len).drop 1 := by
  rw [← window_advance]
  refine List.map_congr_left fun i hi => Function.update_of_ne (fun h => ?_) _ _
  have hi : i < len - 1 := List.mem_range.1 hi
  rw [Nat.mod_add_mod, Nat.add_assoc] at h
  have hsame : (start + (1 + i)) % size = (start + 0) % size := h.trans (Nat.mod_eq_of_lt hs).symm
  have hzero := offset_injective (by omega) (by omega) hsame
  omega

theorem window_take (hk : k ≤ len) :
    (window size cells start len).take k = window size cells start k := by
  refine List.ext_getElem (by simp [hk]) fun i hi hi' => ?_
  rw [List.getElem_take, getElem_window, getElem_window]

theorem distance (hs : start < size) (hlen : len < size) :
    ((start + len) % size + size - start) % size = len := by
  rcases Nat.lt_or_ge (start + len) size with h | h
  · rw [Nat.mod_eq_of_lt h, show start + len + size - start = len + size by omega,
      Nat.add_mod_right, Nat.mod_eq_of_lt hlen]
  · rw [Nat.mod_eq_sub_mod h, Nat.mod_eq_of_lt (show start + len - size < size by omega),
      show start + len - size + size - start = len by omega, Nat.mod_eq_of_lt hlen]

/-- The position reached from `start` after the distance to `i` is `i`. -/
theorem add_distance (hs : start < size) (hi : i < size) :
    (start + (i + size - start) % size) % size = i := by
  rw [Nat.add_mod_mod, show start + (i + size - start) = i + size by omega, Nat.add_mod_right,
    Nat.mod_eq_of_lt hi]

end Ring
end Rtl8852be
