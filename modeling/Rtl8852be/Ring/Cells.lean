import Mathlib.Tactic

/-!
# Cells — a ring of optional cells seen from unbounded positions

Entries are numbered from the beginning of time; entry `k` lives in cell `k % size`.  `Stores` says that
the cells hold exactly the entries from number `lo` on.

* `Stores.push`, `Stores.pop` — a new entry at the end, and the oldest one taken away;
* `Stores.isSome_iff` — which cells are occupied;
* `Stores.values` — the occupied cells hold the live entries, in some order.
-/

namespace Rtl8852be
namespace Ring

variable {α : Type*} {size lo : ℕ} {cells : ℕ → Option α} {xs : List α}

/-- Two positions less than a turn apart are in the same cell only if they are equal. -/
theorem position_injective (lo : ℕ) {j k : ℕ} (hj : lo ≤ j) (hk : lo ≤ k) (hj' : j < lo + size)
    (hk' : k < lo + size) (h : j % size = k % size) : j = k := by
  rcases Nat.le_total j k with hle | hle
  · have hdvd : size ∣ k - j := (Nat.modEq_iff_dvd' hle).1 h
    have hzero : k - j = 0 := Nat.eq_zero_of_dvd_of_lt hdvd (by omega)
    omega
  · have hdvd : size ∣ j - k := (Nat.modEq_iff_dvd' hle).1 h.symm
    have hzero : j - k = 0 := Nat.eq_zero_of_dvd_of_lt hdvd (by omega)
    omega

/-- The cells hold the entries of `xs` from number `lo` on, and nothing else. -/
structure Stores (size : ℕ) (cells : ℕ → Option α) (lo : ℕ) (xs : List α) : Prop where
  le : lo ≤ xs.length
  fits : xs.length - lo ≤ size
  live : ∀ k, lo ≤ k → k < xs.length → cells (k % size) = xs[k]?
  free : ∀ i < size, (∀ k, lo ≤ k → k < xs.length → k % size ≠ i) → cells i = none

namespace Stores

theorem empty (hnone : ∀ i < size, cells i = none) : Stores size cells 0 [] where
  le := Nat.zero_le _
  fits := Nat.zero_le _
  live := by
    intro k _ hk
    exact absurd hk (Nat.not_lt_zero k)
  free := by
    intro i hi _
    exact hnone i hi

theorem isSome_iff (h : Stores size cells lo xs) {i : ℕ} (hi : i < size) :
    (cells i).isSome = true ↔ ∃ k, lo ≤ k ∧ k < xs.length ∧ k % size = i := by
  constructor
  · intro hsome
    by_contra hnone
    have hfree : cells i = none := by
      apply h.free i hi
      intro k hlo hk hki
      exact hnone ⟨k, hlo, hk, hki⟩
    rw [hfree] at hsome
    exact absurd hsome nofun
  · rintro ⟨k, hlo, hk, rfl⟩
    rw [h.live k hlo hk, List.getElem?_eq_getElem hk]
    rfl

/-- The cell of the next entry is free exactly when the ring is not full. -/
theorem next_isSome_iff (h : Stores size cells lo xs) (hsize : 0 < size) :
    (cells (xs.length % size)).isSome = true ↔ xs.length - lo = size := by
  have hle := h.le
  have hfits := h.fits
  rw [h.isSome_iff (Nat.mod_lt _ hsize)]
  constructor
  · rintro ⟨k, hlo, hk, hmod⟩
    by_contra hne
    have hkey : k = xs.length := position_injective lo hlo h.le (by omega) (by omega) hmod
    omega
  · intro hfull
    refine ⟨lo, le_refl lo, by omega, ?_⟩
    have hsum : xs.length = lo + size := by omega
    rw [hsum, Nat.add_mod_right]

theorem push (h : Stores size cells lo xs) (hroom : xs.length - lo < size) (x : α) :
    Stores size (Function.update cells (xs.length % size) (some x)) lo (xs ++ [x]) where
  le := by
    rw [List.length_append]
    exact h.le.trans (Nat.le_add_right _ _)
  fits := by
    simp
    omega
  live := by
    intro k hlo hk
    rw [List.length_append, List.length_singleton] at hk
    by_cases hlast : k = xs.length
    · subst hlast
      simp
    · have hle := h.le
      have hne : k % size ≠ xs.length % size := by
        intro hmod
        exact hlast (position_injective lo hlo h.le (by omega) (by omega) hmod)
      rw [Function.update_of_ne hne, h.live k hlo (by omega), List.getElem?_append_left (by omega)]
  free := by
    intro i hi hnone
    have hne : i ≠ xs.length % size := by
      intro heq
      exact hnone xs.length h.le (by simp) heq.symm
    rw [Function.update_of_ne hne]
    apply h.free i hi
    intro k hlo hk
    exact hnone k hlo (by simp; omega)

theorem pop (h : Stores size cells lo xs) (hlive : lo < xs.length) :
    Stores size (Function.update cells (lo % size) none) (lo + 1) xs where
  le := hlive
  fits := by
    have hfits := h.fits
    omega
  live := by
    intro k hlo hk
    have hfits := h.fits
    have hne : k % size ≠ lo % size := by
      intro hmod
      have hkey : k = lo :=
        position_injective lo (by omega) (le_refl lo) (by omega) (by omega) hmod
      omega
    rw [Function.update_of_ne hne, h.live k (by omega) hk]
  free := by
    intro i hi hnone
    by_cases heq : i = lo % size
    · rw [heq, Function.update_self]
    · rw [Function.update_of_ne heq]
      apply h.free i hi
      intro k hlo hk hki
      rcases Nat.eq_or_lt_of_le hlo with rfl | hlt
      · exact heq hki.symm
      · exact hnone k hlt hk hki

/-- Taking the value of one cell out of a list of cells. -/
theorem filterMap_update {l : List ℕ} (hl : l.Nodup) {i : ℕ} (hi : i ∈ l) {x : α}
    (hx : cells i = some x) :
    (l.filterMap cells).Perm (x :: l.filterMap (Function.update cells i none)) := by
  have herase : l.Perm (i :: l.erase i) := List.perm_cons_erase hi
  have hrest : (l.erase i).filterMap (Function.update cells i none) = (l.erase i).filterMap cells := by
    apply List.filterMap_congr
    intro j hj
    have hne : j ≠ i := by
      rintro rfl
      exact hl.not_mem_erase hj
    rw [Function.update_of_ne hne]
  have hleft : (l.filterMap cells).Perm (x :: (l.erase i).filterMap cells) := by
    refine (herase.filterMap cells).trans ?_
    rw [List.filterMap_cons_some hx]
  have hright : (l.filterMap (Function.update cells i none)).Perm ((l.erase i).filterMap cells) := by
    refine (herase.filterMap _).trans ?_
    rw [List.filterMap_cons_none (Function.update_self i none cells), hrest]
  exact hleft.trans (hright.symm.cons x)

theorem values (h : Stores size cells lo xs) :
    ((List.range size).filterMap cells).Perm (xs.drop lo) := by
  -- By induction on the number of live entries: the oldest one is taken out on both sides.
  generalize hd : xs.length - lo = d
  induction d generalizing lo cells with
  | zero =>
      have hle := h.le
      have hnone : (List.range size).filterMap cells = [] := by
        apply List.filterMap_eq_nil_iff.2
        intro i hi
        apply h.free i (List.mem_range.1 hi)
        intro k hlo hk
        omega
      rw [hnone, List.drop_of_length_le (by omega)]
  | succ d ih =>
      have hlive : lo < xs.length := by omega
      have hsize : 0 < size := by
        have hfits := h.fits
        omega
      have hcell : cells (lo % size) = some xs[lo] := by
        rw [h.live lo (le_refl lo) hlive, List.getElem?_eq_getElem hlive]
      have hmem : lo % size ∈ List.range size := List.mem_range.2 (Nat.mod_lt lo hsize)
      rw [List.drop_eq_getElem_cons hlive]
      refine (filterMap_update List.nodup_range hmem hcell).trans ?_
      exact (ih (h.pop hlive) (by omega)).cons _

end Stores

end Ring
end Rtl8852be
