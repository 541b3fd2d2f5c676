import Mathlib.Tactic
import Mathlib.Data.List.DropRight

/-!
# Insertion — one round of insertion sort on an array

An array is a function on indices, and `cells a n` are its first `n` elements.  `sink` is the inner loop
of insertion sort: it makes room behind the last element that the new one does not precede.

* `cells_sink` — what the loop does to the first elements, as a list;
* `perm_sink`, `pairwise_sink` — it adds the element, and keeps them in order.
-/

namespace Rtl8852be
namespace Sequence

variable {α : Type} {p : α → Bool} {x : α} {a : ℕ → α} {n : ℕ}

def cells (a : ℕ → α) (n : ℕ) : List α := (List.range n).map a

@[simp] theorem length_cells : (cells a n).length = n := by
  simp [cells]

@[simp] theorem cells_zero : cells a 0 = [] := rfl

theorem cells_succ : cells a (n + 1) = cells a n ++ [a n] := by
  simp [cells, List.range_succ]

theorem getElem?_cells {i : ℕ} (hi : i < n) : (cells a n)[i]? = some (a i) := by
  simp [cells, hi]

theorem mem_cells {y : α} : y ∈ cells a n ↔ ∃ i < n, a i = y := by
  simp [cells]

theorem cells_congr {b : ℕ → α} (h : ∀ i < n, a i = b i) : cells a n = cells b n := by
  apply List.map_congr_left
  intro i hi
  exact h i (List.mem_range.1 hi)

theorem cells_update_of_le {i : ℕ} (hi : n ≤ i) : cells (Function.update a i x) n = cells a n := by
  apply cells_congr
  intro k hk
  have hne : k ≠ i := by omega
  exact Function.update_of_ne hne x a

/-- `while (j && p(a[j - 1])) { a[j] = a[j - 1]; --j; } a[j] = x;` -/
def sink (p : α → Bool) (x : α) (a : ℕ → α) : ℕ → ℕ → α
  | 0 => Function.update a 0 x
  | j + 1 =>
      if p (a j) then sink p x (Function.update a (j + 1) (a j)) j
      else Function.update a (j + 1) x

/-- The loop writes nothing above the place where it starts. -/
theorem sink_of_lt {k : ℕ} : ∀ {a : ℕ → α} {n : ℕ}, n < k → sink p x a n k = a k := by
  intro a n
  induction n generalizing a with
  | zero =>
      intro hk
      exact Function.update_of_ne (Nat.pos_iff_ne_zero.1 hk) x a
  | succ n ih =>
      intro hk
      have hne : k ≠ n + 1 := by omega
      rw [sink]
      split
      · rw [ih (by omega)]
        exact Function.update_of_ne hne (a n) a
      · exact Function.update_of_ne hne x a

theorem cells_sink : ∀ {a : ℕ → α} {n : ℕ},
    cells (sink p x a n) (n + 1) = (cells a n).rdropWhile p ++ x :: (cells a n).rtakeWhile p := by
  intro a n
  induction n generalizing a with
  | zero => simp [cells, sink]
  | succ n ih =>
      rw [sink]
      split
      · -- The last element moves up by one, and the loop goes on with the others.
        next hp =>
        have htop : sink p x (Function.update a (n + 1) (a n)) n (n + 1) = a n := by
          rw [sink_of_lt (Nat.lt_succ_self n), Function.update_self]
        rw [cells_succ, htop, ih, cells_update_of_le (Nat.le_succ n), cells_succ,
          List.rdropWhile_concat_pos p _ _ hp, List.rtakeWhile_concat_pos p _ _ hp]
        simp
      · next hp =>
        rw [cells_succ, cells_update_of_le le_rfl, Function.update_self, cells_succ,
          List.rdropWhile_concat_neg p _ _ hp, List.rtakeWhile_concat_neg p _ _ hp]

theorem rdropWhile_append_rtakeWhile (l : List α) : l.rdropWhile p ++ l.rtakeWhile p = l := by
  rw [List.rdropWhile, List.rtakeWhile, ← List.reverse_append, List.takeWhile_append_dropWhile,
    List.reverse_reverse]

theorem perm_sink : (cells (sink p x a n) (n + 1)).Perm (x :: cells a n) := by
  rw [cells_sink]
  refine List.perm_middle.trans (List.Perm.cons x ?_)
  rw [rdropWhile_append_rtakeWhile]

/-- In an ordered list, the last element that stays in place decides for those before it. -/
theorem rel_of_mem_rdropWhile {r : α → α → Prop} {l : List α} {y : α}
    (htrans : ∀ {u v w : α}, r u v → r v w → r u w) (hn : ∀ y ∈ l, p y = false → r y x)
    (h : l.Pairwise r) (hy : y ∈ l.rdropWhile p) : r y x := by
  induction l using List.reverseRecOn with
  | nil => exact absurd hy List.not_mem_nil
  | append_singleton l z ih =>
      rcases List.pairwise_append.1 h with ⟨hl, -, hz⟩
      by_cases hp : p z = true
      · rw [List.rdropWhile_concat_pos p _ _ hp] at hy
        apply ih _ hl hy
        intro w hw
        exact hn w (List.mem_append_left _ hw)
      · rw [List.rdropWhile_concat_neg p _ _ hp] at hy
        have hstay : r z x :=
          hn z (List.mem_append_right _ (List.mem_singleton_self z)) (by simpa using hp)
        rcases List.mem_append.1 hy with hy | hy
        · exact htrans (hz y hy z (List.mem_singleton_self z)) hstay
        · rw [List.mem_singleton.1 hy]
          exact hstay

theorem pairwise_sink {r : α → α → Prop} (htrans : ∀ {u v w : α}, r u v → r v w → r u w)
    (hp : ∀ y ∈ cells a n, p y = true → r x y) (hn : ∀ y ∈ cells a n, p y = false → r y x)
    (h : (cells a n).Pairwise r) : (cells (sink p x a n) (n + 1)).Pairwise r := by
  have hsplit : ((cells a n).rdropWhile p ++ (cells a n).rtakeWhile p).Pairwise r := by
    rw [rdropWhile_append_rtakeWhile]
    exact h
  rcases List.pairwise_append.1 hsplit with ⟨hlow, hhigh, hcross⟩
  have hafter : ∀ y ∈ (cells a n).rtakeWhile p, r x y := by
    intro y hy
    apply hp y
    · rw [← rdropWhile_append_rtakeWhile (p := p) (cells a n)]
      exact List.mem_append_right _ hy
    · exact List.mem_rtakeWhile_imp hy
  rw [cells_sink, List.pairwise_append]
  refine ⟨hlow, List.pairwise_cons.2 ⟨hafter, hhigh⟩, ?_⟩
  intro y hy z hz
  rcases List.mem_cons.1 hz with rfl | hz
  · exact rel_of_mem_rdropWhile htrans hn h hy
  · exact hcross y hy z hz

end Sequence
end Rtl8852be
