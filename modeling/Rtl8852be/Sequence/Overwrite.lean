import Mathlib.Tactic

/-!
# Overwrite — writing into a buffer

`overwrite l p bytes` is the buffer `l` after `bytes` have been written from `p` on.  The length of a
buffer does not change.
-/

namespace Rtl8852be
namespace Sequence

variable {α : Type} {l a b b' c : List α} {p i : ℕ}

def overwrite (l : List α) (p : ℕ) (bytes : List α) : List α :=
  l.mapIdx fun i x => if p ≤ i then bytes.getD (i - p) x else x

@[simp] theorem length_overwrite {bytes : List α} : (overwrite l p bytes).length = l.length :=
  List.length_mapIdx

theorem getElem_overwrite {bytes : List α} (hi : i < (overwrite l p bytes).length)
    (hi' : i < l.length) :
    (overwrite l p bytes)[i] = if p ≤ i then bytes.getD (i - p) l[i] else l[i] :=
  List.getElem_mapIdx

theorem overwrite_block (hp : p = a.length) (hb : b'.length = b.length) :
    overwrite (a ++ (b ++ c)) p b' = a ++ (b' ++ c) := by
  apply List.ext_getElem
  · simp [hb]
  · intro i hi hi'
    rw [getElem_overwrite hi (by simpa using hi)]
    by_cases hbefore : p ≤ i
    · rw [if_pos hbefore, List.getD_eq_getElem?_getD]
      by_cases hin : i - p < b'.length
      · -- Inside the block.
        rw [List.getElem?_eq_getElem hin, Option.getD_some, List.getElem_append_right (by omega),
          List.getElem_append_left (by omega)]
        simp [hp]
      · rw [List.getElem?_eq_none (not_lt.1 hin), Option.getD_none, List.getElem_append_right (by omega),
          List.getElem_append_right (by omega), List.getElem_append_right (by omega),
          List.getElem_append_right (by omega)]
        simp [hb]
    · rw [if_neg hbefore, List.getElem_append_left (by omega), List.getElem_append_left (by omega)]

theorem overwrite_zero (hb : b'.length = b.length) : overwrite (b ++ c) 0 b' = b' ++ c := by
  have hblock : overwrite ([] ++ (b ++ c)) 0 b' = [] ++ (b' ++ c) := overwrite_block rfl hb
  exact hblock

end Sequence
end Rtl8852be
