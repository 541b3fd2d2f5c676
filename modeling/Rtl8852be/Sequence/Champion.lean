import Mathlib.Tactic

/-!
# Champion — the latest element for each key

A list of observations, oldest first, each with a key and a time.  The champion of a key is the first of
its observations with the greatest time.

* `champion_concat` — how one more observation changes the champions;
* `Champion.eq`, `exists_champion` — each key that occurs has exactly one;
* `champion_perm` — with distinct times the order of the observations does not matter.
-/

namespace Rtl8852be
namespace Sequence

variable {α κ τ : Type} [LinearOrder τ] {key : α → κ} {time : α → τ} {l l' : List α} {x y : α}

/-- `x` beats the earlier observations of its key, and no later one beats `x`. -/
def Champion (key : α → κ) (time : α → τ) (l : List α) (x : α) : Prop :=
  ∃ before after, l = before ++ x :: after ∧
    (∀ y ∈ before, key y = key x → time y < time x) ∧ ∀ y ∈ after, key y = key x → time y ≤ time x

theorem Champion.mem (h : Champion key time l x) : x ∈ l := by
  rcases h with ⟨before, after, rfl, -, -⟩
  exact List.mem_append_right before List.mem_cons_self

theorem Champion.le (h : Champion key time l x) (hy : y ∈ l) (hk : key y = key x) :
    time y ≤ time x := by
  rcases h with ⟨before, after, rfl, hbefore, hafter⟩
  rcases List.mem_append.1 hy with hy | hy
  · exact le_of_lt (hbefore y hy hk)
  · rcases List.mem_cons.1 hy with rfl | hy
    · exact le_rfl
    · exact hafter y hy hk

theorem not_champion_nil : ¬ Champion key time [] x :=
  fun h => List.not_mem_nil h.mem

theorem champion_concat : Champion key time (l ++ [x]) y ↔
    (Champion key time l y ∧ (key x = key y → time x ≤ time y)) ∨
      (y = x ∧ ∀ z ∈ l, key z = key x → time z < time x) := by
  constructor
  · rintro ⟨before, after, h, hbefore, hafter⟩
    -- The champion is the new observation exactly if nothing comes after it.
    rcases List.eq_nil_or_concat after with rfl | ⟨after, z, rfl⟩
    · rcases List.append_inj' h rfl with ⟨rfl, hxy⟩
      rcases List.cons.inj hxy with ⟨rfl, -⟩
      exact Or.inr ⟨rfl, hbefore⟩
    · rw [List.concat_eq_append] at h hafter
      have hsplit : l ++ [x] = (before ++ y :: after) ++ [z] := by simpa using h
      rcases List.append_inj' hsplit rfl with ⟨rfl, hxz⟩
      rcases List.cons.inj hxz with ⟨rfl, -⟩
      refine Or.inl ⟨⟨before, after, rfl, hbefore, ?_⟩, ?_⟩
      · intro w hw
        exact hafter w (List.mem_append_left _ hw)
      · exact hafter x (List.mem_append_right _ (List.mem_singleton_self x))
  · rintro (⟨⟨before, after, rfl, hbefore, hafter⟩, hx⟩ | ⟨rfl, hlt⟩)
    · refine ⟨before, after ++ [x], by simp, hbefore, ?_⟩
      intro z hz hk
      rcases List.mem_append.1 hz with hz | hz
      · exact hafter z hz hk
      · rcases List.mem_singleton.1 hz with rfl
        exact hx hk
    · exact ⟨l, [], rfl, hlt, by simp⟩

theorem exists_champion : ∀ {x : α}, x ∈ l → ∃ y, Champion key time l y ∧ key y = key x := by
  induction l using List.reverseRecOn with
  | nil =>
      intro x hx
      exact absurd hx List.not_mem_nil
  | append_singleton l z ih =>
      intro x hx
      by_cases hnew : ∀ w ∈ l, key w = key z → time w < time z
      · by_cases hk : key z = key x
        · exact ⟨z, champion_concat.2 (Or.inr ⟨rfl, hnew⟩), hk⟩
        · rcases List.mem_append.1 hx with hx | hx
          · rcases ih hx with ⟨y, hy, hkey⟩
            refine ⟨y, champion_concat.2 (Or.inl ⟨hy, ?_⟩), hkey⟩
            intro hzy
            exact absurd (hzy.trans hkey) hk
          · exact absurd (congrArg key (List.mem_singleton.1 hx)).symm hk
      · -- Somebody in `l` keeps the new observation away.
        push Not at hnew
        rcases hnew with ⟨w, hw, hwk, hwt⟩
        have hmem : ∃ v ∈ l, key v = key x := by
          rcases List.mem_append.1 hx with hx | hx
          · exact ⟨x, hx, rfl⟩
          · exact ⟨w, hw, by rw [hwk, List.mem_singleton.1 hx]⟩
        rcases hmem with ⟨v, hv, hvk⟩
        rcases ih hv with ⟨y, hy, hkey⟩
        refine ⟨y, champion_concat.2 (Or.inl ⟨hy, ?_⟩), hkey.trans hvk⟩
        intro hzy
        exact hwt.trans (hy.le hw (hwk.trans hzy))

theorem Champion.eq (hx : Champion key time l x) (hy : Champion key time l y)
    (hk : key x = key y) : x = y := by
  induction l using List.reverseRecOn with
  | nil => exact absurd hx not_champion_nil
  | append_singleton l z ih =>
      rcases champion_concat.1 hx with ⟨hxl, hxz⟩ | ⟨rfl, hxnew⟩
      · rcases champion_concat.1 hy with ⟨hyl, -⟩ | ⟨rfl, hynew⟩
        · exact ih hxl hyl
        · exact absurd (hynew x hxl.mem hk) (not_lt.2 (hxz hk.symm))
      · rcases champion_concat.1 hy with ⟨hyl, hyz⟩ | ⟨rfl, -⟩
        · exact absurd (hxnew y hyl.mem hk.symm) (not_lt.2 (hyz hk))
        · rfl

theorem champion_iff_of_distinct (hd : l.Pairwise fun a b => key a = key b → time a ≠ time b) :
    Champion key time l x ↔ x ∈ l ∧ ∀ y ∈ l, key y = key x → time y ≤ time x := by
  constructor
  · intro h
    exact ⟨h.mem, fun y hy => h.le hy⟩
  · rintro ⟨hx, hle⟩
    rcases List.append_of_mem hx with ⟨before, after, rfl⟩
    refine ⟨before, after, rfl, ?_, ?_⟩
    · intro y hy hk
      have hne : time y ≠ time x :=
        (List.pairwise_append.1 hd).2.2 y hy x List.mem_cons_self hk
      exact lt_of_le_of_ne (hle y (List.mem_append_left _ hy) hk) hne
    · intro y hy hk
      exact hle y (List.mem_append_right _ (List.mem_cons_of_mem x hy)) hk

theorem champion_perm (hperm : l.Perm l')
    (hd : l.Pairwise fun a b => key a = key b → time a ≠ time b) :
    Champion key time l x ↔ Champion key time l' x := by
  have hd' : l'.Pairwise fun a b => key a = key b → time a ≠ time b := by
    refine hd.perm hperm ?_
    intro a b h hk
    exact (h hk.symm).symm
  rw [champion_iff_of_distinct hd, champion_iff_of_distinct hd', hperm.mem_iff]
  simp only [hperm.mem_iff]

end Sequence
end Rtl8852be
