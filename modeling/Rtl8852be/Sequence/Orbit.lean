import Mathlib.Tactic

/-!
# Orbit — following a function from a place

A list whose links are in memory is followed from its first place: `f^[i] x` is the place after `i` links.
Some places are good.  Whoever follows the links stops at the first place that is not good, or when he comes
back to a place he has been at.

* `Stops.bad_iff` — the place at which he stops is the only one that is not good;
* `Stops.repeated_iff` — he comes back to a place only if all places are good;
* `Stops.le_card` — he does not make more steps than there are good places.
-/

namespace Rtl8852be
namespace Sequence

variable {α : Type*} {f : α → α} {x : α} {Good : α → Prop} {n j : ℕ}

/-- The `n` places before the end of the way are good and different. -/
structure Visits (f : α → α) (x : α) (Good : α → Prop) (n : ℕ) : Prop where
  good : ∀ i < n, Good (f^[i] x)
  distinct : ∀ i < n, ∀ j < n, f^[i] x = f^[j] x → i = j

/-- The way ends after `n` links: the place is not good, or it has been visited. -/
structure Stops (f : α → α) (x : α) (Good : α → Prop) (n : ℕ) : Prop extends Visits f x Good n where
  ends : ¬ Good (f^[n] x) ∨ ∃ j < n, f^[n] x = f^[j] x

theorem visits_zero : Visits f x Good 0 where
  good := fun i hi => absurd hi (Nat.not_lt_zero i)
  distinct := fun i hi => absurd hi (Nat.not_lt_zero i)

theorem Visits.succ (h : Visits f x Good n) (hgood : Good (f^[n] x)) (hnew : ∀ j < n, f^[n] x ≠ f^[j] x) :
    Visits f x Good (n + 1) where
  good := by
    intro i hi
    rcases Nat.lt_succ_iff_lt_or_eq.1 hi with hi | rfl
    · exact h.good i hi
    · exact hgood
  distinct := by
    intro i hi j hj heq
    rcases Nat.lt_succ_iff_lt_or_eq.1 hi with hi | rfl
    · rcases Nat.lt_succ_iff_lt_or_eq.1 hj with hj | rfl
      · exact h.distinct i hi j hj heq
      · exact absurd heq.symm (hnew i hi)
    · rcases Nat.lt_succ_iff_lt_or_eq.1 hj with hj | rfl
      · exact absurd heq (hnew j hj)
      · rfl

/-- Whoever has come back has seen every place of the way. -/
theorem good_forever (hgood : ∀ i < n, Good (f^[i] x)) (hj : j < n) (hback : f^[n] x = f^[j] x) (m : ℕ) :
    Good (f^[m] x) := by
  induction m using Nat.strong_induction_on with
  | _ m ih =>
      by_cases hm : m < n
      · exact hgood m hm
      · -- `m - n` links after the place that is met again.
        have hsame : f^[m] x = f^[m - n + j] x := by
          calc f^[m] x
              = f^[m - n + n] x := by rw [Nat.sub_add_cancel (Nat.not_lt.1 hm)]
            _ = f^[m - n] (f^[n] x) := Function.iterate_add_apply f (m - n) n x
            _ = f^[m - n] (f^[j] x) := by rw [hback]
            _ = f^[m - n + j] x := (Function.iterate_add_apply f (m - n) j x).symm
        rw [hsame]
        exact ih _ (by omega)

namespace Stops

/-- A kind of places that are not good is met if the way ends with one. -/
theorem bad_iff (h : Stops f x Good n) {Bad : α → Prop} (hbad : ∀ a, Bad a → ¬ Good a) :
    (∃ k, (∀ i < k, Good (f^[i] x)) ∧ Bad (f^[k] x)) ↔ Bad (f^[n] x) := by
  constructor
  · rintro ⟨k, hgood, hk⟩
    rcases Nat.lt_trichotomy k n with hlt | heq | hgt
    · exact absurd (h.good k hlt) (hbad _ hk)
    · exact heq ▸ hk
    · rcases h.ends with hno | ⟨j, hj, hback⟩
      · exact absurd (hgood n hgt) hno
      · exact absurd (good_forever h.good hj hback k) (hbad _ hk)
  · exact fun hn => ⟨n, h.good, hn⟩

theorem repeated_iff (h : Stops f x Good n) :
    (∃ k, (∀ i < k, Good (f^[i] x)) ∧ ∃ j < k, f^[k] x = f^[j] x) ↔ ∃ j < n, f^[n] x = f^[j] x := by
  constructor
  · rintro ⟨k, hgood, j, hj, hback⟩
    rcases h.ends with hno | hrepeated
    · exact absurd (good_forever hgood hj hback n) hno
    · exact hrepeated
  · rintro ⟨j, hj, hback⟩
    exact ⟨n, h.good, j, hj, hback⟩

end Stops

theorem Visits.le_card (h : Visits f x Good n) {N : ℕ} (index : α → ℕ) (hindex : ∀ a, Good a → index a < N)
    (hinj : ∀ a b, Good a → Good b → index a = index b → a = b) : n ≤ N := by
  have hmaps : ∀ i ∈ Finset.range n, index (f^[i] x) ∈ Finset.range N := by
    intro i hi
    exact Finset.mem_range.2 (hindex _ (h.good i (Finset.mem_range.1 hi)))
  have hcard := Finset.card_le_card_of_injOn (fun i => index (f^[i] x)) hmaps (by
    intro i hi j hj heq
    have hi' := Finset.mem_range.1 (Finset.mem_coe.1 hi)
    have hj' := Finset.mem_range.1 (Finset.mem_coe.1 hj)
    exact h.distinct i hi' j hj' (hinj _ _ (h.good i hi') (h.good j hj') heq))
  rwa [Finset.card_range, Finset.card_range] at hcard

end Sequence
end Rtl8852be
