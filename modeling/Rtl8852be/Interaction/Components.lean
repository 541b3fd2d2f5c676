import Rtl8852be.Interaction.Checks

/-!
# Components — an object that is made of others

* `Code.within` — code of component `i`, as code of the whole: its calls carry `i`;
* `part i log` — what happened in component `i`;
* `Apart T` — what `T` says of every component, seen from the whole;
* `wp_within` — what code of a component does, as code of the whole;
* `wp_each_within`, `wp_every_within` — one check for each of several components: what it does to each of them,
  and that it leaves the others alone.
-/

namespace Rtl8852be
namespace Interaction

variable {ι σ τ C : Type} {R : C → Type} {N α : Type}

/-- Calls and notes of components carry their names. -/
abbrev Replies (ι : Type) (R : C → Type) : ι × C → Type := fun x => R x.2

/-- The same code, run by component `i`. -/
def Prog.within (i : ι) : Prog C R N α → Prog (ι × C) (Replies ι R) (ι × N) α
  | .done a => .done a
  | .ask c k => .ask (i, c) fun r => within i (k r)
  | .tell n p => .tell (i, n) (within i p)

def Event.within (i : ι) : Event C R N → Event (ι × C) (Replies ι R) (ι × N)
  | .call c r => .call (i, c) r
  | .note n => .note (i, n)

theorem Prog.wp_within (i : ι) (p : Prog C R N α) :
    ∀ Q : List (Event (ι × C) (Replies ι R) (ι × N)) → α → Prop,
      (p.within i).wp Q ↔ p.wp fun log a => Q (log.map (Event.within i)) a := by
  induction p with
  | done a =>
      intro Q
      rfl
  | ask c k ih =>
      intro Q
      exact forall_congr' fun r => ih r _
  | tell n p ih =>
      intro Q
      exact ih _

section Part

variable [DecidableEq ι]

/-- The event, if it belongs to component `i`. -/
def Event.of (i : ι) : Event (ι × C) (Replies ι R) (ι × N) → Option (Event C R N)
  | .call (j, c) r => if j = i then some (.call c r) else none
  | .note (j, n) => if j = i then some (.note n) else none

/-- What happened in component `i`. -/
def part (i : ι) (log : List (Event (ι × C) (Replies ι R) (ι × N))) : List (Event C R N) :=
  log.filterMap (Event.of i)

theorem part_append (i : ι) (log log' : List (Event (ι × C) (Replies ι R) (ι × N))) :
    part i (log ++ log') = part i log ++ part i log' :=
  List.filterMap_append

theorem part_within_self (i : ι) (log : List (Event C R N)) :
    part i (log.map (Event.within i)) = log := by
  induction log with
  | nil => rfl
  | cons e log ih =>
      cases e with
      | call c r => simpa [part, Event.within, Event.of] using ih
      | note n => simpa [part, Event.within, Event.of] using ih

theorem part_within_ne {i j : ι} (h : i ≠ j) (log : List (Event C R N)) :
    part j (log.map (Event.within i)) = [] := by
  induction log with
  | nil => rfl
  | cons e log ih =>
      cases e with
      | call c r => simpa [part, Event.within, Event.of, h] using ih
      | note n => simpa [part, Event.within, Event.of, h] using ih

/-- Every component has done what `T` says.  `get i` is the record of component `i`. -/
def Apart (get : ι → τ → σ) (T : σ → List (Event C R N) → σ → Prop) (t : τ)
    (log : List (Event (ι × C) (Replies ι R) (ι × N))) (t' : τ) : Prop :=
  ∀ i, T (get i t) (part i log) (get i t')

theorem apart_traced {get : ι → τ → σ} {T : σ → List (Event C R N) → σ → Prop} (hT : Traced T) :
    Traced (Apart get T) where
  refl := fun t i => hT.refl (get i t)
  trans := by
    intro t t' t'' log log' h h' i
    rw [part_append]
    exact hT.trans (h i) (h' i)

end Part

namespace Code

/-- Code of a component, where `get` and `put` find its record in that of the whole. -/
def within (i : ι) (get : τ → σ) (put : σ → τ → τ) (m : Code σ C R N α) :
    Code τ (ι × C) (Replies ι R) (ι × N) α :=
  fun t => ((m (get t)).within i).bind fun x => .done (x.1, put x.2 t)

theorem wp_within {i : ι} {get : τ → σ} {put : σ → τ → τ} {m : Code σ C R N α}
    {Q : List (Event (ι × C) (Replies ι R) (ι × N)) → α → τ → Prop} {t : τ} :
    (within i get put m).wp Q t ↔
      m.wp (fun log a s => Q (log.map (Event.within i)) a (put s t)) (get t) := by
  simp only [wp, within, Prog.wp_bind, Prog.wp_within, Prog.wp, List.append_nil]

variable [DecidableEq ι]

end Code

/-! ### One check for each of several components -/

section Several

variable {ι σ τ φ C : Type} {R : C → Type} {N : Type} [DecidableEq ι] {get : ι → τ → σ} {put : ι → σ → τ → τ}
  {whole : τ → φ} {m : ι → Code σ C R N Bool} {S : ι → σ → List (Event C R N) → Bool → σ → Prop}

/-- What code of these components has done.  `oks` are the results, component by component. -/
structure Acted (get : ι → τ → σ) (whole : τ → φ) (S : ι → σ → List (Event C R N) → Bool → σ → Prop)
    (is : List ι) (oks : ι → Bool) (t : τ) (log : List (Event (ι × C) (Replies ι R) (ι × N))) (t' : τ) :
    Prop where
  acted : ∀ i ∈ is, S i (get i t) (part i log) (oks i) (get i t')
  apart : ∀ i ∉ is, part i log = [] ∧ get i t' = get i t
  whole : whole t' = whole t

theorem Acted.nil {oks : ι → Bool} {t : τ} : Acted get whole S [] oks t [] t :=
  ⟨fun _ h => absurd h List.not_mem_nil, fun _ _ => ⟨rfl, rfl⟩, rfl⟩

theorem Acted.cons {i : ι} {is : List ι} {oks : ι → Bool} {ok : Bool} {t t' : τ} {s : σ}
    {log : List (Event C R N)} {log' : List (Event (ι × C) (Replies ι R) (ι × N))} (hi : i ∉ is)
    (hself : get i (put i s t) = s) (hother : ∀ j, i ≠ j → get j (put i s t) = get j t)
    (hwhole : whole (put i s t) = whole t) (hS : S i (get i t) log ok s)
    (h : Acted get whole S is oks (put i s t) log' t') :
    Acted get whole S (i :: is) (Function.update oks i ok) t (log.map (Event.within i) ++ log') t' := by
  have hrest := h.apart i hi
  refine ⟨fun j hj => ?_, fun j hj => ?_, h.whole.trans hwhole⟩
  · by_cases hne : i = j
    · subst hne
      rw [part_append, part_within_self, hrest.1, hrest.2, hself, List.append_nil, Function.update_self]
      exact hS
    · have hmem : j ∈ is := (List.mem_cons.1 hj).resolve_left fun heq => hne heq.symm
      have hacted := h.acted j hmem
      rw [hother j hne] at hacted
      rw [part_append, part_within_ne hne, List.nil_append, Function.update_of_ne fun heq => hne heq.symm]
      exact hacted
  · rw [List.mem_cons, not_or] at hj
    have hne : i ≠ j := fun heq => hj.1 heq.symm
    rw [part_append, part_within_ne hne, List.nil_append, (h.apart j hj.2).2, hother j hne]
    exact ⟨(h.apart j hj.2).1, rfl⟩

namespace Code

variable (hself : ∀ i s t, get i (put i s t) = s) (hother : ∀ i j s t, i ≠ j → get j (put i s t) = get j t)
  (hwhole : ∀ i s t, whole (put i s t) = whole t)
include hself hother hwhole

/-- The checks are made one after the other, also after one has failed. -/
theorem wp_each_within {is : List ι} (hnodup : is.Nodup) : ∀ {t : τ},
    (∀ i ∈ is, (m i).wp (S i (get i t)) (get i t)) →
    (each (is.map fun i => within i (get i) (put i) (m i))).wp
      (fun log ok t' => ∃ oks, Acted get whole S is oks t log t' ∧ ok = is.all oks) t := by
  induction is with
  | nil => exact fun {t} _ => (wp_pure true).2 ⟨fun _ => true, Acted.nil, rfl⟩
  | cons i is ih =>
      intro t hm
      have hi := (List.nodup_cons.1 hnodup).1
      rw [List.map_cons, each, wp_bind, wp_within]
      refine wp_mono (hm i List.mem_cons_self) fun log ok s hS => ?_
      have hlater : ∀ j ∈ is, (m j).wp (S j (get j (put i s t))) (get j (put i s t)) := by
        intro j hj
        rw [hother i j s t fun heq => hi (heq ▸ hj)]
        exact hm j (List.mem_cons_of_mem i hj)
      rw [wp_bind]
      refine wp_mono (ih (List.nodup_cons.1 hnodup).2 hlater) fun log' ok' t' h => ?_
      rcases h with ⟨oks, hacted, rfl⟩
      rw [wp_pure, List.append_nil]
      refine ⟨Function.update oks i ok,
        hacted.cons hi (hself i s t) (fun j hne => hother i j s t hne) (hwhole i s t) hS, ?_⟩
      rw [List.all_cons, Function.update_self]
      congr 1
      rw [Bool.eq_iff_iff, List.all_eq_true, List.all_eq_true]
      refine forall₂_congr fun j hj => ?_
      have hne : j ≠ i := fun heq => hi (heq ▸ hj)
      rw [Function.update_of_ne hne]

theorem wp_every_within {is : List ι} (hnodup : is.Nodup) : ∀ {t : τ},
    (∀ i ∈ is, (m i).wp (S i (get i t)) (get i t)) →
    (every (is.map fun i => within i (get i) (put i) (m i))).wp
      (fun log ok t' => ∃ done rest oks, is = done ++ rest ∧ Acted get whole S done oks t log t' ∧
        (ok = true → rest = [] ∧ ∀ i ∈ done, oks i = true)) t := by
  induction is with
  | nil => exact fun {t} _ => (wp_pure true).2 ⟨[], [], fun _ => true, rfl, Acted.nil, fun _ => ⟨rfl, by simp⟩⟩
  | cons i is ih =>
      intro t hm
      have hi := (List.nodup_cons.1 hnodup).1
      rw [List.map_cons, every, wp_both, wp_within]
      refine wp_mono (hm i List.mem_cons_self) fun log ok s hS => ⟨fun hok => ?_, fun hok => ?_⟩
      · have hlater : ∀ j ∈ is, (m j).wp (S j (get j (put i s t))) (get j (put i s t)) := by
          intro j hj
          rw [hother i j s t fun heq => hi (heq ▸ hj)]
          exact hm j (List.mem_cons_of_mem i hj)
        refine wp_mono (ih (List.nodup_cons.1 hnodup).2 hlater) fun log' ok' t' h => ?_
        rcases h with ⟨done, rest, oks, rfl, hacted, hall⟩
        have hdone : i ∉ done := fun h => hi (List.mem_append_left rest h)
        refine ⟨i :: done, rest, Function.update oks i ok, rfl,
          hacted.cons hdone (hself i s t) (fun j hne => hother i j s t hne) (hwhole i s t) hS,
          fun hok' => ⟨(hall hok').1, fun j hj => ?_⟩⟩
        rcases List.mem_cons.1 hj with rfl | hj
        · rw [Function.update_self]
          exact hok
        · have hne : j ≠ i := fun heq => hdone (heq ▸ hj)
          rw [Function.update_of_ne hne]
          exact (hall hok').2 j hj
      · have hnil : Acted get whole S [] (fun _ => true) (put i s t) [] (put i s t) := Acted.nil
        have hacted := hnil.cons List.not_mem_nil (hself i s t) (fun j hne => hother i j s t hne) (hwhole i s t) hS
        rw [List.append_nil] at hacted
        exact ⟨[i], is, _, rfl, hacted, fun htrue => absurd htrue (by simp)⟩

end Code

end Several

end Interaction
end Rtl8852be
