import Rtl8852be.Interaction.Program

/-!
# Checks — code that returns whether it succeeded

* `Code.both`, `Code.every`, `Code.each` — the ways in which C++ combines such code: `m && m'`, a loop
  that is left at the first failure, and a loop that goes on;
* `Traced T` — `T s log s'` can be put together from what the parts of some code do;
* `Code.Keeps T m` — `m` does only what `T` allows, with one rule per construct;
* `Code.Confirms K m` — when `m` returns true, its trace satisfies `K`.
-/

namespace Rtl8852be
namespace Interaction

variable {σ C : Type} {R : C → Type} {N α β : Type}

/-! ## Combining checks -/

namespace Code

/-- `m && m'`. -/
def both (m m' : Code σ C R N Bool) : Code σ C R N Bool := do
  if ← m then
    m'
  else
    return false

def every : List (Code σ C R N Bool) → Code σ C R N Bool
  | [] => pure true
  | m :: ms => both m (every ms)

/-- Make all checks, also after one has failed. -/
def each : List (Code σ C R N Bool) → Code σ C R N Bool
  | [] => pure true
  | m :: ms => do
      let ok ← m
      let rest ← each ms
      return ok && rest

variable {Q : List (Event C R N) → Bool → σ → Prop} {s : σ}

theorem wp_both (m m' : Code σ C R N Bool) :
    (both m m').wp Q s ↔
      m.wp (fun log ok s' =>
        (ok = true → m'.wp (fun log' ok' s'' => Q (log ++ log') ok' s'') s') ∧
        (ok = false → Q log false s')) s := by
  rw [both, wp_bind]
  constructor
  · intro h
    refine wp_mono h fun log ok s' h' => ?_
    cases ok with
    | true => exact ⟨fun _ => by simpa using h', nofun⟩
    | false => exact ⟨nofun, fun _ => by simpa using h'⟩
  · intro h
    refine wp_mono h fun log ok s' h' => ?_
    cases ok with
    | true => simpa using h'.1 rfl
    | false => simpa using h'.2 rfl

end Code

/-! ## Relations that code keeps -/

/-- What happened in two parts of some code happened in the whole. -/
structure Traced (T : σ → List (Event C R N) → σ → Prop) : Prop where
  refl : ∀ s, T s [] s
  trans : ∀ {s s' s'' : σ} {log log' : List (Event C R N)},
    T s log s' → T s' log' s'' → T s (log ++ log') s''

theorem all_traced (P : Event C R N → Prop) :
    Traced fun (_ : σ) (log : List (Event C R N)) (_ : σ) => ∀ e ∈ log, P e where
  refl _ := fun _ he => absurd he List.not_mem_nil
  trans h h' := fun e he => (List.mem_append.1 he).elim (h e) (h' e)

namespace Code

variable {T : σ → List (Event C R N) → σ → Prop}

/-- Every outcome of `m` is as `T` says. -/
def Keeps (T : σ → List (Event C R N) → σ → Prop) (m : Code σ C R N α) : Prop :=
  ∀ s, m.wp (fun log _ s' => T s log s') s

theorem Keeps.pure (hT : Traced T) (a : α) : Keeps T (Pure.pure a : Code σ C R N α) := by
  intro s
  exact (wp_pure a).2 (hT.refl s)

theorem Keeps.bind (hT : Traced T) {m : Code σ C R N β} {f : β → Code σ C R N α} (hm : Keeps T m)
    (hf : ∀ b, Keeps T (f b)) : Keeps T (m >>= f) := by
  intro s
  rw [wp_bind]
  refine wp_mono (hm s) fun log b s' h => ?_
  exact wp_mono (hf b s') fun log' a s'' h' => hT.trans h h'

/-- A call whose replies all leave the record as it is. -/
theorem Keeps.ask_bind (hT : Traced T) {c : C} {f : R c → Code σ C R N α}
    (hc : ∀ s r, T s [.call c r] s) (hf : ∀ r, Keeps T (f r)) : Keeps T (ask c >>= f) := by
  intro s
  rw [wp_ask_bind]
  intro r
  exact wp_mono (hf r s) fun log a s' h => hT.trans (hc s r) h

theorem Keeps.modify_bind (hT : Traced T) {g : σ → σ} {f : PUnit → Code σ C R N α}
    (hg : ∀ s, T s [] (g s)) (hf : Keeps T (f ⟨⟩)) : Keeps T (modify g >>= f) := by
  intro s
  rw [wp_modify_bind]
  exact wp_mono (hf (g s)) fun log a s' h => hT.trans (hg s) h

theorem Keeps.get_bind {f : σ → Code σ C R N α} (hf : ∀ s, Keeps T (f s)) :
    Keeps T (get >>= f) := by
  intro s
  rw [wp_get_bind]
  exact hf s s

theorem Keeps.ite {p : Prop} [Decidable p] {m m' : Code σ C R N α} (hm : Keeps T m)
    (hm' : Keeps T m') : Keeps T (if p then m else m') := by
  by_cases hp : p
  · rw [if_pos hp]
    exact hm
  · rw [if_neg hp]
    exact hm'

theorem Keeps.mono {T' : σ → List (Event C R N) → σ → Prop} {m : Code σ C R N α} (hm : Keeps T m)
    (h : ∀ s log s', T s log s' → T' s log s') : Keeps T' m := by
  intro s
  exact wp_mono (hm s) fun log a s' => h s log s'

theorem Keeps.both (hT : Traced T) {m m' : Code σ C R N Bool} (hm : Keeps T m)
    (hm' : Keeps T m') : Keeps T (both m m') :=
  Keeps.bind hT hm fun _ => Keeps.ite hm' (Keeps.pure hT false)

theorem Keeps.every (hT : Traced T) {ms : List (Code σ C R N Bool)} (hms : ∀ m ∈ ms, Keeps T m) :
    Keeps T (every ms) := by
  induction ms with
  | nil => exact Keeps.pure hT true
  | cons m ms ih =>
      exact Keeps.both hT (hms m List.mem_cons_self)
        (ih fun m' hm' => hms m' (List.mem_cons_of_mem m hm'))

theorem Keeps.each (hT : Traced T) {ms : List (Code σ C R N Bool)} (hms : ∀ m ∈ ms, Keeps T m) :
    Keeps T (each ms) := by
  induction ms with
  | nil => exact Keeps.pure hT true
  | cons m ms ih =>
      refine Keeps.bind hT (hms m List.mem_cons_self) fun ok => ?_
      exact Keeps.bind hT (ih fun m' hm' => hms m' (List.mem_cons_of_mem m hm'))
        fun rest => Keeps.pure hT _

end Code

/-! ## What success means -/

/-- The trace falls into parts that satisfy these, in this order. -/
inductive Consecutive : List (List (Event C R N) → Prop) → List (Event C R N) → Prop
  | nil : Consecutive [] []
  | cons {K : List (Event C R N) → Prop} {Ks : List (List (Event C R N) → Prop)}
      {log log' : List (Event C R N)} : K log → Consecutive Ks log' →
      Consecutive (K :: Ks) (log ++ log')

theorem Consecutive.split {Ks Ks' : List (List (Event C R N) → Prop)} :
    ∀ {log : List (Event C R N)}, Consecutive (Ks ++ Ks') log →
      ∃ l l', log = l ++ l' ∧ Consecutive Ks l ∧ Consecutive Ks' l' := by
  induction Ks with
  | nil =>
      intro log h
      exact ⟨[], log, rfl, Consecutive.nil, h⟩
  | cons K Ks ih =>
      intro log h
      rcases h with _ | ⟨hhead, htail⟩
      rcases ih htail with ⟨l, l', rfl, hl, hl'⟩
      exact ⟨_, l', (List.append_assoc _ _ _).symm, Consecutive.cons hhead hl, hl'⟩

theorem Consecutive.exists_of_mem {Ks : List (List (Event C R N) → Prop)} {log : List (Event C R N)}
    (h : Consecutive Ks log) {K : List (Event C R N) → Prop} (hK : K ∈ Ks) : ∃ part, K part := by
  induction h with
  | nil => exact absurd hK List.not_mem_nil
  | cons hhead htail ih =>
      rcases List.mem_cons.1 hK with rfl | hK
      · exact ⟨_, hhead⟩
      · exact ih hK

namespace Code

/-- If `m` returns true then its trace satisfies `K`. -/
def Confirms (K : List (Event C R N) → Prop) (m : Code σ C R N Bool) : Prop :=
  ∀ s, m.wp (fun log ok _ => ok = true → K log) s

theorem Confirms.mono {K K' : List (Event C R N) → Prop} {m : Code σ C R N Bool}
    (h : Confirms K m) (hK : ∀ log, K log → K' log) : Confirms K' m := by
  intro s
  exact wp_mono (h s) fun log ok s' h' hok => hK log (h' hok)

theorem Confirms.both {K K' : List (Event C R N) → Prop} {m m' : Code σ C R N Bool}
    (hm : Confirms K m) (hm' : Confirms K' m') :
    Confirms (fun log => ∃ l l', log = l ++ l' ∧ K l ∧ K' l') (both m m') := by
  intro s
  rw [wp_both]
  refine wp_mono (hm s) fun log ok s' h => ⟨fun hok => ?_, nofun⟩
  exact wp_mono (hm' s') fun log' ok' s'' h' hok' => ⟨log, log', rfl, h hok, h' hok'⟩

theorem Confirms.every {Ks : List (List (Event C R N) → Prop)} {ms : List (Code σ C R N Bool)}
    (h : List.Forall₂ Confirms Ks ms) : Confirms (Consecutive Ks) (every ms) := by
  induction h with
  | nil =>
      intro s
      exact (wp_pure true).2 fun _ => Consecutive.nil
  | cons hm _ ih =>
      refine Confirms.mono (Confirms.both hm ih) ?_
      rintro log ⟨l, l', rfl, hl, hl'⟩
      exact Consecutive.cons hl hl'

theorem Confirms.each {Ks : List (List (Event C R N) → Prop)} {ms : List (Code σ C R N Bool)}
    (h : List.Forall₂ Confirms Ks ms) : Confirms (Consecutive Ks) (each ms) := by
  induction h with
  | nil =>
      intro s
      exact (wp_pure true).2 fun _ => Consecutive.nil
  | cons hm _ ih =>
      intro s
      rw [Code.each, wp_bind]
      refine wp_mono (hm s) fun log ok s' hlog => ?_
      rw [wp_bind]
      refine wp_mono (ih s') fun log' ok' s'' hlog' => ?_
      rw [wp_pure, List.append_nil, Bool.and_eq_true]
      rintro ⟨hok, hok'⟩
      exact Consecutive.cons (hlog hok) (hlog' hok')

end Code

end Interaction
end Rtl8852be
