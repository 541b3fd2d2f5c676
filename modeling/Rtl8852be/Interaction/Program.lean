import Mathlib.Tactic

/-!
# Program — gated code that talks to an environment

Driver code of this kind runs under one gate: an entry point executes to its end, and on the way it
calls into an environment whose replies it does not control.  This file provides:

* `Prog C R N α` — a finite decision tree of calls `c : C`, replies `R c` and ghost annotations `N`;
* `Code σ C R N α` — such a program with a mutable record `σ`, as a monad, so that a C++ member
  function can be written down statement by statement;
* `Prog.Outcome` — one way a program can go, with the trace of everything that was observable;
* `Prog.wp` / `Code.wp` — what holds after *every* outcome, with one rule per construct.

Replies are never restricted here: quantifying over outcomes is quantifying over every environment,
stateful or not, deterministic or not.  `Prog.run` executes a program against one concrete
environment, and `Prog.run_outcome` says that this is one of its outcomes.
-/

namespace Rtl8852be
namespace Interaction

/-- One entry of a trace: a call with the reply it got, or an annotation of the model. -/
inductive Event (C : Type) (R : C → Type) (N : Type)
  | call (c : C) (r : R c)
  | note (n : N)

/-- Decision trees of calls. -/
inductive Prog (C : Type) (R : C → Type) (N α : Type)
  | done (a : α)
  | ask (c : C) (k : R c → Prog C R N α)
  | tell (n : N) (p : Prog C R N α)

namespace Prog

variable {C : Type} {R : C → Type} {N α β : Type}

def bind : Prog C R N α → (α → Prog C R N β) → Prog C R N β
  | .done a, f => f a
  | .ask c k, f => .ask c fun r => bind (k r) f
  | .tell n p, f => .tell n (bind p f)

/-- `Outcome p log a`: for some replies `p` ends with `a`, having left the trace `log`. -/
inductive Outcome : Prog C R N α → List (Event C R N) → α → Prop
  | done (a : α) : Outcome (.done a) [] a
  | ask {c : C} {k : R c → Prog C R N α} {r : R c} {log : List (Event C R N)} {a : α} :
      Outcome (k r) log a → Outcome (.ask c k) (.call c r :: log) a
  | tell {n : N} {p : Prog C R N α} {log : List (Event C R N)} {a : α} :
      Outcome p log a → Outcome (.tell n p) (.note n :: log) a

/-- `wp p Q`: every outcome of `p` satisfies `Q`. -/
def wp : Prog C R N α → (List (Event C R N) → α → Prop) → Prop
  | .done a, Q => Q [] a
  | .ask c k, Q => ∀ r, (k r).wp fun log a => Q (.call c r :: log) a
  | .tell n p, Q => p.wp fun log a => Q (.note n :: log) a

theorem wp_iff_outcome (p : Prog C R N α) :
    ∀ Q : List (Event C R N) → α → Prop, p.wp Q ↔ ∀ log a, p.Outcome log a → Q log a := by
  induction p with
  | done a =>
      intro Q
      constructor
      · intro h log a' hout
        cases hout
        exact h
      · intro h
        exact h [] a (Outcome.done a)
  | ask c k ih =>
      intro Q
      constructor
      · intro h log a hout
        cases hout with
        | ask hk => exact (ih _ _).1 (h _) _ _ hk
      · intro h r
        exact (ih r _).2 fun log a hk => h _ _ (Outcome.ask hk)
  | tell n p ih =>
      intro Q
      constructor
      · intro h log a hout
        cases hout with
        | tell hp => exact (ih _).1 h _ _ hp
      · intro h
        exact (ih _).2 fun log a hp => h _ _ (Outcome.tell hp)

theorem wp_mono {Q Q' : List (Event C R N) → α → Prop} {p : Prog C R N α}
    (h : p.wp Q) (hQ : ∀ log a, Q log a → Q' log a) : p.wp Q' :=
  (wp_iff_outcome p Q').2 fun log a hout => hQ log a ((wp_iff_outcome p Q).1 h log a hout)

theorem wp_bind (p : Prog C R N α) (f : α → Prog C R N β) :
    ∀ Q : List (Event C R N) → β → Prop,
      (p.bind f).wp Q ↔ p.wp fun log a => (f a).wp fun log' b => Q (log ++ log') b := by
  induction p with
  | done a =>
      intro Q
      simp [bind, wp]
  | ask c k ih =>
      intro Q
      simp [bind, wp, ih]
  | tell n p ih =>
      intro Q
      simp [bind, wp, ih]

/-- Execute against one environment with state `β`. -/
def run (h : (c : C) → β → R c × β) : Prog C R N α → β → List (Event C R N) × α × β
  | .done a, b => ([], a, b)
  | .ask c k, b =>
      let (r, b') := h c b
      let (log, a, b'') := run h (k r) b'
      (.call c r :: log, a, b'')
  | .tell n p, b =>
      let (log, a, b') := run h p b
      (.note n :: log, a, b')

theorem run_outcome (h : (c : C) → β → R c × β) (p : Prog C R N α) :
    ∀ b : β, p.Outcome (p.run h b).1 (p.run h b).2.1 := by
  induction p with
  | done a =>
      intro b
      exact Outcome.done a
  | ask c k ih =>
      intro b
      exact Outcome.ask (ih _ _)
  | tell n p ih =>
      intro b
      exact Outcome.tell (ih _)

end Prog

/-! ## Code over a mutable record -/

/-- Programs that also read and write a record `σ`. -/
def Code (σ C : Type) (R : C → Type) (N α : Type) : Type := σ → Prog C R N (α × σ)

namespace Code

variable {σ C : Type} {R : C → Type} {N α β : Type}

instance : Monad (Code σ C R N) where
  pure a := fun s => .done (a, s)
  bind m f := fun s => (m s).bind fun x => f x.1 x.2

instance : MonadStateOf σ (Code σ C R N) where
  get := fun s => .done (s, s)
  set s := fun _ => .done ((), s)
  modifyGet f := fun s => .done (f s)

/-- Call into the environment and wait for the reply. -/
def ask (c : C) : Code σ C R N (R c) := fun s => .ask c fun r => .done (r, s)

/-- Leave an annotation in the trace.  Annotations are ghost: no code can read them. -/
def tell (n : N) : Code σ C R N Unit := fun s => .tell n (.done ((), s))

/-- Code that asks nothing of its environment. -/
def direct (f : σ → α × σ) : Code σ C R N α := fun s => .done (f s)

/-- `wp m Q s`: every outcome of `m` started in `s` satisfies `Q`. -/
def wp (m : Code σ C R N α) (Q : List (Event C R N) → α → σ → Prop) (s : σ) : Prop :=
  (m s).wp fun log x => Q log x.1 x.2

variable {Q Q' : List (Event C R N) → α → σ → Prop} {s : σ}

variable {m : Code σ C R N α}

theorem wp_outcome (h : m.wp Q s) {log : List (Event C R N)} {a : α} {s' : σ} (hout : (m s).Outcome log (a, s')) :
    Q log a s' :=
  (Prog.wp_iff_outcome (m s) _).1 h log (a, s') hout

theorem wp_of_outcome (h : ∀ log a s', (m s).Outcome log (a, s') → Q log a s') : m.wp Q s :=
  (Prog.wp_iff_outcome (m s) _).2 fun log x hout => h log x.1 x.2 hout

theorem wp_mono (h : m.wp Q s) (hQ : ∀ log a s', Q log a s' → Q' log a s') : m.wp Q' s :=
  Prog.wp_mono h fun log x => hQ log x.1 x.2

theorem wp_and (h : m.wp Q s) (h' : m.wp Q' s) :
    m.wp (fun log a s' => Q log a s' ∧ Q' log a s') s :=
  wp_of_outcome fun _ _ _ hout => ⟨wp_outcome h hout, wp_outcome h' hout⟩

/-! ### One rule per construct -/

@[simp] theorem wp_pure (a : α) : (pure a : Code σ C R N α).wp Q s ↔ Q [] a s := Iff.rfl

theorem wp_bind (m : Code σ C R N β) (f : β → Code σ C R N α) :
    (m >>= f).wp Q s ↔
      m.wp (fun log b s' => (f b).wp (fun log' a s'' => Q (log ++ log') a s'') s') s :=
  Prog.wp_bind (m s) (fun x => f x.1 x.2) fun log x => Q log x.1 x.2

@[simp] theorem wp_get_bind (f : σ → Code σ C R N α) :
    (get >>= f).wp Q s ↔ (f s).wp Q s := Iff.rfl

@[simp] theorem wp_set_bind (t : σ) (f : PUnit → Code σ C R N α) :
    (set t >>= f).wp Q s ↔ (f ⟨⟩).wp Q t := Iff.rfl

@[simp] theorem wp_modify_bind (g : σ → σ) (f : PUnit → Code σ C R N α) :
    (modify g >>= f).wp Q s ↔ (f ⟨⟩).wp Q (g s) := Iff.rfl

@[simp] theorem wp_ask_bind (c : C) (f : R c → Code σ C R N α) :
    (ask c >>= f).wp Q s ↔
      ∀ r, (f r).wp (fun log a s' => Q (.call c r :: log) a s') s := Iff.rfl

theorem wp_ask (c : C) {Q : List (Event C R N) → R c → σ → Prop} :
    (ask c).wp Q s ↔ ∀ r, Q [.call c r] r s := Iff.rfl

theorem wp_modify (g : σ → σ) {Q : List (Event C R N) → PUnit → σ → Prop} :
    (modify g : Code σ C R N PUnit).wp Q s ↔ Q [] ⟨⟩ (g s) := Iff.rfl

@[simp] theorem wp_tell_bind (n : N) (f : Unit → Code σ C R N α) :
    (tell n >>= f).wp Q s ↔ (f ()).wp (fun log a s' => Q (.note n :: log) a s') s := Iff.rfl

@[simp] theorem wp_direct (f : σ → α × σ) : (direct f : Code σ C R N α).wp Q s ↔ Q [] (f s).1 (f s).2 :=
  Iff.rfl

@[simp] theorem wp_map (g : β → α) (m : Code σ C R N β) :
    (g <$> m).wp Q s ↔ m.wp (fun log b s' => Q log (g b) s') s := by
  refine (wp_bind m fun b => pure (g b)).trans ?_
  simp

@[simp] theorem wp_ite {p : Prop} [Decidable p] (m m' : Code σ C R N α) :
    (if p then m else m').wp Q s ↔ (p → m.wp Q s) ∧ (¬ p → m'.wp Q s) := by
  by_cases hp : p <;> simp [hp]

-- From here on only the rules see through `wp`: unfolding it would run the code.
attribute [irreducible] wp

end Code

export Code (wp_outcome wp_of_outcome wp_mono wp_and wp_pure wp_bind wp_get_bind wp_set_bind wp_modify_bind wp_ask_bind
  wp_ask wp_modify wp_tell_bind wp_ite)

end Interaction
end Rtl8852be
