import Rtl8852be.Interaction.Program
import Rtl8852be.Interaction.Reentry

/-!
# Nesting — entry points that are called during a call

`Reentry` follows an object through all its uses.  Here one call of an entry point is followed from its beginning to its
end, with everything that was called in between.

* `Task.Ran` — how code runs: whenever the record is lent, entry points are run to their end, any number of them, and
  then the callee returns;
* `Task.Meets` — what has to be shown of code, where `V` says what the calls during a loan do;
* `Task.Ran.meets` — what was shown holds of every run, if every entry point is itself bound by `V`;
* `Task.alone` — the same code where nobody calls.
-/

namespace Rtl8852be
namespace Interaction

/-- What happens while an entry point runs. -/
inductive Happening (C : Type) (R : C → Type) (Y N Op ρ : Type)
  | call (c : C) (r : R c)
  | note (n : N)
  | entered (op : Op)
  | left (op : Op) (r : ρ)
  | regained (y : Y) (b : Bool)

namespace Task

variable {σ C : Type} {R : C → Type} {Y N Op ρ α β : Type}

/-- `Ran exec p log r s`: the code `p` ends with `r` and the record `s`, and `log` is what happened. -/
inductive Ran (exec : Op → Reentrant σ C R Y N ρ) :
    Task σ C R Y N ρ → List (Happening C R Y N Op ρ) → ρ → σ → Prop
  | done {r : ρ} {s : σ} : Ran exec (.done r s) [] r s
  | ask {c : C} {s s' : σ} {k : R c → Task σ C R Y N ρ} {x : R c} {log : List (Happening C R Y N Op ρ)} {r : ρ} :
      Ran exec (k x) log r s' → Ran exec (.ask c s k) (.call c x :: log) r s'
  | tell {n : N} {s s' : σ} {p : Task σ C R Y N ρ} {log : List (Happening C R Y N Op ρ)} {r : ρ} :
      Ran exec p log r s' → Ran exec (.tell n s p) (.note n :: log) r s'
  | visit {y : Y} {s s₁ s' : σ} {k : Bool → σ → Task σ C R Y N ρ} {op : Op}
      {log log' : List (Happening C R Y N Op ρ)} {x r : ρ} :
      Ran exec (exec op s) log x s₁ → Ran exec (.lend y s₁ k) log' r s' →
        Ran exec (.lend y s k) (.entered op :: log ++ .left op x :: log') r s'
  | regain {y : Y} {s s' : σ} {k : Bool → σ → Task σ C R Y N ρ} {b : Bool} {log : List (Happening C R Y N Op ρ)}
      {r : ρ} : Ran exec (k b s) log r s' → Ran exec (.lend y s k) (.regained y b :: log) r s'

variable (V : σ → List (Happening C R Y N Op ρ) → σ → Prop)

/-- `p.Meets V Q t`: after `t`, and with calls that do what `V` says, `p` ends in `Q`. -/
def Meets (Q : List (Happening C R Y N Op ρ) → α → σ → Prop) :
    Task σ C R Y N α → List (Happening C R Y N Op ρ) → Prop
  | .done a s, t => Q t a s
  | .ask c _ k, t => ∀ x, (k x).Meets Q (t ++ [.call c x])
  | .tell n _ p, t => p.Meets Q (t ++ [.note n])
  | .lend y s k, t => ∀ log s' b, V s log s' → (k b s').Meets Q (t ++ log ++ [.regained y b])

variable {V}

theorem meets_mono {Q Q' : List (Happening C R Y N Op ρ) → α → σ → Prop} (hQ : ∀ t a s, Q t a s → Q' t a s)
    (p : Task σ C R Y N α) : ∀ {t}, p.Meets V Q t → p.Meets V Q' t := by
  induction p with
  | done a s => exact hQ _ a s
  | ask c s k ih => exact fun h x => ih x (h x)
  | tell n s p ih => exact ih
  | lend y s k ih => exact fun h log s' b hV => ih b s' (h log s' b hV)

theorem meets_trivial {Q : List (Happening C R Y N Op ρ) → α → σ → Prop} (hQ : ∀ t a s, Q t a s)
    (p : Task σ C R Y N α) : ∀ {t}, p.Meets V Q t := by
  induction p with
  | done a s => exact hQ _ a s
  | ask c s k ih => exact fun x => ih x
  | tell n s p ih => exact ih
  | lend y s k ih => exact fun log s' b _ => ih b s'

theorem meets_bind {Q : List (Happening C R Y N Op ρ) → β → σ → Prop} (p : Task σ C R Y N α)
    (f : α → σ → Task σ C R Y N β) :
    ∀ {t}, (p.bind f).Meets V Q t ↔ p.Meets V (fun t' a s => (f a s).Meets V Q t') t := by
  induction p with
  | done a s => exact Iff.rfl
  | ask c s k ih => exact forall_congr' fun x => ih x
  | tell n s p ih => exact ih
  | lend y s k ih =>
      exact forall_congr' fun log => forall_congr' fun s' => forall_congr' fun b => imp_congr_right fun _ => ih b s'

theorem Ran.meets {exec : Op → Reentrant σ C R Y N ρ} (hrefl : ∀ s, V s [] s)
    (htrans : ∀ {s s' s'' log log'}, V s log s' → V s' log' s'' → V s (log ++ log') s'')
    (hexec : ∀ op s, (exec op s).Meets V (fun log x s' => V s (.entered op :: log ++ [.left op x]) s') [])
    {p : Task σ C R Y N ρ} {log : List (Happening C R Y N Op ρ)} {r : ρ} {s' : σ} (hran : Ran exec p log r s') :
    ∀ {Q t}, p.Meets V Q t → Q (t ++ log) r s' := by
  induction hran with
  | done =>
      intro Q t h
      rw [List.append_nil]
      exact h
  | ask _ ih =>
      intro Q t h
      have hlater := ih (h _)
      rw [List.append_assoc] at hlater
      exact hlater
  | tell _ ih =>
      intro Q t h
      have hlater := ih h
      rw [List.append_assoc] at hlater
      exact hlater
  | @visit y s s₁ s' k op log log' x r _ _ ih ih' =>
      intro Q t h
      -- The visit is one part of what the calls of this loan do, and the rest of the loan is another.
      have hvisit : V s (.entered op :: log ++ [.left op x]) s₁ := ih (hexec op s)
      have hrest : (Task.lend y s₁ k).Meets V Q (t ++ (.entered op :: log ++ [.left op x])) := by
        intro later s₂ b hV
        have hall := h _ s₂ b (htrans hvisit hV)
        rw [← List.append_assoc] at hall
        exact hall
      have hlater := ih' hrest
      simp only [List.append_assoc, List.cons_append, List.nil_append] at hlater ⊢
      exact hlater
  | @regain y s s' k b log r _ ih =>
      intro Q t h
      have hlater := ih (h [] s b (hrefl s))
      simp only [List.append_nil, List.append_assoc, List.cons_append, List.nil_append] at hlater
      exact hlater

/-! ### Runs with given replies -/

/-- Nobody calls, and these are the replies. -/
def straight (env : (c : C) → R c) : Task σ C R Y N ρ → List (Happening C R Y N Op ρ) × ρ × σ
  | .done r s => ([], r, s)
  | .ask c _ k => (.call c (env c) :: (straight env (k (env c))).1, (straight env (k (env c))).2)
  | .tell n _ p => (.note n :: (straight env p).1, (straight env p).2)
  | .lend y s k => (.regained y true :: (straight env (k true s)).1, (straight env (k true s)).2)

/-- These entry points are called, one after the other. -/
def visiting (exec : Op → Reentrant σ C R Y N ρ) (env : (c : C) → R c) :
    List Op → σ → List (Happening C R Y N Op ρ) × σ
  | [], s => ([], s)
  | op :: ops, s =>
      let first := (exec op s).straight env
      let later := visiting exec env ops first.2.2
      (.entered op :: first.1 ++ .left op first.2.1 :: later.1, later.2)

/-- At each loan, these entry points are called. -/
def play (exec : Op → Reentrant σ C R Y N ρ) (env : (c : C) → R c) (calls : Y → List Op) :
    Task σ C R Y N ρ → List (Happening C R Y N Op ρ) × ρ × σ
  | .done r s => ([], r, s)
  | .ask c _ k => (.call c (env c) :: (play exec env calls (k (env c))).1, (play exec env calls (k (env c))).2)
  | .tell n _ p => (.note n :: (play exec env calls p).1, (play exec env calls p).2)
  | .lend y s k =>
      let visits := visiting exec env (calls y) s
      let later := play exec env calls (k true visits.2)
      (visits.1 ++ .regained y true :: later.1, later.2)

theorem ran_straight (exec : Op → Reentrant σ C R Y N ρ) (env : (c : C) → R c) (p : Task σ C R Y N ρ) :
    let x : List (Happening C R Y N Op ρ) × ρ × σ := p.straight env
    Ran exec p x.1 x.2.1 x.2.2 := by
  induction p with
  | done r s => exact .done
  | ask c s k ih => exact .ask (ih (env c))
  | tell n s p ih => exact .tell ih
  | lend y s k ih => exact .regain (ih true s)

theorem ran_visiting {exec : Op → Reentrant σ C R Y N ρ} (env : (c : C) → R c) {y : Y}
    {k : Bool → σ → Task σ C R Y N ρ} {log : List (Happening C R Y N Op ρ)} {r : ρ} {s' : σ} (ops : List Op) :
    ∀ s, Ran exec (.lend y (visiting exec env ops s).2 k) log r s' →
      Ran exec (.lend y s k) ((visiting exec env ops s).1 ++ log) r s' := by
  induction ops with
  | nil => exact fun s h => h
  | cons op ops ih =>
      intro s h
      have hlater := Ran.visit (ran_straight exec env (exec op s)) (ih _ h)
      rw [visiting]
      simp only [List.append_assoc, List.cons_append] at hlater ⊢
      exact hlater

theorem ran_play (exec : Op → Reentrant σ C R Y N ρ) (env : (c : C) → R c) (calls : Y → List Op)
    (p : Task σ C R Y N ρ) :
    Ran exec p (p.play exec env calls).1 (p.play exec env calls).2.1 (p.play exec env calls).2.2 := by
  induction p with
  | done r s => exact .done
  | ask c s k ih => exact .ask (ih (env c))
  | tell n s p ih => exact .tell ih
  | lend y s k ih => exact ran_visiting env (calls y) s (.regain (ih true _))

/-- Nobody calls during a loan, and the callee says yes. -/
def alone : Task σ C R Y N α → Prog C R N (α × σ)
  | .done a s => .done (a, s)
  | .ask c _ k => .ask c fun x => (k x).alone
  | .tell n _ p => .tell n p.alone
  | .lend _ s k => (k true s).alone

theorem alone_bind (p : Task σ C R Y N α) (f : α → σ → Task σ C R Y N β) :
    (p.bind f).alone = p.alone.bind fun x => (f x.1 x.2).alone := by
  induction p with
  | done a s => rfl
  | ask c s k ih => exact congrArg (Prog.ask c) (funext fun x => ih x)
  | tell n s p ih => exact congrArg (Prog.tell n) ih
  | lend y s k ih => exact ih true s

end Task

namespace Reentrant

variable {σ C : Type} {R : C → Type} {Y N Op ρ α β : Type} (V : σ → List (Happening C R Y N Op ρ) → σ → Prop)

/-- `m && m'`. -/
def both (m m' : Reentrant σ C R Y N Bool) : Reentrant σ C R Y N Bool := do
  if ← m then
    m'
  else
    return false

/-- From `P`, the code `m` ends in `Q`. -/
def Meets (P : List (Happening C R Y N Op ρ) → σ → Prop) (m : Reentrant σ C R Y N α)
    (Q : List (Happening C R Y N Op ρ) → α → σ → Prop) : Prop :=
  ∀ t s, P t s → (m s).Meets V Q t

variable {V} {P K : List (Happening C R Y N Op ρ) → σ → Prop} {Q Q' : List (Happening C R Y N Op ρ) → α → σ → Prop}
  {S : List (Happening C R Y N Op ρ) → β → σ → Prop}

theorem Meets.conseq {m : Reentrant σ C R Y N α} (h : Meets V P m Q) (hP : ∀ t s, K t s → P t s)
    (hQ : ∀ t a s, Q t a s → Q' t a s) : Meets V K m Q' :=
  fun t s hs => Task.meets_mono hQ _ (h t s (hP t s hs))

theorem Meets.pure {a : α} (h : ∀ t s, P t s → Q t a s) : Meets V P (Pure.pure a) Q := h

theorem Meets.bind {m : Reentrant σ C R Y N β} {f : β → Reentrant σ C R Y N α} (hm : Meets V P m S)
    (hf : ∀ b, Meets V (fun t s => S t b s) (f b) Q) : Meets V P (m >>= f) Q :=
  fun t s hs => (Task.meets_bind _ _).2 (Task.meets_mono (fun t' b s' => hf b t' s') _ (hm t s hs))

theorem Meets.get_bind {f : σ → Reentrant σ C R Y N α} (h : ∀ s₀, Meets V (fun t s => P t s ∧ s = s₀) (f s₀) Q) :
    Meets V P (get >>= f) Q :=
  fun t s hs => h s t s ⟨hs, rfl⟩

theorem Meets.modify_bind {g : σ → σ} {f : PUnit → Reentrant σ C R Y N α} (hg : ∀ t s, P t s → K t (g s))
    (hf : Meets V K (f ⟨⟩) Q) : Meets V P (modify g >>= f) Q :=
  fun t s hs => hf t (g s) (hg t s hs)

theorem Meets.ask {c : C} {Q : List (Happening C R Y N Op ρ) → R c → σ → Prop}
    (h : ∀ t x s, P t s → Q (t ++ [.call c x]) x s) : Meets V P (ask c) Q :=
  fun t s hs x => h t x s hs

theorem Meets.lend {y : Y} {Q : List (Happening C R Y N Op ρ) → Bool → σ → Prop}
    (h : ∀ t s log s' b, P t s → V s log s' → Q (t ++ log ++ [.regained y b]) b s') : Meets V P (lend y) Q :=
  fun t s hs log s' b hV => h t s log s' b hs hV

theorem Meets.ite {c : Prop} [Decidable c] {m m' : Reentrant σ C R Y N α} (hm : c → Meets V P m Q)
    (hm' : ¬ c → Meets V P m' Q) : Meets V P (if c then m else m') Q := by
  by_cases hc : c
  · rw [if_pos hc]
    exact hm hc
  · rw [if_neg hc]
    exact hm' hc

theorem Meets.both {m m' : Reentrant σ C R Y N Bool} {S : List (Happening C R Y N Op ρ) → σ → Prop}
    {Q : List (Happening C R Y N Op ρ) → Bool → σ → Prop}
    (hm : Meets V P m fun t ok s => (ok = true → S t s) ∧ (ok = false → Q t false s)) (hm' : Meets V S m' Q) :
    Meets V P (Reentrant.both m m') Q :=
  Meets.bind hm fun _ => Meets.ite (fun hok => hm'.conseq (fun _ _ h => h.1 hok) fun _ _ _ h => h)
    fun hok => Meets.pure fun _ _ h => h.2 (Bool.eq_false_iff.2 hok)

def alone (m : Reentrant σ C R Y N α) : Code σ C R N α := fun s => (m s).alone

theorem alone_bind (m : Reentrant σ C R Y N β) (f : β → Reentrant σ C R Y N α) :
    (m >>= f).alone = m.alone >>= fun b => (f b).alone :=
  funext fun s => Task.alone_bind (m s) f

end Reentrant
end Interaction
end Rtl8852be
