import Rtl8852be.Interaction.Checks
import Rtl8852be.Interaction.Handler

/-!
# Environment — environments with a state of their own

An environment that is known to behave in some way is a relation: `step b e b'` says that in state `b` the event
`e` can happen, and leaves `b'`.  It need not be a function, so a device may have a choice.

* `Follows step b log b'` — the environment goes along with the trace;
* `Code.under step b m Q s` — what holds after every outcome of `m` in such an environment, with one rule for
  each construct.
-/

namespace Rtl8852be
namespace Interaction

variable {σ C : Type} {R : C → Type} {N α β γ : Type}

/-- The events can happen one after the other, and lead from `b` to `b'`. -/
inductive Follows (step : β → Event C R N → β → Prop) : β → List (Event C R N) → β → Prop
  | nil (b : β) : Follows step b [] b
  | cons {b b' b'' : β} {e : Event C R N} {log : List (Event C R N)} :
      step b e b' → Follows step b' log b'' → Follows step b (e :: log) b''

section Follows

variable {step : β → Event C R N → β → Prop} {b b' : β} {log log' : List (Event C R N)}

theorem follows_nil : Follows step b [] b' ↔ b' = b := by
  constructor
  · intro h
    cases h
    rfl
  · rintro rfl
    exact .nil b'

theorem follows_cons {e : Event C R N} :
    Follows step b (e :: log) b' ↔ ∃ b₁, step b e b₁ ∧ Follows step b₁ log b' := by
  constructor
  · intro h
    cases h with
    | cons hstep hrest => exact ⟨_, hstep, hrest⟩
  · rintro ⟨b₁, hstep, hrest⟩
    exact .cons hstep hrest

theorem follows_append :
    Follows step b (log ++ log') b' ↔ ∃ b₁, Follows step b log b₁ ∧ Follows step b₁ log' b' := by
  induction log generalizing b with
  | nil =>
      constructor
      · exact fun h => ⟨b, .nil b, h⟩
      · rintro ⟨b₁, hnil, h⟩
        rw [follows_nil.1 hnil] at h
        exact h
  | cons e log ih =>
      rw [List.cons_append, follows_cons]
      constructor
      · rintro ⟨b₁, hstep, hrest⟩
        rcases ih.1 hrest with ⟨b₂, hlog, hlog'⟩
        exact ⟨b₂, .cons hstep hlog, hlog'⟩
      · rintro ⟨b₂, hboth, hlog'⟩
        rcases follows_cons.1 hboth with ⟨b₁, hstep, hlog⟩
        exact ⟨b₁, hstep, ih.2 ⟨b₂, hlog, hlog'⟩⟩

/-- An environment that answers by a function goes along with what it has answered. -/
theorem Prog.Answered.follows {h : (c : C) → β → R c × β} {I : β → Prop}
    (hcall : ∀ c b, I b → step b (.call c (h c b).1) (h c b).2 ∧ I (h c b).2)
    (hnote : ∀ n b, I b → step b (.note n) b) :
    ∀ (log : List (Event C R N)) (b b' : β), I b → Prog.Answered h b log b' → Follows step b log b' ∧ I b' := by
  intro log
  induction log with
  | nil =>
      rintro b b' hb rfl
      exact ⟨.nil b', hb⟩
  | cons e log ih =>
      intro b b' hb hanswered
      cases e with
      | note n =>
          rcases ih b b' hb hanswered with ⟨hlog, hend⟩
          exact ⟨.cons (hnote n b hb) hlog, hend⟩
      | call c r =>
          rcases hanswered with ⟨rfl, hanswered⟩
          rcases hcall c b hb with ⟨hstep, hnext⟩
          rcases ih _ b' hnext hanswered with ⟨hlog, hend⟩
          exact ⟨.cons hstep hlog, hend⟩

theorem Follows.given {P : Event C R N → Prop} (h : Follows step b log b') (hP : ∀ e ∈ log, P e) :
    Follows (fun b e b' => step b e b' ∧ P e) b log b' := by
  induction h with
  | nil b => exact .nil b
  | cons hfirst _ ih =>
      exact .cons ⟨hfirst, hP _ List.mem_cons_self⟩ (ih fun e he => hP e (List.mem_cons_of_mem _ he))

end Follows

namespace Code

variable (step : β → Event C R N → β → Prop)

/-- Every outcome that the environment goes along with satisfies `Q`. -/
def under (b : β) (m : Code σ C R N α) (Q : β → α → σ → Prop) (s : σ) : Prop :=
  m.wp (fun log a s' => ∀ b', Follows step b log b' → Q b' a s') s

variable {step} {b : β} {s : σ}

variable {Q : β → α → σ → Prop}

theorem under_mono {m : Code σ C R N α} {Q' : β → α → σ → Prop} (h : under step b m Q s)
    (hQ : ∀ b' a s', Q b' a s' → Q' b' a s') : under step b m Q' s :=
  wp_mono h fun _ a s' hpost b' hlog => hQ b' a s' (hpost b' hlog)

theorem under_pure {a : α} :
    under step b (pure a : Code σ C R N α) Q s ↔ Q b a s := by
  unfold under
  rw [wp_pure]
  constructor
  · exact fun h => h b (.nil b)
  · intro h b' hlog
    rw [follows_nil.1 hlog]
    exact h

theorem under_bind {m : Code σ C R N γ} {f : γ → Code σ C R N α}
    (h : under step b m (fun b' c s' => under step b' (f c) Q s') s) : under step b (m >>= f) Q s := by
  unfold under
  rw [wp_bind]
  refine wp_mono h fun log c s' hmid => wp_of_outcome fun log' a s'' hout b' hlog => ?_
  rcases follows_append.1 hlog with ⟨b₁, hfirst, hrest⟩
  exact wp_outcome (hmid b₁ hfirst) hout b' hrest

theorem under_ask_bind {c : C} {f : R c → Code σ C R N α}
    (h : ∀ r b', step b (.call c r) b' → under step b' (f r) Q s) : under step b (ask c >>= f) Q s := by
  unfold under
  rw [wp_ask_bind]
  intro r
  refine wp_of_outcome fun log a s' hout b'' hlog => ?_
  rcases follows_cons.1 hlog with ⟨b', hstep, hrest⟩
  exact wp_outcome (h r b' hstep) hout b'' hrest

theorem under_modify_bind {g : σ → σ} {f : PUnit → Code σ C R N α} :
    under step b (modify g >>= f) Q s ↔ under step b (f ⟨⟩) Q (g s) := by
  unfold under
  rw [wp_modify_bind]

theorem under_get_bind {f : σ → Code σ C R N α} :
    under step b (get >>= f) Q s ↔ under step b (f s) Q s := by
  unfold under
  rw [wp_get_bind]

theorem under_both {m m' : Code σ C R N Bool} {Q : β → Bool → σ → Prop}
    (h : under step b m (fun b' ok s' => (ok = true → under step b' m' Q s') ∧ (ok = false → Q b' false s')) s) :
    under step b (both m m') Q s := by
  refine under_bind (under_mono h fun b' ok s' hmid => ?_)
  cases ok with
  | true => exact hmid.1 rfl
  | false => exact under_pure.2 (hmid.2 rfl)

theorem under_each_cons {m : Code σ C R N Bool} {ms : List (Code σ C R N Bool)} {Q : β → Bool → σ → Prop}
    (h : under step b m (fun b' ok s' => under step b' (each ms) (fun b'' rest s'' => Q b'' (ok && rest) s'') s') s) :
    under step b (each (m :: ms)) Q s := by
  refine under_bind (under_mono h fun b' ok s' hmid => under_bind (under_mono hmid fun b'' rest s'' hpost => ?_))
  exact under_pure.2 hpost

end Code

end Interaction
end Rtl8852be
