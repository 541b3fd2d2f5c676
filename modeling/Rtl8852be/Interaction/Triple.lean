import Rtl8852be.Interaction.Checks
import Rtl8852be.Interaction.Reentry

/-!
# Triple — pre- and postconditions on the trace so far

* `Code.Triple P m Q` — after a trace and in a record that satisfy `P`, every outcome of `m` satisfies
  `Q`, where `Q` sees the whole trace, with what `m` added to it;
* `Code.Stage P m S F` — a triple for code that returns whether to go on: `S` holds if it does, `F` if
  it does not.  Stages are put one after the other with `Stage.both` and `Stage.every`;
* `Code.Spends w n m` — the events of every outcome of `m` weigh at most `n`.
-/

namespace Rtl8852be
namespace Interaction
namespace Code

variable {σ C : Type} {R : C → Type} {N α β : Type}

/-! ## Triples -/

def Triple (P : List (Event C R N) → σ → Prop) (m : Code σ C R N α)
    (Q : List (Event C R N) → α → σ → Prop) : Prop :=
  ∀ t s, P t s → m.wp (fun log a s' => Q (t ++ log) a s') s

variable {P P' : List (Event C R N) → σ → Prop} {Q Q' : List (Event C R N) → α → σ → Prop}

theorem Triple.mono {m : Code σ C R N α} (h : Triple P m Q) (hP : ∀ t s, P' t s → P t s)
    (hQ : ∀ t a s, Q t a s → Q' t a s) : Triple P' m Q' := by
  intro t s hpre
  exact wp_mono (h t s (hP t s hpre)) fun log a s' => hQ (t ++ log) a s'

theorem Triple.pure {a : α} (h : ∀ t s, P t s → Q t a s) :
    Triple P (Pure.pure a : Code σ C R N α) Q := by
  intro t s hpre
  rw [wp_pure, List.append_nil]
  exact h t s hpre

theorem Triple.bind {m : Code σ C R N β} {f : β → Code σ C R N α}
    {M : List (Event C R N) → β → σ → Prop} (hm : Triple P m M)
    (hf : ∀ b, Triple (fun t s => M t b s) (f b) Q) : Triple P (m >>= f) Q := by
  intro t s hpre
  rw [wp_bind]
  refine wp_mono (hm t s hpre) fun log b s' hmid => ?_
  refine wp_mono (hf b (t ++ log) s' hmid) fun log' a s'' hpost => ?_
  rw [← List.append_assoc]
  exact hpost

theorem Triple.ask {c : C} {Q : List (Event C R N) → R c → σ → Prop}
    (h : ∀ t s r, P t s → Q (t ++ [.call c r]) r s) : Triple P (Code.ask c) Q := by
  intro t s hpre
  rw [wp_ask]
  intro r
  exact h t s r hpre

theorem Triple.ask_bind {c : C} {f : R c → Code σ C R N α}
    (h : ∀ r, Triple (fun t s => ∃ before, t = before ++ [.call c r] ∧ P before s) (f r) Q) :
    Triple P (Code.ask c >>= f) Q :=
  Triple.bind (Triple.ask (Q := fun t r s => ∃ before, t = before ++ [.call c r] ∧ P before s)
    fun _ _ _ hpre => ⟨_, rfl, hpre⟩) h

theorem Triple.modify {g : σ → σ} {Q : List (Event C R N) → PUnit → σ → Prop}
    (h : ∀ t s, P t s → Q t ⟨⟩ (g s)) : Triple P (modify g : Code σ C R N PUnit) Q := by
  intro t s hpre
  rw [wp_modify, List.append_nil]
  exact h t s hpre

theorem Triple.modify_bind {g : σ → σ} {f : PUnit → Code σ C R N α}
    (h : Triple (fun t s' => ∃ s, s' = g s ∧ P t s) (f ⟨⟩) Q) :
    Triple P (MonadStateOf.modifyGet (fun s => (⟨⟩, g s)) >>= f) Q :=
  Triple.bind (M := fun t _ s' => ∃ s, s' = g s ∧ P t s)
    (Triple.modify fun _ s hpre => ⟨s, rfl, hpre⟩) fun _ => h

theorem Triple.get_bind {f : σ → Code σ C R N α}
    (h : ∀ x, Triple (fun t s => s = x ∧ P t s) (f x) Q) : Triple P (get >>= f) Q := by
  intro t s hpre
  rw [wp_get_bind]
  exact h s t s ⟨rfl, hpre⟩

theorem Triple.ite {p : Prop} [Decidable p] {m m' : Code σ C R N α}
    (hm : p → Triple P m Q) (hm' : ¬ p → Triple P m' Q) : Triple P (if p then m else m') Q := by
  by_cases hp : p
  · rw [if_pos hp]
    exact hm hp
  · rw [if_neg hp]
    exact hm' hp

theorem Triple.outcome {m : Code σ C R N α} (h : Triple P m Q) {s s' : σ}
    {log : List (Event C R N)} {a : α} (hpre : P [] s) (hout : (m s).Outcome log (a, s')) :
    Q log a s' :=
  wp_outcome (h [] s hpre) hout

/-! ## Stages -/

def Stage (P : List (Event C R N) → σ → Prop) (m : Code σ C R N Bool)
    (S F : List (Event C R N) → σ → Prop) : Prop :=
  Triple P m fun t ok s => (ok = true → S t s) ∧ (ok = false → F t s)

variable {S S' F : List (Event C R N) → σ → Prop}

theorem Stage.mono {m : Code σ C R N Bool} (h : Stage P m S F) (hP : ∀ t s, P' t s → P t s)
    (hS : ∀ t s, S t s → S' t s) : Stage P' m S' F :=
  Triple.mono h hP fun t _ s hpost => ⟨fun hok => hS t s (hpost.1 hok), hpost.2⟩

/-- A fact that does not depend on trace and record stays true. -/
theorem Stage.keep {A : Prop} {m : Code σ C R N Bool} (h : Stage P m S F) :
    Stage (fun t s => A ∧ P t s) m (fun t s => A ∧ S t s) F := by
  rintro t s ⟨ha, hpre⟩
  exact wp_mono (h t s hpre) fun log ok s' hpost => ⟨fun hok => ⟨ha, hpost.1 hok⟩, hpost.2⟩

theorem Stage.both {m m' : Code σ C R N Bool} (hm : Stage P m S F) (hm' : Stage S m' S' F) :
    Stage P (Code.both m m') S' F := by
  intro t s hpre
  rw [wp_both]
  refine wp_mono (hm t s hpre) fun log ok s' hmid => ⟨fun hok => ?_, fun hok => ⟨nofun, fun _ => hmid.2 hok⟩⟩
  refine wp_mono (hm' (t ++ log) s' (hmid.1 hok)) fun log' ok' s'' hpost => ?_
  rw [← List.append_assoc]
  exact hpost

/-- Stages one after the other, each with what holds between it and the next. -/
inductive Stages (F : List (Event C R N) → σ → Prop) :
    (List (Event C R N) → σ → Prop) → List (Code σ C R N Bool) →
      (List (Event C R N) → σ → Prop) → Prop
  | nil {P : List (Event C R N) → σ → Prop} : Stages F P [] P
  | cons {P S S' : List (Event C R N) → σ → Prop} {m : Code σ C R N Bool}
      {ms : List (Code σ C R N Bool)} :
      Stage P m S F → Stages F S ms S' → Stages F P (m :: ms) S'

theorem Stages.every {ms : List (Code σ C R N Bool)} (h : Stages F P ms S) :
    Stage P (Code.every ms) S F := by
  induction h with
  | nil => exact Triple.pure fun t s hpre => ⟨fun _ => hpre, nofun⟩
  | cons hm _ ih => exact hm.both ih

theorem Stages.append {ms ms' : List (Code σ C R N Bool)} (h : Stages F P ms S)
    (h' : Stages F S ms' S') : Stages F P (ms ++ ms') S' := by
  induction h with
  | nil => exact h'
  | cons hm _ ih => exact .cons hm (ih h')

theorem Stages.range {I : ℕ → List (Event C R N) → σ → Prop} {f : ℕ → Code σ C R N Bool} {n : ℕ}
    (h : ∀ i < n, Stage (I i) (f i) (I (i + 1)) F) : Stages F (I 0) ((List.range n).map f) (I n) := by
  induction n with
  | zero => exact .nil
  | succ n ih =>
      rw [List.range_succ, List.map_append]
      exact (ih fun i hi => h i (Nat.lt_succ_of_lt hi)).append (.cons (h n (Nat.lt_succ_self n)) .nil)

/-! ## Costs -/

variable {w : Event C R N → ℕ} {n k : ℕ}

def Spends (w : Event C R N → ℕ) (n : ℕ) (m : Code σ C R N α) : Prop :=
  ∀ s, m.wp (fun log _ _ => (log.map w).sum ≤ n) s

theorem Spends.mono {m : Code σ C R N α} (h : Spends w n m) (hn : n ≤ k) : Spends w k m := by
  intro s
  exact wp_mono (h s) fun log a s' hle => hle.trans hn

theorem Spends.pure (a : α) : Spends w n (Pure.pure a : Code σ C R N α) := by
  intro s
  rw [wp_pure]
  exact Nat.zero_le n

theorem Spends.bind {m : Code σ C R N β} {f : β → Code σ C R N α} (hm : Spends w n m)
    (hf : ∀ b, Spends w k (f b)) : Spends w (n + k) (m >>= f) := by
  intro s
  rw [wp_bind]
  refine wp_mono (hm s) fun log b s' hle => ?_
  refine wp_mono (hf b s') fun log' a s'' hle' => ?_
  rw [List.map_append, List.sum_append]
  exact Nat.add_le_add hle hle'

theorem Spends.ask_bind {c : C} {f : R c → Code σ C R N α} (hc : ∀ r, w (.call c r) ≤ n)
    (hf : ∀ r, Spends w k (f r)) : Spends w (n + k) (Code.ask c >>= f) := by
  refine Spends.bind (fun s => ?_) hf
  rw [wp_ask]
  intro r
  simpa using hc r

theorem Spends.ask_free {c : C} {f : R c → Code σ C R N α} (hc : ∀ r, w (.call c r) = 0)
    (hf : ∀ r, Spends w n (f r)) : Spends w n (Code.ask c >>= f) := by
  have h := Spends.ask_bind (fun r => (hc r).le) hf
  rwa [Nat.zero_add] at h

theorem Spends.modify_bind {g : σ → σ} {f : PUnit → Code σ C R N α} (hf : Spends w n (f ⟨⟩)) :
    Spends w n (modify g >>= f) := by
  intro s
  rw [wp_modify_bind]
  exact hf (g s)

theorem Spends.modify (g : σ → σ) : Spends w n (modify g : Code σ C R N PUnit) := by
  intro s
  rw [wp_modify]
  exact Nat.zero_le n

theorem Spends.get_bind {f : σ → Code σ C R N α} (hf : ∀ x, Spends w n (f x)) :
    Spends w n (get >>= f) := by
  intro s
  rw [wp_get_bind]
  exact hf s s

theorem Spends.ite {p : Prop} [Decidable p] {m m' : Code σ C R N α} (hm : Spends w n m)
    (hm' : Spends w n m') : Spends w n (if p then m else m') := by
  by_cases hp : p
  · rw [if_pos hp]
    exact hm
  · rw [if_neg hp]
    exact hm'

theorem Spends.both {m m' : Code σ C R N Bool} (hm : Spends w n m) (hm' : Spends w k m') :
    Spends w (n + k) (Code.both m m') :=
  Spends.bind hm fun _ => Spends.ite hm' (Spends.pure false)

end Code
end Interaction
end Rtl8852be
