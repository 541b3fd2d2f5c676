import Rtl8852be.Interaction.Program

/-!
# Handler — programs whose calls are answered by other code

* `Prog` is a monad, so that code without a record of its own can be written down statement by statement;
* `Prog.run_eq_of_related` — two environments that answer alike see the same calls;
* `Prog.handle` — the calls of a program answered by code, which makes calls of its own;
* `Prog.wp_handle` — what each answer preserves, the whole program preserves.
-/

namespace Rtl8852be
namespace Interaction
namespace Prog

variable {C : Type} {R : C → Type} {N α β γ : Type}

instance : Monad (Prog C R N) where
  pure := .done
  bind := Prog.bind

def call (c : C) : Prog C R N (R c) := .ask c .done

theorem wp_return {Q : List (Event C R N) → α → Prop} (a : α) :
    (pure a : Prog C R N α).wp Q ↔ Q [] a := Iff.rfl

theorem wp_call_bind {Q : List (Event C R N) → α → Prop} (c : C) (f : R c → Prog C R N α) :
    (call c >>= f).wp Q ↔ ∀ r, (f r).wp fun log a => Q (.call c r :: log) a := Iff.rfl

/-- Replies that are the same as long as the environments stay related. -/
theorem run_eq_of_related {h : (c : C) → β → R c × β} {h' : (c : C) → γ → R c × γ} {Related : β → γ → Prop}
    (hstep : ∀ c b b', Related b b' → (h c b).1 = (h' c b').1 ∧ Related (h c b).2 (h' c b').2)
    (p : Prog C R N α) :
    ∀ b b', Related b b' → (p.run h b).1 = (p.run h' b').1 ∧ (p.run h b).2.1 = (p.run h' b').2.1 ∧
      Related (p.run h b).2.2 (p.run h' b').2.2 := by
  induction p with
  | done a => exact fun b b' hb => ⟨rfl, rfl, hb⟩
  | ask c k ih =>
      intro b b' hb
      rcases hstep c b b' hb with ⟨hreply, hnext⟩
      have hrest := ih (h c b).1 (h c b).2 (h' c b').2 hnext
      rw [hreply] at hrest
      refine ⟨?_, ?_, ?_⟩
      · show Event.call c (h c b).1 :: _ = Event.call c (h' c b').1 :: _
        rw [hreply, hrest.1]
      · show ((k (h c b).1).run h (h c b).2).2.1 = _
        rw [hreply]
        exact hrest.2.1
      · show Related ((k (h c b).1).run h (h c b).2).2.2 _
        rw [hreply]
        exact hrest.2.2
  | tell n p ih =>
      intro b b' hb
      have hrest := ih b b' hb
      exact ⟨congrArg (Event.note n :: ·) hrest.1, hrest.2.1, hrest.2.2⟩

/-- The replies of a trace are those of an environment, which ends in state `b'`. -/
def Answered (h : (c : C) → β → R c × β) : β → List (Event C R N) → β → Prop
  | b, [], b' => b' = b
  | b, .call c r :: log, b' => r = (h c b).1 ∧ Answered h (h c b).2 log b'
  | b, .note _ :: log, b' => Answered h b log b'

theorem run_answered (h : (c : C) → β → R c × β) (p : Prog C R N α) :
    ∀ b, Answered h b (p.run h b).1 (p.run h b).2.2 := by
  induction p with
  | done a => exact fun b => rfl
  | ask c k ih => exact fun b => ⟨rfl, ih (h c b).1 (h c b).2⟩
  | tell n p ih => exact fun b => ih b

/-- An environment without a state answers each call alike. -/
theorem Answered.reply {f : (c : C) → R c} : ∀ (log : List (Event C R N)) (b b' : β),
    Answered (fun c b => (f c, b)) b log b' → ∀ c r, .call c r ∈ log → r = f c := by
  intro log
  induction log with
  | nil => exact fun _ _ _ c r hmem => absurd hmem List.not_mem_nil
  | cons e log ih =>
      intro b b' h c r hmem
      cases e with
      | note n =>
          rcases List.mem_cons.1 hmem with heq | hmem
          · cases heq
          · exact ih b b' h c r hmem
      | call c' r' =>
          rcases List.mem_cons.1 hmem with heq | hmem
          · cases heq
            exact h.1
          · exact ih b b' h.2 c r hmem

variable {σ C' : Type} {R' : C' → Type} {N' : Type}

def handle (h : (c : C) → Code σ C' R' N' (R c)) : Prog C R N α → Code σ C' R' N' α
  | .done a => Pure.pure a
  | .ask c k => h c >>= fun r => handle h (k r)
  | .tell _ p => handle h p

/-- Every call that the program can make is of this kind. -/
def Asks (Good : C → Prop) : Prog C R N α → Prop
  | .done _ => True
  | .ask c k => Good c ∧ ∀ r, Asks Good (k r)
  | .tell _ p => Asks Good p

/-- If every call gets a reply, the calls of the outcomes are all there are. -/
theorem asks_of_outcome [∀ c, Nonempty (R c)] {Good : C → Prop} (p : Prog C R N α) :
    (∀ log a, p.Outcome log a → ∀ c r, .call c r ∈ log → Good c) → p.Asks Good := by
  have hout : ∀ q : Prog C R N α, ∃ log a, q.Outcome log a := by
    intro q
    induction q with
    | done a => exact ⟨[], a, Outcome.done a⟩
    | ask c k ih =>
        rcases ih (Classical.arbitrary (R c)) with ⟨log, a, hk⟩
        exact ⟨_, a, Outcome.ask hk⟩
    | tell n q ih =>
        rcases ih with ⟨log, a, hq⟩
        exact ⟨_, a, Outcome.tell hq⟩
  induction p with
  | done a => exact fun _ => trivial
  | ask c k ih =>
      intro h
      refine ⟨?_, fun r => ih r fun log a hk c' r' hmem => ?_⟩
      · rcases hout (k (Classical.arbitrary (R c))) with ⟨log, a, hk⟩
        exact h _ a (Outcome.ask hk) c _ List.mem_cons_self
      · exact h _ a (Outcome.ask hk) c' r' (List.mem_cons_of_mem _ hmem)
  | tell n q ih =>
      intro h
      exact ih fun log a hq c r hmem => h _ a (Outcome.tell hq) c r (List.mem_cons_of_mem _ hmem)

/-- The invariant sees the calls so far, with the replies they got. -/
theorem wp_handle {h : (c : C) → Code σ C' R' N' (R c)} {I : List (Event C R N) → σ → Prop}
    {G : C → Prop} (hnote : ∀ t n s, I t s → I (t ++ [.note n]) s)
    (hcall : ∀ t c s, G c → I t s → (h c).wp (fun _ r s' => I (t ++ [.call c r]) s') s)
    (p : Prog C R N α) :
    ∀ t s, I t s → p.Asks G →
      (p.handle h).wp (fun _ a s' => ∃ log, p.Outcome log a ∧ I (t ++ log) s') s := by
  induction p with
  | done a =>
      intro t s ht _
      rw [handle, Code.wp_pure]
      exact ⟨[], Outcome.done a, (List.append_nil t).symm ▸ ht⟩
  | ask c k ih =>
      intro t s ht hgood
      rw [handle, Code.wp_bind]
      refine Code.wp_mono (hcall t c s hgood.1 ht) fun _ r s' hs => ?_
      refine Code.wp_mono (ih r _ s' hs (hgood.2 r)) fun _ a s'' hlog => ?_
      rcases hlog with ⟨log, hout, hinv⟩
      refine ⟨.call c r :: log, Outcome.ask hout, ?_⟩
      rw [List.append_assoc] at hinv
      exact hinv
  | tell n p ih =>
      intro t s ht hgood
      refine Code.wp_mono (ih _ s (hnote t n s ht) hgood) fun _ a s' hlog => ?_
      rcases hlog with ⟨log, hout, hinv⟩
      refine ⟨.note n :: log, Outcome.tell hout, ?_⟩
      rw [List.append_assoc] at hinv
      exact hinv

end Prog
end Interaction
end Rtl8852be
