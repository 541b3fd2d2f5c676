import Rtl8852be.Interaction.Latch

/-!
# Updates — registers that are read before they are written

Code that changes part of a register reads it, and writes back what it read but for that part.  A `Bus`
says which events of a trace read and write registers; `Updates` says that every write is either one that
needs no earlier read, or comes right after the read whose value it changes.  Where an object with a latch checks
before every access, `Behind.reads` and `Behind.writes` are the rules for one access, and `updates_modified` is the
rule for both together.
-/

namespace Rtl8852be
namespace Interaction

/-- The registers, as a trace shows them. -/
structure Bus (C : Type) (R : C → Type) (N K V : Type) where
  wrote : Event C R N → Option (K × V)
  /-- A read whose value is good. -/
  got : Event C R N → Option (K × V)
  reaches : Event C R N → Bool

namespace Bus

variable {σ C : Type} {R : C → Type} {N K V : Type} (B : Bus C R N K V)

/-- `allowed k none v` when `v` may be written to `k` at once, `allowed k (some old) v` when it may be
written in place of `old`. -/
def Updates (allowed : K → Option V → V → Prop) (log : List (Event C R N)) : Prop :=
  ∀ pre e post k v, log = pre ++ e :: post → B.wrote e = some (k, v) → allowed k none v ∨
    ∃ before x between old, pre = before ++ x :: between ∧ B.got x = some (k, old) ∧ allowed k (some old) v ∧
      ∀ y ∈ between, B.reaches y = false

def Silent (log : List (Event C R N)) : Prop := ∀ e ∈ log, B.wrote e = none

theorem silent_traced : Traced fun (_ : σ) (log : List (Event C R N)) (_ : σ) => B.Silent log :=
  all_traced fun e => B.wrote e = none

variable {B} in
theorem Silent.append {log log' : List (Event C R N)} (h : B.Silent log) (h' : B.Silent log') :
    B.Silent (log ++ log') :=
  fun e he => (List.mem_append.1 he).elim (h e) (h' e)

theorem silent_singleton {e : Event C R N} (he : B.wrote e = none) : B.Silent [e] :=
  fun _ he' => (List.mem_singleton.1 he') ▸ he

variable {B} {allowed : K → Option V → V → Prop}

theorem Silent.updates {log : List (Event C R N)} (h : B.Silent log) : B.Updates allowed log := by
  intro pre e post k v heq hwrote
  have hmem : e ∈ log := by
    rw [heq]
    exact List.mem_append_right _ List.mem_cons_self
  exact absurd ((h e hmem).symm.trans hwrote) (Option.some_ne_none _).symm

theorem append_eq_cases {log log' pre post : List (Event C R N)} {e : Event C R N}
    (heq : log ++ log' = pre ++ e :: post) :
    (∃ rest, log = pre ++ e :: rest) ∨ ∃ rest, pre = log ++ rest ∧ log' = rest ++ e :: post := by
  rcases List.append_eq_append_iff.1 heq with ⟨rest, hpre, hlog'⟩ | ⟨rest, hlog, hpost⟩
  · exact .inr ⟨rest, hpre, hlog'⟩
  · cases rest with
    | nil =>
        refine .inr ⟨[], ?_, hpost.symm⟩
        rw [hlog, List.append_nil, List.append_nil]
    | cons x rest =>
        rw [List.cons_append, List.cons.injEq] at hpost
        refine .inl ⟨rest, ?_⟩
        rw [hlog, hpost.1]

theorem updates_append {log log' : List (Event C R N)} (h : B.Updates allowed log) (h' : B.Updates allowed log') :
    B.Updates allowed (log ++ log') := by
  intro pre e post k v heq hwrote
  rcases append_eq_cases heq with ⟨rest, hlog⟩ | ⟨rest, hpre, hlog'⟩
  · exact h pre e rest k v hlog hwrote
  · refine (h' rest e post k v hlog' hwrote).imp_right ?_
    intro hread
    rcases hread with ⟨before, x, between, old, hrest, hold⟩
    refine ⟨log ++ before, x, between, old, ?_, hold⟩
    rw [hpre, hrest, List.append_assoc]

theorem updates_traced (B : Bus C R N K V) (allowed : K → Option V → V → Prop) :
    Traced fun (_ : σ) (log : List (Event C R N)) (_ : σ) => B.Updates allowed log where
  refl _ := Silent.updates fun _ he => absurd he List.not_mem_nil
  trans h h' := updates_append h h'

/-- One write that needs no read, or one that is not made. -/
theorem updates_write {e : Event C R N} (h : ∀ k v, B.wrote e = some (k, v) → allowed k none v) :
    B.Updates allowed [e] := by
  intro pre e' post k v heq hwrote
  cases pre with
  | nil =>
      rw [List.nil_append, List.cons.injEq] at heq
      rw [← heq.1] at hwrote
      exact .inl (h k v hwrote)
  | cons x pre =>
      rw [List.cons_append, List.cons.injEq] at heq
      exact absurd heq.2.symm (List.append_ne_nil_of_right_ne_nil pre (List.cons_ne_nil _ post))

theorem updates_after {before between : List (Event C R N)} {x e : Event C R N} {k : K} {old : V}
    (hbefore : B.Silent before) (hx : B.wrote x = none) (hbetween : B.Silent between)
    (hquiet : ∀ y ∈ between, B.reaches y = false) (hgot : B.got x = some (k, old))
    (h : ∀ k' v, B.wrote e = some (k', v) → k' = k ∧ allowed k (some old) v) :
    B.Updates allowed (before ++ x :: between ++ [e]) := by
  intro pre e' post k' v heq hwrote
  have hsilent : B.Silent (before ++ x :: between) := by
    intro y hy
    rcases List.mem_append.1 hy with hy | hy
    · exact hbefore y hy
    · rcases List.mem_cons.1 hy with rfl | hy
      · exact hx
      · exact hbetween y hy
  rcases append_eq_cases heq with ⟨rest, hlog⟩ | ⟨rest, hpre, hlast⟩
  · have hmem : e' ∈ before ++ x :: between := by
      rw [hlog]
      exact List.mem_append_right _ List.mem_cons_self
    exact absurd ((hsilent e' hmem).symm.trans hwrote) (Option.some_ne_none _).symm
  · cases rest with
    | nil =>
        rw [List.nil_append, List.cons.injEq] at hlast
        rw [← hlast.1] at hwrote
        rcases h k' v hwrote with ⟨hk, hallowed⟩
        rw [List.append_nil] at hpre
        rw [hk]
        exact .inr ⟨before, x, between, old, hpre, hgot, hallowed, hquiet⟩
    | cons y rest =>
        rw [List.cons_append, List.cons.injEq] at hlast
        exact absurd hlast.2.symm (List.append_ne_nil_of_right_ne_nil rest (List.cons_ne_nil _ post))

/-- The last thing that reached the environment read `v` from `k`. -/
def ReadLast (B : Bus C R N K V) (k : K) (v : V) (log : List (Event C R N)) : Prop :=
  ∃ before x between, log = before ++ x :: between ∧ B.got x = some (k, v) ∧ ∀ y ∈ between, B.reaches y = false

/-- At most one write, of `v` to `k`, before which nothing reached the environment. -/
def WritesOnce (B : Bus C R N K V) (k : K) (v : V) (log : List (Event C R N)) : Prop :=
  B.Silent log ∨ ∃ checked e rest, log = checked ++ e :: rest ∧ B.Silent checked ∧
    (∀ y ∈ checked, B.reaches y = false) ∧ B.wrote e = some (k, v) ∧ B.Silent rest

theorem WritesOnce.updates {k : K} {v : V} {log : List (Event C R N)} (h : B.WritesOnce k v log)
    (hallowed : allowed k none v) : B.Updates allowed log := by
  rcases h with h | ⟨checked, e, rest, rfl, hchecked, -, hwrote, hrest⟩
  · exact h.updates
  · rw [← List.singleton_append]
    refine updates_append hchecked.updates (updates_append (updates_write fun k' v' hwrote' => ?_) hrest.updates)
    rw [hwrote, Option.some_inj, Prod.mk.injEq] at hwrote'
    rw [← hwrote'.1, ← hwrote'.2]
    exact hallowed

theorem updates_read_write {k : K} {old v : V} {log log' : List (Event C R N)} (hsilent : B.Silent log)
    (hread : ¬ B.Silent log' → B.ReadLast k old log) (hwrite : B.WritesOnce k v log')
    (hallowed : allowed k (some old) v) : B.Updates allowed (log ++ log') := by
  rcases hwrite with h | ⟨checked, e, rest, rfl, hchecked, hquiet, hwrote, hrest⟩
  · exact updates_append hsilent.updates h.updates
  · have hloud : ¬ B.Silent (checked ++ e :: rest) := by
      intro h
      have hnone := h e (List.mem_append_right _ List.mem_cons_self)
      exact absurd (hnone.symm.trans hwrote) (Option.some_ne_none _).symm
    rcases hread hloud with ⟨before, x, between, rfl, hgot, hbetween⟩
    have hbefore : B.Silent before := fun y hy => hsilent y (List.mem_append_left _ hy)
    have hx : B.wrote x = none := hsilent x (List.mem_append_right _ List.mem_cons_self)
    have hafter : B.Silent (between ++ checked) := by
      intro y hy
      rcases List.mem_append.1 hy with hy | hy
      · exact hsilent y (List.mem_append_right _ (List.mem_cons_of_mem _ hy))
      · exact hchecked y hy
    have hstill : ∀ y ∈ between ++ checked, B.reaches y = false := by
      intro y hy
      exact (List.mem_append.1 hy).elim (hbetween y) (hquiet y)
    have hupdates : B.Updates allowed (before ++ x :: (between ++ checked) ++ [e]) := by
      refine updates_after hbefore hx hafter hstill hgot fun k' v' hwrote' => ?_
      rw [hwrote, Option.some_inj, Prod.mk.injEq] at hwrote'
      rw [← hwrote'.1, ← hwrote'.2]
      exact ⟨rfl, hallowed⟩
    have hjoin : before ++ x :: between ++ (checked ++ e :: rest) =
        before ++ x :: (between ++ checked) ++ [e] ++ rest := by
      simp only [List.append_assoc, List.cons_append, List.nil_append]
    rw [hjoin]
    exact updates_append hupdates hrest.updates

/-! ### Code that writes nothing -/

section Silent

variable {α β : Type}

abbrev Writeless (B : Bus C R N K V) (m : Code σ C R N α) : Prop := m.Keeps fun _ log _ => B.Silent log

theorem Writeless.updates {m : Code σ C R N α} (hm : B.Writeless m) :
    m.Keeps fun _ log _ => B.Updates allowed log :=
  hm.mono fun _ _ _ h => h.updates

theorem writeless_pure (a : α) : B.Writeless (pure a : Code σ C R N α) := Code.Keeps.pure B.silent_traced a

theorem writeless_modify (g : σ → σ) : B.Writeless (modify g : Code σ C R N Unit) :=
  fun s => (wp_modify g).2 (B.silent_traced.refl s)

theorem updates_marked {allowed : K → Option V → V → Prop} {m : Code σ C R N α} {n : α → N}
    (hn : ∀ a, B.wrote (.note (n a)) = none) (hm : m.Keeps fun _ log _ => B.Updates allowed log) :
    (do
      let a ← m
      Code.tell (n a)
      return a).Keeps fun _ log _ => B.Updates allowed log := by
  intro s
  rw [wp_bind]
  refine wp_mono (hm s) fun log a s' h => ?_
  rw [wp_tell_bind, wp_pure]
  exact updates_append h (B.silent_singleton (hn a)).updates

theorem writeless_bind {m : Code σ C R N β} {f : β → Code σ C R N α} (hm : B.Writeless m)
    (hf : ∀ b, B.Writeless (f b)) : B.Writeless (m >>= f) :=
  Code.Keeps.bind B.silent_traced hm hf

theorem writeless_modify_bind (g : σ → σ) {f : PUnit → Code σ C R N α} (hf : B.Writeless (f ⟨⟩)) :
    B.Writeless (modify g >>= f) :=
  Code.Keeps.modify_bind B.silent_traced (fun s => B.silent_traced.refl s) hf

theorem writeless_ask_bind {c : C} {f : R c → Code σ C R N α} (hc : ∀ r, B.wrote (.call c r) = none)
    (hf : ∀ r, B.Writeless (f r)) : B.Writeless (Code.ask c >>= f) :=
  Code.Keeps.ask_bind B.silent_traced (fun _ r => B.silent_singleton (hc r)) hf

/-! ### Accesses after a check -/

variable {ρ : Type} {L : Latch σ C R N ρ} {k : K} {s : σ}

/-- What the latch does not see, the registers do not see. -/
structure Behind (L : Latch σ C R N ρ) (B : Bus C R N K V) : Prop where
  still : ∀ e, L.reaches e = false → B.reaches e = false
  silent : ∀ e, L.reaches e = false → B.wrote e = none

theorem Behind.writeless (hB : Behind L B) {check : Code σ C R N Bool} (hcheck : L.Checks check) :
    B.Writeless check :=
  fun s => wp_mono (hcheck s) fun _ _ _ h e he => hB.silent e (h.still e he)

theorem Behind.checked (hB : Behind L B) {check : Code σ C R N Bool} {m m' : Code σ C R N α} (hcheck : L.Checks check)
    (hm : B.Writeless m) (hm' : B.Writeless m') : B.Writeless (do if ← check then m else m') :=
  writeless_bind (hB.writeless hcheck) fun _ => Code.Keeps.ite hm hm'

/-- A read writes nothing, and one that leaves no fault was the last access. -/
abbrev Reads (L : Latch σ C R N ρ) (B : Bus C R N K V) (k : K) (m : Code σ C R N V) (s : σ) : Prop :=
  m.wp (fun log v s' => B.Silent log ∧ (L.fault s' = none → B.ReadLast k v log)) s

/-- At most one write, and none after a fault. -/
abbrev Writes (L : Latch σ C R N ρ) (B : Bus C R N K V) (k : K) (v : V) (m : Code σ C R N α) (s : σ) : Prop :=
  m.wp (fun log _ _ => B.WritesOnce k v log ∧ (¬ B.Silent log → L.fault s = none)) s

theorem Behind.reads (hB : Behind L B) {check : Code σ C R N Bool} {m : Code σ C R N V} {v₀ : V}
    (hcheck : L.Checks check) (hm : ∀ s, Reads L B k m s) : Reads L B k (do if ← check then m else return v₀) s := by
  rw [Reads, wp_bind]
  refine wp_mono (hcheck s) fun log ok s₁ h => ?_
  have hlog : B.Silent log := fun e he => hB.silent e (h.still e he)
  cases ok with
  | false =>
      rw [if_neg Bool.false_ne_true, wp_pure, List.append_nil]
      exact ⟨hlog, fun hnone => absurd hnone (h.faults rfl)⟩
  | true =>
      rw [if_pos rfl]
      refine wp_mono (hm s₁) fun log' v s' h' => ⟨hlog.append h'.1, fun hnone => ?_⟩
      rcases h'.2 hnone with ⟨before, x, between, rfl, hgot, hbetween⟩
      exact ⟨log ++ before, x, between, (List.append_assoc _ _ _).symm, hgot, hbetween⟩

theorem WritesOnce.after {v : V} {log log' : List (Event C R N)} (h : B.WritesOnce k v log') (hlog : B.Silent log)
    (hstill : ∀ e ∈ log, B.reaches e = false) : B.WritesOnce k v (log ++ log') := by
  rcases h with h | ⟨checked, e, rest, rfl, hchecked, hquiet, hwrote, hrest⟩
  · exact .inl (hlog.append h)
  · refine .inr ⟨log ++ checked, e, rest, (List.append_assoc _ _ _).symm, hlog.append hchecked, ?_, hwrote, hrest⟩
    exact fun y hy => (List.mem_append.1 hy).elim (hstill y) (hquiet y)

theorem Behind.writes (hB : Behind L B) {check : Code σ C R N Bool} {m m' : Code σ C R N α} {v : V}
    (hcheck : L.Checks check) (hm : ∀ s, m.wp (fun log _ _ => B.WritesOnce k v log) s) (hm' : B.Writeless m') :
    Writes L B k v (do if ← check then m else m') s := by
  rw [Writes, wp_bind]
  refine wp_mono (hcheck s) fun log ok s₁ h => ?_
  have hlog : B.Silent log := fun e he => hB.silent e (h.still e he)
  cases ok with
  | false =>
      rw [if_neg Bool.false_ne_true]
      refine wp_mono (hm' s₁) fun log' _ _ hlog' => ⟨.inl (hlog.append hlog'), fun hloud => ?_⟩
      exact absurd (hlog.append hlog') hloud
  | true =>
      rw [if_pos rfl]
      refine wp_mono (hm s₁) fun log' _ _ h' => ⟨h'.after hlog fun e he => hB.still e (h.still e he), fun _ => ?_⟩
      exact Latch.fault_none_of_first h.latched.first (h.opens rfl).fault

/-- Read, change, write: what is written depends on what was read. -/
theorem updates_modified {read : Code σ C R N V} {write : V → Code σ C R N α} {f : V → V}
    (hread : ∀ s, Reads L B k read s) (hwrite : ∀ old s, Writes L B k (f old) (write old) s)
    (hallowed : ∀ x old, B.got x = some (k, old) → allowed k (some old) (f old)) :
    (read >>= write).Keeps fun _ log _ => B.Updates allowed log := by
  intro s
  rw [wp_bind]
  refine wp_mono (hread s) fun log old s₁ hlast => ?_
  refine wp_mono (hwrite old s₁) fun log' _ s₂ h => ?_
  by_cases hquiet : B.Silent log'
  · exact updates_append hlast.1.updates hquiet.updates
  · have hold := hlast.2 (h.2 hquiet)
    rcases hold with ⟨before, x, between, hlog, hgot, hbetween⟩
    exact updates_read_write hlast.1 (fun _ => ⟨before, x, between, hlog, hgot, hbetween⟩) h.1 (hallowed x old hgot)

end Silent

end Bus
end Interaction
end Rtl8852be
