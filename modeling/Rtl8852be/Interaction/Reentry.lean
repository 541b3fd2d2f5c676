import Mathlib.Tactic

/-!
# Reentry — gated code that can be entered again while it waits

Some calls do not only return a value: before they return, the callee may enter the same object
again, through any of its entry points.  This file provides:

* `Task` — decision trees with two kinds of calls: `ask`, which only returns a reply, and `lend`,
  during which the object's record belongs to the callee;
* `Reentrant σ C R Y N α` — code over a record `σ` with both kinds of calls, as a monad;
* `Running` — every use of an object with such entry points: at any rest, the environment enters
  once more or returns from the innermost lent call;
* `Reentrant.wp` and `Running.invariant` — to keep an invariant of trace and record, code has to
  establish it whenever it lends the record away, and may rely on it when it gets the record back.

A trace is a list of `Moment`s, oldest first.  Each of them carries the entry point that was running
and the record as it was.
-/

namespace Rtl8852be
namespace Interaction

/-- Decision trees of calls; `lend` hands the record out and gets one back. -/
inductive Task (σ C : Type) (R : C → Type) (Y N α : Type)
  | done (a : α) (s : σ)
  | ask (c : C) (s : σ) (k : R c → Task σ C R Y N α)
  | tell (n : N) (s : σ) (p : Task σ C R Y N α)
  | lend (y : Y) (s : σ) (k : Bool → σ → Task σ C R Y N α)

/-- What can be observed at one moment. -/
inductive What (C : Type) (R : C → Type) (Y N ρ : Type)
  | entered
  | left (r : ρ)
  | call (c : C) (r : R c)
  | note (n : N)
  | lent (y : Y)
  | regained (y : Y) (b : Bool)

def What.isLeft {C : Type} {R : C → Type} {Y N ρ : Type} : What C R Y N ρ → Bool
  | .left _ => true
  | _ => false

/-- Is this a call that only returned a reply? -/
def What.isCall {C : Type} {R : C → Type} {Y N ρ : Type} : What C R Y N ρ → Bool
  | .call _ _ => true
  | _ => false

structure Moment (σ C : Type) (R : C → Type) (Y N Op ρ : Type) where
  op : Op
  state : σ
  what : What C R Y N ρ

/-- An entry point that waits for a lent call. -/
structure Suspended (σ C : Type) (R : C → Type) (Y N Op ρ : Type) where
  op : Op
  at_ : Y
  rest : Bool → σ → Task σ C R Y N ρ

namespace Task

variable {σ C : Type} {R : C → Type} {Y N Op ρ α β : Type}

def bind : Task σ C R Y N α → (α → σ → Task σ C R Y N β) → Task σ C R Y N β
  | .done a s, f => f a s
  | .ask c s k, f => .ask c s fun r => bind (k r) f
  | .tell n s p, f => .tell n s (bind p f)
  | .lend y s k, f => .lend y s fun b s' => bind (k b s') f

/-- One way the code of `op` can go until it ends or lends the record away. -/
inductive Goes (op : Op) : Task σ C R Y N ρ → List (Moment σ C R Y N Op ρ) → σ →
    Option (Suspended σ C R Y N Op ρ) → Prop
  | done {r : ρ} {s : σ} : Goes op (.done r s) [⟨op, s, .left r⟩] s none
  | lend {y : Y} {s : σ} {k : Bool → σ → Task σ C R Y N ρ} :
      Goes op (.lend y s k) [⟨op, s, .lent y⟩] s (some ⟨op, y, k⟩)
  | ask {c : C} {s s' : σ} {k : R c → Task σ C R Y N ρ} {r : R c}
      {log : List (Moment σ C R Y N Op ρ)} {f : Option (Suspended σ C R Y N Op ρ)} :
      Goes op (k r) log s' f → Goes op (.ask c s k) (⟨op, s, .call c r⟩ :: log) s' f
  | tell {n : N} {s s' : σ} {p : Task σ C R Y N ρ} {log : List (Moment σ C R Y N Op ρ)}
      {f : Option (Suspended σ C R Y N Op ρ)} :
      Goes op p log s' f → Goes op (.tell n s p) (⟨op, s, .note n⟩ :: log) s' f

variable (I : List (Moment σ C R Y N Op ρ) → σ → Prop) (op : Op)

/-- `wp I op Q p t`: started after the trace `t`, the code `p` of `op` has the invariant `I` at every
loan and satisfies `Q` when it ends. -/
def wp (Q : List (Moment σ C R Y N Op ρ) → α → σ → Prop) :
    Task σ C R Y N α → List (Moment σ C R Y N Op ρ) → Prop
  | .done a s, t => Q t a s
  | .ask c s k, t => ∀ r, (k r).wp Q (t ++ [⟨op, s, .call c r⟩])
  | .tell n s p, t => p.wp Q (t ++ [⟨op, s, .note n⟩])
  | .lend y s k, t => I (t ++ [⟨op, s, .lent y⟩]) s ∧
      ∀ t' b s', I t' s' → (k b s').wp Q (t' ++ [⟨op, s', .regained y b⟩])

variable {I op}

theorem wp_mono {Q Q' : List (Moment σ C R Y N Op ρ) → α → σ → Prop}
    (hQ : ∀ t a s, Q t a s → Q' t a s) (p : Task σ C R Y N α) :
    ∀ {t : List (Moment σ C R Y N Op ρ)}, p.wp I op Q t → p.wp I op Q' t := by
  induction p with
  | done a s => exact hQ _ a s
  | ask c s k ih => exact fun h r => ih r (h r)
  | tell n s p ih => exact ih
  | lend y s k ih => exact fun h => ⟨h.1, fun t' b s' hI => ih b s' (h.2 t' b s' hI)⟩

theorem wp_bind {Q : List (Moment σ C R Y N Op ρ) → β → σ → Prop} (p : Task σ C R Y N α)
    (f : α → σ → Task σ C R Y N β) :
    ∀ {t : List (Moment σ C R Y N Op ρ)},
      (p.bind f).wp I op Q t ↔ p.wp I op (fun t' a s => (f a s).wp I op Q t') t := by
  induction p with
  | done a s => exact Iff.rfl
  | ask c s k ih => exact forall_congr' fun r => ih r
  | tell n s p ih => exact ih
  | lend y s k ih =>
      exact and_congr_right fun _ =>
        forall_congr' fun t' => forall_congr' fun b => forall_congr' fun s' =>
          imp_congr_right fun _ => ih b s'

/-- What a suspended entry point needs in order to go on. -/
def Resumes (I : List (Moment σ C R Y N Op ρ) → σ → Prop) (f : Suspended σ C R Y N Op ρ) : Prop :=
  ∀ t b s, I t s → (f.rest b s).wp I f.op (fun t' r s' => I (t' ++ [⟨f.op, s', .left r⟩]) s')
    (t ++ [⟨f.op, s, .regained f.at_ b⟩])

/-- The code that `wp` speaks of goes only where the invariant holds again. -/
theorem Goes.invariant {p : Task σ C R Y N ρ} {log : List (Moment σ C R Y N Op ρ)} {s : σ}
    {f : Option (Suspended σ C R Y N Op ρ)} (hgo : Goes op p log s f) :
    ∀ {t : List (Moment σ C R Y N Op ρ)},
      p.wp I op (fun t' r s' => I (t' ++ [⟨op, s', .left r⟩]) s') t →
      I (t ++ log) s ∧ ∀ g ∈ f, Resumes I g := by
  induction hgo with
  | done => exact fun h => ⟨h, nofun⟩
  | lend =>
      intro t h
      refine ⟨h.1, fun g hg => ?_⟩
      obtain rfl := Option.some.inj hg
      exact h.2
  | ask _ ih =>
      intro t h
      simpa using ih (h _)
  | tell _ ih =>
      intro t h
      simpa using ih h

variable {γ : Type}

/-- Go on against one environment with state `γ`. -/
def go (op : Op) (env : (c : C) → γ → R c × γ) :
    Task σ C R Y N ρ → γ → List (Moment σ C R Y N Op ρ) × σ × Option (Suspended σ C R Y N Op ρ) × γ
  | .done r s, e => ([⟨op, s, .left r⟩], s, none, e)
  | .ask c s k, e =>
      let (r, e') := env c e
      let (log, x) := go op env (k r) e'
      (⟨op, s, .call c r⟩ :: log, x)
  | .tell n s p, e =>
      let (log, x) := go op env p e
      (⟨op, s, .note n⟩ :: log, x)
  | .lend y s k, e => ([⟨op, s, .lent y⟩], s, some ⟨op, y, k⟩, e)

theorem goes_go (op : Op) (env : (c : C) → γ → R c × γ) (p : Task σ C R Y N ρ) :
    ∀ e : γ, Goes op p (p.go op env e).1 (p.go op env e).2.1 (p.go op env e).2.2.1 := by
  induction p with
  | done r s => exact fun _ => .done
  | ask c s k ih => exact fun _ => .ask (ih _ _)
  | tell n s p ih => exact fun _ => .tell (ih _)
  | lend y s k ih => exact fun _ => .lend

end Task

/-! ## Code -/

/-- Code over the record `σ` that may lend it away. -/
def Reentrant (σ C : Type) (R : C → Type) (Y N α : Type) : Type := σ → Task σ C R Y N α

namespace Reentrant

variable {σ C : Type} {R : C → Type} {Y N Op ρ α β : Type}

instance : Monad (Reentrant σ C R Y N) where
  pure a := fun s => .done a s
  bind m f := fun s => (m s).bind f

instance : MonadStateOf σ (Reentrant σ C R Y N) where
  get := fun s => .done s s
  set s := fun _ => .done ⟨⟩ s
  modifyGet f := fun s => .done (f s).1 (f s).2

def ask (c : C) : Reentrant σ C R Y N (R c) := fun s => .ask c s fun r => .done r s

def tell (n : N) : Reentrant σ C R Y N Unit := fun s => .tell n s (.done () s)

/-- A call during which the object may be entered again. -/
def lend (y : Y) : Reentrant σ C R Y N Bool := fun s => .lend y s fun b s' => .done b s'

variable (I : List (Moment σ C R Y N Op ρ) → σ → Prop) (op : Op)

/-- `Triple I op P m Q`: as part of `op`, the code `m` leads from `P` to `Q` and keeps `I` at its
loans. -/
def Triple (P : List (Moment σ C R Y N Op ρ) → σ → Prop) (m : Reentrant σ C R Y N α)
    (Q : List (Moment σ C R Y N Op ρ) → α → σ → Prop) : Prop :=
  ∀ t s, P t s → (m s).wp I op Q t

variable {I op} {P P' : List (Moment σ C R Y N Op ρ) → σ → Prop}
  {Q Q' : List (Moment σ C R Y N Op ρ) → α → σ → Prop}
  {S : List (Moment σ C R Y N Op ρ) → β → σ → Prop}

theorem Triple.conseq {m : Reentrant σ C R Y N α} (h : Triple I op P m Q)
    (hP : ∀ t s, P' t s → P t s) (hQ : ∀ t a s, Q t a s → Q' t a s) : Triple I op P' m Q' :=
  fun t s hs => Task.wp_mono hQ _ (h t s (hP t s hs))

theorem Triple.bind {m : Reentrant σ C R Y N α} {f : α → Reentrant σ C R Y N β}
    (hm : Triple I op P m Q) (hf : ∀ a, Triple I op (fun t s => Q t a s) (f a) S) :
    Triple I op P (m >>= f) S :=
  fun t s hs => (Task.wp_bind _ _).2 (Task.wp_mono (fun t' a s' => hf a t' s') _ (hm t s hs))

theorem Triple.pure {a : α} (h : ∀ t s, P t s → Q t a s) : Triple I op P (Pure.pure a) Q := h

theorem Triple.get_bind {f : σ → Reentrant σ C R Y N α}
    (h : ∀ s₀, Triple I op (fun t s => P t s ∧ s = s₀) (f s₀) Q) :
    Triple I op P (get >>= f) Q :=
  fun t s hs => h s t s ⟨hs, rfl⟩

theorem Triple.modify {g : σ → σ} {Q : List (Moment σ C R Y N Op ρ) → PUnit → σ → Prop}
    (h : ∀ t s, P t s → Q t ⟨⟩ (g s)) : Triple I op P (modify g) Q := h

theorem Triple.ask {c : C} {Q : List (Moment σ C R Y N Op ρ) → R c → σ → Prop}
    (h : ∀ t r s, P t s → Q (t ++ [⟨op, s, .call c r⟩]) r s) : Triple I op P (ask c) Q :=
  fun t s hs r => h t r s hs

theorem Triple.tell {n : N} {Q : List (Moment σ C R Y N Op ρ) → Unit → σ → Prop}
    (h : ∀ t s, P t s → Q (t ++ [⟨op, s, .note n⟩]) () s) : Triple I op P (tell n) Q := h

theorem Triple.lend {y : Y} {Q : List (Moment σ C R Y N Op ρ) → Bool → σ → Prop}
    (hlend : ∀ t s, P t s → I (t ++ [⟨op, s, .lent y⟩]) s)
    (hback : ∀ t b s, I t s → Q (t ++ [⟨op, s, .regained y b⟩]) b s) :
    Triple I op P (lend y) Q :=
  fun t s hs => ⟨hlend t s hs, hback⟩

theorem Triple.ite {c : Prop} [Decidable c] {m m' : Reentrant σ C R Y N α}
    (hm : c → Triple I op P m Q) (hm' : ¬ c → Triple I op P m' Q) :
    Triple I op P (if c then m else m') Q := by
  by_cases hc : c
  · simpa [hc] using hm hc
  · simpa [hc] using hm' hc

end Reentrant

/-! ## Runs -/

section Running

variable {σ C : Type} {R : C → Type} {Y N Op ρ : Type}

/-- `Running exec init t s st`: after the trace `t` the record is `s`, and the entry points `st` wait
for the calls they lent the record to, the innermost first. -/
inductive Running (exec : Op → Reentrant σ C R Y N ρ) (init : σ) :
    List (Moment σ C R Y N Op ρ) → σ → List (Suspended σ C R Y N Op ρ) → Prop
  | start : Running exec init [] init []
  | enter {t log : List (Moment σ C R Y N Op ρ)} {s s' : σ} {op : Op}
      {st : List (Suspended σ C R Y N Op ρ)} {f : Option (Suspended σ C R Y N Op ρ)} :
      Running exec init t s st → (exec op s).Goes op log s' f →
      Running exec init (t ++ ⟨op, s, .entered⟩ :: log) s' (f.toList ++ st)
  | resume {t log : List (Moment σ C R Y N Op ρ)} {s s' : σ} {g : Suspended σ C R Y N Op ρ}
      {st : List (Suspended σ C R Y N Op ρ)} {f : Option (Suspended σ C R Y N Op ρ)} {b : Bool} :
      Running exec init t s (g :: st) → (g.rest b s).Goes g.op log s' f →
      Running exec init (t ++ ⟨g.op, s, .regained g.at_ b⟩ :: log) s' (f.toList ++ st)

variable {exec : Op → Reentrant σ C R Y N ρ} {init s : σ} {t : List (Moment σ C R Y N Op ρ)}
  {st : List (Suspended σ C R Y N Op ρ)}

/-- What every entry point keeps, given that all of them do, holds throughout. -/
theorem Running.invariant {I : List (Moment σ C R Y N Op ρ) → σ → Prop} (hinit : I [] init)
    (hexec : ∀ op, Reentrant.Triple I op (fun t s => ∃ t', t = t' ++ [⟨op, s, .entered⟩] ∧ I t' s)
      (exec op) fun t r s => I (t ++ [⟨op, s, .left r⟩]) s)
    (hrun : Running exec init t s st) : I t s := by
  -- The induction also carries what the waiting entry points will do.
  suffices hall : I t s ∧ ∀ g ∈ st, Task.Resumes I g from hall.1
  induction hrun with
  | start => exact ⟨hinit, nofun⟩
  | enter _ hgo ih =>
      obtain ⟨hI, hst⟩ := ih
      obtain ⟨hI', hf⟩ := hgo.invariant (hexec _ _ _ ⟨_, rfl, hI⟩)
      refine ⟨by simpa using hI', fun g hg => ?_⟩
      rcases List.mem_append.1 hg with hg | hg
      · exact hf g (Option.mem_toList.1 hg)
      · exact hst g hg
  | resume _ hgo ih =>
      obtain ⟨hI, hst⟩ := ih
      obtain ⟨hI', hf⟩ := hgo.invariant (hst _ List.mem_cons_self _ _ _ hI)
      refine ⟨by simpa using hI', fun g hg => ?_⟩
      rcases List.mem_append.1 hg with hg | hg
      · exact hf g (Option.mem_toList.1 hg)
      · exact hst g (List.mem_cons_of_mem _ hg)

variable {γ : Type}

/-- What an environment does next at a rest. -/
inductive Turn (Op : Type)
  | enter (op : Op)
  | back (b : Bool)

/-- Take these turns against one environment; a `back` with nothing to return to is skipped. -/
def drive (exec : Op → Reentrant σ C R Y N ρ) (env : (c : C) → γ → R c × γ) :
    List (Turn Op) → List (Moment σ C R Y N Op ρ) → σ → List (Suspended σ C R Y N Op ρ) → γ →
      List (Moment σ C R Y N Op ρ) × σ × List (Suspended σ C R Y N Op ρ)
  | [], t, s, st, _ => (t, s, st)
  | .enter op :: turns, t, s, st, e =>
      let (log, s', f, e') := (exec op s).go op env e
      drive exec env turns (t ++ ⟨op, s, .entered⟩ :: log) s' (f.toList ++ st) e'
  | .back b :: turns, t, s, g :: st, e =>
      let (log, s', f, e') := (g.rest b s).go g.op env e
      drive exec env turns (t ++ ⟨g.op, s, .regained g.at_ b⟩ :: log) s' (f.toList ++ st) e'
  | .back _ :: turns, t, s, [], e => drive exec env turns t s [] e

theorem drive_running (exec : Op → Reentrant σ C R Y N ρ) (env : (c : C) → γ → R c × γ)
    (turns : List (Turn Op)) :
    ∀ {t : List (Moment σ C R Y N Op ρ)} {s : σ} {st : List (Suspended σ C R Y N Op ρ)} (e : γ),
      Running exec init t s st →
      Running exec init (drive exec env turns t s st e).1 (drive exec env turns t s st e).2.1
        (drive exec env turns t s st e).2.2 := by
  induction turns with
  | nil => exact fun _ hrun => hrun
  | cons turn turns ih =>
      intro t s st e hrun
      cases turn with
      | enter op => exact ih _ (hrun.enter (Task.goes_go op env _ e))
      | back b =>
          cases st with
          | nil => exact ih e hrun
          | cons g st => exact ih _ (hrun.resume (Task.goes_go g.op env _ e))

end Running

/-! ## Properties of traces -/

section Trace

variable {α : Type} {P : List α → α → Prop} {q : α → Prop} {t : List α} {x y : α}

/-- Every element satisfies `P` in view of the elements before it. -/
def Always (P : List α → α → Prop) (t : List α) : Prop :=
  ∀ before x after, t = before ++ x :: after → P before x

theorem always_nil : Always P [] := by
  intro before x after h
  simp at h

theorem always_concat : Always P (t ++ [x]) ↔ Always P t ∧ P t x := by
  constructor
  · intro h
    refine ⟨?_, h t x [] rfl⟩
    intro before y after ht
    exact h before y (after ++ [x]) (by simp [ht])
  · rintro ⟨ht, hx⟩ before y after h
    -- The split falls inside `t` unless nothing comes after `y`.
    rcases List.eq_nil_or_concat after with rfl | ⟨after, z, rfl⟩
    · have hlast := List.append_inj' h rfl
      rcases hlast with ⟨rfl, hxy⟩
      rcases List.cons.inj hxy with ⟨rfl, -⟩
      exact hx
    · apply ht before y after
      have hinit : t ++ [x] = (before ++ y :: after) ++ [z] := by simpa using h
      exact (List.append_inj' hinit rfl).1

/-- `x` is the last element of `t` that satisfies `q`. -/
def Latest (q : α → Prop) (t : List α) (x : α) : Prop :=
  ∃ earlier later, t = earlier ++ x :: later ∧ q x ∧ ∀ y ∈ later, ¬ q y

theorem Latest.here (hx : q x) : Latest q (t ++ [x]) x :=
  ⟨t, [], rfl, hx, by simp⟩

theorem Latest.concat (h : Latest q t x) (hy : ¬ q y) : Latest q (t ++ [y]) x := by
  rcases h with ⟨earlier, later, rfl, hx, hlater⟩
  refine ⟨earlier, later ++ [y], by simp, hx, ?_⟩
  intro z hz
  rcases List.mem_append.1 hz with hz | hz
  · exact hlater z hz
  · rcases List.mem_singleton.1 hz with rfl
    exact hy

end Trace

end Interaction
end Rtl8852be
