import Rtl8852be.Interaction.Program

/-!
# History — runs of an object and what happened during them

An object whose entry points are `Code` is used by calling them one after the other.  `Run` collects
every such use, with every reply of the environment, and keeps the calls that were made: the history,
newest call first.

* `Run.invariant` — the induction rule: what holds at the start and survives a call holds always.
* `Since quiet start h` — the last part of `h` begins with a call that satisfies `start`, and all
  later calls satisfy `quiet`.
* `Trail quiet ms h` — the milestones `ms` were passed in order, newest first, and nothing but
  milestones and `quiet` calls happened since the first of them.
-/

namespace Rtl8852be
namespace Interaction

/-- One call: where it started, what it asked of the environment, what it returned and left. -/
structure Record (σ C : Type) (R : C → Type) (N Op ρ : Type) where
  before : σ
  op : Op
  log : List (Event C R N)
  result : ρ
  after : σ

section Run

variable {σ C : Type} {R : C → Type} {N Op ρ : Type}

/-- Everything that happened during these calls, the first event first. -/
def eventsOf : List (Record σ C R N Op ρ) → List (Event C R N)
  | [] => []
  | x :: h => eventsOf h ++ x.log

/-- `Run exec init h s`: the calls `h` lead from `init` to `s`. -/
inductive Run (exec : Op → Code σ C R N ρ) (init : σ) : List (Record σ C R N Op ρ) → σ → Prop
  | nil : Run exec init [] init
  | call {h : List (Record σ C R N Op ρ)} {s s' : σ} {op : Op} {log : List (Event C R N)} {r : ρ} :
      Run exec init h s → (exec op s).Outcome log (r, s') →
      Run exec init (⟨s, op, log, r, s'⟩ :: h) s'

variable {exec : Op → Code σ C R N ρ} {init s : σ} {h : List (Record σ C R N Op ρ)}

theorem Run.invariant {P : List (Record σ C R N Op ρ) → σ → Prop} (hnil : P [] init)
    (hcall : ∀ {h s s' op log r}, Run exec init h s → P h s → (exec op s).Outcome log (r, s') →
      P (⟨s, op, log, r, s'⟩ :: h) s')
    (hrun : Run exec init h s) : P h s := by
  induction hrun with
  | nil => exact hnil
  | call hrun hout ih => exact hcall hrun ih hout

variable {x : Record σ C R N Op ρ}

theorem Run.tail (hrun : Run exec init (x :: h) s) :
    Run exec init h x.before ∧ x.after = s ∧
      (exec x.op x.before).Outcome x.log (x.result, x.after) := by
  cases hrun with
  | call hrun hout => exact ⟨hrun, rfl, hout⟩

theorem Run.drop {later : List (Record σ C R N Op ρ)} :
    ∀ {s : σ}, Run exec init (later ++ x :: h) s → Run exec init (x :: h) x.after := by
  induction later with
  | nil =>
      intro s hrun
      obtain ⟨-, rfl, -⟩ := hrun.tail
      exact hrun
  | cons y later ih =>
      intro s hrun
      exact ih hrun.tail.1

/-- What no `q` call undoes holds from the call on that has established it, as long as only such calls
follow. -/
theorem Run.stable_while {P : σ → Prop} {q : Record σ C R N Op ρ → Prop}
    (hstep : ∀ y : Record σ C R N Op ρ, q y → P y.before →
      (exec y.op y.before).Outcome y.log (y.result, y.after) → P y.after)
    (later : List (Record σ C R N Op ρ)) (hx : P x.after) (hlater : ∀ y ∈ later, q y) :
    ∀ {s : σ}, Run exec init (later ++ x :: h) s → P s ∧ ∀ y ∈ later, P y.before := by
  induction later with
  | nil =>
      intro s hrun
      rcases hrun.tail with ⟨-, rfl, -⟩
      exact ⟨hx, by simp⟩
  | cons y later ih =>
      intro s hrun
      rcases hrun.tail with ⟨hbefore, rfl, hout⟩
      rcases ih (fun z hz => hlater z (List.mem_cons_of_mem y hz)) hbefore with ⟨hy, hall⟩
      refine ⟨hstep y (hlater y List.mem_cons_self) hy hout, fun z hz => ?_⟩
      rcases List.mem_cons.1 hz with rfl | hz
      · exact hy
      · exact hall z hz

/-- What no call undoes holds from the call on that has established it. -/
theorem Run.stable {P : σ → Prop} (hstep : ∀ {s s' op log r}, P s → (exec op s).Outcome log (r, s') → P s')
    (later : List (Record σ C R N Op ρ)) (hx : P x.after) :
    ∀ {s : σ}, Run exec init (later ++ x :: h) s → P s ∧ ∀ y ∈ later, P y.before :=
  Run.stable_while (q := fun _ => True) (fun _ _ => hstep) later hx fun _ _ => trivial

/-- Every call of a run was one that the code can make. -/
theorem Run.outcome (hrun : Run exec init h s) (hx : x ∈ h) :
    (exec x.op x.before).Outcome x.log (x.result, x.after) := by
  rcases List.append_of_mem hx with ⟨later, earlier, rfl⟩
  exact (Run.drop hrun).tail.2.2

variable {β : Type}

/-- Make these calls, first call first, against one environment. -/
def replayFrom (exec : Op → Code σ C R N ρ) (env : (c : C) → β → R c × β) :
    List Op → List (Record σ C R N Op ρ) → σ → β → List (Record σ C R N Op ρ) × σ × β
  | [], h, s, b => (h, s, b)
  | op :: ops, h, s, b =>
      let (log, (r, s'), b') := (exec op s).run env b
      replayFrom exec env ops (⟨s, op, log, r, s'⟩ :: h) s' b'

def replay (exec : Op → Code σ C R N ρ) (env : (c : C) → β → R c × β) (ops : List Op) (s : σ)
    (b : β) : List (Record σ C R N Op ρ) × σ × β :=
  replayFrom exec env ops [] s b

theorem replayFrom_run (exec : Op → Code σ C R N ρ) (env : (c : C) → β → R c × β) (ops : List Op) :
    ∀ {h : List (Record σ C R N Op ρ)} {s : σ} (b : β), Run exec init h s →
      Run exec init (replayFrom exec env ops h s b).1 (replayFrom exec env ops h s b).2.1 := by
  induction ops with
  | nil =>
      intro h s b hrun
      exact hrun
  | cons op ops ih =>
      intro h s b hrun
      exact ih _ (hrun.call (Prog.run_outcome env (exec op s) b))

theorem replay_run (exec : Op → Code σ C R N ρ) (env : (c : C) → β → R c × β) (ops : List Op)
    (s : σ) (b : β) : Run exec s (replay exec env ops s b).1 (replay exec env ops s b).2.1 :=
  replayFrom_run exec env ops b .nil

end Run

section Since

variable {α : Type} {quiet : α → Prop} {start : α → List α → Prop} {h : List α} {x : α}

/-- Some call satisfied `start`, given what came before it, and every later one is `quiet`. -/
def Since (quiet : α → Prop) (start : α → List α → Prop) (h : List α) : Prop :=
  ∃ later x earlier, h = later ++ x :: earlier ∧ start x earlier ∧ ∀ y ∈ later, quiet y

theorem Since.here (hx : start x h) : Since quiet start (x :: h) :=
  ⟨[], x, h, rfl, hx, by simp⟩

theorem Since.cons (hx : quiet x) (hs : Since quiet start h) : Since quiet start (x :: h) := by
  obtain ⟨later, y, earlier, rfl, hy, hq⟩ := hs
  refine ⟨x :: later, y, earlier, rfl, hy, fun z hz => ?_⟩
  rcases List.mem_cons.1 hz with rfl | hz
  · exact hx
  · exact hq z hz

theorem since_cons : Since quiet start (x :: h) ↔ start x h ∨ quiet x ∧ Since quiet start h := by
  constructor
  · rintro ⟨later, y, earlier, heq, hy, hq⟩
    cases later with
    | nil =>
        cases heq
        exact Or.inl hy
    | cons z later =>
        cases heq
        exact Or.inr ⟨hq x List.mem_cons_self, later, y, earlier, rfl, hy,
          fun z hz => hq z (List.mem_cons_of_mem x hz)⟩
  · rintro (hx | ⟨hx, hs⟩)
    · exact Since.here hx
    · exact Since.cons hx hs

theorem Since.mono {quiet' : α → Prop} {start' : α → List α → Prop} (hs : Since quiet start h)
    (hquiet : ∀ y, quiet y → quiet' y) (hstart : ∀ y l, start y l → start' y l) :
    Since quiet' start' h := by
  rcases hs with ⟨later, y, earlier, rfl, hy, hq⟩
  exact ⟨later, y, earlier, rfl, hstart y earlier hy, fun z hz => hquiet z (hq z hz)⟩

/-- The milestones, newest first, with only `quiet` calls after each of them. -/
def Trail (quiet : α → Prop) : List (α → Prop) → List α → Prop
  | [] => fun _ => True
  | m :: ms => Since quiet fun x earlier => m x ∧ Trail quiet ms earlier

theorem Trail.cons {ms : List (α → Prop)} (hx : quiet x) (ht : Trail quiet ms h) :
    Trail quiet ms (x :: h) := by
  cases ms with
  | nil => trivial
  | cons m ms => exact Since.cons hx ht

theorem Trail.push {m : α → Prop} {ms : List (α → Prop)} (hx : m x) (ht : Trail quiet ms h) :
    Trail quiet (m :: ms) (x :: h) :=
  Since.here ⟨hx, ht⟩

end Since

end Interaction
end Rtl8852be
