import Rtl8852be.Interaction.Program
import Mathlib.Algebra.BigOperators.Group.Multiset.Basic

/-!
# Holdings — what a trace owns

An event may use up resources that its author holds, and may bring new ones.  The same resource may come
back: a pointer that was handed over can be returned.

* `Balanced` — nothing is used up that is not held, and this is held in the end;
* `Balanced.trans` — traces one after the other;
* `Balanced.count` — what was held or came in was used up once, or is held in the end.
-/

namespace Rtl8852be
namespace Interaction

variable {ε ρ : Type}

/-- From `held`, the trace uses up only what is there and leaves the last multiset. -/
inductive Balanced (spend gain : ε → Multiset ρ) : Multiset ρ → List ε → Multiset ρ → Prop
  | nil (held : Multiset ρ) : Balanced spend gain held [] held
  | cons {e : ε} {log : List ε} {held rest held' : Multiset ρ} (hspend : held = spend e + rest)
      (hlog : Balanced spend gain (rest + gain e) log held') : Balanced spend gain held (e :: log) held'

namespace Balanced

variable {spend gain : ε → Multiset ρ} {held held' held'' : Multiset ρ} {e : ε} {log log' : List ε}

theorem trans (h : Balanced spend gain held log held') (h' : Balanced spend gain held' log' held'') :
    Balanced spend gain held (log ++ log') held'' := by
  induction h with
  | nil => exact h'
  | cons hspend _ ih => exact Balanced.cons hspend (ih h')

theorem skip (hspend : spend e = 0) (hgain : gain e = 0) (h : Balanced spend gain held log held') :
    Balanced spend gain held (e :: log) held' := by
  have hrest : held = spend e + held := by rw [hspend, zero_add]
  apply Balanced.cons hrest
  rwa [hgain, add_zero]

theorem bring (hspend : spend e = 0) (h : Balanced spend gain (held + gain e) log held') :
    Balanced spend gain held (e :: log) held' := by
  have hrest : held = spend e + held := by rw [hspend, zero_add]
  exact Balanced.cons hrest h

theorem frame (h : Balanced spend gain held log held') (other : Multiset ρ) :
    Balanced spend gain (held + other) log (held' + other) := by
  induction h with
  | nil held => exact Balanced.nil (held + other)
  | @cons e log held rest held' hspend _ ih =>
      have hrest : held + other = spend e + (rest + other) := by rw [hspend, add_assoc]
      apply Balanced.cons hrest
      have hswap : rest + other + gain e = rest + gain e + other := by
        rw [add_assoc, add_comm other, ← add_assoc]
      rw [hswap]
      exact ih

/-- What was held or came in was used up once, or is held in the end. -/
theorem count [DecidableEq ρ] (h : Balanced spend gain held log held') (r : ρ) :
    held.count r + (log.map fun e => (gain e).count r).sum =
      (log.map fun e => (spend e).count r).sum + held'.count r := by
  induction h with
  | nil held => simp
  | @cons e log held rest held' hspend _ ih =>
      rw [hspend, Multiset.count_add, List.map_cons, List.sum_cons, List.map_cons, List.sum_cons]
      rw [Multiset.count_add] at ih
      omega

end Balanced

end Interaction
end Rtl8852be
