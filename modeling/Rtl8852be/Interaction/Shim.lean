import Rtl8852be.Interaction.Checks

/-!
# Shim — foreign code that runs over accessors

Some code is not written against the environment but against the functions of an object: it calls them in
any order, with any arguments, and goes on as it likes whatever they return.  Such code is a `Prog` whose
calls are those functions.  `Prog.through` runs it over them, and `keeps_through` is the rule for it: what
every function keeps, any such code keeps.
-/

namespace Rtl8852be
namespace Interaction

variable {σ A C : Type} {S : A → Type} {R : C → Type} {N α : Type}

/-- Run foreign code over the functions of an object. -/
def Prog.through (f : (a : A) → Code σ C R N (S a)) : Prog A S Empty α → Code σ C R N α
  | .done x => pure x
  | .ask a k => f a >>= fun r => (k r).through f
  | .tell n _ => n.elim

/-- What every function keeps, any code over them keeps. -/
theorem keeps_through {T : σ → List (Event C R N) → σ → Prop} (hT : Traced T)
    {f : (a : A) → Code σ C R N (S a)} (hf : ∀ a, (f a).Keeps T) (p : Prog A S Empty α) :
    (p.through f).Keeps T := by
  induction p with
  | done x => exact Code.Keeps.pure hT x
  | ask a k ih => exact Code.Keeps.bind hT (hf a) ih
  | tell n _ _ => exact n.elim

end Interaction
end Rtl8852be
