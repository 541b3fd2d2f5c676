import Mathlib.Tactic

/-!
# Custody — resources that are taken and given back in order

A trace is read as a sequence of deeds: a resource is taken, it is given back, or an attempt to give it
back fails.  Resources are given back in a fixed order.

* `settle` — the resources held after a deed, or nothing if the deed is out of order;
* `Custody` — a whole trace is in order;
* `Custody.balance` — what was taken was given back once, or is still held;
-/

namespace Rtl8852be
namespace Interaction

/-- What an event does to resources of the kind `ρ`. -/
inductive Deed (ρ : Type)
  | nothing
  | takes (r : ρ)
  | frees (r : ρ)
  | fails (r : ρ)
  deriving DecidableEq

variable {ε ρ : Type} [DecidableEq ρ]

/-- The resource is held, and those that come before it are not. -/
def mayFree (order : List ρ) (held : ρ → Bool) (r : ρ) : Bool :=
  held r && (order.takeWhile fun x => decide (x ≠ r)).all fun x => !held x

def settle (order : List ρ) (held : ρ → Bool) : Deed ρ → Option (ρ → Bool)
  | .nothing => some held
  | .takes r => if held r then none else some (Function.update held r true)
  | .frees r => if mayFree order held r then some (Function.update held r false) else none
  | .fails r => if mayFree order held r then some held else none

/-- Between these states the trace is in order. -/
def Custody (deed : ε → Deed ρ) (order : List ρ) (held : ρ → Bool) (log : List ε)
    (held' : ρ → Bool) : Prop :=
  log.foldlM (fun h e => settle order h (deed e)) held = some held'

section Custody

variable {deed : ε → Deed ρ} {order : List ρ} {held held' held'' : ρ → Bool} {log log' : List ε}

theorem custody_nil : Custody deed order held [] held := rfl

theorem custody_cons {e : ε} :
    Custody deed order held (e :: log) held'' ↔
      ∃ held', settle order held (deed e) = some held' ∧ Custody deed order held' log held'' := by
  rw [Custody, List.foldlM_cons]
  exact Option.bind_eq_some_iff

theorem Custody.trans (h : Custody deed order held log held')
    (h' : Custody deed order held' log' held'') : Custody deed order held (log ++ log') held'' := by
  induction log generalizing held with
  | nil =>
      cases h
      exact h'
  | cons e log ih =>
      rcases custody_cons.1 h with ⟨next, hstep, hrest⟩
      exact custody_cons.2 ⟨next, hstep, ih hrest⟩

def taken (deed : ε → Deed ρ) (r : ρ) (log : List ε) : ℕ := log.countP fun e => deed e = .takes r

def freed (deed : ε → Deed ρ) (r : ρ) (log : List ε) : ℕ := log.countP fun e => deed e = .frees r

theorem settle_balance {d : Deed ρ} (h : settle order held d = some held') (r : ρ) :
    (if d = .takes r then 1 else 0) + (held r).toNat =
      (if d = .frees r then 1 else 0) + (held' r).toNat := by
  cases d with
  | nothing =>
      cases h
      simp
  | takes x =>
      rw [settle] at h
      split at h
      · exact absurd h nofun
      · rename_i hfree
        cases h
        by_cases hx : r = x
        · subst hx
          simp [hfree]
        · have hx' : ¬ x = r := fun h => hx h.symm
          simp [hx, hx']
  | frees x =>
      rw [settle] at h
      split at h
      · rename_i hmay
        cases h
        rw [mayFree, Bool.and_eq_true] at hmay
        by_cases hx : r = x
        · subst hx
          simp [hmay.1]
        · have hx' : ¬ x = r := fun h => hx h.symm
          simp [hx, hx']
      · exact absurd h nofun
  | fails x =>
      rw [settle] at h
      split at h
      · cases h
        simp
      · exact absurd h nofun

/-- What was taken was given back once, or is still held. -/
theorem Custody.balance (h : Custody deed order held log held') (r : ρ) :
    taken deed r log + (held r).toNat = freed deed r log + (held' r).toNat := by
  induction log generalizing held with
  | nil =>
      cases h
      rfl
  | cons e log ih =>
      rcases custody_cons.1 h with ⟨next, hstep, hrest⟩
      have hhead := settle_balance hstep r
      have htail := ih hrest
      simp only [taken, freed, List.countP_cons, decide_eq_true_eq] at htail ⊢
      omega

end Custody

end Interaction
end Rtl8852be
