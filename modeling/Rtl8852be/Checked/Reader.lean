import Mathlib.Tactic

/-!
# Reader — code that reads a buffer with machine arithmetic

Code of this kind returns early with a status when it does not like what it reads.  Two more things can
end it, and must not: a read outside its buffer, and arithmetic that does not fit its type.

* `Reader ε α` — such code, with statuses `ε`;
* `byteAt`, `add`, `mul`, `sub` — the operations that can go wrong;
* `Safe F Q m` — nothing goes wrong in `m`: either it returns early with a status in `F`, or it returns a
  value in `Q`.  There is one rule for each construct.
-/

namespace Rtl8852be
namespace Checked

/-- Why code stops before its end. -/
inductive Stop (ε : Type)
  | outside
  | wrapped
  | early (status : ε)
  deriving DecidableEq

abbrev Reader (ε α : Type) := Except (Stop ε) α

variable {ε α β : Type}

/-- `return status;` -/
def early (status : ε) : Reader ε α := .error (.early status)

def byteAt (data : List UInt8) (i : ℕ) : Reader ε UInt8 :=
  if h : i < data.length then .ok data[i] else .error .outside

/-- A sum of `w` bits. -/
def add (w a b : ℕ) : Reader ε ℕ := if a + b < 2 ^ w then .ok (a + b) else .error .wrapped

def mul (w a b : ℕ) : Reader ε ℕ := if a * b < 2 ^ w then .ok (a * b) else .error .wrapped

def sub (a b : ℕ) : Reader ε ℕ := if b ≤ a then .ok (a - b) else .error .wrapped

theorem add_eq {w a b : ℕ} (h : a + b < 2 ^ w) : (add w a b : Reader ε ℕ) = pure (a + b) := if_pos h

theorem mul_eq {w a b : ℕ} (h : a * b < 2 ^ w) : (mul w a b : Reader ε ℕ) = pure (a * b) := if_pos h

theorem sub_eq {a b : ℕ} (h : b ≤ a) : (sub a b : Reader ε ℕ) = pure (a - b) := if_pos h

theorem byteAt_eq {data : List UInt8} {i : ℕ} (h : i < data.length) :
    (byteAt data i : Reader ε UInt8) = pure (data.getD i 0) := by
  rw [byteAt, dif_pos h, List.getD_eq_getElem?_getD, List.getElem?_eq_getElem h]
  rfl

theorem ok_bind (a : α) (m : α → Reader ε β) : (Except.ok a >>= m) = m a := rfl

theorem error_bind (stop : Stop ε) (m : α → Reader ε β) : (Except.error stop >>= m) = .error stop := rfl

/-- The caller of the code sees a value in any case. -/
def returned (onEarly : ε → β) (onEnd : α → β) : Reader ε α → Reader Empty β
  | .ok a => .ok (onEnd a)
  | .error (.early status) => .ok (onEarly status)
  | .error .outside => .error .outside
  | .error .wrapped => .error .wrapped

/-! ## Nothing goes wrong -/

def Safe (F : ε → Prop) (Q : α → Prop) : Reader ε α → Prop
  | .ok a => Q a
  | .error (.early status) => F status
  | .error .outside => False
  | .error .wrapped => False

variable {F : ε → Prop} {Q Q' : α → Prop} {m : Reader ε α}

theorem Safe.mono (h : Safe F Q m) (hQ : ∀ a, Q a → Q' a) : Safe F Q' m := by
  rcases m with (_ | _ | _) | a
  · exact h
  · exact h
  · exact h
  · exact hQ a h

theorem Safe.weaken {F' : ε → Prop} (h : Safe F Q m) (hF : ∀ status, F status → F' status) : Safe F' Q m := by
  rcases m with (_ | _ | status) | a
  · exact h
  · exact h
  · exact hF status h
  · exact h

theorem Safe.pure {a : α} (h : Q a) : Safe F Q (Pure.pure a : Reader ε α) := h

theorem Safe.early {status : ε} (h : F status) : Safe F Q (early status) := h

theorem Safe.bind {P : β → Prop} {m : Reader ε β} {f : β → Reader ε α} (hm : Safe F P m)
    (hf : ∀ b, P b → Safe F Q (f b)) : Safe F Q (m >>= f) := by
  rcases m with (_ | _ | _) | b
  · exact hm
  · exact hm
  · exact hm
  · exact hf b hm

theorem Safe.ite {p : Prop} [Decidable p] {m m' : Reader ε α} (hm : p → Safe F Q m)
    (hm' : ¬ p → Safe F Q m') : Safe F Q (if p then m else m') := by
  by_cases hp : p
  · rw [if_pos hp]
    exact hm hp
  · rw [if_neg hp]
    exact hm' hp

theorem Safe.byteAt {data : List UInt8} {i : ℕ} (h : i < data.length) :
    Safe F (fun b => b = data.getD i 0) (Checked.byteAt data i) := by
  rw [Checked.byteAt, dif_pos h]
  show data[i] = data.getD i 0
  rw [List.getD_eq_getElem?_getD, List.getElem?_eq_getElem h, Option.getD_some]

theorem Safe.add {w a b : ℕ} (h : a + b < 2 ^ w) : Safe F (fun c => c = a + b) (Checked.add w a b) := by
  rw [add_eq h]
  exact rfl

theorem Safe.mul {w a b : ℕ} (h : a * b < 2 ^ w) : Safe F (fun c => c = a * b) (Checked.mul w a b) := by
  rw [mul_eq h]
  exact rfl

theorem Safe.sub {a b : ℕ} (h : b ≤ a) : Safe F (fun c => c = a - b) (Checked.sub a b) := by
  rw [sub_eq h]
  exact rfl

theorem Safe.ends (h : Safe F Q m) :
    (∃ status, F status ∧ m = .error (.early status)) ∨ ∃ a, Q a ∧ m = .ok a := by
  rcases m with (_ | _ | status) | a
  · exact h.elim
  · exact h.elim
  · exact Or.inl ⟨status, h, rfl⟩
  · exact Or.inr ⟨a, h, rfl⟩

theorem Safe.returned {onEarly : ε → β} {onEnd : α → β} (h : Safe F Q m) :
    (∃ status, F status ∧ returned onEarly onEnd m = .ok (onEarly status)) ∨
      ∃ a, Q a ∧ returned onEarly onEnd m = .ok (onEnd a) := by
  rcases h.ends with ⟨status, hstatus, rfl⟩ | ⟨a, ha, rfl⟩
  · exact Or.inl ⟨status, hstatus, rfl⟩
  · exact Or.inr ⟨a, ha, rfl⟩

-- From here on only the rules see through `Safe`: unfolding it would run the code.
attribute [irreducible] Safe

end Checked
end Rtl8852be
