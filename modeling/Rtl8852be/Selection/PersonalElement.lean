import Rtl8852be.Checked.Reader
import Rtl8852be.Selection.Decoders

/-!
# PersonalElement — the grammar of the personal security element

`WirelessRsn.hpp` once more, as the source has it: `personalIE` keeps a position `p` in a buffer, reads bytes
from it and subtracts positions of type `size_t`.  `Follows` relates this code to the functions of
`WirelessRequests`, which take bytes off the front of a list.  What is accepted is then compared with the
grammar of the element, in both directions.
-/

namespace Rtl8852be
namespace Selection

open Checked

variable {α β : Type} {wpa1 : Bool} {ie rest : List UInt8} {ciphers : PersonalCiphers}

/-! ## The code with its position -/

namespace Cursor

/-- Code that may leave with `return false`. -/
abbrev Parsing := Reader Unit

/-- The lambda `word`, with the value and the position after it. -/
def word (ie : List UInt8) (length p : ℕ) : Parsing (UInt16 × ℕ) := do
  let left ← sub length p
  if left < 2 then
    early ()
  else do
    let low ← byteAt ie p
    let high ← byteAt ie (p + 1)
    return (low.toUInt16 ||| (high.toUInt16 <<< 8), p + 2)

/-- The comparison with the vendor, which ends at the first byte that differs. -/
def vendorAt (wpa1 : Bool) (ie : List UInt8) (p : ℕ) : Parsing Bool := do
  let a ← byteAt ie p
  if a ≠ 0 then
    return false
  else do
    let b ← byteAt ie (p + 1)
    if b ≠ (if wpa1 then 0x50 else 0x0f) then
      return false
    else do
      let c ← byteAt ie (p + 2)
      return c == (if wpa1 then 0xf2 else 0xac)

/-- The lambda `suite`; its callers leave when it returns false. -/
def suite (wpa1 : Bool) (ie : List UInt8) (length p : ℕ) : Parsing (UInt8 × ℕ) := do
  let left ← sub length p
  if left < 4 then
    early ()
  else do
    let ok ← vendorAt wpa1 ie p
    let kind ← byteAt ie (p + 3)
    if ok then
      return (kind, p + 4)
    else
      early ()

def cipher (wpa1 : Bool) (ie : List UInt8) (length p : ℕ) : Parsing (Cipher × ℕ) := do
  let (kind, p) ← suite wpa1 ie length p
  if kind = 2 then
    return (.tkip, p)
  else if kind = 4 then
    return (.ccmp, p)
  else
    early ()

/-- `!word(n)||n!=1` -/
def one (ie : List UInt8) (length p : ℕ) : Parsing ℕ := do
  let (n, p) ← word ie length p
  if n = 1 then
    return p
  else
    early ()

/-- The part from `if(p<length)` to `if(p!=length)`. -/
def endOfElement (wpa1 : Bool) (ie : List UInt8) (length p : ℕ) : Parsing Unit :=
  if p < length then do
    let (caps, p) ← word ie length p
    if caps &&& ~~~(if wpa1 then 0 else 0x003c) ≠ 0 then
      early ()
    else if p < length then
      if wpa1 then
        early ()
      else do
        let (n, p) ← word ie length p
        if n ≠ 0 then
          early ()
        else if p ≠ length then
          early ()
        else
          return ()
    else if p ≠ length then
      early ()
    else
      return ()
  else if p ≠ length then
    early ()
  else
    return ()

def suites (wpa1 : Bool) (ie : List UInt8) (length p : ℕ) : Parsing PersonalCiphers := do
  let p ← one ie length p
  let (group, p) ← cipher wpa1 ie length p
  let p ← one ie length p
  let (pairwise, p) ← cipher wpa1 ie length p
  let p ← one ie length p
  let (akm, p) ← suite wpa1 ie length p
  if akm ≠ 2 then
    early ()
  else do
    endOfElement wpa1 ie length p
    return { pairwise, group }

/-- What the comparisons in front of the lambdas leave in `p`. -/
def header (wpa1 : Bool) (ie : List UInt8) (length : ℕ) : Parsing ℕ := do
  if length < 20 ∨ 257 < length then
    early ()
  else do
    let size ← byteAt ie 1
    if size.toNat + 2 ≠ length then
      early ()
    else do
      let tag ← byteAt ie 0
      if wpa1 then
        if tag ≠ 221 ∨ length < 24 then
          early ()
        else if (← byteAt ie 2) ≠ 0 then
          early ()
        else if (← byteAt ie 3) ≠ 0x50 then
          early ()
        else if (← byteAt ie 4) ≠ 0xf2 then
          early ()
        else if (← byteAt ie 5) ≠ 1 then
          early ()
        else
          return 6
      else if tag ≠ 48 then
        early ()
      else
        return 2

/-- `parsed` with the ciphers it begins with. -/
def unset (wpa1 : Bool) : PersonalCiphers := if wpa1 then { pairwise := .tkip, group := .tkip } else {}

/-- The result, and what `out` is afterwards.  There may be no buffer. -/
def personalIE (ie : Option (List UInt8)) (length : ℕ) (wpa1 : Bool) : Reader Empty (Bool × PersonalCiphers) :=
  if length = 0 then
    return (true, unset wpa1)
  else
    match ie with
    | none => return (false, {})
    | some ie =>
        returned (fun _ => (false, {})) (fun parsed => (true, parsed)) do
          let p ← header wpa1 ie length
          suites wpa1 ie length p

end Cursor

/-! ## Positions and what is left -/

/-- The code ends like the function over lists: early if that has no value, and else with a related value. -/
def Follows (R : α → β → Prop) : Cursor.Parsing α → Option β → Prop
  | .ok a, some b => R a b
  | .error (.early ()), none => True
  | _, _ => False

/-- A position inside the buffer stands for the bytes from there on. -/
def At (ie : List UInt8) (p : ℕ) (rest : List UInt8) : Prop := p ≤ ie.length ∧ rest = ie.drop p

def With (ie : List UInt8) (x : α × ℕ) (y : α × List UInt8) : Prop := x.1 = y.1 ∧ At ie x.2 y.2

namespace Follows

variable {γ δ : Type} {R : α → β → Prop} {S : γ → δ → Prop}

theorem early : Follows R (Checked.early ()) none := trivial

theorem bind {m : Cursor.Parsing α} {o : Option β} {f : α → Cursor.Parsing γ} {g : β → Option δ}
    (hm : Follows R m o) (hf : ∀ a b, R a b → Follows S (f a) (g b)) : Follows S (m >>= f) (o >>= g) := by
  rcases m with (_ | _ | _) | a
  · cases o with
    | none => exact hm
    | some b => exact hm
  · cases o with
    | none => exact hm
    | some b => exact hm
  · cases o with
    | none => exact hm
    | some b => exact hm.elim
  · cases o with
    | none => exact hm.elim
    | some b => exact hf a b hm

theorem bindAt {m : Cursor.Parsing ℕ} {o : Option (List UInt8)} {f : ℕ → Cursor.Parsing γ}
    {g : List UInt8 → Option δ} (hm : Follows (At ie) m o)
    (hf : ∀ p ≤ ie.length, Follows S (f p) (g (ie.drop p))) : Follows S (m >>= f) (o >>= g) := by
  refine hm.bind fun p rest hp => ?_
  rcases hp with ⟨hp, rfl⟩
  exact hf p hp

theorem bindWith {m : Cursor.Parsing (α × ℕ)} {o : Option (α × List UInt8)}
    {f : α × ℕ → Cursor.Parsing γ} {g : α × List UInt8 → Option δ} (hm : Follows (With ie) m o)
    (hf : ∀ a, ∀ p ≤ ie.length, Follows S (f (a, p)) (g (a, ie.drop p))) :
    Follows S (m >>= f) (o >>= g) := by
  refine hm.bind fun x y hxy => ?_
  rcases x with ⟨a, p⟩
  rcases y with ⟨b, rest⟩
  rcases hxy with ⟨rfl, hp, rfl⟩
  exact hf a p hp

theorem ite {c : Prop} [Decidable c] {m m' : Cursor.Parsing α} {o o' : Option β}
    (hm : c → Follows R m o) (hm' : ¬ c → Follows R m' o') :
    Follows R (if c then m else m') (if c then o else o') := by
  by_cases hc : c
  · rw [if_pos hc, if_pos hc]
    exact hm hc
  · rw [if_neg hc, if_neg hc]
    exact hm' hc

end Follows

theorem drop_cons {p : ℕ} (hp : p < ie.length) : ie.drop p = ie.getD p 0 :: ie.drop (p + 1) := by
  rw [List.drop_eq_getElem_cons hp, List.getD_eq_getElem?_getD, List.getElem?_eq_getElem hp, Option.getD_some]

variable {p : ℕ}

theorem word_follows (hp : p ≤ ie.length) :
    Follows (With ie) (Cursor.word ie ie.length p) (word (ie.drop p)) := by
  rw [Cursor.word, sub_eq hp, pure_bind]
  by_cases hleft : ie.length - p < 2
  · have hnone : word (ie.drop p) = none := by
      rcases hdrop : ie.drop p with _ | ⟨a, _ | ⟨b, rest⟩⟩
      · rfl
      · rfl
      · have hlength := congrArg List.length hdrop
        simp only [List.length_drop, List.length_cons] at hlength
        omega
    rw [if_pos hleft, hnone]
    exact Follows.early
  · rw [if_neg hleft, byteAt_eq (by omega), pure_bind, byteAt_eq (by omega), pure_bind,
      drop_cons (p := p) (by omega), drop_cons (p := p + 1) (by omega)]
    exact ⟨rfl, by omega, rfl⟩

theorem suite_follows (hp : p ≤ ie.length) :
    Follows (With ie) (Cursor.suite wpa1 ie ie.length p) (suite wpa1 (ie.drop p)) := by
  rw [Cursor.suite, sub_eq hp, pure_bind]
  by_cases hleft : ie.length - p < 4
  · have hnone : suite wpa1 (ie.drop p) = none := by
      rcases hdrop : ie.drop p with _ | ⟨a, _ | ⟨b, _ | ⟨c, _ | ⟨d, rest⟩⟩⟩⟩
      · rfl
      · rfl
      · rfl
      · rfl
      · have hlength := congrArg List.length hdrop
        simp only [List.length_drop, List.length_cons] at hlength
        omega
    rw [if_pos hleft, hnone]
    exact Follows.early
  · have hvendor : Cursor.vendorAt wpa1 ie p = pure (decide (ie.getD p 0 = 0 ∧
        ie.getD (p + 1) 0 = (if wpa1 then 0x50 else 0x0f) ∧
        ie.getD (p + 2) 0 = (if wpa1 then 0xf2 else 0xac))) := by
      rw [Cursor.vendorAt, byteAt_eq (by omega), byteAt_eq (by omega), byteAt_eq (by omega)]
      simp only [pure_bind]
      by_cases ha : ie.getD p 0 = 0
      · by_cases hb : ie.getD (p + 1) 0 = (if wpa1 then 0x50 else 0x0f)
        · rw [if_neg (not_not.2 ha), if_neg (not_not.2 hb)]
          simp only [ha, hb, true_and]
          rfl
        · rw [if_neg (not_not.2 ha), if_pos hb]
          simp only [hb, false_and, and_false, decide_false]
      · rw [if_pos ha]
        simp only [ha, false_and, decide_false]
    rw [if_neg hleft, hvendor, pure_bind, byteAt_eq (by omega), pure_bind,
      drop_cons (p := p) (by omega), drop_cons (p := p + 1) (by omega),
      drop_cons (p := p + 1 + 1) (by omega), drop_cons (p := p + 1 + 1 + 1) (by omega)]
    simp only [suite, decide_eq_true_eq]
    exact Follows.ite (fun _ => ⟨rfl, by omega, rfl⟩) fun _ => Follows.early

theorem cipher_follows (hp : p ≤ ie.length) :
    Follows (With ie) (Cursor.cipher wpa1 ie ie.length p) (cipher wpa1 (ie.drop p)) := by
  refine (suite_follows hp).bindWith fun kind p hp => ?_
  refine Follows.ite (fun _ => ⟨rfl, hp, rfl⟩) fun _ => ?_
  exact Follows.ite (fun _ => ⟨rfl, hp, rfl⟩) fun _ => Follows.early

theorem one_follows (hp : p ≤ ie.length) : Follows (At ie) (Cursor.one ie ie.length p) (one (ie.drop p)) := by
  refine (word_follows hp).bindWith fun n p hp => ?_
  exact Follows.ite (fun _ => ⟨hp, rfl⟩) fun _ => Follows.early

theorem drop_eq_nil (hp : p ≤ ie.length) : ie.drop p = [] ↔ p = ie.length := by
  rw [List.drop_eq_nil_iff]
  omega

theorem endOfElement_follows (hp : p ≤ ie.length) :
    Follows Eq (Cursor.endOfElement wpa1 ie ie.length p) (endOfElement wpa1 (ie.drop p)) := by
  rw [Cursor.endOfElement, endOfElement]
  by_cases hend : p = ie.length
  · rw [if_neg (by omega), if_neg (not_not.2 hend), if_pos ((drop_eq_nil hp).2 hend)]
    exact rfl
  rw [if_pos (by omega), if_neg (fun h => hend ((drop_eq_nil hp).1 h))]
  refine (word_follows hp).bindWith fun caps p hp => Follows.ite (fun _ => Follows.early) fun _ => ?_
  by_cases hend : p = ie.length
  · rw [if_neg (by omega), if_neg (not_not.2 hend), if_pos ((drop_eq_nil hp).2 hend)]
    exact rfl
  rw [if_pos (by omega), if_neg (fun h => hend ((drop_eq_nil hp).1 h))]
  refine Follows.ite (fun _ => Follows.early) fun _ => ?_
  refine (word_follows hp).bindWith fun n p hp => ?_
  dsimp only
  by_cases hn : n = 0
  · by_cases hend : p = ie.length
    · rw [if_neg (not_not.2 hn), if_neg (not_not.2 hend), if_pos ⟨hn, (drop_eq_nil hp).2 hend⟩]
      exact rfl
    · rw [if_neg (not_not.2 hn), if_pos hend, if_neg fun h => hend ((drop_eq_nil hp).1 h.2)]
      exact Follows.early
  · rw [if_pos hn, if_neg fun h => hn h.1]
    exact Follows.early

theorem suites_follows (hp : p ≤ ie.length) :
    Follows Eq (Cursor.suites wpa1 ie ie.length p) (suites wpa1 (ie.drop p)) := by
  refine (one_follows hp).bindAt fun p hp => (cipher_follows hp).bindWith fun group p hp => ?_
  refine (one_follows hp).bindAt fun p hp => (cipher_follows hp).bindWith fun pairwise p hp => ?_
  refine (one_follows hp).bindAt fun p hp => (suite_follows hp).bindWith fun akm p hp => ?_
  refine Follows.ite (fun _ => Follows.early) fun _ => ?_
  exact (endOfElement_follows hp).bind fun _ _ _ => rfl

theorem header_cases (hempty : ie ≠ []) :
    (Cursor.header wpa1 ie ie.length = early () ∧ personalIE ie wpa1 = none) ∨
      ∃ p ≤ ie.length, Cursor.header wpa1 ie ie.length = pure p ∧
        personalIE ie wpa1 = suites wpa1 (ie.drop p) := by
  rw [Cursor.header, personalIE, if_neg hempty]
  by_cases hsize : ie.length < 20 ∨ 257 < ie.length
  · exact Or.inl ⟨if_pos hsize, if_pos (hsize.imp_right Or.inl)⟩
  have hlong : 20 ≤ ie.length := by omega
  rw [if_neg hsize, byteAt_eq (by omega), pure_bind, byteAt_eq (by omega), byteAt_eq (by omega),
    byteAt_eq (by omega), byteAt_eq (by omega), byteAt_eq (by omega)]
  simp only [pure_bind]
  by_cases hconsistent : (ie.getD 1 0).toNat + 2 ≠ ie.length
  · exact Or.inl ⟨if_pos hconsistent, if_pos (Or.inr (Or.inr hconsistent))⟩
  have hgood : ¬ (ie.length < 20 ∨ 257 < ie.length ∨ (ie.getD 1 0).toNat + 2 ≠ ie.length) := by omega
  rw [if_neg hconsistent, if_neg hgood]
  cases wpa1 with
  | false =>
      rw [if_neg Bool.false_ne_true, if_neg Bool.false_ne_true]
      by_cases htag : ie.getD 0 0 ≠ 48
      · exact Or.inl ⟨if_pos htag, if_pos htag⟩
      · exact Or.inr ⟨2, by omega, if_neg htag, if_neg htag⟩
  | true =>
      rw [if_pos rfl, if_pos rfl]
      by_cases htag : ie.getD 0 0 ≠ 221 ∨ ie.length < 24
      · exact Or.inl ⟨if_pos htag, if_pos (htag.imp_right Or.inl)⟩
      rw [if_neg htag]
      rw [not_or] at htag
      by_cases h2 : ie.getD 2 0 ≠ 0
      · exact Or.inl ⟨if_pos h2, if_pos (by simp only [h2, true_or, or_true, ne_eq, not_false_eq_true])⟩
      by_cases h3 : ie.getD 3 0 ≠ 0x50
      · exact Or.inl ⟨by rw [if_neg h2, if_pos h3],
          if_pos (by simp only [h3, true_or, or_true, ne_eq, not_false_eq_true])⟩
      by_cases h4 : ie.getD 4 0 ≠ 0xf2
      · exact Or.inl ⟨by rw [if_neg h2, if_neg h3, if_pos h4],
          if_pos (by simp only [h4, true_or, or_true, ne_eq, not_false_eq_true])⟩
      by_cases h5 : ie.getD 5 0 ≠ 1
      · exact Or.inl ⟨by rw [if_neg h2, if_neg h3, if_neg h4, if_pos h5],
          if_pos (by simp only [h5, or_true, ne_eq, not_false_eq_true])⟩
      refine Or.inr ⟨6, by omega, by rw [if_neg h2, if_neg h3, if_neg h4, if_neg h5], if_neg ?_⟩
      simp only [htag.1, htag.2, h2, h3, h4, h5, or_self, not_false_eq_true]

/-- The code reads inside the element only, and says what the function over lists says. -/
theorem personalIE_eq (ie : List UInt8) (wpa1 : Bool) :
    Cursor.personalIE (some ie) ie.length wpa1 =
      .ok (match personalIE ie wpa1 with
        | some ciphers => (true, ciphers)
        | none => (false, {})) := by
  by_cases hempty : ie = []
  · subst hempty
    cases wpa1
    · rfl
    · rfl
  rw [Cursor.personalIE, if_neg (fun h => hempty (List.length_eq_zero_iff.1 h))]
  rcases @header_cases wpa1 _ hempty with ⟨hcode, hnone⟩ | ⟨p, hp, hcode, hsome⟩
  · simp only [hcode, hnone]
    rfl
  · simp only [hcode, hsome, pure_bind]
    have hfollows := @suites_follows wpa1 _ _ hp
    generalize Cursor.suites wpa1 ie ie.length p = m at hfollows ⊢
    generalize suites wpa1 (ie.drop p) = o at hfollows ⊢
    rcases m with (_ | _ | _) | parsed
    · cases o with
      | none => exact hfollows.elim
      | some ciphers => exact hfollows.elim
    · cases o with
      | none => exact hfollows.elim
      | some ciphers => exact hfollows.elim
    · cases o with
      | none => rfl
      | some ciphers => exact hfollows.elim
    · cases o with
      | none => exact hfollows.elim
      | some ciphers =>
          have heq : parsed = ciphers := hfollows
          rw [heq]
          rfl

/-! ## The grammar -/

/-- Two bytes as a word with these bits only. -/
def Within (allowed : UInt16) (low high : UInt8) : Prop :=
  (low.toUInt16 ||| (high.toUInt16 <<< 8)) &&& ~~~allowed = 0

instance (allowed : UInt16) (low high : UInt8) : Decidable (Within allowed low high) :=
  inferInstanceAs (Decidable (_ = _))

/-- What may follow the key management suite: nothing, capabilities of the allowed bits, and in the first of
the two protocols the number of key identifiers, which is 0. -/
inductive Tail : Bool → List UInt8 → Prop
  | nothing (wpa1 : Bool) : Tail wpa1 []
  | capabilities (wpa1 : Bool) (low high : UInt8) (h : Within (if wpa1 then 0 else 0x003c) low high) :
      Tail wpa1 [low, high]
  | identifiers (low high : UInt8) (h : Within 0x003c low high) : Tail false [low, high, 0, 0]

/-- The element with its ciphers; no bytes at all mean those the protocol began with. -/
inductive Grammar (wpa1 : Bool) : List UInt8 → PersonalCiphers → Prop
  | absent : Grammar wpa1 []
      (if wpa1 then { pairwise := .tkip, group := .tkip } else { pairwise := .ccmp, group := .ccmp })
  | present (ciphers : PersonalCiphers) {tail : List UInt8} (htail : Tail wpa1 tail) :
      Grammar wpa1 (element wpa1 ciphers tail) ciphers

theorem Tail.length_le {tail : List UInt8} (h : Tail wpa1 tail) :
    tail.length ≤ if wpa1 then 2 else 4 := by
  cases h with
  | nothing => exact Nat.zero_le _
  | capabilities =>
      rw [List.length_cons, List.length_singleton]
      split
      · exact le_rfl
      · exact Nat.le_add_right 2 2
  | identifiers => exact le_rfl

theorem endOfElement_cons (wpa1 : Bool) (low high : UInt8) (tail : List UInt8) :
    endOfElement wpa1 (low :: high :: tail) =
      if ¬ Within (if wpa1 then 0 else 0x003c) low high then none
      else if tail = [] then some ()
      else if wpa1 then none
      else (word tail).bind fun x => if x.1 = 0 ∧ x.2 = [] then some () else none :=
  if_neg (List.cons_ne_nil _ _)

theorem Tail.end {tail : List UInt8} (h : Tail wpa1 tail) : endOfElement wpa1 tail = some () := by
  cases h with
  | nothing => rfl
  | capabilities _ low high h => rw [endOfElement_cons, if_neg (not_not.2 h), if_pos rfl]
  | identifiers low high h =>
      have hword : word [0, 0] = some (0, []) := rfl
      have hbits : Within (if false = true then 0 else 0x003c) low high := h
      rw [endOfElement_cons, if_neg (not_not.2 hbits), if_neg (List.cons_ne_nil _ _),
        if_neg Bool.false_ne_true, hword, Option.bind_some, if_pos ⟨rfl, rfl⟩]

theorem tail_of_end {tail : List UInt8} (h : endOfElement wpa1 tail = some ()) : Tail wpa1 tail := by
  rcases tail with _ | ⟨low, _ | ⟨high, tail⟩⟩
  · exact Tail.nothing wpa1
  · cases h
  rw [endOfElement_cons] at h
  by_cases hbits : Within (if wpa1 then 0 else 0x003c) low high
  · rw [if_neg (not_not.2 hbits)] at h
    by_cases hempty : tail = []
    · subst hempty
      exact Tail.capabilities wpa1 low high hbits
    rw [if_neg hempty] at h
    cases wpa1 with
    | true => cases h
    | false =>
        rw [if_neg Bool.false_ne_true, Option.bind_eq_some_iff] at h
        rcases h with ⟨⟨n, rest⟩, hword, hzero⟩
        have hzero : n = 0 ∧ rest = [] := by
          by_contra hne
          rw [if_neg hne] at hzero
          cases hzero
        rcases word_sound hword with ⟨a, b, htail, hnat⟩
        have hnat : 0 = a.toNat + b.toNat * 256 := by rw [← hnat, hzero.1]; rfl
        have ha : a = 0 := UInt8.toNat_inj.1 (by show a.toNat = 0; omega)
        have hb : b = 0 := UInt8.toNat_inj.1 (by show b.toNat = 0; omega)
        rw [htail, ha, hb, hzero.2]
        exact Tail.identifiers low high hbits
  · rw [if_pos hbits] at h
    cases h

theorem suite_append (kind : UInt8) (rest : List UInt8) :
    suite wpa1 (vendor wpa1 ++ [kind] ++ rest) = some (kind, rest) := by
  cases wpa1
  · rfl
  · rfl

theorem cipher_append (c : Cipher) (rest : List UInt8) :
    cipher wpa1 (vendor wpa1 ++ [c.kind] ++ rest) = some (c, rest) := by
  rw [cipher, suite_append]
  cases c
  · rfl
  · rfl

theorem one_append (rest : List UInt8) : one ([1, 0] ++ rest) = some rest := rfl

theorem suites_append {tail : List UInt8} (h : Tail wpa1 tail) :
    suites wpa1 (elementSuites wpa1 ciphers ++ tail) = some ciphers := by
  have hsplit : elementSuites wpa1 ciphers ++ tail =
      [1, 0] ++ (vendor wpa1 ++ [ciphers.group.kind] ++ ([1, 0] ++ (vendor wpa1 ++ [ciphers.pairwise.kind] ++
        ([1, 0] ++ (vendor wpa1 ++ [2] ++ tail))))) := by
    simp only [elementSuites, List.append_assoc]
  simp only [hsplit, suites, one_append, cipher_append, suite_append, h.end, Option.bind_eq_bind,
    Option.bind_some]
  rfl

theorem length_elementSuites : (elementSuites wpa1 ciphers).length = 18 := by
  cases wpa1
  · rfl
  · rfl

/-- The length byte is the length of the body, which fits. -/
theorem element_size {tail : List UInt8} (h : (elementBody wpa1 ciphers tail).length ≤ 255) :
    ((element wpa1 ciphers tail).getD 1 0).toNat + 2 = (element wpa1 ciphers tail).length := by
  show (UInt8.ofNat _).toNat + 2 = (elementBody wpa1 ciphers tail).length + 1 + 1
  rw [UInt8.toNat_ofNat', Nat.mod_eq_of_lt (by omega)]

theorem personalIE_complete (h : Grammar wpa1 ie ciphers) : personalIE ie wpa1 = some ciphers := by
  cases h with
  | absent =>
      cases wpa1
      · rfl
      · rfl
  | present ciphers htail =>
      rename_i tail
      have hle := htail.length_le
      have hsuites := @suites_append _ ciphers _ htail
      have hsuitesLength := @length_elementSuites wpa1 ciphers
      have hbody : (elementBody wpa1 ciphers tail).length = (if wpa1 then 22 else 18) + tail.length := by
        rw [elementBody, List.length_append, List.length_append, hsuitesLength]
        cases wpa1
        · exact Nat.zero_add _
        · show 4 + (18 + tail.length) = 22 + tail.length
          omega
      have hlength : (element wpa1 ciphers tail).length = (elementBody wpa1 ciphers tail).length + 2 := rfl
      have hempty : element wpa1 ciphers tail ≠ [] := List.cons_ne_nil _ _
      have hbodyLe : (elementBody wpa1 ciphers tail).length ≤ 255 := by
        rw [hbody]
        cases wpa1
        · rw [if_neg Bool.false_ne_true] at hle ⊢
          omega
        · rw [if_pos rfl] at hle ⊢
          omega
      have hsize := element_size hbodyLe
      have hgood : ¬ ((element wpa1 ciphers tail).length < 20 ∨ 257 < (element wpa1 ciphers tail).length ∨
          ((element wpa1 ciphers tail).getD 1 0).toNat + 2 ≠ (element wpa1 ciphers tail).length) := by
        have hlow : 18 ≤ (elementBody wpa1 ciphers tail).length := by
          rw [hbody]
          cases wpa1
          · exact Nat.le_add_right 18 _
          · exact Nat.le_add_right_of_le (by decide)
        omega
      rw [personalIE, if_neg hempty, if_neg hgood]
      cases wpa1 with
      | false =>
          rw [if_neg Bool.false_ne_true]
          exact hsuites
      | true =>
          have hheader : ¬ ((element true ciphers tail).getD 0 0 ≠ 221 ∨ (element true ciphers tail).length < 24 ∨
              (element true ciphers tail).getD 2 0 ≠ 0 ∨ (element true ciphers tail).getD 3 0 ≠ 0x50 ∨
              (element true ciphers tail).getD 4 0 ≠ 0xf2 ∨ (element true ciphers tail).getD 5 0 ≠ 1) := by
            rw [if_pos rfl] at hbody
            have hlong : ¬ (element true ciphers tail).length < 24 := by omega
            simp only [hlong, false_or]
            simp [element, elementBody, vendor]
          rw [if_pos rfl, if_neg hheader]
          exact hsuites

theorem personalIE_iff : personalIE ie wpa1 = some ciphers ↔ Grammar wpa1 ie ciphers := by
  refine ⟨fun h => ?_, personalIE_complete⟩
  by_cases hempty : ie = []
  · subst hempty
    cases wpa1
    · cases h
      exact Grammar.absent
    · cases h
      exact Grammar.absent
  · rcases personalIE_element h hempty with ⟨tail, hie, hend⟩
    rw [hie]
    exact Grammar.present ciphers (tail_of_end hend)

/-- `personalIE` never reads outside the string, accepts exactly the grammar with the ciphers it encodes, and
otherwise leaves the default.  Without a buffer only the empty string is accepted. -/
theorem personalIE_grammar (ie : List UInt8) (wpa1 : Bool) :
    (∃ accepted out, Cursor.personalIE (some ie) ie.length wpa1 = .ok (accepted, out) ∧
      (accepted = true ↔ ∃ ciphers, Grammar wpa1 ie ciphers) ∧
      (∀ ciphers, Grammar wpa1 ie ciphers → out = ciphers) ∧ (accepted = false → out = {})) ∧
    ∀ length, ∃ out, Cursor.personalIE none length wpa1 = .ok (decide (length = 0), out) ∧
      (length = 0 → Grammar wpa1 [] out) := by
  refine ⟨?_, fun length => ?_⟩
  · rw [personalIE_eq]
    rcases haccept : personalIE ie wpa1 with _ | ciphers
    · refine ⟨false, {}, rfl, ⟨nofun, fun h => ?_⟩, fun ciphers h => ?_, fun _ => rfl⟩
      · rcases h with ⟨ciphers, h⟩
        rw [personalIE_iff.2 h] at haccept
        cases haccept
      · rw [personalIE_iff.2 h] at haccept
        cases haccept
    · refine ⟨true, ciphers, rfl, ⟨fun _ => ⟨ciphers, personalIE_iff.1 haccept⟩, fun _ => rfl⟩, ?_, nofun⟩
      intro ciphers' h
      rw [personalIE_iff.2 h] at haccept
      exact (Option.some.inj haccept).symm
  · by_cases hzero : length = 0
    · refine ⟨Cursor.unset wpa1, by rw [Cursor.personalIE, if_pos hzero, decide_eq_true hzero]; rfl, fun _ => ?_⟩
      cases wpa1
      · exact Grammar.absent
      · exact Grammar.absent
    · exact ⟨{}, by rw [Cursor.personalIE, if_neg hzero, decide_eq_false hzero]; rfl, fun h => absurd h hzero⟩

/-- An element of WPA2 with capabilities. -/
def mixedElement : List UInt8 :=
  [48, 20, 1, 0, 0, 0x0f, 0xac, 2, 1, 0, 0, 0x0f, 0xac, 4, 1, 0, 0, 0x0f, 0xac, 2, 0x0c, 0]

/-- It has different ciphers for the group and for the station. -/
theorem personalIE_grammar_mixed :
    Cursor.personalIE (some mixedElement) mixedElement.length false =
        .ok (true, { pairwise := .ccmp, group := .tkip }) ∧
      Grammar false mixedElement { pairwise := .ccmp, group := .tkip } := by
  have hcode : (Cursor.personalIE (some mixedElement) mixedElement.length false).toOption =
      some (true, { pairwise := .ccmp, group := .tkip }) := by
    decide +kernel
  rcases (personalIE_grammar mixedElement false).1 with ⟨accepted, out, hrun, haccepted, hciphers, -⟩
  rw [hrun] at hcode ⊢
  rcases Prod.mk.inj (Option.some.inj hcode) with ⟨rfl, rfl⟩
  rcases haccepted.1 rfl with ⟨ciphers, hgrammar⟩
  refine ⟨rfl, ?_⟩
  rw [hciphers ciphers hgrammar]
  exact hgrammar

end Selection
end Rtl8852be
