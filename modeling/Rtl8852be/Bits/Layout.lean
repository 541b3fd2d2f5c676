import Rtl8852be.Bits.Field
import Rtl8852be.Bits.Word

/-!
# Layout — records of fields in words

A record of fields is written field by field, each with a read and a write of its word.  As long as no
two of them overlap the order does not matter: every field reads back what was written to it, and no
other bit changes.

* `get_putAll` — fields that do not overlap read back;
* `putAll_outside` — no other bit changes;
* `putAll_full` — fields of ones make up the union of their masks.
-/

namespace Rtl8852be
namespace Bits

/-! ## One field -/

variable {m n old v : UInt32}

theorem not_and_of_apart (h : m &&& n = 0) : ~~~m &&& n = n := by
  calc ~~~m &&& n
      = (m &&& n) ||| (~~~m &&& n) := by rw [h, UInt32.zero_or]
    _ = (m ||| ~~~m) &&& n := (or_and_distrib m (~~~m) n).symm
    _ = n := by rw [UInt32.or_not_self, UInt32.neg_one_and]

theorem complement_or (a b : UInt32) : ~~~(a ||| b) = ~~~a &&& ~~~b :=
  UInt32.toBitVec_inj.1 BitVec.not_or

theorem and_not_or_self (a b : UInt32) : (a &&& ~~~b) ||| b = a ||| b := by
  apply UInt32.toBitVec_inj.1
  apply BitVec.eq_of_getLsbD_eq
  intro i _
  simp only [UInt32.toBitVec_or, UInt32.toBitVec_and, UInt32.toBitVec_not, BitVec.getLsbD_or,
    BitVec.getLsbD_and, BitVec.getLsbD_not]
  cases b.toBitVec.getLsbD i <;> simp_all

theorem replaceBits_and_self (old v m : UInt32) : replaceBits old v m &&& m = fieldPrep m v := by
  have hprep : fieldPrep m v &&& m = fieldPrep m v := by
    rw [fieldPrep, UInt32.and_assoc, UInt32.and_self]
  rw [replaceBits, or_and_distrib, UInt32.and_assoc, UInt32.not_and_self, UInt32.and_zero, hprep,
    UInt32.zero_or]

theorem replaceBits_and_apart (h : m &&& n = 0) : replaceBits old v m &&& n = old &&& n := by
  have hprep : fieldPrep m v &&& n = 0 := by
    rw [fieldPrep, UInt32.and_assoc, h, UInt32.and_zero]
  rw [replaceBits, or_and_distrib, UInt32.and_assoc, not_and_of_apart h, hprep, UInt32.or_zero]

/-- The mask is a run of `width` bits from bit `low` on. -/
abbrev Contiguous (m : UInt32) (low width : ℕ) : Prop :=
  shift m = UInt32.ofNat low ∧ m.toNat = (2 ^ width - 1) <<< low ∧ low + width ≤ 32 ∧ 0 < width

theorem fieldGet_fieldPrep {low width : ℕ} (hm : Contiguous m low width) (hv : v.toNat < 2 ^ width) :
    fieldGet m (fieldPrep m v) = v := by
  rcases hm with ⟨hshift, hmask, hfits, hpos⟩
  have hlow : (UInt32.ofNat low).toNat = low := UInt32.toNat_ofNat_of_lt' (by
    have hsize : UInt32.size = 4294967296 := rfl
    omega)
  have hbound : v.toNat * 2 ^ low < 2 ^ 32 := by
    calc v.toNat * 2 ^ low
        < 2 ^ width * 2 ^ low := Nat.mul_lt_mul_of_pos_right hv (Nat.two_pow_pos low)
      _ = 2 ^ (low + width) := by rw [← Nat.pow_add, Nat.add_comm]
      _ ≤ 2 ^ 32 := Nat.pow_le_pow_right (by decide) hfits
  have hprep : (fieldPrep m v &&& m).toNat = v.toNat <<< low := by
    rw [fieldPrep, UInt32.and_assoc, UInt32.and_self, hshift, UInt32.toNat_and,
      toNat_shift (by rw [hlow]; omega) (by rw [hlow]; exact hbound), hlow, hmask, and_field,
      Nat.shiftLeft_eq v.toNat, Nat.mul_div_cancel _ (Nat.two_pow_pos low), Nat.mod_eq_of_lt hv,
      Nat.shiftLeft_eq]
  apply UInt32.toNat_inj.1
  rw [fieldGet, hshift, toNat_shiftRight (by rw [hlow]; omega), hlow, hprep, Nat.shiftLeft_eq,
    Nat.mul_div_cancel _ (Nat.two_pow_pos low)]

theorem Contiguous.testBit {low width : ℕ} (hm : Contiguous m low width) (i : ℕ) :
    m.toNat.testBit i = (decide (low ≤ i) && decide (i < low + width)) := by
  rw [hm.2.1, Nat.testBit_shiftLeft, Nat.testBit_two_pow_sub_one]
  by_cases hi : low ≤ i
  · have hiff : i - low < width ↔ i < low + width := by omega
    simp [hi, hiff]
  · simp [hi]

theorem Contiguous.toNat_shift {low width : ℕ} (hm : Contiguous m low width) :
    (shift m).toNat = low := by
  have hsize : UInt32.size = 4294967296 := rfl
  have hfits := hm.2.2.1
  rw [hm.1]
  exact UInt32.toNat_ofNat_of_lt' (by omega)

theorem toNat_fieldGet {low width : ℕ} (hm : Contiguous m low width) (w : UInt32) :
    (fieldGet m w).toNat = w.toNat / 2 ^ low % 2 ^ width := by
  have hlow : (shift m).toNat < 32 := by
    rw [hm.toNat_shift]
    have hfits := hm.2.2
    omega
  rw [fieldGet, toNat_shiftRight hlow, hm.toNat_shift, UInt32.toNat_and, hm.2.1, and_field,
    Nat.shiftLeft_eq, Nat.mul_div_cancel _ (Nat.two_pow_pos low)]

/-- The bits of a word after a field of it has been replaced. -/
theorem testBit_replaceBits {low width : ℕ} (hm : Contiguous m low width) {i : ℕ} (hi : i < 32) :
    (replaceBits old v m).toNat.testBit i =
      if low ≤ i ∧ i < low + width then v.toNat.testBit (i - low) else old.toNat.testBit i := by
  have hnot : (~~~m).toNat.testBit i = !m.toNat.testBit i := by
    have hcomplement : (~~~m).toNat = 2 ^ 32 - (m.toNat + 1) := by
      rw [UInt32.toNat_not]
      have hsize : UInt32.size = 2 ^ 32 := rfl
      omega
    rw [hcomplement, Nat.testBit_two_pow_sub_succ m.toNat_lt, decide_eq_true hi, Bool.true_and]
  have hlow : low < 32 := by
    have hfits := hm.2.2
    omega
  have hshift : (v <<< shift m).toNat.testBit i = (decide (low ≤ i) && v.toNat.testBit (i - low)) := by
    rw [UInt32.toNat_shiftLeft, hm.toNat_shift, Nat.mod_eq_of_lt hlow, Nat.testBit_mod_two_pow,
      decide_eq_true hi, Bool.true_and, Nat.testBit_shiftLeft]
  rw [replaceBits, fieldPrep, UInt32.toNat_or, UInt32.toNat_and, UInt32.toNat_and, Nat.testBit_or,
    Nat.testBit_and, Nat.testBit_and, hnot, hshift, hm.testBit]
  by_cases hleft : low ≤ i <;> by_cases hright : i < low + width <;> simp [hleft, hright]

/-! ## Records of fields -/

/-- A value for a field of a word. -/
structure Entry where
  word : ℕ
  mask : UInt32
  value : UInt32

def Entry.put (e : Entry) (ws : ℕ → UInt32) : ℕ → UInt32 :=
  Function.update ws e.word (replaceBits (ws e.word) e.value e.mask)

def putAll (es : List Entry) (ws : ℕ → UInt32) : ℕ → UInt32 := es.foldl (fun ws e => e.put ws) ws

def Apart (a b : ℕ × UInt32) : Prop := a.1 = b.1 → a.2 &&& b.2 = 0

instance (a b : ℕ × UInt32) : Decidable (Apart a b) := inferInstanceAs (Decidable (_ → _))

def places (es : List Entry) : List (ℕ × UInt32) := es.map fun e => (e.word, e.mask)

def union (ps : List (ℕ × UInt32)) (i : ℕ) : UInt32 :=
  ps.foldr (fun p bits => if p.1 = i then p.2 ||| bits else bits) 0

variable {ws : ℕ → UInt32} {es : List Entry} {e : Entry} {i : ℕ}

theorem put_outside (h : e.word = i → e.mask &&& n = 0) : e.put ws i &&& n = ws i &&& n := by
  unfold Entry.put
  by_cases hi : e.word = i
  · subst hi
    rw [Function.update_self]
    exact replaceBits_and_apart (h rfl)
  · rw [Function.update_of_ne fun heq => hi heq.symm]

theorem putAll_outside (h : ∀ e ∈ es, e.word = i → e.mask &&& n = 0) :
    putAll es ws i &&& n = ws i &&& n := by
  induction es generalizing ws with
  | nil => rfl
  | cons e es ih =>
      calc putAll (e :: es) ws i &&& n
          = putAll es (e.put ws) i &&& n := rfl
        _ = e.put ws i &&& n := ih fun e' he' => h e' (List.mem_cons_of_mem e he')
        _ = ws i &&& n := put_outside (h e List.mem_cons_self)

theorem putAll_and_mask (hapart : (places es).Pairwise Apart) (he : e ∈ es) :
    putAll es ws e.word &&& e.mask = fieldPrep e.mask e.value := by
  induction es generalizing ws with
  | nil => exact absurd he List.not_mem_nil
  | cons e' es ih =>
      rcases List.pairwise_cons.1 hapart with ⟨hfirst, hrest⟩
      rcases List.mem_cons.1 he with rfl | he
      · -- The fields after it leave it alone.
        have hlater : ∀ e' ∈ es, e'.word = e.word → e'.mask &&& e.mask = 0 := by
          intro e' he' hword
          rw [UInt32.and_comm]
          exact hfirst (e'.word, e'.mask) (List.mem_map.2 ⟨e', he', rfl⟩) hword.symm
        calc putAll (e :: es) ws e.word &&& e.mask
            = putAll es (e.put ws) e.word &&& e.mask := rfl
          _ = e.put ws e.word &&& e.mask := putAll_outside hlater
          _ = fieldPrep e.mask e.value := by
              rw [Entry.put, Function.update_self, replaceBits_and_self]
      · exact ih hrest he

theorem get_putAll (hapart : (places es).Pairwise Apart) (he : e ∈ es) {low width : ℕ}
    (hm : Contiguous e.mask low width) (hv : e.value.toNat < 2 ^ width) :
    fieldGet e.mask (putAll es ws e.word) = e.value := by
  have hprep : fieldPrep e.mask e.value &&& e.mask = fieldPrep e.mask e.value := by
    rw [fieldPrep, UInt32.and_assoc, UInt32.and_self]
  have hread := fieldGet_fieldPrep hm hv
  unfold fieldGet at hread ⊢
  rw [putAll_and_mask hapart he]
  rwa [hprep] at hread

/-! ## Unions -/

theorem union_cons_self (p : ℕ × UInt32) (ps : List (ℕ × UInt32)) :
    union (p :: ps) p.1 = p.2 ||| union ps p.1 := by
  simp [union]

theorem union_cons_ne {p : ℕ × UInt32} (h : p.1 ≠ i) (ps : List (ℕ × UInt32)) :
    union (p :: ps) i = union ps i := by
  simp [union, h]

/-- What is outside of the union is outside of every field. -/
theorem and_not_union {p : ℕ × UInt32} {ps : List (ℕ × UInt32)} (hp : p ∈ ps) :
    p.2 &&& ~~~(union ps p.1) = 0 := by
  induction ps with
  | nil => exact absurd hp List.not_mem_nil
  | cons p' ps ih =>
      rcases List.mem_cons.1 hp with rfl | hp
      · rw [union_cons_self, complement_or, ← UInt32.and_assoc, UInt32.and_not_self, UInt32.zero_and]
      · by_cases hword : p'.1 = p.1
        · rw [← hword, union_cons_self, complement_or, UInt32.and_comm (~~~p'.2), ← UInt32.and_assoc,
            hword, ih hp, UInt32.zero_and]
        · rw [union_cons_ne hword, ih hp]

/-- A record that starts out empty has no bits outside its fields. -/
theorem putAll_empty (es : List Entry) (i : ℕ) :
    putAll es (fun _ => 0) i &&& ~~~(union (places es) i) = 0 := by
  rw [putAll_outside, UInt32.zero_and]
  intro e he hword
  subst hword
  have hplace : (e.word, e.mask) ∈ places es := List.mem_map.2 ⟨e, he, rfl⟩
  exact and_not_union hplace

/-- Fields of ones add up to the union of their places. -/
theorem putAll_full (h : ∀ e ∈ es, e.word = i → fieldPrep e.mask e.value = e.mask) :
    putAll es ws i = ws i ||| union (places es) i := by
  induction es generalizing ws with
  | nil => exact UInt32.or_zero.symm
  | cons e es ih =>
      have hrest : putAll es (e.put ws) i = e.put ws i ||| union (places es) i :=
        ih fun e' he' => h e' (List.mem_cons_of_mem e he')
      have hstart : putAll (e :: es) ws i = putAll es (e.put ws) i := rfl
      rw [hstart, hrest]
      show _ = ws i ||| union ((e.word, e.mask) :: places es) i
      by_cases hword : e.word = i
      · subst hword
        have hunion := union_cons_self (e.word, e.mask) (places es)
        rw [hunion, Entry.put, Function.update_self, replaceBits, h e List.mem_cons_self rfl,
          and_not_or_self, UInt32.or_assoc]
      · have hne : (e.word, e.mask).1 ≠ i := hword
        rw [union_cons_ne hne, Entry.put, Function.update_of_ne fun heq => hword heq.symm]

end Bits
end Rtl8852be
