import Mathlib.Data.Nat.Bitwise
import Rtl8852be.Bits.Stream
import Rtl8852be.Tables.StationTables

/-!
# PacketPadding — reading the PPE thresholds

The thresholds are a string of bits: three for the number of streams, four for the RU sizes, and then six
for each stream and each RU size that is present.

* `ppePair_eq` — the inner loop reads a piece of the string;
* `padLoop_pads`, `padLoop_reads` — the outer loop goes through the pieces of one stream;
* `packetPadding_reads_string` — `packetPadding` reads the string, and nothing behind it.
-/

namespace Rtl8852be
namespace Tables

open Bits

variable {he : HeCapabilities}

/-! ## The string -/

namespace HeCapabilities

def ppeBit (he : HeCapabilities) : ℕ → Bool := bitAt he.ppe

def HasThresholds (he : HeCapabilities) : Prop := he.phy 6 &&& 0x80 ≠ 0

/-- The number of streams that are described. -/
def streams (he : HeCapabilities) : ℕ := value he.ppeBit 0 3 + 1

def ruBit (he : HeCapabilities) (i : ℕ) : Bool := he.ppeBit (3 + i)

/-- How many of the RU sizes below this one are described. -/
def ruBelow (he : HeCapabilities) (i : ℕ) : ℕ := (List.range i).countP he.ruBit

def ruCount (he : HeCapabilities) : ℕ := he.ruBelow 4

def selected (he : HeCapabilities) : ℕ := min he.rxNss.toNat he.txNss.toNat - 1

/-- Where the thresholds of an RU size of the selected stream are. -/
def position (he : HeCapabilities) (i : ℕ) : ℕ := 7 + 6 * (he.selected * he.ruCount + he.ruBelow i)

/-- The padding of an RU size, read from the string. -/
def pad (he : HeCapabilities) (i : ℕ) : UInt8 :=
  let ppe16 := value he.ppeBit (he.position i) 3
  let ppe8 := value he.ppeBit (he.position i + 3) 3
  if he.ruBit i = false then 1
  else if ppe16 ≠ 7 ∧ ppe8 = 7 then 2
  else if ppe8 ≠ 7 then 1
  else 0

/-- The numbers of streams and the length make sense. -/
def InRange (he : HeCapabilities) : Prop :=
  1 ≤ he.rxNss.toNat ∧ he.rxNss.toNat ≤ 8 ∧ 1 ≤ he.txNss.toNat ∧ he.txNss.toNat ≤ 2 ∧ he.ppeLength ≤ 25

/-- The string describes the selected stream, and is there as a whole. -/
def Readable (he : HeCapabilities) : Prop :=
  0 < he.ruCount ∧ he.selected < he.streams ∧ 7 + 6 * (he.streams * he.ruCount) ≤ 8 * he.ppeLength

end HeCapabilities

/-! ## The loops -/

theorem ppePair_eq (ppe : ℕ → UInt8) (bit : ℕ) : ppePair ppe bit = value (bitAt ppe) bit 6 := by
  apply foldl_value
  intro j _
  exact shiftRight_and_one _ _

theorem padOf_value (b : ℕ → Bool) (position : ℕ) : padOf (value b position 6) =
    if value b position 3 ≠ 7 ∧ value b (position + 3) 3 = 7 then 2
    else if value b (position + 3) 3 ≠ 7 then 1 else 0 := by
  have hlow : value b position 6 &&& 7 = value b position 3 := by
    calc value b position 6 &&& 7
        = value b position 6 % 2 ^ 3 := Nat.and_two_pow_sub_one_eq_mod _ 3
      _ = value b position 3 := value_mod b position 3 3
  have hhigh : value b position 6 >>> 3 &&& 7 = value b (position + 3) 3 := by
    calc value b position 6 >>> 3 &&& 7
        = value b position 6 / 2 ^ 3 % 2 ^ 3 := by
          rw [Nat.shiftRight_eq_div_pow]
          exact Nat.and_two_pow_sub_one_eq_mod _ 3
      _ = value b (position + 3) 3 % 2 ^ 3 := by rw [value_div b position 3 3]
      _ = value b (position + 3) 3 := Nat.mod_eq_of_lt (value_lt _ _ _)
  simp only [padOf, hlow, hhigh]

variable {ppe : ℕ → UInt8} {bitmap : ℕ} {ru : ℕ → Bool}

theorem padLoop_unset {i : ℕ} (h : bitmap &&& 1 <<< i = 0) (is : List ℕ) (bit : ℕ) :
    padLoop ppe bitmap (i :: is) bit =
      (1 :: (padLoop ppe bitmap is bit).1, (padLoop ppe bitmap is bit).2) := by
  rw [padLoop, if_pos h]

theorem padLoop_set {i : ℕ} (h : ¬ bitmap &&& 1 <<< i = 0) (is : List ℕ) (bit : ℕ) :
    padLoop ppe bitmap (i :: is) bit =
      (padOf (ppePair ppe bit) :: (padLoop ppe bitmap is (bit + 6)).1,
        (List.range 6).map (fun j => (bit + j) / 8) ++ (padLoop ppe bitmap is (bit + 6)).2) := by
  rw [padLoop, if_neg h]

/-- The pads of `n` RU sizes from `a` on. -/
theorem padLoop_pads (n : ℕ) : ∀ a bit : ℕ, (∀ i < a + n, bitmap &&& 1 <<< i = 0 ↔ ru i = false) →
    (padLoop ppe bitmap (List.range' a n) bit).1 = (List.range' a n).map fun i =>
      if ru i = false then 1
      else padOf (value (bitAt ppe) (bit + 6 * (List.range' a (i - a)).countP ru) 6) := by
  induction n with
  | zero =>
      intro a bit _
      rfl
  | succ n ih =>
      intro a bit hru
      -- What is below a later size is below it among the later ones, and this one.
      have hbelow : ∀ i ∈ List.range' (a + 1) n, (List.range' a (i - a)).countP ru =
          (ru a).toNat + (List.range' (a + 1) (i - (a + 1))).countP ru := by
        intro i hi
        rw [List.mem_range'_1] at hi
        have hsucc : i - a = (i - (a + 1)) + 1 := by omega
        rw [hsucc, List.range'_succ, List.countP_cons]
        cases ru a with
        | false => simp
        | true => simp [Nat.add_comm]
      have hself : (List.range' a (a - a)).countP ru = 0 := by simp
      have hrest : ∀ i < a + 1 + n, bitmap &&& 1 <<< i = 0 ↔ ru i = false := by
        intro i hi
        exact hru i (by omega)
      rw [List.range'_succ, List.map_cons]
      cases hset : ru a with
      | false =>
          rw [padLoop_unset ((hru a (by omega)).2 hset), ih (a + 1) bit hrest, if_pos rfl]
          dsimp only
          congr 1
          apply List.map_congr_left
          intro i hi
          rw [hbelow i hi, hset]
          simp
      | true =>
          have hbit : ¬ bitmap &&& 1 <<< a = 0 := by
            rw [hru a (by omega), hset]
            exact nofun
          rw [padLoop_set hbit, ih (a + 1) (bit + 6) hrest, if_neg (fun h => Bool.noConfusion h), hself, ppePair_eq]
          dsimp only
          congr 1
          apply List.map_congr_left
          intro i hi
          rw [hbelow i hi, hset, Bool.toNat_true, Nat.mul_add, Nat.mul_one, Nat.add_assoc]

/-- The bits that the loop reads are the next six of every RU size that is described. -/
theorem padLoop_reads (is : List ℕ) : ∀ bit : ℕ, (∀ i ∈ is, bitmap &&& 1 <<< i = 0 ↔ ru i = false) →
    ∀ n ∈ (padLoop ppe bitmap is bit).2, ∃ position, n = position / 8 ∧
      position < bit + 6 * is.countP ru := by
  induction is with
  | nil =>
      intro bit _ n hn
      exact absurd hn List.not_mem_nil
  | cons a is ih =>
      intro bit hru n hn
      have hrest : ∀ i ∈ is, bitmap &&& 1 <<< i = 0 ↔ ru i = false := fun i hi =>
        hru i (List.mem_cons_of_mem a hi)
      rw [List.countP_cons]
      cases hset : ru a with
      | false =>
          rw [padLoop_unset ((hru a List.mem_cons_self).2 hset)] at hn
          rcases ih bit hrest n hn with ⟨position, heq, hlt⟩
          exact ⟨position, heq, by simpa using hlt⟩
      | true =>
          have hbit : ¬ bitmap &&& 1 <<< a = 0 := by
            rw [hru a List.mem_cons_self, hset]
            exact nofun
          rw [padLoop_set hbit] at hn
          rcases List.mem_append.1 hn with hn | hn
          · rcases List.mem_map.1 hn with ⟨j, hj, rfl⟩
            have hlow : j < 6 := List.mem_range.1 hj
            exact ⟨bit + j, rfl, by simp; omega⟩
          · rcases ih (bit + 6) hrest n hn with ⟨position, heq, hlt⟩
            exact ⟨position, heq, by simp; omega⟩

/-! ## The header of the string -/

theorem ppeBit_of_lt {n : ℕ} (hn : n < 8) : he.ppeBit n = (he.ppe 0).toNat.testBit n := by
  have hdiv : n / 8 = 0 := Nat.div_eq_of_lt hn
  have hmod : n % 8 = n := Nat.mod_eq_of_lt hn
  rw [HeCapabilities.ppeBit, bitAt, hdiv, hmod]

theorem streams_eq (he : HeCapabilities) : ((he.ppe 0).toNat &&& 7) + 1 = he.streams := by
  have hfirst : ∀ j < 3, he.ppeBit (0 + j) = (he.ppe 0).toNat.testBit (0 + j) := by
    intro j hj
    exact ppeBit_of_lt (by omega)
  rw [HeCapabilities.streams, value_congr hfirst, value_testBit]
  exact congrArg (· + 1) (Nat.and_two_pow_sub_one_eq_mod _ 3)

/-- The RU bitmap, as the code reads it. -/
def ruBitmap (he : HeCapabilities) : ℕ := ((he.ppe 0).toNat >>> 3) &&& 15

theorem testBit_ruBitmap {i : ℕ} (hi : i < 4) : (ruBitmap he).testBit i = he.ruBit i := by
  have hmask : Nat.testBit 15 i = true := by
    rw [show 15 = 2 ^ 4 - 1 from rfl, Nat.testBit_two_pow_sub_one]
    exact decide_eq_true hi
  rw [ruBitmap, Nat.testBit_and, Nat.testBit_shiftRight, hmask, Bool.and_true, HeCapabilities.ruBit,
    ppeBit_of_lt (by omega)]

theorem ruBitmap_iff {i : ℕ} (hi : i < 4) : ruBitmap he &&& 1 <<< i = 0 ↔ he.ruBit i = false := by
  rw [Nat.one_shiftLeft, Nat.and_two_pow, testBit_ruBitmap hi]
  cases he.ruBit i with
  | false => simp
  | true => simp

theorem count_eq (he : HeCapabilities) :
    (List.range 4).foldl (fun count i => count + ((ruBitmap he >>> i) &&& 1)) 0 = he.ruCount := by
  rw [foldl_count (p := he.ruBit), Nat.zero_add]
  · rfl
  · intro i hi
    rw [shiftRight_and_one, testBit_ruBitmap (List.mem_range.1 hi)]

theorem selected_eq (he : HeCapabilities) :
    (if he.rxNss < he.txNss then he.rxNss else he.txNss).toNat - 1 = he.selected := by
  unfold HeCapabilities.selected
  split
  · rename_i h
    rw [Nat.min_eq_left (UInt8.lt_iff_toNat_lt.1 h).le]
  · rename_i h
    rw [Nat.min_eq_right]
    exact Nat.le_of_not_lt fun hlt => h (UInt8.lt_iff_toNat_lt.2 hlt)

/-! ## `packetPadding` -/

theorem packetPadding_absent (h : he.present = false) : packetPadding he = ⟨true, noPads, []⟩ := by
  simp [packetPadding, h]

/-- The check of the numbers of streams and of the length. -/
theorem inRange_iff : he.InRange ↔
    ¬ (he.rxNss = 0 ∨ he.rxNss > 8 ∨ he.txNss = 0 ∨ he.txNss > 2 ∨ he.ppeLength > 25) := by
  have hzero : ∀ x : UInt8, x = 0 ↔ x.toNat = 0 := fun x => UInt8.toNat_inj.symm
  have hgreater : ∀ x y : UInt8, x > y ↔ y.toNat < x.toNat := fun x y => UInt8.lt_iff_toNat_lt
  have height : (8 : UInt8).toNat = 8 := rfl
  have htwo : (2 : UInt8).toNat = 2 := rfl
  rw [HeCapabilities.InRange, hzero, hzero, hgreater, hgreater, height, htwo]
  omega

theorem packetPadding_outOfRange (h : he.present = true) (hrange : ¬ he.InRange) :
    packetPadding he = ⟨false, noPads, []⟩ := by
  rw [inRange_iff, not_not] at hrange
  rw [packetPadding, if_neg (by simp [h]), if_pos hrange]

theorem packetPadding_plain (h : he.present = true) (hrange : he.InRange) (hplain : ¬ he.HasThresholds) :
    packetPadding he = ⟨true, List.replicate 4 ((he.phy 9 >>> 6) &&& 3), []⟩ := by
  rw [packetPadding, if_neg (by simp [h]), if_neg (inRange_iff.1 hrange), if_pos (not_not.1 hplain)]

theorem readable_iff : he.Readable ↔ ¬ (he.ruCount = 0 ∨ he.selected ≥ he.streams ∨
    he.ppeLength < (7 + he.streams * he.ruCount * 6 + 7) / 8) := by
  unfold HeCapabilities.Readable
  omega

theorem packetPadding_eq (h : he.present = true) (hrange : he.InRange) (hppe : he.HasThresholds)
    (hlength : he.ppeLength ≠ 0) :
    packetPadding he =
      if he.ruCount = 0 ∨ he.selected ≥ he.streams ∨
          he.ppeLength < (7 + he.streams * he.ruCount * 6 + 7) / 8 then
        ⟨false, noPads, [0]⟩
      else
        let (pads, reads) :=
          padLoop he.ppe (ruBitmap he) (List.range 4) (7 + he.selected * he.ruCount * 6)
        ⟨true, pads, 0 :: reads⟩ := by
  rw [packetPadding, if_neg (by simp [h]), if_neg (inRange_iff.1 hrange), if_neg hppe, if_neg hlength,
    ← streams_eq he, ← selected_eq he, ← count_eq he]
  rfl

theorem packetPadding_unreadable (h : he.present = true) (hrange : he.InRange) (hppe : he.HasThresholds)
    (hread : ¬ he.Readable) :
    (packetPadding he).ok = false ∧ ∀ n ∈ (packetPadding he).reads, n < he.ppeLength := by
  by_cases hlength : he.ppeLength = 0
  · have hresult : packetPadding he = ⟨false, noPads, []⟩ := by
      rw [packetPadding, if_neg (by simp [h]), if_neg (inRange_iff.1 hrange), if_neg hppe,
        if_pos hlength]
    rw [hresult]
    exact ⟨rfl, nofun⟩
  · rw [readable_iff, not_not] at hread
    rw [packetPadding_eq h hrange hppe hlength, if_pos hread]
    refine ⟨rfl, fun n hn => ?_⟩
    rw [List.mem_singleton.1 hn]
    exact Nat.pos_of_ne_zero hlength

theorem packetPadding_readable (h : he.present = true) (hrange : he.InRange) (hppe : he.HasThresholds)
    (hread : he.Readable) :
    (packetPadding he).ok = true ∧ (packetPadding he).pads = (List.range 4).map he.pad ∧
      ∀ n ∈ (packetPadding he).reads, n < he.ppeLength := by
  have hbits : ∀ i < 0 + 4, ruBitmap he &&& 1 <<< i = 0 ↔ he.ruBit i = false := by
    intro i hi
    exact ruBitmap_iff (by omega)
  have hlength : he.ppeLength ≠ 0 := by
    have hwhole := hread.2.2
    omega
  have hresult := packetPadding_eq h hrange hppe hlength
  rw [if_neg (readable_iff.1 hread)] at hresult
  rw [hresult]
  refine ⟨rfl, ?_, ?_⟩
  · have hpads := @padLoop_pads he.ppe _ _ 4 0 (7 + he.selected * he.ruCount * 6) hbits
    rw [← List.range_eq_range'] at hpads
    refine hpads.trans (List.map_congr_left fun i hi => ?_)
    have hposition : 7 + he.selected * he.ruCount * 6 + 6 * (List.range' 0 (i - 0)).countP he.ruBit =
        he.position i := by
      rw [Nat.sub_zero, ← List.range_eq_range', HeCapabilities.position, HeCapabilities.ruBelow]
      ring
    rw [hposition, padOf_value]
    rfl
  · intro n hn
    rcases List.mem_cons.1 hn with rfl | hn
    · exact Nat.pos_of_ne_zero hlength
    -- The pieces of the selected stream end before the string does.
    rcases padLoop_reads (List.range 4) _ (fun i hi => ruBitmap_iff (List.mem_range.1 hi)) n hn with
      ⟨position, rfl, hposition⟩
    have hcount : (List.range 4).countP he.ruBit = he.ruCount := rfl
    have hstream : (he.selected + 1) * he.ruCount ≤ he.streams * he.ruCount :=
      Nat.mul_le_mul_right _ hread.2.1
    have hwhole := hread.2.2
    rw [Nat.add_mul, Nat.one_mul] at hstream
    rw [hcount] at hposition
    omega

/-- What `packetPadding` reads from the capabilities, and when it refuses them. -/
theorem packetPadding_reads_string (he : HeCapabilities) :
    (∀ n ∈ (packetPadding he).reads, n < he.ppeLength) ∧
    ((packetPadding he).ok = true → he.present = true → he.HasThresholds →
      (packetPadding he).pads = (List.range 4).map he.pad) ∧
    ((packetPadding he).ok = false ↔
      he.present = true ∧ (¬ he.InRange ∨ (he.HasThresholds ∧ ¬ he.Readable))) := by
  cases hpresent : he.present with
  | false =>
      rw [packetPadding_absent hpresent]
      exact ⟨nofun, nofun, nofun, nofun⟩
  | true =>
      by_cases hrange : he.InRange
      · by_cases hppe : he.HasThresholds
        · by_cases hread : he.Readable
          · rcases packetPadding_readable hpresent hrange hppe hread with ⟨hok, hpads, hreads⟩
            rw [hok]
            refine ⟨hreads, fun _ _ _ => hpads, nofun, ?_⟩
            rintro ⟨-, hbad | hbad⟩
            · exact absurd hrange hbad
            · exact absurd hread hbad.2
          · rcases packetPadding_unreadable hpresent hrange hppe hread with ⟨hok, hreads⟩
            rw [hok]
            exact ⟨hreads, nofun, fun _ => ⟨rfl, Or.inr ⟨hppe, hread⟩⟩, fun _ => rfl⟩
        · rw [packetPadding_plain hpresent hrange hppe]
          refine ⟨nofun, fun _ _ hhas => absurd hhas hppe, nofun, ?_⟩
          rintro ⟨-, hbad | hbad⟩
          · exact absurd hrange hbad
          · exact absurd hbad.1 hppe
      · rw [packetPadding_outOfRange hpresent hrange]
        exact ⟨nofun, nofun, fun _ => ⟨rfl, Or.inl hrange⟩, fun _ => rfl⟩

/-- Two streams and two RU sizes; the second stream is used. -/
def twoStreams : HeCapabilities where
  present := true
  rxNss := 2
  txNss := 2
  phy := fun n => if n = 6 then 0x80 else 0
  ppe := fun n => [0x29, 0, 0xc0, 0x7f].getD n 0
  ppeLength := 4

/-- The thresholds of the second stream decide, and the RU sizes that are not described get 1. -/
theorem packetPadding_reads_string_twoStreams :
    (List.range 4).map twoStreams.pad = [2, 1, 0, 1] ∧ (packetPadding twoStreams).pads = [2, 1, 0, 1] ∧
      ∀ n ∈ (packetPadding twoStreams).reads, n < 4 := by
  have hpads : (List.range 4).map twoStreams.pad = [2, 1, 0, 1] := by decide
  have hok : (packetPadding twoStreams).ok = true := by decide
  have hthresholds : twoStreams.HasThresholds := by
    unfold HeCapabilities.HasThresholds
    decide
  rcases packetPadding_reads_string twoStreams with ⟨hreads, hread, -⟩
  exact ⟨hpads, (hread hok rfl hthresholds).trans hpads, hreads⟩

/-- Capabilities that are not there are not looked at: their numbers of streams do not matter. -/
theorem packetPadding_unchecked :
    ¬ ((packetPadding {}).ok = false ↔
      ¬ ({} : HeCapabilities).InRange ∨ ¬ ({} : HeCapabilities).Readable) := by
  intro h
  have hzero : ¬ ({} : HeCapabilities).InRange := fun hrange => absurd hrange.1 (by decide)
  exact absurd (h.2 (Or.inl hzero)) (by decide)

end Tables
end Rtl8852be
