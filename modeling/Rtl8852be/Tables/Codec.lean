import Rtl8852be.Bits.Layout
import Rtl8852be.Tables.StationTables

/-!
# Codec — what the payloads of the station tables say

A payload is written with setters that replace the bits of a field in a word, and with copies of bytes
that cross words.  Seen in words both are entries of a layout, and a payload is the list of its entries.

* `word_replace`, `word_update` — a setter and a copied byte, in words;
* `word_fillAddressCam`, `word_fillDefaultCmac`, `word_fillAssociationCmac` — the lists of the payloads;
* `station_payload_codec` — the fields read back, and nothing else is set.
-/

namespace Rtl8852be
namespace Tables

open Bits Network Station Wire

variable {p : Bits.Memory}

/-! ## Words and bytes -/

def byteMask : ℕ → UInt32
  | 0 => 0x000000ff
  | 1 => 0x0000ff00
  | 2 => 0x00ff0000
  | _ => 0xff000000

theorem contiguous_byteMask {j : ℕ} (hj : j < 4) : Contiguous (byteMask j) (8 * j) 8 := by
  interval_cases j <;> decide

variable {i : ℕ}

theorem testBit_byte (b : UInt8) (hi : 8 ≤ i) : b.toNat.testBit i = false := by
  apply Nat.testBit_lt_two_pow
  calc b.toNat
      < 2 ^ 8 := b.toNat_lt
    _ ≤ 2 ^ i := Nat.pow_le_pow_right (by decide) hi

theorem testBit_shifted (b : UInt8) {k : UInt32} (hk : k.toNat < 32) (hi : i < 32) :
    (b.toUInt32 <<< k).toNat.testBit i = (decide (k.toNat ≤ i) && b.toNat.testBit (i - k.toNat)) := by
  rw [UInt32.toNat_shiftLeft, Nat.mod_eq_of_lt hk, Nat.testBit_mod_two_pow, decide_eq_true hi,
    Bool.true_and, Nat.testBit_shiftLeft, UInt8.toNat_toUInt32]

theorem testBit_word (p : Bits.Memory) (i : ℕ) {n : ℕ} (hn : n < 32) :
    (word p i).toNat.testBit n = (p (4 * i + n / 8)).toNat.testBit (n % 8) := by
  have hbyte : ∀ j < 4, (p.load (4 * i) 4).getD j 0 = p (4 * i + j) := by
    intro j hj
    simp [Memory.load, List.getD_eq_getElem?_getD, hj]
  rw [word, little32, hbyte 0 (by decide), hbyte 1 (by decide), hbyte 2 (by decide),
    hbyte 3 (by decide), UInt32.toNat_or, UInt32.toNat_or, UInt32.toNat_or, Nat.testBit_or,
    Nat.testBit_or, Nat.testBit_or, testBit_shifted _ (by decide) hn, testBit_shifted _ (by decide) hn,
    testBit_shifted _ (by decide) hn, UInt8.toNat_toUInt32]
  have h8 : (8 : UInt32).toNat = 8 := rfl
  have h16 : (16 : UInt32).toNat = 16 := rfl
  have h24 : (24 : UInt32).toNat = 24 := rfl
  rw [h8, h16, h24]
  -- The byte that holds the bit; the bytes below it have ended, and those above it begin later.
  have hq : n / 8 < 4 := by omega
  have hsplit := Nat.div_add_mod n 8
  have hr : n % 8 < 8 := Nat.mod_lt n (by decide)
  generalize n / 8 = q at hq hsplit
  generalize n % 8 = r at hsplit hr
  subst hsplit
  interval_cases q
  · simp [show ¬ 8 ≤ r by omega, show ¬ 16 ≤ r by omega, show ¬ 24 ≤ r by omega]
  · simp [testBit_byte (p (4 * i)) (show 8 ≤ 8 + r by omega), show ¬ 16 ≤ 8 + r by omega,
      show ¬ 24 ≤ 8 + r by omega]
  · have h0 := testBit_byte (p (4 * i)) (show 8 ≤ 8 * 2 + r by omega)
    have h1 := testBit_byte (p (4 * i + 1)) (show 8 ≤ 8 * 2 + r - 8 by omega)
    have h2 : 8 * 2 + r - 16 = r := by omega
    simp [h0, h1, h2, show ¬ 24 ≤ 16 + r by omega]
  · have h0 := testBit_byte (p (4 * i)) (show 8 ≤ 8 * 3 + r by omega)
    have h1 := testBit_byte (p (4 * i + 1)) (show 8 ≤ 8 * 3 + r - 8 by omega)
    have h2 := testBit_byte (p (4 * i + 2)) (show 8 ≤ 8 * 3 + r - 16 by omega)
    have h3 : 8 * 3 + r - 24 = r := by omega
    simp [h0, h1, h2, h3]

theorem eq_of_testBit {a b : UInt32} (h : ∀ n < 32, a.toNat.testBit n = b.toNat.testBit n) : a = b := by
  apply UInt32.toNat_inj.1
  apply Nat.eq_of_testBit_eq
  intro n
  by_cases hn : n < 32
  · exact h n hn
  · have hhigh : ∀ w : UInt32, w.toNat.testBit n = false := by
      intro w
      apply Nat.testBit_lt_two_pow
      calc w.toNat
          < 2 ^ 32 := w.toNat_lt
        _ ≤ 2 ^ n := Nat.pow_le_pow_right (by decide) (Nat.le_of_not_lt hn)
    rw [hhigh, hhigh]

theorem word_replace (p : Bits.Memory) (i : ℕ) (v m : UInt32) :
    word (replace p i v m) = Entry.put ⟨i, m, v⟩ (word p) := by
  funext k
  unfold Entry.put
  by_cases hk : k = i
  · subst hk
    rw [Function.update_self]
    have hload := Memory.load_store_append p (4 * k) 0 (store32 (replaceBits (word p k) v m))
    rw [length_store32] at hload
    have hself : (replace p k v m).load (4 * k) 4 = store32 (replaceBits (word p k) v m) ++ [] := by
      rw [List.append_nil]
      exact hload
    show little32 ((replace p k v m).load (4 * k) 4) = _
    rw [hself, little32_store32]
  · rw [Function.update_of_ne hk]
    unfold word
    congr 1
    rw [Memory.load_eq_iff]
    intro j hj
    apply Memory.store_apply_of_not
    rw [length_store32]
    omega

theorem word_update (p : Bits.Memory) (a : ℕ) (b : UInt8) :
    word (Function.update p a b) = Entry.put ⟨a / 4, byteMask (a % 4), b.toUInt32⟩ (word p) := by
  have hm := contiguous_byteMask (Nat.mod_lt a (show 0 < 4 by decide))
  funext k
  apply eq_of_testBit
  intro n hn
  rw [testBit_word _ _ hn]
  unfold Entry.put
  by_cases hk : k = a / 4
  · subst hk
    rw [Function.update_self, testBit_replaceBits hm hn, UInt8.toNat_toUInt32, testBit_word _ _ hn]
    by_cases hbyte : n / 8 = a % 4
    · have haddr : 4 * (a / 4) + n / 8 = a := by omega
      have hbit : n - 8 * (a % 4) = n % 8 := by omega
      rw [haddr, Function.update_self, if_pos (by omega), hbit]
    · rw [Function.update_of_ne (by omega), if_neg (by omega)]
  · rw [Function.update_of_ne hk, testBit_word _ _ hn, Function.update_of_ne (by omega)]

theorem byte_eq (p : Bits.Memory) (i : ℕ) {j : ℕ} (hj : j < 4) :
    (p (4 * i + j)).toUInt32 = fieldGet (byteMask j) (word p i) := by
  apply eq_of_testBit
  intro n hn
  rw [UInt8.toNat_toUInt32, toNat_fieldGet (contiguous_byteMask hj), Nat.testBit_mod_two_pow,
    Nat.testBit_div_two_pow]
  by_cases hlow : n < 8
  · have hdiv : (n + 8 * j) / 8 = j := by omega
    have hmod : (n + 8 * j) % 8 = n := by omega
    rw [testBit_word p i (by omega), hdiv, hmod, decide_eq_true hlow, Bool.true_and]
  · rw [testBit_byte _ (by omega), decide_eq_false hlow, Bool.false_and]

/-! ## The address table -/

theorem word_addrField (p : Bits.Memory) (i : ℕ) (m v : UInt32) :
    word (addrField i m p v) = Entry.put ⟨i, m, v⟩ (word p) :=
  word_replace p i v m

/-- What `addressCam` writes, in its order. -/
def camEntries (c : Cam) : List Entry :=
  [⟨1, 0x000000ff, c.addressIndex.toUInt32⟩, ⟨1, 0x0000ff00, 0⟩, ⟨1, 0x00ff0000, 0x40⟩,
    ⟨2, 0x00000001, c.valid.toUInt32⟩, ⟨2, 0x00000006, if c.connected then 2 else 0⟩,
    ⟨2, 0x00000018, c.beaconHit.toUInt32⟩, ⟨2, 0x00000060, c.hitRule.toUInt32⟩, ⟨2, 0x00000080, 0⟩,
    ⟨2, 0x00003f00, c.addressMask.toUInt32⟩, ⟨2, 0x0000c000, c.maskSelect.toUInt32⟩,
    ⟨2, 0x00ff0000,
      (addressHash c.local_ (if c.maskSelect = 1 then firstMasked c.addressMask else 0)).toUInt32⟩,
    ⟨2, 0xff000000,
      (addressHash c.bssid (if c.maskSelect = 2 then firstMasked c.addressMask else 0)).toUInt32⟩,
    ⟨3, 0x0000003f, c.bssidIndex.toUInt32⟩,
    ⟨4, 0x000000ff, (c.local_.bytes 0).toUInt32⟩, ⟨5, 0x00ff0000, (c.bssid.bytes 0).toUInt32⟩,
    ⟨4, 0x0000ff00, (c.local_.bytes 1).toUInt32⟩, ⟨5, 0xff000000, (c.bssid.bytes 1).toUInt32⟩,
    ⟨4, 0x00ff0000, (c.local_.bytes 2).toUInt32⟩, ⟨6, 0x000000ff, (c.bssid.bytes 2).toUInt32⟩,
    ⟨4, 0xff000000, (c.local_.bytes 3).toUInt32⟩, ⟨6, 0x0000ff00, (c.bssid.bytes 3).toUInt32⟩,
    ⟨5, 0x000000ff, (c.local_.bytes 4).toUInt32⟩, ⟨6, 0x00ff0000, (c.bssid.bytes 4).toUInt32⟩,
    ⟨5, 0x0000ff00, (c.local_.bytes 5).toUInt32⟩, ⟨6, 0xff000000, (c.bssid.bytes 5).toUInt32⟩,
    ⟨8, 0x00000700, c.port.toUInt32⟩, ⟨8, 0x00003800, c.port.toUInt32⟩,
    ⟨8, 0x00004000, c.trigger.toUInt32⟩, ⟨8, 0x00008000, c.lsigTxop.toUInt32⟩,
    ⟨8, 0x07000000, c.target.toUInt32⟩, ⟨8, 0x38000000, c.frameTarget.toUInt32⟩,
    ⟨8, 0x000000ff, c.macid.toUInt32⟩, ⟨9, 0x00000fff, if c.connected then c.aid.toUInt32 else 0⟩,
    ⟨9, 0x00030000, 2⟩, ⟨12, 0x000000ff, c.bssidIndex.toUInt32⟩, ⟨12, 0x0000ff00, 0⟩,
    ⟨12, 0x00ff0000, 0x8⟩, ⟨13, 0x00000001, c.valid.toUInt32⟩,
    ⟨13, 0x000000fc, if c.nontransmitted then 0x1f else 0x3f⟩, ⟨13, 0x00000002, 0⟩,
    ⟨13, 0x00003f00, c.bssColor.toUInt32⟩,
    ⟨13, 0x00ff0000, (c.bssid.bytes 0).toUInt32⟩, ⟨13, 0xff000000, (c.bssid.bytes 1).toUInt32⟩,
    ⟨14, 0x000000ff, (c.bssid.bytes 2).toUInt32⟩, ⟨14, 0x0000ff00, (c.bssid.bytes 3).toUInt32⟩,
    ⟨14, 0x00ff0000, (c.bssid.bytes 4).toUInt32⟩, ⟨14, 0xff000000, (c.bssid.bytes 5).toUInt32⟩]

/-- The fields of an address table that are set: those of the setters, and the bytes of the addresses. -/
def camPlaces : List (ℕ × UInt32) := places (camEntries {})

theorem word_copyAddresses (c : Cam) (p : Bits.Memory) :
    word (copyAddresses c p) = putAll (((camEntries c).drop 13).take 12) (word p) := by
  have hrange : List.finRange 6 = [0, 1, 2, 3, 4, 5] := by decide
  unfold copyAddresses
  rw [hrange]
  simp only [List.foldl_cons, List.foldl_nil, word_update]
  rfl

theorem word_copyBssid (c : Cam) (p : Bits.Memory) :
    word (copyBssid c p) = putAll ((camEntries c).drop 41) (word p) := by
  have hrange : List.finRange 6 = [0, 1, 2, 3, 4, 5] := by decide
  unfold copyBssid
  rw [hrange]
  simp only [List.foldl_cons, List.foldl_nil, word_update]
  rfl

theorem word_fillAddressCam (c : Cam) (p : Bits.Memory) :
    word (fillAddressCam c p) = putAll (camEntries c) (word p) := by
  simp only [fillAddressCam, word_copyBssid, word_copyAddresses, fwcmdSetAddrIdx, fwcmdSetAddrOffset,
    fwcmdSetAddrLen, fwcmdSetAddrValid, fwcmdSetAddrNetType, fwcmdSetAddrBcnHitCond,
    fwcmdSetAddrHitRule, fwcmdSetAddrBbSel, fwcmdSetAddrAddrMask, fwcmdSetAddrMaskSel,
    fwcmdSetAddrSmaHash, fwcmdSetAddrTmaHash, fwcmdSetAddrBssidCamIdx, fwcmdSetAddrMacid,
    fwcmdSetAddrPortInt, fwcmdSetAddrTsfSync, fwcmdSetAddrTfTrs, fwcmdSetAddrLsigTxop,
    fwcmdSetAddrTgtInd, fwcmdSetAddrFrmTgtInd, fwcmdSetAddrAid12, fwcmdSetAddrSecEntMode,
    fwcmdSetAddrBssidIdx, fwcmdSetAddrBssidOffset, fwcmdSetAddrBssidLen, fwcmdSetAddrBssidValid,
    fwcmdSetAddrBssidMask, fwcmdSetAddrBssidBbSel, fwcmdSetAddrBssidBssColor, word_addrField]
  rfl

theorem apart_camPlaces : camPlaces.Pairwise Apart := by
  decide +kernel

theorem places_camEntries (c : Cam) : places (camEntries c) = camPlaces := rfl

/-! ### What can be read back -/

def field (p : Payload) (i : ℕ) (m : UInt32) : UInt32 := fieldGet m (word p.bytes i)

/-- The first bit of an address mask, or `0` if there is none. -/
structure FirstMasked (addressMask : UInt8) (start : ℕ) : Prop where
  none : addressMask = 0 → start = 0
  first : addressMask ≠ 0 → IsLeast {i : ℕ | addressMask.toNat.testBit i = true} start

/-- The exclusive or of the bytes of an address, from this one on. -/
def xorFrom (a : Address) (start : ℕ) : UInt8 :=
  (if start ≤ 0 then a.bytes 0 else 0) ^^^ (if start ≤ 1 then a.bytes 1 else 0) ^^^
    (if start ≤ 2 then a.bytes 2 else 0) ^^^ (if start ≤ 3 then a.bytes 3 else 0) ^^^
    (if start ≤ 4 then a.bytes 4 else 0) ^^^ (if start ≤ 5 then a.bytes 5 else 0)

/-- A payload says all of this configuration, and nothing else. -/
structure CamRead (c : Cam) (p : Payload) : Prop where
  id : p.id = camCommand
  length : p.length = 60
  macid : field p 8 0x000000ff = c.macid.toUInt32
  portInt : field p 8 0x00000700 = c.port.toUInt32
  tsfSync : field p 8 0x00003800 = c.port.toUInt32
  addressIndex : field p 1 0x000000ff = c.addressIndex.toUInt32
  bssidCamIndex : field p 3 0x0000003f = c.bssidIndex.toUInt32
  bssidIndex : field p 12 0x000000ff = c.bssidIndex.toUInt32
  local_ : ∀ i : Fin 6, p.bytes (16 + i) = c.local_.bytes i
  bssid : ∀ i : Fin 6, p.bytes (22 + i) = c.bssid.bytes i
  bssidAgain : ∀ i : Fin 6, p.bytes (54 + i) = c.bssid.bytes i
  valid : field p 2 0x00000001 = c.valid.toUInt32
  bssidValid : field p 13 0x00000001 = c.valid.toUInt32
  netType : field p 2 0x00000006 = if c.connected then 2 else 0
  beaconHit : field p 2 0x00000018 = c.beaconHit.toUInt32
  hitRule : field p 2 0x00000060 = c.hitRule.toUInt32
  addressMask : field p 2 0x00003f00 = c.addressMask.toUInt32
  maskSelect : field p 2 0x0000c000 = c.maskSelect.toUInt32
  trigger : field p 8 0x00004000 = c.trigger.toUInt32
  lsigTxop : field p 8 0x00008000 = c.lsigTxop.toUInt32
  target : field p 8 0x07000000 = c.target.toUInt32
  frameTarget : field p 8 0x38000000 = c.frameTarget.toUInt32
  aid : field p 9 0x00000fff = c.aid.toUInt32
  bssColor : field p 13 0x00003f00 = c.bssColor.toUInt32
  bssidMask : field p 13 0x000000fc = if c.nontransmitted then 0x1f else 0x3f
  hashes : ∃ start, FirstMasked c.addressMask start ∧
    field p 2 0x00ff0000 = (xorFrom c.local_ (if c.maskSelect = 1 then start else 0)).toUInt32 ∧
    field p 2 0xff000000 = (xorFrom c.bssid (if c.maskSelect = 2 then start else 0)).toUInt32
  keys : field p 9 0xfffc0000 = 0 ∧ word p.bytes 10 = 0 ∧ word p.bytes 11 = 0
  rest : ∀ i, word p.bytes i &&& ~~~(union camPlaces i) = 0

/-- The checks of `addressCam`. -/
structure Cam.Valid (c : Cam) : Prop where
  port : c.port.toNat ≤ 4
  bssidIndex : c.bssidIndex.toNat < 10
  bssColor : c.bssColor.toNat ≤ 63
  beaconHit : c.beaconHit.toNat ≤ 3
  hitRule : c.hitRule.toNat ≤ 3
  addressMask : c.addressMask.toNat ≤ 63
  maskSelect : c.maskSelect.toNat ≤ 2
  target : c.target.toNat ≤ 7
  frameTarget : c.frameTarget.toNat ≤ 7
  connected : c.connected = true → c.aid.toNat ≤ 2007
  idle : c.connected = false → c.aid = 0

theorem addressCam_cases (c : Cam) : addressCam c = (false, {}) ∨
    (c.Valid ∧ addressCam c = (true, ⟨camCommand, 60, fillAddressCam c fun _ => 0⟩)) := by
  unfold addressCam
  split
  · exact Or.inl rfl
  · rename_i h
    refine Or.inr ⟨?_, rfl⟩
    simp only [not_or, ge_iff_le, gt_iff_lt, UInt8.lt_iff_toNat_lt, UInt8.le_iff_toNat_le, not_le, not_lt,
      UInt16.lt_iff_toNat_lt, not_and, Bool.not_eq_true'] at h
    rcases h with
      ⟨-, hport, -, hbssid, -, hcolor, hbeacon, hrule, hmask, hselect, htarget, hframe, hon, hoff⟩
    exact ⟨hport, hbssid, hcolor, hbeacon, hrule, hmask, hselect, htarget, hframe,
      fun hconnected => (hon hconnected).2.2, fun hidle => not_not.1 (hoff hidle)⟩

theorem word_empty (i : ℕ) : word (fun _ => 0) i = 0 := by
  have hload : Memory.load (fun _ => 0) (4 * i) 4 = [0, 0, 0, 0] := rfl
  rw [word, hload]
  decide

/-- The entry with this number, a field of `width` bits from bit `low` on, is read back. -/
theorem camEntries_get (c : Cam) (k low width : ℕ) {m v : UInt32} (he : (camEntries c)[k]? = some ⟨i, m, v⟩)
    (hm : Contiguous m low width) (hv : v.toNat < 2 ^ width) :
    fieldGet m (word (fillAddressCam c fun _ => 0) i) = v := by
  have hapart : (places (camEntries c)).Pairwise Apart := by
    rw [places_camEntries]
    exact apart_camPlaces
  have hread := @get_putAll (word fun _ => 0) _ ⟨i, m, v⟩ hapart (List.mem_of_getElem? he) _ _ hm hv
  rwa [← word_fillAddressCam] at hread

theorem camEntries_byte (c : Cam) (k : ℕ) {a : ℕ} {b : UInt8}
    (he : (camEntries c)[k]? = some ⟨a / 4, byteMask (a % 4), b.toUInt32⟩) :
    fillAddressCam c (fun _ => 0) a = b := by
  have hj : a % 4 < 4 := Nat.mod_lt a (by decide)
  have hread := camEntries_get c k _ _ he (contiguous_byteMask hj) (by
    rw [UInt8.toNat_toUInt32]
    exact b.toNat_lt)
  have hbyte := byte_eq (fillAddressCam c fun _ => 0) (a / 4) hj
  rw [Nat.div_add_mod] at hbyte
  apply UInt8.toNat_inj.1
  rw [← UInt8.toNat_toUInt32, hbyte, hread, UInt8.toNat_toUInt32]

theorem camEntries_outside (c : Cam) {n : UInt32} (h : ∀ q ∈ camPlaces, q.1 = i → q.2 &&& n = 0) :
    word (fillAddressCam c fun _ => 0) i &&& n = 0 := by
  rw [word_fillAddressCam, putAll_outside, word_empty, UInt32.zero_and]
  intro e he
  apply h (e.word, e.mask)
  rw [← places_camEntries c]
  exact List.mem_map.2 ⟨e, he, rfl⟩

theorem firstMasked_spec (addressMask : UInt8) : FirstMasked addressMask (firstMasked addressMask) := by
  unfold firstMasked
  constructor
  · rintro rfl
    rfl
  · intro hne
    cases hfind : (List.range 8).find? fun i => addressMask.toNat.testBit i with
    | none =>
        -- A byte without bits is zero.
        exfalso
        apply hne
        apply UInt8.toNat_inj.1
        apply Nat.eq_of_testBit_eq
        intro i
        by_cases hi : i < 8
        · have hbit := List.find?_eq_none.1 hfind i (List.mem_range.2 hi)
          simpa using hbit
        · rw [testBit_byte _ (Nat.le_of_not_lt hi)]
          simp
    | some i =>
        rcases List.find?_range_eq_some.1 hfind with ⟨hbit, -, hleast⟩
        refine ⟨hbit, fun j hj => ?_⟩
        by_contra hlt
        have hno := hleast j (Nat.lt_of_not_le hlt)
        have hyes : addressMask.toNat.testBit j = true := hj
        simp [hyes] at hno

/-- The loop over the bytes skips those before the first one. -/
theorem addressHash_eq (a : Address) (start : ℕ) : addressHash a start = xorFrom a start := by
  have hrange : List.finRange 6 = [0, 1, 2, 3, 4, 5] := by decide
  have hfold : ∀ (is : List (Fin 6)) (hash : UInt8),
      (is.filter fun i => start ≤ i.val).foldl (fun hash i => hash ^^^ a.bytes i) hash =
        is.foldl (fun hash i => hash ^^^ if start ≤ i.val then a.bytes i else 0) hash := by
    intro is hash
    induction is generalizing hash with
    | nil => rfl
    | cons i is ih =>
        by_cases hi : start ≤ i.val
        · rw [List.filter_cons, if_pos (decide_eq_true hi), List.foldl_cons, List.foldl_cons, if_pos hi, ih]
        · rw [List.filter_cons, if_neg (fun h => hi (of_decide_eq_true h)), List.foldl_cons, if_neg hi,
            UInt8.xor_zero, ih]
  unfold addressHash
  rw [hfold, hrange]
  simp only [List.foldl_cons, List.foldl_nil, UInt8.zero_xor]
  rfl

theorem widened {b : UInt8} {n : ℕ} (h : b.toNat < n) : b.toUInt32.toNat < n := by
  rwa [UInt8.toNat_toUInt32]

theorem widened_bool (b : Bool) : b.toUInt32.toNat < 2 ^ 1 := by
  cases b <;> decide

theorem Cam.Valid.read {c : Cam} (h : c.Valid) :
    CamRead c ⟨camCommand, 60, fillAddressCam c fun _ => 0⟩ where
  id := rfl
  length := rfl
  macid := camEntries_get c 31 0 8 rfl (by decide) (widened c.macid.toNat_lt)
  portInt := camEntries_get c 25 8 3 rfl (by decide) (widened (h.port.trans_lt (by decide)))
  tsfSync := camEntries_get c 26 11 3 rfl (by decide) (widened (h.port.trans_lt (by decide)))
  addressIndex := camEntries_get c 0 0 8 rfl (by decide) (widened c.addressIndex.toNat_lt)
  bssidCamIndex := camEntries_get c 12 0 6 rfl (by decide) (widened (h.bssidIndex.trans (by decide)))
  bssidIndex := camEntries_get c 34 0 8 rfl (by decide) (widened c.bssidIndex.toNat_lt)
  valid := camEntries_get c 3 0 1 rfl (by decide) (widened_bool c.valid)
  bssidValid := camEntries_get c 37 0 1 rfl (by decide) (widened_bool c.valid)
  netType := camEntries_get c 4 1 2 rfl (by decide) (by cases c.connected <;> decide)
  beaconHit := camEntries_get c 5 3 2 rfl (by decide) (widened (h.beaconHit.trans_lt (by decide)))
  hitRule := camEntries_get c 6 5 2 rfl (by decide) (widened (h.hitRule.trans_lt (by decide)))
  addressMask := camEntries_get c 8 8 6 rfl (by decide) (widened (h.addressMask.trans_lt (by decide)))
  maskSelect := camEntries_get c 9 14 2 rfl (by decide) (widened (h.maskSelect.trans_lt (by decide)))
  trigger := camEntries_get c 27 14 1 rfl (by decide) (widened_bool c.trigger)
  lsigTxop := camEntries_get c 28 15 1 rfl (by decide) (widened_bool c.lsigTxop)
  target := camEntries_get c 29 24 3 rfl (by decide) (widened (h.target.trans_lt (by decide)))
  frameTarget := camEntries_get c 30 27 3 rfl (by decide) (widened (h.frameTarget.trans_lt (by decide)))
  bssColor := camEntries_get c 40 8 6 rfl (by decide) (widened (h.bssColor.trans_lt (by decide)))
  bssidMask := camEntries_get c 38 2 6 rfl (by decide) (by cases c.nontransmitted <;> decide)
  local_ := by
    intro i
    apply camEntries_byte c (13 + 2 * i)
    fin_cases i <;> rfl
  bssid := by
    intro i
    apply camEntries_byte c (14 + 2 * i)
    fin_cases i <;> rfl
  bssidAgain := by
    intro i
    apply camEntries_byte c (41 + i)
    fin_cases i <;> rfl
  aid := by
    have haid : (if c.connected then c.aid.toUInt32 else 0) = c.aid.toUInt32 := by
      cases hc : c.connected with
      | false => rw [h.idle hc]; rfl
      | true => rfl
    have hbound : c.aid.toNat < 2 ^ 12 := by
      cases hc : c.connected with
      | false => rw [h.idle hc]; decide
      | true => exact (h.connected hc).trans_lt (by decide)
    rw [← haid]
    apply camEntries_get c 32 0 12 rfl (by decide)
    rw [haid, UInt16.toNat_toUInt32]
    exact hbound
  hashes := by
    refine ⟨firstMasked c.addressMask, firstMasked_spec c.addressMask, ?_, ?_⟩
    · rw [← addressHash_eq]
      exact camEntries_get c 10 16 8 rfl (by decide) (widened (UInt8.toNat_lt _))
    · rw [← addressHash_eq]
      exact camEntries_get c 11 24 8 rfl (by decide) (widened (UInt8.toNat_lt _))
  keys := by
    have hword : ∀ i, (∀ q ∈ camPlaces, q.1 = i → q.2 &&& 0xffffffff = 0) →
        word (fillAddressCam c fun _ => 0) i = 0 := by
      intro i hi
      have hall := camEntries_outside c hi
      rwa [show (0xffffffff : UInt32) = -1 from rfl, UInt32.and_neg_one] at hall
    refine ⟨?_, hword 10 (by decide +kernel), hword 11 (by decide +kernel)⟩
    show fieldGet 0xfffc0000 _ = 0
    rw [fieldGet, camEntries_outside c (by decide +kernel)]
    decide
  rest := by
    intro i
    have hempty : (word fun _ => 0) = fun _ => 0 := funext word_empty
    have hrest := putAll_empty (camEntries c) i
    rwa [places_camEntries, ← hempty, ← word_fillAddressCam] at hrest

/-! ### The payload determines the configuration -/

/-- Payloads whose first 60 bytes are the same. -/
structure Same (p p' : Payload) : Prop where
  bytes : ∀ a < 60, p.bytes a = p'.bytes a

theorem Same.word {p p' : Payload} (h : Same p p') (hi : i < 15) :
    Wire.word p.bytes i = Wire.word p'.bytes i := by
  unfold Wire.word
  congr 1
  rw [Memory.load_eq_iff]
  intro j hj
  exact h.bytes _ (by omega)

/-- What two configurations write to a field is the same. -/
theorem Same.value {p p' : Payload} (h : Same p p') {m v v' : UInt32} (hi : i < 15) (hv : field p i m = v)
    (hv' : field p' i m = v') : v = v' := by
  rw [← hv, ← hv', field, field, h.word hi]

theorem toUInt32_inj {b b' : UInt8} (h : b.toUInt32 = b'.toUInt32) : b = b' := by
  apply UInt8.toNat_inj.1
  rw [← UInt8.toNat_toUInt32, h, UInt8.toNat_toUInt32]

theorem bool_toUInt32_inj {b b' : Bool} (h : b.toUInt32 = b'.toUInt32) : b = b' := by
  revert b b'
  decide

theorem aid_inj {a a' : UInt16} (h : a.toUInt32 = a'.toUInt32) : a = a' := by
  apply UInt16.toNat_inj.1
  rw [← UInt16.toNat_toUInt32, h, UInt16.toNat_toUInt32]

theorem CamRead.inj {c c' : Cam} {p p' : Payload} (h : CamRead c p) (h' : CamRead c' p')
    (hsame : Same p p') : c = c' := by
  have haddress : ∀ {a a' : Address}, (∀ i, a.bytes i = a'.bytes i) → a = a' := by
    intro a a' hbytes
    cases a
    cases a'
    exact congrArg Address.mk (funext hbytes)
  apply Cam.ext
  · exact toUInt32_inj (hsame.value (by decide) h.macid h'.macid)
  · exact toUInt32_inj (hsame.value (by decide) h.portInt h'.portInt)
  · exact toUInt32_inj (hsame.value (by decide) h.addressIndex h'.addressIndex)
  · exact toUInt32_inj (hsame.value (by decide) h.bssidIndex h'.bssidIndex)
  · apply haddress
    intro i
    rw [← h.local_ i, ← h'.local_ i, hsame.bytes _ (by omega)]
  · apply haddress
    intro i
    rw [← h.bssid i, ← h'.bssid i, hsame.bytes _ (by omega)]
  · exact bool_toUInt32_inj (hsame.value (by decide) h.valid h'.valid)
  · have hconnected := hsame.value (by decide) h.netType h'.netType
    revert hconnected
    cases c.connected <;> cases c'.connected <;> decide
  · have hmask := hsame.value (by decide) h.bssidMask h'.bssidMask
    revert hmask
    cases c.nontransmitted <;> cases c'.nontransmitted <;> decide
  · exact bool_toUInt32_inj (hsame.value (by decide) h.trigger h'.trigger)
  · exact bool_toUInt32_inj (hsame.value (by decide) h.lsigTxop h'.lsigTxop)
  · exact aid_inj (hsame.value (by decide) h.aid h'.aid)
  · exact toUInt32_inj (hsame.value (by decide) h.bssColor h'.bssColor)
  · exact toUInt32_inj (hsame.value (by decide) h.beaconHit h'.beaconHit)
  · exact toUInt32_inj (hsame.value (by decide) h.hitRule h'.hitRule)
  · exact toUInt32_inj (hsame.value (by decide) h.addressMask h'.addressMask)
  · exact toUInt32_inj (hsame.value (by decide) h.maskSelect h'.maskSelect)
  · exact toUInt32_inj (hsame.value (by decide) h.target h'.target)
  · exact toUInt32_inj (hsame.value (by decide) h.frameTarget h'.frameTarget)

/-! ## The CMAC table -/

/-- A field of the CMAC table that is set: its word, its mask, and the value. -/
structure CmacField where
  word : ℕ
  mask : UInt32
  full : UInt32
  value : UInt32

/-- The entry for the value, and the one that says which bits to change. -/
def CmacField.entries (f : CmacField) : List Entry :=
  [⟨f.word, f.mask, f.value⟩, ⟨f.word + 8, f.mask, f.full⟩]

def cmacPlaces (fs : List CmacField) : List (ℕ × UInt32) := fs.map fun f => (f.word, f.mask)

/-- The field lies in one of the value words, and `full` fills its mask. -/
def CmacField.Sound (f : CmacField) : Prop :=
  1 ≤ f.word ∧ f.word ≤ 8 ∧ fieldPrep f.mask f.full = f.mask

/-- The mask words name the fields that are set, and no value has bits outside of them. -/
def Masked (fields : List (ℕ × UInt32)) (p : Payload) : Prop :=
  ∀ i, 1 ≤ i → i ≤ 8 → word p.bytes (i + 8) = union fields i ∧
    word p.bytes i &&& ~~~(word p.bytes (i + 8)) = 0

variable {fs : List CmacField} {ws : ℕ → UInt32}

theorem union_values (hfs : ∀ f ∈ fs, f.Sound) (hi : i ≤ 8) :
    union (places (fs.flatMap CmacField.entries)) i = union (cmacPlaces fs) i := by
  induction fs with
  | nil => rfl
  | cons f fs ih =>
      have hrest := ih fun g hg => hfs g (List.mem_cons_of_mem f hg)
      have hmask : (f.word + 8, f.mask).1 ≠ i := by
        have hf := (hfs f List.mem_cons_self).1
        show f.word + 8 ≠ i
        omega
      show union ((f.word, f.mask) :: (f.word + 8, f.mask) :: places (fs.flatMap CmacField.entries)) i =
        union ((f.word, f.mask) :: cmacPlaces fs) i
      by_cases hword : f.word = i
      · subst hword
        rw [union_cons_self (f.word, f.mask), union_cons_self (f.word, f.mask), union_cons_ne hmask,
          hrest]
      · have hne : (f.word, f.mask).1 ≠ i := hword
        rw [union_cons_ne hne, union_cons_ne hne, union_cons_ne hmask, hrest]

theorem union_masks (hfs : ∀ f ∈ fs, f.Sound) (hi : 1 ≤ i) :
    union (places (fs.flatMap CmacField.entries)) (i + 8) = union (cmacPlaces fs) i := by
  induction fs with
  | nil => rfl
  | cons f fs ih =>
      have hrest := ih fun g hg => hfs g (List.mem_cons_of_mem f hg)
      have hvalue : (f.word, f.mask).1 ≠ i + 8 := by
        have hf := (hfs f List.mem_cons_self).2.1
        show f.word ≠ i + 8
        omega
      show union ((f.word, f.mask) :: (f.word + 8, f.mask) ::
        places (fs.flatMap CmacField.entries)) (i + 8) =
        union ((f.word, f.mask) :: cmacPlaces fs) i
      by_cases hword : f.word = i
      · subst hword
        rw [union_cons_ne hvalue, union_cons_self (f.word + 8, f.mask),
          union_cons_self (f.word, f.mask), hrest]
      · have hne : (f.word, f.mask).1 ≠ i := hword
        have hne' : (f.word + 8, f.mask).1 ≠ i + 8 := by
          show f.word + 8 ≠ i + 8
          omega
        rw [union_cons_ne hvalue, union_cons_ne hne, union_cons_ne hne', hrest]

theorem entries_full (hfs : ∀ f ∈ fs, f.Sound) (hi : 1 ≤ i) :
    ∀ e ∈ fs.flatMap CmacField.entries, e.word = i + 8 → fieldPrep e.mask e.value = e.mask := by
  intro e he hword
  rcases List.mem_flatMap.1 he with ⟨f, hf, hentry⟩
  have hsound := hfs f hf
  simp only [CmacField.entries, List.mem_cons, List.not_mem_nil, or_false] at hentry
  rcases hentry with rfl | rfl
  · -- A value is in a word below 9.
    exfalso
    have hlast := hsound.2.1
    have hvalue : f.word = i + 8 := hword
    omega
  · exact hsound.2.2

/-- The macid and the operation go to word 0, and every field goes to its value and to its mask. -/
def cmacEntries (macid : UInt8) (fs : List CmacField) : List Entry :=
  ⟨0, 0x0000007f, macid.toUInt32⟩ :: ⟨0, 0x00000080, 1⟩ :: fs.flatMap CmacField.entries

theorem masked {macid : UInt8} (hfs : ∀ f ∈ fs, f.Sound) {p : Payload}
    (hp : word p.bytes = putAll (cmacEntries macid fs) (word fun _ => 0)) :
    Masked (cmacPlaces fs) p := by
  intro i hi hlast
  have hstart : ∀ j, 1 ≤ j → word p.bytes j = putAll (fs.flatMap CmacField.entries)
      (Entry.put ⟨0, 0x00000080, 1⟩ (Entry.put ⟨0, 0x0000007f, macid.toUInt32⟩ (word fun _ => 0))) j := by
    intro j _
    rw [hp]
    rfl
  have hzero : ∀ j, 1 ≤ j →
      Entry.put ⟨0, 0x00000080, 1⟩ (Entry.put ⟨0, 0x0000007f, macid.toUInt32⟩ (word fun _ => 0)) j = 0 := by
    intro j hj
    have hne : j ≠ 0 := Nat.ne_of_gt hj
    unfold Entry.put
    rw [Function.update_of_ne hne, Function.update_of_ne hne, word_empty]
  have hmask : word p.bytes (i + 8) = union (cmacPlaces fs) i := by
    rw [hstart (i + 8) (by omega), putAll_full (entries_full hfs hi), hzero (i + 8) (by omega),
      UInt32.zero_or, union_masks hfs hi]
  refine ⟨hmask, ?_⟩
  rw [hmask, ← union_values hfs hlast, hstart i hi, putAll_outside, hzero i hi, UInt32.zero_and]
  intro e he hword
  subst hword
  have hplace : (e.word, e.mask) ∈ places (fs.flatMap CmacField.entries) := List.mem_map.2 ⟨e, he, rfl⟩
  exact and_not_union hplace

theorem word_cmacField (p : Bits.Memory) (i : ℕ) (full m v : UInt32) :
    word (cmacField i (i + 8) full m p v) =
      putAll (CmacField.entries ⟨i, m, full, v⟩) (word p) := by
  unfold cmacField
  rw [word_replace, word_replace]
  rfl

/-- The fields of a default table, in the order of `defaultCmac`. -/
def defaultFields (c : DefaultCmac) : List CmacField :=
  [⟨5, 0x00000e00, 0x7, 0⟩,
    ⟨6, 0x000f0000, 0xf, if c.antennaTx = 0 then 2 else c.antennaTx.toUInt32⟩, ⟨6, 0x00300000, 0x3, 0⟩,
    ⟨6, 0x00c00000, 0x3, if c.antennaTx = 3 then 1 else 0⟩, ⟨6, 0x03000000, 0x3, 0⟩,
    ⟨6, 0x0c000000, 0x3, 0⟩, ⟨6, 0x10000000, 0x1, 0⟩, ⟨6, 0x20000000, 0x1, 0⟩,
    ⟨6, 0x40000000, 0x1, 0⟩, ⟨6, 0x80000000, 0x1, 0⟩, ⟨7, 0x000c0000, 0x3, 0⟩,
    ⟨7, 0x0f000000, 0xf, 0⟩]

/-- The fields of an association, in the order of `associationCmac`. -/
def associationFields (c : AssociationCmac) (pads : List UInt8) : List CmacField :=
  [⟨1, 0x02000000, 0x1, 1⟩, ⟨1, 0x04000000, 0x1, 1⟩, ⟨2, 0xf0000000, 0xf, if c.band ≠ 0 then 4 else 0⟩,
    ⟨2, 0x00000800, 0x1, 0⟩, ⟨3, 0x00000040, 0x1, 0⟩, ⟨7, 0x00020000, 0x1, 1⟩,
    ⟨5, 0x00000007, 0x7, c.port.toUInt32⟩, ⟨7, 0x00300000, 0x3, (pads.getD 0 0).toUInt32⟩,
    ⟨7, 0x00c00000, 0x3, (pads.getD 1 0).toUInt32⟩, ⟨7, 0xc0000000, 0x3, (pads.getD 2 0).toUInt32⟩,
    ⟨8, 0x30000000, 0x3, (pads.getD 3 0).toUInt32⟩] ++
  if c.stationPresent then [⟨6, 0x00002000, 0x1, c.he.present.toUInt32⟩] else []

theorem word_fillDefaultCmac (c : DefaultCmac) (p : Bits.Memory) :
    word (fillDefaultCmac c p) = putAll (cmacEntries c.macid (defaultFields c)) (word p) := by
  simp only [fillDefaultCmac, setCtrlInfoMacid, setCtrlInfoOperation, setCmcTblTxpwrMode,
    setCmcTblNtxPathEn, setCmcTblPathMapA, setCmcTblPathMapB, setCmcTblPathMapC, setCmcTblPathMapD,
    setCmcTblAntselA, setCmcTblAntselB, setCmcTblAntselC, setCmcTblAntselD, setCmcTblDopplerCtrl,
    setCmcTblTxpwrTolerence, word_cmacField _ 5, word_cmacField _ 6, word_cmacField _ 7,
    word_addrField]
  rfl

theorem word_fillAssociationCmac (c : AssociationCmac) (pads : List UInt8) (p : Bits.Memory) :
    word (fillAssociationCmac c pads p) =
      putAll (cmacEntries c.macid (associationFields c pads)) (word p) := by
  cases hstation : c.stationPresent with
  | false =>
      simp only [fillAssociationCmac, associationFields, hstation, Bool.false_eq_true, if_false,
        setCtrlInfoMacid, setCtrlInfoOperation, setCmcTblDisrtsfb, setCmcTblDisdatafb,
        setCmcTblRtsRtyLowestRate, setCmcTblRtsTxcntLmtSel, setCmcTblDataTxcntLmtSel, setCmcTblUldl,
        setCmcTblMultiPortId, setCmcTblNominalPktPadding, setCmcTblNominalPktPadding40,
        setCmcTblNominalPktPadding80, setCmcTblNominalPktPadding160, word_cmacField _ 1,
        word_cmacField _ 2, word_cmacField _ 3, word_cmacField _ 5, word_cmacField _ 7,
        word_cmacField _ 8, word_addrField]
      rfl
  | true =>
      simp only [fillAssociationCmac, associationFields, hstation, if_true,
        setCtrlInfoMacid, setCtrlInfoOperation, setCmcTblDisrtsfb, setCmcTblDisdatafb,
        setCmcTblRtsRtyLowestRate, setCmcTblRtsTxcntLmtSel, setCmcTblDataTxcntLmtSel, setCmcTblUldl,
        setCmcTblMultiPortId, setCmcTblNominalPktPadding, setCmcTblNominalPktPadding40,
        setCmcTblNominalPktPadding80, setCmcTblNominalPktPadding160, setCmcTblBsrQueueSizeFormat,
        word_cmacField _ 1, word_cmacField _ 2, word_cmacField _ 3, word_cmacField _ 5,
        word_cmacField _ 6, word_cmacField _ 7, word_cmacField _ 8, word_addrField]
      rfl

/-- Whether a field is sound does not depend on its value. -/
theorem sound_of_places {fs : List CmacField}
    (h : ∀ f ∈ fs.map fun f => ({ f with value := 0 } : CmacField), f.Sound) : ∀ f ∈ fs, f.Sound := by
  intro f hf
  exact h { f with value := 0 } (List.mem_map.2 ⟨f, hf, rfl⟩)

instance (f : CmacField) : Decidable f.Sound := inferInstanceAs (Decidable (_ ∧ _ ∧ _))

theorem defaultFields_sound (c : DefaultCmac) : ∀ f ∈ defaultFields c, f.Sound := by
  apply sound_of_places
  show ∀ f ∈ (defaultFields {}).map fun f => ({ f with value := 0 } : CmacField), f.Sound
  decide +kernel

theorem associationFields_sound (c : AssociationCmac) (pads : List UInt8) :
    ∀ f ∈ associationFields c pads, f.Sound := by
  apply sound_of_places
  unfold associationFields
  cases c.stationPresent with
  | false =>
      show ∀ f ∈ (associationFields {} []).map fun f => ({ f with value := 0 } : CmacField), f.Sound
      decide +kernel
  | true =>
      show ∀ f ∈ (associationFields { stationPresent := true } []).map
        fun f => ({ f with value := 0 } : CmacField), f.Sound
      decide +kernel

/-! ## The codec -/

theorem defaultCmac_masked (c : DefaultCmac) : defaultCmac c = (false, {}) ∨
    ∃ p, defaultCmac c = (true, p) ∧ Masked (cmacPlaces (defaultFields c)) p := by
  unfold defaultCmac
  split
  · exact Or.inl rfl
  · refine Or.inr ⟨_, rfl, ?_⟩
    apply masked (defaultFields_sound c)
    exact word_fillDefaultCmac c fun _ => 0

theorem associationCmac_masked (c : AssociationCmac) : associationCmac c = (false, {}) ∨
    ∃ p, associationCmac c = (true, p) ∧
      Masked (cmacPlaces (associationFields c (packetPadding c.he).pads)) p := by
  unfold associationCmac
  split
  · exact Or.inl rfl
  · cases hok : (packetPadding c.he).ok with
    | false =>
        left
        simp only [hok, Bool.not_false, if_true]
    | true =>
        right
        simp only [hok, Bool.not_true, Bool.false_eq_true, if_false]
        refine ⟨_, rfl, ?_⟩
        apply masked (associationFields_sound c _)
        exact word_fillAssociationCmac c _ fun _ => 0

/-- An address table that is accepted reads back as its configuration, with nothing else in it, so two
configurations never share one; the masks of an accepted CMAC table name exactly the fields that are
set, and no value has other bits; what is rejected leaves the payload empty. -/
theorem station_payload_codec :
    (∀ c p, addressCam c = (true, p) → CamRead c p) ∧
      (∀ c c' p p', addressCam c = (true, p) → addressCam c' = (true, p') →
        p.bytes.load 0 60 = p'.bytes.load 0 60 → c = c') ∧
      (∀ c p, defaultCmac c = (true, p) → Masked (cmacPlaces (defaultFields c)) p) ∧
      (∀ c p, associationCmac c = (true, p) →
        Masked (cmacPlaces (associationFields c (packetPadding c.he).pads)) p) ∧
      (∀ c p, addressCam c = (false, p) → p = {}) ∧ (∀ c p, defaultCmac c = (false, p) → p = {}) ∧
      ∀ c p, associationCmac c = (false, p) → p = {} := by
  have hread : ∀ c p, addressCam c = (true, p) → CamRead c p := by
    intro c p h
    rcases addressCam_cases c with hno | ⟨hvalid, hyes⟩
    · rw [hno] at h
      cases h
    · rw [hyes] at h
      cases h
      exact hvalid.read
  refine ⟨hread, ?_, ?_, ?_, ?_, ?_, ?_⟩
  · intro c c' p p' h h' hload
    have hsame : Same p p' := by
      constructor
      intro a ha
      have hbyte := (Memory.load_eq_iff.1 hload) a ha
      rwa [Nat.zero_add] at hbyte
    exact (hread c p h).inj (hread c' p' h') hsame
  · intro c p h
    rcases defaultCmac_masked c with hno | ⟨q, hyes, hmasked⟩
    · rw [hno] at h
      cases h
    · rw [hyes] at h
      cases h
      exact hmasked
  · intro c p h
    rcases associationCmac_masked c with hno | ⟨q, hyes, hmasked⟩
    · rw [hno] at h
      cases h
    · rw [hyes] at h
      cases h
      exact hmasked
  · intro c p h
    rcases addressCam_cases c with hno | ⟨-, hyes⟩
    · exact (Prod.mk.inj (h.symm.trans hno)).2
    · rw [hyes] at h
      cases h
  · intro c p h
    rcases defaultCmac_masked c with hno | ⟨q, hyes, -⟩
    · exact (Prod.mk.inj (h.symm.trans hno)).2
    · rw [hyes] at h
      cases h
  · intro c p h
    rcases associationCmac_masked c with hno | ⟨q, hyes, -⟩
    · exact (Prod.mk.inj (h.symm.trans hno)).2
    · rw [hyes] at h
      cases h

/-- A link whose third and fourth address bytes are masked. -/
def maskedCam : Cam where
  macid := 3
  port := 1
  local_ := ⟨fun i => #v[0x02, 0x11, 0x22, 0x33, 0x44, 0x56].get i⟩
  bssid := ⟨fun i => #v[0x0c, 0x01, 0x02, 0x04, 0x08, 0x10].get i⟩
  connected := true
  aid := 7
  addressMask := 0x0c
  maskSelect := 1

/-- The local address is hashed from its third byte on, and the other one from its first. -/
theorem station_payload_codec_masked : ∃ p q, addressCam maskedCam = (true, p) ∧ CamRead maskedCam p ∧
    field p 2 0x00ff0000 = 0x22 ^^^ 0x33 ^^^ 0x44 ^^^ 0x56 ∧
    field p 2 0xff000000 = 0x0c ^^^ 0x01 ^^^ 0x02 ^^^ 0x04 ^^^ 0x08 ^^^ 0x10 ∧
    defaultCmac ⟨3, 3⟩ = (true, q) ∧ Masked (cmacPlaces (defaultFields ⟨3, 3⟩)) q ∧
    word q.bytes 14 = 0xffff0000 := by
  have hcam : addressCam maskedCam = (true, (addressCam maskedCam).2) := Prod.ext (by decide +kernel) rfl
  have hcmac : defaultCmac ⟨3, 3⟩ = (true, (defaultCmac ⟨3, 3⟩).2) := Prod.ext (by decide +kernel) rfl
  exact ⟨_, _, hcam, station_payload_codec.1 _ _ hcam, by decide +kernel, by decide +kernel, hcmac,
    station_payload_codec.2.2.1 _ _ hcmac, by decide +kernel⟩

end Tables
end Rtl8852be
