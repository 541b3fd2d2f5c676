import Rtl8852be.Commands.Delivery
import Rtl8852be.Queue.FirmwareDmaQueue

/-!
# Codec — the writers and readers of command headers agree

Four pieces of code know the layout of a command: `encodeH2c` writes it, `decodeC2h`, the command bus and
the framing of the DMA queue read it.  The two header words are computed as numbers, so that every reader
is a remainder or a quotient of them.

* `toNat_word0`, `toNat_word1` — the header as numbers;
* `encodeH2cAt_load` — the in-place and the disjoint copy leave the same packet in memory;
* `encodeH2c_agrees` — every reader recovers what was encoded.
-/

namespace Rtl8852be
namespace Commands

open Interaction Network

/-! ## The header words -/

variable {id : CommandId} {sequence : UInt8} {receiveAck doneAck : Bool} {payload : List UInt8} {n : ℕ}

def word0 (id : CommandId) (sequence : UInt8) : UInt32 :=
  id.category.toUInt32 ||| (id.commandClass.toUInt32 <<< 2) ||| (id.function.toUInt32 <<< 8) |||
    (sequence.toUInt32 <<< 24)

/-- The second word of a command; the receive acknowledgement is asked for on every fourth one. -/
def word1 (sequence : UInt8) (receiveAck doneAck : Bool) (length : ℕ) : UInt32 :=
  (length + 8).toUInt32 ||| (if receiveAck || sequence % 4 == 0 then 0x4000 else 0) |||
    (if doneAck then 0x8000 else 0)

theorem toNat_word0 (sequence : UInt8) (hcategory : id.category ≤ 3) (hclass : id.commandClass ≤ 63) :
    (word0 id sequence).toNat = id.category.toNat + id.commandClass.toNat * 4 +
      id.function.toNat * 256 + sequence.toNat * 16777216 := by
  have hc : id.category.toNat ≤ 3 := UInt8.le_iff_toNat_le.1 hcategory
  have hk : id.commandClass.toNat ≤ 63 := UInt8.le_iff_toNat_le.1 hclass
  have hf := id.function.toNat_lt
  have hs := sequence.toNat_lt
  have two : (id.category.toUInt32 ||| id.commandClass.toUInt32 <<< 2).toNat =
      id.category.toNat + id.commandClass.toNat * 4 := by
    apply Bits.toNat_or_shiftLeft <;> simp <;> omega
  have three : (id.category.toUInt32 ||| id.commandClass.toUInt32 <<< 2 |||
      id.function.toUInt32 <<< 8).toNat =
      id.category.toNat + id.commandClass.toNat * 4 + id.function.toNat * 256 := by
    rw [← two]
    apply Bits.toNat_or_shiftLeft
    · decide
    · rw [two]
      simp
      omega
    · simp
      omega
  rw [word0, ← three]
  apply Bits.toNat_or_shiftLeft
  · decide
  · rw [three]
    simp
    omega
  · simp
    omega

theorem toNat_or_flag {w m : UInt32} {k : ℕ} (hw : w.toNat < 2 ^ k) (hm : m.toNat = 2 ^ k) (b : Bool) :
    (w ||| if b then m else 0).toNat = w.toNat + b.toNat * 2 ^ k := by
  cases b with
  | false => simp
  | true =>
      have hone : m.toNat = 1 <<< k := by rw [hm, Nat.one_shiftLeft]
      rw [if_pos rfl, UInt32.toNat_or, hone, Bits.or_shiftLeft hw]
      simp

theorem toNat_word1 (sequence : UInt8) (receiveAck doneAck : Bool) {length : ℕ}
    (hlength : length ≤ 16375) :
    (word1 sequence receiveAck doneAck length).toNat =
      length + 8 + (receiveAck || sequence % 4 == 0).toNat * 16384 + doneAck.toNat * 32768 := by
  have hnat : ((length + 8).toUInt32).toNat = length + 8 := by
    simp [Nat.toUInt32]
    omega
  have hfirst : ((length + 8).toUInt32 |||
      (if receiveAck || sequence % 4 == 0 then 0x4000 else 0)).toNat =
      length + 8 + (receiveAck || sequence % 4 == 0).toNat * 16384 := by
    rw [toNat_or_flag (k := 14) (by omega) rfl, hnat]
    rfl
  have hflag : (receiveAck || sequence % 4 == 0).toNat ≤ 1 := Bool.toNat_le _
  rw [word1, toNat_or_flag (k := 15) (by omega) rfl, hfirst]
  rfl

/-! ## The packet -/

/-- What `encodeH2c` writes. -/
def packet (id : CommandId) (sequence : UInt8) (receiveAck doneAck : Bool) (payload : List UInt8) :
    List UInt8 :=
  store32 (word0 id sequence) ++ (store32 (word1 sequence receiveAck doneAck payload.length) ++ payload)

theorem encodeH2c_eq {capacity : ℕ} (hcategory : id.category ≤ 3) (hclass : id.commandClass ≤ 63)
    (hlength : payload.length ≤ 16375) (hcapacity : payload.length + 8 ≤ capacity) :
    encodeH2c id sequence receiveAck doneAck payload capacity =
      some (packet id sequence receiveAck doneAck payload) := by
  have hok : ¬ (id.category > 3 ∨ id.commandClass > 63 ∨ payload.length > 0x3fff - 8 ∨
      capacity < payload.length + 8) := by
    rintro (h | h | h | h)
    · exact absurd hcategory (UInt8.not_le.2 h)
    · exact absurd hclass (UInt8.not_le.2 h)
    · omega
    · omega
  rw [encodeH2c, if_neg hok, packet, ← List.append_assoc]
  rfl

@[simp] theorem length_packet :
    (packet id sequence receiveAck doneAck payload).length = payload.length + 8 := by
  simp [packet]
  omega

theorem little32_packet_append (rest : List UInt8) :
    little32 (packet id sequence receiveAck doneAck payload ++ rest) = word0 id sequence := by
  rw [packet, List.append_assoc]
  exact little32_store32 _ _

theorem words_packet_append (rest : List UInt8) :
    (packet id sequence receiveAck doneAck payload ++ rest).drop 4 =
      store32 (word1 sequence receiveAck doneAck payload.length) ++ (payload ++ rest) := by
  rw [packet, List.append_assoc, List.append_assoc]
  rfl

theorem little32_drop_packet_append (rest : List UInt8) :
    little32 ((packet id sequence receiveAck doneAck payload ++ rest).drop 4) =
      word1 sequence receiveAck doneAck payload.length := by
  rw [words_packet_append]
  exact little32_store32 _ _

theorem drop_packet_append (rest : List UInt8) :
    (packet id sequence receiveAck doneAck payload ++ rest).drop 8 = payload ++ rest := by
  calc (packet id sequence receiveAck doneAck payload ++ rest).drop 8
      = ((packet id sequence receiveAck doneAck payload ++ rest).drop 4).drop 4 := by
        rw [List.drop_drop]
    _ = payload ++ rest := by
        rw [words_packet_append]
        rfl

theorem little32_packet :
    little32 (packet id sequence receiveAck doneAck payload) = word0 id sequence := by
  simpa using little32_packet_append []

theorem little32_drop_packet :
    little32 ((packet id sequence receiveAck doneAck payload).drop 4) =
      word1 sequence receiveAck doneAck payload.length := by
  simpa using little32_drop_packet_append []

theorem drop_packet : (packet id sequence receiveAck doneAck payload).drop 8 = payload := by
  simpa using drop_packet_append []

/-! ## The fields -/

theorem toUInt8_eq {w : UInt32} {b : UInt8} (h : w.toNat % 256 = b.toNat) : w.toUInt8 = b := by
  apply UInt8.toNat_inj.1
  simpa using h

/-- The identity of a command in a word whose low bits it fills. -/
theorem id_fields {w : UInt32} {r : ℕ} (hcategory : id.category ≤ 3)
    (hclass : id.commandClass ≤ 63)
    (hw : w.toNat = id.category.toNat + id.commandClass.toNat * 4 + id.function.toNat * 256 +
      r * 65536) :
    (w &&& 3).toUInt8 = id.category ∧ ((w >>> 2) &&& 63).toUInt8 = id.commandClass ∧
      (w >>> 8).toUInt8 = id.function ∧ ((w >>> 8) &&& 255).toUInt8 = id.function := by
  have hc : id.category.toNat ≤ 3 := UInt8.le_iff_toNat_le.1 hcategory
  have hk : id.commandClass.toNat ≤ 63 := UInt8.le_iff_toNat_le.1 hclass
  have hf := id.function.toNat_lt
  have low : (w &&& 3).toNat = w.toNat % 4 := Bits.toNat_and_low (n := 2) rfl
  have shifted2 : (w >>> 2).toNat = w.toNat / 4 := Bits.toNat_shiftRight (by decide)
  have middle : ((w >>> 2) &&& 63).toNat = w.toNat / 4 % 64 := by
    rw [← shifted2]
    exact Bits.toNat_and_low (n := 6) rfl
  have shifted8 : (w >>> 8).toNat = w.toNat / 256 := Bits.toNat_shiftRight (by decide)
  have high : ((w >>> 8) &&& 255).toNat = w.toNat / 256 % 256 := by
    rw [← shifted8]
    exact Bits.toNat_and_low (n := 8) rfl
  refine ⟨toUInt8_eq ?_, toUInt8_eq ?_, toUInt8_eq ?_, toUInt8_eq ?_⟩
  · omega
  · omega
  · omega
  · omega

theorem word1_fields (sequence : UInt8) (receiveAck doneAck : Bool) {length : ℕ}
    (hlength : length ≤ 16375) :
    (word1 sequence receiveAck doneAck length &&& 0x3fff).toNat = length + 8 ∧
      (word1 sequence receiveAck doneAck length &&& 0x4000 != 0) =
        (receiveAck || sequence % 4 == 0) ∧
      (word1 sequence receiveAck doneAck length &&& 0x8000 != 0) = doneAck ∧
      word1 sequence receiveAck doneAck length &&& 0xffff0000 = 0 := by
  have hw := toNat_word1 sequence receiveAck doneAck hlength
  generalize word1 sequence receiveAck doneAck length = w at hw ⊢
  generalize (receiveAck || sequence % 4 == 0) = flag at hw ⊢
  have hflag : flag.toNat ≤ 1 := Bool.toNat_le _
  have hdone : doneAck.toNat ≤ 1 := Bool.toNat_le _
  refine ⟨?_, ?_, ?_, ?_⟩
  · rw [Bits.toNat_and_low (n := 14) rfl]
    omega
  · apply Bool.eq_iff_iff.2
    rw [bne_iff_ne, Bits.and_bit_ne_zero (k := 14) rfl]
    cases flag <;> simp at hw ⊢ <;> omega
  · apply Bool.eq_iff_iff.2
    rw [bne_iff_ne, Bits.and_bit_ne_zero (k := 15) rfl]
    cases doneAck <;> simp at hw ⊢ <;> omega
  · apply (Bits.and_field_eq_zero (n := 16) (k := 16) rfl).2
    omega

/-- What the bus reads from a packet, and that it finds nothing wrong with it. -/
theorem header_packet (hcategory : id.category ≤ 3) (hclass : id.commandClass ≤ 63)
    (hlength : payload.length ≤ 16375) :
    header (packet id sequence receiveAck doneAck payload) =
        ⟨sequence, id, receiveAck || sequence % 4 == 0, doneAck⟩ ∧
      wellFormed (packet id sequence receiveAck doneAck payload) = true := by
  have hw := toNat_word0 sequence hcategory hclass
  have hrest : (word0 id sequence).toNat = id.category.toNat + id.commandClass.toNat * 4 +
      id.function.toNat * 256 + sequence.toNat * 256 * 65536 := by
    rw [hw, Nat.mul_assoc sequence.toNat]
  rcases id_fields hcategory hclass hrest with ⟨hc, hk, hf, -⟩
  have hc3 : id.category.toNat ≤ 3 := UInt8.le_iff_toNat_le.1 hcategory
  have hk63 : id.commandClass.toNat ≤ 63 := UInt8.le_iff_toNat_le.1 hclass
  have hf255 := id.function.toNat_lt
  have hs255 := sequence.toNat_lt
  have hs : (word0 id sequence >>> 24).toUInt8 = sequence := by
    have hshift : (word0 id sequence >>> 24).toNat = (word0 id sequence).toNat / 16777216 :=
      Bits.toNat_shiftRight (by decide)
    apply toUInt8_eq
    omega
  have hgap : word0 id sequence &&& 0x00ff0000 = 0 := by
    have hmask : (0x00ff0000 : UInt32).toNat = (2 ^ 8 - 1) <<< 16 := by decide
    rw [Bits.and_field_eq_zero hmask]
    omega
  rcases word1_fields sequence receiveAck doneAck hlength with ⟨hlow, hreceive, hdone, hreserved⟩
  constructor
  · simp only [header, little32_packet, little32_drop_packet, hs, hc, hk, hf, hreceive, hdone]
  · simp [wellFormed, little32_packet, little32_drop_packet, hgap, hreserved, hlow]

/-- The packet read back as an event, whatever follows it. -/
theorem decodeC2h_packet (hcategory : id.category ≤ 3) (hclass : id.commandClass ≤ 63)
    (hlength : payload.length ≤ 16375) (rest : List UInt8) :
    decodeC2h (packet id sequence receiveAck doneAck payload ++ rest) = some ⟨id, some payload⟩ := by
  have hw := toNat_word0 sequence hcategory hclass
  have hrest : (word0 id sequence).toNat = id.category.toNat + id.commandClass.toNat * 4 +
      id.function.toNat * 256 + sequence.toNat * 256 * 65536 := by
    rw [hw, Nat.mul_assoc sequence.toNat]
  rcases id_fields hcategory hclass hrest with ⟨hc, hk, -, hf⟩
  rcases word1_fields sequence receiveAck doneAck hlength with ⟨hlow, -, -, -⟩
  have hlong : ¬ (packet id sequence receiveAck doneAck payload ++ rest).length < 8 := by
    simp
    omega
  have htotal : ¬ (payload.length + 8 < 8 ∨
      (packet id sequence receiveAck doneAck payload ++ rest).length < payload.length + 8) := by
    simp
  rw [decodeC2h, if_neg hlong]
  simp only [little32_packet_append, little32_drop_packet_append, hlow]
  rw [if_neg htotal, drop_packet_append]
  simp [hc, hk, hf]

/-! ## Memory -/

theorem load_store_store {m : Bits.Memory} (out : ℕ) {a b rest : List UInt8}
    (hrest : ∀ i, (h : i < rest.length) → m (out + a.length + b.length + i) = rest[i]) :
    ((m.store out a).store (out + a.length) b).load out (a.length + b.length + rest.length) =
      a ++ (b ++ rest) := by
  apply List.ext_getElem
  · simp [Nat.add_assoc]
  · intro i hi _
    simp only [Bits.Memory.length_load] at hi
    simp only [Bits.Memory.load, List.getElem_map, List.getElem_range]
    by_cases ha : i < a.length
    · rw [Bits.Memory.store_apply_of_not (by omega), Bits.Memory.store_apply_of_lt ha,
        List.getElem_append_left ha]
    · rw [List.getElem_append_right (by omega)]
      by_cases hb : i - a.length < b.length
      · have haddr : out + i = out + a.length + (i - a.length) := by omega
        rw [haddr, Bits.Memory.store_apply_of_lt hb, List.getElem_append_left hb]
      · have haddr : out + i = out + a.length + b.length + (i - a.length - b.length) := by omega
        rw [Bits.Memory.store_apply_of_not (by omega), Bits.Memory.store_apply_of_not (by omega),
          haddr, hrest _ (by omega), List.getElem_append_right (by omega)]

/-- Where the payload is when the header is stored: eight bytes further on, and nothing else moved. -/
theorem payload_copied {m : Bits.Memory} {p out : ℕ}
    (hplace : p = out ∨ p + n ≤ out ∨ out + n + 8 ≤ p) (a : ℕ) :
    (if p = out then m.copyDown (out + 8) p n else m.copyUp (out + 8) p n) a =
      if out + 8 ≤ a ∧ a < out + 8 + n then m (p + (a - (out + 8))) else m a := by
  by_cases hp : p = out
  · rw [if_pos hp]
    exact Bits.Memory.copyDown_apply (by omega)
  · rw [if_neg hp]
    exact Bits.Memory.copyUp_apply (by omega)

/-- The header stored in front of a payload that is in its place. -/
theorem stored_packet {m copied : Bits.Memory} {out : ℕ}
    (hpayload : ∀ i, (h : i < payload.length) → copied (out + 8 + i) = payload[i])
    (hframe : ∀ a, a < out ∨ out + payload.length + 8 ≤ a → copied a = m a)
    {m' : Bits.Memory}
    (hm' : m' = (copied.store out (store32 (word0 id sequence))).store (out + 4)
      (store32 (word1 sequence receiveAck doneAck payload.length))) :
    m'.load out (payload.length + 8) = packet id sequence receiveAck doneAck payload ∧
      ∀ a, a < out ∨ out + payload.length + 8 ≤ a → m' a = m a := by
  subst hm'
  constructor
  · have hstores := load_store_store out
      (a := store32 (word0 id sequence))
      (b := store32 (word1 sequence receiveAck doneAck payload.length))
      (m := copied) (by simpa [Nat.add_assoc] using hpayload)
    rw [packet, ← hstores]
    simp only [length_store32]
    congr 1
    omega
  · intro a ha
    rw [Bits.Memory.store_apply_of_not (by simp; omega),
      Bits.Memory.store_apply_of_not (by simp; omega), hframe a ha]

/-- `encodeH2c` on memory leaves the packet in the output buffer and every other byte alone. -/
theorem encodeH2cAt_load {m : Bits.Memory} {p : Option ℕ} {out capacity : ℕ}
    (hcategory : id.category ≤ 3) (hclass : id.commandClass ≤ 63)
    (hlength : payload.length ≤ 16375) (hcapacity : payload.length + 8 ≤ capacity)
    (hnull : p = none → payload = [])
    (hload : ∀ q, p = some q → m.load q payload.length = payload ∧
      (q = out ∨ q + payload.length ≤ out ∨ out + payload.length + 8 ≤ q)) :
    ∃ m', encodeH2cAt m id sequence receiveAck doneAck p payload.length (some out) capacity =
        some (payload.length + 8, m') ∧
      m'.load out (payload.length + 8) = packet id sequence receiveAck doneAck payload ∧
      ∀ a, a < out ∨ out + payload.length + 8 ≤ a → m' a = m a := by
  have hok : ¬ ((p.isNone ∧ payload.length ≠ 0) ∨ id.category > 3 ∨ id.commandClass > 63 ∨
      payload.length > 0x3fff - 8 ∨ capacity < payload.length + 8) := by
    rintro (h | h | h | h | h)
    · exact h.2 (by rw [hnull (Option.isNone_iff_eq_none.1 h.1)]; rfl)
    · exact absurd hcategory (UInt8.not_le.2 h)
    · exact absurd hclass (UInt8.not_le.2 h)
    · omega
    · omega
  refine ⟨_, if_neg hok, ?_⟩
  cases p with
  | none =>
      refine stored_packet (m := m) ?_ (fun a _ => rfl) rfl
      intro i hi
      simp [hnull rfl] at hi
  | some q =>
      rcases hload q rfl with ⟨hbytes, hplace⟩
      have happly := payload_copied (m := m) (n := payload.length) hplace
      apply stored_packet _ _ rfl
      · intro i hi
        refine (happly _).trans ?_
        rw [if_pos (by omega)]
        have hget : (m.load q payload.length)[i]? = some payload[i] := by
          rw [hbytes, List.getElem?_eq_getElem hi]
        simp only [Bits.Memory.load, List.getElem?_map, List.getElem?_range hi,
          Option.map_some, Option.some.injEq] at hget
        rw [← hget]
        congr 1
        omega
      · intro a ha
        refine (happly a).trans ?_
        rw [if_neg (by omega)]

/-! ## The DMA buffer -/

/-- The descriptor in front of a command has no info part. -/
theorem encodeTx_command {size seq : UInt16} {capacity : ℕ} (hsize : size ≠ 0) (hmax : size ≤ 16383)
    (hseq : seq ≤ 4095) (hcapacity : 24 ≤ capacity) :
    ∃ descriptor : List UInt8, descriptor.length = 24 ∧
      encodeTx { chDma := 12, pktSize := size, seq := seq } capacity = .ok descriptor := by
  have hfit : txFieldsFit { chDma := 12, pktSize := size, seq := seq } = true := by
    simp only [txFieldsFit, decide_eq_true_eq]
    refine ⟨by decide, by decide, by decide, by decide, by decide, hmax, by decide, hseq, ?_⟩
    decide
  have hroom : ¬ capacity < 24 := by omega
  refine ⟨fillTxdesc { chDma := 12, pktSize := size, seq := seq }, rfl, ?_⟩
  simp [encodeTx, hsize, hfit, hroom]

/-- The sequence number of a frame is read from twelve bits. -/
theorem shiftRight_four_le (w : UInt16) : w >>> 4 ≤ 4095 := by
  have hw := w.toNat_lt
  apply UInt16.le_iff_toNat_le.2
  rw [UInt16.toNat_shiftRight]
  simp [Nat.shiftRight_eq_div_pow]
  omega

/-- The framing of the DMA queue takes every packet, and puts it behind a descriptor of 24 bytes. -/
theorem encodeCommandDma_packet (id : CommandId) (sequence : UInt8) (receiveAck doneAck : Bool)
    {source target physical capacity : ℕ} (hlength : payload.length ≤ 16375) (hcapacity : payload.length + 8 + 24 ≤ capacity)
    (hdma : dma32Range physical (payload.length + 8 + 24) = true)
    (hdisjoint : source + (payload.length + 8) ≤ target ∨
      target + (payload.length + 8 + 24) ≤ source) :
    ∃ descriptor : List UInt8, descriptor.length = 24 ∧
      Queue.encodeCommandDma (packet id sequence receiveAck doneAck payload) source target physical
          capacity =
        some (descriptor ++ packet id sequence receiveAck doneAck payload,
          store16 (payload.length + 8 + 24).toUInt16 ++ store16 0x4000 ++ store32 physical.toUInt32) := by
  rcases word1_fields sequence receiveAck doneAck hlength with ⟨hlow, -, -, -⟩
  have hsize : ¬ (payload.length + 8 < 8 ∨ payload.length + 8 > 16383 ∨
      capacity < payload.length + 8 + 24 ∨ (!dma32Range physical (payload.length + 8 + 24)) = true) := by
    simp [hdma]
    omega
  have hapart : ¬ (if source ≤ target then target - source < payload.length + 8
      else source - target < payload.length + 8 + 24) := by
    split <;> omega
  have htoNat : (payload.length + 8).toUInt16.toNat = payload.length + 8 := by
    simp [Nat.toUInt16]
    omega
  have hnonzero : (payload.length + 8).toUInt16 ≠ 0 := by
    intro h
    rw [h] at htoNat
    simp at htoNat
  have hmax : (payload.length + 8).toUInt16 ≤ 16383 := by
    apply UInt16.le_iff_toNat_le.2
    rw [htoNat]
    simp
    omega
  simp only [Queue.encodeCommandDma, length_packet, little32_drop_packet, hlow]
  rw [if_neg hsize, if_neg (fun h => h rfl), if_neg hapart]
  generalize hseq : (if 24 ≤ payload.length + 8 then (_ : UInt16) >>> 4 else 0) = seq
  have hle : seq ≤ 4095 := by
    rw [← hseq]
    split
    · exact shiftRight_four_le _
    · decide
  rcases encodeTx_command hnonzero hmax hle (by omega : 24 ≤ capacity) with ⟨descriptor, hlen, htx⟩
  refine ⟨descriptor, hlen, ?_⟩
  simp only [htx, hlen]
  rfl

/-! ## The bus -/

/-- The bus works, and is not in the middle of handing out a packet. -/
structure Working (b : FirmwareCommands) : Prop where
  publishing : b.publishing = false
  epoch : b.epoch ≠ 0
  error : b.error = .none

/-- `publish` may be called now: the bus works, its clock does not run back and nothing is overdue. -/
structure Ready (b : FirmwareCommands) (now : UInt64) : Prop extends Working b where
  clock : ¬ (b.clockStarted = true ∧ now < b.lastTime)
  timely : overdue b now = false

/-- The record that `publish` finds for a header waits for it. -/
structure Awaits (r : CommandRecord) (hd : Header) : Prop where
  reserved : r.state = .reserved
  acknowledged : r.receiver.event.isSome = true → hd.receiveAck = true ∨ hd.doneAck = true

/-- The bus asked for its gate and, if it has it, for the time; `next` is what it does from there. -/
def Begins (log : Trace) (next : UInt64 → Trace → Prop) : Prop :=
  (∃ rest, log = .call .inGate false :: rest) ∨
    ∃ now rest, log = .call .inGate true :: .call .nowUs now :: rest ∧ next now rest

/-- `check` always asks, and refuses only a bus that is not ready. -/
theorem check_complete {b : FirmwareCommands} (hb : Working b) :
    check.wp (fun log ok _ => Begins log fun now _ => ok = false → ¬ Ready b now) b := by
  simp only [check, wp_get_bind, wp_ite, wp_pure, wp_inGate, wp_nowUs,
    wp_modify_bind]
  refine ⟨?_, ?_⟩
  · rintro (hepoch | herror)
    · exact absurd hepoch hb.epoch
    · exact absurd hb.error herror
  · intro _ gate
    refine ⟨?_, ?_⟩
    · intro hgate
      have hgate : gate = false := by simpa using hgate
      subst hgate
      exact Or.inl ⟨[], rfl⟩
    · intro hgate now
      have hgate : gate = true := by simpa using hgate
      subst hgate
      refine ⟨?_, ?_⟩
      · intro hback
        apply wp_of_outcome
        intro log ok b' _
        exact Or.inr ⟨now, log, rfl, fun _ hready => hready.clock hback⟩
      · intro _
        refine ⟨?_, ?_⟩
        · intro hlate
          apply wp_of_outcome
          intro log ok b' _
          refine Or.inr ⟨now, log, rfl, fun _ hready => ?_⟩
          exact absurd (hready.timely.symm.trans hlate) (by rintro ⟨⟩)
        · intro _
          exact Or.inr ⟨now, [], rfl, fun hno => absurd hno (by rintro ⟨⟩)⟩

/-- A packet without fault goes to the transport as soon as a ready bus has read the clock. -/
theorem publish_asks {b : FirmwareCommands} {buffer : Buffer} (hb : Working b) (hnull : buffer.isNull = false)
    (hsize : 8 ≤ buffer.length) (hfits : buffer.length ≤ packetCapacity)
    (hformed : wellFormed buffer.data = true)
    (hrecord : Awaits (b.records (header buffer.data).sequence) (header buffer.data)) :
    (publish buffer).wp (fun log _ _ => Begins log fun now rest =>
      Ready b now → ∃ ok later, rest = .call (.publish buffer.data) ok :: later) b := by
  simp only [publish, wp_get_bind, wp_ite, wp_pure]
  refine ⟨?_, ?_⟩
  · intro hbusy
    exact absurd (hb.publishing.symm.trans hbusy) (by rintro ⟨⟩)
  intro _
  rw [wp_bind]
  apply wp_mono (wp_and check_quiet (check_complete hb))
  intro log ok b' hchecked
  rw [wp_ite]
  refine ⟨?_, ?_⟩
  · intro hrefused
    rw [wp_pure, List.append_nil]
    rcases hchecked.2 with hout | ⟨now, rest, rfl, hno⟩
    · exact Or.inl hout
    · exact Or.inr ⟨now, rest, rfl, fun hready => absurd hready (hno (by simpa using hrefused))⟩
  · intro hok
    rcases hchecked.1.2 (by simpa using hok) with ⟨_, now, rfl, rfl⟩
    have hvalid : ¬ (buffer.isNull = true ∨ buffer.length < 8 ∨ buffer.length > packetCapacity) := by
      rw [hnull]
      rintro (h | h | h)
      · exact absurd h (by rintro ⟨⟩)
      · omega
      · omega
    have hfound : ((b.ticked now).records (header buffer.data).sequence).state = .reserved :=
      hrecord.reserved
    simp only [wp_get_bind, wp_ite, wp_pure, wp_modify_bind, setRecord,
      wp_transportPublish]
    refine ⟨fun hbad => absurd hbad hvalid, fun _ => ⟨fun hbad => absurd hbad (by simp [hformed]), fun _ =>
      ⟨fun hbad => absurd hfound hbad, fun _ => ⟨?_, ?_⟩⟩⟩⟩
    · intro hsilent
      rcases hrecord.acknowledged hsilent.1 with h | h
      · exact absurd hsilent.2.1 (by simp [h])
      · exact absurd hsilent.2.2 (by simp [h])
    · intro _ ok
      refine ⟨?_, ?_⟩ <;>
      · intro _
        apply wp_of_outcome
        intro log' ok' b'' _
        exact Or.inr ⟨now, .call (.publish buffer.data) ok :: log', rfl, fun _ => ⟨ok, log', rfl⟩⟩

/-! ## Agreement -/

/-- The bytes say which command this is, to everyone who reads them. -/
structure Readable (id : CommandId) (sequence : UInt8) (receiveAck doneAck : Bool)
    (payload bytes : List UInt8) : Prop where
  length : bytes.length = payload.length + 8
  lengthField : (little32 (bytes.drop 4) &&& 0x3fff).toNat = bytes.length
  header : header bytes = ⟨sequence, id, receiveAck || sequence % 4 == 0, doneAck⟩
  body : bytes.drop 8 = payload
  event : ∀ trailing, decodeC2h (bytes ++ trailing) = some ⟨id, some payload⟩

/-- The bus hands the bytes to its transport: a bus that works asks for its gate, then for the time, and when it is
ready the packet is the next thing it sends. -/
def Publishable (bytes : List UInt8) : Prop :=
  8 ≤ bytes.length ∧ bytes.length ≤ packetCapacity ∧ wellFormed bytes = true ∧
    ∀ (b : FirmwareCommands) (log : Trace) (result : Bool) (b' : FirmwareCommands),
      Working b → Awaits (b.records (header bytes).sequence) (header bytes) →
      (publish (.bytes bytes) b).Outcome log (result, b') →
      Begins log fun now rest => Ready b now → ∃ ok later, rest = .call (.publish bytes) ok :: later

/-- The DMA queue frames the bytes: a descriptor of 24 bytes, the bytes, and their length in the buffer
descriptor. -/
def Framed (bytes : List UInt8) : Prop :=
  ∀ source target physical capacity, bytes.length + 24 ≤ capacity →
    dma32Range physical (bytes.length + 24) = true →
    (source + bytes.length ≤ target ∨ target + (bytes.length + 24) ≤ source) →
    ∃ out bd, Queue.encodeCommandDma bytes source target physical capacity = some (out, bd) ∧
      out.length = bytes.length + 24 ∧ out.drop 24 = bytes ∧
      (bd.getD 0 0).toNat + (bd.getD 1 0).toNat * 256 = bytes.length + 24

theorem toNat_store16 (v : UInt16) (rest : List UInt8) :
    ((store16 v ++ rest).getD 0 0).toNat + ((store16 v ++ rest).getD 1 0).toNat * 256 = v.toNat := by
  have hv := v.toNat_lt
  show v.toUInt8.toNat + (v >>> 8).toUInt8.toNat * 256 = v.toNat
  simp [Nat.shiftRight_eq_div_pow]
  omega

theorem readable_packet (hcategory : id.category ≤ 3) (hclass : id.commandClass ≤ 63)
    (hlength : payload.length ≤ 16375) :
    Readable id sequence receiveAck doneAck payload
      (packet id sequence receiveAck doneAck payload) where
  length := length_packet
  lengthField := by
    rw [little32_drop_packet, length_packet]
    exact (word1_fields sequence receiveAck doneAck hlength).1
  header := (header_packet hcategory hclass hlength).1
  body := drop_packet
  event := decodeC2h_packet hcategory hclass hlength

theorem publishable_packet (hcategory : id.category ≤ 3) (hclass : id.commandClass ≤ 63)
    (hlength : payload.length ≤ 16375) :
    Publishable (packet id sequence receiveAck doneAck payload) := by
  have hsize : 8 ≤ (packet id sequence receiveAck doneAck payload).length := by
    simp
  have hfits : (packet id sequence receiveAck doneAck payload).length ≤ packetCapacity := by
    simp [packetCapacity]
    omega
  have hformed : wellFormed (packet id sequence receiveAck doneAck payload) = true :=
    (header_packet hcategory hclass hlength).2
  refine ⟨hsize, hfits, hformed, ?_⟩
  intro b log result b' hb hrecord hout
  exact wp_outcome (@publish_asks b (.bytes (packet id sequence receiveAck doneAck payload)) hb rfl
    hsize hfits hformed hrecord) hout

theorem framed_packet (hlength : payload.length ≤ 16375) :
    Framed (packet id sequence receiveAck doneAck payload) := by
  intro source target physical capacity hcapacity hdma hdisjoint
  rw [length_packet] at hcapacity hdma hdisjoint
  rcases encodeCommandDma_packet id sequence receiveAck doneAck hlength hcapacity hdma hdisjoint with ⟨descriptor, hlen, hframe⟩
  refine ⟨_, _, hframe, ?_, ?_, ?_⟩
  · simp [hlen]
    omega
  · rw [← hlen]
    exact List.drop_left
  · have hbound : (payload.length + 8 + 24).toUInt16.toNat = payload.length + 8 + 24 := by
      simp [Nat.toUInt16]
      omega
    rw [List.append_assoc, toNat_store16, hbound, length_packet]

/-- Encoding succeeds whenever there is room, in place or into another buffer, and the readers agree on
what was written. -/
theorem encodeH2c_agrees (id : CommandId) (sequence : UInt8) (receiveAck doneAck : Bool)
    (payload : List UInt8) (hcategory : id.category ≤ 3) (hclass : id.commandClass ≤ 63)
    (hlength : payload.length ≤ 16375) :
    ∃ bytes,
      (∀ capacity, payload.length + 8 ≤ capacity →
        encodeH2c id sequence receiveAck doneAck payload capacity = some bytes) ∧
      (∀ (m : Bits.Memory) (p : Option ℕ) (out capacity : ℕ), payload.length + 8 ≤ capacity →
        (p = none → payload = []) →
        (∀ q, p = some q → m.load q payload.length = payload ∧
          (q = out ∨ q + payload.length ≤ out ∨ out + payload.length + 8 ≤ q)) →
        ∃ m', encodeH2cAt m id sequence receiveAck doneAck p payload.length (some out) capacity =
            some (payload.length + 8, m') ∧
          m'.load out (payload.length + 8) = bytes ∧
          ∀ a, a < out ∨ out + payload.length + 8 ≤ a → m' a = m a) ∧
      Readable id sequence receiveAck doneAck payload bytes ∧ Publishable bytes ∧ Framed bytes := by
  refine ⟨packet id sequence receiveAck doneAck payload, ?_, ?_,
    readable_packet hcategory hclass hlength, publishable_packet hcategory hclass hlength,
    framed_packet hlength⟩
  · intro capacity hcapacity
    exact encodeH2c_eq hcategory hclass hlength hcapacity
  · intro m p out capacity hcapacity hnull hload
    exact encodeH2cAt_load hcategory hclass hlength hcapacity hnull hload

theorem encodeH2c_agrees_role : ∃ bytes,
    encodeH2c ⟨1, 8, 4⟩ 5 false true [7, 0, 0, 0] 12 = some bytes ∧
      Readable ⟨1, 8, 4⟩ 5 false true [7, 0, 0, 0] bytes ∧ Publishable bytes ∧ Framed bytes := by
  rcases encodeH2c_agrees ⟨1, 8, 4⟩ 5 false true [7, 0, 0, 0] (by decide) (by decide) (by decide) with
    ⟨bytes, hencode, _, hread, hpublish, hframe⟩
  exact ⟨bytes, hencode 12 (by decide), hread, hpublish, hframe⟩

end Commands
end Rtl8852be
