import Rtl8852be.Firmware.Chunks
import Rtl8852be.Firmware.FirmwareBank
import Rtl8852be.Firmware.PacketContents

/-!
# BankContents — what a prepared bank holds

If `prepareBank` says that the bank is ready, every page holds its packet and the ring names the pages.
-/

namespace Rtl8852be
namespace Transport

open Interaction Code Sequence Firmware Network

variable {slots : Slots} {packets : Packets} {src : Source} {cut : UInt8} {i address : ℕ}

abbrev BankTrace := List (Event BankCall BankReply Empty)

/-! ## One step -/

def Stopped (_ : BankTrace) (s : Bank) : Prop := s.result.status ≠ .ready

variable {P S : BankTrace → Bank → Prop}

theorem stage_stopWith {status : BankStatus} (hstatus : status ≠ .ready) :
    Stage P (stopWith status) S Stopped := by
  intro t s _
  simp only [stopWith, wp_modify_bind, wp_pure]
  exact ⟨(by rintro ⟨⟩), fun _ => hstatus⟩

theorem stage_expect {ok : Bool} {status : BankStatus} (hstatus : status ≠ .ready)
    (h : ∀ t s, P t s → ok = true → S t s) : Stage P (expect ok status) S Stopped := by
  refine Triple.ite (fun hok => ?_) fun _ => stage_stopWith hstatus
  exact Triple.pure fun t s hpre => ⟨fun _ => h t s hpre hok, nofun⟩

theorem stage_ask_expect {c : BankCall} {f : BankReply c → Bool} {status : BankStatus}
    (hstatus : status ≠ .ready) (h : ∀ t r s, P t s → S (t ++ [.call c r]) s) :
    Stage P (Code.ask c >>= fun r => expect (f r) status) S Stopped := by
  refine Triple.ask_bind fun r => stage_expect hstatus ?_
  rintro _ s ⟨t, rfl, hpre⟩ _
  exact h t r s hpre

theorem stage_update {f : BankResult → BankResult}
    (h : ∀ t s, P t s → S t { s with result := f s.result }) : Stage P (update f) S Stopped := by
  intro t s hpre
  simp only [update, wp_modify_bind, wp_pure, List.append_nil]
  exact ⟨fun _ => h t s hpre, (by rintro ⟨⟩)⟩

theorem stage_writePage {A : Prop} {slot offset : ℕ} {bytes : List UInt8} :
    Stage (fun _ _ => A) (writePage slot offset bytes) (fun _ _ => A) Stopped := by
  intro t s ha
  simp only [writePage, wp_modify_bind, wp_pure]
  exact ⟨fun _ => ha, (by rintro ⟨⟩)⟩

theorem stage_checkCommand {K : Bank → Prop} :
    Stage (fun _ s => K s) checkCommand (fun _ s => K s) Stopped :=
  stage_ask_expect nofun fun _ _ _ hk => hk

/-! ## Filling the slots -/

/-- The slots before `n` are mapped, each to an address of its own. -/
def Placed (slots : Slots) (n : ℕ) : Prop :=
  ∀ i < n, validMapping (slots.mapping i) = true ∧
    ∀ j < i, (slots.mapping i).address ≠ (slots.mapping j).address

theorem stage_fillPacket {A : Prop} {slot : ℕ} :
    Stage (fun _ _ => A) (fillPacket slots packets slot) (fun _ _ => A) Stopped := by
  refine Triple.get_bind fun s => Triple.mono (P := fun _ _ => A) ?_ (fun _ _ h => h.2) fun _ _ _ h => h
  refine Stages.every (.cons stage_writePage <| .cons (stage_expect nofun fun _ _ h _ => h) <|
    .cons stage_writePage <| .cons (stage_expect nofun fun _ _ h _ => h) <|
    .cons (stage_update fun _ _ h => h) .nil)

theorem stage_fillSlot {slot : ℕ} :
    Stage (fun _ _ => Placed slots slot) (fillSlot slots packets slot)
      (fun _ _ => Placed slots (slot + 1)) Stopped := by
  have hplaced : Placed slots slot → validMapping (slots.mapping slot) = true →
      ((List.range slot).all fun j => (slots.mapping slot).address != (slots.mapping j).address) = true →
      Placed slots (slot + 1) := by
    intro hbefore hvalid hdistinct i hi
    rcases Nat.lt_succ_iff_lt_or_eq.1 hi with hlt | rfl
    · exact hbefore i hlt
    · refine ⟨hvalid, fun j hj => ?_⟩
      exact bne_iff_ne.1 (List.all_eq_true.1 hdistinct j (List.mem_range.2 hj))
  refine Stages.every (.cons (stage_update fun _ _ h => h) <|
    .cons (stage_ask_expect nofun fun _ _ _ h => h) <| .cons (stage_update fun _ _ h => h) <|
    .cons (stage_ask_expect nofun fun _ _ _ h => h) <| .cons (stage_update fun _ _ h => h) <|
    .cons (stage_expect nofun fun _ _ h hvalid => And.intro h hvalid) <|
    .cons (stage_expect nofun fun _ _ h hdistinct => hplaced h.1 h.2 hdistinct) <|
    .cons (stage_expect nofun fun _ _ h _ => h) <| .cons stage_writePage <| .cons ?_ .nil)
  exact Triple.ite (fun _ => stage_update fun _ _ h => h) fun _ => stage_fillPacket

theorem stage_syncSlot {A : Prop} {count slot : ℕ} :
    Stage (fun _ _ => A) (syncSlot count slot) (fun _ _ => A) Stopped :=
  Stages.every (.cons (stage_update fun _ _ h => h) <|
    .cons (stage_ask_expect nofun fun _ _ _ h => h) <| .cons (stage_update fun _ _ h => h) .nil)

/-! ## Reading everything again -/

/-- An entry of the ring names an address and a length. -/
structure BdEncodes (entry : List UInt8) (address length : ℕ) : Prop where
  size : entry.length = 8
  length : (entry.getD 0 0).toNat + 256 * (entry.getD 1 0).toNat = length
  flags : entry.getD 2 0 = 0 ∧ entry.getD 3 0 = 0x40
  address : (little32 (entry.drop 4)).toNat = address

theorem length_encodeBd (address length : ℕ) : (encodeBd address length).2.length = 8 := by
  rw [encodeBd]
  split
  · rfl
  · rfl

theorem bdEncodes_encodeBd {m : Mapping} {length : ℕ} (hm : validMapping m = true) (hpos : 1 ≤ length)
    (hle : length ≤ maxPacketBytes) : BdEncodes (encodeBd m.address length).2 m.address length := by
  simp only [validMapping, pageBytes, Bool.and_eq_true, bne_iff_ne, beq_iff_eq] at hm
  rcases hm with ⟨⟨⟨⟨⟨-, -⟩, -⟩, hzero⟩, -⟩, haddress⟩
  have hbelow := of_decide_eq_true haddress
  rw [maxPacketBytes, txwdBytes, packetBytes] at hle
  have hok : ¬ (length = 0 ∨ 0xffff < length ∨ m.address = 0 ∨ 0xffffffff < m.address ∨
      0x100000000 - m.address < length) := by
    omega
  rw [encodeBd, if_neg hok]
  refine ⟨rfl, ?_, ⟨rfl, rfl⟩, ?_⟩
  · show (UInt8.ofNat length).toNat + 256 * (UInt8.ofNat (length >>> 8)).toNat = length
    rw [UInt8.toNat_ofNat', UInt8.toNat_ofNat', Nat.shiftRight_eq_div_pow]
    omega
  · rw [toNat_little32]
    show (UInt8.ofNat (m.address >>> 0)).toNat + (UInt8.ofNat (m.address >>> 8)).toNat * 256 +
      (UInt8.ofNat (m.address >>> 16)).toNat * 65536 +
      (UInt8.ofNat (m.address >>> 24)).toNat * 16777216 = m.address
    simp only [UInt8.toNat_ofNat', Nat.shiftRight_eq_div_pow]
    omega

/-- A page holds a packet, and the ring names the page. -/
structure SlotHolds (slots : Slots) (pages : ℕ → Page) (slot : ℕ) (packet : List UInt8) : Prop where
  page : (pages slot).bytes = packet ++ List.replicate (pageBytes - packet.length) 0
  entry : slice (pages 0).bytes ((slot - 1) * 8) 8 =
    (encodeBd (slots.mapping slot).address packet.length).2

theorem slotHolds_of_agrees {pages : ℕ → Page} {slot : ℕ} {info : PacketInfo}
    {packet after : List UInt8} (h : slotAgrees slots pages slot info (packet ++ after) = true)
    (hinfo : info.bytes = packet.length) (hle : packet.length ≤ pageBytes)
    (hslot : (slot - 1) * 8 + 8 ≤ pageBytes) : SlotHolds slots pages slot packet := by
  rw [slotAgrees, Bool.and_eq_true, List.all_eq_true, List.all_eq_true] at h
  rcases h with ⟨hpage, hentry⟩
  refine ⟨?_, ?_⟩
  · apply List.ext_getElem
    · rw [(pages slot).sized, List.length_append, List.length_replicate]
      omega
    · intro j hj hj'
      rw [(pages slot).sized] at hj
      have hbyte := beq_iff_eq.1 (hpage j (List.mem_range.2 hj))
      rw [hinfo, List.getD_eq_getElem?_getD, List.getElem?_eq_getElem (by rwa [(pages slot).sized]),
        Option.getD_some] at hbyte
      rw [hbyte]
      by_cases hin : j < packet.length
      · rw [if_pos hin, List.getD_eq_getElem?_getD, List.getElem?_append_left hin,
          List.getElem?_eq_getElem hin, Option.getD_some, List.getElem_append_left hin]
      · rw [if_neg hin, List.getElem_append_right (not_lt.1 hin), List.getElem_replicate]
  · apply List.ext_getElem
    · rw [length_encodeBd, length_slice]
      rw [(pages 0).sized]
      exact hslot
    · intro j hj hj'
      rw [length_encodeBd] at hj'
      have hbyte := beq_iff_eq.1 (hentry j (List.mem_range.2 hj'))
      have hring : (slot - 1) * 8 + j < (pages 0).bytes.length := by
        rw [(pages 0).sized]
        omega
      rw [hinfo, List.getD_eq_getElem?_getD, List.getElem?_eq_getElem hring, Option.getD_some,
        List.getD_eq_getElem?_getD, List.getElem?_eq_getElem (by rwa [length_encodeBd]),
        Option.getD_some] at hbyte
      rw [← hbyte]
      simp only [slice, List.getElem_take, List.getElem_drop]

/-- The packet in slot number `slot`. -/
abbrev slotPacket (src : Source) (packets : Packets) (slot : ℕ) : List UInt8 :=
  packet src.container.bytes packets.layout (slot - 1) 0

theorem Accepted.length_packet (ha : Accepted packets src cut i) {ordinal : ℕ}
    (hk : ordinal < packets.count) (sequence : UInt8) :
    1 ≤ (packet src.container.bytes packets.layout ordinal sequence).length ∧
      (packet src.container.bytes packets.layout ordinal sequence).length ≤ maxPacketBytes := by
  have hbody := ha.length_packetBody hk sequence
  rw [packet, List.length_append, length_descriptor, maxPacketBytes]
  omega

/-- The slots before `n` hold their packets. -/
def Verified (slots : Slots) (src : Source) (packets : Packets) (n : ℕ) (s : Bank) : Prop :=
  ∀ slot, 1 ≤ slot → slot < n → SlotHolds slots s.pages slot (slotPacket src packets slot)

theorem stage_verifyFrom (ha : Accepted packets src cut i) : ∀ (n slot : ℕ) (expected : List UInt8),
    1 ≤ slot → slot + n = packets.count + 1 → expected.length = maxPacketBytes →
    Stage (fun _ s => Verified slots src packets slot s)
      (verifyFrom slots packets address n slot expected)
      (fun _ s => Verified slots src packets (slot + n) s) Stopped := by
  intro n
  induction n with
  | zero =>
      intro slot expected _ _ _
      exact Triple.pure fun t s h => ⟨fun _ => h, nofun⟩
  | succ n ih =>
      intro slot expected hslot hn hlength
      have hcount := ha.count
      have hlt := ha.count_lt
      rw [maxPackets, ringSize] at hlt
      have hk : slot - 1 < packets.count := by omega
      have hpacket : 1 ≤ (slotPacket src packets slot).length ∧
          (slotPacket src packets slot).length ≤ maxPacketBytes := ha.length_packet hk 0
      refine Triple.get_bind fun s => ?_
      rcases ha.encode_cases hk ⟨some address, expected⟩ 0 hlength.ge with
        ⟨status, hstatus, hencode⟩ | ⟨info, hinfo, hencode⟩
      · -- The packet was refused.
        have hencoded : encoded packets (slot - 1) ⟨some address, expected⟩ = (status, {}, expected) := by
          rw [encoded, hencode]
        rw [hencoded]
        refine Stages.every (.cons (S := fun _ _ => True) (stage_update fun _ _ _ => trivial) <|
          .cons (S := fun _ _ => False) (stage_expect nofun fun _ _ _ hok => ?_) <|
          .cons (stage_expect nofun fun _ _ h _ => h) <| .cons (fun _ _ h => h.elim) .nil)
        exact hstatus (of_decide_eq_true hok)
      · have hencoded : encoded packets (slot - 1) ⟨some address, expected⟩ =
            (.ok, info, slotPacket src packets slot ++ expected.drop info.bytes) := by
          rw [encoded, hencode]
        rw [hencoded]
        have hbytes : info.bytes = (slotPacket src packets slot).length := hinfo
        have hlength' : (slotPacket src packets slot ++ expected.drop info.bytes).length =
            maxPacketBytes := by
          rw [List.length_append, List.length_drop, hbytes, hlength]
          omega
        have hrest := ih (slot + 1) _ (by omega) (by omega) hlength'
        rw [show slot + (n + 1) = slot + 1 + n by omega]
        -- The pages are those that were read at the beginning of the round.
        refine Stages.every (.cons
          (S := fun _ x => x.pages = s.pages ∧ Verified slots src packets slot x)
          (stage_update fun _ _ h => ⟨congrArg Bank.pages h.1, h.2⟩) <|
          .cons (stage_expect nofun fun _ _ h _ => h) <|
          .cons (S := fun _ x => Verified slots src packets (slot + 1) x)
            (stage_expect nofun fun _ x h hagrees => ?_) <| .cons hrest .nil)
        have hholds := slotHolds_of_agrees hagrees hbytes
          (by rw [maxPacketBytes, txwdBytes, packetBytes] at hpacket; rw [pageBytes]; omega)
          (by rw [pageBytes]; omega)
        intro slot' hpos hlt'
        rcases Nat.lt_succ_iff_lt_or_eq.1 hlt' with hbefore | rfl
        · exact h.2 slot' hpos hbefore
        · rw [h.1]
          exact hholds

/-! ## A bank that is ready -/

structure BankReady (slots : Slots) (src : Source) (packets : Packets) (s : Bank) : Prop where
  page : ∀ slot, 1 ≤ slot → slot ≤ packets.count → (s.pages slot).bytes =
    slotPacket src packets slot ++
      List.replicate (pageBytes - (slotPacket src packets slot).length) 0
  entry : ∀ slot, 1 ≤ slot → slot ≤ packets.count →
    BdEncodes (slice (s.pages 0).bytes ((slot - 1) * 8) 8) (slots.mapping slot).address
      (slotPacket src packets slot).length
  tail : ∀ j, packets.count * 8 ≤ j → j < pageBytes → (s.pages 0).bytes.getD j 0 = 0
  distinct : ∀ a b, 1 ≤ a → a ≤ packets.count → 1 ≤ b → b ≤ packets.count → a ≠ b →
    (slots.mapping a).address ≠ (slots.mapping b).address

theorem Placed.distinct {n : ℕ} (h : Placed slots n) {a b : ℕ} (ha : a < n) (hb : b < n) (hne : a ≠ b) :
    (slots.mapping a).address ≠ (slots.mapping b).address := by
  rcases Nat.lt_or_gt_of_ne hne with hlt | hlt
  · exact ((h b hb).2 a hlt).symm
  · exact (h a ha).2 b hlt

/-- What is known when the pages have been read again. -/
structure BankChecked (slots : Slots) (src : Source) (packets : Packets) (s : Bank) : Prop where
  verified : Verified slots src packets (packets.count + 1) s
  placed : Placed slots (packets.count + 1)
  tail : ∀ j, packets.count * 8 ≤ j → j < pageBytes → (s.pages 0).bytes.getD j 0 = 0

theorem BankChecked.ready {s : Bank} (hc : BankChecked slots src packets s)
    (ha : Accepted packets src cut i) : BankReady slots src packets s where
  page := by
    intro slot hpos hle
    exact (hc.verified slot hpos (Nat.lt_succ_of_le hle)).page
  entry := by
    intro slot hpos hle
    have hlt : slot - 1 < packets.count := by omega
    have hpacket := ha.length_packet hlt 0
    rw [(hc.verified slot hpos (Nat.lt_succ_of_le hle)).entry]
    exact bdEncodes_encodeBd (hc.placed slot (Nat.lt_succ_of_le hle)).1 hpacket.1 hpacket.2
  tail := hc.tail
  distinct := by
    intro a b _ ha' _ hb hne
    exact hc.placed.distinct (Nat.lt_succ_of_le ha') (Nat.lt_succ_of_le hb) hne

theorem stage_verifyTail :
    Stage (fun _ s => Placed slots (packets.count + 1) ∧ Verified slots src packets (packets.count + 1) s)
      (verifyTail packets.count) (fun _ s => BankChecked slots src packets s) Stopped := by
  refine Triple.get_bind fun x => stage_expect nofun ?_
  rintro _ s ⟨rfl, hplaced, hverified⟩ htail
  refine ⟨hverified, hplaced, fun j hle hlt => ?_⟩
  rw [List.all_eq_true] at htail
  exact beq_iff_eq.1 (htail j (List.mem_range'_1.2 ⟨hle, by omega⟩))

theorem stages_bank (ha : Accepted packets src cut i) :
    Stages Stopped (fun _ s => s.result.status ≠ .ready) (bankSteps slots packets address)
      fun _ s => BankChecked slots src packets s := by
  have hfill : Stages Stopped (fun _ _ => Placed slots 0)
      ((List.range (packets.count + 1)).map (fillSlot slots packets))
      (fun _ _ => Placed slots (packets.count + 1)) :=
    Stages.range (I := fun n _ _ => Placed slots n) fun n _ => stage_fillSlot
  have hsync : Stages Stopped (fun _ _ => Placed slots (packets.count + 1))
      ((List.range (packets.count + 1)).map (syncSlot packets.count))
      (fun _ _ => Placed slots (packets.count + 1)) :=
    Stages.range (I := fun _ _ _ => Placed slots (packets.count + 1)) fun _ _ => stage_syncSlot
  have hverify : Stage (fun _ s => Verified slots src packets 1 s)
      (verifyFrom slots packets address packets.count 1 (List.replicate maxPacketBytes 0))
      (fun _ s => Verified slots src packets (1 + packets.count) s) Stopped :=
    stage_verifyFrom ha packets.count 1 _ le_rfl (Nat.add_comm 1 _) List.length_replicate
  have hkeep := hverify.keep (A := Placed slots (packets.count + 1))
  refine Stages.append (Stages.append (.cons ?_ hfill) hsync) (.cons (hkeep.mono ?_ ?_) <|
    .cons stage_verifyTail <| .cons stage_checkCommand <|
    .cons (stage_update fun _ _ h => ⟨h.verified, h.placed, h.tail⟩) .nil)
  · exact stage_ask_expect nofun fun _ _ _ _ => nofun
  · intro _ _ h
    refine ⟨h, fun slot hpos hlt => ?_⟩
    omega
  · rintro _ s ⟨hplaced, hverified⟩
    rw [Nat.add_comm] at hverified
    exact ⟨hplaced, hverified⟩

theorem prepareBank_ready (ha : Accepted packets src cut i) {pages : ℕ → Page} {log : BankTrace}
    {r : BankResult} {s' : Bank}
    (hout : (prepareBank slots packets address { pages := pages }).Outcome log (r, s'))
    (hready : r.status = .ready) : BankReady slots src packets s' := by
  have htriple : Triple (fun _ s => s.result.status ≠ .ready) (prepareBank slots packets address)
      fun _ r s => r.status = .ready → BankReady slots src packets s := by
    intro t s hstatus
    simp only [prepareBank, wp_modify_bind]
    rw [wp_ite]
    refine ⟨fun _ => ?_, fun _ => ?_⟩
    · simp only [wp_modify_bind, wp_get_bind, wp_pure]
      rintro ⟨⟩
    · rw [wp_bind]
      refine wp_mono ((stages_bank ha).every t _ hstatus) fun log ok s' hpost => ?_
      simp only [wp_get_bind, wp_pure]
      intro hready
      cases ok with
      | true => exact (hpost.1 rfl).ready ha
      | false => exact absurd hready (hpost.2 rfl)
  have hfresh : ({ pages := pages } : Bank).result.status ≠ .ready := BankStatus.noConfusion
  exact htriple.outcome hfresh hout hready

/-- The packets of an accepted container, one by one and in memory. -/
structure PacketsAgree (src : Source) (packets : Packets) : Prop where
  encode : ∀ out dst, Suitable out src dst → ∀ sequence ordinal, ∃ status info contents,
    packets.encode ordinal out sequence = .ok (status, info, contents) ∧
      (status = .ok ↔ ordinal < packets.count) ∧
      (status = .ok →
        info.bytes = (packet src.container.bytes packets.layout ordinal sequence).length ∧
        contents = packet src.container.bytes packets.layout ordinal sequence ++
          out.contents.drop info.bytes)
  sections : ∀ sequence, (List.range' 1 (packets.count - 1)).flatMap
      (fun ordinal => packetBody src.container.bytes packets.layout ordinal sequence) =
    slice src.container.bytes (packets.layout.imageOffset + packets.layout.headerBytes)
      (packets.layout.imageBytes - packets.layout.headerBytes)
  header : ∀ sequence, HeaderPacket src.container.bytes packets.layout
    (packetBody src.container.bytes packets.layout 0 sequence)
  descriptor : ∀ ordinal < packets.count, ∀ sequence, DescribesBody (ordinal = 0)
    (packet src.container.bytes packets.layout ordinal sequence)
    (packetBody src.container.bytes packets.layout ordinal sequence)
  bank : ∀ slots address pages log r s',
    (prepareBank slots packets address { pages := pages }).Outcome log (r, s') → r.status = .ready →
      BankReady slots src packets s'

theorem packets_agree {source : Option Source} {packets : Packets} {cut : UInt8}
    (hinit : initializePackets source cut = .ok (.ok, packets)) :
    ∃ src, source = some src ∧ parse (some src.container) cut = .ok (.ok, packets.layout) ∧
      PacketsAgree src packets := by
  rcases initializePackets_ok hinit with ⟨src, i, rfl, hparse, ha⟩
  refine ⟨src, rfl, hparse, ?_, ha.sections, ha.headerPacket, ?_, ?_⟩
  · intro out dst hout sequence ordinal
    exact ha.encode_suitable hout sequence ordinal
  · intro ordinal hk sequence
    have hbody := ha.length_packetBody hk sequence
    rw [packetBytes] at hbody
    exact describesBody (by omega)
  · intro slots address pages log r s' hout hready
    exact prepareBank_ready ha hout hready

/-- The packets of the container with one section. -/
def smallPackets : Packets where
  source := some ⟨soleContainer, 0x1000⟩
  layout := {
    imageOffset := 32, imageBytes := 52, headerBytes := 48, baseHeaderBytes := 48, packetCount := 1
    cut := 1, type := 5, sectionCount := 1, valid := true
    sections := [{ offset := 80, payloadBytes := 4, transferBytes := 4, metadata := 0x1000004, type := 1 }] }
  layoutStatus := .ok

theorem packets_agree_small : PacketsAgree ⟨soleContainer, 0x1000⟩ smallPackets := by
  have hinit : initializePackets (some ⟨soleContainer, 0x1000⟩) 1 = .ok (.ok, smallPackets) := by
    decide +kernel
  rcases packets_agree hinit with ⟨src, hsrc, -, hagree⟩
  rcases Option.some.inj hsrc with rfl
  exact hagree

end Transport
end Rtl8852be
