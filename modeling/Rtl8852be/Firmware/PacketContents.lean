import Rtl8852be.Firmware.FirmwarePackets
import Rtl8852be.Firmware.Chunks

/-!
# PacketContents — what the packets of a firmware image say

Every packet is a descriptor followed by a body.  The bodies of the section packets are the chunks of the
plan, that of packet 0 is the header of the image behind a command header.
-/

namespace Rtl8852be
namespace Transport

open Checked Sequence Firmware Network

variable {data rest : List UInt8} {cut sequence : UInt8} {plan : Plan} {payload k : ℕ}

/-! ## Bodies and descriptors -/

/-- The header of the image, with the packet size in the low half of word 7. -/
def imageHeader (data : List UInt8) (plan : Plan) : List UInt8 :=
  slice data plan.imageOffset 28 ++
    (store32 ((word data (plan.imageOffset + 28) &&& 0xffff0000) ||| UInt32.ofNat packetBytes) ++
      slice data (plan.imageOffset + 32) (plan.baseHeaderBytes - 32))

def headerBody (data : List UInt8) (plan : Plan) (sequence : UInt8) : List UInt8 :=
  store32 ((0x0d : UInt32) ||| (sequence.toUInt32 <<< 24)) ++
    (store32 (UInt32.ofNat (h2cBytes + plan.baseHeaderBytes)) ++ imageHeader data plan)

/-- The sequence number in the descriptor of a packet with this body. -/
def bodySequence (body : List UInt8) : UInt32 :=
  if 24 ≤ body.length then
    ((body.getD 22 0).toUInt32 ||| ((body.getD 23 0).toUInt32 <<< 8)) >>> 4
  else
    0

/-- The first word of a descriptor: DMA channel 12, and the `FW_DL` bit of a section packet. -/
def descriptorWord (header : Bool) : UInt32 := ((12 : UInt32) <<< 16) ||| if header then 0 else 0x100000

def descriptor (header : Bool) (body : List UInt8) : List UInt8 :=
  store32 (descriptorWord header) ++ (List.replicate 4 0 ++ (store32 (UInt32.ofNat body.length) ++
    (store32 (bodySequence body) ++ List.replicate 8 0)))

theorem length_descriptor (header : Bool) (body : List UInt8) :
    (descriptor header body).length = txwdBytes := rfl

theorem length_imageHeader (hp : 32 ≤ plan.baseHeaderBytes)
    (hinside : plan.imageOffset + plan.baseHeaderBytes ≤ data.length) :
    (imageHeader data plan).length = plan.baseHeaderBytes := by
  rw [imageHeader, List.length_append, List.length_append, length_store32, length_slice (by omega),
    length_slice (by omega)]
  omega

theorem copyFrom_eq {offset n : ℕ} (h : offset + n ≤ data.length) :
    copyFrom data offset n = pure (slice data offset n) := if_pos h

variable {body front : List UInt8}

theorem writeChunk_eq {c : Chunk} (hfront : front.length = txwdBytes) (hinside : c.offset + c.bytes ≤ data.length) :
    writeChunk data c (front ++ (List.replicate c.bytes 0 ++ rest)) =
      pure (front ++ (slice data c.offset c.bytes ++ rest)) := by
  rw [writeChunk, copyFrom_eq hinside, pure_bind, overwrite_block hfront.symm]
  rw [length_slice hinside, List.length_replicate]

theorem little32_slice {offset : ℕ} (h : offset + 4 ≤ data.length) :
    little32 (slice data offset 4 ++ rest) = word data offset := by
  have hget : ∀ i < 4, (slice data offset 4 ++ rest).getD i 0 = (data.drop offset).getD i 0 := by
    intro i hi
    have hlength : i < (slice data offset 4).length := by
      rw [length_slice h]
      exact hi
    rw [List.getD_eq_getElem?_getD, List.getD_eq_getElem?_getD, List.getElem?_append_left hlength, slice,
      List.getElem?_take_of_lt hi]
  rw [word, little32, little32, hget 0 (by decide), hget 1 (by decide), hget 2 (by decide),
    hget 3 (by decide)]

theorem slice_header (hbase : 32 ≤ plan.baseHeaderBytes) :
    slice data plan.imageOffset plan.baseHeaderBytes = slice data plan.imageOffset 28 ++
      (slice data (plan.imageOffset + 28) 4 ++
        slice data (plan.imageOffset + 32) (plan.baseHeaderBytes - 32)) := by
  have hword := slice_append data (plan.imageOffset + 28) 4 (plan.baseHeaderBytes - 32)
  rw [Nat.add_assoc] at hword
  rw [hword, slice_append]
  congr 1
  omega

theorem writeHeader_eq (hfront : front.length = txwdBytes) (hbase : 32 ≤ plan.baseHeaderBytes)
    (hinside : plan.imageOffset + plan.baseHeaderBytes ≤ data.length) :
    writeHeader plan data (h2cBytes + plan.baseHeaderBytes) sequence
        (front ++ (List.replicate (h2cBytes + plan.baseHeaderBytes) 0 ++ rest)) =
      pure (front ++ (headerBody data plan sequence ++ rest)) := by
  have hzeros : List.replicate (h2cBytes + plan.baseHeaderBytes) (0 : UInt8) =
      List.replicate 4 0 ++ (List.replicate 4 0 ++ List.replicate plan.baseHeaderBytes 0) := by
    rw [List.replicate_append_replicate, List.replicate_append_replicate, h2cBytes]
    congr 1
    omega
  set w0 := store32 ((0x0d : UInt32) ||| (sequence.toUInt32 <<< 24)) with hw0
  set w1 := store32 (UInt32.ofNat (h2cBytes + plan.baseHeaderBytes)) with hw1
  have hlen0 : w0.length = 4 := rfl
  have hlen1 : w1.length = 4 := rfl
  rw [writeHeader, hzeros, copyFrom_eq hinside, pure_bind]
  simp only [List.append_assoc]
  rw [overwrite_block hfront.symm (by rw [hlen0, List.length_replicate])]
  rw [← List.append_assoc front w0, overwrite_block (by rw [List.length_append, hlen0, hfront])
    (by rw [hlen1, List.length_replicate])]
  rw [← List.append_assoc (front ++ w0) w1, overwrite_block
    (by rw [List.length_append, List.length_append, hlen0, hlen1, hfront]; rfl)
    (by rw [length_slice hinside, List.length_replicate]), slice_header hbase]
  -- What comes before word 7 of the image.
  have hbefore : (front ++ w0 ++ w1 ++ slice data plan.imageOffset 28).length =
      txwdBytes + h2cBytes + 28 := by
    rw [List.length_append, List.length_append, List.length_append, hfront, hlen0, hlen1,
      length_slice (by omega)]
    rfl
  have hsplit : front ++ w0 ++ w1 ++ (slice data plan.imageOffset 28 ++
      (slice data (plan.imageOffset + 28) 4 ++
        slice data (plan.imageOffset + 32) (plan.baseHeaderBytes - 32)) ++ rest) =
      front ++ w0 ++ w1 ++ slice data plan.imageOffset 28 ++
        (slice data (plan.imageOffset + 28) 4 ++
          (slice data (plan.imageOffset + 32) (plan.baseHeaderBytes - 32) ++ rest)) := by
    simp only [List.append_assoc]
  rw [hsplit, List.drop_left' hbefore, little32_slice (by omega), overwrite_block hbefore.symm
    (by rw [length_store32, length_slice (by omega)])]
  simp only [headerBody, imageHeader, List.append_assoc, hw0, hw1]

theorem softwareSequence_eq (hfront : front.length = txwdBytes) :
    softwareSequence body.length (front ++ (body ++ rest)) = bodySequence body := by
  rw [softwareSequence, bodySequence]
  by_cases hlong : 24 ≤ body.length
  · have hget : ∀ i < 24, (front ++ (body ++ rest)).getD (txwdBytes + i) 0 = body.getD i 0 := by
      intro i hi
      rw [List.getD_eq_getElem?_getD, List.getD_eq_getElem?_getD, ← hfront,
        List.getElem?_append_right (Nat.le_add_right _ _), Nat.add_sub_cancel_left,
        List.getElem?_append_left (by omega)]
    rw [if_pos hlong, if_pos hlong, hget 22 (by decide), hget 23 (by decide)]
  · rw [if_neg hlong, if_neg hlong]

theorem writeDescriptor_eq {header : Bool} :
    writeDescriptor header body.length (List.replicate txwdBytes 0 ++ (body ++ rest)) =
      descriptor header body ++ (body ++ rest) := by
  set w0 := store32 (descriptorWord header) with hw0
  set w2 := store32 (UInt32.ofNat body.length) with hw2
  have hzeros : List.replicate txwdBytes (0 : UInt8) = List.replicate 4 0 ++ (List.replicate 4 0 ++
      (List.replicate 4 0 ++ (List.replicate 4 0 ++ List.replicate 8 0))) := rfl
  have hfirst : overwrite (List.replicate txwdBytes 0 ++ (body ++ rest)) 0 w0 =
      (w0 ++ List.replicate 4 0) ++ (List.replicate 4 0 ++
        (List.replicate 4 0 ++ (List.replicate 8 0 ++ (body ++ rest)))) := by
    rw [hzeros, List.append_assoc, overwrite_zero (by rfl)]
    simp only [List.append_assoc]
  have hsecond : overwrite ((w0 ++ List.replicate 4 0) ++ (List.replicate 4 0 ++
      (List.replicate 4 0 ++ (List.replicate 8 0 ++ (body ++ rest))))) 8 w2 =
      (w0 ++ List.replicate 4 0 ++ w2) ++ (List.replicate 4 0 ++
        (List.replicate 8 0 ++ (body ++ rest))) := by
    rw [overwrite_block (by rfl) (by rfl), List.append_assoc (w0 ++ List.replicate 4 0)]
  have hsequence : softwareSequence body.length ((w0 ++ List.replicate 4 0 ++ w2) ++
      (List.replicate 4 0 ++ (List.replicate 8 0 ++ (body ++ rest)))) = bodySequence body := by
    have hsplit : (w0 ++ List.replicate 4 0 ++ w2) ++ (List.replicate 4 0 ++
        (List.replicate 8 0 ++ (body ++ rest))) =
        (w0 ++ List.replicate 4 0 ++ w2 ++ List.replicate 4 0 ++ List.replicate 8 0) ++
          (body ++ rest) := by
      simp only [List.append_assoc]
    rw [hsplit, softwareSequence_eq (by rfl)]
  have hwords : writeDescriptor header body.length (List.replicate txwdBytes 0 ++ (body ++ rest)) =
      overwrite (overwrite (overwrite (List.replicate txwdBytes 0 ++ (body ++ rest)) 0 w0) 8 w2) 12
        (store32 (softwareSequence body.length
          (overwrite (overwrite (List.replicate txwdBytes 0 ++ (body ++ rest)) 0 w0) 8 w2))) := rfl
  rw [hwords, hfirst, hsecond, hsequence, overwrite_block (by rfl) (by rfl), descriptor]
  simp only [List.append_assoc, hw0, hw2]

/-! ## Packets -/

def packetBody (data : List UInt8) (plan : Plan) (ordinal : ℕ) (sequence : UInt8) : List UInt8 :=
  if ordinal = 0 then headerBody data plan sequence else chunkBytes data plan (ordinal - 1)

def packet (data : List UInt8) (plan : Plan) (ordinal : ℕ) (sequence : UInt8) : List UInt8 :=
  descriptor (ordinal = 0) (packetBody data plan ordinal sequence) ++
    packetBody data plan ordinal sequence

/-- The packets of a container that `initialize` has accepted. -/
structure Accepted (p : Packets) (source : Source) (cut : UInt8) (i : ℕ) : Prop where
  source_eq : p.source = some source
  parsed : Parsed source.container.bytes cut i p.layout
  count_pos : 0 < p.layout.packetCount
  count_lt : p.layout.packetCount < maxPackets

theorem initializePackets_ok {source : Option Source} {p : Packets}
    (h : initializePackets source cut = .ok (.ok, p)) :
    ∃ src i, source = some src ∧ parse (some src.container) cut = .ok (.ok, p.layout) ∧
      Accepted p src cut i := by
  rw [initializePackets] at h
  rcases parse_cases (source.map Source.container) cut with
    ⟨status, hstatus, hparse⟩ | ⟨c, plan, hc, hparse, i, hp⟩
  · rw [hparse] at h
    have hout : (.ok (PacketStatus.layoutError, ({ layout := {}, layoutStatus := status } : Packets)) :
        Reader Empty (PacketStatus × Packets)) = .ok (.ok, p) := by
      rw [← h]
      exact (if_pos hstatus).symm
    cases hout
  · rw [hparse] at h
    rcases Option.map_eq_some_iff.1 hc with ⟨src, rfl, rfl⟩
    by_cases hmany : plan.packetCount = 0 ∨ maxPackets ≤ plan.packetCount
    · have hout : (.ok (PacketStatus.tooManyPackets, ({ layoutStatus := .ok } : Packets)) :
          Reader Empty (PacketStatus × Packets)) = .ok (.ok, p) := by
        rw [← h]
        exact (if_pos hmany).symm
      cases hout
    · have hout : (.ok (PacketStatus.ok, ({ source := some src, layout := plan, layoutStatus := .ok } :
          Packets)) : Reader Empty (PacketStatus × Packets)) = .ok (.ok, p) := by
        rw [← h]
        exact (if_neg hmany).symm
      cases hout
      rw [not_or] at hmany
      exact ⟨src, i, rfl, hparse, rfl, hp, Nat.pos_of_ne_zero hmany.1, not_le.1 hmany.2⟩

variable {p : Packets} {src : Source} {i ordinal : ℕ}

theorem Accepted.count (ha : Accepted p src cut i) : p.count = p.layout.packetCount + 1 := by
  rw [Packets.count, ha.source_eq]
  rfl

theorem Accepted.header (ha : Accepted p src cut i) : 32 ≤ p.layout.baseHeaderBytes ∧
    p.layout.baseHeaderBytes ≤ 192 ∧
    p.layout.imageOffset + p.layout.baseHeaderBytes ≤ src.container.bytes.length := by
  have hbase := ha.parsed.base
  have hcount := ha.parsed.sectionCount.2
  have hle := ha.parsed.base_le
  have hheader := ha.parsed.header_le
  have hinside := ha.parsed.inside
  rw [maxSections] at hcount
  omega

theorem Accepted.chunk_inside (ha : Accepted p src cut i) {c : Chunk} (hc : c ∈ chunks p.layout) :
    1 ≤ c.bytes ∧ c.bytes ≤ packetBytes ∧ c.offset + c.bytes ≤ src.container.bytes.length := by
  rcases mem_chunksFrom hc with ⟨hpos, hle, -, s, hs, -, hend⟩
  have htile := (tiles_mem ha.parsed.tiles).2 s (List.mem_of_getElem? hs)
  have hinside := ha.parsed.inside
  omega

theorem encodeChunk_ok (header : Bool) (c : Chunk) {out : Output} {dst : ℕ}
    (hlength : body.length = if header then h2cBytes + p.layout.baseHeaderBytes else c.bytes)
    (hwrite : ∀ front rest : List UInt8, front.length = txwdBytes →
      writeBody p.layout src.container.bytes header c body.length sequence
        (front ++ (List.replicate body.length 0 ++ rest)) = pure (front ++ (body ++ rest)))
    (hout : out.address = some dst) (hsmall : body.length ≤ packetBytes)
    (hroom : txwdBytes + body.length ≤ out.contents.length)
    (hapart : meets dst src.address src.container.bytes.length (txwdBytes + body.length) = false) :
    ∃ info, info.bytes = txwdBytes + body.length ∧
      p.encodeChunk src header c out sequence =
        pure (.ok, info, descriptor header body ++ (body ++ out.contents.drop info.bytes)) := by
  have hfits : ¬ (out.contents.length < txwdBytes + body.length ∨
      maxPacketBytes < txwdBytes + body.length) := by
    rw [maxPacketBytes]
    omega
  have hzeroed : overwrite out.contents 0 (List.replicate (txwdBytes + body.length) 0) =
      List.replicate txwdBytes 0 ++ (List.replicate body.length 0 ++
        out.contents.drop (txwdBytes + body.length)) := by
    have hsplit := List.take_append_drop (txwdBytes + body.length) out.contents
    rw [← List.append_assoc, List.replicate_append_replicate]
    nth_rewrite 1 [← hsplit]
    rw [overwrite_zero]
    rw [List.length_replicate, List.length_take, Nat.min_eq_left hroom]
  rw [Packets.encodeChunk]
  simp only [← hlength, hout]
  refine ⟨{
    bytes := txwdBytes + body.length, payloadBytes := body.length
    sourceOffset := if header then p.layout.imageOffset else c.offset
    sectionIndex := if header then 0 else c.sectionIndex, header := header }, rfl, ?_⟩
  rw [if_neg hfits, hapart, if_neg Bool.false_ne_true, hzeroed,
    hwrite (List.replicate txwdBytes 0) _ List.length_replicate, pure_bind, writeDescriptor_eq]

theorem Accepted.length_chunks (ha : Accepted p src cut i) :
    (chunks p.layout).length = p.layout.packetCount := by
  rw [chunks, length_chunksFrom, ha.parsed.packetCount]

theorem Accepted.found (ha : Accepted p src cut i) {k : ℕ} (hk : k < p.layout.packetCount) :
    ∃ c ∈ chunks p.layout, chunkAt p.layout k = .ok (some c) ∧
      chunkBytes src.container.bytes p.layout k = slice src.container.bytes c.offset c.bytes := by
  have hlt : k < (chunks p.layout).length := by rwa [ha.length_chunks]
  have hfound : chunkAt p.layout k = .ok (some (chunks p.layout)[k]) := by
    rw [chunkAt_eq ha.parsed src.container.addressable, List.getElem?_eq_getElem hlt]
  exact ⟨(chunks p.layout)[k], List.getElem_mem hlt, hfound, by rw [chunkBytes, hfound]⟩

theorem Accepted.length_headerBody (ha : Accepted p src cut i) (sequence : UInt8) :
    (headerBody src.container.bytes p.layout sequence).length =
      h2cBytes + p.layout.baseHeaderBytes := by
  rcases ha.header with ⟨hbase, -, hinside⟩
  rw [headerBody, List.length_append, List.length_append, length_store32, length_store32,
    length_imageHeader hbase hinside, h2cBytes]
  omega

theorem Accepted.length_packetBody (ha : Accepted p src cut i) (hk : ordinal < p.count)
    (sequence : UInt8) :
    1 ≤ (packetBody src.container.bytes p.layout ordinal sequence).length ∧
      (packetBody src.container.bytes p.layout ordinal sequence).length ≤ packetBytes := by
  rw [packetBody]
  by_cases hzero : ordinal = 0
  · rw [if_pos hzero, ha.length_headerBody, h2cBytes, packetBytes]
    have hheader := ha.header
    omega
  · rw [ha.count] at hk
    have hlt : ordinal - 1 < p.layout.packetCount := by omega
    rcases ha.found hlt with ⟨c, hc, -, hbytes⟩
    have hinside := ha.chunk_inside hc
    rw [if_neg hzero, hbytes, length_slice hinside.2.2]
    exact ⟨hinside.1, hinside.2.1⟩

theorem meets_eq_false {dst address size length capacity : ℕ} (hlength : 0 < length)
    (hle : length ≤ capacity) (h : dst + capacity ≤ address ∨ address + size ≤ dst) :
    meets dst address size length = false := by
  rw [meets]
  split
  · rw [decide_eq_false_iff_not]
    omega
  · rw [decide_eq_false_iff_not]
    omega

/-- Every packet can be encoded into a buffer that is large enough and apart from the container. -/
theorem Accepted.encode (ha : Accepted p src cut i) (hk : ordinal < p.count) {out : Output} {dst : ℕ}
    (hout : out.address = some dst) (hroom : maxPacketBytes ≤ out.contents.length)
    (hapart : meets dst src.address src.container.bytes.length
      (txwdBytes + (packetBody src.container.bytes p.layout ordinal sequence).length) = false) :
    ∃ info, info.bytes = (packet src.container.bytes p.layout ordinal sequence).length ∧
      p.encode ordinal out sequence = .ok (.ok, info,
        packet src.container.bytes p.layout ordinal sequence ++ out.contents.drop info.bytes) := by
  have hsmall := (ha.length_packetBody hk sequence).2
  have hlength : (packet src.container.bytes p.layout ordinal sequence).length =
      txwdBytes + (packetBody src.container.bytes p.layout ordinal sequence).length := by
    rw [packet, List.length_append, length_descriptor]
  have hfits : txwdBytes + (packetBody src.container.bytes p.layout ordinal sequence).length ≤
      out.contents.length := by
    rw [maxPacketBytes] at hroom
    omega
  rw [Packets.encode, ha.source_eq]
  simp only
  rw [if_neg (not_le.2 hk), Packets.chunk]
  by_cases hzero : ordinal = 0
  · rcases ha.header with ⟨hbase, -, hinside⟩
    have hbody : packetBody src.container.bytes p.layout ordinal sequence =
        headerBody src.container.bytes p.layout sequence := if_pos hzero
    have hheader := ha.length_headerBody sequence
    rw [hbody] at hsmall hfits hapart hlength
    have hwrite : ∀ front rest : List UInt8, front.length = txwdBytes →
        writeBody p.layout src.container.bytes true {}
          (headerBody src.container.bytes p.layout sequence).length sequence
          (front ++ (List.replicate (headerBody src.container.bytes p.layout sequence).length 0 ++ rest)) =
          pure (front ++ (headerBody src.container.bytes p.layout sequence ++ rest)) := by
      intro front rest hfront
      rw [hheader]
      exact writeHeader_eq hfront hbase hinside
    rcases encodeChunk_ok true {} hheader hwrite hout hsmall hfits hapart with ⟨info, hinfo, hencoded⟩
    refine ⟨info, hinfo.trans hlength.symm, ?_⟩
    rw [if_pos hzero, pure_bind]
    show p.encodeChunk src (decide (ordinal = 0)) {} out sequence = _
    rw [decide_eq_true hzero, hencoded, packet, hbody, decide_eq_true hzero, List.append_assoc]
    rfl
  · have hbody : packetBody src.container.bytes p.layout ordinal sequence =
        chunkBytes src.container.bytes p.layout (ordinal - 1) := if_neg hzero
    have hlt : ordinal - 1 < p.layout.packetCount := by
      rw [ha.count] at hk
      omega
    rcases ha.found hlt with ⟨c, hc, hfound, hbytes⟩
    have hinside := (ha.chunk_inside hc).2.2
    have hchunk : (slice src.container.bytes c.offset c.bytes).length = c.bytes := length_slice hinside
    rw [hbody, hbytes] at hsmall hfits hapart hlength
    have hwrite : ∀ front rest : List UInt8, front.length = txwdBytes →
        writeBody p.layout src.container.bytes false c
          (slice src.container.bytes c.offset c.bytes).length sequence
          (front ++ (List.replicate (slice src.container.bytes c.offset c.bytes).length 0 ++ rest)) =
          pure (front ++ (slice src.container.bytes c.offset c.bytes ++ rest)) := by
      intro front rest hfront
      rw [hchunk]
      exact writeChunk_eq hfront hinside
    rcases encodeChunk_ok false c hchunk hwrite hout hsmall hfits hapart with ⟨info, hinfo, hencoded⟩
    refine ⟨info, hinfo.trans hlength.symm, ?_⟩
    rw [if_neg hzero, hfound]
    show p.encodeChunk src (decide (ordinal = 0)) c out sequence = _
    rw [decide_eq_false hzero, hencoded, packet, hbody, hbytes, decide_eq_false hzero, List.append_assoc]
    rfl

/-- `encode` refuses, or the output is there and apart from the container. -/
theorem encodeChunk_cases (header : Bool) (c : Chunk) (out : Output) {length : ℕ}
    (hlength : length = if header then h2cBytes + p.layout.baseHeaderBytes else c.bytes) :
    (∃ status, status ≠ .ok ∧ p.encodeChunk src header c out sequence =
        pure (status, {}, out.contents)) ∨
      ∃ dst, out.address = some dst ∧
        meets dst src.address src.container.bytes.length (txwdBytes + length) = false := by
  rw [Packets.encodeChunk]
  simp only [← hlength]
  cases out.address with
  | none => exact Or.inl ⟨.smallBuffer, nofun, rfl⟩
  | some dst =>
      by_cases hroom : out.contents.length < txwdBytes + length ∨ maxPacketBytes < txwdBytes + length
      · exact Or.inl ⟨.smallBuffer, nofun, if_pos hroom⟩
      cases hmeets : meets dst src.address src.container.bytes.length (txwdBytes + length) with
      | true => exact Or.inl ⟨.overlap, nofun, (if_neg hroom).trans (if_pos hmeets)⟩
      | false => exact Or.inr ⟨dst, rfl, hmeets⟩

theorem Accepted.encode_cases (ha : Accepted p src cut i) (hk : ordinal < p.count) (out : Output)
    (sequence : UInt8) (hroom : maxPacketBytes ≤ out.contents.length) :
    (∃ status, status ≠ .ok ∧ p.encode ordinal out sequence = .ok (status, {}, out.contents)) ∨
      ∃ info, info.bytes = (packet src.container.bytes p.layout ordinal sequence).length ∧
        p.encode ordinal out sequence = .ok (.ok, info,
          packet src.container.bytes p.layout ordinal sequence ++ out.contents.drop info.bytes) := by
  -- The length of the packet is known before the buffer is looked at.
  have hknown : ∃ c, p.chunk ordinal = .ok (some c) ∧
      (packetBody src.container.bytes p.layout ordinal sequence).length =
        if decide (ordinal = 0) = true then h2cBytes + p.layout.baseHeaderBytes else c.bytes := by
    by_cases hzero : ordinal = 0
    · refine ⟨{}, if_pos hzero, ?_⟩
      rw [decide_eq_true hzero, if_pos rfl, packetBody, if_pos hzero, ha.length_headerBody]
    · have hlt : ordinal - 1 < p.layout.packetCount := by
        rw [ha.count] at hk
        omega
      rcases ha.found hlt with ⟨c, hc, hfound, hbytes⟩
      refine ⟨c, (if_neg hzero).trans hfound, ?_⟩
      rw [decide_eq_false hzero, if_neg Bool.false_ne_true, packetBody, if_neg hzero, hbytes,
        length_slice (ha.chunk_inside hc).2.2]
  rcases hknown with ⟨c, hchunk, hlength⟩
  have hencode : p.encode ordinal out sequence =
      p.encodeChunk src (decide (ordinal = 0)) c out sequence := by
    rw [Packets.encode, ha.source_eq]
    simp only
    rw [if_neg (not_le.2 hk), hchunk]
    rfl
  rcases encodeChunk_cases _ c out hlength with ⟨status, hstatus, href⟩ | ⟨dst, hdst, hapart⟩
  · exact Or.inl ⟨status, hstatus, hencode.trans href⟩
  · exact Or.inr (ha.encode hk hdst hroom hapart)

theorem Accepted.encode_badIndex (ha : Accepted p src cut i) (hk : p.count ≤ ordinal) (out : Output) :
    p.encode ordinal out sequence = .ok (.badIndex, {}, out.contents) := by
  rw [Packets.encode, ha.source_eq]
  exact if_pos hk

/-! ## What the packets promise -/

/-- A buffer into which a packet can be written: somewhere, large enough, and apart from the container. -/
structure Suitable (out : Output) (src : Source) (dst : ℕ) : Prop where
  address : out.address = some dst
  room : maxPacketBytes ≤ out.contents.length
  apart : dst + out.contents.length ≤ src.address ∨ src.address + src.container.bytes.length ≤ dst

theorem Accepted.encode_suitable (ha : Accepted p src cut i) {out : Output} {dst : ℕ}
    (hout : Suitable out src dst) (sequence : UInt8) (ordinal : ℕ) :
    ∃ status info contents, p.encode ordinal out sequence = .ok (status, info, contents) ∧
      (status = .ok ↔ ordinal < p.count) ∧
      (status = .ok → info.bytes = (packet src.container.bytes p.layout ordinal sequence).length ∧
        contents = packet src.container.bytes p.layout ordinal sequence ++
          out.contents.drop info.bytes) := by
  by_cases hk : ordinal < p.count
  · have hbody := ha.length_packetBody hk sequence
    have hroom := hout.room
    rw [maxPacketBytes] at hroom
    have hpos : 0 < txwdBytes + (packetBody src.container.bytes p.layout ordinal sequence).length := by
      omega
    rcases ha.encode hk hout.address hout.room
      (meets_eq_false hpos (by omega) hout.apart) with ⟨info, hinfo, hencode⟩
    exact ⟨.ok, info, _, hencode, ⟨fun _ => hk, fun _ => rfl⟩, fun _ => ⟨hinfo, rfl⟩⟩
  · refine ⟨.badIndex, {}, out.contents, ha.encode_badIndex (not_lt.1 hk) out, ?_, nofun⟩
    exact ⟨nofun, fun h => absurd h hk⟩

/-- The bodies of the section packets are the bytes of the sections. -/
theorem Accepted.sections (ha : Accepted p src cut i) (sequence : UInt8) :
    (List.range' 1 (p.count - 1)).flatMap
        (fun ordinal => packetBody src.container.bytes p.layout ordinal sequence) =
      slice src.container.bytes (p.layout.imageOffset + p.layout.headerBytes)
        (p.layout.imageBytes - p.layout.headerBytes) := by
  have hlayout := ha.parsed.layout src.container.addressable
  rw [ha.count, Nat.add_sub_cancel, ← hlayout.contents, List.range_eq_range', List.range'_eq_map_range,
    List.flatMap_map, ← List.range_eq_range']
  apply List.flatMap_congr
  intro k hk
  simp only [packetBody, Nat.add_sub_cancel_left]
  rw [if_neg (by omega)]

/-- What packet 0 says about the image. -/
structure HeaderPacket (data : List UInt8) (plan : Plan) (body : List UInt8) : Prop where
  length : body.length = h2cBytes + plan.baseHeaderBytes
  lengthWord : (little32 (body.drop 4)).toNat = body.length
  before : slice body h2cBytes 28 = slice data plan.imageOffset 28
  word7 : little32 (body.drop (h2cBytes + 28)) =
    (word data (plan.imageOffset + 28) &&& 0xffff0000) ||| UInt32.ofNat packetBytes
  after : body.drop (h2cBytes + 32) =
    slice data (plan.imageOffset + 32) (plan.baseHeaderBytes - 32)

theorem Accepted.headerPacket (ha : Accepted p src cut i) (sequence : UInt8) :
    HeaderPacket src.container.bytes p.layout (headerBody src.container.bytes p.layout sequence) := by
  rcases ha.header with ⟨hbase, hle, hinside⟩
  have hlength := ha.length_headerBody sequence
  have hbody : headerBody src.container.bytes p.layout sequence =
      store32 ((0x0d : UInt32) ||| (sequence.toUInt32 <<< 24)) ++
        (store32 (UInt32.ofNat (h2cBytes + p.layout.baseHeaderBytes)) ++
          (slice src.container.bytes p.layout.imageOffset 28 ++
            (store32 ((word src.container.bytes (p.layout.imageOffset + 28) &&& 0xffff0000) |||
              UInt32.ofNat packetBytes) ++
              slice src.container.bytes (p.layout.imageOffset + 32) (p.layout.baseHeaderBytes - 32)))) := rfl
  have hdrop4 := congrArg (List.drop 4) hbody
  rw [List.drop_left' (length_store32 _)] at hdrop4
  have hdrop8 := congrArg (List.drop 4) hdrop4
  rw [List.drop_left' (length_store32 _), List.drop_drop] at hdrop8
  have hdrop36 := congrArg (List.drop 28) hdrop8
  rw [List.drop_left' (length_slice (by omega)), List.drop_drop] at hdrop36
  have hdrop40 := congrArg (List.drop 4) hdrop36
  rw [List.drop_left' (length_store32 _), List.drop_drop] at hdrop40
  refine ⟨hlength, ?_, ?_, ?_, hdrop40⟩
  · rw [hdrop4, little32_store32, hlength, UInt32.toNat_ofNat_of_lt']
    rw [h2cBytes, UInt32.size]
    omega
  · rw [slice, show h2cBytes = 4 + 4 from rfl, hdrop8, List.take_left' (length_slice (by omega))]
  · rw [show h2cBytes + 28 = 4 + 4 + 28 from rfl, hdrop36, little32_store32]

/-- The descriptor of a packet. -/
structure DescribesBody (header : Bool) (packet body : List UInt8) : Prop where
  content : packet.drop txwdBytes = body
  lengthWord : (little32 (packet.drop 8)).toNat = body.length
  fwDl : little32 packet &&& 0x100000 ≠ 0 ↔ header = false

theorem describesBody {header : Bool} (h : body.length < 2 ^ 32) :
    DescribesBody header (descriptor header body ++ body) body := by
  have hpacket : descriptor header body ++ body = store32 (descriptorWord header) ++
      (List.replicate 4 0 ++ (store32 (UInt32.ofNat body.length) ++
        (store32 (bodySequence body) ++ (List.replicate 8 0 ++ body)))) := by
    simp only [descriptor, List.append_assoc]
  refine ⟨List.drop_left' (length_descriptor header body), ?_, ?_⟩
  · have hdrop : (descriptor header body ++ body).drop 8 = store32 (UInt32.ofNat body.length) ++
        (store32 (bodySequence body) ++ (List.replicate 8 0 ++ body)) := by
      rw [hpacket, ← List.append_assoc]
      exact List.drop_left' rfl
    rw [hdrop, little32_store32, UInt32.toNat_ofNat_of_lt' h]
  · rw [hpacket, little32_store32]
    cases header with
    | false => decide
    | true => decide

end Transport
end Rtl8852be
