import Rtl8852be.Wire.FirmwareProtocol

/-!
# Descriptors — transmit and receive descriptors of the device

`NetworkDescriptors.hpp` with the descriptor routines it imports from `Rtw89DescriptorCore.hpp`, and the
address checks of `PciDataPath.hpp`.  Fields of the descriptor records that neither side reads are left
out.  Pointers are never null here; the callers check that.
-/

namespace Rtl8852be
namespace Network

inductive DescriptorStatus
  | ok
  | nullPointer
  | truncated
  | invalidLength
  | unrepresentable
  | corruptFrame
  deriving DecidableEq, Repr

/-- The errors the queues and the packet bridge return. -/
inductive Errno
  | enetdown
  | einval
  | enobufs
  | ebusy
  | eio
  | eagain
  | eacces
  | emsgsize
  deriving DecidableEq, Repr

/-- `dma32Range`: the buffer is not empty and ends below 4 GiB. -/
def dma32Range (address length : ℕ) : Bool :=
  length != 0 && decide (address ≤ 0xffffffff) && decide (length - 1 ≤ 0xffffffff - address)

/-- `DataMapping`: where the processor and the device see a buffer.  `bytes = none` is the null pointer. -/
structure DataMapping where
  bytes : Option ℕ := none
  physical : ℕ := 0
  capacity : ℕ := 0
  deriving DecidableEq, Repr

def validMapping (m : DataMapping) (required : ℕ) : Bool :=
  m.bytes.isSome && decide (required ≤ m.capacity) && dma32Range m.physical m.capacity

def overlaps (a b : DataMapping) : Bool :=
  decide (a.physical < b.physical + b.capacity) && decide (b.physical < a.physical + a.capacity)

/-- What a buffer holds after its first bytes were written. -/
def overwrite (new old : List UInt8) : List UInt8 := new ++ old.drop new.length

/-! ## Bit fields -/

/-- `GENMASK(h, l)`. -/
def genmask (h l : UInt32) : UInt32 := (0xffffffff >>> (31 - h)) &&& (0xffffffff <<< l)

/-- `FIELD_PREP(GENMASK(h, l), n)`. -/
def fieldPrep (h l n : UInt32) : UInt32 := (n <<< l) &&& genmask h l

/-- `le32_get_bits(n, GENMASK(h, l))`. -/
def getBits (n h l : UInt32) : UInt32 := (n &&& genmask h l) >>> l

def bit (b : Bool) : UInt32 := if b then 1 else 0

/-! ## Transmit descriptors -/

/-- `rtw89_tx_desc_info`. -/
structure TxInfo where
  pktSize : UInt16 := 0
  wpOffset : UInt8 := 0
  macId : UInt8 := 0
  qsel : UInt8 := 0
  chDma : UInt8 := 0
  hdrLlcLen : UInt8 := 0
  isBmc : Bool := false
  enWdInfo : Bool := false
  wdPage : Bool := false
  useRate : Bool := false
  disDataFb : Bool := false
  tidIndicate : Bool := false
  aggEn : Bool := false
  bk : Bool := false
  ampduDensity : UInt8 := 0
  ampduNum : UInt8 := 0
  secEn : Bool := false
  secType : UInt8 := 0
  secCamIdx : UInt8 := 0
  dataRate : UInt16 := 0
  dataRetryLowestRate : UInt16 := 0
  fwDl : Bool := false
  seq : UInt16 := 0
  aCtrlBsr : Bool := false
  hwSsnSel : UInt8 := 0
  hwSeqMode : UInt8 := 0
  port : UInt8 := 0
  deriving DecidableEq, Repr

/-- `DescriptorLimits.inc`. -/
def txFieldsFit (p : TxInfo) : Bool :=
  decide (p.chDma ≤ 15 ∧ p.hdrLlcLen ≤ 31 ∧ p.hwSsnSel ≤ 3 ∧ p.hwSeqMode ≤ 3 ∧ p.qsel ≤ 63 ∧
    p.pktSize ≤ 16383 ∧ p.macId ≤ 127 ∧ p.seq ≤ 4095 ∧ p.dataRate ≤ 511 ∧ p.port ≤ 7 ∧
    p.dataRetryLowestRate ≤ 511 ∧ p.ampduDensity ≤ 7 ∧ p.secType ≤ 15)

def txwdBody0 (p : TxInfo) : UInt32 :=
  fieldPrep 31 24 p.wpOffset.toUInt32 ||| fieldPrep 22 22 (bit p.enWdInfo) |||
    fieldPrep 19 16 p.chDma.toUInt32 ||| fieldPrep 15 11 p.hdrLlcLen.toUInt32 |||
    fieldPrep 7 7 (bit p.wdPage) ||| fieldPrep 20 20 (bit p.fwDl) |||
    fieldPrep 3 2 p.hwSsnSel.toUInt32 ||| fieldPrep 1 0 p.hwSeqMode.toUInt32

def txwdBody2 (p : TxInfo) : UInt32 :=
  fieldPrep 23 23 (bit p.tidIndicate) ||| fieldPrep 22 17 p.qsel.toUInt32 |||
    fieldPrep 13 0 p.pktSize.toUInt32 ||| fieldPrep 30 24 p.macId.toUInt32

def txwdBody3 (p : TxInfo) : UInt32 :=
  fieldPrep 11 0 p.seq.toUInt32 ||| fieldPrep 12 12 (bit p.aggEn) ||| fieldPrep 13 13 (bit p.bk)

def txwdInfo0 (p : TxInfo) : UInt32 :=
  fieldPrep 30 30 (bit p.useRate) ||| fieldPrep 24 16 p.dataRate.toUInt32 |||
    fieldPrep 10 10 (bit p.disDataFb) ||| fieldPrep 6 4 p.port.toUInt32

def txwdInfo1 (p : TxInfo) : UInt32 :=
  fieldPrep 7 0 p.ampduNum.toUInt32 ||| fieldPrep 14 14 (bit p.aCtrlBsr) |||
    fieldPrep 24 16 p.dataRetryLowestRate.toUInt32

def txwdInfo2 (p : TxInfo) : UInt32 :=
  fieldPrep 20 18 p.ampduDensity.toUInt32 ||| fieldPrep 12 9 p.secType.toUInt32 |||
    fieldPrep 8 8 (bit p.secEn) ||| fieldPrep 7 0 p.secCamIdx.toUInt32

def txwdInfo4 (p : TxInfo) : UInt32 :=
  fieldPrep 27 27 (bit (!p.isBmc)) ||| fieldPrep 31 31 1

/-- `rtw89_core_fill_txdesc`: the body, and the info part if it is enabled. -/
def fillTxdesc (p : TxInfo) : List UInt8 :=
  store32 (txwdBody0 p) ++ store32 0 ++ store32 (txwdBody2 p) ++ store32 (txwdBody3 p) ++
    store32 0 ++ store32 0 ++
    if p.enWdInfo then
      store32 (txwdInfo0 p) ++ store32 (txwdInfo1 p) ++ store32 (txwdInfo2 p) ++ store32 0 ++
        store32 (txwdInfo4 p) ++ store32 0
    else
      []

/-- `encodeTx`: the bytes of the descriptor. -/
def encodeTx (p : TxInfo) (capacity : ℕ) : Except DescriptorStatus (List UInt8) :=
  if p.pktSize = 0 then
    .error .invalidLength
  else if !txFieldsFit p then
    .error .unrepresentable
  else if capacity < (if p.enWdInfo then 48 else 24) then
    .error .truncated
  else
    .ok (fillTxdesc p)

/-! ## Receive descriptors -/

/-- `rtw89_rx_desc_info`. -/
structure RxInfo where
  pktSize : UInt16 := 0
  pktType : UInt8 := 0
  drvInfoSize : UInt8 := 0
  shift : UInt8 := 0
  longRxdesc : Bool := false
  bbSel : Bool := false
  macInfoValid : Bool := false
  dataRate : UInt16 := 0
  giLtf : UInt8 := 0
  bw : UInt8 := 0
  freeRunCnt : UInt32 := 0
  userId : UInt8 := 0
  srEn : Bool := false
  ppduCnt : UInt8 := 0
  ppduType : UInt8 := 0
  icvErr : Bool := false
  crc32Err : Bool := false
  hwDec : Bool := false
  swDec : Bool := false
  addr1Match : Bool := false
  frameType : UInt8 := 0
  rxPlId : UInt8 := 0
  addrCamValid : Bool := false
  addrCamId : UInt8 := 0
  secCamId : UInt8 := 0
  macId : UInt8 := 0
  offset : UInt16 := 0
  rxdLen : UInt16 := 0
  deriving DecidableEq, Repr

/-- Word `i` of a descriptor. -/
def dword (descriptor : List UInt8) (i : ℕ) : UInt32 := little32 (descriptor.drop (4 * i))

/-- `rtw89_core_query_rxdesc` for the RTL8852B at offset 0; `shift` was filled in by the caller. -/
def queryRxdesc (descriptor : List UInt8) (shift : UInt8) : RxInfo :=
  let w0 := dword descriptor 0
  let w1 := dword descriptor 1
  let w3 := dword descriptor 3
  let long := getBits w0 31 31 != 0
  let drvInfoSize := (getBits w0 30 28).toUInt8
  let short : RxInfo :=
    { pktSize := (getBits w0 13 0).toUInt16
      drvInfoSize := drvInfoSize
      shift := shift
      longRxdesc := long
      pktType := (getBits w0 27 24).toUInt8
      macInfoValid := getBits w0 23 23 != 0
      bw := (getBits w1 31 30).toUInt8
      dataRate := (getBits w1 24 16).toUInt16
      giLtf := (getBits w1 27 25).toUInt8
      userId := (getBits w1 15 8).toUInt8
      srEn := getBits w1 7 7 != 0
      ppduCnt := (getBits w1 6 4).toUInt8
      ppduType := (getBits w1 3 0).toUInt8
      freeRunCnt := getBits (dword descriptor 2) 31 0
      icvErr := getBits w3 10 10 != 0
      crc32Err := getBits w3 9 9 != 0
      hwDec := getBits w3 2 2 != 0
      swDec := getBits w3 1 1 != 0
      addr1Match := getBits w3 0 0 != 0
      -- The shift counts two-byte units, the driver info eight-byte units.
      offset := (shift <<< 1).toUInt16 + (drvInfoSize <<< 3).toUInt16
      rxdLen := if long then 32 else 16 }
  if long then
    let w5 := dword descriptor 5
    { short with
      frameType := (getBits (dword descriptor 4) 1 0).toUInt8
      addrCamValid := getBits w5 28 28 != 0
      addrCamId := (getBits w5 15 8).toUInt8
      secCamId := (getBits w5 7 0).toUInt8
      macId := (getBits w5 23 16).toUInt8
      rxPlId := (getBits w5 27 24).toUInt8 }
  else
    short

/-- A decoded packet; its payload is the part of the buffer from `offset` on. -/
structure RxPacket where
  info : RxInfo := {}
  payload : Option (List UInt8) := none
  length : ℕ := 0
  offset : ℕ := 0
  deriving DecidableEq

/-- `decodeRxHeader`. -/
def decodeRxHeader (data : List UInt8) (descriptorOffset : ℕ) : Except DescriptorStatus RxPacket :=
  if data.length < descriptorOffset ∨ data.length - descriptorOffset < 16 then
    .error .truncated
  else
    let word := little32 (data.drop descriptorOffset)
    let descriptorBytes := if word &&& 0x80000000 ≠ 0 then 32 else 16
    if data.length - descriptorOffset < descriptorBytes then
      .error .truncated
    else
      let info := queryRxdesc ((data.drop descriptorOffset).take descriptorBytes)
        ((word >>> 14) &&& 3).toUInt8
      let overhead := info.offset.toNat + info.rxdLen.toNat
      if info.pktSize = 0 ∨ info.pktType = 15 then
        .error .invalidLength
      else if data.length - descriptorOffset < overhead then
        .error .truncated
      else if info.icvErr ∨ info.crc32Err then
        .error .corruptFrame
      else
        .ok { info := info, offset := descriptorOffset + overhead, length := info.pktSize.toNat }

/-- `decodeRx`. -/
def decodeRx (data : List UInt8) (descriptorOffset : ℕ) : Except DescriptorStatus RxPacket :=
  match decodeRxHeader data descriptorOffset with
  | .error e => .error e
  | .ok out =>
      if data.length - out.offset < out.length then
        .error .truncated
      else
        .ok { out with payload := some ((data.drop out.offset).take out.length) }

/-! ## What an accepted header says -/

theorem getBits_le {h l : UInt32} {w : UInt32} {m : ℕ} (hl : l.toNat < 32)
    (hm : (genmask h l).toNat / 2 ^ l.toNat = m) : (getBits w h l).toNat ≤ m := by
  rw [getBits, Bits.toNat_shiftRight hl, UInt32.toNat_and, ← hm]
  exact Nat.div_le_div_right Nat.and_le_right

section Query

variable (descriptor : List UInt8) (shift : UInt8)

theorem queryRxdesc_pktSize :
    (queryRxdesc descriptor shift).pktSize = (getBits (dword descriptor 0) 13 0).toUInt16 := by
  simp only [queryRxdesc]
  split <;> rfl

theorem queryRxdesc_rxdLen :
    (queryRxdesc descriptor shift).rxdLen =
      if getBits (dword descriptor 0) 31 31 != 0 then 32 else 16 := by
  simp only [queryRxdesc]
  split <;> rfl

theorem queryRxdesc_offset :
    (queryRxdesc descriptor shift).offset =
      (shift <<< 1).toUInt16 + ((getBits (dword descriptor 0) 30 28).toUInt8 <<< 3).toUInt16 := by
  simp only [queryRxdesc]
  split <;> rfl

theorem pktSize_le : (queryRxdesc descriptor shift).pktSize.toNat ≤ 16383 := by
  have hbits : (getBits (dword descriptor 0) 13 0).toNat ≤ 16383 :=
    getBits_le (by decide) (by decide)
  rw [queryRxdesc_pktSize]
  simp
  omega

/-- The shift takes at most six bytes and the driver info at most 56. -/
theorem offset_le (hshift : shift.toNat ≤ 3) : (queryRxdesc descriptor shift).offset.toNat ≤ 62 := by
  have hbits : (getBits (dword descriptor 0) 30 28).toNat ≤ 7 :=
    getBits_le (by decide) (by decide)
  rw [queryRxdesc_offset]
  simp [Nat.shiftLeft_eq]
  omega

theorem rxdLen_toNat :
    (queryRxdesc descriptor shift).rxdLen.toNat =
      if getBits (dword descriptor 0) 31 31 != 0 then 32 else 16 := by
  rw [queryRxdesc_rxdLen]
  split <;> rfl

end Query

theorem long_iff (w : UInt32) : (getBits w 31 31 != 0) = true ↔ w &&& 0x80000000 ≠ 0 := by
  have hmask : genmask 31 31 = 0x80000000 := by decide
  have hbits : (getBits w 31 31).toNat = w.toNat / 2 ^ 31 % 2 := by
    calc (getBits w 31 31).toNat
        = (w &&& 0x80000000).toNat / 2 ^ 31 := by
          rw [getBits, hmask]
          exact Bits.toNat_shiftRight (by decide)
      _ = (w.toNat &&& (2 ^ 1 - 1) <<< 31) / 2 ^ 31 := by
          rw [UInt32.toNat_and]
          rfl
      _ = w.toNat / 2 ^ 31 % 2 := by
          rw [Bits.and_field, Nat.shiftLeft_eq, Nat.mul_div_cancel _ (Nat.two_pow_pos 31),
            Nat.pow_one]
  rw [bne_iff_ne, Bits.and_bit_ne_zero (k := 31) (by decide), Ne, ← UInt32.toNat_inj, hbits]
  simp

variable {data : List UInt8} {out : RxPacket}

/-- The word that decides the layout of the header. -/
def layoutWord (data : List UInt8) : UInt32 := little32 (data.drop 4)

def layoutBytes (data : List UInt8) : ℕ := if layoutWord data &&& 0x80000000 ≠ 0 then 32 else 16

def layoutInfo (data : List UInt8) : RxInfo :=
  queryRxdesc ((data.drop 4).take (layoutBytes data)) ((layoutWord data >>> 14) &&& 3).toUInt8

theorem little32_take {l : List UInt8} {n : ℕ} (hn : 4 ≤ n) : little32 (l.take n) = little32 l := by
  have hget : ∀ i < 4, (l.take n).getD i 0 = l.getD i 0 := by
    intro i hi
    rw [List.getD_eq_getElem?_getD, List.getD_eq_getElem?_getD, List.getElem?_take_of_lt (by omega)]
  rw [little32, little32, hget 0 (by decide), hget 1 (by decide), hget 2 (by decide),
    hget 3 (by decide)]

theorem layoutInfo_rxdLen (data : List UInt8) : (layoutInfo data).rxdLen.toNat = layoutBytes data := by
  have hbytes : 4 ≤ layoutBytes data := by
    rw [layoutBytes]
    split <;> decide
  have hword : dword ((data.drop 4).take (layoutBytes data)) 0 = layoutWord data :=
    little32_take hbytes
  rw [layoutInfo, rxdLen_toNat, hword, layoutBytes]
  by_cases hlong : layoutWord data &&& 0x80000000 ≠ 0
  · rw [if_pos ((long_iff _).2 hlong), if_pos hlong]
  · rw [if_neg fun h => hlong ((long_iff _).1 h), if_neg hlong]

theorem layoutInfo_offset (data : List UInt8) : (layoutInfo data).offset.toNat ≤ 62 := by
  apply offset_le
  have hlow : ((layoutWord data >>> 14) &&& 3).toNat = (layoutWord data >>> 14).toNat % 4 :=
    Bits.toNat_and_low (n := 2) rfl
  rw [UInt32.toNat_toUInt8, hlow]
  omega

def headerOf (data : List UInt8) : RxPacket :=
  { info := layoutInfo data
    offset := 4 + ((layoutInfo data).offset.toNat + (layoutInfo data).rxdLen.toNat)
    length := (layoutInfo data).pktSize.toNat }

def Decodable (data : List UInt8) : Prop :=
  (headerOf data).offset ≤ data.length ∧ (layoutInfo data).pktSize ≠ 0 ∧
    (layoutInfo data).pktType ≠ 15 ∧ (layoutInfo data).icvErr = false ∧
    (layoutInfo data).crc32Err = false

theorem decodeRxHeader_eq_ok :
    decodeRxHeader data 4 = .ok out ↔ Decodable data ∧ out = headerOf data := by
  have hlen : (layoutInfo data).rxdLen.toNat = layoutBytes data := layoutInfo_rxdLen data
  have hbytes : 16 ≤ layoutBytes data := by
    rw [layoutBytes]
    split <;> decide
  have hunfold : decodeRxHeader data 4 =
      if data.length < 4 ∨ data.length - 4 < 16 then .error .truncated
      else if data.length - 4 < layoutBytes data then .error .truncated
      else if (layoutInfo data).pktSize = 0 ∨ (layoutInfo data).pktType = 15 then
        .error .invalidLength
      else if data.length - 4 < (layoutInfo data).offset.toNat + (layoutInfo data).rxdLen.toNat then
        .error .truncated
      else if (layoutInfo data).icvErr ∨ (layoutInfo data).crc32Err then .error .corruptFrame
      else .ok (headerOf data) := rfl
  rw [hunfold]
  constructor
  · intro h
    split at h
    · exact absurd h nofun
    split at h
    · exact absurd h nofun
    split at h
    · exact absurd h nofun
    split at h
    · exact absurd h nofun
    split at h
    · exact absurd h nofun
    rename_i h4 hdescriptor hsize hoverhead herr
    rw [not_or] at hsize herr h4
    refine ⟨⟨?_, hsize.1, hsize.2, by simpa using herr.1, by simpa using herr.2⟩,
      (Except.ok.inj h).symm⟩
    show 4 + _ ≤ data.length
    omega
  · rintro ⟨⟨hfits, hsize, htype, hicv, hcrc⟩, rfl⟩
    have hfits' : 4 + ((layoutInfo data).offset.toNat + (layoutInfo data).rxdLen.toNat) ≤
      data.length := hfits
    rw [if_neg (by omega), if_neg (by omega), if_neg (by simp [hsize, htype]), if_neg (by omega),
      if_neg (by simp [hicv, hcrc])]

/-- The header takes at most 98 bytes, and names at most 16383 more. -/
theorem decodeRxHeader_bounds (h : decodeRxHeader data 4 = .ok out) :
    20 ≤ out.offset ∧ out.offset ≤ 98 ∧ out.offset ≤ data.length ∧ 0 < out.length ∧
      out.length ≤ 16383 := by
  rcases decodeRxHeader_eq_ok.1 h with ⟨⟨hfits, hsize, -⟩, rfl⟩
  have hoffset := layoutInfo_offset data
  have hlen : (layoutInfo data).rxdLen.toNat = layoutBytes data := layoutInfo_rxdLen data
  have hbytes : 16 ≤ layoutBytes data ∧ layoutBytes data ≤ 32 := by
    rw [layoutBytes]
    split <;> decide
  have hpositive : (layoutInfo data).pktSize.toNat ≠ 0 := by
    intro hzero
    exact hsize (UInt16.toNat_inj.1 hzero)
  refine ⟨?_, ?_, hfits, Nat.pos_of_ne_zero hpositive, pktSize_le _ _⟩
  · show 20 ≤ 4 + _
    omega
  · show 4 + _ ≤ 98
    omega

theorem decodeRxHeader_congr {data' : List UInt8} (h : decodeRxHeader data 4 = .ok out)
    (hlong : out.offset ≤ data'.length) (htake : data'.take out.offset = data.take out.offset) :
    decodeRxHeader data' 4 = .ok out := by
  have hbounds := decodeRxHeader_bounds h
  rcases decodeRxHeader_eq_ok.1 h with ⟨hok, rfl⟩
  have hlen : (layoutInfo data).rxdLen.toNat = layoutBytes data := layoutInfo_rxdLen data
  have hbytes : 4 + layoutBytes data ≤ (headerOf data).offset := by
    show _ ≤ 4 + _
    omega
  have hdrop : (data'.drop 4).take ((headerOf data).offset - 4) =
      (data.drop 4).take ((headerOf data).offset - 4) := by
    rw [← List.drop_take, ← List.drop_take, htake]
  have hword : layoutWord data' = layoutWord data := by
    rw [layoutWord, layoutWord, ← little32_take (n := (headerOf data).offset - 4) (by omega), hdrop,
      little32_take (by omega)]
  have hsame : layoutBytes data' = layoutBytes data := by rw [layoutBytes, layoutBytes, hword]
  have hdescriptor : (data'.drop 4).take (layoutBytes data) = (data.drop 4).take (layoutBytes data) := by
    have hmin : min (layoutBytes data) ((headerOf data).offset - 4) = layoutBytes data := by omega
    calc (data'.drop 4).take (layoutBytes data)
        = ((data'.drop 4).take ((headerOf data).offset - 4)).take (layoutBytes data) := by
          rw [List.take_take, hmin]
      _ = (data.drop 4).take (layoutBytes data) := by
          rw [hdrop, List.take_take, hmin]
  have hinfo : layoutInfo data' = layoutInfo data := by
    rw [layoutInfo, layoutInfo, hword, hsame, hdescriptor]
  have hheader : headerOf data' = headerOf data := by rw [headerOf, headerOf, hinfo]
  apply decodeRxHeader_eq_ok.2
  refine ⟨⟨?_, ?_⟩, hheader.symm⟩
  · rw [hheader]
    exact hlong
  · rw [hinfo]
    exact hok.2

end Network
end Rtl8852be
