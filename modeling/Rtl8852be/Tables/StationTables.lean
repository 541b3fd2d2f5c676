import Rtl8852be.Bits.Field
import Rtl8852be.Bits.Memory
import Rtl8852be.Station.Types

/-!
# StationTables — the tables of the firmware that describe a station

`StationTables.hpp` up to the plans, and the setters of `Rtw8852bStationTableFields.hpp` it uses.  A
payload is an array of bytes, and a setter reads a word of it, replaces the bits of one field and writes
the word back.
-/

namespace Rtl8852be
namespace Tables

open Network Station

/-! ## The wire -/

namespace Wire

def word (bytes : Bits.Memory) (i : ℕ) : UInt32 := little32 (bytes.load (4 * i) 4)

/-- `wire::replace`. -/
def replace (bytes : Bits.Memory) (i : ℕ) (value mask : UInt32) : Bits.Memory :=
  bytes.store (4 * i) (store32 (replaceBits (word bytes i) value mask))

def addrField (i : ℕ) (mask : UInt32) (out : Bits.Memory) (v : UInt32) : Bits.Memory :=
  replace out i v mask

/-- A field of the CMAC table, and the word that says which of its bits are to be changed. -/
def cmacField (i maskWord : ℕ) (full mask : UInt32) (out : Bits.Memory) (v : UInt32) : Bits.Memory :=
  replace (replace out i v mask) maskWord full mask

def setCtrlInfoMacid := addrField 0 0x0000007f
def setCtrlInfoOperation := addrField 0 0x00000080
def setCmcTblTxpwrMode := cmacField 5 13 0x7 0x00000e00
def setCmcTblNtxPathEn := cmacField 6 14 0xf 0x000f0000
def setCmcTblPathMapA := cmacField 6 14 0x3 0x00300000
def setCmcTblPathMapB := cmacField 6 14 0x3 0x00c00000
def setCmcTblPathMapC := cmacField 6 14 0x3 0x03000000
def setCmcTblPathMapD := cmacField 6 14 0x3 0x0c000000
def setCmcTblAntselA := cmacField 6 14 0x1 0x10000000
def setCmcTblAntselB := cmacField 6 14 0x1 0x20000000
def setCmcTblAntselC := cmacField 6 14 0x1 0x40000000
def setCmcTblAntselD := cmacField 6 14 0x1 0x80000000
def setCmcTblDopplerCtrl := cmacField 7 15 0x3 0x000c0000
def setCmcTblTxpwrTolerence := cmacField 7 15 0xf 0x0f000000
def setCmcTblDisrtsfb := cmacField 1 9 0x1 0x02000000
def setCmcTblDisdatafb := cmacField 1 9 0x1 0x04000000
def setCmcTblRtsRtyLowestRate := cmacField 2 10 0xf 0xf0000000
def setCmcTblRtsTxcntLmtSel := cmacField 2 10 0x1 0x00000800
def setCmcTblDataTxcntLmtSel := cmacField 3 11 0x1 0x00000040
def setCmcTblUldl := cmacField 7 15 0x1 0x00020000
def setCmcTblMultiPortId := cmacField 5 13 0x7 0x00000007
def setCmcTblNominalPktPadding := cmacField 7 15 0x3 0x00300000
def setCmcTblNominalPktPadding40 := cmacField 7 15 0x3 0x00c00000
def setCmcTblNominalPktPadding80 := cmacField 7 15 0x3 0xc0000000
def setCmcTblNominalPktPadding160 := cmacField 8 16 0x3 0x30000000
def setCmcTblBsrQueueSizeFormat := cmacField 6 14 0x1 0x00002000
def fwcmdSetAddrIdx := addrField 1 0x000000ff
def fwcmdSetAddrOffset := addrField 1 0x0000ff00
def fwcmdSetAddrLen := addrField 1 0x00ff0000
def fwcmdSetAddrValid := addrField 2 0x00000001
def fwcmdSetAddrNetType := addrField 2 0x00000006
def fwcmdSetAddrBcnHitCond := addrField 2 0x00000018
def fwcmdSetAddrHitRule := addrField 2 0x00000060
def fwcmdSetAddrBbSel := addrField 2 0x00000080
def fwcmdSetAddrAddrMask := addrField 2 0x00003f00
def fwcmdSetAddrMaskSel := addrField 2 0x0000c000
def fwcmdSetAddrSmaHash := addrField 2 0x00ff0000
def fwcmdSetAddrTmaHash := addrField 2 0xff000000
def fwcmdSetAddrBssidCamIdx := addrField 3 0x0000003f
def fwcmdSetAddrMacid := addrField 8 0x000000ff
def fwcmdSetAddrPortInt := addrField 8 0x00000700
def fwcmdSetAddrTsfSync := addrField 8 0x00003800
def fwcmdSetAddrTfTrs := addrField 8 0x00004000
def fwcmdSetAddrLsigTxop := addrField 8 0x00008000
def fwcmdSetAddrTgtInd := addrField 8 0x07000000
def fwcmdSetAddrFrmTgtInd := addrField 8 0x38000000
def fwcmdSetAddrAid12 := addrField 9 0x00000fff
def fwcmdSetAddrSecEntMode := addrField 9 0x00030000
def fwcmdSetAddrBssidIdx := addrField 12 0x000000ff
def fwcmdSetAddrBssidOffset := addrField 12 0x0000ff00
def fwcmdSetAddrBssidLen := addrField 12 0x00ff0000
def fwcmdSetAddrBssidValid := addrField 13 0x00000001
def fwcmdSetAddrBssidBbSel := addrField 13 0x00000002
def fwcmdSetAddrBssidMask := addrField 13 0x000000fc
def fwcmdSetAddrBssidBssColor := addrField 13 0x00003f00

def addrCamEntSize : UInt32 := 0x40

def bssidCamEntSize : UInt32 := 0x8

end Wire

open Wire

/-! ## The configurations -/

def cmacCommand : CommandId := ⟨1, 5, 2⟩

def camCommand : CommandId := ⟨1, 6, 0⟩

/-- The array has 68 bytes, of which the first `length` are sent. -/
structure Payload where
  id : CommandId := {}
  length : ℕ := 0
  bytes : Bits.Memory := fun _ => 0

structure DefaultCmac where
  macid : UInt8 := 0
  antennaTx : UInt8 := 0
  deriving DecidableEq

/-- `phy` has 11 bytes and `ppe` has 25. -/
structure HeCapabilities where
  present : Bool := false
  rxNss : UInt8 := 0
  txNss : UInt8 := 0
  phy : ℕ → UInt8 := fun _ => 0
  ppe : ℕ → UInt8 := fun _ => 0
  ppeLength : ℕ := 0

structure AssociationCmac where
  macid : UInt8 := 0
  port : UInt8 := 0
  band : UInt8 := 0
  stationPresent : Bool := false
  he : HeCapabilities := {}

@[ext] structure Cam where
  macid : UInt8 := 0
  port : UInt8 := 0
  addressIndex : UInt8 := 0
  bssidIndex : UInt8 := 0
  local_ : Address := {}
  bssid : Address := {}
  valid : Bool := true
  connected : Bool := false
  nontransmitted : Bool := false
  trigger : Bool := false
  lsigTxop : Bool := false
  aid : UInt16 := 0
  bssColor : UInt8 := 0
  beaconHit : UInt8 := 0
  hitRule : UInt8 := 0
  addressMask : UInt8 := 0
  maskSelect : UInt8 := 0
  target : UInt8 := 0
  frameTarget : UInt8 := 0
  deriving DecidableEq

/-! ## `defaultCmac` -/

/-- The writes of `defaultCmac`. -/
def fillDefaultCmac (config : DefaultCmac) (p : Bits.Memory) : Bits.Memory :=
  let p := setCtrlInfoMacid p config.macid.toUInt32
  let p := setCtrlInfoOperation p 1
  let p := setCmcTblTxpwrMode p 0
  let p := setCmcTblNtxPathEn p (if config.antennaTx = 0 then 2 else config.antennaTx.toUInt32)
  let p := setCmcTblPathMapA p 0
  let p := setCmcTblPathMapB p (if config.antennaTx = 3 then 1 else 0)
  let p := setCmcTblPathMapC p 0
  let p := setCmcTblPathMapD p 0
  let p := setCmcTblAntselA p 0
  let p := setCmcTblAntselB p 0
  let p := setCmcTblAntselC p 0
  let p := setCmcTblAntselD p 0
  let p := setCmcTblDopplerCtrl p 0
  setCmcTblTxpwrTolerence p 0

/-- What `defaultCmac` returns, and `out` after it. -/
def defaultCmac (config : DefaultCmac) : Bool × Payload :=
  if config.macid ≥ 128 ∨ config.antennaTx > 3 then
    (false, {})
  else
    (true, { id := cmacCommand, length := 68, bytes := fillDefaultCmac config fun _ => 0 })

/-! ## `packetPadding` -/

/-- What `packetPadding` returns, the pads after it, and the bytes of `ppe` that it read. -/
structure Padding where
  ok : Bool
  pads : List UInt8
  reads : List ℕ := []
  deriving DecidableEq

def noPads : List UInt8 := [0, 0, 0, 0]

/-- The inner loop: six bits from `bit` on. -/
def ppePair (ppe : ℕ → UInt8) (bit : ℕ) : ℕ :=
  (List.range 6).foldl
    (fun pair j => pair ||| (((ppe ((bit + j) / 8)).toNat >>> ((bit + j) % 8)) &&& 1) <<< j) 0

def padOf (pair : ℕ) : UInt8 :=
  let ppe16 := pair &&& 7
  let ppe8 := (pair >>> 3) &&& 7
  if ppe16 ≠ 7 ∧ ppe8 = 7 then 2 else if ppe8 ≠ 7 then 1 else 0

/-- The outer loop over these RU sizes: the pads and the bytes read. -/
def padLoop (ppe : ℕ → UInt8) (bitmap : ℕ) : List ℕ → ℕ → List UInt8 × List ℕ
  | [], _ => ([], [])
  | i :: is, bit =>
      if bitmap &&& (1 <<< i) = 0 then
        let (pads, reads) := padLoop ppe bitmap is bit
        (1 :: pads, reads)
      else
        let (pads, reads) := padLoop ppe bitmap is (bit + 6)
        (padOf (ppePair ppe bit) :: pads, (List.range 6).map (fun j => (bit + j) / 8) ++ reads)

/-- `packetPadding`. -/
def packetPadding (he : HeCapabilities) : Padding :=
  if !he.present then
    ⟨true, noPads, []⟩
  else if he.rxNss = 0 ∨ he.rxNss > 8 ∨ he.txNss = 0 ∨ he.txNss > 2 ∨ he.ppeLength > 25 then
    ⟨false, noPads, []⟩
  else if he.phy 6 &&& 0x80 = 0 then
    ⟨true, List.replicate 4 ((he.phy 9 >>> 6) &&& 3), []⟩
  else if he.ppeLength = 0 then
    ⟨false, noPads, []⟩
  else
    let bitmap := ((he.ppe 0).toNat >>> 3) &&& 15
    let streams := ((he.ppe 0).toNat &&& 7) + 1
    let selected := (if he.rxNss < he.txNss then he.rxNss else he.txNss).toNat - 1
    let count := (List.range 4).foldl (fun count i => count + ((bitmap >>> i) &&& 1)) 0
    if count = 0 ∨ selected ≥ streams ∨ he.ppeLength < (7 + streams * count * 6 + 7) / 8 then
      ⟨false, noPads, [0]⟩
    else
      let (pads, reads) := padLoop he.ppe bitmap (List.range 4) (7 + selected * count * 6)
      ⟨true, pads, 0 :: reads⟩

/-! ## `associationCmac` -/

/-- The writes of `associationCmac`. -/
def fillAssociationCmac (config : AssociationCmac) (pads : List UInt8) (p : Bits.Memory) : Bits.Memory :=
  let p := setCtrlInfoMacid p config.macid.toUInt32
  let p := setCtrlInfoOperation p 1
  let p := setCmcTblDisrtsfb p 1
  let p := setCmcTblDisdatafb p 1
  let p := setCmcTblRtsRtyLowestRate p (if config.band ≠ 0 then 4 else 0)
  let p := setCmcTblRtsTxcntLmtSel p 0
  let p := setCmcTblDataTxcntLmtSel p 0
  let p := setCmcTblUldl p 1
  let p := setCmcTblMultiPortId p config.port.toUInt32
  let p := setCmcTblNominalPktPadding p (pads.getD 0 0).toUInt32
  let p := setCmcTblNominalPktPadding40 p (pads.getD 1 0).toUInt32
  let p := setCmcTblNominalPktPadding80 p (pads.getD 2 0).toUInt32
  let p := setCmcTblNominalPktPadding160 p (pads.getD 3 0).toUInt32
  if config.stationPresent then
    setCmcTblBsrQueueSizeFormat p config.he.present.toUInt32
  else
    p

def associationCmac (config : AssociationCmac) : Bool × Payload :=
  if config.macid ≥ 128 ∨ config.port > 4 ∨ config.band > 1 ∨
      (!config.stationPresent ∧ config.he.present) then
    (false, {})
  else
    let padding := packetPadding config.he
    if !padding.ok then
      (false, {})
    else
      (true,
        { id := cmacCommand, length := 68, bytes := fillAssociationCmac config padding.pads fun _ => 0 })

/-! ## `addressCam` -/

def addressHash (address : Address) (start : ℕ) : UInt8 :=
  ((List.finRange 6).filter fun i => start ≤ i.val).foldl (fun hash i => hash ^^^ address.bytes i) 0

/-- The loop that looks for the first bit of the address mask. -/
def firstMasked (addressMask : UInt8) : ℕ :=
  ((List.range 8).find? fun i => addressMask.toNat.testBit i).getD 0

/-- The loop that copies both addresses. -/
def copyAddresses (config : Cam) (p : Bits.Memory) : Bits.Memory :=
  (List.finRange 6).foldl
    (fun p (i : Fin 6) => Function.update (Function.update p (16 + i.val) (config.local_.bytes i))
      (22 + i.val) (config.bssid.bytes i)) p

/-- The loop that copies the BSSID into its own table. -/
def copyBssid (config : Cam) (p : Bits.Memory) : Bits.Memory :=
  (List.finRange 6).foldl
    (fun p (i : Fin 6) => Function.update p (54 + i.val) (config.bssid.bytes i)) p

/-- The writes of `addressCam`. -/
def fillAddressCam (config : Cam) (p : Bits.Memory) : Bits.Memory :=
  let start := firstMasked config.addressMask
  let p := fwcmdSetAddrIdx p config.addressIndex.toUInt32
  let p := fwcmdSetAddrOffset p 0
  let p := fwcmdSetAddrLen p addrCamEntSize
  let p := fwcmdSetAddrValid p config.valid.toUInt32
  let p := fwcmdSetAddrNetType p (if config.connected then 2 else 0)
  let p := fwcmdSetAddrBcnHitCond p config.beaconHit.toUInt32
  let p := fwcmdSetAddrHitRule p config.hitRule.toUInt32
  let p := fwcmdSetAddrBbSel p 0
  let p := fwcmdSetAddrAddrMask p config.addressMask.toUInt32
  let p := fwcmdSetAddrMaskSel p config.maskSelect.toUInt32
  let p := fwcmdSetAddrSmaHash p
    (addressHash config.local_ (if config.maskSelect = 1 then start else 0)).toUInt32
  let p := fwcmdSetAddrTmaHash p
    (addressHash config.bssid (if config.maskSelect = 2 then start else 0)).toUInt32
  let p := fwcmdSetAddrBssidCamIdx p config.bssidIndex.toUInt32
  let p := copyAddresses config p
  let p := fwcmdSetAddrPortInt p config.port.toUInt32
  let p := fwcmdSetAddrTsfSync p config.port.toUInt32
  let p := fwcmdSetAddrTfTrs p config.trigger.toUInt32
  let p := fwcmdSetAddrLsigTxop p config.lsigTxop.toUInt32
  let p := fwcmdSetAddrTgtInd p config.target.toUInt32
  let p := fwcmdSetAddrFrmTgtInd p config.frameTarget.toUInt32
  let p := fwcmdSetAddrMacid p config.macid.toUInt32
  let p := fwcmdSetAddrAid12 p (if config.connected then config.aid.toUInt32 else 0)
  let p := fwcmdSetAddrSecEntMode p 2
  let p := fwcmdSetAddrBssidIdx p config.bssidIndex.toUInt32
  let p := fwcmdSetAddrBssidOffset p 0
  let p := fwcmdSetAddrBssidLen p bssidCamEntSize
  let p := fwcmdSetAddrBssidValid p config.valid.toUInt32
  let p := fwcmdSetAddrBssidMask p (if config.nontransmitted then 0x1f else 0x3f)
  let p := fwcmdSetAddrBssidBbSel p 0
  let p := fwcmdSetAddrBssidBssColor p config.bssColor.toUInt32
  copyBssid config p

def addressCam (config : Cam) : Bool × Payload :=
  if config.macid ≥ 128 ∨ config.port > 4 ∨ config.addressIndex ≥ 128 ∨ config.bssidIndex ≥ 10 ∨
      !config.local_.unicast ∨ config.bssColor > 63 ∨ config.beaconHit > 3 ∨ config.hitRule > 3 ∨
      config.addressMask > 63 ∨ config.maskSelect > 2 ∨ config.target > 7 ∨ config.frameTarget > 7 ∨
      (config.connected ∧ (!config.bssid.unicast ∨ config.aid = 0 ∨ config.aid > 2007)) ∨
      (!config.connected ∧ config.aid ≠ 0) then
    (false, {})
  else
    (true, { id := camCommand, length := 60, bytes := fillAddressCam config fun _ => 0 })

end Tables
end Rtl8852be
