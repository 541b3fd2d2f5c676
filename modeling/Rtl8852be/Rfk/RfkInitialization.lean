import Rtl8852be.Bits.Field
import Rtl8852be.Interaction.Latch
import Rtl8852be.Interaction.Shim
import Rtl8852be.Wire.Channel

/-!
# RfkInitialization — register access during a calibration

The types and the accessors of `RfkInitialization.hpp`, over which the imported calibrations run.  What a
calibration measures is in `Measured`; the steps that start and judge calibrations are elsewhere.
-/

namespace Rtl8852be
namespace Rfk

open Interaction

/-! ## Types -/

inductive Error
  | none
  | precondition
  | io
  | timeout
  | clock
  | cancelled
  | calibration
  deriving DecidableEq, Repr

inductive Stage
  | idle
  | rck
  | dack
  | rxDc
  | complete
  | iqk
  | tssi
  | dpk
  | track
  | scan
  deriving DecidableEq, Repr

inductive Kind
  | rck
  | dack
  | rxDc
  | iqk
  | tssi
  | dpk
  | track
  | scan
  | channel
  deriving DecidableEq, Repr

inductive Space
  | none
  | mac
  | baseband
  | radio
  deriving DecidableEq

structure Result where
  error : Error := .none
  stage : Stage := .idle
  space : Space := .none
  address : UInt32 := 0
  mask : UInt32 := 0
  value : UInt32 := 0
  path : UInt8 := 0
  operations : ℕ := 0
  polls : ℕ := 0
  messages : ℕ := 0
  rckReady : Bool := false
  dackReady : Bool := false
  rxDcReady : Bool := false
  iqReady : Bool := false
  tssiReady : Bool := false
  dpkReady : Bool := false
  requiresReset : Bool := false
  ownershipReleased : Bool := false
  iqChannel : Channel := {}
  scanHome : Channel := {}
  scanChannel : Channel := {}
  scanActive : Bool := false
  scanReady : Bool := false
  deriving DecidableEq

/-- What an IQ calibration says of a path. -/
structure IqkFlags where
  lokFail : Bool := false
  lokCorFail : Bool := false
  lokFinFail : Bool := false
  txFail : Bool := false
  rxFail : Bool := false
  deriving DecidableEq

/-- The coefficients of a path, and the channel they were measured on. -/
structure DpkBackup where
  pathOk : Bool := false
  therDpk : UInt8 := 0
  ch : UInt8 := 0
  band : UInt8 := 0
  bw : UInt8 := 0
  deriving DecidableEq

/-- What calibrations leave behind.  `memory` stands for everything of theirs that is used by nothing else:
coefficients, backups, and what they were configured with. -/
structure Measured where
  dackDone : Bool := false
  iqk : Fin 2 → IqkFlags := fun _ => {}
  restoreFailed : Fin 2 → Bool := fun _ => false
  isTssiMode : Fin 2 → Bool := fun _ => false
  bp : Fin 2 → Fin 2 → DpkBackup := fun _ _ => {}
  curIdx : Fin 2 → Fin 2 := fun _ => 0
  avgThermal : Fin 2 → UInt32 := fun _ => 0
  memory : ℕ → UInt8 := fun _ => 0

/-- The initialization with its context. -/
structure Initialization where
  result : Result := {}
  measured : Measured := {}
  channel : Channel := {}
  oneshotActive : Bool := false
  calibrationConfigured : Bool := false
  homeDpkReady : Bool := false
  first : UInt64 := 0
  previous : UInt64 := 0
  operationBase : ℕ := 0
  started : Bool := false
  lastSpace : Space := .none
  lastAddress : UInt32 := 0
  lastMask : UInt32 := 0
  lastValue : UInt32 := 0
  lastPath : UInt8 := 0
  rxDcChannel : Channel := {}
  preparedRxDc : Bool := false

/-- What is asked of the backend.  `startUs` is a reading of the clock that no check makes: a poll starts with one, and
an imported calibration takes the time with two. -/
inductive Call
  | cancelled
  | nowUs
  | startUs
  | readRf (path : UInt8) (a m : UInt32)
  | writeRf (path : UInt8) (a m v : UInt32)
  | readBb (a : UInt32)
  | writeBb (a v : UInt32)
  | writeMac (a v : UInt32)
  | delayUs (us : ℕ)
  | oneshot (kind : Kind) (phyMap : UInt8) (start : Bool)
  | armCalibrationTx
  | stopCalibrationTx
  | begin_ (kind : Kind)
  | end_ (kind : Kind) (success : Bool)
  | drain
  deriving DecidableEq

abbrev Reply : Call → Type
  | .nowUs | .startUs => UInt64
  | .readRf _ _ _ | .readBb _ => Bool × UInt32
  | _ => Bool

/-- `rtw89_reg5_def`. -/
structure RegDef where
  flag : ℕ
  path : UInt8
  addr : UInt32
  mask : UInt32
  data : UInt32
  deriving DecidableEq

/-- The accessors, as foreign code calls them. -/
inductive Accessor
  | readRf (path : UInt8) (a m : UInt32)
  | writeRf (path : UInt8) (a m v : UInt32)
  | phyRead32Mask (a m : UInt32)
  | phyWrite32Mask (a m v : UInt32)
  | phyWrite32 (a v : UInt32)
  | phyWrite32Set (a m : UInt32)
  | phyWrite32Clr (a m : UInt32)
  | phyWrite32Idx (a m v : UInt32) (phy : ℕ)
  | phyRead32Idx (a m : UInt32) (phy : ℕ)
  | write32 (a v : UInt32)
  | delay (us : ℕ)
  | debug
  | chanGet (entity : ℕ)
  | btcPhymap (phy paths : UInt32)
  | btcNtfyWlRfk (phyMap : UInt8) (type state : ℕ)
  | rfkParser (table : Option (List RegDef))
  deriving DecidableEq

/-- The calls whose end is remarked: accessors, and the entries of a table. -/
abbrev Called := Mark (Accessor ⊕ RegDef)

abbrev Gated := Code Initialization Call Reply Called

abbrev Trace := List (Event Call Reply Called)

/-! ## Checks -/

def Initialization.failing (d : Initialization) (e : Error) : Initialization :=
  if d.result.error = .none then
    { d with
      result := { d.result with
        error := e
        space := d.lastSpace
        address := d.lastAddress
        mask := d.lastMask
        value := d.lastValue
        path := d.lastPath
        requiresReset := d.result.operations ≠ 0 } }
  else d

def fail (e : Error) : Gated Bool := do
  modify fun d => d.failing e
  return false

def Initialization.clocked (d : Initialization) (now : UInt64) : Initialization :=
  if d.started then d else { d with first := now, previous := now, started := true }

def check : Gated Bool := do
  let d ← get
  if d.result.error ≠ .none then
    return false
  else if ← Code.ask Call.cancelled then
    fail .cancelled
  else do
    let now : UInt64 ← Code.ask Call.nowUs
    modify fun d => d.clocked now
    let d ← get
    if now < d.previous then
      fail .clock
    else do
      modify fun d => { d with previous := now }
      let d ← get
      if 2000000 < now - d.first ∨ 200000 ≤ d.result.operations - d.operationBase then
        fail .timeout
      else
        return true

/-- An operation is counted and remembered. -/
def Initialization.operating (d : Initialization) (s : Space) (a m v : UInt32) (path : UInt8) : Initialization :=
  { d with
    result := { d.result with operations := d.result.operations + 1 }
    lastSpace := s
    lastAddress := a
    lastMask := m
    lastValue := v
    lastPath := path }

/-! ## Accessors -/

def noting (v : UInt32) : Gated UInt32 := do
  modify fun d => { d with lastValue := v }
  return v

/-- `rtw89_read_rf`. -/
def readRf (path : UInt8) (a m : UInt32) : Gated UInt32 := do
  if ← check then do
    modify fun d => d.operating .radio a m 0 path
    if 1 < path || m == 0 || m &&& ~~~0xfffff != 0 then do
      let _ ← fail .io
      noting 0
    else do
      let r : Bool × UInt32 ← Code.ask (Call.readRf path a m)
      if r.1 then noting r.2
      else do
        let _ ← fail .io
        noting r.2
  else
    return 0

def finishWrite (ok : Bool) : Gated Unit := do
  if ok then return ()
  else do
    let _ ← fail .io
    return ()

/-- `rtw89_write_rf`. -/
def writeRf (path : UInt8) (a m v : UInt32) : Gated Unit := do
  if ← check then do
    modify fun d => d.operating .radio a m v path
    if 1 < path || m == 0 || m &&& ~~~0xfffff != 0 then do
      let _ ← fail .io
      return ()
    else do
      let ok : Bool ← Code.ask (Call.writeRf path a m v)
      finishWrite ok
  else
    return ()

/-- A word that no baseband register holds. -/
def suspicious (v : UInt32) : Bool := v == 0xffffffff || v == 0xdeadbeef

/-- `rtw89_phy_read32_mask`. -/
def phyRead32Mask (a m : UInt32) : Gated UInt32 := do
  if ← check then do
    modify fun d => d.operating .baseband a m 0 0
    if m = 0 then do
      let _ ← fail .io
      return 0
    else do
      let r : Bool × UInt32 ← Code.ask (Call.readBb a)
      if !r.1 || suspicious r.2 then do
        let _ ← fail .io
        return 0
      else
        noting (fieldGet m r.2)
  else
    return 0

/-- `rtw89_phy_write32_mask`. -/
def phyWrite32Mask (a m v : UInt32) : Gated Unit := do
  if m = 0 then do
    let _ ← fail .precondition
    return ()
  else do
    let old ← if m = 0xffffffff then pure 0 else phyRead32Mask a 0xffffffff
    if ← check then do
      modify fun d => d.operating .baseband a m v 0
      let ok : Bool ← Code.ask (Call.writeBb a (replaceBits old v m))
      finishWrite ok
    else
      return ()

def phyWrite32 (a v : UInt32) : Gated Unit := phyWrite32Mask a 0xffffffff v

def phyWrite32Set (a m : UInt32) : Gated Unit := phyWrite32Mask a m (m >>> shift m)

def phyWrite32Clr (a m : UInt32) : Gated Unit := phyWrite32Mask a m 0

def refuse : Gated Unit := do
  let _ ← fail .precondition
  return ()

def phyWrite32Idx (a m v : UInt32) (phy : ℕ) : Gated Unit := if phy ≠ 0 then refuse else phyWrite32Mask a m v

def phyRead32Idx (a m : UInt32) (phy : ℕ) : Gated UInt32 := do
  if phy ≠ 0 then do
    refuse
    return 0
  else
    phyRead32Mask a m

/-- `rtw89_write32`. -/
def write32 (a v : UInt32) : Gated Unit := do
  if ← check then do
    modify fun d => d.operating .mac a 0xffffffff v 0
    let ok : Bool ← Code.ask (Call.writeMac a v)
    finishWrite ok
  else
    return ()

def delay (us : ℕ) : Gated Unit := do
  if ← check then
    if 50000 < us then do
      let _ ← fail .io
      return ()
    else do
      let ok : Bool ← Code.ask (Call.delayUs us)
      finishWrite ok
  else
    return ()

def debug : Gated Unit := modify fun d => { d with result := { d.result with messages := d.result.messages + 1 } }

/-- `rtw89_chan_get`. -/
def chanGet (entity : ℕ) : Gated Channel := do
  let d ← get
  if entity ≠ 0 then do
    refuse
    return d.channel
  else
    return d.channel

/-- `rtw89_btc_phymap`.  The paths are `RF_AB`. -/
def btcPhymap (phy paths : UInt32) : Gated UInt8 := do
  let d ← get
  if phy ≠ 0 ∨ paths ≠ 3 then do
    refuse
    return 0
  else
    return ((paths &&& 0xf) ||| fieldPrep 0x30 1 ||| fieldPrep 0xc0 d.channel.band.toUInt32).toUInt8

/-- `rtw89_btc_ntfy_wl_rfk`: type `BTC_WRFKT_IQK` is 0, and a oneshot starts with 2 and stops with 3. -/
def btcNtfyWlRfk (phyMap : UInt8) (type state : ℕ) : Gated Unit := do
  if type ≠ 0 ∨ (state ≠ 2 ∧ state ≠ 3) then
    refuse
  else do
    let d ← get
    let kind := if d.result.stage = .tssi then Kind.tssi else .iqk
    if state = 2 then
      if ← check then
        if d.oneshotActive then
          refuse
        else if ← Code.ask (Call.oneshot kind phyMap true) then
          modify fun d => { d with oneshotActive := true }
        else
          finishWrite false
      else
        return ()
    else if d.oneshotActive then
      if ← check then
        if ← Code.ask (Call.oneshot kind phyMap false) then
          modify fun d => { d with oneshotActive := false }
        else
          finishWrite false
      else
        return ()
    else
      return ()

def entry (r : RegDef) : Gated Unit :=
  match r.flag with
  | 0 => writeRf r.path r.addr r.mask r.data
  | 1 => phyWrite32Mask r.addr r.mask r.data
  | 2 => phyWrite32Mask r.addr r.mask (r.mask >>> shift r.mask)
  | 3 => phyWrite32Mask r.addr r.mask 0
  | 4 => delay r.data.toNat
  | _ => refuse

def parseDef (r : RegDef) : Gated Unit := do
  let v ← entry r
  Code.tell (.called (.inr r))
  return v

def parseDefs : List RegDef → Gated Unit
  | [] => return ()
  | r :: defs => do
      if ← check then do
        parseDef r
        parseDefs defs
      else
        return ()

/-- `rtw89_rfk_parser`. -/
def rfkParser (table : Option (List RegDef)) : Gated Unit :=
  match table with
  | none => refuse
  | some defs => if 4096 < defs.length then refuse else parseDefs defs

abbrev Value : Accessor → Type
  | .readRf _ _ _ | .phyRead32Mask _ _ | .phyRead32Idx _ _ _ => UInt32
  | .chanGet _ => Channel
  | .btcPhymap _ _ => UInt8
  | _ => Unit

def act : (x : Accessor) → Gated (Value x)
  | .readRf path a m => readRf path a m
  | .writeRf path a m v => writeRf path a m v
  | .phyRead32Mask a m => phyRead32Mask a m
  | .phyWrite32Mask a m v => phyWrite32Mask a m v
  | .phyWrite32 a v => phyWrite32 a v
  | .phyWrite32Set a m => phyWrite32Set a m
  | .phyWrite32Clr a m => phyWrite32Clr a m
  | .phyWrite32Idx a m v phy => phyWrite32Idx a m v phy
  | .phyRead32Idx a m phy => phyRead32Idx a m phy
  | .write32 a v => write32 a v
  | .delay us => delay us
  | .debug => debug
  | .chanGet entity => chanGet entity
  | .btcPhymap phy paths => btcPhymap phy paths
  | .btcNtfyWlRfk phyMap type state => btcNtfyWlRfk phyMap type state
  | .rfkParser table => rfkParser table

/-- An accessor.  That it came back is remarked, whatever it did. -/
def access (x : Accessor) : Gated (Value x) := do
  let v ← act x
  Code.tell (.called (.inl x))
  return v

/-! ## Polls -/

def pollFrom (step timeout : ℕ) (start : UInt64) (ready : Gated Bool) : ℕ → Gated Bool
  | 0 => fail .timeout
  | n + 1 => do
      if ← check then do
        let d ← get
        Code.tell (.turned start d.previous)
        if d.previous < start then
          fail .clock
        else do
          let done ← ready
          modify fun d => { d with result := { d.result with polls := d.result.polls + 1 } }
          if ← check then do
            let d ← get
            Code.tell (.tried start d.previous timeout done)
            if done then
              return true
            else if timeout ≤ (d.previous - start).toNat then
              fail .timeout
            else do
              delay step
              pollFrom step timeout start ready n
          else
            return false
      else
        return false

/-- `poll`: whether it returns 0.  The condition is code over the accessors. -/
def poll (step timeout : ℕ) (ready : Prog Accessor Value Empty Bool) : Gated Bool := do
  let start : UInt64 ← Code.ask Call.startUs
  let ok ← pollFrom step timeout start (ready.through access) (timeout / (if step = 0 then 1 else step) + 1)
  Code.tell (.polled ok)
  return ok

/-! ## Calls of foreign code -/

inductive Op
  | access (x : Accessor)
  | poll (step timeout : ℕ) (ready : Prog Accessor Value Empty Bool)

def exec : Op → Gated Unit
  | .access x => do
      let _ ← access x
      return ()
  | .poll step timeout ready => do
      let _ ← poll step timeout ready
      return ()

end Rfk
end Rtl8852be
