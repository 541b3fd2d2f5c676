import Rtl8852be.Rfk.RfkInitialization

/-!
# MacRfkIo — registers that are used under a calibration lease

`MacRfkIo.cpp`: the lease, the emission of a calibration, and the accessors.  `RadioAccess` runs over the
accessors of `MacRadioIo.cpp` and is taken as any code over them.
-/

namespace Rtl8852be
namespace RfkIo

open Interaction
open Rfk (Kind suspicious)

/-! ## The object and its environment -/

/-- Which of the fields of `CalibrationControl` are set. -/
structure CalibrationControl where
  owner : Bool := false
  begin_ : Bool := false
  end_ : Bool := false
  oneshot : Bool := false
  recover : Bool := false
  check : Bool := false
  deriving DecidableEq

structure MacRfkIo where
  valid : Bool := false
  stopped : Bool := false
  control : CalibrationControl := {}
  active : Bool := false
  oneshotActive : Bool := false
  txArmed : Bool := false
  modified : Bool := false
  kind : Kind := .rck
  oneshotMap : UInt8 := 0
  leaseLost : Bool := false
  deriving DecidableEq

/-- What is asked of the device and of the owner of the lease.  `stopTx` is the write of
`stopCalibrationTx`; all other words and bytes of the mapping are written by `write32` and `write8`. -/
inductive Call
  | command
  | check (kind : Kind)
  | begin_ (kind : Kind)
  | end_ (kind : Kind) (success : Bool)
  | oneshot (kind : Kind) (phyMap : UInt8) (start : Bool)
  | recover (kind : Kind)
  | read32 (a : UInt32)
  | read8 (a : UInt32)
  | write32 (a v : UInt32)
  | write8 (a : UInt32) (v : UInt8)
  | stopTx (v : UInt32)
  | wait (us : ℕ)
  deriving DecidableEq

abbrev Reply : Call → Type
  | .command => UInt16
  | .read32 _ => UInt32
  | .read8 _ => UInt8
  | .write32 _ _ | .write8 _ _ | .stopTx _ | .wait _ => Unit
  | _ => Bool

/-- The lease is taken or given back, and a write is handed to `RadioAccess`. -/
inductive Note
  | acquired
  | released
  | handed
  deriving DecidableEq

abbrev Gated := Code MacRfkIo Call Reply Note

abbrev Trace := List (Event Call Reply Note)

/-! ## The lease -/

def lose : Gated Bool := do
  modify fun d => { d with leaseLost := true }
  return false

/-- `checkLease`, with `control_.check` called for the kind of the lease. -/
def checkLease : Gated Bool := do
  let d ← get
  if !d.active || d.leaseLost then
    return false
  else if !d.control.check then
    lose
  else if ← Code.ask (Call.check d.kind) then
    return true
  else
    lose

/-- The device is there and decodes memory. -/
def presentCommand (command : UInt16) : Bool := command != 0xffff && command &&& 2 != 0

def accessible (requireLease : Bool) : Gated Bool := do
  let d ← get
  if !d.valid || d.stopped then
    return false
  else do
    let command : UInt16 ← Code.ask Call.command
    if !presentCommand command then
      return false
    else do
      let d ← get
      if !requireLease || !d.active then
        return true
      else
        checkLease

/-- `macRead`: whether it succeeded, and the word. -/
def macRead (a : UInt32) (requireLease : Bool) : Gated (Bool × UInt32) := do
  if ← accessible requireLease then
    if a &&& 3 ≠ 0 ∨ 0x10000 ≤ a then
      return (false, 0)
    else do
      let v : UInt32 ← Code.ask (Call.read32 a)
      if suspicious v then
        return (false, v)
      else do
        let ok ← accessible requireLease
        return (ok, v)
  else
    return (false, 0)

def macMatches (a : UInt32) (wanted : UInt32 → Bool) (requireLease : Bool) : Gated Bool := do
  let r ← macRead a requireLease
  return r.1 && wanted r.2

/-- `R_AX_CMAC_FUNC_EN` with `B_AX_CMAC_EN`. -/
def cmacEnabled : Gated Bool := macMatches 0xC000 (fun v => v &&& 0x40000000 != 0) true

/-- `R_AX_CTN_TXEN` with `B_AX_CTN_TXEN_ALL_MASK`: the scheduler transmits nothing. -/
def txPaused (requireLease : Bool) : Gated Bool := macMatches 0xC348 (fun v => v &&& 0xffff == 0) requireLease

/-! ## Emission -/

/-- `0x10000 + R_PMAC_TX_PRD`. -/
def pmacTxPrd : UInt32 := 0x109c4

/-- `B_PMAC_CTX_EN | B_PMAC_PTX_EN`. -/
def emissionEnables : UInt32 := 0x11

def stopCalibrationTx : Gated Bool := do
  let d ← get
  if !d.txArmed then
    return true
  else if !d.active || d.kind != .tssi || !d.valid then
    return false
  else do
    let command : UInt16 ← Code.ask Call.command
    if !presentCommand command then
      return false
    else do
      let old : UInt32 ← Code.ask (Call.read32 pmacTxPrd)
      if suspicious old then
        return false
      else do
        Code.ask (Call.stopTx (old &&& ~~~emissionEnables))
        let readback : UInt32 ← Code.ask (Call.read32 pmacTxPrd)
        if suspicious readback || readback &&& emissionEnables != 0 then
          return false
        else do
          modify fun d => { d with txArmed := false }
          return true

def armCalibrationTx : Gated Bool := do
  let d ← get
  if !d.active || d.kind != .tssi || d.txArmed || !d.oneshotActive then
    return false
  else if ← accessible true then do
    modify fun d => { d with txArmed := true }
    return true
  else
    return false

def startOneshot (kind : Kind) (phyMap : UInt8) : Gated Bool := do
  let d ← get
  if d.oneshotActive then
    return false
  else if ← accessible true then
    if ← Code.ask (Call.oneshot kind phyMap true) then do
      modify fun d => { d with oneshotActive := true, oneshotMap := phyMap }
      return true
    else
      return false
  else
    return false

def stopOneshot (kind : Kind) (phyMap : UInt8) : Gated Bool := do
  let d ← get
  if d.txArmed || !d.oneshotActive || phyMap != d.oneshotMap then
    return false
  else if ← Code.ask (Call.oneshot kind phyMap false) then do
    modify fun d => { d with oneshotActive := false }
    return true
  else
    return false

def oneshot (kind : Kind) (phyMap : UInt8) (start : Bool) : Gated Bool := do
  let d ← get
  if !d.active || kind != d.kind || !d.control.oneshot then
    return false
  else if start then
    startOneshot kind phyMap
  else
    stopOneshot kind phyMap

/-! ## Taking the lease and giving it back -/

/-- The lease is lost again, and the engine has to be recovered. -/
def taint : Gated Bool := do
  modify fun d => { d with modified := true }
  return false

/-- `if(txArmed_&&!stopCalibrationTx())return false;`. -/
def stopEmission : Gated Bool := do
  let d ← get
  if d.txArmed then stopCalibrationTx else return true

/-- `if(success&&!checkLease())return false;`. -/
def confirmLease (success : Bool) : Gated Bool := if success then checkLease else return true

/-- After a failure that may have left an engine running, the owner recovers it. -/
def recoverEngine (kind : Kind) (success : Bool) : Gated Bool := do
  let d ← get
  if !success && (d.modified || d.leaseLost) then
    if ← Code.ask (Call.recover kind) then do
      modify fun d => { d with modified := false, leaseLost := false }
      return true
    else
      return false
  else
    return true

/-- `if(oneshotActive_&&!oneshot(kind,oneshotMap_,false))return false;`. -/
def stopEngine (kind : Kind) : Gated Bool := do
  let d ← get
  if d.oneshotActive then oneshot kind d.oneshotMap false else return true

/-- After a channel was set, the scheduler must still be paused. -/
def stayPaused (kind : Kind) (success requireLease : Bool) : Gated Bool := do
  if kind = .channel ∧ success = true then
    if ← txPaused requireLease then
      return true
    else
      taint
  else
    return true

def release : Gated Bool := do
  modify fun d => { d with active := false, modified := false }
  Code.tell .released
  return true

def end_ (kind : Kind) (success : Bool) : Gated Bool := do
  let d ← get
  if !d.active || kind != d.kind then
    return false
  else
    Code.every [stopEmission, confirmLease success, recoverEngine kind success, stopEngine kind,
      stayPaused kind success true, Code.ask (Call.end_ kind success), stayPaused kind success false, release]

/-- Firmware, MAC and baseband are ready, and the scheduler is paused. -/
def preflight : Gated Bool :=
  Code.every [macMatches 0x1e0 (fun v => fieldGet 0xe0 v == 7) true, cmacEnabled,
    macMatches 0 (fun v => v &&& 0x30000 == 0x30000) true, txPaused true]

def CalibrationControl.complete (c : CalibrationControl) : Bool :=
  c.owner && c.begin_ && c.end_ && c.recover && c.check

def acquire (kind : Kind) : Gated Unit := do
  modify fun d => { d with active := true, leaseLost := false, kind := kind }
  Code.tell .acquired

/-- The lease is taken; if the device is not ready, it is given back at once. -/
def enter (kind : Kind) : Gated Bool := do
  acquire kind
  if ← preflight then
    return true
  else do
    let _ ← end_ kind false
    return false

def begin_ (kind : Kind) : Gated Bool := do
  let d ← get
  if d.active then
    return false
  else if ← accessible true then
    if !d.control.complete then
      return false
    else if (kind = .iqk ∨ kind = .tssi) ∧ d.control.oneshot = false then
      return false
    else if ← Code.ask (Call.begin_ kind) then
      enter kind
    else
      return false
  else
    return false

/-! ## Radio access -/

/-- `MacRadioIo::accessible`, whose guard is `checkLease`. -/
def radioAccessible (offset : UInt32) : Gated Bool := do
  let d ← get
  if !d.valid || d.stopped || offset &&& 3 ≠ 0 || offset < 0x10000 || 0x20000 ≤ offset then
    return false
  else do
    let command : UInt16 ← Code.ask Call.command
    if !presentCommand command then
      return false
    else
      checkLease

def radioRead32 (offset : UInt32) : Gated (Bool × UInt32) := do
  if ← radioAccessible offset then do
    let v : UInt32 ← Code.ask (Call.read32 offset)
    if v = 0xffffffff then
      return (false, 0)
    else if ← radioAccessible offset then
      return (true, v)
    else
      return (false, 0)
  else
    return (false, 0)

def radioWrite32 (offset v : UInt32) : Gated Bool := do
  if ← radioAccessible offset then do
    Code.ask (Call.write32 offset v)
    radioAccessible offset
  else
    return false

/-- The rest of a delay: whole milliseconds first. -/
def radioWait : ℕ → ℕ → Gated Bool
  | 0, us => do
      if us ≠ 0 then do
        Code.ask (Call.wait us)
        radioAccessible 0x10000
      else
        radioAccessible 0x10000
  | ms + 1, us => do
      Code.ask (Call.wait 1000)
      if ← radioAccessible 0x10000 then
        radioWait ms us
      else
        return false

def radioDelayUs (us : ℕ) : Gated Bool := do
  if 50000 < us then
    return false
  else if ← radioAccessible 0x10000 then
    radioWait (us / 1000) (us % 1000)
  else
    return false

/-- What `RadioAccess` asks of `MacRadioIo`. -/
inductive RadioCall
  | cancelled
  | read32 (offset : UInt32)
  | write32 (offset v : UInt32)
  | delayUs (us : ℕ)
  deriving DecidableEq

abbrev RadioReply : RadioCall → Type
  | .read32 _ => Bool × UInt32
  | _ => Bool

def radioIo : (c : RadioCall) → Gated (RadioReply c)
  | .cancelled => do
      let d ← get
      return d.stopped
  | .read32 offset => radioRead32 offset
  | .write32 offset v => radioWrite32 offset v
  | .delayUs us => radioDelayUs us

/-- A function of `RadioAccess`: whether it succeeded, and a value. -/
abbrev Radio := Prog RadioCall RadioReply Empty (Bool × UInt32)

/-! ## Accessors -/

/-- Under a lease, `RadioAccess` reads. -/
def radioReading (radio : Radio) : Gated (Bool × UInt32) := do
  let d ← get
  if !d.active then
    return (false, 0)
  else if ← accessible true then
    radio.through radioIo
  else
    return (false, 0)

/-- Under a lease, `RadioAccess` writes. -/
def radioWriting (radio : Radio) : Gated (Bool × UInt32) := do
  let d ← get
  if !d.active then
    return (false, 0)
  else if ← accessible true then do
    modify fun d => { d with modified := true }
    Code.tell .handed
    radio.through radioIo
  else
    return (false, 0)

/-- One word or byte is written; afterwards the device must still be there. -/
def storing (c : Call) : Gated Bool := do
  modify fun d => { d with modified := true }
  let _ ← Code.ask c
  accessible true

def writeMac (a v : UInt32) : Gated Bool := do
  let d ← get
  if !d.active then
    return false
  else if ← accessible true then
    if a ≠ 0x8040 ∨ v ≠ 0xf then
      return false
    else
      storing (.write32 a v)
  else
    return false

def macByteAddress (a : UInt32) : Bool := a == 0xC010 || a == 0xC628

def macWordAddress (a : UInt32) (write : Bool) : Bool :=
  a == 0xC088 || a == 0xCE40 || a == 0x9C18 || (!write && a == 0xC000)

/-- `power::macAddress`. -/
def powerMacAddress (a : UInt32) : Bool :=
  a == 0xd200 || a == 0xd204 ||
    (a &&& 3 == 0 && ((0xd2c0 ≤ a && a < 0xd2c0 + 44) || (0xd2ec ≤ a && a < 0xd2ec + 80) ||
      (0xd33c ≤ a && a < 0xd33c + 48)))

def readChannelMac8 (a : UInt32) : Gated (Bool × UInt8) := do
  let d ← get
  if !d.active || d.kind != .channel then
    return (false, 0)
  else if ← accessible true then
    if !macByteAddress a then
      return (false, 0)
    else do
      let v : UInt8 ← Code.ask (Call.read8 a)
      let ok ← accessible true
      return (ok, v)
  else
    return (false, 0)

def writeChannelMac8 (a : UInt32) (v : UInt8) : Gated Bool := do
  let d ← get
  if !d.active || d.kind != .channel then
    return false
  else if ← accessible true then
    if !macByteAddress a then return false else storing (.write8 a v)
  else
    return false

def readChannelMac32 (a : UInt32) : Gated (Bool × UInt32) := do
  let d ← get
  if !d.active || d.kind != .channel || !macWordAddress a false then
    return (false, 0)
  else
    macRead a true

def writeChannelMac32 (a v : UInt32) : Gated Bool := do
  let d ← get
  if !d.active || d.kind != .channel then
    return false
  else if ← accessible true then
    if !macWordAddress a true then return false else storing (.write32 a v)
  else
    return false

def readPowerMac32 (a : UInt32) : Gated (Bool × UInt32) := do
  let d ← get
  if !d.active || d.kind != .channel || !powerMacAddress a then
    return (false, 0)
  else if ← Code.every [cmacEnabled, txPaused true] then do
    let v : UInt32 ← Code.ask (Call.read32 a)
    let ok ← Code.every [cmacEnabled, txPaused true]
    return (ok, v)
  else
    return (false, 0)

def writePowerMac32 (a v : UInt32) : Gated Bool := do
  let r ← readPowerMac32 a
  if r.1 then storing (.write32 a v) else return false

/-! ## Calls -/

inductive Op
  | cancel
  | begin_ (kind : Kind)
  | end_ (kind : Kind) (success : Bool)
  | oneshot (kind : Kind) (phyMap : UInt8) (start : Bool)
  | armCalibrationTx
  | stopCalibrationTx
  | readRf (radio : Radio)
  | writeRf (radio : Radio)
  | readBb (radio : Radio)
  | writeBb (radio : Radio)
  | writeMac (a v : UInt32)
  | readChannelMac8 (a : UInt32)
  | writeChannelMac8 (a : UInt32) (v : UInt8)
  | readChannelMac32 (a : UInt32)
  | writeChannelMac32 (a v : UInt32)
  | readPowerMac32 (a : UInt32)
  | writePowerMac32 (a v : UInt32)
  | drain (radio : Radio)
  | delayUs (us : ℕ)

def reading {α : Type} (m : Gated (Bool × α)) : Gated Bool := do
  let r ← m
  return r.1

def cancel : Gated Bool := do
  modify fun d => { d with stopped := true }
  return true

def delayUs (us : ℕ) : Gated Bool := do
  let d ← get
  if !d.active then
    return false
  else if ← accessible true then
    radioDelayUs us
  else
    return false

def exec : Op → Gated Bool
  | .cancel => cancel
  | .begin_ kind => begin_ kind
  | .end_ kind success => end_ kind success
  | .oneshot kind phyMap start => oneshot kind phyMap start
  | .armCalibrationTx => armCalibrationTx
  | .stopCalibrationTx => stopCalibrationTx
  | .readRf radio | .readBb radio | .drain radio => reading (radioReading radio)
  | .writeRf radio | .writeBb radio => reading (radioWriting radio)
  | .writeMac a v => writeMac a v
  | .readChannelMac8 a => reading (readChannelMac8 a)
  | .writeChannelMac8 a v => writeChannelMac8 a v
  | .readChannelMac32 a => reading (readChannelMac32 a)
  | .writeChannelMac32 a v => writeChannelMac32 a v
  | .readPowerMac32 a => reading (readPowerMac32 a)
  | .writePowerMac32 a v => writePowerMac32 a v
  | .delayUs us => delayUs us

abbrev Record := Interaction.Record MacRfkIo Call Reply Note Op Bool

abbrev Run (d₀ : MacRfkIo) : List Record → MacRfkIo → Prop := Interaction.Run exec d₀

def create (valid : Bool) (control : CalibrationControl) : MacRfkIo := { valid := valid, control := control }

end RfkIo
end Rtl8852be
