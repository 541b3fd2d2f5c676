import Rtl8852be.Rfk.RfkInitialization

/-!
# ChannelProgramming — register access while a channel is set

The types and the accessors of `ChannelProgramming.hpp`, over which the imported channel functions run.
The lease and the order of the steps are elsewhere.
-/

namespace Rtl8852be
namespace Tuning

open Interaction
open Rfk (suspicious)

/-! ## Types -/

inductive Error
  | none
  | precondition
  | io
  | timeout
  | clock
  | cancelled
  | pllUnlocked
  | readback
  | powerPolicy
  deriving DecidableEq, Repr

inductive Stage
  | idle
  | programming
  | prepared
  | complete
  | failed
  deriving DecidableEq, Repr

structure Result where
  error : Error := .none
  stage : Stage := .idle
  address : UInt32 := 0
  mask : UInt32 := 0
  value : UInt32 := 0
  path : UInt8 := 0
  operations : ℕ := 0
  polls : ℕ := 0
  registersProgrammed : Bool := false
  powerProgrammed : Bool := false
  receiversRestored : Bool := false
  requiresReset : Bool := false
  powerPolicyGeneration : UInt64 := 0
  deriving DecidableEq

/-- What the accessors use of the object with its context. -/
structure Programming where
  result : Result := {}
  started : Bool := false
  first : UInt64 := 0
  previous : UInt64 := 0
  base : ℕ := 0
  deriving DecidableEq

/-- The registers of the backend: `readBb`, `readChannelMac32` and `readChannelMac8`, and the writes of the
same names. -/
inductive Port
  | bb
  | channelMac32
  | channelMac8
  deriving DecidableEq

/-- What is asked of the backend.  A poll starts with a reading of the clock of its own, `startUs`. -/
inductive Call
  | cancelled
  | nowUs
  | startUs
  | readRf (path : UInt8) (a m : UInt32)
  | writeRf (path : UInt8) (a m v : UInt32)
  | read (port : Port) (a : UInt32)
  | write (port : Port) (a v : UInt32)
  | delayUs (us : ℕ)
  deriving DecidableEq

abbrev Reply : Call → Type
  | .nowUs | .startUs => UInt64
  | .readRf _ _ _ | .read _ _ => Bool × UInt32
  | _ => Bool

/-- The accessors, as foreign code calls them. -/
inductive Accessor
  | readRf (path : UInt8) (a m : UInt32)
  | writeRf (path : UInt8) (a m v : UInt32)
  | phyRead32Mask (a m : UInt32)
  | phyWrite32Mask (a m v : UInt32)
  | phyWrite32 (a v : UInt32)
  | phyWrite32Clr (a m : UInt32)
  | phyWrite32Idx (a m v : UInt32) (phy : ℕ)
  | phyRead32Idx (a m : UInt32) (phy : ℕ)
  | readMac (a : UInt32)
  | write32 (a v : UInt32)
  | write32Mask (a m v : UInt32)
  | write32Clr (a m : UInt32)
  | readByte (a : UInt32)
  | write8Mask (a m v : UInt32)
  | write8Clr (a m : UInt32)
  | write8Set (a m : UInt32)
  | regByIdx (a : UInt32) (index : UInt8)
  | checkMacEn (index : UInt8) (cmac : Bool)
  | debug
  | warn
  | delay (us : ℕ)
  deriving DecidableEq

abbrev Note := Mark Accessor

abbrev Gated := Code Programming Call Reply Note

abbrev Trace := List (Event Call Reply Note)

/-! ## Checks -/

def Programming.failing (d : Programming) (e : Error) : Programming :=
  if d.result.error = .none then
    { d with
      result := { d.result with
        error := e
        stage := .failed
        requiresReset := d.result.operations ≠ 0
        registersProgrammed := false
        powerProgrammed := false
        powerPolicyGeneration := 0
        receiversRestored := false } }
  else d

def fail (e : Error) : Gated Bool := do
  modify fun d => d.failing e
  return false

def Programming.clocked (d : Programming) (now : UInt64) : Programming :=
  if d.started then d else { d with first := now, previous := now, started := true }

def check : Gated Bool := do
  let d ← get
  if d.result.error ≠ .none then
    return false
  else if ← Code.ask Call.cancelled then
    fail .cancelled
  else do
    let now : UInt64 ← Code.ask Call.nowUs
    modify fun d => d.clocked now
    let d ← get
    if now < d.previous then
      fail .clock
    else do
      modify fun d => { d with previous := now }
      let d ← get
      if 2000000 < now - d.first ∨ 20000 ≤ d.result.operations - d.base then
        fail .timeout
      else
        return true

/-- An operation is counted and remembered. -/
def Programming.operating (d : Programming) (a m v : UInt32) (path : UInt8) : Programming :=
  { d with
    result := { d.result with
      operations := d.result.operations + 1, address := a, mask := m, value := v, path := path } }

/-! ## Accessors -/

def noting (v : UInt32) : Gated UInt32 := do
  modify fun d => { d with result := { d.result with value := v } }
  return v

/-- A reply to a read, whose value is kept in either case. -/
def finishRead (ok : Bool) (v : UInt32) : Gated UInt32 := do
  if ok then noting v
  else do
    let _ ← fail .io
    noting v

def finishWrite (ok : Bool) : Gated Unit := do
  if ok then return ()
  else do
    let _ ← fail .io
    return ()

def refuse (e : Error) : Gated Unit := do
  let _ ← fail e
  return ()

/-- `rtw89_read_rf`. -/
def readRf (path : UInt8) (a m : UInt32) : Gated UInt32 := do
  if ← check then do
    modify fun d => d.operating a m 0 path
    if 1 < path || m == 0 then do
      refuse .io
      noting 0
    else do
      let r : Bool × UInt32 ← Code.ask (Call.readRf path a m)
      finishRead r.1 r.2
  else
    return 0

/-- `rtw89_write_rf`. -/
def writeRf (path : UInt8) (a m v : UInt32) : Gated Unit := do
  if ← check then do
    modify fun d => d.operating a m v path
    if 1 < path || m == 0 then
      refuse .io
    else do
      let ok : Bool ← Code.ask (Call.writeRf path a m v)
      finishWrite ok
  else
    return ()

/-- `rtw89_phy_read32_mask`. -/
def phyRead32Mask (a m : UInt32) : Gated UInt32 := do
  if ← check then do
    modify fun d => d.operating a m 0 0
    if m = 0 then do
      refuse .io
      return 0
    else do
      let r : Bool × UInt32 ← Code.ask (Call.read .bb a)
      if !r.1 || suspicious r.2 then do
        let _ ← fail .io
        return 0
      else
        noting (fieldGet m r.2)
  else
    return 0

/-- One counted write.  `v` is the value as the caller gave it, `word` the one for the register. -/
def writing (port : Port) (a m v word : UInt32) : Gated Unit := do
  if ← check then do
    modify fun d => d.operating a m v 0
    let ok : Bool ← Code.ask (Call.write port a word)
    finishWrite ok
  else
    return ()

/-- `rtw89_phy_write32_mask`. -/
def phyWrite32Mask (a m v : UInt32) : Gated Unit := do
  if m = 0 then refuse .precondition
  else if m = 0xffffffff then
    writing .bb a m v (replaceBits 0 v m)
  else do
    let old ← phyRead32Mask a 0xffffffff
    writing .bb a m v (replaceBits old v m)

def phyWrite32 (a v : UInt32) : Gated Unit := phyWrite32Mask a 0xffffffff v

def phyWrite32Clr (a m : UInt32) : Gated Unit := phyWrite32Mask a m 0

def phyWrite32Idx (a m v : UInt32) (phy : ℕ) : Gated Unit :=
  if phy ≠ 0 then refuse .precondition else phyWrite32Mask a m v

def phyRead32Idx (a m : UInt32) (phy : ℕ) : Gated UInt32 := do
  if phy ≠ 0 then do
    refuse .precondition
    return 0
  else
    phyRead32Mask a m

def readMac (a : UInt32) : Gated UInt32 := do
  if ← check then do
    modify fun d => d.operating a 0xffffffff 0 0
    let r : Bool × UInt32 ← Code.ask (Call.read .channelMac32 a)
    finishRead (r.1 && !suspicious r.2) r.2
  else
    return 0

/-- `rtw89_write32`. -/
def write32 (a v : UInt32) : Gated Unit := writing .channelMac32 a 0xffffffff v v

/-- `rtw89_write32_mask`. -/
def write32Mask (a m v : UInt32) : Gated Unit := do
  if m = 0 then refuse .precondition
  else do
    let old ← readMac a
    write32 a (replaceBits old v m)

def write32Clr (a m : UInt32) : Gated Unit := write32Mask a m 0

def readByte (a : UInt32) : Gated UInt32 := do
  if ← check then do
    modify fun d => d.operating a 255 0 0
    let r : Bool × UInt32 ← Code.ask (Call.read .channelMac8 a)
    finishRead r.1 (Width.byte.narrow r.2)
  else
    return 0

/-- `rtw89_write8_mask`. -/
def write8Mask (a m v : UInt32) : Gated Unit := do
  if m = 0 ∨ m &&& ~~~255 ≠ 0 then refuse .precondition
  else do
    let old ← readByte a
    writing .channelMac8 a m v (Width.byte.narrow (replaceBits old v m))

def write8Clr (a m : UInt32) : Gated Unit := write8Mask a m 0

def write8Set (a m : UInt32) : Gated Unit := write8Mask a m (m >>> shift m)

/-- `rtw89_mac_reg_by_idx`. -/
def regByIdx (a : UInt32) (index : UInt8) : Gated UInt32 := do
  if index ≠ 0 then do
    refuse .precondition
    return a
  else
    return a

/-- `rtw89_mac_check_mac_en`: whether it returns 0.  The bit is `B_AX_CMAC_EN` of `R_AX_CMAC_FUNC_EN`. -/
def checkMacEn (index : UInt8) (cmac : Bool) : Gated Bool := do
  if index ≠ 0 ∨ cmac = false then
    fail .precondition
  else do
    let v ← readMac 0xC000
    if v &&& 0x40000000 = 0 then
      fail .precondition
    else
      check

def debug : Gated Unit := pure ()

def warn : Gated Unit := refuse .precondition

def delay (us : ℕ) : Gated Unit := do
  if ← check then
    if 50000 < us then
      refuse .io
    else do
      let ok : Bool ← Code.ask (Call.delayUs us)
      finishWrite ok
  else
    return ()

abbrev Value : Accessor → Type
  | .readRf _ _ _ | .phyRead32Mask _ _ | .phyRead32Idx _ _ _ | .readMac _ | .readByte _ | .regByIdx _ _ => UInt32
  | .checkMacEn _ _ => Bool
  | _ => Unit

def act : (x : Accessor) → Gated (Value x)
  | .readRf path a m => readRf path a m
  | .writeRf path a m v => writeRf path a m v
  | .phyRead32Mask a m => phyRead32Mask a m
  | .phyWrite32Mask a m v => phyWrite32Mask a m v
  | .phyWrite32 a v => phyWrite32 a v
  | .phyWrite32Clr a m => phyWrite32Clr a m
  | .phyWrite32Idx a m v phy => phyWrite32Idx a m v phy
  | .phyRead32Idx a m phy => phyRead32Idx a m phy
  | .readMac a => readMac a
  | .write32 a v => write32 a v
  | .write32Mask a m v => write32Mask a m v
  | .write32Clr a m => write32Clr a m
  | .readByte a => readByte a
  | .write8Mask a m v => write8Mask a m v
  | .write8Clr a m => write8Clr a m
  | .write8Set a m => write8Set a m
  | .regByIdx a index => regByIdx a index
  | .checkMacEn index cmac => checkMacEn index cmac
  | .debug => debug
  | .warn => warn
  | .delay us => delay us

/-- An accessor.  That it came back is remarked, whatever it did. -/
def access (x : Accessor) : Gated (Value x) := do
  let v ← act x
  Code.tell (.called x)
  return v

/-! ## Polls -/

def pollFrom (step timeout : ℕ) (start : UInt64) (ready : Gated Bool) : ℕ → Gated Bool
  | 0 => fail .timeout
  | n + 1 => do
      if ← check then do
        let d ← get
        Code.tell (.turned start d.previous)
        if d.previous < start then
          fail .clock
        else do
          let done ← ready
          modify fun d => { d with result := { d.result with polls := d.result.polls + 1 } }
          if ← check then do
            let d ← get
            Code.tell (.tried start d.previous timeout done)
            if done then
              return true
            else if timeout ≤ (d.previous - start).toNat then
              fail .timeout
            else do
              delay step
              pollFrom step timeout start ready n
          else
            return false
      else
        return false

/-- `poll`: whether it returns 0.  The condition is code over the accessors. -/
def poll (step timeout : ℕ) (ready : Prog Accessor Value Empty Bool) : Gated Bool := do
  let start : UInt64 ← Code.ask Call.startUs
  let ok ← pollFrom step timeout start (ready.through access) (timeout / (if step = 0 then 1 else step) + 1)
  Code.tell (.polled ok)
  return ok

/-- What foreign code may call. -/
inductive Shim
  | access (x : Accessor)
  | poll (step timeout : ℕ) (ready : Prog Accessor Value Empty Bool)

abbrev Shim.Value : Shim → Type
  | .access x => Tuning.Value x
  | .poll _ _ _ => Bool

def shim : (x : Shim) → Gated x.Value
  | .access x => access x
  | .poll step timeout ready => poll step timeout ready

def ignoring (x : Shim) : Gated Unit := do
  let _ ← shim x
  return ()

end Tuning
end Rtl8852be
