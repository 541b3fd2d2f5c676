import Rtl8852be.Rfk.RfkInitialization

/-!
# DevicePower — register access while the device is switched on or off

The types and the accessors of `DevicePower.hpp`, over which the imported power functions run, with the
serial commands to the crystal.  Switching on and off is elsewhere.
-/

namespace Rtl8852be
namespace Power

open Interaction
open Rfk (suspicious)

/-! ## Types -/

inductive Error
  | none
  | precondition
  | io
  | readback
  | timeout
  | clock
  | cancelled
  | upstream
  deriving DecidableEq, Repr

structure ActionResult where
  error : Error := .none
  address : UInt32 := 0
  expected : UInt32 := 0
  actual : UInt32 := 0
  reads : ℕ := 0
  writes : ℕ := 0
  polls : ℕ := 0
  delays : ℕ := 0
  deriving DecidableEq

/-- What the accessors use of the context of the power functions. -/
structure Device where
  result : ActionResult := {}
  cleanup : Bool := false
  clockStarted : Bool := false
  pmcOwned : Bool := false
  first : UInt64 := 0
  previous : UInt64 := 0
  deriving DecidableEq

/-! ## Registers -/

def sysPwCtrl : UInt32 := 0x0004

/-- `B_AX_APFN_ONMAC | B_AX_APFM_OFFMAC`. -/
def selfClearing : UInt32 := 0x300

def pmcDbgCtrl2 : UInt32 := 0x00CC

/-- `B_AX_SYSON_DIS_PMCR_AX_WRMSK`. -/
def pmcWriteMask : UInt32 := 4

def icPwrState : UInt32 := 0x03F0

def xtalSiCtrl : UInt32 := 0x0270

/-- `B_AX_WL_XTAL_SI_CMD_POLL`. -/
def siBusy : UInt32 := 0x80000000

/-- The registers of the crystal that may be written: `XTAL_SI_ANAPAR_WL`, `XTAL_SI_SRAM_CTRL`,
`XTAL_SI_XTAL_XMD_2`, `XTAL_SI_XTAL_XMD_4`, `XTAL_SI_WL_RFC_S0` and `XTAL_SI_WL_RFC_S1`. -/
def siAddress (a : UInt8) : Bool := a == 0x90 || a == 0xA1 || a == 0x24 || a == 0x26 || a == 0x80 || a == 0x81

def powerSiCommand (value : UInt32) : Bool :=
  let a := value.toUInt8
  let v := (value >>> 8).toUInt8
  let m := (value >>> 16).toUInt8
  let mode := (value >>> 24) &&& 3
  if value &&& 0x7c000000 ≠ 0 || value &&& 0x80000000 = 0 then false
  else if !siAddress a then false
  else if mode = 1 then v == 0 && m == 0
  else if mode ≠ 0 || v &&& ~~~m ≠ 0 then false
  else if a = 0x90 then m != 0 && m &&& (m - 1) == 0 && (v == 0 || v == m)
  else if a = 0xA1 then m == 2 && v == 0
  else if a = 0x24 then m == 0x70 && v == 0
  else if a = 0x26 then m == 0x0f && v == 0
  else m == 1 && v == 0

/-! ## The environment -/

/-- What is asked of the device. -/
inductive Call
  | inGate
  | cancelled
  | command
  | nowUs
  | read (w : Width) (a : UInt32)
  | write (w : Width) (a v : UInt32)
  | delayUs (us : ℕ)
  deriving DecidableEq

abbrev Reply : Call → Type
  | .command => UInt16
  | .nowUs => UInt64
  | .read _ _ => Bool × UInt32
  | _ => Bool

/-- The accessors refuse no argument, so only polls are remarked. -/
abbrev Note := Mark Empty

abbrev Gated := Code Device Call Reply Note

abbrev Trace := List (Event Call Reply Note)

/-! ## Checks -/

def Device.failing (d : Device) (e : Error) (a wanted actual : UInt32) : Device :=
  if d.result.error = .none then
    { d with result := { d.result with error := e, address := a, expected := wanted, actual := actual } }
  else d

def fail (e : Error) (a wanted actual : UInt32) : Gated Bool := do
  modify fun d => d.failing e a wanted actual
  return false

def Device.clocked (d : Device) (now : UInt64) : Device :=
  if d.clockStarted then d else { d with clockStarted := true, first := now, previous := now }

/-- The command register says that the device is there, with memory access and bus mastering as expected. -/
def badCommand (command : UInt16) : Bool := command == 0xffff || command &&& 6 != 2

/-- The part of `check` after the cancellation. -/
def checkBus : Gated Bool := do
  let command : UInt16 ← Code.ask Call.command
  if badCommand command then
    fail .precondition 4 2 command.toUInt32
  else do
    let now : UInt64 ← Code.ask Call.nowUs
    modify fun d => d.clocked now
    let d ← get
    if now < d.previous then
      fail .clock 0 0 0
    else do
      modify fun d => { d with previous := now }
      let d ← get
      if 1000000 ≤ now - d.first ∨ 40000 ≤ d.result.reads + d.result.writes then
        fail .timeout 0 0 0
      else
        return true

def check : Gated Bool := do
  let d ← get
  if d.result.error ≠ .none then
    return false
  else if ← Code.ask Call.inGate then
    if d.cleanup then
      checkBus
    else if ← Code.ask Call.cancelled then
      fail .cancelled 0 0 0
    else
      checkBus
  else
    fail .precondition 0 0 0

/-! ## Accessors -/

def Device.reading (d : Device) : Device := { d with result := { d.result with reads := d.result.reads + 1 } }

/-- A word that no register holds.  Narrow registers may hold anything. -/
def unreadable (w : Width) (v : UInt32) : Bool := w == .word && suspicious v

/-- `(void)check(d); return value;`. -/
def checkedValue (v : UInt32) : Gated UInt32 := do
  let _ ← check
  return v

def read (a : UInt32) (w : Width) : Gated UInt32 := do
  if ← check then do
    modify fun d => d.reading
    let r : Bool × UInt32 ← Code.ask (Call.read w a)
    if !r.1 || unreadable w (w.narrow r.2) then do
      let _ ← fail .io a 0 (w.narrow r.2)
      checkedValue (w.narrow r.2)
    else
      checkedValue (w.narrow r.2)
  else
    return 0

/-- A write is counted; one that opens the write mask is remembered. -/
def Device.writing (d : Device) (a v : UInt32) : Device :=
  { d with
    result := { d.result with writes := d.result.writes + 1 }
    pmcOwned := d.pmcOwned || (a = pmcDbgCtrl2 ∧ v &&& pmcWriteMask ≠ 0) }

/-- The bits that must read back as they were written. -/
def verifyMask (a mask : UInt32) : UInt32 := if a = sysPwCtrl then mask &&& ~~~selfClearing else mask

/-- What was written is read back, unless nothing of it must stay. -/
def verify (a v : UInt32) (w : Width) (mask : UInt32) : Gated Bool := do
  if mask ≠ 0 then do
    let got ← read a w
    if ← check then
      if got &&& mask ≠ v &&& mask then
        fail .readback a (v &&& mask) (got &&& mask)
      else
        return true
    else
      return false
  else
    return true

def write (a v : UInt32) (w : Width) (mask : UInt32) : Gated Bool := do
  if ← check then do
    modify fun d => d.writing a v
    if ← Code.ask (Call.write w a (w.narrow v)) then
      if ← check then
        verify a v w (verifyMask a mask)
      else
        return false
    else
      fail .io a v 0
  else
    return false

def writeAs (w : Width) (a v mask : UInt32) : Gated Unit := do
  let _ ← write a v w mask
  return ()

def update (a m v : UInt32) (w : Width) : Gated Unit := do
  let old ← read a w
  writeAs w a ((old &&& ~~~m) ||| (v &&& m)) m

def delay (us : ℕ) : Gated Bool := do
  if ← check then do
    modify fun d => { d with result := { d.result with delays := d.result.delays + 1 } }
    if ← Code.ask (Call.delayUs us) then
      check
    else do
      fail .io 0 0 0
  else
    return false

/-! ## Polls -/

/-- The rest of a poll, with this many turns left. -/
def pollFrom (step timeout : ℕ) (start : UInt64) (predicate : Gated Bool) : ℕ → Gated Bool
  | 0 => fail .timeout 0 0 0
  | n + 1 => do
      if ← check then do
        let ready ← predicate
        modify fun d => { d with result := { d.result with polls := d.result.polls + 1 } }
        if ← check then do
          let d ← get
          Code.tell (.tried start d.previous timeout ready)
          if timeout < (d.previous - start).toNat then
            fail .timeout 0 0 0
          else if ready then
            return true
          else if timeout ≤ (d.previous - start).toNat ∨ n = 0 then
            fail .timeout 0 0 0
          else if ← delay step then
            pollFrom step timeout start predicate n
          else
            return false
        else
          return false
      else
        return false

/-- It starts at the last reading of the clock. -/
def polling (step timeout : ℕ) (predicate : Gated Bool) : Gated Bool := do
  if ← check then do
    let d ← get
    pollFrom step timeout d.previous predicate (timeout / (if step = 0 then 1 else step) + 1)
  else
    return false

/-- `poll`: whether it returns 0. -/
def poll (step timeout : ℕ) (predicate : Gated Bool) : Gated Bool := do
  let ok ← polling step timeout predicate
  Code.tell (.polled ok)
  return ok

/-! ## Serial commands -/

/-- The condition of `siIdle`: the last command was taken. -/
def siTaken : Gated Bool := do
  let v ← read xtalSiCtrl .word
  return v &&& siBusy == 0

def siIdle : Gated Bool := poll 50 50000 siTaken

/-- A command that is written when none is under way, and that is waited for. -/
def siCommand (command : UInt32) : Gated Bool := do
  if ← write xtalSiCtrl command .word 0 then
    siIdle
  else
    return false

def siWord (offset value bits : UInt8) : UInt32 :=
  (0x80000000 : UInt32) ||| bits.toUInt32 <<< 16 ||| value.toUInt32 <<< 8 ||| offset.toUInt32

def siQuery (offset : UInt8) : UInt32 := (0x81000000 : UInt32) ||| offset.toUInt32

def siVerify (offset value bits : UInt8) : Gated Bool := do
  if ← siCommand (siQuery offset) then do
    let got ← read (xtalSiCtrl + 1) .byte
    if ← check then
      if got.toUInt8 &&& bits = value &&& bits then
        return true
      else
        fail .readback xtalSiCtrl (value &&& bits).toUInt32 (got.toUInt8 &&& bits).toUInt32
    else
      return false
  else
    return false

/-- `rtw89_mac_write_xtal_si`: whether it returns 0. -/
def writeXtalSi (offset value bits : UInt8) : Gated Bool := do
  if powerSiCommand (siWord offset value bits) then
    if ← siIdle then
      if ← siCommand (siWord offset value bits) then
        siVerify offset value bits
      else
        return false
    else
      return false
  else
    return false

/-! ## Foreign code -/

/-- The accessors, as foreign code calls them. -/
inductive Accessor
  | read8 (a : UInt32)
  | read16 (a : UInt32)
  | read32 (a : UInt32)
  | write32 (a v : UInt32)
  | write16 (a : UInt32) (v : UInt16)
  | write32Set (a m : UInt32)
  | write32Clr (a m : UInt32)
  | write8Set (a : UInt32) (m : UInt8)
  | write8Clr (a : UInt32) (m : UInt8)
  | write32Mask (a m v : UInt32)
  | write16Mask (a : UInt32) (m v : UInt16)
  | delay (us : ℕ)
  deriving DecidableEq

abbrev Value : Accessor → Type
  | .read8 _ | .read16 _ | .read32 _ => UInt32
  | .delay _ => Bool
  | _ => Unit

def access : (x : Accessor) → Gated (Value x)
  | .read8 a => read a .byte
  | .read16 a => read a .half
  | .read32 a => read a .word
  | .write32 a v => writeAs .word a v 0xffffffff
  | .write16 a v => writeAs .half a v.toUInt32 0xffff
  | .write32Set a m => update a m m .word
  | .write32Clr a m => update a m 0 .word
  | .write8Set a m => update a m.toUInt32 m.toUInt32 .byte
  | .write8Clr a m => update a m.toUInt32 0 .byte
  | .write32Mask a m v => update a m (v <<< shift m) .word
  | .write16Mask a m v => update a m.toUInt32 (v.toUInt32 <<< shift m.toUInt32) .half
  | .delay us => delay us

/-- What foreign code may call.  The condition of a poll is code over the accessors. -/
inductive Shim
  | access (x : Accessor)
  | poll (step timeout : ℕ) (predicate : Prog Accessor Value Empty Bool)
  | writeXtalSi (offset value bits : UInt8)

abbrev Shim.Value : Shim → Type
  | .access x => Power.Value x
  | .poll _ _ _ | .writeXtalSi _ _ _ => Bool

def shim : (x : Shim) → Gated x.Value
  | .access x => access x
  | .poll step timeout predicate => poll step timeout (predicate.through access)
  | .writeXtalSi offset value bits => writeXtalSi offset value bits

def ignoring (x : Shim) : Gated Unit := do
  let _ ← shim x
  return ()

end Power
end Rtl8852be
