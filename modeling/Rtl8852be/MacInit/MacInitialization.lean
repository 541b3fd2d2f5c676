import Rtl8852be.Bits.Field
import Rtl8852be.Interaction.Latch
import Rtl8852be.Interaction.Shim

/-!
# MacInitialization — register access during the initialization of the MAC

The accessors of `MacInitialization.hpp`, over which the imported initialization functions run.  Every access
is checked, and the first failure is recorded.
-/

namespace Rtl8852be
namespace MacInit

open Interaction

/-! ## Registers -/

def macInitRegisters : List UInt32 :=
  [0xc000, 0xe000, 0xc004, 0xe004, 0x24, 0x80, 0x8400, 0x8404, 0x200, 0x9e50, 0x9e10, 0x9c04, 0x9c14, 0x9c00,
    0x9c40, 0x9d00, 0x9d04, 0x9d1c, 0xce34, 0xc33c, 0xc3fc, 0xc340, 0xc338, 0xce28, 0xce24, 0xce2c, 0xce20, 0xce04,
    0xcc00, 0xcc04, 0xc390, 0xcc80, 0xce4a, 0xce4b, 0xcc20, 0xca00, 0xca1c, 0xccb0, 0xce3c, 0xce02, 0xce00, 0xc088,
    0xc090, 0xc624, 0xc6e8, 0xc600, 0xc660, 0xe660, 0xc804, 0x8c08, 0x9008, 0x8d00, 0x9100, 0x9430, 0x9bf4, 0x9cf4,
    0x9ef0, 0x8c38, 0x9038, 0x9a20, 0x8850, 0x8854, 0x8858, 0x9840, 0x966c, 0xc3e8, 0xc6c0, 0x8520, 0xc160, 0xe160,
    0x9408, 0x9410, 0x9414, 0x270, 0x2, 0x2f0, 0x8040, 0xcc08, 0x8a00, 0x8a04, 0x8a10, 0x8a50, 0x8a8c, 0x8a90,
    0x8a94, 0x8a98, 0x8a9c, 0x8aa0, 0x8aa4, 0x8aa8, 0x9d1c, 0x9f1c, 0x9f2c, 0x960c, 0x962c, 0x963c, 0xc800, 0xccfc,
    0xcef4, 0xccec, 0x8c40, 0x8c44, 0x8c4c, 0x8c50, 0x9040, 0x9044, 0x9048, 0x904c, 0x9050, 0x9054, 0x9058, 0x905c,
    0x9060, 0x9064, 0x9068]

/-- The control and information registers of a page channel. -/
def achPageCtrl (ch : ℕ) : UInt32 := 0x8a10 + UInt32.ofNat ch * 4

def achPageInfo (ch : ℕ) : UInt32 := 0x8a50 + UInt32.ofNat ch * 4

def initAddress (a : UInt32) : Bool :=
  a == 0x271 || a ∈ macInitRegisters || ((List.range 13).any fun ch => a == achPageCtrl ch || a == achPageInfo ch) ||
    a ∈ [0x1e0, 0x1000, 0x1010, 0x101c, 0x1a0, 0x10b0, 0x13b0, 0x8d00, 0x9100, 0x8a00, 0x9008, 0x9058]

def initWriteAddress (a : UInt32) : Bool :=
  if 0xe000 ≤ a || a == 0x24 || a == 0x80 then false
  else ([0, 1, 2, 3, 8, 9].any fun ch => a == achPageCtrl ch) || a ∈ macInitRegisters

/-- The enable bits of the interrupt masks that are cleared and then set. -/
def reportImrMask (a : UInt32) : UInt32 :=
  if a = 0x9430 then 0x3337
  else if a = 0x8c38 then 0x70ff0ff
  else if a = 0x9038 then 0x70ff0ff
  else if a = 0x8850 then 0xff0fffff
  else if a = 0x8854 then 0xff07ffff
  else if a = 0x8858 then 0x3f031f1f
  else if a = 0x9840 then 0x1111
  else 0

def suspicious (a v : UInt32) : Bool :=
  (v == 0xffffffff && a != 0x8520 && a != 0xc160 && a != 0xc004 && reportImrMask a == 0) || v == 0xdeadbeef

/-! ## Types -/

inductive InitError
  | none
  | precondition
  | read
  | write
  | timeout
  | clock
  | cancelled
  | upstream
  deriving DecidableEq, Repr

/-- The part of the context and its result that the accessors use. -/
structure Context where
  error : InitError := .none
  address : UInt32 := 0
  expected : UInt32 := 0
  actual : UInt32 := 0
  reads : ℕ := 0
  writes : ℕ := 0
  polls : ℕ := 0
  warnings : ℕ := 0
  begin_ : UInt64 := 0
  previous : UInt64 := 0
  clockStarted : Bool := false
  lastAddress : UInt32 := 0
  lastValue : UInt32 := 0
  deriving DecidableEq

/-- What is asked of the device.  A poll starts with a reading of the clock of its own, `startUs`. -/
inductive Call
  | cancelled
  | nowUs
  | startUs
  | read (w : Width) (a : UInt32)
  | write (w : Width) (a v : UInt32)
  | delayUs (us : ℕ)
  deriving DecidableEq

abbrev Reply : Call → Type
  | .nowUs | .startUs => UInt64
  | .read _ _ => Bool × UInt32
  | _ => Bool

/-- The accessors, as foreign code calls them. -/
inductive Accessor
  | read8 (a : UInt32)
  | read16 (a : UInt32)
  | read32 (a : UInt32)
  | read32Mask (a m : UInt32)
  | write8 (a v : UInt32)
  | write16 (a v : UInt32)
  | write32 (a v : UInt32)
  | write32Mask (a m v : UInt32)
  | write16Mask (a m v : UInt32)
  | write8Mask (a m v : UInt32)
  | write32Set (a m : UInt32)
  | write32Clr (a m : UInt32)
  | write16Set (a m : UInt32)
  | write8Set (a m : UInt32)
  | write8Clr (a m : UInt32)
  | warn
  | regByIdx (a index : UInt32)
  | equals (a m wanted : UInt32)
  | checkMacEn (band : UInt32) (dmac : Bool)
  deriving DecidableEq

abbrev Gated := Code Context Call Reply (Mark Accessor)

abbrev Trace := List (Event Call Reply (Mark Accessor))

/-! ## Checks -/

def Context.failing (d : Context) (e : InitError) (a expected actual : UInt32) : Context :=
  if d.error = .none then { d with error := e, address := a, expected := expected, actual := actual } else d

def fail (e : InitError) (a expected actual : UInt32) : Gated Bool := do
  modify fun d => d.failing e a expected actual
  return false

def Context.started (d : Context) (now : UInt64) : Context :=
  if d.clockStarted then d else { d with begin_ := now, previous := now, clockStarted := true }

def check : Gated Bool := do
  let d ← get
  if d.error ≠ .none then
    return false
  else if ← Code.ask Call.cancelled then
    fail .cancelled 0 0 0
  else do
    let now : UInt64 ← Code.ask Call.nowUs
    modify fun d => d.started now
    let d ← get
    if now < d.previous then
      fail .clock 0 0 0
    else do
      modify fun d => { d with previous := now }
      let d ← get
      if 500000 < now - d.begin_ ∨ 100000 < d.reads + d.writes then
        fail .timeout 0 0 0
      else
        return true

/-! ## Accessors -/

/-- What a read of this width refuses to believe. -/
def unreadable (w : Width) (a v : UInt32) : Bool := w == .word && suspicious a v

def reading (w : Width) (a : UInt32) : Gated UInt32 := do
  if ← check then do
    modify fun d => { d with reads := d.reads + 1 }
    if initAddress a then do
      let r : Bool × UInt32 ← Code.ask (Call.read w a)
      let v := w.narrow r.2
      if !r.1 || unreadable w a v then do
        let _ ← fail .read a 0 (if w = .word then v else 0)
        modify fun d => { d with lastAddress := a, lastValue := v }
        return v
      else do
        modify fun d => { d with lastAddress := a, lastValue := v }
        return v
    else do
      let _ ← fail .read a 0 0
      modify fun d => { d with lastAddress := a, lastValue := 0 }
      return 0
  else
    return 0

def writing (w : Width) (a v : UInt32) : Gated Bool := do
  if ← check then do
    modify fun d => { d with writes := d.writes + 1 }
    if initWriteAddress a then
      if ← Code.ask (Call.write w a v) then
        return true
      else
        fail .write a v 0
    else
      fail .write a v 0
  else
    return false

def read8 (a : UInt32) : Gated UInt32 := reading .byte a

def read16 (a : UInt32) : Gated UInt32 := reading .half a

def read32 (a : UInt32) : Gated UInt32 := reading .word a

def write8 (a v : UInt32) : Gated Unit := do
  let _ ← writing .byte a (Width.byte.narrow v)
  return ()

def write16 (a v : UInt32) : Gated Unit := do
  let _ ← writing .half a (Width.half.narrow v)
  return ()

/-- An interrupt mask is read back: a word that is stuck does not take the bits. -/
def write32 (a v : UInt32) : Gated Unit := do
  if ← writing .word a v then
    if reportImrMask a ≠ 0 then do
      let got ← read32 a
      if ← check then
        if (got ^^^ v) &&& reportImrMask a ≠ 0 then do
          let _ ← fail .precondition a (v &&& reportImrMask a) got
          return ()
        else
          return ()
      else
        return ()
    else
      return ()
  else
    return ()

def writeAs : Width → UInt32 → UInt32 → Gated Unit
  | .byte => write8
  | .half => write16
  | .word => write32

/-- A register is read, and written with the new value. -/
def updating (w : Width) (a : UInt32) (f : UInt32 → UInt32) : Gated Unit := do
  let old ← reading w a
  writeAs w a (f old)

def read32Mask (a m : UInt32) : Gated UInt32 := do
  let v ← read32 a
  return (v &&& m) >>> shift m

def write32Mask (a m v : UInt32) : Gated Unit := updating .word a fun old => replaceBits old v m

def write16Mask (a m v : UInt32) : Gated Unit := updating .half a fun old => replaceBits old v m

def write8Mask (a m v : UInt32) : Gated Unit := updating .byte a fun old => replaceBits old v m

def write32Set (a m : UInt32) : Gated Unit := updating .word a fun old => old ||| m

def write32Clr (a m : UInt32) : Gated Unit := updating .word a fun old => old &&& ~~~m

def write16Set (a m : UInt32) : Gated Unit := updating .half a fun old => old ||| m

def write8Set (a m : UInt32) : Gated Unit := updating .byte a fun old => old ||| m

def write8Clr (a m : UInt32) : Gated Unit := updating .byte a fun old => old &&& ~~~m

/-- `rtw89_err` and `rtw89_warn`. -/
def warn : Gated Unit := modify fun d => { d with warnings := d.warnings + 1 }

def regByIdx (a index : UInt32) : Gated UInt32 := do
  if index ≠ 0 then do
    let _ ← fail .precondition a 0 index
    return a
  else
    return a

def equals (a m wanted : UInt32) : Gated Bool := do
  let v ← read32 a
  if ← check then
    if v &&& m = wanted then return true else fail .precondition a wanted v
  else
    return false

/-- `rtw89_mac_check_mac_en`: whether it returns 0. -/
def checkMacEn (band : UInt32) (dmac : Bool) : Gated Bool := do
  if band ≠ 0 then
    return false
  else if ← check then
    if dmac then equals 0x8400 0x20000000 0x20000000 else equals 0xc000 0x40000000 0x40000000
  else
    return false

abbrev Value : Accessor → Type
  | .read8 _ | .read16 _ | .read32 _ | .read32Mask _ _ | .regByIdx _ _ => UInt32
  | .equals _ _ _ | .checkMacEn _ _ => Bool
  | _ => Unit

def act : (x : Accessor) → Gated (Value x)
  | .read8 a => read8 a
  | .read16 a => read16 a
  | .read32 a => read32 a
  | .read32Mask a m => read32Mask a m
  | .write8 a v => write8 a v
  | .write16 a v => write16 a v
  | .write32 a v => write32 a v
  | .write32Mask a m v => write32Mask a m v
  | .write16Mask a m v => write16Mask a m v
  | .write8Mask a m v => write8Mask a m v
  | .write32Set a m => write32Set a m
  | .write32Clr a m => write32Clr a m
  | .write16Set a m => write16Set a m
  | .write8Set a m => write8Set a m
  | .write8Clr a m => write8Clr a m
  | .warn => warn
  | .regByIdx a index => regByIdx a index
  | .equals a m wanted => equals a m wanted
  | .checkMacEn band dmac => checkMacEn band dmac

/-- An accessor.  That it came back is remarked, whatever it did. -/
def access (x : Accessor) : Gated (Value x) := do
  let v ← act x
  Code.tell (.called x)
  return v

/-! ## Polls -/

def pollFrom (delay timeout : ℕ) (start : UInt64) (ready : Gated Bool) : ℕ → Gated Bool
  | 0 => do
      let d ← get
      fail .timeout d.lastAddress 0 d.lastValue
  | n + 1 => do
      if ← check then do
        let d ← get
        Code.tell (.turned start d.previous)
        if d.previous < start then
          fail .clock 0 0 0
        else do
          let done ← ready
          modify fun d => { d with polls := d.polls + 1 }
          if ← check then do
            let d ← get
            Code.tell (.tried start d.previous timeout done)
            if done then
              return true
            else if timeout ≤ (d.previous - start).toNat then
              fail .timeout d.lastAddress 0 d.lastValue
            else if ← Code.ask (Call.delayUs delay) then
              pollFrom delay timeout start ready n
            else
              fail .write 0 0 0
          else
            return false
      else
        return false

/-- `poll`: whether it returns 0.  The condition is code over the accessors. -/
def poll (delay timeout : ℕ) (ready : Prog Accessor Value Empty Bool) : Gated Bool := do
  let start : UInt64 ← Code.ask Call.startUs
  let ok ← pollFrom delay timeout start (ready.through access) (timeout / (if delay = 0 then 1 else delay) + 1)
  Code.tell (.polled ok)
  return ok

/-! ## Calls -/

inductive Op
  | access (x : Accessor)
  | poll (delay timeout : ℕ) (ready : Prog Accessor Value Empty Bool)

def exec : Op → Gated Unit
  | .access x => do
      let _ ← access x
      return ()
  | .poll delay timeout ready => do
      let _ ← poll delay timeout ready
      return ()

abbrev Record := Interaction.Record Context Call Reply (Mark Accessor) Op Unit

/-- Any calls of foreign code, from any context. -/
abbrev Run (d₀ : Context) : List Record → Context → Prop := Interaction.Run exec d₀

end MacInit
end Rtl8852be
