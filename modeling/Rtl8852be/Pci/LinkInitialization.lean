import Rtl8852be.Interaction.Triple

/-!
# LinkInitialization — the PCIe link before and after the firmware

`PciLinkInitialization.hpp`.  Every access is checked before and after it, and the first failure is kept.  The
configuration space is read and written through the bus, or through the DBI engine when the bus says no.  On the
way L1 is switched off, and `restoreL1` puts the byte back, also when the reason to stop was a failure.
-/

namespace Rtl8852be
namespace PciLink

open Interaction Code

/-! ## The environment -/

inductive Width
  | byte
  | half
  | word
  deriving DecidableEq

@[reducible] def Width.Val : Width → Type
  | .byte => UInt8
  | .half => UInt16
  | .word => UInt32

def Width.zero : (w : Width) → w.Val
  | .byte => (0 : UInt8)
  | .half => (0 : UInt16)
  | .word => (0 : UInt32)

def Width.toWord : (w : Width) → w.Val → UInt32
  | .byte, v => UInt8.toUInt32 v
  | .half, v => UInt16.toUInt32 v
  | .word, v => v

/-- What a word reads as when nothing answers. -/
def Width.unreadable : (w : Width) → w.Val → Bool
  | .word, v => (v : UInt32) == 0xffffffff || (v : UInt32) == 0xeaeaeaea || (v : UInt32) == 0xdeadbeef
  | _, _ => false

/-- The methods of `Io`. -/
inductive Io
  | inGate
  | cancelled
  | nowUs
  | delayUs (us : ℕ)
  | read (w : Width) (a : UInt32)
  | write (w : Width) (a : UInt32) (v : w.Val)
  | readConfig8 (a : UInt16)
  | writeConfig8 (a : UInt16) (v : UInt8)

/-- A read says whether it succeeded, and what it left in its argument. -/
@[reducible] def Reply : Io → Type
  | .inGate => Bool
  | .cancelled => Bool
  | .nowUs => UInt64
  | .delayUs _ => Bool
  | .read w _ => Bool × w.Val
  | .write _ _ _ => Bool
  | .readConfig8 _ => Bool × UInt8
  | .writeConfig8 _ _ => Bool

/-! ## The record -/

inductive Error
  | none
  | invalid
  | ownership
  | cancelled
  | clock
  | timeout
  | io
  | readback
  | mdioTimeout
  | dbiTimeout
  | linkSpeed
  deriving DecidableEq, Repr

structure Result where
  error : Error := .none
  address : UInt32 := 0
  value : UInt32 := 0
  operations : UInt32 := 0
  polls : UInt32 := 0
  dbiFallbacks : UInt32 := 0
  cut : UInt8 := 0
  linkSpeed : UInt8 := 0
  preConfigured : Bool := false
  postConfigured : Bool := false
  modified : Bool := false
  requiresRecovery : Bool := false
  l1RestoreAttempted : Bool := false
  l1Restored : Bool := false
  l1RestoreFailed : Bool := false
  deriving DecidableEq

structure Initialization where
  busy : Bool := false
  cleanup : Bool := false
  clockStarted : Bool := false
  phaseStart : UInt64 := 0
  last : UInt64 := 0
  phaseOperations : ℕ := 0
  l1Changed : Bool := false
  savedL1 : UInt8 := 0
  result : Result := {}
  deriving DecidableEq

/-- The arguments of `fail`; an annotation of the model at each of its calls. -/
abbrev Fault := Error × UInt32 × UInt32

abbrev Link := Code Initialization Io Reply Fault

abbrev Trace := List (Event Io Reply Fault)

/-! ## Checks -/

def Initialization.failing (d : Initialization) (e : Error) (a v : UInt32) : Initialization :=
  let result := if d.result.error = .none then { d.result with error := e, address := a, value := v } else d.result
  { d with result := { result with requiresRecovery := result.modified } }

def fail (e : Error) (a v : UInt32) : Link Bool := do
  tell (e, a, v)
  modify fun d => d.failing e a v
  return false

def Initialization.read (d : Initialization) (now : UInt64) : Initialization :=
  { d with clockStarted := true, last := now }

/-- The time that a phase may take; the cleanup has its own. -/
def Initialization.budget (d : Initialization) : UInt64 := if d.cleanup then 5000 else 100000

def check : Link Bool := do
  let d ← get
  if d.result.error ≠ .none ∧ d.cleanup = false then
    return false
  else if !(← ask .inGate) then
    fail .ownership 0 0
  else if ← ask .cancelled then
    fail .cancelled 0 0
  else
    let now ← ask .nowUs
    if d.clockStarted = true ∧ now < d.last then
      fail .clock 0 0
    else
      modify fun d => d.read now
      if now < d.phaseStart then
        fail .clock 0 0
      else if d.budget ≤ now - d.phaseStart ∨ 20000 ≤ d.phaseOperations then
        fail .timeout 0 0
      else
        return true

def enter : Link Bool := do
  let d ← get
  if d.busy then
    fail .ownership 0 0
  else if d.result.error ≠ .none then
    return false
  else
    let now ← ask .nowUs
    if d.clockStarted = true ∧ now < d.last then
      fail .clock 0 0
    else
      modify fun d => { d with phaseStart := now, phaseOperations := 0 }
      if ← check then
        modify fun d => { d with busy := true }
        return true
      else
        return false

/-! ## Accessors -/

def Initialization.operation (d : Initialization) : Initialization :=
  { d with phaseOperations := d.phaseOperations + 1, result.operations := d.result.operations + 1 }

def Initialization.modifying (d : Initialization) : Initialization := { d with result.modified := true }

def andThen {α : Type} (m : Link (Bool × α)) (f : α → Link Bool) : Link Bool := do
  let r ← m
  if r.1 then
    f r.2
  else
    return false

/-- `r8`, `r16` and `r32`; only a word can be unreadable. -/
def reading (w : Width) (a : UInt32) : Link (Bool × w.Val) := do
  if ← check then
    modify fun d => d.operation
    let r ← ask (Io.read w a)
    if r.1 = false then
      let _ ← fail .io a 0
      return (false, r.2)
    else if w.unreadable r.2 then
      let _ ← fail .io a (w.toWord r.2)
      return (false, r.2)
    else
      let ok ← check
      return (ok, r.2)
  else
    return (false, w.zero)

def r8 (a : UInt32) : Link (Bool × UInt8) := reading .byte a
def r16 (a : UInt32) : Link (Bool × UInt16) := reading .half a
def r32 (a : UInt32) : Link (Bool × UInt32) := reading .word a

/-- `w8`, `w16` and `w32`. -/
def writing (w : Width) (a : UInt32) (v : w.Val) : Link Bool := do
  if ← check then
    modify fun d => d.operation.modifying
    if ← ask (.write w a v) then
      check
    else
      fail .io a (w.toWord v)
  else
    return false

def w8 (a : UInt32) (v : UInt8) : Link Bool := writing .byte a v
def w16 (a : UInt32) (v : UInt16) : Link Bool := writing .half a v
def w32 (a v : UInt32) : Link Bool := writing .word a v

def delay (us : ℕ) : Link Bool := do
  if ← check then
    if ← ask (.delayUs us) then
      check
    else
      fail .io 0 0
  else
    return false

def update32 (a clear set verify : UInt32) : Link Bool :=
  andThen (r32 a) fun old =>
    let v := (old &&& ~~~clear) ||| set
    both (w32 a v) <| andThen (r32 a) fun got =>
      if (got ^^^ v) &&& verify = 0 then
        return true
      else
        fail .readback a got

def full32 (a v : UInt32) : Link Bool :=
  both (w32 a v) <| andThen (r32 a) fun got =>
    if got = v then
      return true
    else
      fail .readback a got

/-- The remaining rounds of a wait that began at `start`. -/
def idleFrom (w : Width) (a : UInt32) (pending : w.Val → Bool) (limit : UInt64) (e : Error) (value : UInt32)
    (start : UInt64) : ℕ → Link Bool
  | 0 => fail e a value
  | rounds + 1 =>
      andThen (reading w a) fun v => do
        modify fun d => { d with result.polls := d.result.polls + 1 }
        let d ← get
        if limit < d.last - start then
          fail e a value
        else if pending v = false then
          return true
        else if limit ≤ d.last - start ∨ rounds = 0 then
          fail e a value
        else
          both (delay 10) (idleFrom w a pending limit e value start rounds)

/-! ## MDIO -/

def mdioConfig : UInt32 := 0x10a0
def mdioWriteData : UInt32 := 0x10a4
def mdioReadData : UInt32 := 0x10a6

def mdioIdle (mask : UInt16) : Link Bool := do
  let d ← get
  idleFrom .half mdioConfig (fun v => v &&& mask != 0) 2000 .mdioTimeout mask.toUInt32 d.last 201

def mdioPage (address speed : UInt8) : UInt16 :=
  (if speed = 2 then 2 else 0) + (if 0x20 ≤ address then 1 else 0)

def mdioTrigger (address speed : UInt8) (flag : UInt16) : Link Bool :=
  both (w8 mdioConfig (address &&& 31)) <| andThen (r16 mdioConfig) fun old =>
    both (w16 mdioConfig ((old &&& ~~~(0x3000 : UInt16)) ||| (mdioPage address speed <<< 12))) <|
      andThen (r16 mdioConfig) fun v => both (w16 mdioConfig (v ||| flag)) (mdioIdle flag)

def readMdio (address speed : UInt8) : Link (Bool × UInt16) := do
  if ← both (mdioIdle 0x300) (mdioTrigger address speed 0x200) then
    r16 mdioReadData
  else
    return (false, 0)

def writeMdio (address speed : UInt8) (v : UInt16) : Link Bool :=
  both (mdioIdle 0x300) <| both (w16 mdioWriteData v) (mdioTrigger address speed 0x100)

def updateMdio (address speed : UInt8) (mask bits : UInt16) : Link Bool :=
  andThen (readMdio address speed) fun v =>
    let next := (v &&& ~~~mask) ||| (bits &&& mask)
    both (writeMdio address speed next) <| andThen (readMdio address speed) fun got =>
      if (got ^^^ next) &&& mask = 0 then
        return true
      else
        fail .readback address.toUInt32 got.toUInt32

/-! ## The configuration space -/

def dbiFlag : UInt32 := 0x1090
def dbiWriteData : UInt32 := 0x1094
def dbiReadData : UInt32 := 0x1098

def dbiIdle : Link Bool := do
  let d ← get
  idleFrom .byte (dbiFlag + 2) (fun v => v != 0) 200 .dbiTimeout 0 d.last 21

/-- `v` is what the caller's argument holds before. -/
def readDbi (address : UInt16) (v : UInt8) : Link (Bool × UInt8) := do
  if ← both dbiIdle (both (w16 dbiFlag (address &&& 0xffc)) (both (w8 (dbiFlag + 2) 2) dbiIdle)) then
    r8 (dbiReadData + (address &&& 3).toUInt32)
  else
    return (false, v)

def writeDbi (address : UInt16) (v : UInt8) : Link Bool :=
  let lane := address &&& 3
  let flag := (address &&& (0xffc : UInt16)) ||| ((1 <<< lane) <<< 12)
  both dbiIdle <| both (w8 (dbiWriteData + lane.toUInt32) v) <| both (w16 dbiFlag flag) <|
    both (w8 (dbiFlag + 2) 1) dbiIdle

def Initialization.fallback (d : Initialization) : Initialization :=
  { d with result.dbiFallbacks := d.result.dbiFallbacks + 1 }

def readConfig (address : UInt16) : Link (Bool × UInt8) := do
  if ← check then
    modify fun d => d.operation
    let r ← ask (Io.readConfig8 address)
    if ← check then
      if r.1 then
        return (true, r.2)
      else
        modify fun d => d.fallback
        readDbi address r.2
    else
      return (false, r.2)
  else
    return (false, 0)

def readsBack (address : UInt16) (v : UInt8) : Link Bool :=
  andThen (readConfig address) fun got =>
    if got = v then
      return true
    else
      fail .readback address.toUInt32 got.toUInt32

def writeConfig (address : UInt16) (v : UInt8) : Link Bool := do
  if ← check then
    modify fun d => d.operation.modifying
    let native ← ask (.writeConfig8 address v)
    if ← check then
      if native then
        readsBack address v
      else
        modify fun d => d.fallback
        both (writeDbi address v) (readsBack address v)
    else
      return false
  else
    return false

/-! ## L1 -/

def Initialization.cleaning (d : Initialization) : Initialization :=
  { d with cleanup := true, phaseStart := d.last, phaseOperations := 0, result.l1RestoreAttempted := true }

/-- `saved` is the record before the cleanup. -/
def Initialization.cleaned (d saved : Initialization) (restored : Bool) : Initialization :=
  { d with
    cleanup := false
    phaseStart := saved.phaseStart
    phaseOperations := saved.phaseOperations
    l1Changed := if restored then false else d.l1Changed
    result.l1Restored := restored
    result.l1RestoreFailed := !restored }

def restoreL1 : Link Unit := do
  let d ← get
  if d.l1Changed = false then
    return ()
  else
    modify fun d => d.cleaning
    let restored ← writeConfig 0x719 d.savedL1
    modify fun d' => d'.cleaned d restored
    return ()

/-- The end of `disableRefclkAutok`. -/
def calibrate : Link Bool := do
  let d ← get
  let ok ← updateMdio 0x30 d.result.linkSpeed 0x2000 0
  restoreL1
  let d ← get
  return ok && d.result.error == .none && !d.result.l1RestoreFailed

def withoutL1 : Link Bool := do
  let r ← readConfig 0x719
  modify fun d => { d with savedL1 := r.2 }
  if r.1 = false then
    return false
  else if r.2 &&& 8 ≠ 0 then
    -- A failed write may have reached the configuration space.
    modify fun d => { d with l1Changed := true }
    if ← writeConfig 0x719 (r.2 &&& ~~~8) then
      calibrate
    else
      restoreL1
      return false
  else
    calibrate

def disableRefclkAutok : Link Bool :=
  andThen (readConfig 0x82) fun rate => do
    modify fun d => { d with result.linkSpeed := rate &&& 3 }
    if rate &&& 3 ≠ 1 ∧ rate &&& 3 ≠ 2 then
      fail .linkSpeed 0x82 rate.toUInt32
    else
      withoutL1

/-! ## The entry points -/

def allBits : UInt32 := 0xffffffff

def beforeL1 : List (Link Bool) :=
  [update32 0x1008 0x20 0 allBits, update32 4 0x4000 0 allBits, update32 0x70 0 0x8000 allBits,
    update32 0x70 0x4000 0 allBits, updateMdio 0x1b 1 0xf000 0x1000, updateMdio 0x1d 1 0x0c 0x0c]

def afterL1 : List (Link Bool) := [update32 0x74 0 0x20 allBits, update32 0x13f0 0x10 0 allBits]

def linkBandwidth : Link Bool :=
  andThen (r32 0x11d8) fun old =>
    let lbc := (old &&& ~~~0xf0) ||| 0x80 ||| 3
    every [w32 0x11d8 lbc, update32 0x11d8 0 lbc (~~~2), update32 0x11c0 0 3 allBits,
      update32 0x1000 0 0xc00000 allBits]

def configurePre (actualCut : UInt8) : Link Bool :=
  if 6 ≤ actualCut then
    fail .invalid 0 0
  else do
    modify fun d => { d with result.cut := actualCut }
    if ← both (every beforeL1) (both disableRefclkAutok (both (every afterL1) linkBandwidth)) then
      modify fun d => { d with result.preConfigured := true }
      return true
    else
      return false

/-- The body of an entry point, and its `Guard`. -/
def guarded (body : Link Bool) : Link Bool := do
  if ← enter then
    let ok ← body
    modify fun d => { d with busy := false }
    return ok
  else
    return false

def preInit (actualCut : UInt8) : Link Bool := do
  let d ← get
  if d.result.preConfigured then
    return false
  else
    guarded (configurePre actualCut)

def ltr : List UInt32 := [0x8410, 0x8414, 0x8418, 0x841c]

def latency : List (Link Bool) :=
  ltr.map (fun a => andThen (r32 a) fun _ => return true) ++
    [update32 0x8410 0 0x43 allBits, update32 0x8410 0x3000 0x2000 allBits, update32 0x8410 0x700 0x700 allBits,
      update32 0x8414 0xfff 0x28 allBits, update32 0x8414 0xfff0000 0x280000 allBits, full32 0x8418 0x90039003,
      full32 0x841c 0x880b880b, update32 0x8810 0 1 allBits, update32 0x9a00 2 0 allBits]

def configurePost : Link Bool := do
  let d ← get
  if d.result.preConfigured = false then
    fail .invalid 0 0
  else if ← every latency then
    modify fun d => { d with result.postConfigured := true }
    return true
  else
    return false

def postInit : Link Bool := do
  let d ← get
  if d.result.postConfigured then
    return false
  else
    guarded configurePost

inductive Op
  | preInit (actualCut : UInt8)
  | postInit
  deriving DecidableEq

def exec : Op → Link Bool
  | .preInit actualCut => preInit actualCut
  | .postInit => postInit

end PciLink
end Rtl8852be
