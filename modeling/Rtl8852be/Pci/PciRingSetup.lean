import Rtl8852be.Interaction.Triple
import Rtl8852be.Wire.Descriptors

/-!
# PciRingSetup — the registers of the nine rings

`PciRingSetup.hpp`.  `configure` programs the rings of a device that is stopped, and `restore` puts back what it
found.  Every write comes after a check that the device is still stopped.
-/

namespace Rtl8852be
namespace PciRing

open Interaction Code Network

/-! ## The device -/

/-- What `D` provides. -/
inductive Io
  | command
  | read32 (a : UInt32)
  | read16 (a : UInt32)
  | write32 (a v : UInt32)
  | write16 (a : UInt32) (v : UInt16)
  | nowUs
  | pauseUs (us : ℕ)
  deriving DecidableEq

@[reducible] def Reply : Io → Type
  | .command => UInt16
  | .read32 _ => UInt32
  | .read16 _ => UInt16
  | .write32 _ _ => Bool
  | .write16 _ _ => Bool
  | .nowUs => UInt64
  | .pauseUs _ => Unit

structure RingRegisters where
  count : UInt32
  index : UInt32
  low : UInt32
  high : UInt32
  bdram : UInt32
  allocation : UInt32

/-- ACH0..3, management, high priority, firmware, RXQ, RPQ.  The last two have no BDRAM. -/
def ringRegisters : Fin 9 → RingRegisters
  | 0 => ⟨0x1024, 0x1058, 0x1110, 0x1114, 0x1200, 0x020500⟩
  | 1 => ⟨0x1026, 0x105c, 0x1118, 0x111c, 0x1204, 0x020505⟩
  | 2 => ⟨0x1028, 0x1060, 0x1120, 0x1124, 0x1208, 0x02050a⟩
  | 3 => ⟨0x102a, 0x1064, 0x1128, 0x112c, 0x120c, 0x02050f⟩
  | 4 => ⟨0x1034, 0x1078, 0x1150, 0x1154, 0x1220, 0x010414⟩
  | 5 => ⟨0x1036, 0x107c, 0x1158, 0x115c, 0x1224, 0x010418⟩
  | 6 => ⟨0x1038, 0x1080, 0x1160, 0x1164, 0x1228, 0x01041c⟩
  | 7 => ⟨0x1020, 0x1050, 0x1100, 0x1104, 0, 0⟩
  | 8 => ⟨0x1022, 0x1054, 0x1108, 0x110c, 0, 0⟩

structure RingMemory where
  address : UInt64 := 0
  count : UInt16 := 0
  deriving DecidableEq

def RingMemory.bytes (m : RingMemory) : UInt64 := m.count.toUInt64 * 8

/-! ## The class -/

structure RingSetupResult where
  attempted : Bool := false
  programmed : Bool := false
  restored : Bool := false
  failureAddress : UInt32 := 0
  expected : UInt32 := 0
  actual : UInt32 := 0
  writes : UInt32 := 0
  polls : UInt32 := 0
  deriving DecidableEq

structure Snapshot where
  low : UInt32 := 0
  high : UInt32 := 0
  bdram : UInt32 := 0
  count : UInt16 := 0
  deriving DecidableEq

structure PciRingSetup where
  saved : Fin 9 → Snapshot := fun _ => {}
  init : UInt32 := 0
  snapshot : Bool := false
  result : RingSetupResult := {}

abbrev Setup := Code PciRingSetup Io Reply Empty

abbrev Trace := List (Event Io Reply Empty)

/-! ## Checks -/

def PciRingSetup.mismatched (d : PciRingSetup) (address expected actual : UInt32) : PciRingSetup :=
  if d.result.failureAddress = 0 then
    { d with result.failureAddress := address, result.expected := expected, result.actual := actual }
  else
    d

def mismatch (address expected actual : UInt32) : Setup Bool := do
  modify fun d => d.mismatched address expected actual
  return false

def masked (address : UInt32) : Setup Bool := do
  let mask ← ask (Io.read32 address)
  if mask = 0 then
    return true
  else
    let actual ← ask (Io.read32 address)
    mismatch address 0 actual

/-- The bus is off and the device stopped and idle, with no interrupt enabled. -/
def safe : Setup Bool := do
  let command ← ask Io.command
  if command &&& 6 ≠ 2 then
    let actual ← ask Io.command
    mismatch 4 2 (actual &&& 6).toUInt32
  else
    let init ← ask (Io.read32 0x1000)
    let stop ← ask (Io.read32 0x1010)
    let busy ← ask (Io.read32 0x101c)
    if init = 0xffffffff ∨ init &&& 0x2800 ≠ 0 then
      mismatch 0x1000 0 init
    else if stop = 0xffffffff ∨ stop &&& 0x1f0f00 ≠ 0x1f0f00 then
      mismatch 0x1010 0x1f0f00 stop
    else if busy = 0xffffffff ∨ busy &&& 0x7f0f03 ≠ 0 then
      mismatch 0x101c 0 busy
    else
      every [masked 0x1a0, masked 0x10b0, masked 0x13b0]

def PciRingSetup.wrote (d : PciRingSetup) : PciRingSetup := { d with result.writes := d.result.writes + 1 }

def write32 (address value : UInt32) : Setup Bool := do
  if ← safe then
    modify fun d => d.wrote
    if ← ask (.write32 address value) then
      return true
    else
      let actual ← ask (Io.read32 address)
      mismatch address value actual
  else
    return false

def write16 (address : UInt32) (value : UInt16) : Setup Bool := do
  if ← safe then
    modify fun d => d.wrote
    if ← ask (.write16 address value) then
      return true
    else
      let actual ← ask (Io.read16 address)
      mismatch address value.toUInt32 actual.toUInt32
  else
    return false

def equal32 (address expected : UInt32) : Setup Bool := do
  let value ← ask (Io.read32 address)
  if value = expected then
    return true
  else
    mismatch address expected value

def equal16 (address : UInt32) (expected : UInt16) : Setup Bool := do
  let value ← ask (Io.read16 address)
  if value = expected then
    return true
  else
    mismatch address expected.toUInt32 value.toUInt32

/-- Only some rings have a BDRAM register. -/
def whereBdram (r : RingRegisters) (m : Setup Bool) : Setup Bool :=
  if r.bdram = 0 then
    return true
  else
    m

/-! ## Configuration -/

def apart (m m' : RingMemory) : Bool :=
  !(decide (m.address < m'.address + m'.bytes) && decide (m'.address < m.address + m.bytes))

def accepts (rings : Fin 9 → RingMemory) : Bool :=
  (List.finRange 9).all fun i =>
    let m := rings i
    decide (2 ≤ m.count ∧ m.count ≤ 4095 ∧ m.address &&& 7 = 0) && dma32Range m.address.toNat m.bytes.toNat &&
      (List.finRange 9).all fun j => decide (i ≤ j) || apart m (rings j)

/-- Both internal HCI clocks are required for the BDRAM reset. -/
def clocks : Setup Bool := do
  let hci ← ask (Io.read32 0x8380)
  if hci = 0xffffffff ∨ hci &&& 3 ≠ 3 then
    mismatch 0x8380 3 hci
  else
    return true

def readInit : Setup Bool := do
  let init ← ask (Io.read32 0x1000)
  modify fun d => { d with init }
  if init &&& 8 ≠ 0 then
    mismatch 0x1000 0 init
  else
    return true

def readBdram (r : RingRegisters) : Setup UInt32 :=
  if r.bdram = 0 then
    return 0
  else
    ask (Io.read32 r.bdram)

def PciRingSetup.saving (d : PciRingSetup) (i : Fin 9) (s : Snapshot) : PciRingSetup :=
  { d with saved := Function.update d.saved i s }

def saveRing (i : Fin 9) : Setup Bool := do
  let r := ringRegisters i
  let low ← ask (Io.read32 r.low)
  let high ← ask (Io.read32 r.high)
  let count ← ask (Io.read16 r.count)
  let bdram ← readBdram r
  modify fun d => d.saving i ⟨low, high, bdram, count⟩
  if low ≠ 0 then
    mismatch r.low 0 low
  else if high ≠ 0 then
    mismatch r.high 0 high
  else if count &&& 0xfff ≠ 0 then
    mismatch r.count 0 count.toUInt32
  else
    both (equal32 r.index 0) <|
      if bdram = 0xffffffff ∨ bdram = 0xdeadbeef then
        mismatch r.bdram 0 bdram
      else
        return true

/-- What the registers of a ring are to be. -/
def Snapshot.programmed (s : Snapshot) (r : RingRegisters) (m : RingMemory) : Snapshot where
  low := m.address.toUInt32
  high := 0
  bdram := (s.bdram &&& 0xff000000) ||| r.allocation
  count := (s.count &&& 0xf000) ||| m.count

def programRing (saved : Fin 9 → Snapshot) (rings : Fin 9 → RingMemory) (i : Fin 9) : Setup Bool :=
  let r := ringRegisters i
  let p := (saved i).programmed r (rings i)
  every
    [write32 r.high p.high, write32 r.low p.low, write16 r.count p.count, whereBdram r (write32 r.bdram p.bdram),
      equal32 r.high p.high, equal32 r.low p.low, equal16 r.count p.count, whereBdram r (equal32 r.bdram p.bdram)]

def unreset (init : UInt32) : Setup Bool := do
  let actual ← ask (Io.read32 0x1000)
  mismatch 0x1000 init actual

def resetFrom (init : UInt32) (begin_ previous : UInt64) : ℕ → Setup Bool
  | 0 => unreset init
  | rounds + 1 => do
      let now ← ask .nowUs
      if now < previous ∨ 10000 ≤ now - begin_ then
        unreset init
      else
        let value ← ask (Io.read32 0x1000)
        modify fun d => { d with result.polls := d.result.polls + 1 }
        if value = 0xffffffff ∨ value = 0xdeadbeef then
          mismatch 0x1000 init value
        else if value &&& 8 = 0 then
          return true
        else
          let _ ← ask (.pauseUs 50)
          resetFrom init begin_ now rounds

def waitReset (init : UInt32) : Setup Bool := do
  let begin_ ← ask .nowUs
  resetFrom init begin_ begin_ 201

def indicesZero : Setup Bool := every ((List.finRange 9).map fun i => equal32 (ringRegisters i).index 0)

def opening : Setup Bool :=
  every ([safe, clocks, readInit] ++ (List.finRange 9).map saveRing)

/-- After it; none of this changes what was saved. -/
def program (saved : Fin 9 → Snapshot) (init : UInt32) (rings : Fin 9 → RingMemory) : Setup Bool :=
  both (every ((List.finRange 9).map (programRing saved rings))) <|
    both (every [write32 0x1014 0x70f, write32 0x1018 3, write32 0x1000 (init ||| 8)]) <|
      both (waitReset init) <| both indicesZero <| both (equal32 0x1000 init) safe

def configureRings (rings : Fin 9 → RingMemory) : Setup Bool := do
  if ← opening then
    modify fun d => { d with snapshot := true }
    let d ← get
    program d.saved d.init rings
  else
    return false

def configure (rings : Fin 9 → RingMemory) : Setup Bool := do
  let d ← get
  if d.result.attempted then
    return false
  else
    modify fun d => { d with result.attempted := true }
    if accepts rings = false then
      return false
    else if ← configureRings rings then
      modify fun d => { d with result.programmed := true }
      return true
    else
      return false

/-! ## Restoration -/

def restoreRing (saved : Fin 9 → Snapshot) (i : Fin 9) : Setup Bool :=
  let r := ringRegisters i
  let s := saved i
  each [write32 r.high s.high, write32 r.low s.low, write16 r.count s.count, whereBdram r (write32 r.bdram s.bdram)]

def ringBack (saved : Fin 9 → Snapshot) (i : Fin 9) : Setup Bool :=
  let r := ringRegisters i
  let s := saved i
  each
    [every [equal32 r.high s.high, equal32 r.low s.low, equal16 r.count s.count],
      whereBdram r (equal32 r.bdram s.bdram)]

def restoreRings (saved : Fin 9 → Snapshot) (init : UInt32) : Setup Bool := do
  let written ← each ((List.finRange 9).map (restoreRing saved) ++ [write32 0x1000 init])
  let back ← each ((List.finRange 9).map (ringBack saved) ++ [equal32 0x1000 init])
  if written && back then
    safe
  else
    return false

def restore : Setup Bool := do
  let d ← get
  if d.snapshot = false then
    return false
  else if ← safe then
    let ok ← restoreRings d.saved d.init
    modify fun d => { d with result.restored := ok }
    return ok
  else
    return false

inductive Op
  | configure (rings : Fin 9 → RingMemory)
  | restore

def exec : Op → Setup Bool
  | .configure rings => configure rings
  | .restore => restore

end PciRing
end Rtl8852be
