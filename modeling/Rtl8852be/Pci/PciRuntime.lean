import Rtl8852be.Interaction.Checks
import Rtl8852be.Interaction.History
import Rtl8852be.Wire.Descriptors

/-!
# PciRuntime — starting, ringing and stopping the DMA engine

`PciRuntime<D>`, with the device `D` as the environment: nothing is assumed of what a register reads as
or of whether a write succeeds.  The ghost annotation `fault` marks the places where `faulted_` is set.
-/

namespace Rtl8852be
namespace Pci

open Interaction Network

/-! ## The device and its registers -/

/-- What the template parameter `D` provides. -/
inductive Access
  | read32 (a : UInt32)
  | write32 (a v : UInt32)
  | read16 (a : UInt32)
  | write16 (a : UInt32) (v : UInt16)
  | command
  | writeCommand (v : UInt16)
  | barrier
  | nowUs
  | pauseUs (us : ℕ)
  deriving DecidableEq

@[reducible] def Reply : Access → Type
  | .read32 _ => UInt32
  | .write32 _ _ => Bool
  | .read16 _ => UInt16
  | .write16 _ _ => Bool
  | .command => UInt16
  | .writeCommand _ => Bool
  | .barrier => Unit
  | .nowUs => UInt64
  | .pauseUs _ => Unit

inductive Mark
  | fault
  deriving DecidableEq

structure RingRegisters where
  count : UInt32
  index : UInt32
  low : UInt32
  high : UInt32

/-- ACH0..3, management, high priority, firmware, RXQ, RPQ. -/
def ringRegisters : Fin 9 → RingRegisters
  | 0 => ⟨0x1024, 0x1058, 0x1110, 0x1114⟩
  | 1 => ⟨0x1026, 0x105c, 0x1118, 0x111c⟩
  | 2 => ⟨0x1028, 0x1060, 0x1120, 0x1124⟩
  | 3 => ⟨0x102a, 0x1064, 0x1128, 0x112c⟩
  | 4 => ⟨0x1034, 0x1078, 0x1150, 0x1154⟩
  | 5 => ⟨0x1036, 0x107c, 0x1158, 0x115c⟩
  | 6 => ⟨0x1038, 0x1080, 0x1160, 0x1164⟩
  | 7 => ⟨0x1020, 0x1050, 0x1100, 0x1104⟩
  | 8 => ⟨0x1022, 0x1054, 0x1108, 0x110c⟩

structure RingMemory where
  address : ℕ := 0
  count : UInt16 := 0
  deriving DecidableEq

def irqMasks : Fin 3 → UInt32
  | 0 => 0x1a0
  | 1 => 0x10b0
  | 2 => 0x13b0

def irqStatus : Fin 3 → UInt32
  | 0 => 0x1a4
  | 1 => 0x10b4
  | 2 => 0x13b4

def irqEnabled : Fin 3 → UInt32
  | 0 => 0x00200000
  | 1 => 0x011e0007
  | 2 => 0x10000000

def runtimeStopMask : UInt32 := 0x001f0f00

def runtimeBusyMask : UInt32 := 0x007f0f03

/-! ## The class -/

structure InterruptStatus where
  halt : UInt32 := 0
  dma : UInt32 := 0
  indirect : UInt32 := 0
  valid : Bool := false
  deriving DecidableEq

structure RuntimeResult where
  failureAddress : UInt32 := 0
  expected : UInt32 := 0
  actual : UInt32 := 0
  lastBusy : UInt32 := 0
  polls : UInt32 := 0
  irqMasked : Bool := false
  masterOff : Bool := false
  idle : Bool := false
  stopped : Bool := false
  deriving DecidableEq

structure PciRuntime where
  attempted : Bool := false
  running : Bool := false
  faulted : Bool := false
  host : Fin 9 → UInt16 := fun _ => 0
  addresses : Fin 9 → ℕ := fun _ => 0
  result : RuntimeResult := {}

abbrev Driver (α : Type) : Type := Code PciRuntime Access Reply Mark α

abbrev Trace : Type := List (Event Access Reply Mark)

namespace PciRuntime

open Code

/-! ### The device's methods -/

def read32 (a : UInt32) : Driver UInt32 := ask (Access.read32 a)

def write32 (a v : UInt32) : Driver Bool := ask (Access.write32 a v)

def read16 (a : UInt32) : Driver UInt16 := ask (Access.read16 a)

def write16 (a : UInt32) (v : UInt16) : Driver Bool := ask (Access.write16 a v)

def readCommand : Driver UInt16 := ask Access.command

def writeCommand (v : UInt16) : Driver Bool := ask (Access.writeCommand v)

def barrier : Driver Unit := ask Access.barrier

def nowUs : Driver UInt64 := ask Access.nowUs

def pauseUs (us : ℕ) : Driver Unit := ask (Access.pauseUs us)

/-! ### Checks and writes -/

def bad (v : UInt32) : Bool := v == 0xffffffff || v == 0xdeadbeef

/-- `running()`. -/
def isRunning (s : PciRuntime) : Bool := s.running && !s.faulted

/-- The record after `fail`: only the first failure is kept. -/
def failed (a expected actual : UInt32) (s : PciRuntime) : PciRuntime :=
  { s with
    faulted := true
    result := if s.result.failureAddress = 0 then
        { s.result with
          failureAddress := a
          expected := expected
          actual := actual }
      else s.result }

def fail (a expected actual : UInt32) : Driver Bool := do
  tell Mark.fault
  modify (failed a expected actual)
  return false

def equal (a mask expected : UInt32) : Driver Bool := do
  let v ← read32 a
  if !bad v && v &&& mask == expected then
    return true
  fail a expected v

def write (a value : UInt32) : Driver Bool := do
  let ok ← write32 a value
  if ok then
    return true
  fail a value 0xffffffff

/-- `modify`. -/
def modifyRegister (a mask value : UInt32) : Driver Bool := do
  let old ← read32 a
  if bad old then
    fail a value old
  else
    both (write a ((old &&& ~~~mask) ||| value)) (equal a mask value)

def command (value : UInt16) : Driver Bool := do
  let wrote ← writeCommand value
  let actual ← readCommand
  if wrote && actual == value then
    return true
  fail 4 value.toUInt32 actual.toUInt32

def setMasked (masked : Bool) (s : PciRuntime) : PciRuntime :=
  { s with result := { s.result with irqMasked := masked } }

def maskInterrupts : Driver Bool := do
  let wrote ← each ((List.finRange 3).map fun i => write (irqMasks i) 0)
  let read ← each ((List.finRange 3).map fun i => equal (irqMasks i) 0xffffffff 0)
  modify (setMasked (wrote && read))
  return wrote && read

/-- One round of the loop in `enableInterrupts`. -/
def enableMask (i : Fin 3) : Driver Bool :=
  both (write (irqMasks i) (irqEnabled i)) (equal (irqMasks i) 0xffffffff (irqEnabled i))

def enableInterrupts : Driver Bool := do
  let s ← get
  if !s.isRunning then
    return false
  if ← every ((List.finRange 3).map enableMask) then
    modify (setMasked false)
    return true
  let _ ← maskInterrupts
  return false

/-- The causes that are enabled; `none` if the register cannot be read. -/
def readCause (i : Fin 3) : Driver (Option UInt32) := do
  let v ← read32 (irqStatus i)
  if bad v then
    let _ ← fail (irqStatus i) 0 v
    return none
  return some (v &&& irqEnabled i)

/-- `if(values[i]&&!write(irqStatus[i],values[i]))`: clear what was seen. -/
def clearCause (i : Fin 3) (value : UInt32) : Driver Bool := do
  if value = 0 then
    return true
  write (irqStatus i) value

/-- The first loop of `acknowledgeInterrupts` is left at the first register that cannot be read. -/
def acknowledgeInterrupts : Driver InterruptStatus := do
  let s ← get
  if !s.isRunning || !s.result.irqMasked then
    return {}
  let some halt ← readCause 0 | return {}
  let some dma ← readCause 1 | return {}
  let some indirect ← readCause 2 | return {}
  -- Only what was seen and is enabled: a status register is never read and written back.
  if ← every [clearCause 0 halt, clearCause 1 dma, clearCause 2 indirect] then
    return { halt := halt, dma := dma, indirect := indirect, valid := true }
  return {}

/-! ### `start` -/

def countIs64 (a : UInt32) : Driver Bool := do
  let v ← read16 a
  return v &&& 0xfff == 64

/-- The memory of a ring is as the registers need it, and is not shared with an earlier ring. -/
def ringFits (rings : Fin 9 → RingMemory) (i : Fin 9) : Bool :=
  (rings i).count == 64 && (rings i).address % 8 == 0 && dma32Range (rings i).address 512 &&
    (List.finRange 9).all fun j => decide (i ≤ j) ||
      !(decide ((rings i).address < (rings j).address + 512) &&
        decide ((rings j).address < (rings i).address + 512))

def setAddress (i : Fin 9) (address : ℕ) (s : PciRuntime) : PciRuntime :=
  { s with addresses := Function.update s.addresses i address }

/-- One round of the loop over the rings. -/
def checkRing (rings : Fin 9 → RingMemory) (i : Fin 9) : Driver Bool := do
  let r := ringRegisters i
  let low := UInt32.ofNat (rings i).address
  if !ringFits rings i then
    fail r.low 0 low
  else if ← every [equal r.low 0xffffffff low, equal r.high 0xffffffff 0, countIs64 r.count,
      equal r.index 0x0fff0fff 0] then
    modify (setAddress i (rings i).address)
    return true
  else
    let v ← read16 r.count
    fail r.count 64 v.toUInt32

/-- Clear a cause that is left from before the start. -/
def clearOld (i : Fin 3) : Driver Bool := do
  let v ← read32 (irqStatus i)
  if bad v then
    fail (irqStatus i) 0 v
  else
    clearCause i (v &&& irqEnabled i)

def setAttempted (s : PciRuntime) : PciRuntime := { s with attempted := true }

def setMastered (s : PciRuntime) : PciRuntime :=
  { s with
    result := { s.result with
      masterOff := false
      stopped := false } }

def setRunning (running : Bool) (s : PciRuntime) : PciRuntime := { s with running := running }

/-- The registers that `start` checks before it looks at the rings. -/
def idleRegisters : List (UInt32 × UInt32 × UInt32) :=
  [(0x1000, 0x2808, 0), (0x1010, runtimeStopMask, runtimeStopMask), (0x101c, runtimeBusyMask, 0),
    (0x8380, 3, 3), (0x8400, 0x60000000, 0x60000000), (0xc000, 0x40000000, 0x40000000),
    (0x1e0, 0xe0, 0xe0)]

/-- What `start` checks before it enables the bus master. -/
def preconditions (rings : Fin 9 → RingMemory) : List (Driver Bool) :=
  [maskInterrupts] ++ idleRegisters.map (fun x => equal x.1 x.2.1 x.2.2) ++
    (List.finRange 9).map (checkRing rings) ++ (List.finRange 3).map clearOld

/-- Enable the bus master and the channels. -/
def launch : Driver Bool := do
  barrier
  let cmd ← readCommand
  if cmd = 0xffff then
    fail 4 2 cmd.toUInt32
  else if ← command (cmd ||| 0x404) then
    modify setMastered
    if ← both (modifyRegister 0x1010 runtimeStopMask 0) (modifyRegister 0x1000 0x2800 0x2800) then
      modify (setRunning true)
      return true
    return false
  else
    return false

def start (rings : Fin 9 → RingMemory) : Driver Bool := do
  let s ← get
  if s.attempted || s.faulted then
    return false
  modify setAttempted
  let cmd ← readCommand
  if cmd &&& 6 ≠ 2 then
    let again ← readCommand
    fail 4 2 again.toUInt32
  else
    both (every (preconditions rings)) launch

/-! ### The doorbells -/

def hostHalf (v : UInt32) : UInt16 := (v &&& 0xfff).toUInt16

def hardwareHalf (v : UInt32) : UInt16 := ((v >>> 16) &&& 0xfff).toUInt16

/-- `readIndices`, once the ring is known to be one of the nine. -/
def readRing (ring : Fin 9) : Driver (Bool × UInt16 × UInt16) := do
  let v ← read32 (ringRegisters ring).index
  let s ← get
  if bad v || hostHalf v ≥ 64 || hardwareHalf v ≥ 64 || hostHalf v != s.host ring then
    let _ ← fail (ringRegisters ring).index (s.host ring).toUInt32 v
    return (false, hostHalf v, hardwareHalf v)
  return (true, hostHalf v, hardwareHalf v)

/-- `readIndices`; `host` and `hardware` are what the caller passed in. -/
def readIndices (ring : ℕ) (host hardware : UInt16) : Driver (Bool × UInt16 × UInt16) := do
  let s ← get
  if h : ring < 9 then
    if s.isRunning then
      readRing ⟨ring, h⟩
    else
      return (false, host, hardware)
  else
    return (false, host, hardware)

/-- The distance from `host` to `next` around the ring. -/
def advance (host next : UInt16) : ℕ := (next.toNat + 64 - host.toNat) % 64

def setHost (ring : Fin 9) (next : UInt16) (s : PciRuntime) : PciRuntime :=
  { s with host := Function.update s.host ring next }

/-- The end of `publish`: write the host half and read it back. -/
def ring (ring : Fin 9) (next : UInt16) : Driver Bool := do
  barrier
  let a := (ringRegisters ring).index
  let ok ← write16 a next
  if !ok then
    fail a next.toUInt32 0xffffffff
  else
    modify (setHost ring next)
    let v ← read32 a
    if !bad v && v &&& 0xfff == next.toUInt32 then
      return true
    fail a next.toUInt32 v

/-- Why `publish` does not ring: the value that would have been right. -/
def refusal (n : Fin 9) (host hardware next : UInt16) : Option UInt32 :=
  if n < 7 then
    if advance host next ≠ 1 ∨ next = hardware then some (UInt32.ofNat ((host.toNat + 1) % 64)) else none
  else if advance host next > advance host hardware then some hardware.toUInt32
  else none

def publish (n : ℕ) (next : UInt16) : Driver Bool := do
  let s ← get
  if h : n < 9 then
    if !s.isRunning || next ≥ 64 then
      return false
    let (ok, host, hardware) ← readIndices n 0 0
    if !ok then
      return false
    match refusal ⟨n, h⟩ host hardware next with
    | some expected => fail (ringRegisters ⟨n, h⟩).index expected next.toUInt32
    | none =>
        if advance host next = 0 then
          return true
        else
          ring ⟨n, h⟩ next
  else
    return false

/-! ### `stop` -/

def setPolled (busy : UInt32) (s : PciRuntime) : PciRuntime :=
  { s with
    result := { s.result with
      lastBusy := busy
      polls := s.result.polls + 1 } }

def setIdle (idle : Bool) (s : PciRuntime) : PciRuntime :=
  { s with result := { s.result with idle := idle } }

def setMasterOff (masterOff : Bool) (s : PciRuntime) : PciRuntime :=
  { s with result := { s.result with masterOff := masterOff } }

def setStopped (stopped : Bool) (s : PciRuntime) : PciRuntime :=
  { s with result := { s.result with stopped := stopped } }

/-- The loop of `stop`, for at most this many rounds. -/
def poll (start : UInt64) : ℕ → UInt64 → Driver Unit
  | 0, _ => return
  | n + 1, previous => do
      let now ← nowUs
      if now < previous || now - start ≥ 10000 then
        return
      let busy ← read32 0x101c
      modify (setPolled busy)
      if bad busy then
        return
      if busy &&& runtimeBusyMask = 0 then
        modify (setIdle true)
        return
      pauseUs 50
      poll start n now

/-- Cut off the bus master, whatever happened before. -/
def unmaster : Driver Bool := do
  let cmd ← readCommand
  if cmd = 0xffff then
    return false
  else if ← command (cmd &&& ~~~4) then
    let after ← readCommand
    return after &&& 4 == 0
  else
    return false

/-- The steps of `stop`, with the value of `ok` after them. -/
def shutDown : Driver Bool := do
  let masked ← maskInterrupts
  let hci ← modifyRegister 0x1000 0x2800 0
  let channels ← modifyRegister 0x1010 runtimeStopMask runtimeStopMask
  let start ← nowUs
  modify (setIdle false)
  poll start 201 start
  let masterOff ← unmaster
  modify (setMasterOff masterOff)
  let still ← both (equal 0x1000 0x2800 0) (equal 0x1010 runtimeStopMask runtimeStopMask)
  -- The masks are written and read once more at the end.
  let finalMasked ← maskInterrupts
  return finalMasked && still && hci && channels && masked

def stop : Driver Bool := do
  modify fun s => setStopped false (setRunning false s)
  let ok ← shutDown
  let s ← get
  if ok && s.result.idle && s.result.masterOff && s.result.irqMasked then
    modify (setStopped true)
    return true
  tell Mark.fault
  modify fun s => { s with faulted := true }
  return false

/-! ## Calls -/

inductive Op
  | start (rings : Fin 9 → RingMemory)
  | readIndices (ring : ℕ) (host hardware : UInt16)
  | publish (ring : ℕ) (next : UInt16)
  | maskInterrupts
  | enableInterrupts
  | acknowledgeInterrupts
  | stop

inductive Returned
  | bool (ok : Bool)
  | indices (ok : Bool) (host hardware : UInt16)
  | causes (r : InterruptStatus)
  deriving DecidableEq

def exec : Op → Driver Returned
  | .start rings => Returned.bool <$> start rings
  | .readIndices ring host hardware =>
      (fun r => Returned.indices r.1 r.2.1 r.2.2) <$> readIndices ring host hardware
  | .publish ring next => Returned.bool <$> publish ring next
  | .maskInterrupts => Returned.bool <$> maskInterrupts
  | .enableInterrupts => Returned.bool <$> enableInterrupts
  | .acknowledgeInterrupts => Returned.causes <$> acknowledgeInterrupts
  | .stop => Returned.bool <$> stop

end PciRuntime

/-- One call with all that happened in it. -/
abbrev Called : Type := Record PciRuntime Access Reply Mark PciRuntime.Op PciRuntime.Returned

end Pci
end Rtl8852be
