import Rtl8852be.Bits.Memory
import Rtl8852be.Interaction.Triple

/-!
# EfuseReader — reading the DDV bank of the eFuse

`EfuseReader.hpp`.  The bank is behind a power rail: it is powered and connected, read byte by byte, and
disconnected again.  The clock, the cancellation and all registers are the environment.
-/

namespace Rtl8852be
namespace Efuse

open Interaction Code

/-! ## The environment -/

/-- The methods of `Io`. -/
inductive Io
  | cancelled
  | nowUs
  | delayUs (us : ℕ)
  | read8 (address : UInt32)
  | read16 (address : UInt32)
  | read32 (address : UInt32)
  | write8 (address : UInt32) (value : UInt8)
  | write16 (address : UInt32) (value : UInt16)
  | write32 (address value : UInt32)
  deriving DecidableEq

/-- A read says whether it succeeded, and what it left in its argument. -/
@[reducible] def Reply : Io → Type
  | .cancelled => Bool
  | .nowUs => ℕ
  | .delayUs _ => Bool
  | .read8 _ => Bool × UInt8
  | .read16 _ => Bool × UInt16
  | .read32 _ => Bool × UInt32
  | .write8 _ _ => Bool
  | .write16 _ _ => Bool
  | .write32 _ _ => Bool

/-! ## The class -/

inductive EfuseReadStatus
  | ok
  | invalid
  | busy
  | ioError
  | timeout
  | clockError
  | cancelled
  | cleanupFailed
  deriving DecidableEq, Repr

structure EfuseReadResult where
  status : EfuseReadStatus := .invalid
  primary : EfuseReadStatus := .invalid
  bytesRead : ℕ := 0
  validBytes : ℕ := 0
  polls : ℕ := 0
  last : UInt32 := 0
  cleanupAttempted : Bool := false
  restored : Bool := false
  deriving DecidableEq

/-- The object, and the caller's buffer. -/
structure EfuseReader where
  originalIso : UInt16 := 0
  originalPmc : UInt8 := 0
  originalBurst : UInt32 := 0
  begin_ : ℕ := 0
  previous : ℕ := 0
  touched : Bool := false
  burst_ : Bool := false
  result : EfuseReadResult := {}
  out : Bits.Memory := fun _ => 0

/-- The steps of `restore` that put the rail back; an annotation of the model. -/
inductive RestoreStep
  | burst
  | isolation
  | cut
  | settle
  | power
  | management
  deriving DecidableEq, Repr

abbrev Efused (α : Type) : Type := Code EfuseReader Io Reply RestoreStep α

abbrev Trace : Type := List (Event Io Reply RestoreStep)

namespace EfuseReader

def io (c : Io) : Efused (Reply c) := ask c

def setPrimary (status : EfuseReadStatus) (s : EfuseReader) : EfuseReader :=
  { s with result := { s.result with primary := status } }

/-- `result_.primary=status;return false;` -/
def stop (status : EfuseReadStatus) : Efused Bool := do
  modify (setPrimary status)
  return false

def active : Efused Bool := do
  let cancelled ← io .cancelled
  if cancelled then
    stop .cancelled
  else
    let now ← io .nowUs
    let s ← get
    if now < s.previous then
      stop .clockError
    else
      modify fun s => { s with previous := now }
      if now - s.begin_ ≥ 5000000 then
        stop .timeout
      else
        return true

def failed : Efused Bool := stop .ioError

/-- `if(!m)return failed();` -/
def orFailed (m : Efused Bool) : Efused Bool := do
  if ← m then
    return true
  else
    failed

def iso (mask bits : UInt16) : Efused Bool := do
  let read ← io (.read16 0)
  if read.1 = false ∨ read.2 = 0xffff then
    return false
  else
    io (.write16 0 ((read.2 &&& ~~~mask) ||| (bits &&& mask)))

def pmc (bits : UInt8) : Efused Bool := do
  let read ← io (.read8 0xcc)
  if read.1 = false ∨ read.2 = 0xff then
    return false
  else
    io (.write8 0xcc ((read.2 &&& ~~~4) ||| (bits &&& 4)))

def burst (bits : UInt32) : Efused Bool := do
  let read ← io (.read32 0x38)
  if read.1 = false ∨ read.2 = 0xffffffff then
    return false
  else
    io (.write32 0x38 ((read.2 &&& ~~~0x80000) ||| (bits &&& 0x80000)))

/-! ### `restore` -/

def restoreStep (s : EfuseReader) : RestoreStep → Efused Bool
  | .burst => burst s.originalBurst
  | .isolation => iso 0x100 0x100
  | .cut => iso 0x8000 0
  | .settle => io (.delayUs 1000)
  | .power => iso 0x4000 0
  | .management => pmc s.originalPmc

/-- The steps, in order; without a burst there is none to be restored. -/
def restoreSteps (burst : Bool) : List RestoreStep :=
  (if burst then [.burst] else []) ++ [.isolation, .cut, .settle, .power, .management]

def attempt (s : EfuseReader) (step : RestoreStep) : Efused Bool := do
  tell step
  restoreStep s step

def isoBack (s : EfuseReader) : Efused Bool := do
  let read ← io (.read16 0)
  return read.1 && read.2 != 0xffff && read.2 &&& 0xc100 == s.originalIso &&& 0xc100

def pmcBack (s : EfuseReader) : Efused Bool := do
  let read ← io (.read8 0xcc)
  return read.1 && read.2 != 0xff && read.2 &&& 4 == s.originalPmc &&& 4

def burstBack (s : EfuseReader) : Efused Bool := do
  let read ← io (.read32 0x38)
  return read.1 && read.2 != 0xffffffff && read.2 &&& 0x80000 == s.originalBurst &&& 0x80000

def readBacks (s : EfuseReader) : List (Efused Bool) :=
  [isoBack s, pmcBack s] ++ if s.burst_ then [burstBack s] else []

def restore : Efused Bool := do
  modify fun s => { s with result := { s.result with cleanupAttempted := true } }
  let s ← get
  let ok ← each ((restoreSteps s.burst_).map (attempt s))
  let back ← each (readBacks s)
  modify fun s => { s with result := { s.result with restored := ok && back } }
  return ok && back

/-! ### `enable` -/

def readIso : Efused Bool := do
  let read ← io (.read16 0)
  modify fun s => { s with originalIso := read.2 }
  return read.1 && read.2 != 0xffff

def readPmc : Efused Bool := do
  let read ← io (.read8 0xcc)
  modify fun s => { s with originalPmc := read.2 }
  return read.1 && read.2 != 0xff

def readBurst : Efused Bool := do
  let read ← io (.read32 0x38)
  modify fun s => { s with originalBurst := read.2 }
  return read.1 && read.2 != 0xffffffff

/-- `burst_&&` -/
def whenBurst (m : Efused Bool) : Efused Bool := do
  let s ← get
  if s.burst_ then m else return true

def quiescent : Efused Bool := do
  let s ← get
  if s.originalIso &&& 0xc100 ≠ 0x100 ∨ s.originalPmc &&& 4 ≠ 0 then
    stop .busy
  else
    return true

def touch : Efused Bool := do
  modify fun s => { s with touched := true }
  return true

/-- `enable` up to the first change. -/
def inspect : List (Efused Bool) :=
  [active, orFailed (both readIso readPmc), quiescent, orFailed (whenBurst readBurst), active]

/-- `enable` from the first change on. -/
def raise : List (Efused Bool) :=
  [orFailed (every [pmc 4, iso 0x4000 0x4000, io (.delayUs 1000)]), active,
    orFailed (both (iso 0x8000 0x8000) (iso 0x100 0)), orFailed (whenBurst (burst 0x80000))]

def enable : Efused Bool := both (every inspect) (both touch (every raise))

/-! ### `readDdv` -/

/-- `!io_.delayUs(1)||!io_.read32(0x30,result_.last)||result_.last==0xffffffff` -/
def readLast : Efused Bool := do
  let delayed ← io (.delayUs 1)
  if !delayed then
    return false
  else
    let read ← io (.read32 0x30)
    modify fun s => { s with result := { s.result with last := read.2 } }
    return read.1 && read.2 != 0xffffffff

def countPoll (s : EfuseReader) : EfuseReader :=
  { s with result := { s.result with polls := s.result.polls + 1 } }

/-- The loop that waits for a byte; it returns `ready`. -/
def poll (started : ℕ) : ℕ → Efused Bool
  | 0 => pure false
  | attempts + 1 => do
      if ← both active (orFailed readLast) then
        modify countPoll
        let s ← get
        if s.result.last &&& 0x20000000 ≠ 0 then
          return true
        else if s.previous - started ≥ 1000000 then
          stop .timeout
        else
          poll started attempts
      else
        return false

def request (address : ℕ) : UInt32 := UInt32.ofNat address <<< 16

/-- `if(!ready){if(result_.primary==EfuseReadStatus::ok)result_.primary=EfuseReadStatus::timeout;break;}` -/
def orTimeout (m : Efused Bool) : Efused Bool := do
  if ← m then
    return true
  else
    let s ← get
    if s.result.primary = .ok then
      stop .timeout
    else
      return false

/-- `out[i]=uint8_t(result_.last);++result_.bytesRead;` -/
def keepByte (i : ℕ) (s : EfuseReader) : EfuseReader :=
  { s with
    out := Function.update s.out i s.result.last.toUInt8
    result := { s.result with bytesRead := s.result.bytesRead + 1 } }

def waitByte : Efused Bool := do
  let s ← get
  orTimeout (poll s.previous 1000000)

def store (i : ℕ) : Efused Bool := do
  modify (keepByte i)
  return true

/-- One round of the loop over the bytes; it returns whether the loop goes on. -/
def readByte (address i : ℕ) : Efused Bool :=
  every [active, orFailed (io (.write32 0x30 (request (address + i)))), waitByte, store i]

def transfer (address bytes : ℕ) : Efused Bool :=
  both enable (every ((List.range bytes).map (readByte address)))

def setStatus (status : EfuseReadStatus) (s : EfuseReader) : EfuseReader :=
  { s with result := { s.result with status := status } }

/-- `if(touched_&&!restore())result_.status=EfuseReadStatus::cleanupFailed;` -/
def settleRail : Efused Unit := do
  let s ← get
  if s.touched then
    if ← restore then
      return ()
    else
      modify (setStatus .cleanupFailed)
  else
    return ()

/-- The end of `readDdv`: the bytes are valid, or they are cleared. -/
def report (s : EfuseReader) : EfuseReader :=
  if s.result.status = .ok then
    { s with result := { s.result with validBytes := s.result.bytesRead } }
  else
    { s with out := fun i => if i < s.result.bytesRead then 0 else s.out i }

/-- `readDdv` after the transfer. -/
def finish : Efused EfuseReadResult := do
  modify fun s => setStatus s.result.primary s
  settleRail
  modify report
  let s ← get
  return s.result

/-- The arguments of `readDdv`; `out` says that the buffer is not null. -/
structure Request where
  cut : UInt8
  address : ℕ
  bytes : ℕ
  out : Bool
  capacity : ℕ
  deriving DecidableEq

def Request.Valid (r : Request) : Prop :=
  r.out = true ∧ r.bytes ≠ 0 ∧ r.bytes ≤ r.capacity ∧ r.address < 0x600 ∧ r.bytes ≤ 0x600 - r.address ∧
    ((r.address < 1216 ∧ r.bytes ≤ 1216 - r.address) ∨
      (r.address ≥ 0x580 ∧ r.bytes ≤ 0x600 - r.address))

instance (r : Request) : Decidable r.Valid := inferInstanceAs (Decidable (_ ∧ _))

def readDdv (r : Request) : Efused EfuseReadResult := do
  modify fun s => { s with result := {}, touched := false, burst_ := r.cut == 0 }
  if ¬ r.Valid then
    let s ← get
    return s.result
  else
    let now ← io .nowUs
    modify fun s => { s with begin_ := now, previous := now, result := { s.result with primary := .ok } }
    let _ ← transfer r.address r.bytes
    finish

end EfuseReader
end Efuse
end Rtl8852be
