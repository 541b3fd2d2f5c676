import Rtl8852be.Interaction.Triple

/-!
# FirmwareBoot — from reset to the ready bit of the ROM, and back

`FirmwareBoot.hpp`.  `probeWithAction` opens the register window, stops the DMA engine, sets up the buffers, resets
the processor and waits for its ROM.  Whatever the sequence did, it is undone before the code returns, each block
only if its initialization was begun.
-/

namespace Rtl8852be
namespace Boot

open Interaction Code

/-! ## The device -/

/-- What `D` provides, and the caller's action. -/
inductive Io
  | command
  | read32 (a : UInt32)
  | read16 (a : UInt32)
  | bootWrite32 (a v : UInt32)
  | bootWrite16 (a : UInt32) (v : UInt16)
  | nowUs
  | pauseUs (us : ℕ)
  | action
  deriving DecidableEq

@[reducible] def Reply : Io → Type
  | .command => UInt16
  | .read32 _ => UInt32
  | .read16 _ => UInt16
  | .bootWrite32 _ _ => Bool
  | .bootWrite16 _ _ => Bool
  | .nowUs => UInt64
  | .pauseUs _ => Unit
  | .action => Unit

def invalid (v : UInt32) : Bool := v == 0xffffffff || v == 0xdeadbeef

def txChannels : UInt32 := 0x00070f00

def stopChannels : UInt32 := txChannels

def busyChannels : UInt32 := txChannels ||| 0x00780003

/-! ## The record -/

inductive Status
  | notRun
  | unsafeCommand
  | invalidRead
  | writeFailed
  | timeout
  | staleReady
  | romError
  | ready
  | cleanupFailed
  deriving DecidableEq, Repr

structure Result where
  status : Status := .notRun
  operationStatus : Status := .notRun
  phase : ℕ := 0
  writes : UInt32 := 0
  polls : UInt32 := 0
  wde : UInt32 := 0
  ple : UInt32 := 0
  control : UInt32 := 0
  dmac : UInt32 := 0
  clock : UInt32 := 0
  wdeConfig : UInt32 := 0
  pleConfig : UInt32 := 0
  hfcControl : UInt32 := 0
  hfcPages : UInt32 := 0
  hciBefore : UInt32 := 0
  stopBefore : UInt32 := 0
  hciPaused : UInt32 := 0
  stopPaused : UInt32 := 0
  hciAfter : UInt32 := 0
  stopAfter : UInt32 := 0
  cleanupFailures : UInt32 := 0
  cleanupClock : UInt32 := 0
  cleanupDmac : UInt32 := 0
  cleanupClockChecked : Bool := false
  initialDmac : UInt32 := 0
  initialHci : UInt32 := 0
  accessDmac : UInt32 := 0
  accessClock : UInt32 := 0
  accessAttempted : Bool := false
  accessReady : Bool := false
  hciCaptured : Bool := false
  failureAddress : UInt32 := 0
  failureMask : UInt32 := 0
  failureExpected : UInt32 := 0
  failureActual : UInt32 := 0
  failureRecorded : Bool := false
  attempted : Bool := false
  cleanupOK : Bool := false
  cpuStopped : Bool := false

/-- The result, and the registers that were captured. -/
structure Probe where
  r : Result := {}
  hci : UInt32 := 0
  stop : UInt32 := 0

/-- The arguments of a comparison that fails: address, mask, expected and actual value; an annotation of the
model. -/
abbrev Mismatch := UInt32 × UInt32 × UInt32 × UInt32

abbrev Probing := Code Probe Io Reply Mismatch

abbrev Trace := List (Event Io Reply Mismatch)

/-! ## Steps -/

def Probe.mismatched (d : Probe) (x : Mismatch) : Probe :=
  if d.r.failureRecorded then
    d
  else
    { d with
      r.failureRecorded := true
      r.failureAddress := x.1
      r.failureMask := x.2.1
      r.failureExpected := x.2.2.1
      r.failureActual := x.2.2.2 }

def holds (value mask expected : UInt32) : Bool := !invalid value && value &&& mask == expected

/-- `matches`. -/
def valueMatches (address value mask expected : UInt32) : Probing Bool :=
  if holds value mask expected then
    return true
  else do
    tell (address, mask, expected, value)
    modify fun d => d.mismatched (address, mask, expected, value)
    return false

def Probe.stopped (d : Probe) (s : Status) : Probe := { d with r.status := s }

def stopWith (s : Status) : Probing Bool := do
  modify fun d => d.stopped s
  return false

def Probe.wrote (d : Probe) : Probe := { d with r.writes := d.r.writes + 1 }

def wr (a v : UInt32) : Probing Bool := do
  modify fun d => d.wrote
  if ← ask (.bootWrite32 a v) then
    return true
  else
    stopWith .writeFailed

def rm (a mask value : UInt32) : Probing Bool := do
  let old ← ask (Io.read32 a)
  if invalid old then
    stopWith .invalidRead
  else
    wr a ((old &&& ~~~mask) ||| value)

/-- `set` is where the last value goes. -/
def pollFrom (a mask wanted : UInt32) (timeout : UInt64) (set : Result → UInt32 → Result) (start : UInt64) : ℕ → Probing Bool
  | 0 => stopWith .timeout
  | rounds + 1 => do
      let now ← ask .nowUs
      if now < start ∨ timeout ≤ now - start then
        stopWith .timeout
      else
        let last ← ask (Io.read32 a)
        modify fun d => { d with r := { set d.r last with polls := d.r.polls + 1 } }
        if invalid last then
          stopWith .invalidRead
        else if last &&& mask = wanted then
          return true
        else
          let _ ← ask (.pauseUs 50)
          pollFrom a mask wanted timeout set start rounds

def poll (a mask wanted : UInt32) (timeout : UInt64) (set : Result → UInt32 → Result) : Probing Bool := do
  let start ← ask .nowUs
  pollFrom a mask wanted timeout set start (timeout.toNat / 50 + 1)

def enterPhase (n : ℕ) : Probing Bool := do
  modify fun d => { d with r.phase := n }
  return true

def orStop (m : Probing Bool) (s : Status) : Probing Bool := do
  if ← m then
    return true
  else
    stopWith s

def allBits : UInt32 := 0xffffffff

def readBack (a mask expected : UInt32) (set : Result → UInt32 → Result) (s : Status) : Probing Bool := do
  let v ← ask (Io.read32 a)
  modify fun d => { d with r := set d.r v }
  orStop (valueMatches a v mask expected) s

/-! ## The sequence -/

def capture : Probing Bool := do
  modify fun d => { d with r.accessReady := true }
  let hci ← ask (Io.read32 0x1000)
  let stop ← ask (Io.read32 0x1010)
  modify fun d => { d with hci, stop }
  if invalid hci || invalid stop then
    stopWith .invalidRead
  else
    modify fun d => { d with r.hciBefore := hci, r.stopBefore := stop, r.hciCaptured := true }
    return true

/-- The register window is opened before the HCI registers are touched. -/
def access : Probing Bool :=
  every
    [wr 0x8400 0x60440000, readBack 0x8400 allBits 0x60440000 (fun r v => { r with accessDmac := v }) .writeFailed,
      wr 0x8404 0x00040000, readBack 0x8404 allBits 0x00040000 (fun r v => { r with accessClock := v }) .writeFailed,
      capture, enterPhase 1]

def paused : Probing Bool := do
  let hci ← ask (Io.read32 0x1000)
  let stop ← ask (Io.read32 0x1010)
  modify fun d => { d with r.hciPaused := hci, r.stopPaused := stop }
  orStop (both (valueMatches 0x1000 hci 0x2800 0) (valueMatches 0x1010 stop stopChannels stopChannels)) .writeFailed

def pauseDma : Probing Bool := do
  let d ← get
  every
    [wr 0x1000 (d.hci &&& ~~~0x2800), wr 0x1010 (d.stop ||| stopChannels),
      poll 0x101c busyChannels 0 2000 (fun r _ => r), paused, enterPhase 2]

def quota (i : ℕ) : Probing Bool :=
  let q : UInt32 := if i = 2 then 16 else if i = 3 then 48 else 0
  wr (0x9040 + 4 * UInt32.ofNat i) (q ||| (q <<< 16))

/-- DLFW layout: 64 KiB WDE (0 linked pages), 128 KiB PLE (64 linked). -/
def layout : Probing Bool :=
  every
    ([rm 0x8400 0x04800000 0, rm 0x8404 0x04800000 0x04800000, rm 0x8c08 0x1fff3f03 0, rm 0x9008 0x1fff3f03 0x00400801,
        wr 0x8c40 0, wr 0x8c44 48, wr 0x8c4c 0, wr 0x8c50 0] ++
      (List.range 11).map quota ++ [rm 0x8400 0x04800000 0x04800000, enterPhase 3])

def buffersReady : Probing Bool :=
  every
    [poll 0x8d00 3 3 2000 (fun r v => { r with wde := v }), poll 0x9100 3 3 2000 (fun r v => { r with ple := v }),
      enterPhase 4]

def configured : Probing Bool := do
  let wde ← ask (Io.read32 0x8c08)
  let ple ← ask (Io.read32 0x9008)
  let control ← ask (Io.read32 0x8a00)
  let pages ← ask (Io.read32 0x8a04)
  modify fun d => { d with r.wdeConfig := wde, r.pleConfig := ple, r.hfcControl := control, r.hfcPages := pages }
  orStop
    (every
      [valueMatches 0x8c08 wde 0x1fff3f03 0, valueMatches 0x9008 ple 0x1fff3f03 0x00400801,
        valueMatches 0x8a00 control 0xc09 8, valueMatches 0x8a04 pages allBits ((40 : UInt32) <<< 16)])
    .invalidRead

def flowControl : Probing Bool :=
  every
    [rm 0x8a00 9 0, wr 0x8a04 ((40 : UInt32) <<< 16), rm 0x8a00 0xc00 0, rm 0x8a00 9 8, configured, enterPhase 5]

def writeReason (reason : UInt16) : Probing Bool := do
  modify fun d => d.wrote
  if ← ask (.bootWrite16 0x1e6 (reason &&& ~~~7)) then
    return true
  else
    stopWith .writeFailed

def resetProcessor (reason : UInt16) : Probing Bool :=
  every
    [rm 0x88 2 0, rm 0x1e0 7 0, rm 8 0x4000 0, rm 0x88 4 0, rm 0x88 4 4, rm 0x88 1 0, rm 0x88 1 1, wr 0x1f4 0, wr 0x1f8 0,
      wr 0x160 0, wr 0x164 0, wr 0x168 0, wr 0x16c 0, rm 8 0x4000 0x4000, rm 0x1e0 0xe7 1, rm 0xc00 0x30000 0x20000,
      writeReason reason]

/-- The firmware state is that of a processor which was just reset. -/
def freshState : Probing Bool := do
  let reset ← ask (Io.read32 0x1e0)
  orStop (valueMatches 0x1e0 reset 0xe7 1) .staleReady

def release : Probing Bool := every [rm 0x88 2 2, enterPhase 6]

def romState : Probing Bool := do
  let d ← get
  let state := (d.r.control >>> 5) &&& 7
  if d.r.control &&& 0xe0 = 0xe0 then
    stopWith .staleReady
  else if 2 ≤ state ∧ state ≤ 4 then
    stopWith .romError
  else
    return true

def clocked : Probing Bool := do
  let dmac ← ask (Io.read32 0x8400)
  let clock ← ask (Io.read32 0x8404)
  modify fun d => { d with r.dmac := dmac, r.clock := clock }
  orStop (both (valueMatches 0x8400 dmac allBits 0x64c40000) (valueMatches 0x8404 clock allBits 0x04840000)) .invalidRead

def romReady : Probing Bool := both (poll 0x1e0 2 2 400000 (fun r v => { r with control := v })) romState

def untilReady (reason : UInt16) : Probing Bool :=
  both access <| both (every [pauseDma, layout, buffersReady, flowControl, resetProcessor reason]) <|
    both freshState <| both release <| both romReady clocked

def sequence (reason : UInt16) : Probing Unit := do
  if ← untilReady reason then
    modify fun d => d.stopped .ready
  else
    return ()

def act : Probing Unit := do
  let d ← get
  if d.r.status = .ready then
    ask Io.action
  else
    return ()

/-! ## The cleanup -/

def Probe.failed (d : Probe) (bit : UInt32) : Probe :=
  { d with r.cleanupFailures := d.r.cleanupFailures ||| bit }

def orFail (m : Probing Bool) (bit : UInt32) : Probing Unit := do
  if ← m then
    return ()
  else
    modify fun d => d.failed bit

def cleanCpu : Probing Bool :=
  each [rm 0x88 2 0, rm 0x1e0 7 0, rm 8 0x4000 0, rm 0x88 4 0, rm 0x88 4 4, rm 0x88 1 0, rm 0x88 1 1]

/-- The clocked HFC is verified before its parent block is disabled. -/
def cleanHfc : Probing Bool := do
  let ok ← rm 0x8a00 9 0
  let v ← ask (Io.read32 0x8a00)
  orFail (valueMatches 0x8a00 v 9 0) 1
  return ok

def restoreHci : Probing Bool := do
  let d ← get
  let ok ← each [wr 0x1010 d.stop, wr 0x1000 d.hci]
  let hci ← ask (Io.read32 0x1000)
  let stop ← ask (Io.read32 0x1010)
  modify fun d => { d with r.hciAfter := hci, r.stopAfter := stop }
  orFail (valueMatches 0x1000 hci allBits d.hci) 16
  orFail (valueMatches 0x1010 stop allBits d.stop) 32
  return ok

/-- Clocks are disabled and verified while the window is still open. -/
def closeClock (function : UInt32) : Probing Bool :=
  if !invalid function && function &&& 0x40000000 != 0 then do
    let ok ← wr 0x8404 0
    let clock ← ask (Io.read32 0x8404)
    modify fun d => { d with r.cleanupClock := clock, r.cleanupClockChecked := true }
    orFail (valueMatches 0x8404 clock allBits 0) 4
    return ok
  else do
    modify fun d => d.failed 4
    return true

def closeAccess : Probing Bool := do
  let function ← ask (Io.read32 0x8400)
  let c ← closeClock function
  let f ← wr 0x8400 0
  let dmac ← ask (Io.read32 0x8400)
  modify fun d => { d with r.cleanupDmac := dmac }
  orFail (valueMatches 0x8400 dmac allBits 0) 2
  return c && f

def restoreBoot (sec : UInt32) (reason : UInt16) : Probing Bool := do
  let s ← wr 0xc00 sec
  modify fun d => d.wrote
  let b ← ask (.bootWrite16 0x1e6 reason)
  return s && b

/-- Steps of a block that was not entered are left out. -/
def whenever (entered : Bool) (m : Probing Bool) : Probing Bool :=
  if entered then m else return true

/-- `read32(0xc00)!=sec||read16(0x1e6)!=reason`, the other way round. -/
def bootBack (sec : UInt32) (reason : UInt16) : Probing Bool := do
  let s ← ask (Io.read32 0xc00)
  if s = sec then
    let b ← ask (Io.read16 0x1e6)
    return b == reason
  else
    return false

def cpuStopped (platform clock control : UInt32) : Bool :=
  !invalid platform && platform &&& 2 == 0 && !invalid clock && clock &&& 0x4000 == 0 && !invalid control &&
    control &&& 7 == 0

def busOff : Probing Bool := do
  let command ← ask .command
  return command &&& 6 == (2 : UInt16)

def verify (sec : UInt32) (reason : UInt16) (ok : Bool) : Probing Unit := do
  let platform ← ask (Io.read32 0x88)
  let clock ← ask (Io.read32 8)
  let control ← ask (Io.read32 0x1e0)
  modify fun d => { d with r.cpuStopped := cpuStopped platform clock control }
  let d ← get
  orFail (whenever (decide (5 ≤ d.r.phase)) (bootBack sec reason)) 8
  orFail (return ok) 64
  orFail (return d.r.cpuStopped) 128
  orFail busOff 256

def Probe.finished (d : Probe) : Probe :=
  let cleanupOK := d.r.cleanupFailures == 0
  { d with r.cleanupOK := cleanupOK, r.status := if cleanupOK then d.r.operationStatus else .cleanupFailed }

/-- Every step is made, also after an earlier one failed. -/
def cleanup (sec : UInt32) (reason : UInt16) : Probing Unit := do
  let d ← get
  let ok ← each
    [whenever (decide (5 ≤ d.r.phase)) cleanCpu, whenever (decide (4 ≤ d.r.phase)) cleanHfc,
      whenever d.r.hciCaptured restoreHci, whenever d.r.accessAttempted closeAccess,
      whenever (decide (5 ≤ d.r.phase)) (restoreBoot sec reason)]
  verify sec reason ok
  modify fun d => d.finished

def Probe.begun (d : Probe) : Probe := { d with r.attempted := true, r.accessAttempted := true }

def Probe.ended (d : Probe) : Probe := { d with r.operationStatus := d.r.status }

def attempt (sec : UInt32) (reason : UInt16) : Probing Unit := do
  modify fun d => d.begun
  sequence reason
  act
  modify fun d => d.ended
  cleanup sec reason

end Boot
end Rtl8852be
