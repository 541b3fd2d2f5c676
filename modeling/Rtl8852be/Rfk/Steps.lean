import Rtl8852be.Rfk.RfkInitialization

/-!
# Steps — calibrations one after the other

The steps of `RfkInitialization.hpp`: each acquires a lease, runs an imported calibration over the accessors, and gives
the lease back.  An imported calibration also measures; what it measured is judged here.
-/

namespace Rtl8852be
namespace Rfk

open Interaction

/-! ## Imported calibrations -/

/-- What an imported calibration may do: the accessors, the check and the failure behind them, the three calls it makes
of the backend itself, and what it measures and keeps. -/
inductive Shim
  | access (x : Accessor)
  | poll (step timeout : ℕ) (ready : Prog Accessor Value Empty Bool)
  | check
  | fail (e : Error)
  | armCalibrationTx
  | stopCalibrationTx
  | nowUs
  | measured
  | measure (g : Measured → Measured)

abbrev Shim.Value : Shim → Type
  | .access x => Rfk.Value x
  | .nowUs => UInt64
  | .measured => Measured
  | .measure _ => Unit
  | _ => Bool

def shim : (x : Shim) → Gated x.Value
  | .access x => access x
  | .poll step timeout ready => poll step timeout ready
  | .check => check
  | .fail e => fail e
  | .armCalibrationTx => Code.ask Call.armCalibrationTx
  | .stopCalibrationTx => Code.ask Call.stopCalibrationTx
  | .nowUs => Code.ask Call.startUs
  | .measured => do
      let d ← get
      return d.measured
  | .measure g => modify fun d => { d with measured := g d.measured }

abbrev Body (α : Type) := Prog Shim Shim.Value Empty α

def import_ {α : Type} (m : Body α) : Gated α := m.through shim

/-- The imported calibrations, and what else is imported. -/
structure Imported where
  setDpdBackoff : Body Unit
  rck (path : UInt8) : Body Unit
  dacCal : Body Unit
  waitRxMode : Body Unit
  rxDck : Body Unit
  iqkInit : Body Unit
  iqk : Body Unit
  tssi : Body Unit
  dpk : Body Unit
  getThermal (path : UInt8) : Body UInt8
  dpkTrack : Body Unit
  wifiScanNotify (start : Bool) : Body Unit
  tssiScan : Body Unit

/-! ## Leases -/

def Initialization.entered (d : Initialization) (stage : Stage) : Initialization :=
  { d with result := { d.result with stage := stage } }

def Initialization.leasing (d : Initialization) (released : Bool) : Initialization :=
  { d with result := { d.result with ownershipReleased := released } }

def Initialization.needingReset (d : Initialization) : Initialization :=
  { d with result := { d.result with requiresReset := true } }

/-- A failure after which the device must be reset. -/
def failHard (e : Error) : Gated Bool := do
  modify fun d => (d.failing e).needingReset
  return false

def begin_ (kind : Kind) (stage : Stage) : Gated Bool := do
  modify fun d => d.entered stage
  if ← check then do
    modify fun d => d.leasing false
    if ← Code.ask (Call.begin_ kind) then
      return true
    else
      failHard .precondition
  else
    return false

/-- `if(ok&&!context_.io.drain())`. -/
def drained : Gated Bool := do
  if ← check then
    if ← Code.ask Call.drain then
      return true
    else
      fail .io
  else
    return false

/-- Cleanup/notification is attempted even when normal I/O is latched off. -/
def end_ (kind : Kind) : Gated Bool := do
  let ok ← drained
  let released : Bool ← Code.ask (Call.end_ kind ok)
  modify fun d => d.leasing released
  if released then do
    modify fun d => { d with oneshotActive := false }
    return ok
  else
    failHard .io

def freshBudget : Gated Unit := modify fun d => { d with started := false, operationBase := d.result.operations }

/-- A step under its lease; `done` is what is left of one that ended well, or did not. -/
def leased (kind : Kind) (stage : Stage) (body : Gated Unit) (done : Bool → Gated Bool) : Gated Bool := do
  freshBudget
  if ← begin_ kind stage then do
    body
    let ok ← end_ kind
    done ok
  else
    return false

/-! ## Initialization -/

variable (I : Imported)

def Result.idle (r : Result) (stage : Stage) : Bool := r.stage == stage && r.error == .none

def Initialization.ready (d : Initialization) (f : Result → Result) : Initialization := { d with result := f d.result }

/-- Nothing but the error is left of a step that did not end well. -/
def finishing (f : Initialization → Initialization) (ok : Bool) : Gated Bool := do
  if ok then do
    modify f
    return true
  else
    return false

/-- `result.rckReady=end(Kind::rck)`. -/
def rckDone (ok : Bool) : Gated Bool := do
  modify fun d => d.ready fun r => { r with rckReady := ok }
  return ok

/-- `result.rxDcReady=end(Kind::rxDc)`, and what follows. -/
def rxDcDone (f : Initialization → Initialization) (ok : Bool) : Gated Bool := do
  modify fun d => d.ready fun r => { r with rxDcReady := ok }
  finishing f ok

def rckBody : Gated Unit := do
  import_ I.setDpdBackoff
  if ← check then do
    import_ (I.rck 0)
    if ← check then
      import_ (I.rck 1)
    else
      return ()
  else
    return ()

def initializeRck : Gated Bool := do
  let d ← get
  if !d.result.idle .idle then
    return false
  else
    leased .rck .rck (rckBody I) rckDone

/-- Upstream records completion even after timeout; never expose that as valid. -/
def dackDone (ok : Bool) : Gated Bool := do
  let d ← get
  if ok && d.measured.dackDone then do
    modify fun d => d.ready fun r => { r with dackReady := true }
    return true
  else do
    modify fun d => { d.ready fun r => { r with dackReady := false } with measured := { d.measured with dackDone := false } }
    return false

def initializeDack : Gated Bool := do
  let d ← get
  if !d.result.idle .rck || !d.result.rckReady then
    return false
  else
    leased .dack .dack (import_ I.dacCal) dackDone

def rxDcBody : Gated Unit := do
  import_ I.waitRxMode
  import_ I.rxDck

def initializeRxDc : Gated Bool := do
  let d ← get
  if !d.result.idle .dack || !d.result.dackReady then
    return false
  else
    leased .rxDc .rxDc (rxDcBody I) (rxDcDone fun d => d.entered .complete)

/-! ## Calibrations of a channel -/

/-- What every calibration of a channel needs. -/
def Result.settled (r : Result) : Bool := r.idle .complete && !r.scanActive

def Initialization.uncalibrated (d : Initialization) (channel : Channel) : Initialization :=
  { d with
    result := { d.result with iqReady := false, tssiReady := false, dpkReady := false, rxDcReady := false }
    preparedRxDc := false
    channel := channel }

def Initialization.prepared (d : Initialization) (channel : Channel) : Initialization :=
  { d.entered .complete with rxDcChannel := channel, preparedRxDc := true }

def calibrateRxDc (channel : Channel) : Gated Bool := do
  let d ← get
  if !d.result.settled || !d.result.rxDcReady || !validChannel channel then
    return false
  else do
    modify fun d => d.uncalibrated channel
    leased .rxDc .rxDc (rxDcBody I) (rxDcDone fun d => d.prepared channel)

/-- Consume once: a later IQK (including after scan) needs fresh RXDCK. -/
def Initialization.consumed (d : Initialization) : Initialization :=
  { d with preparedRxDc := false, measured := { d.measured with restoreFailed := fun _ => false } }

def Measured.iqkFailed (m : Measured) (p : Fin 2) : Bool :=
  (m.iqk p).lokFail || (m.iqk p).lokCorFail || (m.iqk p).lokFinFail || (m.iqk p).txFail || (m.iqk p).rxFail ||
    m.restoreFailed p

def judge (bad : Initialization → Bool) : Gated Unit := do
  let d ← get
  if bad d then do
    let _ ← fail .calibration
    return ()
  else
    return ()

/-- A judgement of both paths, unless there is an error already. -/
def judgeBoth (bad : Fin 2 → Initialization → Bool) : Gated Unit := do
  if ← check then do
    judge (bad 0)
    judge (bad 1)
  else
    return ()

def iqBody : Gated Unit := do
  import_ I.waitRxMode
  import_ I.iqkInit
  import_ I.iqk
  judgeBoth fun p d => d.measured.iqkFailed p

def calibrateIqOnly (channel : Channel) : Gated Bool := do
  let d ← get
  if !d.result.settled || !d.preparedRxDc || !d.result.rxDcReady || channel != d.rxDcChannel then
    return false
  else do
    modify fun d => d.consumed
    leased .iqk .iqk (iqBody I)
      (finishing fun d => d.ready fun r => { r with iqChannel := channel, iqReady := true, stage := .complete })

def calibrateTssi : Gated Bool := do
  let d ← get
  if !d.result.settled || !d.result.iqReady || !d.calibrationConfigured then
    return false
  else do
    modify fun d => d.ready fun r => { r with tssiReady := false, dpkReady := false }
    leased .tssi .tssi (import_ I.tssi)
      (finishing fun d => d.ready fun r => { r with tssiReady := true, stage := .complete })

/-- The coefficients of a path are none, or not of this channel. -/
def Initialization.dpkFailed (p : Fin 2) (d : Initialization) : Bool :=
  let b := d.measured.bp p (d.measured.curIdx p)
  !b.pathOk || b.therDpk == 0 || b.ch != d.channel.center || b.band != d.channel.band || b.bw != d.channel.width

def Measured.dpkCleared (m : Measured) : Measured :=
  { m with bp := fun p => Function.update (m.bp p) 0 { m.bp p 0 with pathOk := false } }

def dpkBody : Gated Unit := do
  modify fun d => { d with measured := d.measured.dpkCleared }
  import_ I.waitRxMode
  import_ I.dpk
  judgeBoth Initialization.dpkFailed

def calibrateDpk : Gated Bool := do
  let d ← get
  if !d.result.settled || !d.result.iqReady || !d.result.tssiReady then
    return false
  else do
    modify fun d => d.ready fun r => { r with dpkReady := false }
    leased .dpk .dpk (dpkBody I)
      (finishing fun d => d.ready fun r => { r with dpkReady := true, stage := .complete })

/-- `ThermalAverage::add`: zero is absent data. -/
def thermalAdd (fixed : UInt32) (value : UInt8) : UInt32 :=
  if value = 0 then fixed
  else if fixed ≠ 0 then (3 * fixed + value.toUInt32 * 16) / 4
  else value.toUInt32 * 16

def Measured.sampled (m : Measured) (p : Fin 2) (sample : UInt8) : Measured :=
  { m with avgThermal := Function.update m.avgThermal p (thermalAdd (m.avgThermal p) sample) }

def addSample (p : Fin 2) : Gated Unit := do
  let sample ← import_ (I.getThermal (UInt8.ofNat p))
  if ← check then
    modify fun d => { d with measured := d.measured.sampled p sample }
  else
    return ()

def sampleThermal : List (Fin 2) → Gated Unit
  | [] => return ()
  | p :: ps => do
      if ← check then do
        addSample I p
        sampleThermal ps
      else
        return ()

def trackBody : Gated Unit := do
  sampleThermal I [0, 1]
  import_ I.dpkTrack

def trackDpk : Gated Bool := do
  let d ← get
  if !d.result.settled || !d.result.dpkReady then
    return false
  else do
    modify fun d => d.ready fun r => { r with dpkReady := false }
    leased .track .track (trackBody I)
      (finishing fun d => d.ready fun r => { r with dpkReady := true, stage := .complete })

/-! ## Scans -/

/-- The home channel is remembered, and nothing is ready. -/
def Initialization.leavingHome (d : Initialization) : Initialization :=
  { d with
    homeDpkReady := d.result.dpkReady
    result := { d.result with
      scanHome := d.result.iqChannel
      scanChannel := d.result.iqChannel
      iqReady := false
      tssiReady := false
      dpkReady := false
      scanReady := false } }

/-- `result.tssiReady||calibrateTssi()`. -/
def tssiReady : Gated Bool := do
  let d ← get
  if d.result.tssiReady then return true else calibrateTssi I

def startScan : Gated Bool := do
  let d ← get
  if !d.measured.isTssiMode 0 || !d.measured.isTssiMode 1 then
    return false
  else do
    modify fun d => d.leavingHome
    leased .scan .scan (import_ (I.wifiScanNotify true))
      (finishing fun d => d.ready fun r => { r with scanActive := true, scanReady := true, stage := .complete })

def beginScan : Gated Bool := do
  let d ← get
  if !d.result.settled || !d.result.iqReady || !d.calibrationConfigured then
    return false
  else
    Code.both (tssiReady I) (startScan I)

def Initialization.retuned (d : Initialization) (channel : Channel) : Initialization :=
  { d with result := { d.result with scanReady := false }, channel := channel }

def prepareScanChannel (channel : Channel) : Gated Bool := do
  let d ← get
  if !d.result.idle .complete || !d.result.scanActive || !validChannel channel then
    return false
  else do
    modify fun d => d.retuned channel
    leased .scan .scan (import_ I.tssiScan)
      (finishing fun d => d.ready fun r => { r with scanChannel := channel, scanReady := true, stage := .complete })

def finishScanBody : Gated Unit := do
  import_ I.tssiScan
  import_ (I.wifiScanNotify false)

def Initialization.home (d : Initialization) (restored : Channel) : Initialization :=
  d.ready fun r => { r with
    scanActive := false
    scanChannel := restored
    iqChannel := restored
    iqReady := true
    tssiReady := true
    dpkReady := d.homeDpkReady
    stage := .complete }

/-- Never accept a different channel and expose its stale coefficients as readiness. -/
def finishScan (restored : Channel) : Gated Bool := do
  let d ← get
  if !d.result.idle .complete || !d.result.scanActive || restored != d.result.scanHome then
    return false
  else do
    modify fun d => d.retuned restored
    leased .scan .scan (finishScanBody I)
      (finishing fun d => d.home restored)

/-- The values that are copied for the imported calibrations are left to those. -/
def configureCalibration (identityValid : Bool) (antennaRx : UInt8) : Gated Bool := do
  let d ← get
  if d.result.stage != .idle || d.calibrationConfigured || !identityValid || 3 < antennaRx then
    return false
  else do
    modify fun d => { d with calibrationConfigured := true }
    return true

/-! ## Runs -/

/-- The calls of a controller; `initialize` and `calibrateIq` make several of them, one after the other. -/
inductive Step
  | configureCalibration (identityValid : Bool) (antennaRx : UInt8)
  | initializeRck
  | initializeDack
  | initializeRxDc
  | calibrateRxDc (channel : Channel)
  | calibrateIqOnly (channel : Channel)
  | calibrateTssi
  | calibrateDpk
  | trackDpk
  | beginScan
  | prepareScanChannel (channel : Channel)
  | finishScan (restored : Channel)
  deriving DecidableEq

def take : Step → Gated Bool
  | .configureCalibration identityValid antennaRx => configureCalibration identityValid antennaRx
  | .initializeRck => initializeRck I
  | .initializeDack => initializeDack I
  | .initializeRxDc => initializeRxDc I
  | .calibrateRxDc channel => calibrateRxDc I channel
  | .calibrateIqOnly channel => calibrateIqOnly I channel
  | .calibrateTssi => calibrateTssi I
  | .calibrateDpk => calibrateDpk I
  | .trackDpk => trackDpk I
  | .beginScan => beginScan I
  | .prepareScanChannel channel => prepareScanChannel I channel
  | .finishScan restored => finishScan I restored

abbrev Taken := Interaction.Record Initialization Call Reply Called Step Bool

abbrev Steps : List Taken → Initialization → Prop := Interaction.Run (take I) {}

end Rfk
end Rtl8852be
