import Rtl8852be.Interaction.Reentry
import Rtl8852be.Queue.Net80211PciQueue
import Rtl8852be.Station.Types

/-!
# MacNetworkState — the station's backend

The part of `MacNetworkState` that stands between the station controller, the boot service and the six
transmit rings: admission of traffic, the deferred radio action, the transmit pump and the poll.

The boot service, the protocol stack, the foreground scan and the timers are the environment.
Questions to them are `Call`s.  Calls under which the station controller, the boot service or the
protocol stack can enter the backend again are `Loan`s: during a loan, any entry point may run.
Preparing a frame is a `Call`: it does not enter the station controller, and the pump it may start
again through `if_start` finds `outputPumping` set and returns.
-/

namespace Rtl8852be
namespace Host

open Interaction Station Queue Network

/-! ## The environment -/

/-- Facts kept outside the backend that its code tests. -/
inductive Query
  | inGate
  | running
  | bootReady
  | timerArmed
  | interruptStopped
  | hardwareStopped
  -- the foreground scan
  | clockValid
  | expired
  | foregroundActive
  | activeScan
  | draining
  | pendingProbe
  | probeWindow
  | queueFrame
  | submittedProbe
  | readyToAdvance
  | scanComplete
  | nextChannel
  | channelReady
  | operationAccepted
  | channelObserved
  -- what the protocol stack asked for, and where it stands
  | resetPending
  | stateDeferred
  | deferredInit
  | stationIdle
  | authPending
  | probePending
  | scanDone
  | runPending
  | autoJoin
  | portOpen
  | portClosed
  | watchdogDue
  deriving DecidableEq, Repr

/-- What `prepareNextTx` did. -/
inductive Prepared
  | again
  | error
  | ready (lease : TxLease)
  deriving DecidableEq

inductive Call
  | test (q : Query)
  | now
  | peer
  | probeNode
  | prepareNextTx
  | txInfo (lease : TxLease)
  | ownsRing (ring : Fin 6)
  | stage (ring : Fin 6)
  | syncForDevice (ring : Fin 6)
  | publish (ring : Fin 6) (next : UInt16)
  | setTraffic (t : Traffic)
  | beginAction (r : ActionRequest) (peer : MacProtocolPeer)
  | setLinkStatus (active : Bool)
  | failure (reason : String)

/-- The replies.  `setTraffic`, `beginAction` and `txInfo` are the boot service's. -/
@[reducible] def Reply : Call → Type
  | .test _ => Bool
  | .now => UInt64
  | .peer => MacProtocolPeer
  | .probeNode => Option ℕ
  | .prepareNextTx => Prepared
  | .txInfo _ => Option (TxInfo × ℕ)
  | .ownsRing _ => Bool
  | .stage _ => StageReply
  | .syncForDevice _ => Bool
  | .publish _ _ => Bool
  | .setTraffic _ => Bool
  | .beginAction _ _ => Bool
  | .setLinkStatus _ => Unit
  | .failure _ => Unit

structure ActionCompletion where
  token : Token
  action : Action
  success : Bool
  deriving DecidableEq

/-- The calls under which the backend can be entered again. -/
inductive Loan
  | commandsService
  | tick (now : UInt64)
  | cancelScan
  | bootService (now : UInt64)
  | restart (now : UInt64)
  | start (now : UInt64)
  | actionComplete (item : ActionCompletion)
  | scan
  | savedState
  | newState
  | nextScan
  | applyPendingSelection
  | authorizePort
  | revokePort
  | watchdog
  deriving DecidableEq

/-- Ghost annotations: a frame was staged on a ring, a completion was queued. -/
inductive Note
  | staged (ring : Fin 6) (lease : TxLease)
  | queued (item : ActionCompletion)

/-! ## The record -/

structure State where
  enabled : Bool := false
  faulted : Bool := false
  stopping : Bool := false
  stationStarted : Bool := false
  outputPumping : Bool := false
  traffic : Traffic := .none
  pendingTx : Option TxLease := none
  tx : Fin 6 → Net80211PciQueue := fun _ => {}
  actionInFlight : Bool := false
  actionDeferred : Bool := false
  activeAction : ActionRequest := { action := .prepareInterface }
  activePeer : MacProtocolPeer := {}
  completed : List ActionCompletion := []
  txSubmitted : ℕ := 0

abbrev Backend := Reentrant State Call Reply Loan Note

/-- `dataDrained`: no frame is pending and no ring owns one. -/
def State.dataDrained (s : State) : Bool :=
  s.pendingTx.isNone && decide (∀ i, (s.tx i).outstanding = 0)

abbrev ask (c : Call) : Backend (Reply c) := Reentrant.ask c

abbrev lend (y : Loan) : Backend Bool := Reentrant.lend y

abbrev tell (n : Note) : Backend Unit := Reentrant.tell n

abbrev test (q : Query) : Backend Bool := ask (.test q)

/-- `releaseTx` of the pending frame. -/
def releasePendingTx : Backend Unit := modify fun s => { s with pendingTx := none }

/-! ## Faults and the station's requests -/

def fail (reason : String) : Backend Unit := do
  let s ← get
  if s.faulted then
    pure ()
  else
    modify fun s => { s with faulted := true, traffic := .none, enabled := false }
    ask (.setLinkStatus false)
    ask (.failure reason)

/-- `dropForegroundHostProbe`, as far as the pending frame is concerned. -/
def dropForegroundHostProbe : Backend Unit := do
  let node ← ask .probeNode
  let s ← get
  if node.isSome ∧ s.pendingTx.map TxLease.node = node then
    releasePendingTx
  else
    pure ()

def stationActionComplete (token : Token) (action : Action) (success : Bool) : Backend Unit := do
  let inGate ← test .inGate
  let s ← get
  if !inGate ∨ s.stopping ∨ s.completed.length = 16 ∨ !s.actionInFlight ∨ s.actionDeferred ∨
      !token.same s.activeAction.token ∨ action ≠ s.activeAction.action then
    fail "invalid station completion context"
  else
    tell (.queued ⟨token, action, success⟩)
    modify fun s => { s with completed := s.completed ++ [⟨token, action, success⟩] }

/-- `setTraffic(none)`: host admission stops first, published frames keep the old channel. -/
def pauseTraffic : Backend Bool := do
  modify fun s => { s with traffic := .none }
  dropForegroundHostProbe
  releasePendingTx
  ask (.setLinkStatus false)
  let s ← get
  if s.actionInFlight ∨ !s.dataDrained then
    pure true
  else
    ask (.setTraffic .none)

def setTraffic (t : Traffic) : Backend Bool := do
  let s ← get
  if s.faulted ∨ s.stopping then
    pure false
  else if t = .none then
    pauseTraffic
  else if s.actionInFlight then
    pure false
  else
    let accepted ← ask (.setTraffic t)
    if !accepted then
      pure false
    else
      if t ≠ .authorized then releasePendingTx else pure ()
      modify fun s => { s with traffic := t }
      if t ≠ .authorized then ask (.setLinkStatus false) else pure ()
      pure true

def beginAction (r : ActionRequest) : Backend Bool := do
  let peer ← ask .peer
  let s ← get
  if s.faulted ∨ s.stopping ∨ s.actionInFlight then
    pure false
  else
    modify fun s => { s with traffic := .none }
    dropForegroundHostProbe
    releasePendingTx
    modify fun s => { s with
      activeAction := r, activePeer := peer, actionInFlight := true, actionDeferred := true }
    pure true

/-! ## The foreground scan -/

/-- `cancelForeground`; cancelling the station's scan can begin an action. -/
def cancelForeground (cancelStation : Bool) : Backend Unit := do
  let active ← test .foregroundActive
  if !active then
    pure ()
  else
    dropForegroundHostProbe
    let draining ← test .draining
    if cancelStation ∧ draining then
      let cancelled ← lend .cancelScan
      if !cancelled then fail "foreground scan cancellation rejected" else pure ()
    else
      pure ()

/-- `foregroundProbeContext`: the backend's own conditions, then all others. -/
def foregroundProbeContext : Backend Bool := do
  let s ← get
  if s.faulted ∨ s.stopping ∨ !s.enabled ∨ s.actionInFlight ∨ s.traffic ≠ .scanProbe ∨
      s.activeAction.action ≠ .scanTune then
    pure false
  else
    test .probeWindow

def expireForegroundHardware : Backend Unit := do
  let draining ← test .draining
  if draining then
    let cancelled ← lend .cancelScan
    if !cancelled then fail "foreground scan timeout cancellation rejected" else pure ()
  else
    pure ()

/-! ## The transmit pump -/

/-- `submitNativeData`, with the `stage` of `MacTxDmaQueue`. -/
def submitNativeData (ring : Fin 6) (lease : TxLease) (info : TxInfo) :
    Backend (Option Errno) := do
  let running ← test .running
  if !running then
    pure (some .enetdown)
  else
    let owned ← ask (.ownsRing ring)
    if !owned then
      pure (some .einval)
    else
      let reply ← ask (.stage ring)
      let s ← get
      match (s.tx ring).stage (some lease) info reply with
      | (.error e, lease, q) => do
          modify fun s => { s with tx := Function.update s.tx ring q, pendingTx := lease }
          pure (some e)
      | (.ok staged, pending, q) => do
          tell (.staged ring lease)
          modify fun s => { s with tx := Function.update s.tx ring q, pendingTx := pending }
          -- The queue owns the frame even when its memory cannot be synchronised.
          let synced ← ask (.syncForDevice ring)
          if !synced then
            pure (some .eio)
          else
            let published ← ask (.publish ring staged.nextProducer)
            pure (if published then none else some .eio)

/-- Publish the pending frame; `true` asks for the next one. -/
def publishPending (probe : Bool) (ring : Fin 6) (lease : TxLease) (info : TxInfo) :
    Backend Bool := do
  let error ← submitNativeData ring lease info
  if error.isSome then
    releasePendingTx
    fail "native TX publication failed"
    pure false
  else if probe then
    let submitted ← test .submittedProbe
    if !submitted then
      fail "foreground probe publication identity changed"
      pure false
    else
      modify fun s => { s with txSubmitted := s.txSubmitted + 1 }
      pure true
  else
    modify fun s => { s with txSubmitted := s.txSubmitted + 1 }
    pure true

/-- A pending foreground probe must be the only frame, in the dwell it was prepared for. -/
def publishProbe (ring : Fin 6) (lease : TxLease) (info : TxInfo) : Backend Bool := do
  let s ← get
  if ring ≠ 4 ∨ info.chDma ≠ 8 ∨ (s.tx ring).outstanding ≠ 0 then
    releasePendingTx
    fail "foreground probe TX ownership conflict"
    pure false
  else
    let context ← foregroundProbeContext
    if !context then
      releasePendingTx
      cancelForeground true
      pure false
    else
      publishPending true ring lease info

/-- Choose a ring for the pending frame. -/
def routePending (probe : Bool) (lease : TxLease) : Backend Bool := do
  let route ← ask (.txInfo lease)
  match route with
  | none => do
      releasePendingTx
      fail "TX descriptor policy unavailable"
      pure false
  | some (info, ring) =>
      if h : ring < 6 then do
        let s ← get
        if (s.tx ⟨ring, h⟩).full then
          pure false
        else if probe then
          publishProbe ⟨ring, h⟩ lease info
        else
          publishPending false ⟨ring, h⟩ lease info
      else do
        releasePendingTx
        fail "TX descriptor policy unavailable"
        pure false

/-- Is the scan still waiting for this probe, in the dwell it was asked for? -/
def probeWanted : Backend Bool := do
  let pending ← test .pendingProbe
  if !pending then
    pure false
  else
    foregroundProbeContext

/-- One round of the pump with a pending frame. -/
def pumpPending (lease : TxLease) : Backend Bool := do
  let node ← ask .probeNode
  let active ← test .foregroundActive
  let activeScan ← test .activeScan
  let probe := node == some lease.node
  if active ∧ activeScan ∧ !probe then
    releasePendingTx
    fail "unexpected management TX during foreground scan"
    pure false
  else if probe then
    let wanted ← probeWanted
    if !wanted then
      releasePendingTx
      cancelForeground true
      pure false
    else
      routePending true lease
  else
    routePending false lease

/-- One round of the pump; `false` leaves the loop. -/
def pumpRound : Backend Bool := do
  let s ← get
  match s.pendingTx with
  | some lease => pumpPending lease
  | none =>
      let prepared ← ask .prepareNextTx
      match prepared with
      | .again => pure false
      | .error => do
          let active ← test .foregroundActive
          let activeScan ← test .activeScan
          if active ∧ activeScan then
            fail "foreground probe preparation failed"
            pure false
          else
            pure true
      | .ready lease => do
          modify fun s => { s with pendingTx := some lease }
          pumpPending lease

def pumpRounds : ℕ → Backend Unit
  | 0 => pure ()
  | budget + 1 => do
      let more ← pumpRound
      if more then pumpRounds budget else pure ()

def pumpTx : Backend Unit := do
  let running ← test .running
  let s ← get
  if s.outputPumping ∨ s.stopping ∨ s.faulted ∨ s.actionInFlight ∨ !s.enabled ∨ !running ∨
      s.traffic = .none then
    pure ()
  else
    modify fun s => { s with outputPumping := true }
    pumpRounds 32
    modify fun s => { s with outputPumping := false }

def serviceForegroundProbe : Backend Unit := do
  let pending ← test .pendingProbe
  let node ← ask .probeNode
  if !pending ∨ node.isSome then
    pure ()
  else
    let context ← foregroundProbeContext
    if !context then
      cancelForeground true
    else
      let queued ← test .queueFrame
      if !queued then
        dropForegroundHostProbe
        cancelForeground true
      else
        pumpTx

/-- `submitForegroundChannel`. -/
def submitForegroundChannel : Backend Bool := do
  let next ← test .nextChannel
  let idle ← test .stationIdle
  let s ← get
  if !next ∨ !idle ∨ s.actionInFlight ∨ !s.dataDrained then
    pure false
  else
    let ready ← test .channelReady
    if !ready then
      pure false
    else
      let accepted ← lend .scan
      if !accepted then
        pure false
      else
        let owned ← test .operationAccepted
        if !owned then
          fail "foreground scan ownership mismatch"
          pure false
        else
          let observed ← test .channelObserved
          if !observed then
            cancelForeground true
            pure false
          else
            pure true

def advanceForeground : Backend Unit := do
  let ready ← test .readyToAdvance
  if !ready then
    pure ()
  else
    let valid ← test .clockValid
    if !valid then
      fail "foreground scan clock regressed"
    else
      let expired ← test .expired
      if expired then
        expireForegroundHardware
      else
        let complete ← test .scanComplete
        if complete then
          pure ()
        else
          let next ← test .nextChannel
          if !next then
            pure ()
          else
            let submitted ← submitForegroundChannel
            let s ← get
            if !submitted ∧ !s.faulted then cancelForeground true else pure ()

/-! ## The poll -/

/-- Lend the record if a test succeeds; whatever comes back is ignored. -/
def lendIf (q : Query) (y : Loan) : Backend Unit := do
  let due ← test q
  if due then
    let _ ← lend y
    pure ()
  else
    pure ()

/-- What the stack asked to be reset, once the rings are empty. -/
def pollReset : Backend Unit := do
  let reset ← test .resetPending
  let s ← get
  if reset ∧ s.dataDrained then
    let _ ← lend .savedState
    pure ()
  else
    pure ()

/-- The state change the stack deferred until the rings are empty and the station is idle. -/
def pollDeferredState : Backend Unit := do
  let deferred ← test .stateDeferred
  let idle ← test .stationIdle
  let s ← get
  if deferred ∧ idle ∧ s.dataDrained then
    let toInit ← test .deferredInit
    let _ ← lend (if toInit then .savedState else .newState)
    pure ()
  else
    pure ()

/-- The end of a poll: the watchdog, the pump and the next timer. -/
def pollPump : Backend Unit := do
  lendIf .watchdogDue .watchdog
  pumpTx
  let armed ← test .timerArmed
  let s ← get
  if !s.faulted ∧ !armed then fail "controller timer failed" else pure ()

/-- The controlled port and the foreground scan. -/
def pollPort : Backend Unit := do
  lendIf .portClosed .revokePort
  advanceForeground
  let s ← get
  if s.faulted then
    pure ()
  else
    pollPump

def pollAuthorize : Backend Unit := do
  let opened ← test .portOpen
  if opened then
    let authorized ← lend .authorizePort
    if !authorized then
      fail "controlled port authorization failed"
    else
      ask (.setLinkStatus true)
      pollPort
  else
    pollPort

/-- What the station and the stack left for the poll to do. -/
def pollProtocol : Backend Unit := do
  pollReset
  pollDeferredState
  lendIf .authPending .savedState
  lendIf .probePending .savedState
  lendIf .scanDone .nextScan
  let applied ← lend .applyPendingSelection
  if !applied then
    fail "network selection failed"
  else
    lendIf .runPending .savedState
    lendIf .autoJoin .newState
    pollAuthorize

/-- The station's deadlines, once it has started. -/
def tickStation (now : UInt64) : Backend Bool := do
  let s ← get
  if s.stationStarted then lend (.tick now) else pure true

/-- The second deadline check and the foreground probe. -/
def pollStation : Backend Unit := do
  let now ← ask .now
  let timely ← tickStation now
  if !timely then
    fail "station timeout"
  else
    serviceForegroundProbe
    let s ← get
    if s.faulted then
      pure ()
    else
      pollProtocol

/-- The loop that hands the queued completions to the station. -/
def pollCompletions : ℕ → Backend Unit
  | 0 => pollStation
  | budget + 1 => do
      let s ← get
      match s.completed with
      | [] => pollStation
      | item :: rest => do
          set { s with completed := rest, actionInFlight := false }
          let accepted ← lend (.actionComplete item)
          if !accepted then
            fail "station action completion rejected"
          else
            pollCompletions budget

/-- The boot service, and the station's start once it is ready. -/
def pollBoot (timestamp : UInt64) : Backend Unit := do
  let served ← lend (.bootService timestamp)
  if !served then
    fail "firmware service failed"
  else
    let ready ← test .bootReady
    let s ← get
    if ready ∧ !s.stationStarted then
      modify fun s => { s with stationStarted := true }
      let restarted ← lend (.restart timestamp)
      if !restarted then
        fail "station role start failed"
      else
        let started ← lend (.start timestamp)
        if !started then
          fail "station role start failed"
        else
          pollCompletions 16
    else
      pollCompletions 16

/-- The deferred action begins once nothing is in flight. -/
def pollAction (timestamp : UInt64) : Backend Unit := do
  let s ← get
  if s.actionDeferred ∧ s.dataDrained then
    let paused ← ask (.setTraffic .none)
    if !paused then
      fail "scheduler pause after TX drain failed"
    else
      modify fun s => { s with actionDeferred := false }
      let begun ← ask (.beginAction s.activeAction s.activePeer)
      if !begun then
        fail "hardware station action rejected"
      else
        pollBoot timestamp
  else
    pollBoot timestamp

/-- The firmware's and the station's deadlines. -/
def pollDeadlines (timestamp : UInt64) : Backend Unit := do
  let served ← lend .commandsService
  if !served then
    fail "firmware service failed"
  else
    let timely ← tickStation timestamp
    if !timely then
      fail "station deadline expired"
    else
      pollAction timestamp

/-- An expired foreground scan is cancelled first. -/
def pollExpired : Backend Unit := do
  let expired ← test .expired
  if expired then expireForegroundHardware else pure ()

def poll : Backend Unit := do
  let s ← get
  if s.stopping ∨ s.faulted then
    pure ()
  else
    let timestamp ← ask .now
    let valid ← test .clockValid
    if !valid then
      fail "foreground scan clock regressed"
    else
      pollExpired
      let s ← get
      if s.faulted then
        pure ()
      else
        pollDeadlines timestamp

/-! ## Completions, enabling and the end -/

/-- `consumeTo` of one ring, from the interrupt service. -/
def consumeTo (ring : Fin 6) (hardwareConsumer : ℕ) : Backend Unit :=
  modify fun s => { s with
    tx := Function.update s.tx ring ((s.tx ring).consumeTo hardwareConsumer).2.2 }

def releaseReport (ring : Fin 6) (r : ReleaseReport) : Backend Unit :=
  modify fun s => { s with tx := Function.update s.tx ring ((s.tx ring).releaseReport r).2.2 }

/-- `enableGated`, before it disconnects the station. -/
def enable (on : Bool) : Backend Bool := do
  let s ← get
  if s.faulted ∨ s.stopping then
    pure false
  else
    modify fun s => { s with enabled := on }
    if on then
      pure true
    else
      cancelForeground false
      ask (.setLinkStatus false)
      pure true

/-- `shutdown`: the rings give their frames back only after the hardware has stopped. -/
def shutdown : Backend Bool := do
  cancelForeground false
  dropForegroundHostProbe
  modify fun s => { s with stopping := true, enabled := false, traffic := .none }
  ask (.setLinkStatus false)
  let idle ← test .interruptStopped
  let stopped ← test .hardwareStopped
  if !idle ∨ !stopped then
    pure false
  else
    releasePendingTx
    modify fun s => { s with tx := fun i => (s.tx i).reclaimAfterDmaStopped.2 }
    pure true

/-! ## Entry points -/

/-- How the backend is entered: by the station, the boot service, the stack, the interrupt service,
the controls and the timer. -/
inductive Op
  | beginAction (r : ActionRequest)
  | setTraffic (t : Traffic)
  | recoveryRequired
  | stationActionComplete (token : Token) (action : Action) (success : Bool)
  | bootFailed (reason : String)
  | pumpTx
  | consumeTo (ring : Fin 6) (hardwareConsumer : ℕ)
  | releaseReport (ring : Fin 6) (r : ReleaseReport)
  | cancelForeground (cancelStation : Bool)
  | dropForegroundHostProbe
  | enable (on : Bool)
  | shutdown
  | poll

/-- `none` is the result of a function without one. -/
abbrev Result := Option Bool

def procedure (m : Backend Unit) : Backend Result := do
  m
  pure none

def function (m : Backend Bool) : Backend Result := do
  let b ← m
  pure (some b)

def exec : Op → Backend Result
  | .beginAction r => function (beginAction r)
  | .setTraffic t => function (setTraffic t)
  | .recoveryRequired => procedure (fail "station operation failed; physical firmware reset required")
  | .stationActionComplete token action success =>
      procedure (stationActionComplete token action success)
  | .bootFailed reason => procedure (fail reason)
  | .pumpTx => procedure pumpTx
  | .consumeTo ring hardwareConsumer => procedure (consumeTo ring hardwareConsumer)
  | .releaseReport ring r => procedure (releaseReport ring r)
  | .cancelForeground cancelStation => procedure (cancelForeground cancelStation)
  | .dropForegroundHostProbe => procedure dropForegroundHostProbe
  | .enable on => function (enable on)
  | .shutdown => function shutdown
  | .poll => procedure poll

/-- After `startHardware`: six attached rings, nothing in flight. -/
def started : State :=
  { tx := fun i => { attached := true, channel := ![0, 1, 2, 3, 8, 9] i } }

abbrev Step := Moment State Call Reply Loan Note Op Result

end Host
end Rtl8852be
