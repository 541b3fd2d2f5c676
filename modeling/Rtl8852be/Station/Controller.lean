import Rtl8852be.Interaction.Program
import Rtl8852be.Station.Types

/-!
# Controller — station orchestration

`station::Controller` of `StationController.hpp`, member function by member function.  All entry
points run under one gate and the backend does not re-enter the object, so each of them is gated
`Code` over the record of its fields: backend operations are the calls, their results the replies.

The annotations say where the source calls `token()` and where it reads `channels_[channelIndex_]`.
They are ghost and only the statements about tokens and scans look at them.
-/

namespace Rtl8852be
namespace Station

open Interaction Network

/-! ## The backend -/

/-- The operations the controller asks of its backend. -/
inductive Call
  | inGate
  | setTraffic (mode : Traffic)
  | reserveH2cSequence
  | publishH2c (bytes : List UInt8) (token : Token)
  | beginAction (request : ActionRequest)
  | beginAuthentication (token : Token) (peer : Peer)
  | sendProbe (token : Token) (peer : Option Peer) (channel : ScanChannel)
  | cancelProtocol (token : Token)
  | scanFinished (token : Token) (cancelled : Bool)
  | recoveryRequired (token : Token) (error : Error)
  | firmwareRestartVerified (newEpoch : UInt64)
  deriving DecidableEq

/-- What each operation returns.  A reserved sequence is the value `reserveH2cSequence` leaves in
its argument when it returns `true`. -/
abbrev Reply : Call → Type
  | .inGate => Bool
  | .setTraffic _ => Bool
  | .reserveH2cSequence => Option UInt8
  | .publishH2c _ _ => Bool
  | .beginAction _ => Bool
  | .beginAuthentication _ _ => Bool
  | .sendProbe _ _ _ => Bool
  | .cancelProtocol _ => Bool
  | .scanFinished _ _ => Unit
  | .recoveryRequired _ _ => Unit
  | .firmwareRestartVerified _ => Bool

/-- Annotations: a token handed out by `token()`, a read of `channels_[channelIndex_]`. -/
inductive Note
  | issued (token : Token)
  | channelRead (index count : Nat)
  deriving DecidableEq, Repr

abbrev TraceEvent := Event Call Reply Note

abbrev Trace := List TraceEvent

/-! ## The fields -/

/-- The fields of the controller.  `channels` is the array `channels_[64]`; only entries below
`channelCount ≤ 64` are ever written or read. -/
structure Controller where
  state : State := .stopped
  scanResume : State := .idle
  error : Error := .none
  interface : Interface := {}
  peer : Peer := {}
  association : Association := {}
  channels : Nat → ScanChannel := fun _ => {}
  channelCount : Nat := 0
  channelIndex : Nat := 0
  epoch : Token := {}
  associationToken : Token := {}
  scanToken : Token := {}
  pendingToken : Token := {}
  pendingAction : Action := .prepareInterface
  pendingCommand : CommandId := {}
  pendingSequence : UInt8 := 0
  serial : UInt64 := 0
  lastNow : UInt64 := 0
  deadline : UInt64 := 0
  scanDeadline : UInt64 := 0
  clockStarted : Bool := false
  waitingAction : Bool := false
  waitingCommand : Bool := false
  roleCreated : Bool := false
  authenticated : Bool := false
  scanCancelled : Bool := false
  disconnectRequested : Bool := false

namespace Controller

def scanning (c : Controller) : Bool :=
  State.scanningBegin.rank ≤ c.state.rank && c.state.rank ≤ State.scanningEnd.rank

def linked (c : Controller) : Bool := c.state == .associated || c.state == .authorized

def waiting (c : Controller) : Bool := c.waitingAction || c.waitingCommand

end Controller

def uint64Max : UInt64 := 0xffffffffffffffff

def actionTimeout : UInt64 := 12000000

def commandTimeout : UInt64 := 2000000

def authenticationTimeout : UInt64 := 10000000

abbrev Gated := Code Controller Call Reply Note

namespace Backend

def inGate : Gated Bool := Code.ask Call.inGate

def setTraffic (mode : Traffic) : Gated Bool := Code.ask (Call.setTraffic mode)

def reserveH2cSequence : Gated (Option UInt8) := Code.ask Call.reserveH2cSequence

def publishH2c (bytes : List UInt8) (token : Token) : Gated Bool :=
  Code.ask (Call.publishH2c bytes token)

def beginAction (request : ActionRequest) : Gated Bool := Code.ask (Call.beginAction request)

def beginAuthentication (token : Token) (peer : Peer) : Gated Bool :=
  Code.ask (Call.beginAuthentication token peer)

def sendProbe (token : Token) (peer : Option Peer) (channel : ScanChannel) : Gated Bool :=
  Code.ask (Call.sendProbe token peer channel)

def cancelProtocol (token : Token) : Gated Bool := Code.ask (Call.cancelProtocol token)

def scanFinished (token : Token) (cancelled : Bool) : Gated Unit :=
  Code.ask (Call.scanFinished token cancelled)

def recoveryRequired (token : Token) (error : Error) : Gated Unit :=
  Code.ask (Call.recoveryRequired token error)

def firmwareRestartVerified (newEpoch : UInt64) : Gated Bool :=
  Code.ask (Call.firmwareRestartVerified newEpoch)

end Backend

/-! ## Private helpers -/

def fail (error : Error) : Gated Bool := do
  let c ← get
  if c.state = .faulted then
    return false
  set { c with error := error, state := .faulted, waitingAction := false, waitingCommand := false }
  let _ ← Backend.setTraffic .none
  Backend.recoveryRequired c.epoch error
  return false

def time (now : UInt64) : Gated Bool := do
  if !(← Backend.inGate) then
    return false
  let c ← get
  if c.state = .faulted then
    return false
  if c.clockStarted && now < c.lastNow then
    fail .clock
  else do
    set { c with lastNow := now, clockStarted := true }
    return true

def arm (duration : UInt64) : Gated Bool := do
  let c ← get
  if uint64Max - c.lastNow < duration then
    fail .clock
  else do
    set { c with deadline := c.lastNow + duration }
    return true

def token : Gated Token := do
  let c ← get
  if c.serial = uint64Max then do
    let _ ← fail .sequenceExhausted
    return {}
  else do
    set { c with serial := c.serial + 1 }
    Code.tell (.issued ⟨c.epoch.epoch, c.serial + 1⟩)
    return ⟨c.epoch.epoch, c.serial + 1⟩

def traffic (value : Traffic) : Gated Bool := do
  if ← Backend.setTraffic value then
    return true
  else
    fail .backend

/-- A read of `channels_[channelIndex_]`. -/
def currentChannel : Gated ScanChannel := do
  let c ← get
  Code.tell (.channelRead c.channelIndex c.channelCount)
  return c.channels c.channelIndex

/-- `kind==Action::scanTune&&channels_[channelIndex_].active` -/
def activeTune (kind : Action) : Gated Bool := do
  if kind = .scanTune then
    return (← currentChannel).active
  else
    return false

def action (kind : Action) (state : State) (target : Channel) : Gated Bool := do
  if (← get).waiting then
    return ← fail .backend
  let pending ← token
  modify fun c => { c with pendingToken := pending }
  if (← get).state = .faulted then
    return false
  modify fun c => { c with pendingAction := kind, waitingAction := true, state := state }
  if !(← arm actionTimeout) then
    return false
  let activeScan ← activeTune kind
  let c ← get
  let request : ActionRequest :=
    { action := kind, token := c.pendingToken, association := c.associationToken,
      interface := c.interface, peer := c.peer, channel := target, aid := c.association.aid,
      activeScan := activeScan }
  if ← Backend.beginAction request then
    return true
  else
    fail .backend

/-- The packet `command` builds, with the identity it waits for. -/
def commandPacket (interface : Interface) (role removeOrDisconnect : Bool) (sequence : UInt8) :
    Option (List UInt8) × CommandId :=
  if role then
    (encodeRole
      { macid := interface.macid, selfRole := 0, wifiRole := 1,
        updateMode := if removeOrDisconnect then 1 else 0 } sequence 12,
      ⟨1, 8, 4⟩)
  else
    (encodeJoin
      { macid := interface.macid, band := interface.macIndex, wmm := interface.wmm,
        port := interface.port, selfRole := 0, wifiRole := 1,
        netType := if removeOrDisconnect then 0 else 2, disconnect := removeOrDisconnect }
      sequence 12,
      ⟨1, 8, 0⟩)

def command (role removeOrDisconnect : Bool) (state : State) : Gated Bool := do
  if (← get).waiting then
    return ← fail .backend
  match ← Backend.reserveH2cSequence with
  | none => fail .sequenceExhausted
  | some sequence => do
      let packet := commandPacket (← get).interface role removeOrDisconnect sequence
      modify fun c => { c with pendingCommand := packet.2 }
      match packet.1 with
      | none => fail .backend
      | some bytes => do
          let pending ← token
          modify fun c => { c with pendingToken := pending }
          if (← get).state = .faulted then
            return false
          modify fun c =>
            { c with pendingSequence := sequence, waitingCommand := true, state := state }
          if !(← arm commandTimeout) then
            return false
          if ← Backend.publishH2c bytes (← get).pendingToken then
            return true
          else
            fail .backend

def beginDisconnect : Gated Bool := do
  if !(← traffic .none) then
    return false
  if !(← Backend.cancelProtocol (← get).associationToken) then
    return ← fail .backend
  action .disconnectCmac .disconnectingCmac {}

def tuneScan : Gated Bool := do
  if !(← traffic .none) then
    return false
  let current ← currentChannel
  action .scanTune .scanningTune current.channel

def restoreScan : Gated Bool := do
  if !(← traffic .none) then
    return false
  let c ← get
  let home := if c.scanResume = .idle then c.interface.home else c.peer.channel
  action .scanRestore .scanningRestore home

/-- The traffic mode `completeScan` returns to. -/
def resumeMode (state : State) : Traffic :=
  if state = .authorized then .authorized
  else if state = .associated then .controlledPort
  else .management

def completeScan : Gated Bool := do
  modify fun c => { c with state := c.scanResume }
  let c ← get
  -- A pending disconnect must not briefly reopen the controlled port.
  if !(← traffic (if c.disconnectRequested then .none else resumeMode c.state)) then
    return false
  Backend.scanFinished c.scanToken c.scanCancelled
  modify fun c => { c with scanToken := {} }
  if (← get).disconnectRequested then
    beginDisconnect
  else
    return true

/-- Both a check and a transition: an expired authentication starts the disconnect here. -/
def expire : Gated Bool := do
  let c ← get
  if c.scanning && c.scanDeadline ≤ c.lastNow then
    return ← fail .timeout
  if c.waiting then
    if c.deadline ≤ c.lastNow then
      fail .timeout
    else
      return true
  else if c.state = .authenticating ∧ c.deadline ≤ c.lastNow then do
    set { c with error := .timeout, disconnectRequested := true }
    beginDisconnect
  else
    return true

/-! ## Public operations -/

def restart (newEpoch now : UInt64) : Gated Bool := do
  if !(← Backend.inGate) then
    return false
  let c ← get
  if newEpoch = 0 ∨ newEpoch ≤ c.epoch.epoch then
    return false
  if !(← Backend.firmwareRestartVerified newEpoch) then
    return false
  if !(← Backend.setTraffic .none) then
    return false
  set
    { c with
      state := .stopped, error := .none, epoch := ⟨newEpoch, 0⟩, serial := 0,
      associationToken := {}, scanToken := {}, pendingToken := {},
      waitingAction := false, waitingCommand := false, roleCreated := false,
      authenticated := false, scanCancelled := false, disconnectRequested := false,
      channelCount := 0, channelIndex := 0,
      interface := {}, peer := {}, association := {},
      lastNow := now, clockStarted := true }
  return true

/-- The configurations `start` accepts. -/
def acceptable (config : Interface) : Bool :=
  config.address.unicast && config.macIndex == 0 && config.macid < 128 && config.wmm ≤ 3 &&
    config.port ≤ 4 && config.home.validChannel

def start (config : Interface) (now : UInt64) : Gated Bool := do
  if !(← time now) then
    return false
  let c ← get
  if c.state ≠ .stopped ∨ c.epoch.epoch = 0 ∨ acceptable config = false then
    return false
  set { c with interface := config, error := .none }
  if !(← traffic .none) then
    return false
  action .prepareInterface .preparing config.home

/-- The plan entries `scan` accepts. -/
def scannable (entry : ScanChannel) : Bool :=
  entry.channel.validChannel && entry.channel.width == 0 && 10 ≤ entry.dwellMs &&
    entry.dwellMs ≤ 1000

/-- The time `scan` grants the whole plan. -/
def scanBudget (plan : List ScanChannel) : UInt64 :=
  plan.foldl (fun dwell entry => dwell + entry.dwellMs.toUInt64 * 1000) 0 +
    (plan.length.toUInt64 + 4) * actionTimeout

/-- `plan = none` is a null `channels` pointer. -/
def scan (plan : Option (List ScanChannel)) (now : UInt64) : Gated Bool := do
  if !(← time now) then
    return false
  let c ← get
  if c.state ≠ .idle ∧ c.state ≠ .authorized then
    return false
  match plan with
  | none => return false
  | some channels => do
      if channels.length = 0 ∨ channels.length > 64 then
        return false
      if channels.all scannable = false then
        return false
      if uint64Max - now < scanBudget channels then
        return ← fail .clock
      modify fun c =>
        { c with
          channels := fun i => channels.getD i (c.channels i), channelCount := channels.length,
          channelIndex := 0, scanResume := c.state, scanCancelled := false }
      let issued ← token
      modify fun c => { c with scanToken := issued }
      if (← get).state = .faulted then
        return false
      modify fun c => { c with scanDeadline := now + scanBudget channels }
      if !(← traffic .none) then
        return false
      action .scanBegin .scanningBegin {}

def cancelScan (original : Token) (now : UInt64) : Gated Bool := do
  if !(← time now) then
    return false
  let c ← get
  if !c.scanning || !original.same c.scanToken then
    return false
  if !(← expire) then
    return false
  modify fun c => { c with scanCancelled := true }
  if (← get).state = .scanningDwell then
    restoreScan
  else
    return true

def connect (peer : Peer) (now : UInt64) : Gated Bool := do
  if !(← time now) then
    return false
  let c ← get
  if c.state ≠ .idle ∨ peer.bssid.unicast = false ∨ peer.ssidLength > 32 ∨
      peer.channel.validChannel = false then
    return false
  set { c with peer := peer, association := {}, authenticated := false, error := .none }
  let issued ← token
  modify fun c => { c with associationToken := issued }
  if (← get).state = .faulted then
    return false
  if !(← traffic .none) then
    return false
  action .prepareAuthentication .preparingAuthentication peer.channel

def authenticated (original : Token) (bssid : Address) (success : Bool) (now : UInt64) :
    Gated Bool := do
  if !(← time now) then
    return false
  let c ← get
  if c.state ≠ .authenticating ∨ original.same c.associationToken = false ∨
      bssid.same c.peer.bssid = false then
    return false
  if !(← expire) then
    return false
  if !success then do
    modify fun c => { c with error := .authentication, disconnectRequested := true }
    beginDisconnect
  else do
    modify fun c => { c with authenticated := true }
    return true

def associationReceived (original : Token) (peer : Association) (now : UInt64) : Gated Bool := do
  if !(← time now) then
    return false
  let c ← get
  if c.state ≠ .authenticating ∨ c.authenticated = false ∨
      original.same c.associationToken = false ∨ peer.bssid.same c.peer.bssid = false ∨
      sameChannel peer.channel c.peer.channel = false ∨ peer.aid = 0 ∨ peer.aid > 2007 then
    return false
  if !(← expire) then
    return false
  modify fun c => { c with association := peer }
  action .associationCmac .installingAssociationCmac {}

def associationRejected (original : Token) (bssid : Address) (status : UInt16) (now : UInt64) :
    Gated Bool := do
  if !(← time now) then
    return false
  let c ← get
  if c.state ≠ .authenticating ∨ c.authenticated = false ∨
      original.same c.associationToken = false ∨ bssid.same c.peer.bssid = false ∨ status = 0 then
    return false
  if !(← expire) then
    return false
  modify fun c => { c with error := .association, disconnectRequested := true }
  beginDisconnect

def authorizePort (original : Token) (now : UInt64) : Gated Bool := do
  if !(← time now) then
    return false
  let c ← get
  if c.state ≠ .associated ∨ original.same c.associationToken = false then
    return false
  if !(← traffic .authorized) then
    return false
  modify fun c => { c with state := .authorized }
  return true

def revokePort (original : Token) (now : UInt64) : Gated Bool := do
  if !(← time now) then
    return false
  if original.same (← get).associationToken = false then
    return false
  if !(← expire) then
    return false
  let c ← get
  if c.scanning ∧ c.scanResume ≠ .idle then do
    set { c with scanResume := .associated }
    return true
  else if !c.linked then
    return false
  else do
    if !(← traffic .controlledPort) then
      return false
    modify fun c => { c with state := .associated }
    return true

def disconnect (now : UInt64) : Gated Bool := do
  if !(← time now) then
    return false
  if !(← expire) then
    return false
  let c ← get
  if c.state = .idle then
    return true
  if c.scanning then do
    if c.scanResume ≠ .idle then
      set { c with disconnectRequested := true }
    return ← cancelScan c.scanToken now
  if c.state.rank < State.preparingAuthentication.rank ∨
      State.disconnectingCam.rank < c.state.rank then
    return false
  set { c with disconnectRequested := true }
  if !(← traffic .none) then
    return false
  if (← get).waiting then
    return true
  else
    beginDisconnect

def stop (now : UInt64) : Gated Bool := do
  if !(← time now) then
    return false
  if (← get).state ≠ .idle then
    return false
  if !(← traffic .none) then
    return false
  command true true .removingRole

def tick (now : UInt64) : Gated Bool := do
  if !(← time now) then
    return false
  if !(← expire) then
    return false
  let c ← get
  if c.state = .scanningDwell ∧ c.deadline ≤ now then
    if c.scanCancelled then
      restoreScan
    else do
      -- `++channelIndex_==channelCount_`
      set { c with channelIndex := c.channelIndex + 1 }
      if c.channelIndex + 1 = c.channelCount then
        restoreScan
      else
        tuneScan
  else
    return true

def completeTune : Gated Bool := do
  if (← get).scanCancelled then
    return ← restoreScan
  modify fun c => { c with state := .scanningDwell }
  let dwell ← currentChannel
  if !(← arm (dwell.dwellMs.toUInt64 * 1000)) then
    return false
  let entry ← currentChannel
  if !(← traffic (if entry.active then .scanProbe else .none)) then
    return false
  let c ← get
  let probed ← currentChannel
  if probed.active then
    let argument ← currentChannel
    let peer := if c.scanResume = .idle then none else some c.peer
    if ← Backend.sendProbe c.scanToken peer argument then
      return true
    else
      fail .backend
  else
    return true

def actionComplete (original : Token) (kind : Action) (success : Bool) (now : UInt64) :
    Gated Bool := do
  if !(← time now) then
    return false
  let c ← get
  if !c.waitingAction || !original.same c.pendingToken || kind != c.pendingAction then
    return false
  if !(← expire) then
    return false
  modify fun c => { c with waitingAction := false }
  if !success then
    return ← fail .backend
  match kind with
  | .prepareInterface => command true false .creatingRole
  | .idleTables => do
      modify fun c => { c with state := .idle }
      traffic .management
  | .scanBegin => do
      if (← get).scanCancelled then restoreScan else tuneScan
  | .scanTune => completeTune
  | .scanRestore => action .scanEnd .scanningEnd {}
  | .scanEnd => completeScan
  | .prepareAuthentication => do
      modify fun c => { c with interface := { c.interface with home := c.peer.channel } }
      if (← get).disconnectRequested then
        return ← beginDisconnect
      modify fun c => { c with state := .authenticating }
      if !(← arm authenticationTimeout) then
        return false
      if !(← traffic .management) then
        return false
      let c ← get
      if ← Backend.beginAuthentication c.associationToken c.peer then
        return true
      else
        fail .backend
  | .associationCmac => do
      if (← get).disconnectRequested then beginDisconnect else command false false .joining
  | .associationCam => do
      if (← get).disconnectRequested then
        return ← beginDisconnect
      modify fun c => { c with state := .associated }
      traffic .controlledPort
  | .disconnectCmac => command false true .disconnecting
  | .disconnectCam => do
      modify fun c =>
        { c with
          state := .idle, associationToken := {}, association := {}, peer := {},
          authenticated := false, disconnectRequested := false }
      traffic .management
  | .removeCam => do
      modify fun c => { c with roleCreated := false, state := .stopped }
      return true

def firmwareEvent (event : FirmwareEvent) (receiveEpoch now : UInt64) : Gated Bool := do
  if !(← time now) then
    return false
  let c ← get
  if c.waitingCommand = false ∨ receiveEpoch ≠ c.epoch.epoch then
    return false
  if !(← expire) then
    return false
  let c ← get
  match decodeAck event with
  | none => return false
  | some ack => do
      if ack.done = false ∨ ack.sequence ≠ c.pendingSequence ∨
          sameCommand ack.command c.pendingCommand = false then
        return false
      set { c with waitingCommand := false }
      if ack.returnCode ≠ 0 then
        return ← fail .firmwareRejected
      match c.state with
      | .creatingRole => do
          modify fun c => { c with roleCreated := true }
          command false true .initialNoLink
      | .initialNoLink => action .idleTables .installingIdle {}
      | .joining =>
          if c.disconnectRequested then beginDisconnect
          else action .associationCam .installingAssociationCam {}
      | .disconnecting => action .disconnectCam .disconnectingCam {}
      | .removingRole => action .removeCam .removingCam {}
      | _ => fail .backend

/-! ## One call -/

/-- A call of a public operation, with its arguments. -/
inductive Op
  | restart (newEpoch now : UInt64)
  | start (config : Interface) (now : UInt64)
  | scan (plan : Option (List ScanChannel)) (now : UInt64)
  | cancelScan (original : Token) (now : UInt64)
  | connect (peer : Peer) (now : UInt64)
  | authenticated (original : Token) (bssid : Address) (success : Bool) (now : UInt64)
  | associationReceived (original : Token) (peer : Association) (now : UInt64)
  | associationRejected (original : Token) (bssid : Address) (status : UInt16) (now : UInt64)
  | authorizePort (original : Token) (now : UInt64)
  | revokePort (original : Token) (now : UInt64)
  | disconnect (now : UInt64)
  | stop (now : UInt64)
  | tick (now : UInt64)
  | actionComplete (original : Token) (kind : Action) (success : Bool) (now : UInt64)
  | firmwareEvent (event : FirmwareEvent) (receiveEpoch now : UInt64)

def exec : Op → Gated Bool
  | .restart newEpoch now => restart newEpoch now
  | .start config now => start config now
  | .scan plan now => scan plan now
  | .cancelScan original now => cancelScan original now
  | .connect peer now => connect peer now
  | .authenticated original bssid success now => authenticated original bssid success now
  | .associationReceived original peer now => associationReceived original peer now
  | .associationRejected original bssid status now => associationRejected original bssid status now
  | .authorizePort original now => authorizePort original now
  | .revokePort original now => revokePort original now
  | .disconnect now => disconnect now
  | .stop now => stop now
  | .tick now => tick now
  | .actionComplete original kind success now => actionComplete original kind success now
  | .firmwareEvent event receiveEpoch now => firmwareEvent event receiveEpoch now

end Station
end Rtl8852be
