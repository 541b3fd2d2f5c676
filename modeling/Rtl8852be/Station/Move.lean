import Rtl8852be.Station.Controller

/-!
# Move — everything one call of the controller can do

`Controller.lean` follows the source statement by statement.  This file is the other half of the
picture: the transition relation `Move` lists, guard by guard, every way a call can end without
latching a fault, together with the trace it leaves at the backend and the fields it leaves behind.
Whatever fails on the way ends in `Fault`, with its reason.

`Exec.lean` proves that the code refines this relation; every invariant is then a case analysis of
`Move` and never unfolds the code again.
-/

namespace Rtl8852be
namespace Station

open Interaction Network

/-! ## Field updates shared by the transitions -/

namespace Controller

variable (c : Controller)

/-- After `time(now)` accepted the call. -/
@[simps] def clocked (now : UInt64) : Controller := { c with lastNow := now, clockStarted := true }

/-- The token the next `token()` hands out. -/
def nextToken : Token := ⟨c.epoch.epoch, c.serial + 1⟩

/-- After `action` was accepted by the backend. -/
@[simps] def acting (kind : Action) (state : State) : Controller :=
  { c with
    serial := c.serial + 1, pendingToken := c.nextToken, pendingAction := kind,
    waitingAction := true, state := state, deadline := c.lastNow + actionTimeout }

/-- After `command` was published. -/
@[simps] def commanding (role removeOrDisconnect : Bool) (sequence : UInt8) (state : State) : Controller :=
  { c with
    pendingCommand := (commandPacket c.interface role removeOrDisconnect sequence).2,
    serial := c.serial + 1, pendingToken := c.nextToken, pendingSequence := sequence,
    waitingCommand := true, state := state, deadline := c.lastNow + commandTimeout }

/-- After `beginDisconnect` went through. -/
abbrev parting : Controller := c.acting .disconnectCmac .disconnectingCmac

/-- After `tuneScan` went through. -/
abbrev tuning : Controller := c.acting .scanTune .scanningTune

/-- After `restoreScan` went through. -/
abbrev restoring : Controller := c.acting .scanRestore .scanningRestore

def homeChannel : Channel := if c.scanResume = .idle then c.interface.home else c.peer.channel

/-- The entry of the plan the scan is at. -/
def entry : ScanChannel := c.channels c.channelIndex

/-- The fields a disconnect sets before it starts. -/
@[simps] def leaving (error : Error) : Controller := { c with error := error, disconnectRequested := true }

/-- The request `action` hands to the backend. -/
def request (kind : Action) (target : Channel) : ActionRequest :=
  { action := kind, token := c.nextToken, association := c.associationToken,
    interface := c.interface, peer := c.peer, channel := target, aid := c.association.aid,
    activeScan := kind == .scanTune && c.entry.active }

/-- The fields `scan` sets before it starts the first action. -/
@[simps] def planned (plan : List ScanChannel) (now : UInt64) : Controller :=
  { c with
    channels := fun i => plan.getD i (c.channels i), channelCount := plan.length, channelIndex := 0,
    scanResume := c.state, scanCancelled := false, serial := c.serial + 1,
    scanToken := c.nextToken, scanDeadline := now + scanBudget plan }

/-- The fields `connect` sets before it starts the first action. -/
@[simps] def chosen (peer : Peer) : Controller :=
  { c with
    peer := peer, association := {}, authenticated := false, error := .none,
    serial := c.serial + 1, associationToken := c.nextToken }

/-- The fields `disconnect` sets while a scan is running. -/
@[simps] def leavingScan : Controller :=
  { c with
    disconnectRequested := c.disconnectRequested || c.scanResume != .idle, scanCancelled := true }

/-- After an accepted `restart`. -/
def restarted (newEpoch now : UInt64) : Controller :=
  { c with
    state := .stopped, error := .none, epoch := ⟨newEpoch, 0⟩, serial := 0,
    associationToken := {}, scanToken := {}, pendingToken := {},
    waitingAction := false, waitingCommand := false, roleCreated := false,
    authenticated := false, scanCancelled := false, disconnectRequested := false,
    channelCount := 0, channelIndex := 0,
    interface := {}, peer := {}, association := {},
    lastNow := now, clockStarted := true }

/-- A pending action or command, or the scan it belongs to, is past its deadline. -/
def overdue (now : UInt64) : Prop :=
  (c.scanning = true ∧ c.scanDeadline ≤ now) ∨ (c.waiting = true ∧ c.deadline ≤ now)

/-- The authentication deadline has passed and nothing has acted on it yet. -/
def timedOut (now : UInt64) : Prop :=
  c.waiting = false ∧ c.state = .authenticating ∧ c.deadline ≤ now

@[simp] theorem clocked_scanning (now : UInt64) : (c.clocked now).scanning = c.scanning := rfl

@[simp] theorem clocked_waiting (now : UInt64) : (c.clocked now).waiting = c.waiting := rfl

@[simp] theorem clocked_linked (now : UInt64) : (c.clocked now).linked = c.linked := rfl

@[simp] theorem acting_waiting (kind : Action) (state : State) :
    (c.acting kind state).waiting = true := rfl

end Controller

/-! ## Traces of the helpers -/

def gate : Trace := [.call .inGate true]

def paused : TraceEvent := .call (.setTraffic .none) true

def readChannel (c : Controller) : TraceEvent :=
  .note (.channelRead c.channelIndex c.channelCount)

def actionTrace (c : Controller) (kind : Action) (target : Channel) : Trace :=
  .note (.issued c.nextToken) ::
    ((if kind = .scanTune then [readChannel c] else []) ++
      [.call (.beginAction (c.request kind target)) true])

def commandTrace (c : Controller) (sequence : UInt8) (bytes : List UInt8) : Trace :=
  [.call .reserveH2cSequence (some sequence), .note (.issued c.nextToken),
    .call (.publishH2c bytes c.nextToken) true]

def disconnectTrace (c : Controller) : Trace :=
  paused :: .call (.cancelProtocol c.associationToken) true :: actionTrace c .disconnectCmac {}

def tuneTrace (c : Controller) : Trace :=
  paused :: readChannel c :: actionTrace c .scanTune c.entry.channel

def restoreTrace (c : Controller) : Trace :=
  paused :: actionTrace c .scanRestore c.homeChannel

/-- What `completeTune` leaves: four reads of the entry at most, and one probe if it is active. -/
def dwellTrace (c : Controller) : Trace :=
  if c.entry.active then
    [readChannel c, readChannel c, .call (.setTraffic .scanProbe) true, readChannel c,
      readChannel c,
      .call (.sendProbe c.scanToken (if c.scanResume = .idle then none else some c.peer) c.entry)
        true]
  else
    [readChannel c, readChannel c, paused, readChannel c]

/-! ## Completions and acknowledgements -/

/-- `Completion c kind log c'`: the pending action `kind` of `c` has completed, `c` no longer waits
for it, and the controller goes on to `c'`. -/
inductive Completion (c : Controller) : Action → Trace → Controller → Prop
  | interfacePrepared {sequence : UInt8} {bytes : List UInt8}
      (hb : (commandPacket c.interface true false sequence).1 = some bytes) :
      Completion c .prepareInterface (commandTrace c sequence bytes)
        (c.commanding true false sequence .creatingRole)
  | idleInstalled :
      Completion c .idleTables [.call (.setTraffic .management) true] { c with state := .idle }
  | scanBegun (hc : c.scanCancelled = false) :
      Completion c .scanBegin (tuneTrace c) c.tuning
  | scanBegunCancelled (hc : c.scanCancelled = true) :
      Completion c .scanBegin (restoreTrace c) c.restoring
  | tuned (hc : c.scanCancelled = false) :
      Completion c .scanTune (dwellTrace c)
        { c with
          state := .scanningDwell, deadline := c.lastNow + c.entry.dwellMs.toUInt64 * 1000 }
  | tunedCancelled (hc : c.scanCancelled = true) :
      Completion c .scanTune (restoreTrace c) c.restoring
  | scanRestored :
      Completion c .scanRestore (actionTrace c .scanEnd {}) (c.acting .scanEnd .scanningEnd)
  | scanEnded (hd : c.disconnectRequested = false) :
      Completion c .scanEnd
        [.call (.setTraffic (resumeMode c.scanResume)) true,
          .call (.scanFinished c.scanToken c.scanCancelled) ()]
        { c with state := c.scanResume, scanToken := {} }
  | scanEndedLeaving (hd : c.disconnectRequested = true) :
      Completion c .scanEnd
        (paused :: .call (.scanFinished c.scanToken c.scanCancelled) () :: disconnectTrace c)
        ({ c with state := c.scanResume, scanToken := {} } : Controller).parting
  | authenticationPrepared (hd : c.disconnectRequested = false) :
      Completion c .prepareAuthentication
        [.call (.setTraffic .management) true,
          .call (.beginAuthentication c.associationToken c.peer) true]
        { c with
          interface := { c.interface with home := c.peer.channel }, state := .authenticating,
          deadline := c.lastNow + authenticationTimeout }
  | authenticationPreparedLeaving (hd : c.disconnectRequested = true) :
      Completion c .prepareAuthentication
        (disconnectTrace { c with interface := { c.interface with home := c.peer.channel } })
        ({ c with interface := { c.interface with home := c.peer.channel } } : Controller).parting
  | cmacInstalled {sequence : UInt8} {bytes : List UInt8} (hd : c.disconnectRequested = false)
      (hb : (commandPacket c.interface false false sequence).1 = some bytes) :
      Completion c .associationCmac (commandTrace c sequence bytes)
        (c.commanding false false sequence .joining)
  | cmacInstalledLeaving (hd : c.disconnectRequested = true) :
      Completion c .associationCmac (disconnectTrace c) c.parting
  | camInstalled (hd : c.disconnectRequested = false) :
      Completion c .associationCam [.call (.setTraffic .controlledPort) true]
        { c with state := .associated }
  | camInstalledLeaving (hd : c.disconnectRequested = true) :
      Completion c .associationCam (disconnectTrace c) c.parting
  | partedCmac {sequence : UInt8} {bytes : List UInt8}
      (hb : (commandPacket c.interface false true sequence).1 = some bytes) :
      Completion c .disconnectCmac (commandTrace c sequence bytes)
        (c.commanding false true sequence .disconnecting)
  | partedCam :
      Completion c .disconnectCam [.call (.setTraffic .management) true]
        { c with
          state := .idle, associationToken := {}, association := {}, peer := {},
          authenticated := false, disconnectRequested := false }
  | camRemoved :
      Completion c .removeCam [] { c with roleCreated := false, state := .stopped }

/-- `Acknowledged c log c'`: the pending command of `c` got its DONE acknowledgement with return
code 0, `c` no longer waits for it, and the controller goes on to `c'`. -/
inductive Acknowledged (c : Controller) : Trace → Controller → Prop
  | roleCreated {sequence : UInt8} {bytes : List UInt8} (hs : c.state = .creatingRole)
      (hb : (commandPacket c.interface false true sequence).1 = some bytes) :
      Acknowledged c (commandTrace c sequence bytes)
        (({ c with roleCreated := true } : Controller).commanding false true sequence
          .initialNoLink)
  | noLink (hs : c.state = .initialNoLink) :
      Acknowledged c (actionTrace c .idleTables {}) (c.acting .idleTables .installingIdle)
  | joined (hs : c.state = .joining) (hd : c.disconnectRequested = false) :
      Acknowledged c (actionTrace c .associationCam {})
        (c.acting .associationCam .installingAssociationCam)
  | joinedLeaving (hs : c.state = .joining) (hd : c.disconnectRequested = true) :
      Acknowledged c (disconnectTrace c) c.parting
  | left (hs : c.state = .disconnecting) :
      Acknowledged c (actionTrace c .disconnectCam {}) (c.acting .disconnectCam .disconnectingCam)
  | roleRemoved (hs : c.state = .removingRole) :
      Acknowledged c (actionTrace c .removeCam {}) (c.acting .removeCam .removingCam)

/-! ## Calls -/

namespace Op

def now : Op → UInt64
  | .restart _ now => now
  | .start _ now => now
  | .scan _ now => now
  | .cancelScan _ now => now
  | .connect _ now => now
  | .authenticated _ _ _ now => now
  | .associationReceived _ _ now => now
  | .associationRejected _ _ _ now => now
  | .authorizePort _ now => now
  | .revokePort _ now => now
  | .disconnect now => now
  | .stop now => now
  | .tick now => now
  | .actionComplete _ _ _ now => now
  | .firmwareEvent _ _ now => now

end Op

/-- The ways a call can end without latching a fault. -/
inductive Move (c : Controller) : Op → Trace → Bool → Controller → Prop
  /- Nothing happened: the gate was closed, the controller is faulted, or a guard refused. -/
  | closed {op : Op} {open_ : Bool} : Move c op [.call .inGate open_] false c
  | refused {op : Op} (hc : c.state ≠ .faulted) : Move c op gate false (c.clocked op.now)
  | restartUnverified {newEpoch now : UInt64} :
      Move c (.restart newEpoch now) (gate ++ [.call (.firmwareRestartVerified newEpoch) false])
        false c
  | restartUnpaused {newEpoch now : UInt64} :
      Move c (.restart newEpoch now)
        (gate ++ [.call (.firmwareRestartVerified newEpoch) true, .call (.setTraffic .none) false])
        false c
  /- Lifecycle. -/
  | restart {newEpoch now : UInt64} (he : newEpoch ≠ 0) (hlt : c.epoch.epoch < newEpoch) :
      Move c (.restart newEpoch now)
        (gate ++ [.call (.firmwareRestartVerified newEpoch) true, paused]) true
        (c.restarted newEpoch now)
  | start {config : Interface} {now : UInt64} (hs : c.state = .stopped) (hw : c.waiting = false)
      (he : c.epoch.epoch ≠ 0) (ha : acceptable config = true) :
      Move c (.start config now)
        (gate ++ paused :: actionTrace
          { c.clocked now with interface := config, error := .none } .prepareInterface config.home)
        true
        (({ c.clocked now with interface := config, error := .none } : Controller).acting
          .prepareInterface .preparing)
  | stop {now : UInt64} {sequence : UInt8} {bytes : List UInt8} (hs : c.state = .idle)
      (hw : c.waiting = false)
      (hb : (commandPacket c.interface true true sequence).1 = some bytes) :
      Move c (.stop now) (gate ++ paused :: commandTrace (c.clocked now) sequence bytes) true
        ((c.clocked now).commanding true true sequence .removingRole)
  /- Scanning. -/
  | scan {plan : List ScanChannel} {now : UInt64} (hs : c.state = .idle ∨ c.state = .authorized)
      (hw : c.waiting = false) (hlen : 0 < plan.length) (hmax : plan.length ≤ 64)
      (hall : plan.all scannable = true) :
      Move c (.scan (some plan) now)
        (gate ++ .note (.issued c.nextToken) :: paused ::
          actionTrace ((c.clocked now).planned plan now) .scanBegin {})
        true (((c.clocked now).planned plan now).acting .scanBegin .scanningBegin)
  | cancelScan {original : Token} {now : UInt64} (hs : c.scanning = true)
      (ht : original = c.scanToken) (hd : c.state ≠ .scanningDwell) :
      Move c (.cancelScan original now) gate true { c.clocked now with scanCancelled := true }
  | cancelDwell {original : Token} {now : UInt64} (ht : original = c.scanToken)
      (hd : c.state = .scanningDwell) (hw : c.waiting = false) :
      Move c (.cancelScan original now)
        (gate ++ restoreTrace { c.clocked now with scanCancelled := true }) true
        ({ c.clocked now with scanCancelled := true } : Controller).restoring
  | nextChannel {now : UInt64} (hd : c.state = .scanningDwell) (hw : c.waiting = false)
      (ht : c.deadline ≤ now) (hc : c.scanCancelled = false)
      (hn : c.channelIndex + 1 ≠ c.channelCount) :
      Move c (.tick now)
        (gate ++ tuneTrace { c.clocked now with channelIndex := c.channelIndex + 1 }) true
        ({ c.clocked now with channelIndex := c.channelIndex + 1 } : Controller).tuning
  | lastChannel {now : UInt64} (hd : c.state = .scanningDwell) (hw : c.waiting = false)
      (ht : c.deadline ≤ now) (hc : c.scanCancelled = false)
      (hn : c.channelIndex + 1 = c.channelCount) :
      Move c (.tick now)
        (gate ++ restoreTrace { c.clocked now with channelIndex := c.channelIndex + 1 }) true
        ({ c.clocked now with channelIndex := c.channelIndex + 1 } : Controller).restoring
  | dwellCancelled {now : UInt64} (hd : c.state = .scanningDwell) (hw : c.waiting = false)
      (ht : c.deadline ≤ now) (hc : c.scanCancelled = true) :
      Move c (.tick now) (gate ++ restoreTrace (c.clocked now)) true (c.clocked now).restoring
  /- Association. -/
  | connect {peer : Peer} {now : UInt64} (hs : c.state = .idle) (hw : c.waiting = false)
      (hb : peer.bssid.unicast = true) (hl : peer.ssidLength ≤ 32)
      (hv : peer.channel.validChannel = true) :
      Move c (.connect peer now)
        (gate ++ .note (.issued c.nextToken) :: paused ::
          actionTrace ((c.clocked now).chosen peer) .prepareAuthentication peer.channel)
        true (((c.clocked now).chosen peer).acting .prepareAuthentication .preparingAuthentication)
  | authenticated {original : Token} {bssid : Address} {now : UInt64}
      (hs : c.state = .authenticating) (ht : original = c.associationToken)
      (hb : bssid = c.peer.bssid) (hn : ¬ c.timedOut now) :
      Move c (.authenticated original bssid true now) gate true
        { c.clocked now with authenticated := true }
  | authenticatedLate {original : Token} {bssid : Address} {now : UInt64}
      (ht : original = c.associationToken) (hb : bssid = c.peer.bssid) (hn : c.timedOut now) :
      Move c (.authenticated original bssid true now)
        (gate ++ disconnectTrace ((c.clocked now).leaving .timeout)) true
        { ((c.clocked now).leaving .timeout).parting with authenticated := true }
  | authenticationFailed {original : Token} {bssid : Address} {now : UInt64}
      (hs : c.state = .authenticating) (hw : c.waiting = false) (ht : original = c.associationToken)
      (hb : bssid = c.peer.bssid) (hn : ¬ c.timedOut now) :
      Move c (.authenticated original bssid false now)
        (gate ++ disconnectTrace ((c.clocked now).leaving .authentication)) true
        ((c.clocked now).leaving .authentication).parting
  | associationReceived {original : Token} {peer : Association} {now : UInt64}
      (hs : c.state = .authenticating) (hw : c.waiting = false) (ha : c.authenticated = true)
      (ht : original = c.associationToken) (hb : peer.bssid = c.peer.bssid)
      (hch : peer.channel = c.peer.channel) (h0 : peer.aid ≠ 0) (h1 : peer.aid ≤ 2007)
      (hn : ¬ c.timedOut now) :
      Move c (.associationReceived original peer now)
        (gate ++ actionTrace { c.clocked now with association := peer } .associationCmac {}) true
        (({ c.clocked now with association := peer } : Controller).acting .associationCmac
          .installingAssociationCmac)
  | associationRejected {original : Token} {bssid : Address} {status : UInt16} {now : UInt64}
      (hs : c.state = .authenticating) (hw : c.waiting = false) (ha : c.authenticated = true)
      (ht : original = c.associationToken) (hb : bssid = c.peer.bssid) (h0 : status ≠ 0)
      (hn : ¬ c.timedOut now) :
      Move c (.associationRejected original bssid status now)
        (gate ++ disconnectTrace ((c.clocked now).leaving .association)) true
        ((c.clocked now).leaving .association).parting
  /- The controlled port. -/
  | authorizePort {original : Token} {now : UInt64} (hs : c.state = .associated)
      (ht : original = c.associationToken) :
      Move c (.authorizePort original now) (gate ++ [.call (.setTraffic .authorized) true]) true
        { c.clocked now with state := .authorized }
  | revokeScan {original : Token} {now : UInt64} (ht : original = c.associationToken)
      (hs : c.scanning = true) (hr : c.scanResume ≠ .idle) :
      Move c (.revokePort original now) gate true { c.clocked now with scanResume := .associated }
  | revokePort {original : Token} {now : UInt64} (ht : original = c.associationToken)
      (hs : c.linked = true) :
      Move c (.revokePort original now) (gate ++ [.call (.setTraffic .controlledPort) true]) true
        { c.clocked now with state := .associated }
  | revokeTimedOut {original : Token} {now : UInt64} (ht : original = c.associationToken)
      (hn : c.timedOut now) :
      Move c (.revokePort original now)
        (gate ++ disconnectTrace ((c.clocked now).leaving .timeout)) false
        ((c.clocked now).leaving .timeout).parting
  /- Disconnecting. -/
  | disconnectIdle {now : UInt64} (hs : c.state = .idle) :
      Move c (.disconnect now) gate true (c.clocked now)
  | disconnectScan {now : UInt64} (hs : c.scanning = true) (hd : c.state ≠ .scanningDwell) :
      Move c (.disconnect now) (gate ++ gate) true (c.clocked now).leavingScan
  | disconnectDwell {now : UInt64} (hd : c.state = .scanningDwell) (hw : c.waiting = false) :
      Move c (.disconnect now) (gate ++ (gate ++ restoreTrace (c.clocked now).leavingScan)) true
        (c.clocked now).leavingScan.restoring
  | disconnectScanClosed {now : UInt64} (hs : c.scanning = true) :
      Move c (.disconnect now) (gate ++ [.call .inGate false]) false
        { c.clocked now with
          disconnectRequested := c.disconnectRequested || c.scanResume != .idle }
  | disconnectDeferred {now : UInt64} (hw : c.waiting = true)
      (hlo : State.preparingAuthentication.rank ≤ c.state.rank)
      (hhi : c.state.rank ≤ State.disconnectingCam.rank) :
      Move c (.disconnect now) (gate ++ [paused]) true
        { c.clocked now with disconnectRequested := true }
  | disconnectNow {now : UInt64} (hw : c.waiting = false)
      (hlo : State.preparingAuthentication.rank ≤ c.state.rank)
      (hhi : c.state.rank ≤ State.disconnectingCam.rank) (hn : ¬ c.timedOut now) :
      Move c (.disconnect now)
        (gate ++ paused :: disconnectTrace { c.clocked now with disconnectRequested := true }) true
        ({ c.clocked now with disconnectRequested := true } : Controller).parting
  | disconnectTimedOut {now : UInt64} (hn : c.timedOut now) :
      Move c (.disconnect now)
        (gate ++ (disconnectTrace ((c.clocked now).leaving .timeout) ++ [paused])) true
        ((c.clocked now).leaving .timeout).parting
  /- Time. -/
  | tick {now : UInt64} (hc : c.state ≠ .faulted) :
      Move c (.tick now) gate true (c.clocked now)
  | tickTimedOut {now : UInt64} (hn : c.timedOut now) :
      Move c (.tick now) (gate ++ disconnectTrace ((c.clocked now).leaving .timeout)) true
        ((c.clocked now).leaving .timeout).parting
  /- Completions. -/
  | actionComplete {original : Token} {kind : Action} {now : UInt64} {log : Trace}
      {c' : Controller} (hw : c.waitingAction = true) (ht : original = c.pendingToken)
      (hk : kind = c.pendingAction) (hd : ¬ c.overdue now)
      (h : Completion { c.clocked now with waitingAction := false } kind log c') :
      Move c (.actionComplete original kind true now) (gate ++ log) true c'
  | firmwareEvent {event : FirmwareEvent} {receiveEpoch now : UInt64} {ack : FirmwareAck}
      {log : Trace} {c' : Controller} (hw : c.waitingCommand = true)
      (he : receiveEpoch = c.epoch.epoch) (hack : decodeAck event = some ack)
      (hdone : ack.done = true) (hseq : ack.sequence = c.pendingSequence)
      (hcmd : ack.command = c.pendingCommand) (hrc : ack.returnCode = 0)
      (hd : ¬ c.overdue now)
      (h : Acknowledged { c.clocked now with waitingCommand := false } log c') :
      Move c (.firmwareEvent event receiveEpoch now) (gate ++ log) true c'

/-! ## The shape every reachable controller has -/

/-- The state in which an action is pending. -/
def Action.state : Action → State
  | .prepareInterface => .preparing
  | .idleTables => .installingIdle
  | .scanBegin => .scanningBegin
  | .scanTune => .scanningTune
  | .scanRestore => .scanningRestore
  | .scanEnd => .scanningEnd
  | .prepareAuthentication => .preparingAuthentication
  | .associationCmac => .installingAssociationCmac
  | .associationCam => .installingAssociationCam
  | .disconnectCmac => .disconnectingCmac
  | .disconnectCam => .disconnectingCam
  | .removeCam => .removingCam

/-- The command that is pending in a state, if there is one. -/
def State.command : State → Option CommandId
  | .creatingRole => some ⟨1, 8, 4⟩
  | .initialNoLink => some ⟨1, 8, 0⟩
  | .joining => some ⟨1, 8, 0⟩
  | .disconnecting => some ⟨1, 8, 0⟩
  | .removingRole => some ⟨1, 8, 4⟩
  | _ => none

/-- The states in which nothing is pending. -/
def State.settled : State → Bool
  | .stopped | .idle | .scanningDwell | .authenticating | .associated | .authorized | .faulted => true
  | _ => false

/-- Join commands of this interface can be encoded. -/
def Interface.encodable (i : Interface) : Prop := i.macIndex ≤ 1 ∧ i.wmm ≤ 3 ∧ i.port ≤ 7

/-- What holds of the controller between calls: what it waits for is what its state says, and the
scan it is in, if any, is inside its plan. -/
structure Sound (c : Controller) : Prop where
  action : c.waitingAction = true → c.waitingCommand = false ∧ c.state = c.pendingAction.state
  command : c.waitingCommand = true → c.state.command = some c.pendingCommand
  settled : c.waiting = false → c.state.settled = true
  resume : c.scanning = true →
    c.scanResume = .idle ∨ c.scanResume = .associated ∨ c.scanResume = .authorized
  inPlan : c.scanning = true → c.state ≠ .scanningRestore → c.state ≠ .scanningEnd →
    c.channelIndex < c.channelCount
  dwell : c.scanning = true → ∀ i < c.channelCount, (c.channels i).dwellMs ≤ 1000
  encodable : c.state ≠ .faulted → c.interface.encodable

/-! ## Faults -/

def declined : TraceEvent → Bool
  | .call .inGate ok => !ok
  | .call (.setTraffic _) ok => !ok
  | .call .reserveH2cSequence r => r.isNone
  | .call (.publishH2c _ _) ok => !ok
  | .call (.beginAction _) ok => !ok
  | .call (.beginAuthentication _ _) ok => !ok
  | .call (.sendProbe _ _ _) ok => !ok
  | .call (.cancelProtocol _) ok => !ok
  | .call (.firmwareRestartVerified _) ok => !ok
  | _ => false

def Declined (log : Trace) : Prop := ∃ e ∈ log, declined e = true

/-- The reasons for a fault that are known when a call arrives. -/
inductive Improper (c : Controller) : Op → Prop
  | backwards {op : Op} (hs : c.clockStarted = true) (h : op.now < c.lastNow) : Improper c op
  | horizon {op : Op} (h : uint64Max - op.now < actionTimeout) : Improper c op
  | budget {plan : List ScanChannel} {now : UInt64} (h : uint64Max - now < scanBudget plan) :
      Improper c (.scan (some plan) now)
  | overdue {op : Op} (h : c.overdue op.now) : Improper c op
  | failed {original : Token} {kind : Action} {now : UInt64} (hw : c.waitingAction = true)
      (ht : original = c.pendingToken) (hk : kind = c.pendingAction) :
      Improper c (.actionComplete original kind false now)
  | rejected {event : FirmwareEvent} {receiveEpoch now : UInt64} {ack : FirmwareAck}
      (hw : c.waitingCommand = true) (he : receiveEpoch = c.epoch.epoch)
      (hack : decodeAck event = some ack) (hdone : ack.done = true)
      (hseq : ack.sequence = c.pendingSequence) (hcmd : ack.command = c.pendingCommand)
      (hrc : ack.returnCode ≠ 0) :
      Improper c (.firmwareEvent event receiveEpoch now)
  /- `expire` has just begun the disconnect these three are about to begin again. -/
  | lateFailure {original : Token} {bssid : Address} {now : UInt64}
      (ht : original = c.associationToken) (hb : bssid = c.peer.bssid) (hn : c.timedOut now) :
      Improper c (.authenticated original bssid false now)
  | lateAssociation {original : Token} {peer : Association} {now : UInt64}
      (ha : c.authenticated = true) (ht : original = c.associationToken)
      (hb : peer.bssid = c.peer.bssid) (hch : peer.channel = c.peer.channel) (h0 : peer.aid ≠ 0)
      (h1 : peer.aid ≤ 2007) (hn : c.timedOut now) :
      Improper c (.associationReceived original peer now)
  | lateRejection {original : Token} {bssid : Address} {status : UInt16} {now : UInt64}
      (ha : c.authenticated = true) (ht : original = c.associationToken)
      (hb : bssid = c.peer.bssid) (h0 : status ≠ 0) (hn : c.timedOut now) :
      Improper c (.associationRejected original bssid status now)

/-- A latched fault: nothing is waited for any more, and there is a reason, `W` or one that came up
during the call. -/
structure Fault (W : Prop) (log : Trace) (c' : Controller) : Prop where
  state : c'.state = .faulted
  waitingAction : c'.waitingAction = false
  waitingCommand : c'.waitingCommand = false
  cause : W ∨ Declined log ∨ c'.serial = uint64Max

end Station
end Rtl8852be
