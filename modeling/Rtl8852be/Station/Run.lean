import Rtl8852be.Interaction.History
import Rtl8852be.Station.Exec

/-!
# Run — the controller over whole runs

A run is any sequence of calls from the constructed controller, with any arguments, any times and
any replies of the backend.  The first thing to know about the states it reaches is that they are
`Sound`; with that, `exec_spec` turns every call of a run into a fault or a `Move`, and
`Run.induction` is the induction rule all later files use.
-/

namespace Rtl8852be
namespace Station

open Interaction Network

abbrev Record := Interaction.Record Controller Call Reply Note Op Bool

/-- The runs of a controller since its construction, newest call first. -/
abbrev Run : List Record → Controller → Prop := Interaction.Run exec {}

variable {c c' d : Controller} {op : Op} {log : Trace} {ok : Bool} {h : List Record}

/-! ## Every move keeps the shape -/

theorem encodable_default : ({} : Interface).encodable := ⟨by decide, by decide, by decide⟩

theorem sound_initial : Sound ({} : Controller) where
  action := nofun
  command := nofun
  settled := fun _ => rfl
  resume := nofun
  inPlan := nofun
  dwell := nofun
  encodable := fun _ => encodable_default

theorem Fault.sound {W : Prop} (hf : Fault W log c) : Sound c := by
  have hscan : c.scanning = false := by simp [Controller.scanning, hf.state, State.rank]
  refine ⟨?_, ?_, ?_, ?_, ?_, ?_, ?_⟩
  · simp [hf.waitingAction]
  · simp [hf.waitingCommand]
  · simp [hf.state, State.settled]
  · simp [hscan]
  · simp [hscan]
  · simp [hscan]
  · simp [hf.state]

theorem sound_acting (kind : Action) (hm : d.waitingCommand = false) (he : d.interface.encodable)
    (hresume : (d.acting kind kind.state).scanning = true →
      d.scanResume = .idle ∨ d.scanResume = .associated ∨ d.scanResume = .authorized)
    (hin : (d.acting kind kind.state).scanning = true → kind.state ≠ .scanningRestore →
      kind.state ≠ .scanningEnd → d.channelIndex < d.channelCount)
    (hdwell : (d.acting kind kind.state).scanning = true →
      ∀ i < d.channelCount, (d.channels i).dwellMs ≤ 1000) :
    Sound (d.acting kind kind.state) where
  action := fun _ => ⟨hm, rfl⟩
  command := fun h => by simp [hm] at h
  settled := nofun
  resume := hresume
  inPlan := hin
  dwell := hdwell
  encodable := fun _ => he

theorem State.command_not_scanning {state : State} {id : CommandId} (h : state.command = some id) :
    ¬ (State.scanningBegin.rank ≤ state.rank && state.rank ≤ State.scanningEnd.rank) = true := by
  cases state <;> simp [State.command, State.rank] at h ⊢

theorem sound_commanding (role removeOrDisconnect : Bool) (sequence : UInt8) (state : State)
    (ha : d.waitingAction = false) (he : d.interface.encodable)
    (hs : state.command =
      some (commandPacket d.interface role removeOrDisconnect sequence).2) :
    Sound (d.commanding role removeOrDisconnect sequence state) where
  action := fun h => by simp [ha] at h
  command := fun _ => hs
  settled := fun h => by simp [Controller.waiting] at h
  resume := fun h => absurd h (State.command_not_scanning hs)
  inPlan := fun h => absurd h (State.command_not_scanning hs)
  dwell := fun h => absurd h (State.command_not_scanning hs)
  encodable := fun _ => he

theorem sound_settled (hw : d.waiting = false) (hs : d.state.settled = true)
    (hd : d.state ≠ .scanningDwell) (he : d.interface.encodable) : Sound d := by
  obtain ⟨ha, hm⟩ : d.waitingAction = false ∧ d.waitingCommand = false := by
    simpa [Controller.waiting] using hw
  have hscan : ¬ d.scanning = true := by
    cases hk : d.state <;> simp_all [Controller.scanning, State.rank, State.settled]
  exact ⟨by simp [ha], by simp [hm], fun _ => hs, fun h => absurd h hscan,
    fun h => absurd h hscan, fun h => absurd h hscan, fun _ => he⟩

theorem acceptable_encodable {config : Interface} (h : acceptable config = true) :
    config.encodable := by
  simp only [acceptable, Bool.and_eq_true, beq_iff_eq, decide_eq_true_eq] at h
  obtain ⟨⟨⟨⟨⟨-, hi⟩, -⟩, hw⟩, hp⟩, -⟩ := h
  exact ⟨by rw [hi]; decide, hw, UInt8.le_trans hp (by decide)⟩

/-- A pending scan action is pending in the middle of a scan. -/
theorem Sound.scanning_of_pending (hS : Sound c) (hw : c.waitingAction = true) {kind : Action}
    (hk : kind = c.pendingAction)
    (hscan : (State.scanningBegin.rank ≤ kind.state.rank &&
      kind.state.rank ≤ State.scanningEnd.rank) = true) : c.scanning = true := by
  rw [Controller.scanning, (hS.action hw).2, ← hk]
  exact hscan

theorem Completion.sound (hS : Sound c) (hc : c.state ≠ .faulted) (hw : c.waitingAction = true)
    {kind : Action} (hk : kind = c.pendingAction) {now : UInt64}
    (h : Completion { c.clocked now with waitingAction := false } kind log c') : Sound c' := by
  have hm : c.waitingCommand = false := (hS.action hw).1
  have he : c.interface.encodable := hS.encodable hc
  have hstate : c.state = kind.state := by rw [(hS.action hw).2, hk]
  have hwait : ({ c.clocked now with waitingAction := false } : Controller).waiting = false := hm
  cases h with
  | interfacePrepared hb => exact sound_commanding _ _ _ _ rfl he rfl
  | idleInstalled => exact sound_settled hwait rfl (by rintro ⟨⟩) he
  | scanBegun hc =>
      have hscan := hS.scanning_of_pending hw hk rfl
      exact sound_acting .scanTune hm he (fun _ => hS.resume hscan)
        (fun _ _ _ => hS.inPlan hscan (by simp [hstate, Action.state]) (by simp [hstate, Action.state]))
        fun _ => hS.dwell hscan
  | scanBegunCancelled hc =>
      have hscan := hS.scanning_of_pending hw hk rfl
      exact sound_acting .scanRestore hm he (fun _ => hS.resume hscan)
        (fun _ h => absurd rfl h) fun _ => hS.dwell hscan
  | tuned hc =>
      have hscan := hS.scanning_of_pending hw hk rfl
      exact ⟨(by rintro ⟨⟩), fun h => by simp [hm] at h, fun _ => rfl, fun _ => hS.resume hscan,
        fun _ _ _ => hS.inPlan hscan (by simp [hstate, Action.state]) (by simp [hstate, Action.state]),
        fun _ => hS.dwell hscan, fun _ => he⟩
  | tunedCancelled hc =>
      have hscan := hS.scanning_of_pending hw hk rfl
      exact sound_acting .scanRestore hm he (fun _ => hS.resume hscan)
        (fun _ h => absurd rfl h) fun _ => hS.dwell hscan
  | scanRestored =>
      have hscan := hS.scanning_of_pending hw hk rfl
      exact sound_acting .scanEnd hm he (fun _ => hS.resume hscan)
        (fun _ _ h => absurd rfl h) fun _ => hS.dwell hscan
  | scanEnded hd =>
      have hscan := hS.scanning_of_pending hw hk rfl
      refine sound_settled hwait ?_ ?_ he
      · rcases hS.resume hscan with hr | hr | hr <;> simp [hr, State.settled]
      · rcases hS.resume hscan with hr | hr | hr <;> simp [hr]
  | scanEndedLeaving hd => exact sound_acting .disconnectCmac hm he (by rintro ⟨⟩) (by rintro ⟨⟩) (by rintro ⟨⟩)
  | authenticationPrepared hd => exact sound_settled hwait rfl (by rintro ⟨⟩) he
  | authenticationPreparedLeaving hd => exact sound_acting .disconnectCmac hm he (by rintro ⟨⟩) (by rintro ⟨⟩) (by rintro ⟨⟩)
  | cmacInstalled hd hb => exact sound_commanding _ _ _ _ rfl he rfl
  | cmacInstalledLeaving hd => exact sound_acting .disconnectCmac hm he (by rintro ⟨⟩) (by rintro ⟨⟩) (by rintro ⟨⟩)
  | camInstalled hd => exact sound_settled hwait rfl (by rintro ⟨⟩) he
  | camInstalledLeaving hd => exact sound_acting .disconnectCmac hm he (by rintro ⟨⟩) (by rintro ⟨⟩) (by rintro ⟨⟩)
  | partedCmac hb => exact sound_commanding _ _ _ _ rfl he rfl
  | partedCam => exact sound_settled hwait rfl (by rintro ⟨⟩) he
  | camRemoved => exact sound_settled hwait rfl (by rintro ⟨⟩) he

theorem Acknowledged.sound (hS : Sound c) (hc : c.state ≠ .faulted) (hw : c.waitingCommand = true)
    {now : UInt64} (h : Acknowledged { c.clocked now with waitingCommand := false } log c') :
    Sound c' := by
  have ha : c.waitingAction = false := by
    by_contra ha
    exact hS.not_both (by simpa using ha) hw
  have he : c.interface.encodable := hS.encodable hc
  cases h with
  | roleCreated hs hb => exact sound_commanding _ _ _ _ ha he rfl
  | noLink hs => exact sound_acting .idleTables rfl he nofun nofun nofun
  | joined hs hd => exact sound_acting .associationCam rfl he nofun nofun nofun
  | joinedLeaving hs hd => exact sound_acting .disconnectCmac rfl he nofun nofun nofun
  | left hs => exact sound_acting .disconnectCam rfl he nofun nofun nofun
  | roleRemoved hs => exact sound_acting .removeCam rfl he nofun nofun nofun

theorem Controller.waiting_eq_false (hw : c.waiting = false) :
    c.waitingAction = false ∧ c.waitingCommand = false := by
  simpa [Controller.waiting] using hw

/-- A move that touches none of the fields the shape is about. -/
theorem Sound.clocked (hS : Sound c) (now : UInt64) : Sound (c.clocked now) :=
  ⟨hS.action, hS.command, hS.settled, hS.resume, hS.inPlan, hS.dwell, hS.encodable⟩

theorem sound_parting (hw : d.waiting = false) (he : d.interface.encodable) : Sound d.parting :=
  sound_acting .disconnectCmac (Controller.waiting_eq_false hw).2 he nofun nofun nofun

theorem Controller.scanning_of_dwell (hd : c.state = .scanningDwell) : c.scanning = true := by
  rw [Controller.scanning, hd]
  rfl

/-- Leaving the dwell state for the restore action, whatever else has changed. -/
theorem Sound.restoring (hS : Sound c) (hd : c.state = .scanningDwell) (hw : c.waiting = false)
    (hwd : d.waiting = c.waiting) (hr : d.scanResume = c.scanResume)
    (hch : d.channels = c.channels) (hn : d.channelCount = c.channelCount)
    (hi : d.interface = c.interface) : Sound d.restoring := by
  have hscan := Controller.scanning_of_dwell hd
  refine sound_acting .scanRestore (Controller.waiting_eq_false (hwd.trans hw)).2 ?_
    (fun _ => by rw [hr]; exact hS.resume hscan) (fun _ h => absurd rfl h)
    (fun _ => by rw [hch, hn]; exact hS.dwell hscan)
  rw [hi]
  exact hS.encodable (by simp [hd])

theorem Controller.timedOut_not_faulted {now : UInt64} (h : c.timedOut now) :
    c.state ≠ .faulted := by
  simp [h.2.1]

theorem Move.sound (hS : Sound c) (h : Move c op log ok c') : Sound c' := by
  cases h with
  | closed => exact hS
  | refused hc => exact hS.clocked _
  | restartUnverified => exact hS
  | restartUnpaused => exact hS
  | restart he hlt => exact sound_settled rfl rfl (by rintro ⟨⟩) encodable_default
  | start hs hw he ha =>
      exact sound_acting .prepareInterface (Controller.waiting_eq_false hw).2
        (acceptable_encodable ha) (by rintro ⟨⟩) (by rintro ⟨⟩) (by rintro ⟨⟩)
  | stop hs hw hb =>
      exact sound_commanding _ _ _ _ (Controller.waiting_eq_false hw).1
        (hS.encodable (by simp [hs])) rfl
  | @scan plan now hs hw hlen hmax hall =>
      refine sound_acting .scanBegin (Controller.waiting_eq_false hw).2
        (hS.encodable (by rcases hs with hs | hs <;> simp [hs])) (fun _ => ?_) (fun _ _ _ => hlen)
        (fun _ i hi => ?_)
      · rcases hs with hs | hs <;> simp [hs]
      · have hi' : i < plan.length := hi
        have hmem : plan[i] ∈ plan := List.getElem_mem hi'
        have hent := List.all_eq_true.1 hall _ hmem
        simp only [scannable, Bool.and_eq_true, decide_eq_true_eq] at hent
        simpa [List.getD_eq_getElem?_getD, hi'] using hent.2
  | cancelScan hs ht hd =>
      exact ⟨hS.action, hS.command, hS.settled, hS.resume, hS.inPlan, hS.dwell, hS.encodable⟩
  | cancelDwell ht hd hw => exact hS.restoring hd hw rfl rfl rfl rfl rfl
  | nextChannel hd hw ht hc hn =>
      have hscan := Controller.scanning_of_dwell hd
      have hin := hS.inPlan hscan (by simp [hd]) (by simp [hd])
      exact sound_acting .scanTune (Controller.waiting_eq_false hw).2 (hS.encodable (by simp [hd]))
        (fun _ => hS.resume hscan) (fun _ _ _ => lt_of_le_of_ne hin hn) (fun _ => hS.dwell hscan)
  | lastChannel hd hw ht hc hn => exact hS.restoring hd hw rfl rfl rfl rfl rfl
  | dwellCancelled hd hw ht hc => exact hS.restoring hd hw rfl rfl rfl rfl rfl
  | connect hs hw hb hl hv =>
      exact sound_acting .prepareAuthentication (Controller.waiting_eq_false hw).2
        (hS.encodable (by simp [hs])) (by rintro ⟨⟩) (by rintro ⟨⟩) (by rintro ⟨⟩)
  | authenticated hs ht hb hn =>
      exact ⟨hS.action, hS.command, hS.settled, hS.resume, hS.inPlan, hS.dwell, hS.encodable⟩
  | @authenticatedLate original bssid now ht hb hn =>
      have h := sound_parting (d := (c.clocked now).leaving .timeout) hn.1
        (hS.encodable (Controller.timedOut_not_faulted hn))
      exact ⟨h.action, h.command, h.settled, h.resume, h.inPlan, h.dwell, h.encodable⟩
  | authenticationFailed hs hw ht hb hn =>
      exact sound_parting hw (hS.encodable (by simp [hs]))
  | associationReceived hs hw ha ht hb hch h0 h1 hn =>
      exact sound_acting .associationCmac (Controller.waiting_eq_false hw).2
        (hS.encodable (by simp [hs])) (by rintro ⟨⟩) (by rintro ⟨⟩) (by rintro ⟨⟩)
  | associationRejected hs hw ha ht hb h0 hn => exact sound_parting hw (hS.encodable (by simp [hs]))
  | authorizePort hs ht =>
      exact sound_settled (hS.not_waiting (by simp [hs, State.settled])) rfl (by rintro ⟨⟩)
        (hS.encodable (by simp [hs]))
  | revokeScan ht hs hr =>
      exact ⟨hS.action, hS.command, hS.settled, fun _ => Or.inr (Or.inl rfl), hS.inPlan, hS.dwell,
        hS.encodable⟩
  | revokePort ht hs =>
      have hs' : c.state = .associated ∨ c.state = .authorized := by
        simpa [Controller.linked] using hs
      refine sound_settled (hS.not_waiting ?_) rfl (by rintro ⟨⟩) (hS.encodable ?_)
      · rcases hs' with hs' | hs' <;> simp [hs', State.settled]
      · rcases hs' with hs' | hs' <;> simp [hs']
  | revokeTimedOut ht hn =>
      exact sound_parting hn.1 (hS.encodable (Controller.timedOut_not_faulted hn))
  | disconnectIdle hs => exact hS.clocked _
  | disconnectScan hs hd =>
      exact ⟨hS.action, hS.command, hS.settled, hS.resume, hS.inPlan, hS.dwell, hS.encodable⟩
  | disconnectDwell hd hw => exact hS.restoring hd hw rfl rfl rfl rfl rfl
  | disconnectScanClosed hs =>
      exact ⟨hS.action, hS.command, hS.settled, hS.resume, hS.inPlan, hS.dwell, hS.encodable⟩
  | disconnectDeferred hw hlo hhi =>
      exact ⟨hS.action, hS.command, hS.settled, hS.resume, hS.inPlan, hS.dwell, hS.encodable⟩
  | disconnectNow hw hlo hhi hn =>
      refine sound_parting hw (hS.encodable fun hf => ?_)
      simp [hf, State.rank] at hhi
  | disconnectTimedOut hn =>
      exact sound_parting hn.1 (hS.encodable (Controller.timedOut_not_faulted hn))
  | tick hc => exact hS.clocked _
  | tickTimedOut hn =>
      exact sound_parting hn.1 (hS.encodable (Controller.timedOut_not_faulted hn))
  | actionComplete hw ht hk hd h =>
      refine Completion.sound hS (fun hf => ?_) hw hk h
      have hstate := (hS.action hw).2
      rw [hf] at hstate
      cases hk' : c.pendingAction <;> simp [hk', Action.state] at hstate
  | firmwareEvent hw he hack hdone hseq hcmd hrc hd h =>
      refine Acknowledged.sound hS (fun hf => ?_) hw h
      have hstate := hS.command hw
      simp [hf, State.command] at hstate

/-! ## Every call of a run is a fault or a move -/

theorem Spec.sound (hS : Sound c) (h : Spec c op log ok c') : Sound c' := by
  rcases h with ⟨-, hf⟩ | hm
  · exact hf.sound
  · exact hm.sound hS

theorem Run.sound (hrun : Run h c) : Sound c := by
  refine Interaction.Run.invariant (P := fun _ c => Sound c) sound_initial ?_ hrun
  intro h c c' op log ok hrun hS hout
  exact (wp_outcome (exec_spec hS op) hout).sound hS

theorem Run.induction {P : List Record → Controller → Prop} (hnil : P [] {})
    (hcall : ∀ {h c c' op log ok}, Run h c → Sound c → P h c → Spec c op log ok c' →
      P (⟨c, op, log, ok, c'⟩ :: h) c')
    (hrun : Run h c) : P h c := by
  refine Interaction.Run.invariant hnil ?_ hrun
  intro h c c' op log ok hrun hP hout
  have hS := Run.sound hrun
  exact hcall hrun hS hP (wp_outcome (exec_spec hS op) hout)

/-- Every call of a history started from a sound controller and did what its code does. -/
theorem Run.outcome_of_mem {r : Record} (hrun : Run h c) (hr : r ∈ h) :
    Sound r.before ∧ (exec r.op r.before).Outcome r.log (r.result, r.after) := by
  obtain ⟨later, earlier, rfl⟩ := List.append_of_mem hr
  obtain ⟨hbefore, -, hout⟩ := (Interaction.Run.drop hrun).tail
  exact ⟨Run.sound hbefore, hout⟩

theorem Run.spec_of_mem {r : Record} (hrun : Run h c) (hr : r ∈ h) :
    Spec r.before r.op r.log r.result r.after := by
  obtain ⟨hS, hout⟩ := Run.outcome_of_mem hrun hr
  exact wp_outcome (exec_spec hS r.op) hout

/-! ## Executions -/

/-- A backend that agrees to everything and counts its H2C sequences. -/
def agreeable : (call : Call) → UInt8 → Reply call × UInt8
  | .inGate, n => (true, n)
  | .setTraffic _, n => (true, n)
  | .reserveH2cSequence, n => (some n, n + 1)
  | .publishH2c _ _, n => (true, n)
  | .beginAction _, n => (true, n)
  | .beginAuthentication _ _, n => (true, n)
  | .sendProbe _ _ _, n => (true, n)
  | .cancelProtocol _, n => (true, n)
  | .scanFinished _ _, n => ((), n)
  | .recoveryRequired _ _, n => ((), n)
  | .firmwareRestartVerified _, n => (true, n)

/-- The history of these calls with an agreeable backend. -/
def history (ops : List Op) : List Record := (replay exec agreeable ops {} 0).1

/-- The controller after these calls with an agreeable backend. -/
def final (ops : List Op) : Controller := (replay exec agreeable ops {} 0).2.1

theorem run_history (ops : List Op) : Run (history ops) (final ops) :=
  replay_run exec agreeable ops {} 0

/-- The DONE acknowledgement, with return code 0, of the role (4) or the join (0) command. -/
def doneAck (function sequence : UInt8) : FirmwareEvent :=
  { id := ⟨1, 0, 1⟩, payload := some [33, function, 0, sequence] }

def stationInterface : Interface :=
  { address := ⟨fun i => if i = 0 then 2 else 1⟩, home := { center := 1, primary := 1 } }

def accessPoint : Peer :=
  { bssid := ⟨fun i => if i = 0 then 4 else 7⟩, channel := { center := 6, primary := 6 } }

/-- From the construction to `idle`. -/
def bringUp : List Op :=
  [.restart 1 0, .start stationInterface 1, .actionComplete ⟨1, 1⟩ .prepareInterface true 2,
    .firmwareEvent (doneAck 4 0) 1 3, .firmwareEvent (doneAck 0 1) 1 4,
    .actionComplete ⟨1, 4⟩ .idleTables true 5]

/-- From the construction to `associated`, under the association token `⟨1, 5⟩`. -/
def linkUp : List Op :=
  bringUp ++
    [.connect accessPoint 6, .actionComplete ⟨1, 6⟩ .prepareAuthentication true 7,
      .authenticated ⟨1, 5⟩ accessPoint.bssid true 8,
      .associationReceived ⟨1, 5⟩
        { bssid := accessPoint.bssid, channel := accessPoint.channel, aid := 1 } 9,
      .actionComplete ⟨1, 7⟩ .associationCmac true 10, .firmwareEvent (doneAck 0 2) 1 11,
      .actionComplete ⟨1, 9⟩ .associationCam true 12]

end Station
end Rtl8852be
