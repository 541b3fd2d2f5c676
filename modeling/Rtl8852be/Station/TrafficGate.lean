import Rtl8852be.Station.Run

/-!
# TrafficGate — the mode the backend is in

The backend transmits what the last mode it accepted lets through.  `Fits` gives, for every state,
the modes that may be in force there; it is an invariant of every run, whatever the backend refuses,
and `traffic_gate` reads the data-path promises off it.
-/

namespace Rtl8852be
namespace Station

open Interaction Network

variable {c c' : Controller} {op : Op} {log : Trace} {ok : Bool} {h : List Record} {mode : Traffic}

/-- The mode in force after `log`, if `mode` was in force before: the last one accepted. -/
def modeAfter (mode : Traffic) (log : Trace) : Traffic :=
  log.foldl (fun mode e =>
    match e with
    | .call (.setTraffic value) true => value
    | _ => mode) mode

/-- The last mode accepted in a history, starting from a backend whose mode is `none`. -/
def lastMode : List Record → Traffic
  | [] => .none
  | r :: h => modeAfter (lastMode h) r.log

/-! ## What the helpers leave in force -/

section Traces

variable (d : Controller)

@[simp] theorem modeAfter_nil : modeAfter mode [] = mode := rfl

@[simp] theorem modeAfter_append (l l' : Trace) :
    modeAfter mode (l ++ l') = modeAfter (modeAfter mode l) l' := List.foldl_append

@[simp] theorem modeAfter_accepted (value : Traffic) (l : Trace) :
    modeAfter mode (.call (.setTraffic value) true :: l) = modeAfter value l := rfl

@[simp] theorem modeAfter_paused (l : Trace) :
    modeAfter mode (paused :: l) = modeAfter .none l := rfl

@[simp] theorem modeAfter_note (n : Note) (l : Trace) :
    modeAfter mode (.note n :: l) = modeAfter mode l := rfl

@[simp] theorem modeAfter_gate : modeAfter mode gate = mode := rfl

@[simp] theorem modeAfter_actionTrace (kind : Action) (target : Channel) :
    modeAfter mode (actionTrace d kind target) = mode := by
  by_cases hk : kind = .scanTune <;> simp [actionTrace, hk, readChannel] <;> rfl

@[simp] theorem modeAfter_commandTrace (sequence : UInt8) (bytes : List UInt8) :
    modeAfter mode (commandTrace d sequence bytes) = mode := rfl

@[simp] theorem modeAfter_disconnectTrace : modeAfter mode (disconnectTrace d) = .none :=
  modeAfter_actionTrace d .disconnectCmac {}

@[simp] theorem modeAfter_tuneTrace : modeAfter mode (tuneTrace d) = .none :=
  modeAfter_actionTrace d .scanTune d.entry.channel

@[simp] theorem modeAfter_restoreTrace : modeAfter mode (restoreTrace d) = .none :=
  modeAfter_actionTrace d .scanRestore d.homeChannel

@[simp] theorem modeAfter_dwellTrace :
    modeAfter mode (dwellTrace d) = if d.entry.active then .scanProbe else .none := by
  cases ha : d.entry.active with
  | true =>
      simp [dwellTrace, ha, readChannel]
      rfl
  | false => simp [dwellTrace, ha, readChannel]

end Traces

/-! ## The invariant -/

/-- The modes that may be in force in a state. -/
def Fits (c : Controller) (mode : Traffic) : Prop :=
  match c.state with
  | .faulted => True
  | .idle | .authenticating => mode = .management
  | .scanningDwell => mode = if c.entry.active then .scanProbe else .none
  | .installingAssociationCmac | .joining | .installingAssociationCam =>
      mode = .management ∨ mode = .none
  | .associated => mode = .controlledPort
  | .authorized => mode = .authorized
  | _ => mode = .none

theorem fits_resume (hr : c.scanResume = .idle ∨ c.scanResume = .associated ∨
    c.scanResume = .authorized) :
    Fits { c with state := c.scanResume, scanToken := {} } (resumeMode c.scanResume) := by
  rcases hr with hr | hr | hr <;> simp [Fits, hr, resumeMode]

theorem Completion.fits {kind : Action} (h : Completion c kind log c')
    (hr : kind = .scanEnd → c.scanResume = .idle ∨ c.scanResume = .associated ∨
      c.scanResume = .authorized)
    (hcmac : kind = .associationCmac → mode = .management ∨ mode = .none)
    (hend : kind = .removeCam ∨ kind = .disconnectCmac ∨ kind = .prepareInterface ∨
      kind = .scanRestore → mode = .none) : Fits c' (modeAfter mode log) := by
  cases h with
  | interfacePrepared hb => simpa [Fits] using hend
  | idleInstalled => simp [Fits]
  | scanBegun hc => simp [Fits]
  | scanBegunCancelled hc => simp [Fits]
  | tuned hc => exact modeAfter_dwellTrace c
  | tunedCancelled hc => simp [Fits]
  | scanRestored => simpa [Fits] using hend
  | scanEnded hd => exact fits_resume (hr rfl)
  | scanEndedLeaving hd =>
      have : modeAfter .none (disconnectTrace c) = .none := modeAfter_disconnectTrace c
      exact this
  | authenticationPrepared hd => rfl
  | authenticationPreparedLeaving hd => simp [Fits]
  | cmacInstalled hd hb => simpa [Fits] using hcmac
  | cmacInstalledLeaving hd => simp [Fits]
  | camInstalled hd => simp [Fits]
  | camInstalledLeaving hd => simp [Fits]
  | partedCmac hb => simpa [Fits] using hend
  | partedCam => simp [Fits]
  | camRemoved => simpa [Fits] using hend

theorem Acknowledged.fits (h : Acknowledged c log c') (hf : Fits c mode) :
    Fits c' (modeAfter mode log) := by
  cases h with
  | roleCreated hs hb => simpa [Fits, hs] using hf
  | noLink hs => simpa [Fits, hs] using hf
  | joined hs hd => simpa [Fits, hs] using hf
  | joinedLeaving hs hd => simp [Fits]
  | left hs => simpa [Fits, hs] using hf
  | roleRemoved hs => simpa [Fits, hs] using hf

/-- While something is pending between the connection and the end of a disconnect, pausing is
always in order. -/
theorem fits_paused (hS : Sound c) (hw : c.waiting = true)
    (hlo : State.preparingAuthentication.rank ≤ c.state.rank)
    (hhi : c.state.rank ≤ State.disconnectingCam.rank) : Fits c .none := by
  have hset : c.state.settled = false := by
    by_contra hset
    exact hS.not_busy rfl (by simpa using hset) hw
  cases hs : c.state <;> simp [hs, State.rank, State.settled, Fits] at hlo hhi hset ⊢

theorem Move.fits (hS : Sound c) (hf : Fits c mode) (h : Move c op log ok c') :
    Fits c' (modeAfter mode log) := by
  cases h with
  | closed => exact hf
  | refused hc => exact hf
  | restartUnverified => exact hf
  | restartUnpaused => exact hf
  | restart he hlt => rfl
  | start hs hw he ha => simp [Fits]
  | stop hs hw hb => simp [Fits]
  | scan hs hw hlen hmax hall => simp [Fits]
  | cancelScan hs ht hd => exact hf
  | cancelDwell ht hd hw => simp [Fits]
  | nextChannel hd hw ht hc hn => simp [Fits]
  | lastChannel hd hw ht hc hn => simp [Fits]
  | dwellCancelled hd hw ht hc => simp [Fits]
  | connect hs hw hb hl hv => simp [Fits]
  | authenticated hs ht hb hn => exact hf
  | authenticatedLate ht hb hn => simp [Fits]
  | authenticationFailed hs hw ht hb hn => simp [Fits]
  | associationReceived hs hw ha ht hb hch h0 h1 hn =>
      have : mode = .management := by simpa [Fits, hs] using hf
      simp [Fits, this]
  | associationRejected hs hw ha ht hb h0 hn => simp [Fits]
  | authorizePort hs ht => simp [Fits]
  | revokeScan ht hs hr => exact hf
  | revokePort ht hs => simp [Fits]
  | revokeTimedOut ht hn => simp [Fits]
  | disconnectIdle hs => exact hf
  | disconnectScan hs hd => exact hf
  | disconnectDwell hd hw => simp [Fits]
  | disconnectScanClosed hs => exact hf
  | disconnectDeferred hw hlo hhi =>
      have : Fits c .none := fits_paused hS hw hlo hhi
      exact this
  | disconnectNow hw hlo hhi hn => simp [Fits]
  | disconnectTimedOut hn => simp [Fits]
  | tick hc => exact hf
  | tickTimedOut hn => simp [Fits]
  | actionComplete hw ht hk hd h =>
      have hstate := (hS.action hw).2
      rw [← hk] at hstate
      rw [modeAfter_append, modeAfter_gate]
      refine h.fits (fun he => ?_) (fun he => ?_) (fun he => ?_)
      · exact hS.resume (hS.scanning_of_pending hw hk (by rw [he]; rfl))
      · simpa [Fits, hstate, he, Action.state] using hf
      · rcases he with he | he | he | he <;> simpa [Fits, hstate, he, Action.state] using hf
  | firmwareEvent hw he hack hdone hseq hcmd hrc hd h =>
      rw [modeAfter_append, modeAfter_gate]
      exact h.fits hf

theorem Run.fits (hrun : Run h c) : Fits c (lastMode h) := by
  refine Run.induction (P := fun h c => Fits c (lastMode h)) rfl ?_ hrun
  intro h c c' op log ok _ hS hf hspec
  rcases hspec with ⟨-, hfault⟩ | hmove
  · simp [Fits, hfault.state]
  · exact hmove.fits hS hf

/-- The states in which nothing may be transmitted. -/
def silent : List State :=
  [.stopped, .preparing, .creatingRole, .initialNoLink, .installingIdle, .scanningBegin,
    .scanningTune, .scanningRestore, .scanningEnd, .preparingAuthentication, .disconnectingCmac,
    .disconnecting, .disconnectingCam, .removingRole, .removingCam]

/-- In every reachable state that has not faulted, data goes out only through an open port, probes
only from an active dwell, and nothing at all while the interface is being worked on. -/
theorem traffic_gate (hrun : Run h c) (hc : c.state ≠ .faulted) :
    (lastMode h = .authorized → c.state = .authorized) ∧
    (lastMode h = .controlledPort → c.state = .associated) ∧
    (lastMode h = .scanProbe → c.state = .scanningDwell ∧ c.channelIndex < c.channelCount ∧
      (c.channels c.channelIndex).active = true) ∧
    (c.state ∈ silent → lastMode h = .none) := by
  have hf := Run.fits hrun
  have hin : c.state = .scanningDwell → c.channelIndex < c.channelCount := fun hs =>
    (Run.sound hrun).inPlan (Controller.scanning_of_dwell hs) (by simp [hs]) (by simp [hs])
  refine ⟨fun hm => ?_, fun hm => ?_, fun hm => ?_, fun hm => ?_⟩
  · cases hs : c.state <;> simp [Fits, hs, hm] at hf hc ⊢
    split at hf <;> cases hf
  · cases hs : c.state <;> simp [Fits, hs, hm] at hf hc ⊢
    split at hf <;> cases hf
  · have hs : c.state = .scanningDwell := by
      cases hs : c.state <;> simp [Fits, hs, hm] at hf hc ⊢
    refine ⟨hs, hin hs, ?_⟩
    by_contra ha
    simp [Fits, hs, hm, Controller.entry, ha] at hf
  · cases hs : c.state <;> simp [Fits, hs, silent] at hf hm ⊢ <;> exact hf

/-- The port of an authorized link is open. -/
theorem traffic_gate_authorized :
    lastMode (history (linkUp ++ [.authorizePort ⟨1, 5⟩ 13])) = .authorized ∧
      (final (linkUp ++ [.authorizePort ⟨1, 5⟩ 13])).state = .authorized :=
  have hmode : lastMode (history (linkUp ++ [.authorizePort ⟨1, 5⟩ 13])) = .authorized := by
    decide +kernel
  ⟨hmode, (traffic_gate (run_history _) (by decide +kernel)).1 hmode⟩

end Station
end Rtl8852be
