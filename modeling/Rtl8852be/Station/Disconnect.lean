import Rtl8852be.Station.Authorization
import Rtl8852be.Station.Trace

/-!
# Disconnect — a requested disconnect is not lost, and teardown is ordered

The request can arrive while any action or command of an association is in flight, or in the middle
of a scan.  `Leaving` is what it leaves behind; no move goes from there back to a link, and no call
opens the port.  `Farewell` follows the teardown itself: how often the protocol was cancelled for
the current association, and which steps of the teardown have been made since its connection.
-/

namespace Rtl8852be
namespace Station

open Interaction Network

variable {c c' : Controller} {op : Op} {log : Trace} {ok : Bool} {h : List Record} {r : Record}

/-! ## Where a scan began -/

def Record.scans (r : Record) : Bool := r.result && r.op matches .scan _ _

/-- The state in which the last scan began. -/
def scanOrigin : List Record → Option State
  | [] => none
  | r :: h => if Record.scans r then some r.before.state else scanOrigin h

/-- A scan resumes what it interrupted, unless the port was revoked in the meantime. -/
def Resumes (h : List Record) (c : Controller) : Prop :=
  c.scanning = true →
    (scanOrigin h = some .idle ∧ c.scanResume = .idle) ∨
    (scanOrigin h = some .authorized ∧ c.scanResume ≠ .idle)

theorem Move.scans (hS : Sound c) (hm : Move c op log ok c') (hs : c'.scanning = true) :
    (Record.scans ⟨c, op, log, ok, c'⟩ = true ∧ (c.state = .idle ∨ c.state = .authorized) ∧
      c'.scanResume = c.state) ∨
    (Record.scans ⟨c, op, log, ok, c'⟩ = false ∧ c.scanning = true ∧
      (c'.scanResume = .idle ↔ c.scanResume = .idle)) := by
  have hkeep : ∀ {d : Controller}, c.state = .scanningDwell → d.scanResume = c.scanResume →
      c.scanning = true ∧ (d.scanResume = .idle ↔ c.scanResume = .idle) := fun hd hr =>
    ⟨Controller.scanning_of_dwell hd, by rw [hr]⟩
  cases hm with
  | closed => exact Or.inr ⟨rfl, hs, Iff.rfl⟩
  | refused hc => exact Or.inr ⟨rfl, hs, Iff.rfl⟩
  | restartUnverified => exact Or.inr ⟨rfl, hs, Iff.rfl⟩
  | restartUnpaused => exact Or.inr ⟨rfl, hs, Iff.rfl⟩
  | scan horigin hw hlen hmax hall => exact Or.inl ⟨rfl, horigin, rfl⟩
  | cancelScan hs ht hd => exact Or.inr ⟨rfl, hs, Iff.rfl⟩
  | cancelDwell ht hd hw => exact Or.inr ⟨rfl, hkeep hd rfl⟩
  | nextChannel hd hw ht hc hn => exact Or.inr ⟨rfl, hkeep hd rfl⟩
  | lastChannel hd hw ht hc hn => exact Or.inr ⟨rfl, hkeep hd rfl⟩
  | dwellCancelled hd hw ht hc => exact Or.inr ⟨rfl, hkeep hd rfl⟩
  | authenticated hs' ht hb hn => exact Or.inr ⟨rfl, hs, Iff.rfl⟩
  | revokeScan ht hs hr => exact Or.inr ⟨rfl, hs, iff_of_false nofun hr⟩
  | disconnectIdle hs' => exact Or.inr ⟨rfl, hs, Iff.rfl⟩
  | disconnectScan hs hd => exact Or.inr ⟨rfl, hs, Iff.rfl⟩
  | disconnectDwell hd hw => exact Or.inr ⟨rfl, hkeep hd rfl⟩
  | disconnectScanClosed hs => exact Or.inr ⟨rfl, hs, Iff.rfl⟩
  | disconnectDeferred hw hlo hhi => exact Or.inr ⟨rfl, hs, Iff.rfl⟩
  | tick hc => exact Or.inr ⟨rfl, hs, Iff.rfl⟩
  | actionComplete hw ht hk hd h =>
      refine Or.inr ⟨rfl, ?_⟩
      cases h with
      | scanBegun hc => exact ⟨hS.scanning_of_pending hw hk rfl, Iff.rfl⟩
      | scanBegunCancelled hc => exact ⟨hS.scanning_of_pending hw hk rfl, Iff.rfl⟩
      | tuned hc => exact ⟨hS.scanning_of_pending hw hk rfl, Iff.rfl⟩
      | tunedCancelled hc => exact ⟨hS.scanning_of_pending hw hk rfl, Iff.rfl⟩
      | scanRestored => exact ⟨hS.scanning_of_pending hw hk rfl, Iff.rfl⟩
      | scanEnded hd =>
          have hr := hS.resume (hS.scanning_of_pending hw hk rfl)
          rcases hr with hr | hr | hr <;> simp [Controller.scanning, hr, State.rank] at hs
      | _ => cases hs
  | firmwareEvent hw he hack hdone hseq hcmd hrc hd h => cases h <;> cases hs
  | _ => cases hs

theorem Run.resumes (hrun : Run h c) : Resumes h c := by
  refine Run.induction (P := Resumes) nofun ?_ hrun
  intro h c c' op log ok _ hS ih hspec hs
  rcases hspec with ⟨-, hf⟩ | hm
  · simp [Controller.scanning, hf.state, State.rank] at hs
  · rcases hm.scans hS hs with ⟨hscan, horigin, hr⟩ | ⟨hscan, hs', hr⟩
    · simp only [scanOrigin, hscan, if_true]
      rcases horigin with ho | ho
      · exact Or.inl ⟨by rw [ho], by rw [hr, ho]⟩
      · exact Or.inr ⟨by rw [ho], by simp [hr, ho]⟩
    · simp only [scanOrigin, hscan, Bool.false_eq_true, if_false]
      rcases ih hs' with ⟨ho, hi⟩ | ⟨ho, hi⟩
      · exact Or.inl ⟨ho, hr.2 hi⟩
      · exact Or.inr ⟨ho, fun h => hi (hr.1 h)⟩

/-! ## A request is not lost -/

/-- The states in which an association is being installed or torn down. -/
def State.underWay : State → Bool
  | .preparingAuthentication | .installingAssociationCmac | .joining | .installingAssociationCam
  | .disconnectingCmac | .disconnecting | .disconnectingCam => true
  | _ => false

/-- The association is on its way out. -/
structure Leaving (c : Controller) : Prop where
  requested : c.disconnectRequested = true
  under : (c.scanning = true ∧ c.scanResume ≠ .idle) ∨ c.state.underWay = true

theorem Leaving.not_linked (hl : Leaving c) : c.state ≠ .associated ∧ c.state ≠ .authorized := by
  rcases hl.under with ⟨hs, -⟩ | hs
  · refine ⟨fun h => ?_, fun h => ?_⟩ <;> simp [Controller.scanning, h, State.rank] at hs
  · refine ⟨fun h => ?_, fun h => ?_⟩ <;> simp [h, State.underWay] at hs

theorem Leaving.not_state (hl : Leaving c) {state : State} (hs : c.state = state)
    (hu : state.underWay = false)
    (hn : (State.scanningBegin.rank ≤ state.rank && state.rank ≤ State.scanningEnd.rank) = false) :
    False := by
  subst hs
  rcases hl.under with ⟨hs, -⟩ | hs
  · rw [Controller.scanning, hn] at hs
    cases hs
  · rw [hu] at hs
    cases hs

/-- In the dwell state the disconnect waits for the end of the scan. -/
theorem Leaving.dwell {d : Controller} (hl : Leaving c) (hd : c.state = .scanningDwell)
    (hs : d.scanning = true) (hr : d.scanResume = c.scanResume)
    (hq : d.disconnectRequested = true) : Leaving d := by
  refine ⟨hq, Or.inl ⟨hs, ?_⟩⟩
  rw [hr]
  rcases hl.under with ⟨-, h⟩ | h
  · exact h
  · simp [hd, State.underWay] at h

/-- The association is gone: the controller is back in `idle`, has faulted or was restarted. -/
def Record.settles (r : Record) : Prop :=
  r.after.state = .idle ∨ r.after.state = .faulted ∨
    ((∃ newEpoch now, r.op = .restart newEpoch now) ∧ r.result = true)

theorem Completion.leaving {kind : Action} {now : UInt64} (hS : Sound c) (hl : Leaving c)
    (hw : c.waitingAction = true) (hk : kind = c.pendingAction)
    (hm : Completion { c.clocked now with waitingAction := false } kind log c') :
    c'.state = .idle ∨ Leaving c' := by
  have hstate : c.state = kind.state := by rw [(hS.action hw).2, hk]
  have hq := hl.requested
  have hscan : c.scanning = true → c.scanResume ≠ .idle := fun hs => by
    rcases hl.under with ⟨-, h⟩ | h
    · exact h
    · cases hu : c.state <;> simp [hu, Controller.scanning, State.rank, State.underWay] at hs h
  cases hm with
  | interfacePrepared hb => exact (hl.not_state hstate rfl rfl).elim
  | idleInstalled => exact Or.inl rfl
  | scanBegun hc => exact Or.inr ⟨hq, Or.inl ⟨rfl, hscan (hS.scanning_of_pending hw hk rfl)⟩⟩
  | scanBegunCancelled hc =>
      exact Or.inr ⟨hq, Or.inl ⟨rfl, hscan (hS.scanning_of_pending hw hk rfl)⟩⟩
  | tuned hc => exact Or.inr ⟨hq, Or.inl ⟨rfl, hscan (hS.scanning_of_pending hw hk rfl)⟩⟩
  | tunedCancelled hc => exact Or.inr ⟨hq, Or.inl ⟨rfl, hscan (hS.scanning_of_pending hw hk rfl)⟩⟩
  | scanRestored => exact Or.inr ⟨hq, Or.inl ⟨rfl, hscan (hS.scanning_of_pending hw hk rfl)⟩⟩
  | scanEnded hd => exact absurd (hq.symm.trans hd) (by decide)
  | scanEndedLeaving hd => exact Or.inr ⟨hq, Or.inr rfl⟩
  | authenticationPrepared hd => exact absurd (hq.symm.trans hd) (by decide)
  | authenticationPreparedLeaving hd => exact Or.inr ⟨hq, Or.inr rfl⟩
  | cmacInstalled hd hb => exact Or.inr ⟨hq, Or.inr rfl⟩
  | cmacInstalledLeaving hd => exact Or.inr ⟨hq, Or.inr rfl⟩
  | camInstalled hd => exact absurd (hq.symm.trans hd) (by decide)
  | camInstalledLeaving hd => exact Or.inr ⟨hq, Or.inr rfl⟩
  | partedCmac hb => exact Or.inr ⟨hq, Or.inr rfl⟩
  | partedCam => exact Or.inl rfl
  | camRemoved => exact (hl.not_state hstate rfl rfl).elim

theorem Acknowledged.leaving {now : UInt64} (hl : Leaving c)
    (hm : Acknowledged { c.clocked now with waitingCommand := false } log c') : Leaving c' := by
  cases hm with
  | roleCreated hs hb => exact (hl.not_state hs rfl rfl).elim
  | noLink hs => exact (hl.not_state hs rfl rfl).elim
  | joined hs hd => exact ⟨hl.requested, Or.inr rfl⟩
  | joinedLeaving hs hd => exact ⟨hl.requested, Or.inr rfl⟩
  | left hs => exact ⟨hl.requested, Or.inr rfl⟩
  | roleRemoved hs => exact (hl.not_state hs rfl rfl).elim

/-- No move leads from a requested disconnect back to the link. -/
theorem Move.leaving (hS : Sound c) (hl : Leaving c) (hm : Move c op log ok c') :
    Record.settles ⟨c, op, log, ok, c'⟩ ∨ Leaving c' := by
  have hq := hl.requested
  have hlate : ∀ {now}, c.timedOut now → False := fun hn => hl.not_state hn.2.1 rfl rfl
  cases hm with
  | closed => exact Or.inr hl
  | refused hc => exact Or.inr ⟨hq, hl.under⟩
  | restartUnverified => exact Or.inr hl
  | restartUnpaused => exact Or.inr hl
  | restart he hlt => exact Or.inl (Or.inr (Or.inr ⟨⟨_, _, rfl⟩, rfl⟩))
  | start hs hw he ha => exact (hl.not_state hs rfl rfl).elim
  | stop hs hw hb => exact (hl.not_state hs rfl rfl).elim
  | scan hs hw hlen hmax hall => rcases hs with hs | hs <;> exact (hl.not_state hs rfl rfl).elim
  | cancelScan hs ht hd => exact Or.inr ⟨hq, hl.under⟩
  | cancelDwell ht hd hw => exact Or.inr (hl.dwell hd rfl rfl hq)
  | nextChannel hd hw ht hc hn => exact Or.inr (hl.dwell hd rfl rfl hq)
  | lastChannel hd hw ht hc hn => exact Or.inr (hl.dwell hd rfl rfl hq)
  | dwellCancelled hd hw ht hc => exact Or.inr (hl.dwell hd rfl rfl hq)
  | connect hs hw hb hl' hv => exact (hl.not_state hs rfl rfl).elim
  | authenticated hs ht hb hn => exact (hl.not_state hs rfl rfl).elim
  | authenticatedLate ht hb hn => exact (hlate hn).elim
  | authenticationFailed hs hw ht hb hn => exact (hl.not_state hs rfl rfl).elim
  | associationReceived hs hw ha ht hb hch h0 h1 hn => exact (hl.not_state hs rfl rfl).elim
  | associationRejected hs hw ha ht hb h0 hn => exact (hl.not_state hs rfl rfl).elim
  | authorizePort hs ht => exact (hl.not_state hs rfl rfl).elim
  | revokeScan ht hs hr => exact Or.inr ⟨hq, Or.inl ⟨hs, nofun⟩⟩
  | revokePort ht hs =>
      have hs' : c.state = .associated ∨ c.state = .authorized := by
        simpa [Controller.linked] using hs
      rcases hs' with hs' | hs' <;> exact (hl.not_state hs' rfl rfl).elim
  | revokeTimedOut ht hn => exact (hlate hn).elim
  | disconnectIdle hs => exact (hl.not_state hs rfl rfl).elim
  | disconnectScan hs hd => exact Or.inr ⟨by simp [hq], hl.under⟩
  | disconnectDwell hd hw => exact Or.inr (hl.dwell hd rfl rfl (by simp [hq]))
  | disconnectScanClosed hs => exact Or.inr ⟨by simp [hq], hl.under⟩
  | disconnectDeferred hw hlo hhi => exact Or.inr ⟨rfl, hl.under⟩
  | disconnectNow hw hlo hhi hn => exact Or.inr ⟨rfl, Or.inr rfl⟩
  | disconnectTimedOut hn => exact (hlate hn).elim
  | tick hc => exact Or.inr ⟨hq, hl.under⟩
  | tickTimedOut hn => exact (hlate hn).elim
  | actionComplete hw ht hk hd h =>
      rcases h.leaving hS hl hw hk with h | h
      · exact Or.inl (Or.inl h)
      · exact Or.inr h
  | firmwareEvent hw he hack hdone hseq hcmd hrc hd h => exact Or.inr (h.leaving hl)

/-- What is pending between the connection and the end of a disconnect. -/
theorem Sound.underWay (hS : Sound c) (hw : c.waiting = true)
    (hlo : State.preparingAuthentication.rank ≤ c.state.rank)
    (hhi : c.state.rank ≤ State.disconnectingCam.rank) : c.state.underWay = true := by
  have hset : c.state.settled = false := by
    by_contra hset
    exact hS.not_busy rfl (by simpa using hset) hw
  cases hk : c.state <;> simp [hk, State.rank, State.settled, State.underWay] at hlo hhi hset ⊢

/-- The accepted requests the promise is about: made while an association is being installed, is up
or is being torn down, or during a scan begun from an authorized link. -/
structure Requested (r : Record) (earlier : List Record) : Prop where
  op : ∃ now, r.op = .disconnect now
  result : r.result = true
  state : (State.preparingAuthentication.rank ≤ r.before.state.rank ∧
      r.before.state.rank ≤ State.disconnectingCam.rank) ∨
    (r.before.scanning = true ∧ scanOrigin earlier = some .authorized)

theorem Requested.leaving {earlier : List Record} (hr : Requested r earlier)
    (hresumes : Resumes earlier r.before) (hS : Sound r.before)
    (hspec : Spec r.before r.op r.log r.result r.after) : Leaving r.after := by
  obtain ⟨c, op, log, ok, c'⟩ := r
  obtain ⟨⟨now, rfl⟩, rfl, hstate⟩ := hr
  have hscan : c.scanning = true → c.scanResume ≠ .idle := fun hs => by
    rcases hstate with ⟨hlo, hhi⟩ | ⟨-, horigin⟩
    · cases hk : c.state <;> simp [hk, Controller.scanning, State.rank] at hs hlo hhi
    · rcases hresumes hs with ⟨ho, -⟩ | ⟨-, hne⟩
      · exact absurd (ho.symm.trans horigin) (by decide)
      · exact hne
  have hspec : Spec c (.disconnect now) log true c' := hspec
  show Leaving c'
  rcases hspec with ⟨hf, -⟩ | hm
  · cases hf
  · cases hm with
    | disconnectIdle hs =>
        rcases hstate with ⟨hlo, -⟩ | ⟨hsc, -⟩
        · simp [hs, State.rank] at hlo
        · simp [Controller.scanning, hs, State.rank] at hsc
    | disconnectScan hs hd =>
        have hne := hscan hs
        exact ⟨by simp [hne], Or.inl ⟨hs, hne⟩⟩
    | disconnectDwell hd hw =>
        have hne := hscan (Controller.scanning_of_dwell hd)
        exact ⟨by simp [hne], Or.inl ⟨rfl, hne⟩⟩
    | disconnectDeferred hw hlo hhi =>
        refine ⟨rfl, Or.inr ?_⟩
        exact hS.underWay hw hlo hhi
    | disconnectNow hw hlo hhi hn => exact ⟨rfl, Or.inr rfl⟩
    | disconnectTimedOut hn => exact ⟨rfl, Or.inr rfl⟩

/-- The call asks for a mode in which data flows. -/
def Record.opensPort (r : Record) : Prop :=
  ∃ mode ok, .call (.setTraffic mode) ok ∈ r.log ∧ (mode = .controlledPort ∨ mode = .authorized)

/-- Nothing a call may do opens the port of an association that is on its way out. -/
theorem Leaving.not_opensPort (hl : Leaving r.before)
    (ho : Orderly (Allowed r.before r.op) r.before.key.last r.log r.after.key.last) :
    ¬ Record.opensPort r := by
  have hno : ¬ r.before.mayOpen r.op := by
    intro hmay
    cases hop : r.op with
    | authorizePort original now =>
        rw [hop] at hmay
        exact hl.not_state hmay rfl rfl
    | revokePort original now =>
        rw [hop] at hmay
        have hs' : r.before.state = .associated ∨ r.before.state = .authorized := by
          simpa [Controller.linked, Controller.mayOpen] using hmay
        rcases hs' with hs' | hs' <;> exact hl.not_state hs' rfl rfl
    | actionComplete original kind success now =>
        rw [hop] at hmay
        exact absurd (hl.requested.symm.trans hmay.2.2.1) (by decide)
    | _ =>
        rw [hop] at hmay
        exact hmay
  rintro ⟨mode, ok, he, rfl | rfl⟩
  · exact hno (ho.events _ he)
  · exact hno (ho.events _ he)

theorem Run.leaving {between earlier : List Record} (hreq : Requested r earlier) :
    ∀ {c : Controller}, Run (between ++ r :: earlier) c → (∀ y ∈ between, ¬ Record.settles y) →
      Leaving c := by
  induction between with
  | nil =>
      intro c hrun _
      obtain ⟨hbefore, rfl, hout⟩ := hrun.tail
      have hS := Run.sound hbefore
      exact hreq.leaving (Run.resumes hbefore) hS (wp_outcome (exec_spec hS r.op) hout)
  | cons y between ih =>
      intro c hrun hnot
      obtain ⟨hbefore, rfl, hout⟩ := hrun.tail
      have hS := Run.sound hbefore
      have hl := ih hbefore fun z hz => hnot z (List.mem_cons_of_mem _ hz)
      have hy := hnot y List.mem_cons_self
      rcases wp_outcome (exec_spec hS y.op) hout with ⟨-, hf⟩ | hm
      · exact absurd (Or.inr (Or.inl hf.state)) hy
      · exact (hm.leaving hS hl).resolve_left hy

theorem Record.settles.not_linked (hs : Record.settles r)
    (hm : Move r.before r.op r.log r.result r.after) :
    r.after.state ≠ .associated ∧ r.after.state ≠ .authorized := by
  rcases hs with h | h | ⟨⟨newEpoch, now, hop⟩, hok⟩
  · simp [h]
  · simp [h]
  · rw [hop, hok] at hm
    generalize r.log = log at hm
    generalize r.after = c' at hm ⊢
    cases hm with
    | restart he hlt => exact ⟨nofun, nofun⟩

/-! ## Teardown is ordered -/

def Record.connects (r : Record) : Bool := r.result && r.op matches .connect _ _

def Record.tears (r : Record) : Bool :=
  r.result &&
    match r.op with
    | .actionComplete _ .disconnectCmac _ _ => true
    | .actionComplete _ .disconnectCam _ _ => true
    | .firmwareEvent _ _ _ => r.before.state == .disconnecting
    | _ => false

/-- The steps of a teardown since the last connection, newest first. -/
def teardown : List Record → List Record
  | [] => []
  | r :: h =>
      if Record.connects r then [] else if Record.tears r then r :: teardown h else teardown h

/-- How often a trace cancels the protocol of a token. -/
def cancels (token : Token) (log : Trace) : Nat :=
  log.countP fun e =>
    match e with
    | .call (.cancelProtocol token') _ => token' == token
    | _ => false

def cancellations (token : Token) : List Record → Nat
  | [] => 0
  | r :: h => cancels token r.log + cancellations token h

section Traces

variable (token : Token) (d : Controller)

@[simp] theorem cancels_append (l l' : Trace) :
    cancels token (l ++ l') = cancels token l + cancels token l' := List.countP_append

@[simp] theorem cancels_gate : cancels token gate = 0 := rfl

@[simp] theorem cancels_paused (l : Trace) : cancels token (paused :: l) = cancels token l := rfl

@[simp] theorem cancels_note (n : Note) (l : Trace) :
    cancels token (.note n :: l) = cancels token l := rfl

@[simp] theorem cancels_actionTrace (kind : Action) (target : Channel) :
    cancels token (actionTrace d kind target) = 0 := by
  by_cases hk : kind = .scanTune <;> simp [actionTrace, hk, readChannel, cancels]

@[simp] theorem cancels_commandTrace (sequence : UInt8) (bytes : List UInt8) :
    cancels token (commandTrace d sequence bytes) = 0 := rfl

@[simp] theorem cancels_disconnectTrace : cancels d.associationToken (disconnectTrace d) = 1 := by
  have : cancels d.associationToken
      (.call (.cancelProtocol d.associationToken) true :: actionTrace d .disconnectCmac {}) = 1 := by
    simp [cancels, actionTrace]
  exact this

@[simp] theorem cancels_tuneTrace : cancels token (tuneTrace d) = 0 :=
  cancels_actionTrace token d .scanTune d.entry.channel

@[simp] theorem cancels_restoreTrace : cancels token (restoreTrace d) = 0 :=
  cancels_actionTrace token d .scanRestore d.homeChannel

@[simp] theorem cancels_dwellTrace : cancels token (dwellTrace d) = 0 := by
  cases ha : d.entry.active <;> simp [dwellTrace, ha, readChannel, paused, cancels]

end Traces

/-- The `disconnectCmac` action completed, and the join command that ends the association was sent
with this sequence. -/
def PartedCmac (sequence : UInt8) (r : Record) : Prop :=
  Completed .disconnectCmac r.before.pendingToken r ∧
    ∃ bytes token, (commandPacket r.before.interface false true sequence).1 = some bytes ∧
      .call (.publishH2c bytes token) true ∈ r.log

/-- The firmware acknowledged that join command. -/
def PartedAck (epoch : UInt64) (sequence : UInt8) (r : Record) : Prop :=
  ∃ event now ack, r.op = .firmwareEvent event epoch now ∧ r.result = true ∧
    decodeAck event = some ack ∧ ack.done = true ∧ ack.returnCode = 0 ∧ ack.command = ⟨1, 8, 0⟩ ∧
    ack.sequence = sequence

/-- No association. -/
structure Unassociated (association : Token) (requested : Bool) : Prop where
  token : association = {}
  requested : requested = false

/-- An association nobody has begun to tear down. -/
structure Intact (association : Token) (h : List Record) : Prop where
  cancelled : cancellations association h = 0
  teardown : teardown h = []

/-- How far the teardown of the association has come. -/
def Farewell (h : List Record) (c : Controller) : Prop :=
  match c.state with
  | .faulted => True
  | .preparingAuthentication | .authenticating | .installingAssociationCmac | .joining
  | .installingAssociationCam | .associated | .authorized => Intact c.associationToken h
  | .scanningBegin | .scanningTune | .scanningDwell | .scanningRestore | .scanningEnd =>
      (c.scanResume = .idle → Unassociated c.associationToken c.disconnectRequested) ∧ (c.scanResume ≠ .idle → Intact c.associationToken h)
  | .disconnectingCmac => cancellations c.associationToken h = 1 ∧ teardown h = []
  | .disconnecting =>
      cancellations c.associationToken h = 1 ∧
        ∃ cmac, teardown h = [cmac] ∧ PartedCmac c.pendingSequence cmac
  | .disconnectingCam =>
      cancellations c.associationToken h = 1 ∧
        ∃ cmac ack sequence, teardown h = [ack, cmac] ∧ PartedCmac sequence cmac ∧
          PartedAck c.epoch.epoch sequence ack
  | _ => Unassociated c.associationToken c.disconnectRequested

variable {x : Record} {d : Controller}

/-- The call is neither a connection nor a step of a teardown. -/
structure Aside (x : Record) : Prop where
  connects : Record.connects x = false
  tears : Record.tears x = false

theorem Aside.teardown (hx : Aside x) : teardown (x :: h) = teardown h := by
  simp [Station.teardown, hx.connects, hx.tears]

theorem Intact.cons {t : Token} (hx : Aside x) (hz : cancels t x.log = 0) (hi : Intact t h) :
    Intact t (x :: h) :=
  ⟨by rw [cancellations, hz, hi.cancelled], by rw [hx.teardown, hi.teardown]⟩

theorem Farewell.keep (hx : Aside x) (hz : cancels c.associationToken x.log = 0)
    (hf : Farewell h c) : Farewell (x :: h) c := by
  have hcount : cancellations c.associationToken (x :: h) = cancellations c.associationToken h := by
    rw [cancellations, hz, Nat.zero_add]
  cases hs : c.state <;> simp only [Farewell, hs] at hf ⊢
  case preparingAuthentication | authenticating | installingAssociationCmac | joining |
      installingAssociationCam | associated | authorized => exact hf.cons hx hz
  case scanningBegin | scanningTune | scanningDwell | scanningRestore | scanningEnd =>
    exact ⟨hf.1, fun hr => (hf.2 hr).cons hx hz⟩
  case disconnectingCmac | disconnecting | disconnectingCam =>
    rw [hcount, hx.teardown]
    exact hf
  all_goals exact hf

theorem Farewell.underWay (hf : Farewell h c) (hu : c.state.underWay = true)
    (hs : d.state = c.state) (ht : d.associationToken = c.associationToken)
    (hseq : d.pendingSequence = c.pendingSequence) (he : d.epoch = c.epoch) : Farewell h d := by
  cases hk : c.state <;> simp [hk, State.underWay] at hu <;>
    simp only [Farewell, hs, hk, ht, hseq, he] at hf ⊢ <;> exact hf

theorem Intact.parting (hi : Intact c.associationToken h) (hx : Aside x) (hs : d.state = .disconnectingCmac)
    (ht : d.associationToken = c.associationToken) (hone : cancels c.associationToken x.log = 1) :
    Farewell (x :: h) d := by
  simp [Farewell, hs, ht, cancellations, hone, hi.cancelled, hx.teardown, hi.teardown]

/-- The association of a state in which one is up or being installed. -/
theorem Farewell.intact (hf : Farewell h c) {state : State} (hs : c.state = state)
    (hup : state ∈ [State.preparingAuthentication, .authenticating, .installingAssociationCmac,
      .joining, .installingAssociationCam, .associated, .authorized]) : Intact c.associationToken h := by
  subst hs
  cases hs : c.state <;> simp only [Farewell, hs] at hf hup ⊢ <;> first | exact hf | simp at hup

theorem Farewell.scan (hf : Farewell h c) (hs : c.scanning = true) :
    (c.scanResume = .idle → Unassociated c.associationToken c.disconnectRequested) ∧ (c.scanResume ≠ .idle → Intact c.associationToken h) := by
  cases hk : c.state <;> simp [Controller.scanning, hk, State.rank] at hs <;>
    simpa only [Farewell, hk] using hf

theorem farewell_scanning (hs : d.scanning = true) (hno : d.scanResume = .idle → Unassociated d.associationToken d.disconnectRequested)
    (hi : d.scanResume ≠ .idle → Intact d.associationToken h) : Farewell h d := by
  cases hk : d.state <;> simp [Controller.scanning, hk, State.rank] at hs <;>
    simp only [Farewell, hk] <;> exact ⟨hno, hi⟩

theorem Farewell.scanned (hf : Farewell h c) (hsc : c.scanning = true) (hx : Aside x)
    (hz : cancels c.associationToken x.log = 0) (hs : d.scanning = true)
    (hr : d.scanResume = c.scanResume) (ht : d.associationToken = c.associationToken)
    (hq : c.scanResume = .idle → d.disconnectRequested = c.disconnectRequested) :
    Farewell (x :: h) d := by
  obtain ⟨hno, hi⟩ := hf.scan hsc
  refine farewell_scanning hs (fun hidle => ?_) fun hne => ?_
  · rw [hr] at hidle
    exact ⟨ht.trans (hno hidle).token, (hq hidle).trans (hno hidle).requested⟩
  · rw [hr] at hne
    have := (hi hne).cons hx hz
    exact ⟨by rw [ht]; exact this.cancelled, this.teardown⟩

theorem Completion.farewell {kind : Action} {now : UInt64} (hS : Sound c) (hf : Farewell h c)
    (hw : c.waitingAction = true) (hk : kind = c.pendingAction)
    (hx : x.op = .actionComplete c.pendingToken kind true now ∧ x.result = true ∧
      x.log = gate ++ log ∧ x.before = c)
    (hm : Completion { c.clocked now with waitingAction := false } kind log c') :
    Farewell (x :: h) c' := by
  have hstate : c.state = kind.state := by rw [(hS.action hw).2, hk]
  obtain ⟨hop, hok, hlog, rfl⟩ := hx
  have haside : kind ≠ .disconnectCmac → kind ≠ .disconnectCam → Aside x := fun h1 h2 => by
    constructor
    · simp [Record.connects, hop]
    · cases kind <;> simp_all [Record.tears]
  have hscanned : ∀ {d : Controller}, kind ≠ .disconnectCmac → kind ≠ .disconnectCam →
      x.before.scanning = true → cancels x.before.associationToken x.log = 0 → d.scanning = true →
      d.scanResume = x.before.scanResume → d.associationToken = x.before.associationToken →
      d.disconnectRequested = x.before.disconnectRequested → Farewell (x :: h) d :=
    fun h1 h2 hsc hz hs hr ht hq => hf.scanned hsc (haside h1 h2) hz hs hr ht fun _ => hq
  have hunassociated : ∀ {state : State}, kind.state = state →
      state ∈ [State.preparing, .installingIdle, .removingCam] → Unassociated x.before.associationToken x.before.disconnectRequested := by
    intro state hk' hmem
    rw [hk'] at hstate
    cases state <;> simp at hmem <;> simpa only [Farewell, hstate] using hf
  cases hm with
  | interfacePrepared hb =>
      have := hunassociated rfl (by decide)
      exact ⟨this.token, this.requested⟩
  | idleInstalled =>
      have := hunassociated rfl (by decide)
      exact ⟨this.token, this.requested⟩
  | scanBegun hc =>
      exact hscanned nofun nofun (hS.scanning_of_pending hw hk rfl) (by simp [hlog]) rfl rfl rfl rfl
  | scanBegunCancelled hc =>
      exact hscanned nofun nofun (hS.scanning_of_pending hw hk rfl) (by simp [hlog]) rfl rfl rfl rfl
  | tuned hc =>
      exact hscanned nofun nofun (hS.scanning_of_pending hw hk rfl) (by simp [hlog]) rfl rfl rfl rfl
  | tunedCancelled hc =>
      exact hscanned nofun nofun (hS.scanning_of_pending hw hk rfl) (by simp [hlog]) rfl rfl rfl rfl
  | scanRestored =>
      exact hscanned nofun nofun (hS.scanning_of_pending hw hk rfl) (by simp [hlog]) rfl rfl rfl rfl
  | scanEnded hd =>
      have hs := hS.scanning_of_pending hw hk rfl
      obtain ⟨hno, hi⟩ := hf.scan hs
      have hz : cancels x.before.associationToken x.log = 0 := by rw [hlog]; rfl
      rcases hS.resume hs with hr | hr | hr
      · simp only [Farewell, hr, Controller.clocked_scanResume]
        exact ⟨(hno hr).token, (hno hr).requested⟩
      · have := (hi (by simp [hr])).cons (haside nofun nofun) hz
        simp only [Farewell, hr, Controller.clocked_scanResume]
        exact ⟨this.cancelled, this.teardown⟩
      · have := (hi (by simp [hr])).cons (haside nofun nofun) hz
        simp only [Farewell, hr, Controller.clocked_scanResume]
        exact ⟨this.cancelled, this.teardown⟩
  | scanEndedLeaving hd =>
      have hs := hS.scanning_of_pending hw hk rfl
      obtain ⟨hno, hi⟩ := hf.scan hs
      have hr : x.before.scanResume ≠ .idle := fun hr =>
        absurd ((hno hr).requested.symm.trans hd) (by decide)
      refine (hi hr).parting (haside nofun nofun) rfl rfl ?_
      rw [hlog]
      exact cancels_disconnectTrace x.before
  | authenticationPrepared hd =>
      have := (hf.intact hstate (by decide)).cons (haside nofun nofun) (by rw [hlog]; rfl)
      exact ⟨this.cancelled, this.teardown⟩
  | authenticationPreparedLeaving hd =>
      refine (hf.intact hstate (by decide)).parting (haside nofun nofun) rfl rfl ?_
      rw [hlog]
      exact cancels_disconnectTrace x.before
  | cmacInstalled hd hb =>
      have := (hf.intact hstate (by decide)).cons (haside nofun nofun) (by rw [hlog]; rfl)
      exact ⟨this.cancelled, this.teardown⟩
  | cmacInstalledLeaving hd =>
      refine (hf.intact hstate (by decide)).parting (haside nofun nofun) rfl rfl ?_
      rw [hlog]
      exact cancels_disconnectTrace x.before
  | camInstalled hd =>
      have := (hf.intact hstate (by decide)).cons (haside nofun nofun) (by rw [hlog]; rfl)
      exact ⟨this.cancelled, this.teardown⟩
  | camInstalledLeaving hd =>
      refine (hf.intact hstate (by decide)).parting (haside nofun nofun) rfl rfl ?_
      rw [hlog]
      exact cancels_disconnectTrace x.before
  | @partedCmac sequence bytes hb =>
      have hz : cancels x.before.associationToken x.log = 0 := by rw [hlog]; rfl
      have hc : Record.connects x = false := by simp [Record.connects, hop]
      have ht : Record.tears x = true := by simp [Record.tears, hop, hok]
      simp only [Farewell, hstate, Action.state] at hf
      refine ⟨?_, x, ?_, ⟨now, hop, hok⟩, bytes, x.before.nextToken, hb, ?_⟩
      · rw [cancellations]
        exact (congrArg (· + _) hz).trans ((Nat.zero_add _).trans hf.1)
      · simp [teardown, hc, ht, hf.2]
      · rw [hlog]
        simp [commandTrace, Controller.nextToken]
  | partedCam => exact ⟨rfl, rfl⟩
  | camRemoved =>
      have := hunassociated rfl (by decide)
      exact ⟨this.token, this.requested⟩

theorem Acknowledged.farewell {event : FirmwareEvent} {now : UInt64} {ack : FirmwareAck}
    (hS : Sound c) (hf : Farewell h c) (hw : c.waitingCommand = true)
    (hx : x.op = .firmwareEvent event c.epoch.epoch now ∧ x.result = true ∧ x.log = gate ++ log ∧
      x.before = c)
    (hack : decodeAck event = some ack) (hdone : ack.done = true)
    (hseq : ack.sequence = c.pendingSequence) (hcmd : ack.command = c.pendingCommand)
    (hrc : ack.returnCode = 0)
    (hm : Acknowledged { c.clocked now with waitingCommand := false } log c') :
    Farewell (x :: h) c' := by
  obtain ⟨hop, hok, hlog, rfl⟩ := hx
  have hconnects : Record.connects x = false := by simp [Record.connects, hop]
  have haside : ∀ {state : State}, x.before.state = state → state ≠ .disconnecting → Aside x :=
    fun hs hne => ⟨hconnects, by simp [Record.tears, hop, hs, hne]⟩
  cases hm with
  | roleCreated hs hb =>
      have hs' : x.before.state = .creatingRole := hs
      simp only [Farewell, hs'] at hf
      exact ⟨hf.token, hf.requested⟩
  | noLink hs =>
      have hs' : x.before.state = .initialNoLink := hs
      simp only [Farewell, hs'] at hf
      exact ⟨hf.token, hf.requested⟩
  | joined hs hd =>
      have := (hf.intact hs (by decide)).cons (haside hs nofun) (by simp [hlog])
      exact ⟨this.cancelled, this.teardown⟩
  | joinedLeaving hs hd =>
      refine (hf.intact hs (by decide)).parting (haside hs nofun) rfl rfl ?_
      rw [hlog]
      exact cancels_disconnectTrace x.before
  | left hs =>
      have hs' : x.before.state = .disconnecting := hs
      have hz : cancels x.before.associationToken x.log = 0 := by simp [hlog]
      have ht : Record.tears x = true := by simp [Record.tears, hop, hok, hs']
      have hjoin : ack.command = ⟨1, 8, 0⟩ := by
        have hid := hS.command hw
        rw [hs'] at hid
        rw [hcmd]
        exact (Option.some.inj hid).symm
      simp only [Farewell, hs'] at hf
      obtain ⟨hone, cmac, htear, hparted⟩ := hf
      refine ⟨?_, cmac, x, x.before.pendingSequence, ?_, hparted,
        event, now, ack, hop, hok, hack, hdone, hrc, hjoin, hseq⟩
      · rw [cancellations]
        exact (congrArg (· + _) hz).trans ((Nat.zero_add _).trans hone)
      · simp [teardown, hconnects, ht, htear]
  | roleRemoved hs =>
      have hs' : x.before.state = .removingRole := hs
      simp only [Farewell, hs'] at hf
      exact ⟨hf.token, hf.requested⟩

theorem Move.farewell (hS : Sound c) (hf : Farewell h c)
    (hnew : .note (.issued c.nextToken) ∈ log → cancellations c.nextToken h = 0)
    (hm : Move c op log ok c') : Farewell (⟨c, op, log, ok, c'⟩ :: h) c' := by
  have hunassociated : c.state = .stopped ∨ c.state = .idle →
      Unassociated c.associationToken c.disconnectRequested := by
    rintro (hs | hs) <;> simpa only [Farewell, hs] using hf
  have hlate : ∀ {now}, c.timedOut now → Intact c.associationToken h := fun hn => hf.intact hn.2.1 (by decide)
  have hdwelt : ∀ {x : Record} {d : Controller}, c.state = .scanningDwell → Aside x →
      cancels c.associationToken x.log = 0 → d.scanning = true → d.scanResume = c.scanResume →
      d.associationToken = c.associationToken →
      (c.scanResume = .idle → d.disconnectRequested = c.disconnectRequested) →
      Farewell (x :: h) d := fun hd hx hz hs hr ht hq =>
    hf.scanned (Controller.scanning_of_dwell hd) hx hz hs hr ht hq
  cases hm with
  | closed => exact hf.keep ⟨rfl, rfl⟩ rfl
  | refused hc => exact hf.keep ⟨rfl, rfl⟩ rfl
  | restartUnverified => exact hf.keep ⟨rfl, rfl⟩ rfl
  | restartUnpaused => exact hf.keep ⟨rfl, rfl⟩ rfl
  | restart he hlt => exact ⟨rfl, rfl⟩
  | start hs hw he ha =>
      have := hunassociated (Or.inl hs)
      exact ⟨this.token, this.requested⟩
  | stop hs hw hb =>
      have := hunassociated (Or.inr hs)
      exact ⟨this.token, this.requested⟩
  | scan hs hw hlen hmax hall =>
      refine farewell_scanning rfl (fun hr => ?_) fun hr => ?_
      · have := hunassociated (Or.inr hr)
        exact ⟨this.token, this.requested⟩
      · rcases hs with hs | hs
        · exact absurd hs hr
        · exact (hf.intact hs (by decide)).cons ⟨rfl, rfl⟩ (by simp)
  | cancelScan hs ht hd => exact hf.keep ⟨rfl, rfl⟩ rfl
  | cancelDwell ht hd hw =>
      exact hdwelt hd ⟨rfl, rfl⟩ (by simp) rfl rfl rfl fun _ => rfl
  | nextChannel hd hw ht hc hn => exact hdwelt hd ⟨rfl, rfl⟩ (by simp) rfl rfl rfl fun _ => rfl
  | lastChannel hd hw ht hc hn => exact hdwelt hd ⟨rfl, rfl⟩ (by simp) rfl rfl rfl fun _ => rfl
  | dwellCancelled hd hw ht hc => exact hdwelt hd ⟨rfl, rfl⟩ (by simp) rfl rfl rfl fun _ => rfl
  | connect hs hw hb hl hv =>
      refine ⟨?_, by simp [teardown, Record.connects]⟩
      have := hnew (by simp)
      simpa [cancellations, Controller.nextToken] using this
  | authenticated hs ht hb hn => exact hf.keep ⟨rfl, rfl⟩ rfl
  | authenticatedLate ht hb hn =>
      refine (hlate hn).parting ⟨rfl, rfl⟩ rfl rfl ?_
      exact cancels_disconnectTrace ((c.clocked _).leaving .timeout)
  | authenticationFailed hs hw ht hb hn =>
      refine (hf.intact hs (by decide)).parting ⟨rfl, rfl⟩ rfl rfl ?_
      exact cancels_disconnectTrace ((c.clocked _).leaving .authentication)
  | associationReceived hs hw ha ht hb hch h0 h1 hn =>
      exact (hf.intact hs (by decide)).cons ⟨rfl, rfl⟩ (by simp)
  | associationRejected hs hw ha ht hb h0 hn =>
      refine (hf.intact hs (by decide)).parting ⟨rfl, rfl⟩ rfl rfl ?_
      exact cancels_disconnectTrace ((c.clocked _).leaving .association)
  | authorizePort hs ht =>
      exact (hf.intact hs (by decide)).cons ⟨rfl, rfl⟩ rfl
  | revokeScan ht hs hr =>
      obtain ⟨-, hi⟩ := hf.scan hs
      refine farewell_scanning hs nofun fun _ => ?_
      exact (hi hr).cons ⟨rfl, rfl⟩ rfl
  | revokePort ht hs =>
      have hs' : c.state = .associated ∨ c.state = .authorized := by
        simpa [Controller.linked] using hs
      have hi : Intact c.associationToken h := by
        rcases hs' with hs' | hs' <;> exact hf.intact hs' (by decide)
      exact hi.cons ⟨rfl, rfl⟩ rfl
  | revokeTimedOut ht hn =>
      refine (hlate hn).parting ⟨rfl, rfl⟩ rfl rfl ?_
      exact cancels_disconnectTrace ((c.clocked _).leaving .timeout)
  | disconnectIdle hs => exact hf.keep ⟨rfl, rfl⟩ rfl
  | disconnectScan hs hd =>
      exact hf.scanned hs ⟨rfl, rfl⟩ rfl hs rfl rfl fun hr => by simp [hr]
  | disconnectDwell hd hw =>
      exact hdwelt hd ⟨rfl, rfl⟩ (by simp) rfl rfl rfl fun hr => by simp [hr]
  | disconnectScanClosed hs =>
      exact hf.scanned hs ⟨rfl, rfl⟩ rfl hs rfl rfl fun hr => by simp [hr]
  | disconnectDeferred hw hlo hhi =>
      exact (hf.keep ⟨rfl, rfl⟩ rfl).underWay (hS.underWay hw hlo hhi) rfl rfl rfl rfl
  | @disconnectNow now hw hlo hhi hn =>
      have hset := hS.settled hw
      have hi : Intact c.associationToken h := by
        cases hs : c.state <;> simp [hs, State.rank, State.settled] at hlo hhi hset <;>
          exact hf.intact hs (by decide)
      refine hi.parting ⟨rfl, rfl⟩ rfl rfl ?_
      exact cancels_disconnectTrace { c.clocked now with disconnectRequested := true }
  | @disconnectTimedOut now hn =>
      refine (hlate hn).parting ⟨rfl, rfl⟩ rfl rfl ?_
      have hone := cancels_disconnectTrace ((c.clocked now).leaving .timeout)
      have hlog : cancels c.associationToken
          (disconnectTrace ((c.clocked now).leaving .timeout) ++ [paused]) = 1 := by
        rw [cancels_append]
        exact congrArg (· + 0) hone
      exact hlog
  | tick hc => exact hf.keep ⟨rfl, rfl⟩ rfl
  | tickTimedOut hn =>
      refine (hlate hn).parting ⟨rfl, rfl⟩ rfl rfl ?_
      exact cancels_disconnectTrace ((c.clocked _).leaving .timeout)
  | actionComplete hw ht hk hd h =>
      exact h.farewell hS hf hw hk ⟨by rw [ht], rfl, rfl, rfl⟩
  | firmwareEvent hw he hack hdone hseq hcmd hrc hd h =>
      exact h.farewell hS hf hw ⟨by rw [he], rfl, rfl, rfl⟩ hack hdone hseq hcmd hrc

/-! ## Tokens are cancelled under their own association only -/

/-- What `hnew` of `Move.farewell` needs: the tokens cancelled so far, and the one that may be
cancelled next, were handed out before. -/
structure Known (h : List Record) (c : Controller) : Prop where
  cancelled : ∀ t, cancellations t h ≠ 0 → t.stamp ≤ c.key.last.stamp
  association : c.state ≠ .faulted → c.associationToken.stamp ≤ c.key.last.stamp

theorem Move.associationToken (hm : Move c op log ok c') :
    c'.associationToken = c.associationToken ∨ c'.associationToken = {} ∨
      (c'.associationToken = c.nextToken ∧ c.nextToken ∈ tokens log) := by
  cases hm with
  | restart he hlt => exact Or.inr (Or.inl rfl)
  | connect hs hw hb hl hv => exact Or.inr (Or.inr ⟨rfl, List.mem_cons_self⟩)
  | actionComplete hw ht hk hd h =>
      cases h with
      | partedCam => exact Or.inr (Or.inl rfl)
      | _ => exact Or.inl rfl
  | firmwareEvent hw he hack hdone hseq hcmd hrc hd h => cases h <;> exact Or.inl rfl
  | _ => exact Or.inl rfl

theorem Move.latched (hS : Sound c) (hc : c.state = .faulted) (hm : Move c op log ok c') :
    c'.state = .faulted ∨ c'.associationToken = {} := by
  obtain ⟨ha, hw⟩ := Controller.waiting_eq_false (hS.not_waiting (by simp [hc, State.settled]))
  cases hm <;> first
    | exact Or.inl hc
    | exact Or.inr rfl
    | simp_all [Controller.linked, Controller.timedOut, State.rank]

theorem cancels_ne_zero {t : Token} (hc : cancels t log ≠ 0) :
    ∃ ok, .call (.cancelProtocol t) ok ∈ log := by
  obtain ⟨e, he, heq⟩ := List.countP_pos_iff.1 (Nat.pos_of_ne_zero hc)
  split at heq
  · obtain rfl := eq_of_beq heq
    exact ⟨_, he⟩
  · cases heq

theorem Run.known (hrun : Run h c) : Known h c := by
  refine Interaction.Run.invariant (P := Known) ⟨fun t ht => absurd rfl ht, fun _ => le_rfl⟩ ?_ hrun
  intro h c c' op log ok hrun ih hout
  have hS := Run.sound hrun
  have ho := wp_outcome (exec_orderly c hS op) hout
  refine ⟨fun t ht => ?_, fun hc' => ?_⟩
  · by_cases hlog : cancels t log = 0
    · refine (ih.cancelled t ?_).trans ho.issues.le
      simpa [cancellations, hlog] using ht
    · obtain ⟨reply, he⟩ := cancels_ne_zero hlog
      obtain ⟨rfl, hc⟩ := ho.events _ he
      exact (ih.association hc).trans ho.issues.le
  · rcases wp_outcome (exec_spec hS op) hout with ⟨-, hf⟩ | hm
    · exact absurd hf.state hc'
    · rcases hm.associationToken with ht | ht | ⟨ht, hmem⟩
      · rw [ht]
        by_cases hc : c.state = .faulted
        · rcases hm.latched hS hc with h | h
          · exact absurd h hc'
          · rw [← ht, h]
            exact bot_le
        · exact (ih.association hc).trans ho.issues.le
      · rw [ht]
        exact bot_le
      · rw [ht]
        exact (ho.issues.between _ hmem).2

theorem Run.farewell (hrun : Run h c) : Farewell h c := by
  have hinitial : Farewell [] {} := ⟨rfl, rfl⟩
  refine Interaction.Run.invariant hinitial ?_ hrun
  intro h c c' op log ok hrun hf hout
  have hS := Run.sound hrun
  have ho := wp_outcome (exec_orderly c hS op) hout
  rcases wp_outcome (exec_spec hS op) hout with ⟨-, hfault⟩ | hm
  · simp only [Farewell, hfault.state]
  · refine hm.farewell hS hf fun hnote => ?_
    by_contra hcancelled
    have hmem : c.nextToken ∈ tokens log := List.mem_filterMap.2 ⟨_, hnote, rfl⟩
    have hle := (Run.known hrun).cancelled _ hcancelled
    exact absurd hle (not_le_of_gt (ho.issues.between _ hmem).1)

/-! ## The theorem -/

/-- `x` ends the association: the three steps of the teardown since its connection are `x` and two
earlier calls, in this order, its protocol was cancelled once, and nothing of it is left. -/
structure Parted (x : Record) (earlier : List Record) : Prop where
  steps : ∃ cmac ack sequence, teardown (x :: earlier) = [x, ack, cmac] ∧
    PartedCmac sequence cmac ∧ PartedAck x.before.epoch.epoch sequence ack ∧
    Completed .disconnectCam x.before.pendingToken x
  cancelled : cancellations x.before.associationToken (x :: earlier) = 1
  associationToken : x.after.associationToken = {}
  peer : x.after.peer = {}
  association : x.after.association = {}
  authenticated : x.after.authenticated = false
  disconnectRequested : x.after.disconnectRequested = false

theorem Completion.parted {earlier : List Record} {kind : Action} {now : UInt64}
    (hS : Sound x.before) (hf : Farewell earlier x.before) (hw : x.before.waitingAction = true)
    (hk : kind = x.before.pendingAction)
    (hx : x.op = .actionComplete x.before.pendingToken kind true now ∧ x.result = true ∧
      x.log = gate ++ log ∧ x.after = c')
    (htoken : x.before.associationToken ≠ {}) (hidle : c'.state = .idle)
    (hm : Completion { x.before.clocked now with waitingAction := false } kind log c') :
    Parted x earlier := by
  have hstate : x.before.state = kind.state := by rw [(hS.action hw).2, hk]
  obtain ⟨hop, hok, hlog, hafter⟩ := hx
  cases hm with
  | idleInstalled =>
      simp only [Farewell, hstate, Action.state] at hf
      exact absurd hf.token htoken
  | scanEnded hd =>
      have hs := hS.scanning_of_pending hw hk rfl
      exact absurd ((hf.scan hs).1 hidle).token htoken
  | partedCam =>
      have hz : cancels x.before.associationToken x.log = 0 := by rw [hlog]; rfl
      have hc : Record.connects x = false := by simp [Record.connects, hop]
      have ht : Record.tears x = true := by simp [Record.tears, hop, hok]
      simp only [Farewell, hstate, Action.state] at hf
      obtain ⟨hone, cmac, ack, sequence, htear, hcmac, hack⟩ := hf
      refine ⟨⟨cmac, ack, sequence, ?_, hcmac, hack, now, hop, hok⟩, ?_, ?_, ?_, ?_, ?_, ?_⟩
      · simp [teardown, hc, ht, htear]
      · rw [cancellations, hz, hone]
      all_goals rw [hafter]
  | _ => cases hidle

theorem Move.parted {earlier : List Record} (hS : Sound c) (hf : Farewell earlier c)
    (htoken : c.associationToken ≠ {}) (hidle : c'.state = .idle) (hm : Move c op log ok c') :
    Parted ⟨c, op, log, ok, c'⟩ earlier := by
  have hnot : c.state ≠ .idle := fun hs => by
    simp only [Farewell, hs] at hf
    exact htoken hf.token
  cases hm with
  | actionComplete hw ht hk hd h =>
      exact h.parted hS hf hw hk ⟨by rw [ht], rfl, rfl, rfl⟩ htoken hidle
  | firmwareEvent hw he hack hdone hseq hcmd hrc hd h => cases h <;> cases hidle
  | disconnectIdle hs => exact absurd hs hnot
  | _ => first | exact absurd hidle hnot | cases hidle

/-- Over every run: from an accepted disconnect to the end of the association no call leads to a
link or opens the port; and whenever an association ends in `idle`, it ends through one completed
`disconnectCmac`, one acknowledged join command and one completed `disconnectCam`, in this order,
with one cancelled protocol, and leaves nothing behind. -/
theorem disconnect_is_kept (hrun : Run h c) :
    (∀ {later between earlier : List Record} {x r : Record},
      h = later ++ x :: (between ++ r :: earlier) → Requested r earlier →
      (∀ y ∈ between, ¬ Record.settles y) →
        (x.after.state ≠ .associated ∧ x.after.state ≠ .authorized) ∧ ¬ Record.opensPort x) ∧
    (∀ {later earlier : List Record} {x : Record}, h = later ++ x :: earlier →
      x.before.associationToken ≠ {} → x.after.state = .idle → Parted x earlier) := by
  refine ⟨fun {later between earlier x r} hh hreq hnot => ?_,
    fun {later earlier x} hh htoken hidle => ?_⟩
  · subst hh
    obtain ⟨hbefore, -, hout⟩ := (Interaction.Run.drop hrun).tail
    have hS := Run.sound hbefore
    have hl := Run.leaving hreq hbefore hnot
    have hspec := wp_outcome (exec_spec hS x.op) hout
    refine ⟨?_, hl.not_opensPort (wp_outcome (exec_orderly x.before hS x.op) hout)⟩
    rcases hspec with ⟨-, hf⟩ | hm
    · simp [hf.state]
    · rcases hm.leaving hS hl with hs | hl'
      · exact Record.settles.not_linked (r := x) hs hm
      · exact hl'.not_linked
  · subst hh
    obtain ⟨hbefore, -, hout⟩ := (Interaction.Run.drop hrun).tail
    have hS := Run.sound hbefore
    rcases wp_outcome (exec_spec hS x.op) hout with ⟨-, hf⟩ | hm
    · exact absurd (hidle.symm.trans hf.state) nofun
    · exact hm.parted hS (Run.farewell hbefore) htoken hidle

/-- Disconnecting from an associated link, down to `idle`. -/
def linkDown : List Op :=
  linkUp ++
    [.disconnect 13, .actionComplete ⟨1, 10⟩ .disconnectCmac true 14,
      .firmwareEvent (doneAck 0 3) 1 15, .actionComplete ⟨1, 12⟩ .disconnectCam true 16]

/-- There the request is kept by the next three calls, and the last of them ends the association. -/
theorem disconnect_is_kept_linkDown :
    ∃ later between earlier x r, history linkDown = later ++ x :: (between ++ r :: earlier) ∧
      Requested r earlier ∧ ¬ Record.opensPort x ∧ Parted x (between ++ r :: earlier) := by
  have hsplit : history linkDown = [] ++ (history linkDown)[0] ::
      ([(history linkDown)[1], (history linkDown)[2]] ++
        (history linkDown)[3] :: (history linkDown).drop 4) := rfl
  have hreq : Requested (history linkDown)[3] ((history linkDown).drop 4) :=
    ⟨⟨13, rfl⟩, rfl, Or.inl (by decide +kernel)⟩
  have hnot : ∀ y ∈ [(history linkDown)[1], (history linkDown)[2]], ¬ Record.settles y := by
    intro y hy
    simp only [List.mem_cons, List.not_mem_nil, or_false] at hy
    rcases hy with rfl | rfl <;> rintro (h | h | ⟨⟨_, _, h⟩, -⟩) <;> revert h
    · decide +kernel
    · decide +kernel
    · nofun
    · decide +kernel
    · decide +kernel
    · nofun
  have hrun := run_history linkDown
  exact ⟨_, _, _, _, _, hsplit, hreq, ((disconnect_is_kept hrun).1 hsplit hreq hnot).2,
    (disconnect_is_kept hrun).2 hsplit (by decide +kernel) (by decide +kernel)⟩

end Station
end Rtl8852be
