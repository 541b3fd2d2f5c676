import Rtl8852be.Station.Run

/-!
# Authorization — there is no shortcut into an associated state

The controller opens the controlled port only at the end of a fixed chain of events: the connection,
the authentication, the association, its two tables and the join command.  `Chain` says, for every
state on the way, which milestones have been passed since the connection that created the current
association token, and with which tokens; each move either passes the next one or leaves the chain.
-/

namespace Rtl8852be
namespace Station

open Interaction Network

variable {c c' : Controller} {op : Op} {log : Trace} {ok : Bool} {h : List Record}

/-! ## Milestones -/

/-- The call began the action `kind` under this token. -/
def Record.began (kind : Action) (token : Token) (r : Record) : Prop :=
  ∃ request, .call (.beginAction request) true ∈ r.log ∧ request.action = kind ∧
    request.token = token

/-- `connect` was accepted for this peer and created this association token. -/
def Connected (association : Token) (peer : Peer) (pending : Token) (r : Record) : Prop :=
  ∃ now, r.op = .connect peer now ∧ r.result = true ∧ r.after.associationToken = association ∧
    Record.began .prepareAuthentication pending r

/-- The action completed successfully, under the token it was begun with. -/
def Completed (kind : Action) (pending : Token) (r : Record) : Prop :=
  ∃ now, r.op = .actionComplete pending kind true now ∧ r.result = true

def Authenticated (association : Token) (peer : Peer) (r : Record) : Prop :=
  ∃ now, r.op = .authenticated association peer.bssid true now ∧ r.result = true

def AssociationReceived (association : Token) (peer : Peer) (pending : Token) (r : Record) : Prop :=
  ∃ answer now, r.op = .associationReceived association answer now ∧ r.result = true ∧
    answer.bssid = peer.bssid ∧ answer.channel = peer.channel ∧ 1 ≤ answer.aid ∧
    answer.aid ≤ 2007 ∧ Record.began .associationCmac pending r

/-- The call reserved this H2C sequence. -/
def Record.reserved (sequence : UInt8) (r : Record) : Prop :=
  .call .reserveH2cSequence (some sequence) ∈ r.log

/-- The firmware acknowledged the join command that was sent with this sequence. -/
def Joined (epoch : UInt64) (sequence : UInt8) (pending : Token) (r : Record) : Prop :=
  ∃ event now ack, r.op = .firmwareEvent event epoch now ∧ r.result = true ∧
    decodeAck event = some ack ∧ ack.done = true ∧ ack.returnCode = 0 ∧ ack.command = ⟨1, 8, 0⟩ ∧
    ack.sequence = sequence ∧ Record.began .associationCam pending r

def PortAuthorized (association : Token) (r : Record) : Prop :=
  ∃ now, r.op = .authorizePort association now ∧ r.result = true

def Revoked (r : Record) : Prop := ∃ token now, r.op = .revokePort token now ∧ r.result = true

/-- The call did not restart the controller and did not complete a `disconnectCam` action. -/
structure Unbroken (r : Record) : Prop where
  restart : ∀ epoch now, r.op = .restart epoch now → r.result = false
  disconnectCam : ∀ token success now, r.op = .actionComplete token .disconnectCam success now →
    r.before.waitingAction = true → r.before.pendingAction ≠ .disconnectCam

/-- The milestones of an association, newest first.  The tokens and the sequence tie each completion
to the call that asked for it. -/
def milestones (association : Token) (peer : Peer) (epoch : UInt64) (prepare cmac cam : Token)
    (sequence : UInt8) : List (Record → Prop) :=
  [Completed .associationCam cam,
    Joined epoch sequence cam,
    fun r => Completed .associationCmac cmac r ∧ Record.reserved sequence r,
    AssociationReceived association peer cmac,
    Authenticated association peer,
    Completed .prepareAuthentication prepare,
    Connected association peer prepare]

/-- The first `n` milestones have been passed, with nothing in between that breaks the chain. -/
def Passed (n : Nat) (prepare cmac cam : Token) (sequence : UInt8) (h : List Record)
    (c : Controller) : Prop :=
  Trail Unbroken
    ((milestones c.associationToken c.peer c.epoch.epoch prepare cmac cam sequence).drop (7 - n)) h

def Linked (h : List Record) (c : Controller) : Prop :=
  ∃ prepare cmac cam sequence,
    Trail Unbroken
      (milestones c.associationToken c.peer c.epoch.epoch prepare cmac cam sequence) h

/-! ## The chain -/

def Chain (h : List Record) (c : Controller) : Prop :=
  ∃ prepare cmac cam sequence,
    match c.state with
    | .preparingAuthentication =>
        c.authenticated = false ∧ c.pendingToken = prepare ∧ Passed 1 prepare cmac cam sequence h c
    | .authenticating =>
        Passed (if c.authenticated then 3 else 2) prepare cmac cam sequence h c
    | .installingAssociationCmac =>
        c.pendingToken = cmac ∧ Passed 4 prepare cmac cam sequence h c
    | .joining => c.pendingSequence = sequence ∧ Passed 5 prepare cmac cam sequence h c
    | .installingAssociationCam =>
        c.pendingToken = cam ∧ Passed 6 prepare cmac cam sequence h c
    | .associated | .authorized => Passed 7 prepare cmac cam sequence h c
    | .scanningBegin | .scanningTune | .scanningDwell | .scanningRestore | .scanningEnd =>
        c.scanResume ≠ .idle → Passed 7 prepare cmac cam sequence h c
    | _ => True

/-- The port is open, or will be when the scan is over. -/
def Controller.opened (c : Controller) : Prop :=
  c.state = .authorized ∨ (c.scanning = true ∧ c.scanResume = .authorized)

/-- The port of an open link was authorized, at the end of the chain, and not revoked since. -/
def PortChain (h : List Record) (c : Controller) : Prop :=
  c.opened →
    Since (fun r => Unbroken r ∧ ¬ Revoked r)
      (fun r earlier => PortAuthorized c.associationToken r ∧ Linked earlier c) h

variable {x : Record}

theorem Passed.cons {n : Nat} {prepare cmac cam : Token} {sequence : UInt8} (hx : Unbroken x)
    (hp : Passed n prepare cmac cam sequence h c) :
    Passed n prepare cmac cam sequence (x :: h) c :=
  Trail.cons hx hp

theorem Linked.cons (hx : Unbroken x) (hl : Linked h c) : Linked (x :: h) c := by
  obtain ⟨prepare, cmac, cam, sequence, ht⟩ := hl
  exact ⟨prepare, cmac, cam, sequence, Trail.cons hx ht⟩

theorem Chain.linked (hch : Chain h c) (hl : c.linked = true) : Linked h c := by
  obtain ⟨prepare, cmac, cam, sequence, hch⟩ := hch
  have hs : c.state = .associated ∨ c.state = .authorized := by
    simpa [Controller.linked] using hl
  refine ⟨prepare, cmac, cam, sequence, ?_⟩
  rcases hs with hs | hs <;> simp only [hs] at hch <;> exact hch

theorem Linked.chain (hl : Linked h c) (hs : c.linked = true) : Chain h c := by
  obtain ⟨prepare, cmac, cam, sequence, ht⟩ := hl
  have hs' : c.state = .associated ∨ c.state = .authorized := by
    simpa [Controller.linked] using hs
  refine ⟨prepare, cmac, cam, sequence, ?_⟩
  rcases hs' with hs' | hs' <;> simp only [hs'] <;> exact ht

theorem Chain.resumes (hch : Chain h c) (hs : c.scanning = true) (hr : c.scanResume ≠ .idle) :
    Linked h c := by
  obtain ⟨prepare, cmac, cam, sequence, hch⟩ := hch
  refine ⟨prepare, cmac, cam, sequence, ?_⟩
  cases hk : c.state <;> simp [Controller.scanning, hk, State.rank] at hs <;>
    simp only [hk] at hch <;> exact hch hr

theorem chain_scanning (hs : c.scanning = true) (hl : c.scanResume ≠ .idle → Linked h c) :
    Chain h c := by
  by_cases hr : c.scanResume = .idle
  · refine ⟨{}, {}, {}, 0, ?_⟩
    cases hk : c.state <;> simp [Controller.scanning, hk, State.rank] at hs <;>
      exact fun h => absurd hr h
  · obtain ⟨prepare, cmac, cam, sequence, ht⟩ := hl hr
    refine ⟨prepare, cmac, cam, sequence, ?_⟩
    cases hk : c.state <;> simp [Controller.scanning, hk, State.rank] at hs <;> exact fun _ => ht

/-- States that say nothing about an association. -/
def State.outside (state : State) : Bool :=
  state.rank ≤ State.idle.rank || State.disconnectingCmac.rank ≤ state.rank

theorem chain_trivial (hs : c.state.outside = true) : Chain h c := by
  refine ⟨{}, {}, {}, 0, ?_⟩
  cases hk : c.state <;> simp [hk, State.outside, State.rank] at hs <;> trivial

theorem chain_authenticating (prepare cmac cam : Token) (sequence : UInt8)
    (hs : c.state = .authenticating)
    (hp : Passed (if c.authenticated then 3 else 2) prepare cmac cam sequence h c) : Chain h c := by
  refine ⟨prepare, cmac, cam, sequence, ?_⟩
  simp only [hs]
  exact hp

/-- A call that changes nothing an association depends on. -/
theorem Chain.keep (hu : c.state ≠ .disconnectingCam → c.state ≠ .stopped → Unbroken x)
    (hch : Chain h c) : Chain (x :: h) c := by
  by_cases hs : c.state.outside = true
  · exact chain_trivial hs
  · have hx : Unbroken x :=
      hu (fun h => hs (by rw [h]; rfl)) (fun h => hs (by rw [h]; rfl))
    obtain ⟨prepare, cmac, cam, sequence, hch⟩ := hch
    refine ⟨prepare, cmac, cam, sequence, ?_⟩
    cases hk : c.state <;> simp only [hk] at hch ⊢
    case preparingAuthentication => exact ⟨hch.1, hch.2.1, hch.2.2.cons hx⟩
    case authenticating => exact hch.cons hx
    case installingAssociationCmac => exact ⟨hch.1, hch.2.cons hx⟩
    case joining => exact ⟨hch.1, hch.2.cons hx⟩
    case installingAssociationCam => exact ⟨hch.1, hch.2.cons hx⟩
    case associated => exact hch.cons hx
    case authorized => exact hch.cons hx
    all_goals exact fun hr => (hch hr).cons hx

theorem Move.unbroken (hS : Sound c) (h : Move c op log ok c') (hs : c.state ≠ .disconnectingCam)
    (hs' : c'.state ≠ .stopped) : Unbroken ⟨c, op, log, ok, c'⟩ where
  restart := by
    rintro epoch now rfl
    cases h with
    | restart he hlt => exact absurd rfl hs'
    | _ => rfl
  disconnectCam := by
    rintro token success now rfl hw hk
    exact hs (by rw [(hS.action hw).2, hk]; rfl)

theorem mem_actionTrace (d : Controller) (kind : Action) (target : Channel) :
    .call (.beginAction (d.request kind target)) true ∈ actionTrace d kind target := by
  simp [actionTrace]

/-- A move whose trace begins an action has begun it under the next token. -/
theorem began_of_suffix {l : Trace} {d : Controller} {kind : Action} {target : Channel}
    (hlog : log = l ++ actionTrace d kind target) :
    Record.began kind d.nextToken ⟨c, op, log, ok, c'⟩ :=
  ⟨d.request kind target, by rw [hlog]; exact List.mem_append_right l (mem_actionTrace d kind target),
    rfl, rfl⟩

/-- The completion of a pending action of the chain passes the next milestone. -/
theorem Completion.chain {kind : Action} {now : UInt64} (hS : Sound c)
    (hw : c.waitingAction = true) (hk : kind = c.pendingAction) (hch : Chain h c)
    (hx : x.op = .actionComplete c.pendingToken kind true now ∧ x.result = true ∧
      x.log = gate ++ log)
    (hu : c.state ≠ .disconnectingCam → c'.state ≠ .stopped → Unbroken x)
    (hm : Completion { c.clocked now with waitingAction := false } kind log c') :
    Chain (x :: h) c' := by
  have hstate : c.state = kind.state := by rw [(hS.action hw).2, hk]
  have hdone : Completed kind c.pendingToken x := ⟨now, hx.1, hx.2.1⟩
  have hresume : c.scanning = true → c'.state ≠ .stopped → c.scanResume ≠ .idle →
      Linked (x :: h) c := fun hs hs' hr =>
    (hch.resumes hs hr).cons (hu (fun h => by simp [Controller.scanning, h, State.rank] at hs) hs')
  cases hm with
  | interfacePrepared hb => exact chain_trivial rfl
  | idleInstalled => exact chain_trivial rfl
  | scanBegun hc => exact chain_scanning rfl (hresume (hS.scanning_of_pending hw hk rfl) (by rintro ⟨⟩))
  | scanBegunCancelled hc =>
      exact chain_scanning rfl (hresume (hS.scanning_of_pending hw hk rfl) (by rintro ⟨⟩))
  | tuned hc => exact chain_scanning rfl (hresume (hS.scanning_of_pending hw hk rfl) (by rintro ⟨⟩))
  | tunedCancelled hc => exact chain_scanning rfl (hresume (hS.scanning_of_pending hw hk rfl) (by rintro ⟨⟩))
  | scanRestored => exact chain_scanning rfl (hresume (hS.scanning_of_pending hw hk rfl) (by rintro ⟨⟩))
  | scanEnded hd =>
      have hs := hS.scanning_of_pending hw hk rfl
      rcases hS.resume hs with hr | hr | hr
      · exact chain_trivial (by simp [hr, State.outside, State.rank])
      · have hl := hresume hs (by simp [hr]) (by simp [hr])
        exact Linked.chain (c := { c with state := c.scanResume }) hl (by simp [Controller.linked, hr])
      · have hl := hresume hs (by simp [hr]) (by simp [hr])
        exact Linked.chain (c := { c with state := c.scanResume }) hl (by simp [Controller.linked, hr])
  | scanEndedLeaving hd => exact chain_trivial rfl
  | authenticationPrepared hd =>
      obtain ⟨prepare, cmac, cam, sequence, hch⟩ := hch
      simp only [hstate, Action.state] at hch
      obtain ⟨ha, rfl, hp⟩ := hch
      have hp' : Passed (if c.authenticated then 3 else 2) c.pendingToken cmac cam sequence
          (x :: h) c := by
        rw [ha]
        exact Trail.push hdone hp
      exact chain_authenticating c.pendingToken cmac cam sequence rfl hp'
  | authenticationPreparedLeaving hd => exact chain_trivial rfl
  | @cmacInstalled seq bytes hd hb =>
      obtain ⟨prepare, cmac, cam, sequence, hch⟩ := hch
      simp only [hstate, Action.state] at hch
      obtain ⟨rfl, hp⟩ := hch
      refine ⟨prepare, c.pendingToken, cam, seq, rfl, ?_⟩
      refine Trail.push ⟨hdone, ?_⟩ hp
      rw [Record.reserved, hx.2.2]
      exact List.mem_append_right _ List.mem_cons_self
  | cmacInstalledLeaving hd => exact chain_trivial rfl
  | camInstalled hd =>
      obtain ⟨prepare, cmac, cam, sequence, hch⟩ := hch
      simp only [hstate, Action.state] at hch
      obtain ⟨rfl, hp⟩ := hch
      exact ⟨prepare, cmac, c.pendingToken, sequence, Trail.push hdone hp⟩
  | camInstalledLeaving hd => exact chain_trivial rfl
  | partedCmac hb => exact chain_trivial rfl
  | partedCam => exact chain_trivial rfl
  | camRemoved => exact chain_trivial rfl

/-- The acknowledgement of the join command passes the next milestone. -/
theorem Acknowledged.chain {event : FirmwareEvent} {now : UInt64} {ack : FirmwareAck}
    (hS : Sound c) (hw : c.waitingCommand = true) (hch : Chain h c)
    (hx : x.op = .firmwareEvent event c.epoch.epoch now ∧ x.result = true ∧ x.log = gate ++ log)
    (hack : decodeAck event = some ack) (hdone : ack.done = true)
    (hseq : ack.sequence = c.pendingSequence) (hcmd : ack.command = c.pendingCommand)
    (hrc : ack.returnCode = 0)
    (hm : Acknowledged { c.clocked now with waitingCommand := false } log c') :
    Chain (x :: h) c' := by
  cases hm with
  | roleCreated hs hb => exact chain_trivial rfl
  | noLink hs => exact chain_trivial rfl
  | joined hs hd =>
      have hs' : c.state = .joining := hs
      have hjoin : ack.command = ⟨1, 8, 0⟩ := by
        have hid := hS.command hw
        rw [hs'] at hid
        rw [hcmd]
        exact (Option.some.inj hid).symm
      have hbegan : Record.began .associationCam c.nextToken x :=
        began_of_suffix (l := gate) (d := { c.clocked now with waitingCommand := false }) hx.2.2
      obtain ⟨prepare, cmac, cam, sequence, hch⟩ := hch
      simp only [hs'] at hch
      obtain ⟨rfl, hp⟩ := hch
      refine ⟨prepare, cmac, c.nextToken, c.pendingSequence, rfl, ?_⟩
      exact Trail.push ⟨event, now, ack, hx.1, hx.2.1, hack, hdone, hrc, hjoin, hseq, hbegan⟩ hp
  | joinedLeaving hs hd => exact chain_trivial rfl
  | left hs => exact chain_trivial rfl
  | roleRemoved hs => exact chain_trivial rfl

/-- Leaving the dwell state for another state of the same scan. -/
theorem Chain.dwelt {d : Controller} (hch : Chain h c) (hd : c.state = .scanningDwell)
    (hu : c.state ≠ .disconnectingCam → d.state ≠ .stopped → Unbroken x)
    (hs : d.scanning = true) (hr : d.scanResume = c.scanResume)
    (ht : d.associationToken = c.associationToken) (hp : d.peer = c.peer)
    (he : d.epoch = c.epoch) : Chain (x :: h) d := by
  have hx : Unbroken x := hu (by simp [hd]) (fun h => by simp [Controller.scanning, h, State.rank] at hs)
  refine chain_scanning hs fun hne => ?_
  rw [hr] at hne
  have hl := (hch.resumes (Controller.scanning_of_dwell hd) hne).cons hx
  rwa [Linked, ht, hp, he]

theorem Move.chain (hS : Sound c) (hch : Chain h c) (hm : Move c op log ok c') :
    Chain (⟨c, op, log, ok, c'⟩ :: h) c' := by
  have hu := hm.unbroken hS
  cases hm with
  | closed => exact hch.keep hu
  | refused hc => exact hch.keep hu
  | restartUnverified => exact hch.keep hu
  | restartUnpaused => exact hch.keep hu
  | restart he hlt => exact chain_trivial rfl
  | start hs hw he ha => exact chain_trivial rfl
  | stop hs hw hb => exact chain_trivial rfl
  | scan hs hw hlen hmax hall =>
      refine chain_scanning rfl fun hr => ?_
      rcases hs with hs | hs
      · exact absurd hs hr
      · exact (hch.linked (by simp [Controller.linked, hs])).cons (hu (by simp [hs]) (by rintro ⟨⟩))
  | cancelScan hs ht hd => exact hch.keep hu
  | cancelDwell ht hd hw => exact hch.dwelt hd hu rfl rfl rfl rfl rfl
  | nextChannel hd hw ht hc hn => exact hch.dwelt hd hu rfl rfl rfl rfl rfl
  | lastChannel hd hw ht hc hn => exact hch.dwelt hd hu rfl rfl rfl rfl rfl
  | dwellCancelled hd hw ht hc => exact hch.dwelt hd hu rfl rfl rfl rfl rfl
  | @connect peer now hs hw hb hl hv =>
      refine ⟨((c.clocked now).chosen peer).nextToken, {}, {}, 0, rfl, rfl, ?_⟩
      refine Trail.push ⟨now, rfl, rfl, rfl, ?_⟩ trivial
      exact began_of_suffix (l := gate ++ [.note (.issued c.nextToken), paused])
        (d := (c.clocked now).chosen peer) rfl
  | @authenticated original bssid now hs ht hb hn =>
      have hx := hu (by simp [hs]) (by simp [hs])
      obtain ⟨prepare, cmac, cam, sequence, hch⟩ := hch
      simp only [hs] at hch
      refine chain_authenticating prepare cmac cam sequence hs ?_
      cases ha : c.authenticated with
      | true =>
          rw [ha] at hch
          exact hch.cons hx
      | false =>
          rw [ha] at hch
          exact Trail.push ⟨now, by rw [ht, hb]; rfl, rfl⟩ hch
  | authenticatedLate ht hb hn => exact chain_trivial rfl
  | authenticationFailed hs hw ht hb hn => exact chain_trivial rfl
  | @associationReceived original answer now hs hw ha ht hb hch' h0 h1 hn =>
      obtain ⟨prepare, cmac, cam, sequence, hch⟩ := hch
      simp only [hs, ha] at hch
      refine ⟨prepare, c.nextToken, cam, sequence, rfl, ?_⟩
      refine Trail.push ⟨answer, now, by rw [ht]; rfl, rfl, hb, hch', ?_, h1, ?_⟩ hch
      · exact UInt16.pos_iff_ne_zero.2 h0
      · exact began_of_suffix (l := gate) (d := { c.clocked now with association := answer }) rfl
  | associationRejected hs hw ha ht hb h0 hn => exact chain_trivial rfl
  | authorizePort hs ht =>
      have hl := (hch.linked (by simp [Controller.linked, hs])).cons (hu (by simp [hs]) (by rintro ⟨⟩))
      exact Linked.chain hl rfl
  | revokeScan ht hs hr =>
      refine chain_scanning hs fun _ => ?_
      refine (hch.resumes hs hr).cons (hu ?_ ?_)
      · intro h
        simp [Controller.scanning, h, State.rank] at hs
      · intro h
        have h' : c.state = .stopped := h
        simp [Controller.scanning, h', State.rank] at hs
  | revokePort ht hs =>
      have hl := (hch.linked hs).cons
        (hu (fun h => by simp [Controller.linked, h] at hs) (by rintro ⟨⟩))
      exact Linked.chain hl rfl
  | revokeTimedOut ht hn => exact chain_trivial rfl
  | disconnectIdle hs => exact hch.keep hu
  | disconnectScan hs hd => exact hch.keep hu
  | disconnectDwell hd hw => exact hch.dwelt hd hu rfl rfl rfl rfl rfl
  | disconnectScanClosed hs => exact hch.keep hu
  | disconnectDeferred hw hlo hhi => exact hch.keep hu
  | disconnectNow hw hlo hhi hn => exact chain_trivial rfl
  | disconnectTimedOut hn => exact chain_trivial rfl
  | tick hc => exact hch.keep hu
  | tickTimedOut hn => exact chain_trivial rfl
  | actionComplete hw ht hk hd h =>
      exact h.chain hS hw hk hch ⟨by rw [ht], rfl, rfl⟩ hu
  | firmwareEvent hw he hack hdone hseq hcmd hrc hd h =>
      exact h.chain hS hw hch ⟨by rw [he], rfl, rfl⟩ hack hdone hseq hcmd hrc

theorem Run.chain (hrun : Run h c) : Chain h c := by
  refine Run.induction (P := Chain) (chain_trivial rfl) ?_ hrun
  intro h c c' op log ok _ hS hch hspec
  rcases hspec with ⟨-, hfault⟩ | hmove
  · exact chain_trivial (by rw [hfault.state]; rfl)
  · exact hmove.chain hS hch

/-! ## The port -/

theorem Controller.opened.absurd (ho : c.opened) (hs : c.state ≠ .authorized)
    (hn : c.scanning = false) : False := by
  rcases ho with h | ⟨h, -⟩
  · exact hs h
  · simp [hn] at h

/-- `c'` is on the same link as `c`, and the port of `c` was or was going to be open. -/
structure StillOpen (c c' : Controller) : Prop where
  opened : c.opened
  associationToken : c'.associationToken = c.associationToken
  peer : c'.peer = c.peer
  epoch : c'.epoch = c.epoch

theorem Completion.opened {kind : Action} {now : UInt64} (hS : Sound c)
    (hw : c.waitingAction = true) (hk : kind = c.pendingAction)
    (hm : Completion { c.clocked now with waitingAction := false } kind log c') (ho : c'.opened) :
    StillOpen c c' := by
  have hscan : ∀ {d : Controller}, d.opened → d.state ≠ .authorized → c.scanning = true →
      d.scanResume = c.scanResume → c.opened := by
    rintro d (hd | ⟨-, hd⟩) hne hs hr
    · exact absurd hd hne
    · exact Or.inr ⟨hs, hr.symm.trans hd⟩
  cases hm with
  | interfacePrepared hb => exact (ho.absurd nofun rfl).elim
  | idleInstalled => exact (ho.absurd nofun rfl).elim
  | scanBegun hc => exact ⟨hscan ho nofun (hS.scanning_of_pending hw hk rfl) rfl, rfl, rfl, rfl⟩
  | scanBegunCancelled hc =>
      exact ⟨hscan ho nofun (hS.scanning_of_pending hw hk rfl) rfl, rfl, rfl, rfl⟩
  | tuned hc => exact ⟨hscan ho nofun (hS.scanning_of_pending hw hk rfl) rfl, rfl, rfl, rfl⟩
  | tunedCancelled hc =>
      exact ⟨hscan ho nofun (hS.scanning_of_pending hw hk rfl) rfl, rfl, rfl, rfl⟩
  | scanRestored => exact ⟨hscan ho nofun (hS.scanning_of_pending hw hk rfl) rfl, rfl, rfl, rfl⟩
  | scanEnded hd =>
      refine ⟨Or.inr ⟨hS.scanning_of_pending hw hk rfl, ?_⟩, rfl, rfl, rfl⟩
      rcases ho with ho | ⟨-, ho⟩
      · exact ho
      · exact ho
  | scanEndedLeaving hd => exact (ho.absurd nofun rfl).elim
  | authenticationPrepared hd => exact (ho.absurd nofun rfl).elim
  | authenticationPreparedLeaving hd => exact (ho.absurd nofun rfl).elim
  | cmacInstalled hd hb => exact (ho.absurd nofun rfl).elim
  | cmacInstalledLeaving hd => exact (ho.absurd nofun rfl).elim
  | camInstalled hd => exact (ho.absurd nofun rfl).elim
  | camInstalledLeaving hd => exact (ho.absurd nofun rfl).elim
  | partedCmac hb => exact (ho.absurd nofun rfl).elim
  | partedCam => exact (ho.absurd nofun rfl).elim
  | camRemoved => exact (ho.absurd nofun rfl).elim

theorem Acknowledged.not_opened {d : Controller} (hm : Acknowledged d log c') : ¬ c'.opened := by
  intro ho
  cases hm <;> exact ho.absurd nofun rfl

/-- A controller whose port is open after a call has either just been authorized, or its port was
open before and the call did not revoke it. -/
theorem Move.opened (hS : Sound c) (hm : Move c op log ok c') (ho : c'.opened) :
    (c.state = .associated ∧ PortAuthorized c.associationToken ⟨c, op, log, ok, c'⟩ ∧
      c' = { c.clocked op.now with state := .authorized }) ∨
    (StillOpen c c' ∧ ¬ Revoked ⟨c, op, log, ok, c'⟩) := by
  have hdwell : ∀ {d : Controller}, d.opened → d.state ≠ .authorized → c.state = .scanningDwell →
      d.scanResume = c.scanResume → c.opened := by
    rintro d (hd | ⟨-, hd⟩) hne hs hr
    · exact absurd hd hne
    · exact Or.inr ⟨Controller.scanning_of_dwell hs, hr.symm.trans hd⟩
  cases hm with
  | closed => exact Or.inr ⟨⟨ho, rfl, rfl, rfl⟩, (by rintro ⟨_, _, _, ⟨⟩⟩)⟩
  | refused hc => exact Or.inr ⟨⟨ho, rfl, rfl, rfl⟩, (by rintro ⟨_, _, _, ⟨⟩⟩)⟩
  | restartUnverified => exact Or.inr ⟨⟨ho, rfl, rfl, rfl⟩, (by rintro ⟨_, _, ⟨⟩, _⟩)⟩
  | restartUnpaused => exact Or.inr ⟨⟨ho, rfl, rfl, rfl⟩, (by rintro ⟨_, _, ⟨⟩, _⟩)⟩
  | restart he hlt => exact (ho.absurd (by rintro ⟨⟩) rfl).elim
  | start hs hw he ha => exact (ho.absurd (by rintro ⟨⟩) rfl).elim
  | stop hs hw hb => exact (ho.absurd (by rintro ⟨⟩) rfl).elim
  | scan hs hw hlen hmax hall =>
      refine Or.inr ⟨⟨?_, rfl, rfl, rfl⟩, (by rintro ⟨_, _, ⟨⟩, _⟩)⟩
      rcases ho with ho | ⟨-, ho⟩
      · exact absurd ho (by rintro ⟨⟩)
      · exact Or.inl ho
  | cancelScan hs ht hd => exact Or.inr ⟨⟨ho, rfl, rfl, rfl⟩, (by rintro ⟨_, _, ⟨⟩, _⟩)⟩
  | cancelDwell ht hd hw =>
      exact Or.inr ⟨⟨hdwell ho (by rintro ⟨⟩) hd rfl, rfl, rfl, rfl⟩, (by rintro ⟨_, _, ⟨⟩, _⟩)⟩
  | nextChannel hd hw ht hc hn =>
      exact Or.inr ⟨⟨hdwell ho (by rintro ⟨⟩) hd rfl, rfl, rfl, rfl⟩, (by rintro ⟨_, _, ⟨⟩, _⟩)⟩
  | lastChannel hd hw ht hc hn =>
      exact Or.inr ⟨⟨hdwell ho (by rintro ⟨⟩) hd rfl, rfl, rfl, rfl⟩, (by rintro ⟨_, _, ⟨⟩, _⟩)⟩
  | dwellCancelled hd hw ht hc =>
      exact Or.inr ⟨⟨hdwell ho (by rintro ⟨⟩) hd rfl, rfl, rfl, rfl⟩, (by rintro ⟨_, _, ⟨⟩, _⟩)⟩
  | connect hs hw hb hl hv => exact (ho.absurd (by rintro ⟨⟩) rfl).elim
  | authenticated hs ht hb hn =>
      exact Or.inr ⟨⟨ho, rfl, rfl, rfl⟩, (by rintro ⟨_, _, ⟨⟩, _⟩)⟩
  | authenticatedLate ht hb hn => exact (ho.absurd (by rintro ⟨⟩) rfl).elim
  | authenticationFailed hs hw ht hb hn => exact (ho.absurd (by rintro ⟨⟩) rfl).elim
  | associationReceived hs hw ha ht hb hch h0 h1 hn => exact (ho.absurd (by rintro ⟨⟩) rfl).elim
  | associationRejected hs hw ha ht hb h0 hn => exact (ho.absurd (by rintro ⟨⟩) rfl).elim
  | @authorizePort original now hs ht => exact Or.inl ⟨hs, ⟨now, by rw [ht], rfl⟩, rfl⟩
  | revokeScan ht hs hr =>
      rcases ho with ho | ⟨-, ho⟩
      · have ho' : c.state = .authorized := ho
        simp [Controller.scanning, ho', State.rank] at hs
      · exact absurd ho (by rintro ⟨⟩)
  | revokePort ht hs => exact (ho.absurd (by rintro ⟨⟩) rfl).elim
  | revokeTimedOut ht hn => exact (ho.absurd (by rintro ⟨⟩) rfl).elim
  | disconnectIdle hs => exact Or.inr ⟨⟨ho, rfl, rfl, rfl⟩, (by rintro ⟨_, _, ⟨⟩, _⟩)⟩
  | disconnectScan hs hd => exact Or.inr ⟨⟨ho, rfl, rfl, rfl⟩, (by rintro ⟨_, _, ⟨⟩, _⟩)⟩
  | disconnectDwell hd hw =>
      exact Or.inr ⟨⟨hdwell ho (by rintro ⟨⟩) hd rfl, rfl, rfl, rfl⟩, (by rintro ⟨_, _, ⟨⟩, _⟩)⟩
  | disconnectScanClosed hs => exact Or.inr ⟨⟨ho, rfl, rfl, rfl⟩, (by rintro ⟨_, _, ⟨⟩, _⟩)⟩
  | disconnectDeferred hw hlo hhi =>
      exact Or.inr ⟨⟨ho, rfl, rfl, rfl⟩, (by rintro ⟨_, _, ⟨⟩, _⟩)⟩
  | disconnectNow hw hlo hhi hn => exact (ho.absurd (by rintro ⟨⟩) rfl).elim
  | disconnectTimedOut hn => exact (ho.absurd (by rintro ⟨⟩) rfl).elim
  | tick hc => exact Or.inr ⟨⟨ho, rfl, rfl, rfl⟩, (by rintro ⟨_, _, ⟨⟩, _⟩)⟩
  | tickTimedOut hn => exact (ho.absurd (by rintro ⟨⟩) rfl).elim
  | actionComplete hw ht hk hd h =>
      exact Or.inr ⟨h.opened hS hw hk ho, (by rintro ⟨_, _, ⟨⟩, _⟩)⟩
  | firmwareEvent hw he hack hdone hseq hcmd hrc hd h => exact (h.not_opened ho).elim

theorem Move.portChain (hS : Sound c) (hch : Chain h c) (hp : PortChain h c)
    (hm : Move c op log ok c') : PortChain (⟨c, op, log, ok, c'⟩ :: h) c' := by
  intro ho
  have hu : c.state ≠ .disconnectingCam → Unbroken ⟨c, op, log, ok, c'⟩ := fun hs =>
    hm.unbroken hS hs fun hs' => ho.absurd (by simp [hs'])
      (by simp [Controller.scanning, hs', State.rank])
  rcases hm.opened hS ho with ⟨hs, hpa, rfl⟩ | ⟨hstill, hr⟩
  · exact Since.here ⟨hpa, hch.linked (by simp [Controller.linked, hs])⟩
  · have hne : c.state ≠ .disconnectingCam := fun hs =>
      hstill.opened.absurd (by simp [hs]) (by simp [Controller.scanning, hs, State.rank])
    have := Since.cons (x := ⟨c, op, log, ok, c'⟩) ⟨hu hne, hr⟩ (hp hstill.opened)
    simpa only [Linked, hstill.associationToken, hstill.peer, hstill.epoch] using this

theorem Run.portChain (hrun : Run h c) : PortChain h c := by
  refine Run.induction (P := PortChain) (fun ho => (ho.absurd nofun rfl).elim) ?_ hrun
  intro h c c' op log ok hrun hS hp hspec
  rcases hspec with ⟨-, hfault⟩ | hmove
  · refine fun ho => (ho.absurd ?_ ?_).elim
    · simp [hfault.state]
    · simp [Controller.scanning, hfault.state, State.rank]
  · exact hmove.portChain hS (Run.chain hrun) hp

/-- Whenever the controller is associated or authorized, or will be when a scan is over, the whole
chain of an association lies behind it, since the connection that created the association token and
with nothing that breaks it; and an open port was authorized after that and not revoked since. -/
theorem authorization_chain (hrun : Run h c)
    (hl : c.state = .associated ∨ c.state = .authorized ∨
      (c.scanning = true ∧ (c.scanResume = .associated ∨ c.scanResume = .authorized))) :
    (∃ prepare cmac cam sequence,
      Trail Unbroken
        [Completed .associationCam cam,
          Joined c.epoch.epoch sequence cam,
          fun r => Completed .associationCmac cmac r ∧ Record.reserved sequence r,
          AssociationReceived c.associationToken c.peer cmac,
          Authenticated c.associationToken c.peer,
          Completed .prepareAuthentication prepare,
          Connected c.associationToken c.peer prepare] h) ∧
    (c.state = .authorized →
      Since (fun r => Unbroken r ∧ ¬ Revoked r)
        (fun r earlier => PortAuthorized c.associationToken r ∧ Linked earlier c) h) := by
  have hch := Run.chain hrun
  refine ⟨?_, fun hs => Run.portChain hrun (Or.inl hs)⟩
  rcases hl with hs | hs | ⟨hs, hr⟩
  · exact hch.linked (by simp [Controller.linked, hs])
  · exact hch.linked (by simp [Controller.linked, hs])
  · exact hch.resumes hs (by rcases hr with hr | hr <;> simp [hr])

/-- The chain of an authorized link. -/
theorem authorization_chain_authorized :
    (final (linkUp ++ [.authorizePort ⟨1, 5⟩ 13])).state = .authorized ∧
      Since (fun r => Unbroken r ∧ ¬ Revoked r)
        (fun r earlier => PortAuthorized (final (linkUp ++ [.authorizePort ⟨1, 5⟩ 13])).associationToken r
          ∧ Linked earlier (final (linkUp ++ [.authorizePort ⟨1, 5⟩ 13])))
        (history (linkUp ++ [.authorizePort ⟨1, 5⟩ 13])) :=
  have hs : (final (linkUp ++ [.authorizePort ⟨1, 5⟩ 13])).state = .authorized := by decide +kernel
  ⟨hs, (authorization_chain (run_history _) (Or.inr (Or.inl hs))).2 hs⟩

end Station
end Rtl8852be
