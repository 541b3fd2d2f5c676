import Rtl8852be.Station.Run

/-!
# Faults — what it takes to fault the controller

`Healthy` collects what the environment has to do for a call to be unremarkable: agree to every
request, keep the clock going, report success, and meet every deadline but one.  The exception is
the authentication deadline, which the controller is meant to handle itself by disconnecting.

It does so when `tick`, `disconnect`, `revokePort` or a successful `authenticated` comes late.  The
other late responses find that `expire` has begun the disconnect and returned `true`, and go on to
begin an action of their own: `LateFailing` is exactly what makes a healthy run fault.
-/

namespace Rtl8852be
namespace Station

open Interaction Network

variable {c c' : Controller} {op : Op} {log : Trace} {ok : Bool} {h : List Record} {r : Record}

/-! ## Healthy calls and late responses -/

/-- A completion of the pending action, or an acknowledgement of the pending command, reports
success. -/
def Successful (c : Controller) : Op → Prop
  | .actionComplete original kind success _ =>
      c.waitingAction = true → original = c.pendingToken → kind = c.pendingAction → success = true
  | .firmwareEvent event receiveEpoch _ =>
      ∀ ack ∈ decodeAck event, c.waitingCommand = true → receiveEpoch = c.epoch.epoch →
        ack.done = true → ack.sequence = c.pendingSequence → ack.command = c.pendingCommand →
        ack.returnCode = 0
  | _ => True

/-- The time the call may ask for fits below `UINT64_MAX`. -/
def Roomy : Op → Prop
  | .scan (some plan) now =>
      actionTimeout ≤ uint64Max - now ∧ scanBudget plan ≤ uint64Max - now
  | op => actionTimeout ≤ uint64Max - op.now

/-- A call in which nothing goes wrong outside the controller. -/
structure Healthy (r : Record) : Prop where
  agreed : ∀ e ∈ r.log, declined e = false
  clock : r.before.clockStarted = true → r.before.lastNow ≤ r.op.now
  room : Roomy r.op
  serial : r.after.serial ≠ uint64Max
  successful : Successful r.before r.op
  punctual : ¬ r.before.overdue r.op.now

/-- The arguments with which a response to the running authentication is accepted. -/
def Answers (c : Controller) : Op → Prop
  | .authenticated original bssid _ _ => original = c.associationToken ∧ bssid = c.peer.bssid
  | .associationReceived original peer _ =>
      c.authenticated = true ∧ original = c.associationToken ∧ peer.bssid = c.peer.bssid ∧
        peer.channel = c.peer.channel ∧ peer.aid ≠ 0 ∧ peer.aid ≤ 2007
  | .associationRejected original bssid status _ =>
      c.authenticated = true ∧ original = c.associationToken ∧ bssid = c.peer.bssid ∧ status ≠ 0
  | _ => False

/-- A response at or after the authentication deadline, before anything else has noticed it. -/
def Late (r : Record) : Prop := r.before.timedOut r.op.now ∧ Answers r.before r.op

/-- The call reports a successful authentication. -/
def Op.authenticates : Op → Bool
  | .authenticated _ _ success _ => success
  | _ => false

/-- A late response that would have begun an action of its own. -/
def LateFailing (r : Record) : Prop := Late r ∧ r.op.authenticates = false

/-- The call began exactly one ordered disconnect. -/
structure Disconnecting (r : Record) : Prop where
  state : r.after.state = .disconnectingCmac
  cancelled : r.log.countP (fun e => e matches .call (.cancelProtocol _) _) = 1
  begun : r.log.countP (fun e =>
    match e with
    | .call (.beginAction request) _ => request.action == .disconnectCmac
    | _ => false) = 1

section Decidable

instance (c : Controller) (now : UInt64) : Decidable (c.overdue now) :=
  inferInstanceAs (Decidable (_ ∨ _))

instance (c : Controller) (now : UInt64) : Decidable (c.timedOut now) :=
  inferInstanceAs (Decidable (_ ∧ _))

instance (c : Controller) : DecidablePred (Successful c)
  | .actionComplete _ _ _ _ => inferInstanceAs (Decidable (_ → _ → _ → _))
  | .firmwareEvent _ _ _ => inferInstanceAs (Decidable (∀ ack ∈ decodeAck _, _ → _))
  | .restart _ _ | .start _ _ | .scan _ _ | .cancelScan _ _ | .connect _ _ | .authenticated _ _ _ _
  | .associationReceived _ _ _ | .associationRejected _ _ _ _ | .authorizePort _ _ | .revokePort _ _
  | .disconnect _ | .stop _ | .tick _ => isTrue trivial

instance : DecidablePred Roomy
  | .scan (some _) _ => inferInstanceAs (Decidable (_ ∧ _))
  | .scan none _ | .actionComplete _ _ _ _ | .firmwareEvent _ _ _ | .restart _ _ | .start _ _
  | .cancelScan _ _ | .connect _ _ | .authenticated _ _ _ _ | .associationReceived _ _ _
  | .associationRejected _ _ _ _ | .authorizePort _ _ | .revokePort _ _ | .disconnect _ | .stop _
  | .tick _ => inferInstanceAs (Decidable (_ ≤ _))

instance (c : Controller) : DecidablePred (Answers c)
  | .authenticated _ _ _ _ => inferInstanceAs (Decidable (_ ∧ _))
  | .associationReceived _ _ _ => inferInstanceAs (Decidable (_ ∧ _))
  | .associationRejected _ _ _ _ => inferInstanceAs (Decidable (_ ∧ _))
  | .restart _ _ | .start _ _ | .scan _ _ | .cancelScan _ _ | .connect _ _ | .authorizePort _ _
  | .revokePort _ _ | .disconnect _ | .stop _ | .tick _ | .actionComplete _ _ _ _
  | .firmwareEvent _ _ _ => isFalse id

instance : DecidablePred Healthy := fun r =>
  decidable_of_iff
    ((∀ e ∈ r.log, declined e = false) ∧
      (r.before.clockStarted = true → r.before.lastNow ≤ r.op.now) ∧ Roomy r.op ∧
      r.after.serial ≠ uint64Max ∧ Successful r.before r.op ∧ ¬ r.before.overdue r.op.now)
    ⟨fun ⟨h1, h2, h3, h4, h5, h6⟩ => ⟨h1, h2, h3, h4, h5, h6⟩,
      fun h => ⟨h.agreed, h.clock, h.room, h.serial, h.successful, h.punctual⟩⟩

instance : DecidablePred LateFailing := fun _ =>
  inferInstanceAs (Decidable ((_ ∧ _) ∧ _))

end Decidable

/-! ## Where faults come from -/

theorem Healthy.not_declined (hh : Healthy r) : ¬ Declined r.log := by
  rintro ⟨e, he, hd⟩
  simp [hh.agreed e he] at hd

theorem Roomy.horizon (h : Roomy op) : actionTimeout ≤ uint64Max - op.now := by
  cases op with
  | scan plan now =>
      cases plan with
      | none => exact h
      | some plan => exact h.1
  | _ => exact h

/-- In a healthy call the only reason for a fault is a late response. -/
theorem Healthy.lateFailing (hh : Healthy r) (hi : Improper r.before r.op) : LateFailing r := by
  obtain ⟨c, op, log, ok, c'⟩ := r
  cases hi with
  | backwards hs hlt => exact absurd (hh.clock hs) (UInt64.not_le.2 hlt)
  | horizon hlt => exact absurd hh.room.horizon (UInt64.not_le.2 hlt)
  | budget hlt => exact absurd hh.room.2 (UInt64.not_le.2 hlt)
  | overdue ho => exact absurd ho hh.punctual
  | failed hw ht hk => exact absurd (hh.successful hw ht hk) (by decide)
  | rejected hw he hack hdone hseq hcmd hrc =>
      exact absurd (hh.successful _ hack hw he hdone hseq hcmd) hrc
  | lateFailure ht hb hn => exact ⟨⟨hn, ht, hb⟩, rfl⟩
  | lateAssociation ha ht hb hch h0 h1 hn => exact ⟨⟨hn, ha, ht, hb, hch, h0, h1⟩, rfl⟩
  | lateRejection ha ht hb h0 hn => exact ⟨⟨hn, ha, ht, hb, h0⟩, rfl⟩

theorem Completion.not_faulted {kind : Action} (hr : kind = .scanEnd → c.scanResume ≠ .faulted)
    (h : Completion c kind log c') : c'.state ≠ .faulted := by
  cases h with
  | scanEnded hd => exact hr rfl
  | _ => nofun

theorem Move.not_faulted (hS : Sound c) (hc : c.state ≠ .faulted) (h : Move c op log ok c') :
    c'.state ≠ .faulted := by
  cases h with
  | actionComplete hw ht hk hd h =>
      refine Completion.not_faulted (fun he => ?_) h
      exact hS.resume_ne_faulted (hS.scanning_of_pending hw hk (by rw [he]; rfl))
  | firmwareEvent hw he hack hdone hseq hcmd hrc hd h => cases h <;> nofun
  | _ => first | exact hc | nofun

theorem Spec.not_faulted (hS : Sound r.before) (hc : r.before.state ≠ .faulted) (hh : Healthy r)
    (hl : ¬ LateFailing r) (h : Spec r.before r.op r.log r.result r.after) :
    r.after.state ≠ .faulted := by
  rcases h with ⟨-, hf⟩ | hm
  · rcases hf.cause with hi | hd | hser
    · exact absurd (hh.lateFailing hi) hl
    · exact absurd hd hh.not_declined
    · exact absurd hser hh.serial
  · exact hm.not_faulted hS hc

/-- A healthy run without late responses does not fault. -/
theorem Run.not_faulted (hrun : Run h c) (hh : ∀ r ∈ h, Healthy r) (hl : ∀ r ∈ h, ¬ LateFailing r) :
    c.state ≠ .faulted := by
  refine Run.induction
    (P := fun h c => (∀ r ∈ h, Healthy r) → (∀ r ∈ h, ¬ LateFailing r) → c.state ≠ .faulted)
    (fun _ _ => nofun) ?_ hrun hh hl
  intro h c c' op log ok _ hS ih hspec hh hl
  have hc := ih (fun r hr => hh r (List.mem_cons_of_mem _ hr))
    fun r hr => hl r (List.mem_cons_of_mem _ hr)
  exact Spec.not_faulted (r := ⟨c, op, log, ok, c'⟩) hS hc (hh _ List.mem_cons_self)
    (hl _ List.mem_cons_self) hspec

/-! ## What a late response does -/

theorem Controller.timedOut.not_closed {now : UInt64} (hn : c.timedOut now) {open_ : Bool}
    (h : open_ = true → c.state = .faulted) : Declined [.call .inGate open_] := by
  cases open_ with
  | true => exact absurd (h rfl) (by simp [hn.2.1])
  | false => exact ⟨_, List.mem_cons_self, rfl⟩

/-- A late authentication, or a late association, begins the disconnect of the timeout and then
faults, because it begins an action while that disconnect is pending. -/
theorem late_faults (hn : c.timedOut op.now) (ha : Answers c op) (hf : op.authenticates = false) :
    (exec op).wp (fun log _ c' => Declined log ∨ c'.state = .faulted) c := by
  have hs : c.state = .authenticating := hn.2.1
  have hF : FaultOk True fun log (_ : Bool) c' => Declined log ∨ c'.state = .faulted :=
    fun _ _ hf => Or.inr hf.state
  have hsame : c.associationToken.same c.associationToken = true := Token.same_iff.2 rfl
  have hbssid : c.peer.bssid.same c.peer.bssid = true := Address.same_iff.2 rfl
  cases op with
  | authenticated original bssid success now =>
      obtain ⟨rfl, rfl⟩ := ha
      obtain rfl : success = false := hf
      refine wp_time_guard hF (fun _ h => Or.inl (hn.not_closed h)) (fun _ _ => trivial) fun hc => ?_
      simp only [wp_get_bind, wp_ite, wp_pure]
      refine ⟨fun h => ?_, fun _ => ?_⟩
      · simp [hs, hsame, hbssid] at h
      · refine wp_expire_guard (hF.after _) hc (fun _ => trivial) (fun _ => trivial)
          (fun _ h => absurd hn h) fun _ => ?_
        simp only [wp_modify_bind, wp_ite, wp_pure]
        refine ⟨fun _ => ?_, fun h => absurd rfl h⟩
        exact wp_beginDisconnect ((hF.after _).after _) (by simp) (fun _ => trivial)
          (fun _ => trivial) (by rintro ⟨⟩)
  | associationReceived original peer now =>
      obtain ⟨ha, rfl, hb, hch, h0, h1⟩ := ha
      refine wp_time_guard hF (fun _ h => Or.inl (hn.not_closed h)) (fun _ _ => trivial) fun hc => ?_
      simp only [wp_get_bind, wp_ite, wp_pure]
      refine ⟨fun h => ?_, fun _ => ?_⟩
      · have hchannel : sameChannel c.peer.channel c.peer.channel = true := sameChannel_iff.2 rfl
        simp [hs, hsame, hbssid, ha, hb, hch, hchannel, h0, UInt16.not_lt.2 h1] at h
      · refine wp_expire_guard (hF.after _) hc (fun _ => trivial) (fun _ => trivial)
          (fun _ h => absurd hn h) fun _ => ?_
        rw [wp_modify_bind]
        exact wp_action ((hF.after _).after _) (by simp) (by decide) (fun _ => trivial)
          (fun _ => trivial) (by rintro ⟨⟩)
  | associationRejected original bssid status now =>
      obtain ⟨ha, rfl, rfl, h0⟩ := ha
      refine wp_time_guard hF (fun _ h => Or.inl (hn.not_closed h)) (fun _ _ => trivial) fun hc => ?_
      simp only [wp_get_bind, wp_ite, wp_pure]
      refine ⟨fun h => ?_, fun _ => ?_⟩
      · simp [hs, hsame, hbssid, ha, h0] at h
      · refine wp_expire_guard (hF.after _) hc (fun _ => trivial) (fun _ => trivial)
          (fun _ h => absurd hn h) fun _ => ?_
        rw [wp_modify_bind]
        exact wp_beginDisconnect ((hF.after _).after _) (by simp) (fun _ => trivial)
          (fun _ => trivial) (by rintro ⟨⟩)
  | _ => exact ha.elim

/-- A late report of a successful authentication is not in time to matter: the disconnect of the
timeout is begun, once, and goes on. -/
theorem late_disconnects {original : Token} {bssid : Address} {now : UInt64}
    (hn : c.timedOut now) (ha : Answers c (.authenticated original bssid true now))
    (hclock : c.clockStarted = true → c.lastNow ≤ now)
    (hroom : actionTimeout ≤ uint64Max - now) :
    (authenticated original bssid true now).wp
      (fun log _ c' => Declined log ∨ c'.serial = uint64Max ∨
        (log = gate ++ disconnectTrace ((c.clocked now).leaving .timeout) ∧
          c'.state = .disconnectingCmac)) c := by
  have hF : FaultOk False fun log (_ : Bool) c' => Declined log ∨ c'.serial = uint64Max ∨
      (log = gate ++ disconnectTrace ((c.clocked now).leaving .timeout) ∧
        c'.state = .disconnectingCmac) := by
    intro log c' hf
    rcases hf.cause with h | h | h
    · exact h.elim
    · exact Or.inl h
    · exact Or.inr (Or.inl h)
  have hs : c.state = .authenticating := hn.2.1
  have hsame : c.associationToken.same c.associationToken = true := Token.same_iff.2 rfl
  have hbssid : c.peer.bssid.same c.peer.bssid = true := Address.same_iff.2 rfl
  have hroom' : ¬ uint64Max - now < actionTimeout := UInt64.not_lt.2 hroom
  obtain ⟨rfl, rfl⟩ := ha
  refine wp_time_guard hF (fun _ h => Or.inl (hn.not_closed h))
    (fun h hlt => UInt64.not_lt.2 (hclock h) hlt) fun hc => ?_
  simp only [wp_get_bind, wp_ite, wp_pure]
  refine ⟨fun h => ?_, fun _ => ?_⟩
  · simp [hs, hsame, hbssid] at h
  · refine wp_expire_guard (hF.after _) hc (fun h => ?_) hroom' (fun _ h => absurd hn h) fun _ => ?_
    · -- Nothing is pending and no scan is running while an authentication is.
      rcases h with ⟨h, -⟩ | ⟨h, -⟩
      · simp [Controller.scanning, hs, State.rank] at h
      · exact absurd (hn.1.symm.trans h) (by decide)
    · simp only [wp_modify_bind, wp_ite, wp_pure]
      exact ⟨(by rintro ⟨⟩), fun _ => Or.inr (Or.inr ⟨by rw [List.append_nil], rfl⟩)⟩

/-! ## The theorem -/

theorem Healthy.faulted_of_lateFailing (hh : Healthy r) (hl : LateFailing r)
    (hout : (exec r.op r.before).Outcome r.log (r.result, r.after)) :
    r.after.state = .faulted :=
  (wp_outcome (late_faults hl.1.1 hl.1.2 hl.2) hout).resolve_left hh.not_declined

theorem Healthy.disconnecting_of_late (hh : Healthy r) (hl : Late r) (hnot : ¬ LateFailing r)
    (hout : (exec r.op r.before).Outcome r.log (r.result, r.after)) : Disconnecting r := by
  obtain ⟨c, op, log, ok, c'⟩ := r
  have hsucc : op.authenticates = true := by
    by_contra h
    exact hnot ⟨hl, by simpa using h⟩
  cases op with
  | authenticated original bssid success now =>
      obtain rfl : success = true := hsucc
      have hn : c.timedOut now := hl.1
      have hout' : (authenticated original bssid true now c).Outcome log (ok, c') := hout
      rcases wp_outcome (late_disconnects hn hl.2 hh.clock hh.room.horizon) hout' with
        h | h | ⟨rfl, h⟩
      · exact absurd h hh.not_declined
      · exact absurd h hh.serial
      · exact ⟨h, rfl, rfl⟩
  | _ => exact absurd hsucc (by simp [Op.authenticates])

/-- A run in which the environment does everything right never faults, and every response that
misses the authentication deadline begins the ordered disconnect, exactly if no failed
authentication and no association response misses that deadline. -/
theorem healthy_run_faults_iff (hrun : Run h c) (hh : ∀ r ∈ h, Healthy r) :
    (∀ r ∈ h, r.after.state ≠ .faulted ∧ (Late r → Disconnecting r)) ↔
      ∀ r ∈ h, ¬ LateFailing r := by
  constructor
  · intro hok r hr hl
    obtain ⟨hS, hout⟩ := Run.outcome_of_mem hrun hr
    exact (hok r hr).1 ((hh r hr).faulted_of_lateFailing hl hout)
  · intro hnone r hr
    obtain ⟨hS, hout⟩ := Run.outcome_of_mem hrun hr
    refine ⟨?_, fun hl => (hh r hr).disconnecting_of_late hl (hnone r hr) hout⟩
    obtain ⟨later, earlier, rfl⟩ := List.append_of_mem hr
    exact Run.not_faulted (Interaction.Run.drop hrun)
      (fun x hx => hh x (List.mem_append_right _ hx))
      fun x hx => hnone x (List.mem_append_right _ hx)

/-- The authentication of `linkUp`, up to the report that it succeeded. -/
def authentication : List Op :=
  bringUp ++
    [.connect accessPoint 6, .actionComplete ⟨1, 6⟩ .prepareAuthentication true 7,
      .authenticated ⟨1, 5⟩ accessPoint.bssid true 8]

/-- The access point accepts the association ten seconds after the authentication began: everything
is healthy, and the controller faults. -/
theorem late_association_faults :
    let ops := authentication ++
      [.associationReceived ⟨1, 5⟩
        { bssid := accessPoint.bssid, channel := accessPoint.channel, aid := 1 } 10000007]
    Run (history ops) (final ops) ∧ (∀ r ∈ history ops, Healthy r) ∧
      (final ops).state = .faulted :=
  ⟨run_history _, by decide +kernel, by decide +kernel⟩

/-- A second report that the authentication succeeded, ten seconds after it began, is harmless. -/
theorem healthy_run_faults_iff_late_success :
    let ops := authentication ++ [.authenticated ⟨1, 5⟩ accessPoint.bssid true 10000007]
    (∀ r ∈ history ops, Healthy r) ∧ (∀ r ∈ history ops, ¬ LateFailing r) ∧
      ∀ r ∈ history ops, r.after.state ≠ .faulted ∧ (Late r → Disconnecting r) :=
  have hh : ∀ r ∈ history (authentication ++
      [.authenticated ⟨1, 5⟩ accessPoint.bssid true 10000007]), Healthy r := by decide +kernel
  have hn : ∀ r ∈ history (authentication ++
      [.authenticated ⟨1, 5⟩ accessPoint.bssid true 10000007]), ¬ LateFailing r := by decide +kernel
  ⟨hh, hn, (healthy_run_faults_iff (run_history _) hh).2 hn⟩

end Station
end Rtl8852be
