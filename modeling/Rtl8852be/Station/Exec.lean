import Rtl8852be.Station.Move

/-!
# Exec — the code refines the transition relation

One rule for each backend operation and each private helper, then one theorem for each public
operation, and from these `exec_spec`: whatever the backend replies, a call of the controller ends
in a latched fault or makes one of the moves of `Move`.

The rules share a shape.  A helper that fails has latched the fault and returned `false`, and every
caller passes that on at once; `FaultOk W Q` says that the postcondition at hand does not mind, given
a reason for the fault, so a rule asks about the way on and for reasons.
-/

namespace Rtl8852be
namespace Station

open Interaction Network

variable {c : Controller} {W : Prop} {Q : Trace → Bool → Controller → Prop}

/-! ## One rule per backend operation -/

section Backend

variable {α : Type} {P : Trace → α → Controller → Prop}

@[simp] theorem wp_inGate (f : Bool → Gated α) :
    (Backend.inGate >>= f).wp P c ↔
      ∀ ok, (f ok).wp (fun log a c' => P (.call .inGate ok :: log) a c') c :=
  wp_ask_bind _ _

@[simp] theorem wp_setTraffic (mode : Traffic) (f : Bool → Gated α) :
    (Backend.setTraffic mode >>= f).wp P c ↔
      ∀ ok, (f ok).wp (fun log a c' => P (.call (.setTraffic mode) ok :: log) a c') c :=
  wp_ask_bind _ _

@[simp] theorem wp_reserveH2cSequence (f : Option UInt8 → Gated α) :
    (Backend.reserveH2cSequence >>= f).wp P c ↔
      ∀ r, (f r).wp (fun log a c' => P (.call .reserveH2cSequence r :: log) a c') c :=
  wp_ask_bind _ _

@[simp] theorem wp_publishH2c (bytes : List UInt8) (token : Token) (f : Bool → Gated α) :
    (Backend.publishH2c bytes token >>= f).wp P c ↔
      ∀ ok, (f ok).wp (fun log a c' => P (.call (.publishH2c bytes token) ok :: log) a c') c :=
  wp_ask_bind _ _

@[simp] theorem wp_beginAction (request : ActionRequest) (f : Bool → Gated α) :
    (Backend.beginAction request >>= f).wp P c ↔
      ∀ ok, (f ok).wp (fun log a c' => P (.call (.beginAction request) ok :: log) a c') c :=
  wp_ask_bind _ _

@[simp] theorem wp_beginAuthentication (token : Token) (peer : Peer) (f : Bool → Gated α) :
    (Backend.beginAuthentication token peer >>= f).wp P c ↔
      ∀ ok, (f ok).wp
        (fun log a c' => P (.call (.beginAuthentication token peer) ok :: log) a c') c :=
  wp_ask_bind _ _

@[simp] theorem wp_sendProbe (token : Token) (peer : Option Peer) (channel : ScanChannel)
    (f : Bool → Gated α) :
    (Backend.sendProbe token peer channel >>= f).wp P c ↔
      ∀ ok, (f ok).wp
        (fun log a c' => P (.call (.sendProbe token peer channel) ok :: log) a c') c :=
  wp_ask_bind _ _

@[simp] theorem wp_cancelProtocol (token : Token) (f : Bool → Gated α) :
    (Backend.cancelProtocol token >>= f).wp P c ↔
      ∀ ok, (f ok).wp (fun log a c' => P (.call (.cancelProtocol token) ok :: log) a c') c :=
  wp_ask_bind _ _

@[simp] theorem wp_scanFinished (token : Token) (cancelled : Bool) (f : Unit → Gated α) :
    (Backend.scanFinished token cancelled >>= f).wp P c ↔
      (f ()).wp (fun log a c' => P (.call (.scanFinished token cancelled) () :: log) a c') c :=
  (wp_ask_bind _ _).trans ⟨fun h => h (), fun h _ => h⟩

@[simp] theorem wp_recoveryRequired (token : Token) (error : Error) (f : Unit → Gated α) :
    (Backend.recoveryRequired token error >>= f).wp P c ↔
      (f ()).wp (fun log a c' => P (.call (.recoveryRequired token error) () :: log) a c') c :=
  (wp_ask_bind _ _).trans ⟨fun h => h (), fun h _ => h⟩

@[simp] theorem wp_firmwareRestartVerified (newEpoch : UInt64) (f : Bool → Gated α) :
    (Backend.firmwareRestartVerified newEpoch >>= f).wp P c ↔
      ∀ ok, (f ok).wp
        (fun log a c' => P (.call (.firmwareRestartVerified newEpoch) ok :: log) a c') c :=
  wp_ask_bind _ _

end Backend

/-! ## Postconditions a fault cannot break -/

/-- `FaultOk W Q`: a call that latches a fault and returns `false` satisfies `Q`, if there is a
reason for the fault; `W` stands for the reasons that were there before. -/
def FaultOk (W : Prop) (Q : Trace → Bool → Controller → Prop) : Prop :=
  ∀ log c', Fault W log c' → Q log false c'

theorem Declined.after {log : Trace} (h : Declined log) (l : Trace) : Declined (l ++ log) := by
  obtain ⟨e, he, hd⟩ := h
  exact ⟨e, List.mem_append_right l he, hd⟩

theorem Fault.after {log : Trace} {c' : Controller} (h : Fault W log c') (l : Trace) :
    Fault W (l ++ log) c' :=
  ⟨h.state, h.waitingAction, h.waitingCommand, h.cause.imp id (Or.imp (·.after l) id)⟩

theorem FaultOk.after (h : FaultOk W Q) (l : Trace) :
    FaultOk W fun log ok c' => Q (l ++ log) ok c' :=
  fun _ c' hf => h _ c' (hf.after l)

theorem FaultOk.cons (h : FaultOk W Q) (e : TraceEvent) :
    FaultOk W fun log ok c' => Q (e :: log) ok c' :=
  h.after [e]

theorem FaultOk.declined (h : FaultOk W Q) {e : TraceEvent} (he : declined e = true) :
    FaultOk True fun log ok c' => Q (e :: log) ok c' :=
  fun _ c' hf => h _ c'
    ⟨hf.state, hf.waitingAction, hf.waitingCommand, Or.inr (Or.inl ⟨e, List.mem_cons_self, he⟩)⟩

/-- What is left to show of a helper whose caller returns as soon as it returns `false`. -/
def Guarded (rest : Gated Bool) (Q : Trace → Bool → Controller → Prop) :
    Trace → Bool → Controller → Prop := fun log ok c' =>
  if ok then rest.wp (fun log' ok' c'' => Q (log ++ log') ok' c'') c' else Q log false c'

variable {rest : Gated Bool}

theorem wp_guard {m : Gated Bool} (h : m.wp (Guarded rest Q) c) :
    (do if !(← m) then return false
        rest).wp Q c := by
  rw [wp_bind]
  refine wp_mono h fun log ok c' hok => ?_
  cases ok <;> simpa [Guarded] using hok

theorem FaultOk.guarded (h : FaultOk W Q) (rest : Gated Bool) : FaultOk W (Guarded rest Q) :=
  fun log c' hf => h log c' hf

/-! ## One rule per helper -/

theorem wp_fail_of (error : Error) (hc : c.state ≠ .faulted)
    (h : ∀ log, Q log false
      { c with error := error, state := .faulted, waitingAction := false, waitingCommand := false }) :
    (fail error).wp Q c := by
  simp only [fail, wp_get_bind, wp_ite, wp_set_bind, wp_pure, wp_setTraffic,
    wp_recoveryRequired]
  exact ⟨fun hf => absurd hf hc, fun _ ok => h _⟩

theorem wp_fail (hQ : FaultOk W Q) (error : Error) (hc : c.state ≠ .faulted) (hW : W) :
    (fail error).wp Q c :=
  wp_fail_of error hc fun log => hQ log _ ⟨rfl, rfl, rfl, Or.inl hW⟩

theorem wp_traffic (hQ : FaultOk W Q) {value : Traffic} (hc : c.state ≠ .faulted)
    (hok : Q [.call (.setTraffic value) true] true c) : (traffic value).wp Q c := by
  simp only [traffic, wp_setTraffic, wp_ite, wp_pure]
  intro ok
  cases ok with
  | true => exact ⟨fun _ => hok, fun h => absurd rfl h⟩
  | false => exact ⟨(by rintro ⟨⟩), fun _ => wp_fail (hQ.declined rfl) .backend hc trivial⟩

theorem wp_time (hQ : FaultOk W Q) {now : UInt64}
    (hclosed : ∀ ok, (ok = true → c.state = .faulted) → Q [.call .inGate ok] false c)
    (hback : c.clockStarted = true → now < c.lastNow → W)
    (hok : c.state ≠ .faulted → Q gate true (c.clocked now)) : (time now).wp Q c := by
  simp only [time, wp_inGate, wp_ite, wp_pure, wp_get_bind, wp_set_bind]
  intro ok
  refine ⟨fun h => hclosed ok ?_, fun h => ⟨fun hf => hclosed ok fun _ => hf, fun hc =>
    ⟨fun hlt => ?_, fun _ => ?_⟩⟩⟩
  · have : ok = false := by simpa using h
    simp [this]
  · obtain ⟨hs, hlt⟩ : c.clockStarted = true ∧ now < c.lastNow := by simpa using hlt
    exact wp_fail (hQ.cons _) .clock hc (hback hs hlt)
  · have : ok = true := by simpa using h
    subst this
    exact hok hc

theorem wp_arm (hQ : FaultOk W Q) {duration : UInt64} (hc : c.state ≠ .faulted)
    (hroom : uint64Max - c.lastNow < duration → W)
    (hok : Q [] true { c with deadline := c.lastNow + duration }) : (arm duration).wp Q c := by
  simp only [arm, wp_get_bind, wp_ite, wp_set_bind, wp_pure]
  exact ⟨fun h => wp_fail hQ .clock hc (hroom h), fun _ => hok⟩

theorem wp_token {Q : Trace → Token → Controller → Prop} (hc : c.state ≠ .faulted)
    (hfault : ∀ log c', Fault W log c' → Q log {} c')
    (hok : Q [.note (.issued c.nextToken)] c.nextToken { c with serial := c.serial + 1 }) :
    token.wp Q c := by
  simp only [token, wp_get_bind, wp_ite, wp_set_bind, wp_pure,
    wp_tell_bind]
  refine ⟨fun hmax => ?_, fun _ => hok⟩
  rw [wp_bind]
  refine wp_fail_of .sequenceExhausted hc fun log => ?_
  have hf : Fault W log { c with
      error := .sequenceExhausted, state := .faulted, waitingAction := false,
      waitingCommand := false } := ⟨rfl, rfl, rfl, Or.inr (Or.inr hmax)⟩
  simpa using hfault log _ hf

@[simp] theorem wp_currentChannel {α : Type} {P : Trace → α → Controller → Prop}
    (f : ScanChannel → Gated α) :
    (currentChannel >>= f).wp P c ↔
      (f c.entry).wp (fun log a c' => P (readChannel c :: log) a c') c := by
  rw [currentChannel, wp_bind, wp_get_bind, wp_tell_bind, wp_pure]
  rfl

theorem wp_activeTune {α : Type} {P : Trace → α → Controller → Prop} (kind : Action)
    (f : Bool → Gated α) :
    (activeTune kind >>= f).wp P c ↔
      (f (kind == .scanTune && c.entry.active)).wp
        (fun log a c' => P ((if kind = .scanTune then [readChannel c] else []) ++ log) a c') c := by
  rw [activeTune, wp_bind, wp_ite]
  by_cases hk : kind = .scanTune
  · simp [hk]
  · have hb : (kind == .scanTune) = false := by
      simpa using hk
    simp [hk, hb]

/-- How a function goes on after `token()`: an exhausted counter has latched the fault. -/
theorem wp_token_guard (hQ : FaultOk W Q) {save : Token → Controller → Controller} (hc : c.state ≠ .faulted)
    (hsave : ∀ t c', (save t c').state = c'.state ∧ (save t c').serial = c'.serial ∧
      (save t c').waitingAction = c'.waitingAction ∧ (save t c').waitingCommand = c'.waitingCommand)
    (hok : rest.wp (fun log ok c' => Q (.note (.issued c.nextToken) :: log) ok c')
      (save c.nextToken { c with serial := c.serial + 1 })) :
    (do let t ← token
        modify fun c => save t c
        if (← get).state = State.faulted then return false
        rest).wp Q c := by
  rw [wp_bind]
  refine wp_token (W := W) hc (fun log c' hf => ?_) ?_
  · obtain ⟨hs, hn, ha, hm⟩ := hsave {} c'
    simp only [wp_modify_bind, wp_get_bind, wp_ite, wp_pure, List.append_nil]
    refine ⟨fun _ => hQ _ _ ⟨hs.trans hf.state, ha.trans hf.waitingAction,
      hm.trans hf.waitingCommand, ?_⟩, fun h => absurd (hs.trans hf.state) h⟩
    exact hf.cause.imp id (Or.imp id hn.trans)
  · obtain ⟨hs, -⟩ := hsave c.nextToken { c with serial := c.serial + 1 }
    simp only [wp_modify_bind, wp_get_bind, wp_ite]
    exact ⟨fun h => absurd (hs.symm.trans h) hc, fun _ => hok⟩

theorem wp_action (hQ : FaultOk W Q) {kind : Action} {state : State} {target : Channel}
    (hc : c.state ≠ .faulted) (hs : state ≠ .faulted) (hbusy : c.waiting = true → W)
    (hroom : uint64Max - c.lastNow < actionTimeout → W)
    (hok : c.waiting = false → Q (actionTrace c kind target) true (c.acting kind state)) :
    (action kind state target).wp Q c := by
  simp only [action, wp_get_bind, wp_ite]
  refine ⟨fun hw => wp_fail hQ .backend hc (hbusy hw), fun hw => ?_⟩
  refine wp_token_guard hQ hc (fun _ _ => ⟨rfl, rfl, rfl, rfl⟩) ?_
  rw [wp_modify_bind]
  refine wp_guard (wp_arm (FaultOk.guarded (hQ.cons _) _) hs hroom ?_)
  simp only [Guarded, if_true, wp_activeTune, wp_get_bind, wp_beginAction, wp_ite,
    wp_pure]
  intro ok
  cases ok with
  | true =>
      have hw' : c.waiting = false := by simpa using hw
      exact ⟨fun _ => hok hw', fun h => absurd rfl h⟩
  | false =>
      exact ⟨(by rintro ⟨⟩), fun _ =>
        wp_fail (((hQ.cons _).after _).declined rfl) .backend hs trivial⟩

theorem commandPacket_isSome {interface : Interface} (h : interface.encodable)
    (role removeOrDisconnect : Bool) (sequence : UInt8) :
    (commandPacket interface role removeOrDisconnect sequence).1 ≠ none := by
  obtain ⟨hb, hw, hp⟩ := h
  have hb' : ¬ 1 < interface.macIndex := UInt8.not_lt.2 hb
  have hw' : ¬ 3 < interface.wmm := UInt8.not_lt.2 hw
  have hp' : ¬ 7 < interface.port := UInt8.not_lt.2 hp
  cases role <;> cases removeOrDisconnect <;>
    simp [commandPacket, encodeRole, encodeJoin, encodeH2c, hb', hw', hp']

theorem wp_command (hQ : FaultOk W Q) {role removeOrDisconnect : Bool} {state : State}
    (hc : c.state ≠ .faulted) (hs : state ≠ .faulted) (hbusy : c.waiting = true → W)
    (henc : ¬ c.interface.encodable → W) (hroom : uint64Max - c.lastNow < commandTimeout → W)
    (hok : c.waiting = false → ∀ sequence bytes,
      (commandPacket c.interface role removeOrDisconnect sequence).1 = some bytes →
      Q (commandTrace c sequence bytes) true
        (c.commanding role removeOrDisconnect sequence state)) :
    (command role removeOrDisconnect state).wp Q c := by
  simp only [command, wp_get_bind, wp_ite]
  refine ⟨fun hw => wp_fail hQ .backend hc (hbusy hw), fun hw => ?_⟩
  rw [wp_reserveH2cSequence]
  intro reserved
  cases reserved with
  | none => exact wp_fail (hQ.declined rfl) .sequenceExhausted hc trivial
  | some sequence =>
      simp only [wp_get_bind, wp_modify_bind]
      cases hb : (commandPacket c.interface role removeOrDisconnect sequence).1 with
      | none =>
          refine wp_fail (hQ.cons _) .backend hc (henc fun he => ?_)
          exact commandPacket_isSome he role removeOrDisconnect sequence hb
      | some bytes =>
          refine wp_token_guard (hQ.cons _) hc (fun _ _ => ⟨rfl, rfl, rfl, rfl⟩) ?_
          rw [wp_modify_bind]
          refine wp_guard (wp_arm (FaultOk.guarded ((hQ.cons _).cons _) _) hs hroom ?_)
          simp only [Guarded, if_true, wp_get_bind, wp_publishH2c, wp_ite, wp_pure]
          intro ok
          cases ok with
          | true =>
              have hw' : c.waiting = false := by simpa using hw
              exact ⟨fun _ => hok hw' sequence bytes hb, fun h => absurd rfl h⟩
          | false =>
              exact ⟨(by rintro ⟨⟩), fun _ =>
                wp_fail ((((hQ.cons _).cons _).after _).declined rfl) .backend hs trivial⟩

theorem wp_traffic_guard {value : Traffic} (hQ : FaultOk W Q) (hc : c.state ≠ .faulted)
    (hok : rest.wp (fun log ok c' => Q (.call (.setTraffic value) true :: log) ok c') c) :
    (do if !(← traffic value) then return false
        rest).wp Q c :=
  wp_guard (wp_traffic (hQ.guarded rest) hc (by simpa [Guarded] using hok))

theorem wp_time_guard {now : UInt64} (hQ : FaultOk W Q)
    (hclosed : ∀ ok, (ok = true → c.state = .faulted) → Q [.call .inGate ok] false c)
    (hback : c.clockStarted = true → now < c.lastNow → W)
    (hok : c.state ≠ .faulted → rest.wp (fun log ok c' => Q (gate ++ log) ok c') (c.clocked now)) :
    (do if !(← time now) then return false
        rest).wp Q c :=
  wp_guard (wp_time (hQ.guarded rest) hclosed hback fun hc => by simpa [Guarded] using hok hc)

theorem wp_beginDisconnect (hQ : FaultOk W Q) (hc : c.state ≠ .faulted)
    (hbusy : c.waiting = true → W) (hroom : uint64Max - c.lastNow < actionTimeout → W)
    (hok : c.waiting = false → Q (disconnectTrace c) true c.parting) : beginDisconnect.wp Q c := by
  refine wp_traffic_guard hQ hc ?_
  simp only [wp_get_bind, wp_cancelProtocol, wp_ite]
  intro ok
  cases ok with
  | true =>
      refine ⟨(by rintro ⟨⟩), fun _ => ?_⟩
      exact wp_action ((hQ.cons _).cons _) hc (by decide) hbusy hroom hok
  | false =>
      refine ⟨fun _ => ?_, fun h => absurd rfl h⟩
      exact wp_fail ((hQ.cons _).declined rfl) .backend hc trivial

theorem wp_tuneScan (hQ : FaultOk W Q) (hc : c.state ≠ .faulted)
    (hbusy : c.waiting = true → W) (hroom : uint64Max - c.lastNow < actionTimeout → W)
    (hok : c.waiting = false → Q (tuneTrace c) true c.tuning) : tuneScan.wp Q c := by
  refine wp_traffic_guard hQ hc ?_
  rw [wp_currentChannel]
  exact wp_action ((hQ.cons _).cons _) hc (by decide) hbusy hroom hok

theorem wp_restoreScan (hQ : FaultOk W Q) (hc : c.state ≠ .faulted)
    (hbusy : c.waiting = true → W) (hroom : uint64Max - c.lastNow < actionTimeout → W)
    (hok : c.waiting = false → Q (restoreTrace c) true c.restoring) : restoreScan.wp Q c := by
  refine wp_traffic_guard hQ hc ?_
  rw [wp_get_bind]
  exact wp_action (hQ.cons _) hc (by decide) hbusy hroom hok

/-- The two ways `expire` lets a call go on: nothing is due, or it has just begun the disconnect
of an authentication that ran out of time. -/
theorem wp_expire (hQ : FaultOk W Q) (hc : c.state ≠ .faulted)
    (hover : c.overdue c.lastNow → W) (hroom : uint64Max - c.lastNow < actionTimeout → W)
    (hok : ¬ c.overdue c.lastNow → ¬ c.timedOut c.lastNow → Q [] true c)
    (hlate : c.timedOut c.lastNow →
      Q (disconnectTrace (c.leaving .timeout)) true (c.leaving .timeout).parting) :
    expire.wp Q c := by
  simp only [expire, wp_get_bind, wp_ite, wp_set_bind, wp_pure]
  refine ⟨fun h => ?_, fun hscan => ⟨fun hw => ⟨fun hd => ?_, fun hd => ?_⟩, fun hw =>
    ⟨fun ht => ?_, fun ht => ?_⟩⟩⟩
  · exact wp_fail hQ .timeout hc (hover (Or.inl (by simpa using h)))
  · exact wp_fail hQ .timeout hc (hover (Or.inr ⟨hw, hd⟩))
  · have h1 : ¬ c.overdue c.lastNow := by
      rintro (⟨hs, hd'⟩ | ⟨_, hd'⟩)
      · exact hscan (by simp [hs, hd'])
      · exact hd hd'
    have h2 : ¬ c.timedOut c.lastNow := fun h => by simp [h.1] at hw
    exact hok h1 h2
  · have hw' : c.waiting = false := by simpa using hw
    refine wp_beginDisconnect hQ hc (fun h => absurd h hw) hroom fun _ => ?_
    exact hlate ⟨hw', ht.1, ht.2⟩
  · have h1 : ¬ c.overdue c.lastNow := by
      rintro (⟨hs, hd'⟩ | ⟨hw', _⟩)
      · exact hscan (by simp [hs, hd'])
      · exact hw hw'
    have h2 : ¬ c.timedOut c.lastNow := fun h => ht ⟨h.2.1, h.2.2⟩
    exact hok h1 h2

theorem wp_expire_guard (hQ : FaultOk W Q) (hc : c.state ≠ .faulted) (hover : c.overdue c.lastNow → W)
    (hroom : uint64Max - c.lastNow < actionTimeout → W)
    (hok : ¬ c.overdue c.lastNow → ¬ c.timedOut c.lastNow → rest.wp Q c)
    (hlate : c.timedOut c.lastNow →
      rest.wp (fun log ok c' => Q (disconnectTrace (c.leaving .timeout) ++ log) ok c')
        (c.leaving .timeout).parting) :
    (do if !(← expire) then return false
        rest).wp Q c :=
  wp_guard (wp_expire (hQ.guarded rest) hc hover hroom
    (fun h1 h2 => by simpa [Guarded] using hok h1 h2) hlate)

/-! ## Reasons -/

theorem Sound.not_waiting (h : Sound c) (hs : c.state.settled = true) : c.waiting = false := by
  by_contra hw
  have hw' : c.waitingAction = true ∨ c.waitingCommand = true := by
    rwa [Bool.not_eq_false, Controller.waiting, Bool.or_eq_true] at hw
  rcases hw' with ha | hm
  · have hstate := (h.action ha).2
    rw [hstate] at hs
    cases hk : c.pendingAction <;> simp [hk, Action.state, State.settled] at hs
  · have hstate := h.command hm
    cases hk : c.state <;> simp [hk, State.command, State.settled] at hstate hs

theorem Sound.not_busy (h : Sound c) {state : State} (hs : c.state = state)
    (hset : state.settled = true) (hw : c.waiting = true) : False := by
  subst hs
  simp [h.not_waiting hset] at hw

theorem Sound.not_both (h : Sound c) (ha : c.waitingAction = true) (hm : c.waitingCommand = true) :
    False := by
  simp [(h.action ha).1] at hm

theorem Sound.resume_ne_faulted (h : Sound c) (hs : c.scanning = true) :
    c.scanResume ≠ .faulted := by
  rcases h.resume hs with hr | hr | hr <;> simp [hr]

theorem Improper.commandHorizon {op : Op} (h : uint64Max - op.now < commandTimeout) :
    Improper c op :=
  .horizon (UInt64.lt_trans h (by decide))

theorem Improper.authenticationHorizon {op : Op}
    (h : uint64Max - op.now < authenticationTimeout) : Improper c op :=
  .horizon (UInt64.lt_trans h (by decide))

theorem Improper.dwellHorizon {op : Op} (hS : Sound c) (hw : c.waitingAction = true)
    (hk : c.pendingAction = .scanTune)
    (h : uint64Max - op.now < c.entry.dwellMs.toUInt64 * 1000) : Improper c op := by
  have hstate : c.state = .scanningTune := by simp [(hS.action hw).2, hk, Action.state]
  have hscan : c.scanning = true := by simp [Controller.scanning, hstate, State.rank]
  have hin := hS.inPlan hscan (by simp [hstate]) (by simp [hstate])
  have hdwell : c.entry.dwellMs.toNat ≤ 1000 := UInt16.le_iff_toNat_le.1 (hS.dwell hscan _ hin)
  refine .horizon (UInt64.lt_trans h ?_)
  have hmul : c.entry.dwellMs.toNat * 1000 < 18446744073709551616 := by omega
  rw [UInt64.lt_iff_toNat_lt, UInt64.toNat_mul]
  simp only [UInt16.toNat_toUInt64, actionTimeout, UInt64.toNat_ofNat, Nat.reducePow,
    Nat.reduceMod, Nat.mod_eq_of_lt hmul]
  omega

/-! ## One theorem per public operation -/

/-- What a call may do: latch a fault for a reason, or make a move. -/
def Spec (c : Controller) (op : Op) (log : Trace) (ok : Bool) (c' : Controller) : Prop :=
  (ok = false ∧ Fault (Improper c op) log c') ∨ Move c op log ok c'

theorem spec_faultOk (c : Controller) (op : Op) : FaultOk (Improper c op) (Spec c op) :=
  fun _ _ hf => Or.inl ⟨rfl, hf⟩

theorem restart_spec (newEpoch now : UInt64) :
    (restart newEpoch now).wp (Spec c (.restart newEpoch now)) c := by
  simp only [restart, wp_inGate, wp_ite, wp_get_bind, wp_pure, wp_set_bind,
    wp_firmwareRestartVerified, wp_setTraffic]
  intro opened
  refine ⟨fun _ => Or.inr .closed, fun hopen => ⟨fun _ => Or.inr .closed, fun hepoch => ?_⟩⟩
  have hopen' : opened = true := by simpa using hopen
  subst hopen'
  intro verified
  refine ⟨fun hv => ?_, fun hv paused => ⟨fun hp => ?_, fun hp => ?_⟩⟩
  · have hv' : verified = false := by simpa using hv
    subst hv'
    exact Or.inr .restartUnverified
  · have hv' : verified = true := by simpa using hv
    have hp' : paused = false := by simpa using hp
    subst hv' hp'
    exact Or.inr .restartUnpaused
  · have hv' : verified = true := by simpa using hv
    have hp' : paused = true := by simpa using hp
    subst hv' hp'
    obtain ⟨h0, hlt⟩ := not_or.1 hepoch
    exact Or.inr (.restart h0 (UInt64.not_le.1 hlt))

/-- Every operation but `restart` starts with `time`. -/
theorem wp_entry (op : Op)
    (hok : c.state ≠ .faulted → rest.wp (fun log ok c' => Spec c op (gate ++ log) ok c') (c.clocked op.now)) :
    (do if !(← time op.now) then return false
        rest).wp (Spec c op) c :=
  wp_time_guard (spec_faultOk c op) (fun _ _ => Or.inr .closed) (fun hs h => .backwards hs h) hok

theorem start_spec (hS : Sound c) (config : Interface) (now : UInt64) :
    (start config now).wp (Spec c (.start config now)) c := by
  have hF := (spec_faultOk c (.start config now)).after gate
  refine wp_entry (.start config now) fun hc => ?_
  simp only [wp_get_bind, wp_ite, wp_pure, wp_set_bind]
  refine ⟨fun _ => Or.inr (.refused hc), fun h => ?_⟩
  obtain ⟨hs, h⟩ := not_or.1 h
  obtain ⟨he, ha⟩ := not_or.1 h
  have hs' : c.state = .stopped := not_not.1 hs
  have ha' : acceptable config = true := by simpa using ha
  refine wp_traffic_guard hF hc ?_
  refine wp_action (hF.cons _) hc (by decide) (fun h => (hS.not_busy hs' rfl h).elim) (fun h => .horizon h) fun hw => ?_
  exact Or.inr (.start hs' hw he ha')

theorem stop_spec (hS : Sound c) (now : UInt64) : (stop now).wp (Spec c (.stop now)) c := by
  have hF := (spec_faultOk c (.stop now)).after gate
  refine wp_entry (.stop now) fun hc => ?_
  simp only [wp_get_bind, wp_ite, wp_pure]
  refine ⟨fun _ => Or.inr (.refused hc), fun hs => ?_⟩
  have hs' : c.state = .idle := not_not.1 hs
  refine wp_traffic_guard hF hc ?_
  refine wp_command (hF.cons _) hc (by decide) (fun h => (hS.not_busy hs' rfl h).elim) (fun h => absurd (hS.encodable hc) h)
    (fun h => .commandHorizon h) fun hw sequence bytes hb => ?_
  exact Or.inr (.stop hs' hw hb)

theorem scan_spec (hS : Sound c) (plan : Option (List ScanChannel)) (now : UInt64) :
    (scan plan now).wp (Spec c (.scan plan now)) c := by
  have hF := (spec_faultOk c (.scan plan now)).after gate
  refine wp_entry (.scan plan now) fun hc => ?_
  simp only [wp_get_bind, wp_ite, wp_pure]
  refine ⟨fun _ => Or.inr (.refused hc), fun hs => ?_⟩
  have hs' : c.state = .idle ∨ c.state = .authorized := by
    by_contra h
    exact hs (not_or.1 h)
  have hsettled : c.state.settled = true := by
    rcases hs' with h | h <;> rw [h] <;> rfl
  cases plan with
  | none =>
      simp only [wp_pure]
      exact Or.inr (.refused hc)
  | some plan =>
      simp only [wp_ite, wp_pure, wp_modify_bind]
      refine ⟨fun _ => Or.inr (.refused hc), fun hlen => ⟨fun _ => Or.inr (.refused hc), fun hall =>
        ⟨fun h => wp_fail hF .clock hc (.budget h), fun _ => ?_⟩⟩⟩
      refine wp_token_guard hF hc (fun _ _ => ⟨rfl, rfl, rfl, rfl⟩) ?_
      rw [wp_modify_bind]
      refine wp_traffic_guard (hF.cons _) hc ?_
      refine wp_action ((hF.cons _).cons _) hc (by decide) (fun h => (hS.not_busy rfl hsettled h).elim) (fun h => .horizon h) fun hw => ?_
      obtain ⟨h0, hmax⟩ := not_or.1 hlen
      exact Or.inr (.scan hs' hw (Nat.pos_of_ne_zero h0) (not_lt.1 hmax) (by simpa using hall))

/-- `cancelScan` after its guards, from a controller in which a scan is running. -/
theorem wp_cancel (hQ : FaultOk W Q) (hc : c.state ≠ .faulted) (hs : c.scanning = true)
    (hover : c.overdue c.lastNow → W) (hroom : uint64Max - c.lastNow < actionTimeout → W)
    (hbusy : c.state = .scanningDwell → c.waiting = true → W)
    (hwait : c.state ≠ .scanningDwell → Q [] true { c with scanCancelled := true })
    (hdwell : c.state = .scanningDwell → c.waiting = false →
      Q (restoreTrace { c with scanCancelled := true }) true
        ({ c with scanCancelled := true } : Controller).restoring) :
    (do if !(← expire) then return false
        modify fun c => { c with scanCancelled := true }
        if (← get).state = .scanningDwell then restoreScan else return true : Gated Bool).wp Q c := by
  refine wp_expire_guard hQ hc hover hroom (fun _ _ => ?_) fun hlate => ?_
  · simp only [wp_modify_bind, wp_get_bind, wp_ite, wp_pure]
    refine ⟨fun hd => ?_, hwait⟩
    exact wp_restoreScan hQ hc (hbusy hd) hroom (hdwell hd)
  · -- A scan is not an authentication.
    have : c.state = .authenticating := hlate.2.1
    simp [Controller.scanning, this, State.rank] at hs

theorem cancelScan_spec (hS : Sound c) (original : Token) (now : UInt64) :
    (cancelScan original now).wp (Spec c (.cancelScan original now)) c := by
  have hF := (spec_faultOk c (.cancelScan original now)).after gate
  refine wp_entry (.cancelScan original now) fun hc => ?_
  simp only [wp_get_bind, wp_ite, wp_pure]
  refine ⟨fun _ => Or.inr (.refused hc), fun h => ?_⟩
  obtain ⟨hs, ht⟩ : c.scanning = true ∧ original = c.scanToken := by
    simpa using h
  exact wp_cancel hF hc hs (fun h => .overdue h) (fun h => .horizon h)
    (fun hd h => (hS.not_busy hd rfl h).elim) (fun hd => Or.inr (.cancelScan hs ht hd))
    fun hd hw => Or.inr (.cancelDwell ht hd hw)

theorem connect_spec (hS : Sound c) (peer : Peer) (now : UInt64) :
    (connect peer now).wp (Spec c (.connect peer now)) c := by
  have hF := (spec_faultOk c (.connect peer now)).after gate
  refine wp_entry (.connect peer now) fun hc => ?_
  simp only [wp_get_bind, wp_ite, wp_pure, wp_set_bind]
  refine ⟨fun _ => Or.inr (.refused hc), fun h => ?_⟩
  obtain ⟨hs, h⟩ := not_or.1 h
  obtain ⟨hb, h⟩ := not_or.1 h
  obtain ⟨hl, hv⟩ := not_or.1 h
  have hs' : c.state = .idle := not_not.1 hs
  refine wp_token_guard hF hc (fun _ _ => ⟨rfl, rfl, rfl, rfl⟩) ?_
  refine wp_traffic_guard (hF.cons _) hc ?_
  refine wp_action ((hF.cons _).cons _) hc (by decide) (fun h => (hS.not_busy hs' rfl h).elim) (fun h => .horizon h)
    fun hw => ?_
  exact Or.inr (.connect hs' hw (by simpa using hb) (UInt8.not_lt.1 hl) (by simpa using hv))

theorem authenticated_spec (hS : Sound c) (original : Token) (bssid : Address) (success : Bool) (now : UInt64) :
    (authenticated original bssid success now).wp
      (Spec c (.authenticated original bssid success now)) c := by
  have hF := (spec_faultOk c (.authenticated original bssid success now)).after gate
  refine wp_entry (.authenticated original bssid success now) fun hc => ?_
  simp only [wp_get_bind, wp_ite, wp_pure]
  refine ⟨fun _ => Or.inr (.refused hc), fun h => ?_⟩
  obtain ⟨hs, h⟩ := not_or.1 h
  obtain ⟨ht, hb⟩ := not_or.1 h
  have hs' : c.state = .authenticating := not_not.1 hs
  have ht' : original = c.associationToken := by simpa using ht
  have hb' : bssid = c.peer.bssid := by simpa using hb
  refine wp_expire_guard hF hc (fun h => .overdue h) (fun h => .horizon h) (fun _ hn => ?_)
    fun hlate => ?_
  · simp only [wp_modify_bind, wp_ite, wp_pure]
    refine ⟨fun hf => ?_, fun hf => ?_⟩
    · have hf' : success = false := by simpa using hf
      subst hf'
      exact wp_beginDisconnect hF hc (fun h => (hS.not_busy hs' rfl h).elim) (fun h => .horizon h) fun hw =>
        Or.inr (.authenticationFailed hs' hw ht' hb' hn)
    · have hf' : success = true := by simpa using hf
      subst hf'
      exact Or.inr (.authenticated hs' ht' hb' hn)
  · simp only [wp_modify_bind, wp_ite, wp_pure]
    refine ⟨fun hf => ?_, fun hf => ?_⟩
    · -- The disconnect of the timeout is already under way, so a second one faults.
      have hf' : success = false := by simpa using hf
      subst hf'
      refine wp_beginDisconnect (hF.after _) (by simp) (fun _ => .lateFailure ht' hb' hlate)
        (fun h => .horizon h) fun hw => ?_
      simp [Controller.waiting] at hw
    · have hf' : success = true := by simpa using hf
      subst hf'
      rw [List.append_nil]
      exact Or.inr (.authenticatedLate ht' hb' hlate)

theorem associationReceived_spec (hS : Sound c) (original : Token) (peer : Association) (now : UInt64) :
    (associationReceived original peer now).wp
      (Spec c (.associationReceived original peer now)) c := by
  have hF := (spec_faultOk c (.associationReceived original peer now)).after gate
  refine wp_entry (.associationReceived original peer now) fun hc => ?_
  simp only [wp_get_bind, wp_ite, wp_pure]
  refine ⟨fun _ => Or.inr (.refused hc), fun h => ?_⟩
  obtain ⟨hs, h⟩ := not_or.1 h
  obtain ⟨ha, h⟩ := not_or.1 h
  obtain ⟨ht, h⟩ := not_or.1 h
  obtain ⟨hb, h⟩ := not_or.1 h
  obtain ⟨hch, h⟩ := not_or.1 h
  obtain ⟨h0, h1⟩ := not_or.1 h
  have hs' : c.state = .authenticating := not_not.1 hs
  have ha' : c.authenticated = true := by simpa using ha
  have ht' : original = c.associationToken := by simpa using ht
  have hb' : peer.bssid = c.peer.bssid := by simpa using hb
  have hch' : peer.channel = c.peer.channel := by simpa using hch
  have h1' : peer.aid ≤ 2007 := UInt16.not_lt.1 h1
  refine wp_expire_guard hF hc (fun h => .overdue h) (fun h => .horizon h) (fun _ hn => ?_)
    fun hlate => ?_
  · rw [wp_modify_bind]
    exact wp_action hF hc (by decide) (fun h => (hS.not_busy hs' rfl h).elim) (fun h => .horizon h) fun hw =>
      Or.inr (.associationReceived hs' hw ha' ht' hb' hch' h0 h1' hn)
  · rw [wp_modify_bind]
    refine wp_action (hF.after _) (by simp) (by decide)
      (fun _ => .lateAssociation ha' ht' hb' hch' h0 h1' hlate) (fun h => .horizon h) fun hw => ?_
    simp [Controller.waiting] at hw

theorem associationRejected_spec (hS : Sound c) (original : Token) (bssid : Address) (status : UInt16)
    (now : UInt64) :
    (associationRejected original bssid status now).wp
      (Spec c (.associationRejected original bssid status now)) c := by
  have hF := (spec_faultOk c (.associationRejected original bssid status now)).after gate
  refine wp_entry (.associationRejected original bssid status now) fun hc => ?_
  simp only [wp_get_bind, wp_ite, wp_pure]
  refine ⟨fun _ => Or.inr (.refused hc), fun h => ?_⟩
  obtain ⟨hs, h⟩ := not_or.1 h
  obtain ⟨ha, h⟩ := not_or.1 h
  obtain ⟨ht, h⟩ := not_or.1 h
  obtain ⟨hb, h0⟩ := not_or.1 h
  have hs' : c.state = .authenticating := not_not.1 hs
  have ha' : c.authenticated = true := by simpa using ha
  have ht' : original = c.associationToken := by simpa using ht
  have hb' : bssid = c.peer.bssid := by simpa using hb
  refine wp_expire_guard hF hc (fun h => .overdue h) (fun h => .horizon h) (fun _ hn => ?_)
    fun hlate => ?_
  · rw [wp_modify_bind]
    exact wp_beginDisconnect hF hc (fun h => (hS.not_busy hs' rfl h).elim) (fun h => .horizon h) fun hw =>
      Or.inr (.associationRejected hs' hw ha' ht' hb' h0 hn)
  · rw [wp_modify_bind]
    refine wp_beginDisconnect (hF.after _) (by simp)
      (fun _ => .lateRejection ha' ht' hb' h0 hlate) (fun h => .horizon h) fun hw => ?_
    simp [Controller.waiting] at hw

theorem authorizePort_spec (original : Token) (now : UInt64) :
    (authorizePort original now).wp (Spec c (.authorizePort original now)) c := by
  have hF := (spec_faultOk c (.authorizePort original now)).after gate
  refine wp_entry (.authorizePort original now) fun hc => ?_
  simp only [wp_get_bind, wp_ite, wp_pure]
  refine ⟨fun _ => Or.inr (.refused hc), fun h => ?_⟩
  obtain ⟨hs, ht⟩ := not_or.1 h
  refine wp_traffic_guard hF hc ?_
  rw [wp_modify_bind, wp_pure]
  exact Or.inr (.authorizePort (not_not.1 hs) (by simpa using ht))

theorem revokePort_spec (original : Token) (now : UInt64) :
    (revokePort original now).wp (Spec c (.revokePort original now)) c := by
  have hF := (spec_faultOk c (.revokePort original now)).after gate
  refine wp_entry (.revokePort original now) fun hc => ?_
  simp only [wp_get_bind, wp_ite, wp_pure]
  refine ⟨fun _ => Or.inr (.refused hc), fun h => ?_⟩
  have ht : original = c.associationToken := by simpa using h
  refine wp_expire_guard hF hc (fun h => .overdue h) (fun h => .horizon h) (fun _ _ => ?_)
    fun hlate => ?_
  · simp only [wp_get_bind, wp_ite, wp_pure, wp_set_bind]
    refine ⟨fun hs => Or.inr (.revokeScan ht hs.1 hs.2), fun _ => ⟨fun _ => Or.inr (.refused hc),
      fun hl => ?_⟩⟩
    have hl' : c.linked = true := by simpa using hl
    refine wp_traffic_guard hF hc ?_
    rw [wp_modify_bind, wp_pure]
    exact Or.inr (.revokePort ht hl')
  · -- The link is gone: `expire` has left the controller in `disconnectingCmac`.
    simp only [wp_get_bind, wp_ite, wp_pure, wp_set_bind, List.append_nil]
    refine ⟨fun hs => ?_, fun _ => ⟨fun _ => Or.inr (.revokeTimedOut ht hlate), fun hl => ?_⟩⟩
    · simp [Controller.scanning, State.rank] at hs
    · simp [Controller.linked] at hl

theorem tick_spec (hS : Sound c) (now : UInt64) : (tick now).wp (Spec c (.tick now)) c := by
  have hF := (spec_faultOk c (.tick now)).after gate
  refine wp_entry (.tick now) fun hc => ?_
  refine wp_expire_guard hF hc (fun h => .overdue h) (fun h => .horizon h) (fun _ _ => ?_)
    fun hlate => ?_
  · simp only [wp_get_bind, wp_ite, wp_pure, wp_set_bind]
    refine ⟨fun hd => ⟨fun hx => ?_, fun hx => ⟨fun hn => ?_, fun hn => ?_⟩⟩, fun _ =>
      Or.inr (.tick hc)⟩
    · exact wp_restoreScan hF hc (fun h => (hS.not_busy hd.1 rfl h).elim) (fun h => .horizon h) fun hw =>
        Or.inr (.dwellCancelled hd.1 hw hd.2 hx)
    · exact wp_restoreScan hF hc (fun h => (hS.not_busy hd.1 rfl h).elim) (fun h => .horizon h) fun hw =>
        Or.inr (.lastChannel hd.1 hw hd.2 (by simpa using hx) hn)
    · exact wp_tuneScan hF hc (fun h => (hS.not_busy hd.1 rfl h).elim) (fun h => .horizon h) fun hw =>
        Or.inr (.nextChannel hd.1 hw hd.2 (by simpa using hx) hn)
  · simp only [wp_get_bind, wp_ite, wp_pure, wp_set_bind, List.append_nil]
    refine ⟨fun hd => ?_, fun _ => Or.inr (.tickTimedOut hlate)⟩
    simp at hd

/-- `cancelScan` as `disconnect` calls it: with the scan's own token and the time it has just
taken. -/
theorem wp_cancelScan (hQ : FaultOk W Q) (hc : c.state ≠ .faulted) (hs : c.scanning = true)
    (hclock : c.clocked c.lastNow = c)
    (hover : c.overdue c.lastNow → W) (hroom : uint64Max - c.lastNow < actionTimeout → W)
    (hbusy : c.state = .scanningDwell → c.waiting = true → W)
    (hclosed : Q [.call .inGate false] false c)
    (hwait : c.state ≠ .scanningDwell → Q gate true { c with scanCancelled := true })
    (hdwell : c.state = .scanningDwell → c.waiting = false →
      Q (gate ++ restoreTrace { c with scanCancelled := true }) true
        ({ c with scanCancelled := true } : Controller).restoring) :
    (cancelScan c.scanToken c.lastNow).wp Q c := by
  refine wp_time_guard hQ (fun ok hok => ?_) (fun _ h => absurd h (UInt64.lt_irrefl _)) fun _ => ?_
  · cases ok with
    | true => exact absurd (hok rfl) hc
    | false => exact hclosed
  · rw [hclock]
    simp only [wp_get_bind, wp_ite, wp_pure]
    refine ⟨fun h => ?_, fun _ => ?_⟩
    · have hsame : c.scanToken.same c.scanToken = true := Token.same_iff.2 rfl
      simp [hs, hsame] at h
    · exact wp_cancel (hQ.after _) hc hs hover hroom hbusy hwait hdwell

theorem disconnect_spec (hS : Sound c) (now : UInt64) : (disconnect now).wp (Spec c (.disconnect now)) c := by
  have hF := (spec_faultOk c (.disconnect now)).after gate
  refine wp_entry (.disconnect now) fun hc => ?_
  refine wp_expire_guard hF hc (fun h => .overdue h) (fun h => .horizon h) (fun _ hn => ?_)
    fun hlate => ?_
  · simp only [wp_get_bind, wp_ite, wp_pure, wp_set_bind]
    refine ⟨fun hs => Or.inr (.disconnectIdle hs), fun _ => ⟨fun hs => ?_, fun _ =>
      ⟨fun _ => Or.inr (.refused hc), fun hrange => ?_⟩⟩⟩
    · have hcancel : (cancelScan c.scanToken now).wp
          (fun log ok c' => Spec c (.disconnect now) (gate ++ log) ok c')
          { c.clocked now with
            disconnectRequested := c.disconnectRequested || c.scanResume != .idle } :=
        wp_cancelScan
          (c := { c.clocked now with
            disconnectRequested := c.disconnectRequested || c.scanResume != .idle })
          hF hc hs rfl (fun h => .overdue h) (fun h => .horizon h) (fun hd h => (hS.not_busy hd rfl h).elim)
          (Or.inr (.disconnectScanClosed hs)) (fun hd => Or.inr (.disconnectScan hs hd))
          fun hd hw => Or.inr (.disconnectDwell hd hw)
      refine ⟨fun hr => ?_, fun hr => ?_⟩
      · have hb : (c.scanResume != .idle) = true := bne_iff_ne.2 hr
        rw [hb, Bool.or_true] at hcancel
        exact hcancel
      · have hb : (c.scanResume != .idle) = false := by simpa using hr
        rw [hb, Bool.or_false] at hcancel
        exact hcancel
    · obtain ⟨hlo, hhi⟩ := not_or.1 hrange
      refine wp_traffic_guard hF hc ?_
      simp only [wp_get_bind, wp_ite, wp_pure]
      refine ⟨fun hw => Or.inr (.disconnectDeferred hw (not_lt.1 hlo) (not_lt.1 hhi)), fun hw => ?_⟩
      refine wp_beginDisconnect (hF.cons _) hc (fun h => absurd h hw) (fun h => .horizon h)
        fun hw' => ?_
      exact Or.inr (.disconnectNow hw' (not_lt.1 hlo) (not_lt.1 hhi) hn)
  · have hrange : ¬ (State.disconnectingCmac.rank < State.preparingAuthentication.rank ∨
        State.disconnectingCam.rank < State.disconnectingCmac.rank) := by decide
    simp only [wp_get_bind, wp_ite, wp_pure, wp_set_bind]
    refine ⟨(by rintro ⟨⟩), fun _ => ⟨(by rintro ⟨⟩), fun _ => ⟨fun h => absurd h hrange, fun _ => ?_⟩⟩⟩
    refine wp_traffic_guard (hF.after _) (by simp) ?_
    simp only [wp_get_bind, wp_ite, wp_pure]
    exact ⟨fun _ => Or.inr (.disconnectTimedOut hlate), fun h => absurd rfl h⟩

theorem wp_completeTune (hQ : FaultOk W Q) (hc : c.state ≠ .faulted)
    (hbusy : c.waiting = true → W) (hroom : uint64Max - c.lastNow < actionTimeout → W)
    (hdwell : uint64Max - c.lastNow < c.entry.dwellMs.toUInt64 * 1000 → W)
    (hcancelled : c.scanCancelled = true → Q (restoreTrace c) true c.restoring)
    (htuned : c.scanCancelled = false → Q (dwellTrace c) true
      { c with
        state := .scanningDwell, deadline := c.lastNow + c.entry.dwellMs.toUInt64 * 1000 }) :
    completeTune.wp Q c := by
  simp only [completeTune, wp_get_bind, wp_ite, wp_modify_bind, wp_currentChannel]
  refine ⟨fun hx => wp_restoreScan hQ hc hbusy hroom fun _ => hcancelled hx, fun hx => ?_⟩
  have htuned' := htuned (by simpa using hx)
  refine wp_guard (wp_arm (FaultOk.guarded (hQ.cons _) _) (by simp) hdwell ?_)
  simp only [Guarded, if_true, wp_currentChannel]
  -- Every read sees the same entry: only the state and the deadline have changed.
  change Code.wp (do
    if !(← traffic (if c.entry.active then .scanProbe else .none)) then return false
    _) _ _
  cases ha : c.entry.active with
  | true =>
      refine wp_traffic_guard ((hQ.cons _).cons _) (by simp) ?_
      simp only [wp_get_bind, wp_currentChannel, wp_ite, wp_sendProbe, wp_pure]
      refine ⟨fun _ sent => ?_, fun h => absurd ha h⟩
      cases sent with
      | true =>
          rw [dwellTrace, if_pos ha] at htuned'
          exact ⟨fun _ => htuned', fun h => absurd rfl h⟩
      | false =>
          refine ⟨(by rintro ⟨⟩), fun _ => ?_⟩
          exact wp_fail (((((hQ.cons _).cons _).cons _).after [_, _]).declined rfl) .backend (by simp)
            trivial
  | false =>
      refine wp_traffic_guard ((hQ.cons _).cons _) (by simp) ?_
      simp only [wp_get_bind, wp_currentChannel, wp_ite, wp_sendProbe, wp_pure]
      refine ⟨fun h => absurd (ha.symm.trans h) (by decide), fun _ => ?_⟩
      rw [dwellTrace, if_neg (by simp [ha])] at htuned'
      exact htuned'

theorem wp_completeScan (hQ : FaultOk W Q) (hr : c.scanResume ≠ .faulted)
    (hbusy : c.waiting = true → W) (hroom : uint64Max - c.lastNow < actionTimeout → W)
    (hended : c.disconnectRequested = false →
      Q [.call (.setTraffic (resumeMode c.scanResume)) true,
          .call (.scanFinished c.scanToken c.scanCancelled) ()] true
        { c with state := c.scanResume, scanToken := {} })
    (hleaving : c.disconnectRequested = true →
      Q (paused :: .call (.scanFinished c.scanToken c.scanCancelled) () :: disconnectTrace c) true
        ({ c with state := c.scanResume, scanToken := {} } : Controller).parting) :
    completeScan.wp Q c := by
  simp only [completeScan, wp_modify_bind, wp_get_bind]
  refine wp_traffic_guard hQ hr ?_
  simp only [wp_scanFinished, wp_modify_bind, wp_get_bind, wp_ite, wp_pure]
  refine ⟨fun hd => ?_, fun hd => ?_⟩
  · rw [if_pos hd]
    exact wp_beginDisconnect ((hQ.cons _).cons _) hr hbusy hroom fun _ => hleaving hd
  · rw [if_neg hd]
    exact hended (by simpa using hd)

theorem actionComplete_spec (hS : Sound c) (original : Token) (kind : Action) (success : Bool) (now : UInt64) :
    (actionComplete original kind success now).wp
      (Spec c (.actionComplete original kind success now)) c := by
  have hF := (spec_faultOk c (.actionComplete original kind success now)).after gate
  refine wp_entry (.actionComplete original kind success now) fun hc => ?_
  simp only [wp_get_bind, wp_ite, wp_pure]
  refine ⟨fun _ => Or.inr (.refused hc), fun h => ?_⟩
  obtain ⟨⟨hw, ht⟩, hk⟩ :
      (c.waitingAction = true ∧ original = c.pendingToken) ∧ kind = c.pendingAction := by
    simpa using h
  refine wp_expire_guard hF hc (fun h => .overdue h) (fun h => .horizon h) (fun hd _ => ?_)
    fun hlate => ?_
  · simp only [wp_modify_bind, wp_ite]
    refine ⟨fun hf => ?_, fun hf => ?_⟩
    · have hf' : success = false := by simpa using hf
      subst hf'
      exact wp_fail hF .backend hc (.failed hw ht hk)
    · have hf' : success = true := by simpa using hf
      subst hf'
      have hok : ∀ {log c'}, Completion { c.clocked now with waitingAction := false } kind log c' →
          Spec c (.actionComplete original kind true now) (gate ++ log) true c' :=
        fun h => Or.inr (.actionComplete hw ht hk hd h)
      have hbusy : ({ c.clocked now with waitingAction := false } : Controller).waiting = true →
          Improper c (.actionComplete original kind true now) := fun h => (hS.not_both hw h).elim
      have hroom : uint64Max - now < actionTimeout →
          Improper c (.actionComplete original kind true now) := fun h => .horizon h
      have hcroom : uint64Max - now < commandTimeout →
          Improper c (.actionComplete original kind true now) := fun h => .commandHorizon h
      have henc : ¬ c.interface.encodable →
          Improper c (.actionComplete original kind true now) := fun h => absurd (hS.encodable hc) h
      cases kind with
      | prepareInterface =>
          exact wp_command hF hc (by decide) hbusy henc hcroom fun _ _ _ hb =>
            hok (.interfacePrepared hb)
      | idleTables =>
          simp only [wp_modify_bind]
          exact wp_traffic hF (by simp) (hok .idleInstalled)
      | scanBegin =>
          simp only [wp_get_bind, wp_ite]
          refine ⟨fun hx => ?_, fun hx => ?_⟩
          · exact wp_restoreScan hF hc hbusy hroom fun _ => hok (.scanBegunCancelled hx)
          · exact wp_tuneScan hF hc hbusy hroom fun _ => hok (.scanBegun (by simpa using hx))
      | scanTune =>
          exact wp_completeTune hF hc hbusy hroom (fun h => .dwellHorizon hS hw hk.symm h)
            (fun hx => hok (.tunedCancelled hx)) fun hx => hok (.tuned hx)
      | scanRestore =>
          exact wp_action hF hc (by decide) hbusy hroom fun _ => hok .scanRestored
      | scanEnd =>
          have hstate : c.state = .scanningEnd := by simp [(hS.action hw).2, ← hk, Action.state]
          have hr := hS.resume_ne_faulted (by simp [Controller.scanning, hstate, State.rank])
          exact wp_completeScan hF hr hbusy hroom (fun hd => hok (.scanEnded hd))
            fun hd => hok (.scanEndedLeaving hd)
      | prepareAuthentication =>
          simp only [wp_get_bind, wp_ite, wp_modify_bind]
          refine ⟨fun hx => ?_, fun hx => ?_⟩
          · exact wp_beginDisconnect hF hc hbusy hroom fun _ =>
              hok (.authenticationPreparedLeaving hx)
          · refine wp_guard (wp_arm (FaultOk.guarded hF _) (by simp)
              (fun h => .authenticationHorizon h) ?_)
            simp only [Guarded, if_true]
            refine wp_traffic_guard hF (by simp) ?_
            simp only [wp_get_bind, wp_beginAuthentication, wp_ite, wp_pure]
            intro begun
            cases begun with
            | true => exact ⟨fun _ => hok (.authenticationPrepared (by simpa using hx)), fun h => absurd rfl h⟩
            | false =>
                exact ⟨(by rintro ⟨⟩), fun _ =>
                  wp_fail ((hF.cons _).declined rfl) .backend (by simp) trivial⟩
      | associationCmac =>
          simp only [wp_get_bind, wp_ite]
          refine ⟨fun hx => ?_, fun hx => ?_⟩
          · exact wp_beginDisconnect hF hc hbusy hroom fun _ => hok (.cmacInstalledLeaving hx)
          · exact wp_command hF hc (by decide) hbusy henc hcroom fun _ _ _ hb =>
              hok (.cmacInstalled (by simpa using hx) hb)
      | associationCam =>
          simp only [wp_get_bind, wp_ite, wp_modify_bind]
          refine ⟨fun hx => ?_, fun hx => ?_⟩
          · exact wp_beginDisconnect hF hc hbusy hroom fun _ => hok (.camInstalledLeaving hx)
          · exact wp_traffic hF (by simp) (hok (.camInstalled (by simpa using hx)))
      | disconnectCmac =>
          exact wp_command hF hc (by decide) hbusy henc hcroom fun _ _ _ hb => hok (.partedCmac hb)
      | disconnectCam =>
          simp only [wp_modify_bind]
          exact wp_traffic hF (by simp) (hok .partedCam)
      | removeCam =>
          simp only [wp_modify_bind, wp_pure]
          exact hok .camRemoved
  · -- An action is pending, so no authentication is running out of time.
    have hwait : c.waiting = true := by simp [Controller.waiting, hw]
    exact absurd (hlate.1.symm.trans hwait) (by decide)

theorem firmwareEvent_spec (hS : Sound c) (event : FirmwareEvent) (receiveEpoch now : UInt64) :
    (firmwareEvent event receiveEpoch now).wp
      (Spec c (.firmwareEvent event receiveEpoch now)) c := by
  have hF := (spec_faultOk c (.firmwareEvent event receiveEpoch now)).after gate
  refine wp_entry (.firmwareEvent event receiveEpoch now) fun hc => ?_
  simp only [wp_get_bind, wp_ite, wp_pure]
  refine ⟨fun _ => Or.inr (.refused hc), fun h => ?_⟩
  obtain ⟨hw', he'⟩ := not_or.1 h
  have hw : c.waitingCommand = true := by simpa using hw'
  have he : receiveEpoch = c.epoch.epoch := not_not.1 he'
  refine wp_expire_guard hF hc (fun h => .overdue h) (fun h => .horizon h) (fun hd _ => ?_)
    fun hlate => ?_
  · rw [wp_get_bind]
    cases hack : decodeAck event with
    | none =>
        simp only [wp_pure]
        exact Or.inr (.refused hc)
    | some ack =>
        simp only [wp_ite, wp_pure, wp_set_bind]
        refine ⟨fun _ => Or.inr (.refused hc), fun hno => ⟨fun hrc => ?_, fun hrc => ?_⟩⟩
        all_goals
          obtain ⟨hdone', hno⟩ := not_or.1 hno
          obtain ⟨hseq', hcmd'⟩ := not_or.1 hno
          have hdone : ack.done = true := by simpa using hdone'
          have hseq : ack.sequence = c.pendingSequence := not_not.1 hseq'
          have hcmd : ack.command = c.pendingCommand := by simpa using hcmd'
        · exact wp_fail hF .firmwareRejected hc (.rejected hw he hack hdone hseq hcmd hrc)
        · have hok : ∀ {log c'},
              Acknowledged { c.clocked now with waitingCommand := false } log c' →
              Spec c (.firmwareEvent event receiveEpoch now) (gate ++ log) true c' := fun h =>
            Or.inr (.firmwareEvent hw he hack hdone hseq hcmd (not_not.1 hrc) hd h)
          have hbusy :
              ({ c.clocked now with waitingCommand := false } : Controller).waiting = true →
              Improper c (.firmwareEvent event receiveEpoch now) := fun h => by
            have ha : c.waitingAction = true := by simpa [Controller.waiting] using h
            exact (hS.not_both ha hw).elim
          have hroom : uint64Max - now < actionTimeout →
              Improper c (.firmwareEvent event receiveEpoch now) := fun h => .horizon h
          have hcroom : uint64Max - now < commandTimeout →
              Improper c (.firmwareEvent event receiveEpoch now) := fun h => .commandHorizon h
          have henc : ¬ c.interface.encodable →
              Improper c (.firmwareEvent event receiveEpoch now) := fun h =>
            absurd (hS.encodable hc) h
          split
          case h_1 hs =>
              rw [wp_modify_bind]
              exact wp_command hF hc (by decide) hbusy henc hcroom fun _ _ _ hb =>
                hok (.roleCreated hs hb)
          case h_2 hs =>
              exact wp_action hF hc (by decide) hbusy hroom fun _ => hok (.noLink hs)
          case h_3 hs =>
              rw [wp_ite]
              refine ⟨fun hx => ?_, fun hx => ?_⟩
              · exact wp_beginDisconnect hF hc hbusy hroom fun _ => hok (.joinedLeaving hs hx)
              · exact wp_action hF hc (by decide) hbusy hroom fun _ =>
                  hok (.joined hs (by simpa using hx))
          case h_4 hs =>
              exact wp_action hF hc (by decide) hbusy hroom fun _ => hok (.left hs)
          case h_5 hs =>
              exact wp_action hF hc (by decide) hbusy hroom fun _ => hok (.roleRemoved hs)
          case h_6 hcr hnl hj hd hrr =>
              -- No command is pending in any other state.
              have hstate := hS.command hw
              cases hs : c.state <;> simp_all [State.command]
  · -- A command is pending, so no authentication is running out of time.
    have hwait : c.waiting = true := by simp [Controller.waiting, hw]
    exact absurd (hlate.1.symm.trans hwait) (by decide)

theorem exec_spec (hS : Sound c) (op : Op) : (exec op).wp (Spec c op) c := by
  cases op with
  | restart newEpoch now => exact restart_spec newEpoch now
  | start config now => exact start_spec hS config now
  | scan plan now => exact scan_spec hS plan now
  | cancelScan original now => exact cancelScan_spec hS original now
  | connect peer now => exact connect_spec hS peer now
  | authenticated original bssid success now =>
      exact authenticated_spec hS original bssid success now
  | associationReceived original peer now => exact associationReceived_spec hS original peer now
  | associationRejected original bssid status now =>
      exact associationRejected_spec hS original bssid status now
  | authorizePort original now => exact authorizePort_spec original now
  | revokePort original now => exact revokePort_spec original now
  | disconnect now => exact disconnect_spec hS now
  | stop now => exact stop_spec hS now
  | tick now => exact tick_spec hS now
  | actionComplete original kind success now =>
      exact actionComplete_spec hS original kind success now
  | firmwareEvent event receiveEpoch now => exact firmwareEvent_spec hS event receiveEpoch now

end Station
end Rtl8852be
