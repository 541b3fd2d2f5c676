import Rtl8852be.Host.MacNetworkState

/-!
# Actions — no radio action with frames in flight

A radio action may retune the hardware, so it must not begin while a frame is pending or owned by a
transmit ring, and no frame may be sent before it is over.  This file follows the traces of the
backend:

* `Watch` — what a trace says about the action in progress;
* `Proper` — what each moment of a trace may be, in view of the moments before it;
* `Linked` — how the watch and the backend's record agree;
* `no_action_with_frames_in_flight` — the whole of it for every run, under the boot service's promise
  `CompletesOnce`.
-/

namespace Rtl8852be
namespace Host

open Interaction Station Queue Network

/-! ## Moments of interest -/

/-- The station's request `r` was accepted. -/
def Accepts (r : ActionRequest) (x : Step) : Prop :=
  x.op = .beginAction r ∧ x.what = .left (some true)

/-- The boot service was told to begin `r`. -/
def Begins (r : ActionRequest) (x : Step) : Prop :=
  ∃ peer b, x.what = .call (.beginAction r peer) b

/-- A poll takes the completion of `r` from the queue and hands it to the station. -/
def Consumes (r : ActionRequest) (x : Step) : Prop :=
  x.op = .poll ∧ ∃ success, x.what = .lent (.actionComplete ⟨r.token, r.action, success⟩)

/-- The boot service reports the end of an action. -/
def Reports (token : Token) (action : Action) (x : Step) : Prop :=
  (∃ success, x.op = .stationActionComplete token action success) ∧ x.what = .entered

/-- A poll had the boot service pause the scheduler. -/
def Pauses (x : Step) : Prop :=
  x.op = .poll ∧ x.what = .call (.setTraffic .none) true

/-- A frame becomes pending, is staged on a ring, or is published. -/
def Transmits (x : Step) : Prop :=
  match x.what with
  | .call .prepareNextTx (.ready _) => True
  | .call (.publish _ _) _ => True
  | .note (.staged _ _) => True
  | _ => False

/-- A `setTraffic` other than `none` was accepted. -/
def Admits (x : Step) : Prop :=
  ∃ t, t ≠ .none ∧ x.op = .setTraffic t ∧ x.what = .left (some true)

/-- The boot service completes each begun action at most once: between two reports of one action it
was told to begin another one. -/
def CompletesOnce (t : List Step) : Prop :=
  ∀ before x between y after token action, t = before ++ x :: between ++ y :: after →
    Reports token action x → Reports token action y → ∃ z ∈ between, ∃ r, Begins r z

/-! ## The watch -/

/-- What a trace says about the action in progress. -/
structure Watch where
  inFlight : Bool := false
  accepted : Option ActionRequest := none
  begun : Option ActionRequest := none
  answered : Bool := false

/-- Is this the identity of the begun action? -/
def Watch.awaits (w : Watch) (token : Token) (action : Action) : Bool :=
  w.begun.any fun r => r.token == token && r.action == action

def Watch.next (w : Watch) (x : Step) : Watch :=
  match x.what with
  | .left (some true) =>
      match x.op with
      | .beginAction r => { inFlight := true, accepted := some r }
      | _ => w
  | .lent (.actionComplete _) => { w with inFlight := false }
  | .call (.beginAction r _) _ => { w with begun := some r, answered := false }
  | .entered =>
      match x.op with
      | .stationActionComplete token action _ =>
          if w.awaits token action then { w with answered := true } else w
      | _ => w
  | _ => w

def watch (t : List Step) : Watch := t.foldl Watch.next {}

@[simp] theorem watch_concat (t : List Step) (x : Step) : watch (t ++ [x]) = (watch t).next x := by
  simp [watch]

/-- What a moment may be, in view of the moments before it. -/
def Proper (before : List Step) (x : Step) : Prop :=
  match x.what with
  | .call (.beginAction r _) _ =>
      x.op = .poll ∧ x.state.pendingTx = none ∧ (∀ i, (x.state.tx i).outstanding = 0) ∧
        (watch before).accepted = some r ∧ ∃ earlier y, before = earlier ++ [y] ∧ Pauses y
  | .call .prepareNextTx (.ready _) => (watch before).inFlight = false
  | .call (.publish _ _) _ => (watch before).inFlight = false
  | .note (.staged _ _) => (watch before).inFlight = false
  | .note (.queued item) => x.state.actionDeferred = false ∧
      ∃ r, (watch before).begun = some r ∧ item.token = r.token ∧ item.action = r.action
  | .left (some true) =>
      match x.op with
      | .setTraffic t => t ≠ .none → (watch before).inFlight = false
      | .beginAction _ => (watch before).inFlight = false
      | _ => True
  | .lent (.actionComplete item) => x.op = .poll ∧
      ∃ r, (watch before).accepted = some r ∧ item.token = r.token ∧ item.action = r.action
  | _ => True

/-- The promise of the boot service at one moment, in terms of the watch. -/
def Fair (before : List Step) (x : Step) : Prop :=
  match x.what with
  | .entered =>
      match x.op with
      | .stationActionComplete token action _ =>
          (watch before).awaits token action = true → (watch before).answered = false
      | _ => True
  | _ => True

/-- Moments that neither the watch nor the promise is about. -/
structure Routine (x : Step) : Prop where
  next : ∀ w : Watch, w.next x = w
  proper : ∀ before, Proper before x

/-- The calls whose moments are routine. -/
def plain : Call → Bool
  | .beginAction _ _ => false
  | .prepareNextTx => false
  | .publish _ _ => false
  | _ => true

theorem routine_call {op : Op} {s : State} {c : Call} (hc : plain c = true) (r : Reply c) :
    Routine ⟨op, s, .call c r⟩ := by
  cases c with
  | beginAction r peer => cases hc
  | prepareNextTx => cases hc
  | publish ring next => cases hc
  | _ => exact ⟨fun _ => rfl, fun _ => trivial⟩

variable {y : Loan}

theorem routine_regained {op : Op} {s : State} {b : Bool} :
    Routine ⟨op, s, .regained y b⟩ :=
  ⟨fun _ => rfl, fun _ => trivial⟩

/-- The loans that do not consume a completion. -/
def ordinary : Loan → Bool
  | .actionComplete _ => false
  | _ => true

theorem routine_lent {op : Op} {s : State} (hy : ordinary y = true) :
    Routine ⟨op, s, .lent y⟩ := by
  cases y with
  | actionComplete item => cases hy
  | _ => exact ⟨fun _ => rfl, fun _ => trivial⟩

/-! ## The invariant -/

/-- How the watch and the record agree. -/
structure Linked (w : Watch) (s : State) : Prop where
  inFlight : s.actionInFlight = w.inFlight
  deferred : s.actionDeferred = true → s.actionInFlight = true
  accepted : s.actionInFlight = true → w.accepted = some s.activeAction
  begun : s.actionInFlight = true → s.actionDeferred = false → w.begun = some s.activeAction
  quiet : s.actionInFlight = true → s.pendingTx = none
  completed : ∀ item ∈ s.completed, s.actionInFlight = true ∧ s.actionDeferred = false ∧
    item.token = s.activeAction.token ∧ item.action = s.activeAction.action
  answered : s.completed ≠ [] → w.answered = true ∧ s.completed.length = 1

/-- What a trace of fair moments has kept. -/
structure Kept (t : List Step) (s : State) : Prop where
  proper : Always Proper t
  linked : Linked (watch t) s

def Inv (t : List Step) (s : State) : Prop := Always Fair t → Kept t s

variable {t : List Step} {s s' : State} {op : Op} {w : Watch}

theorem inv_initial : Inv [] started := by
  intro _
  refine ⟨always_nil, ?_⟩
  refine ⟨rfl, nofun, nofun, nofun, nofun, nofun, ?_⟩
  intro h
  exact absurd rfl h

variable {x : Step}

/-- A moment is added; the promise at this moment may be used. -/
theorem Inv.add (h : Inv t s) (hx : Always Fair t → Kept t s → Fair t x → Proper t x ∧ Linked ((watch t).next x) s') :
    Inv (t ++ [x]) s' := by
  intro hfair
  rcases always_concat.1 hfair with ⟨hf, hfx⟩
  have hk := h hf
  rcases hx hf hk hfx with ⟨hp, hl⟩
  refine ⟨always_concat.2 ⟨hk.proper, hp⟩, ?_⟩
  rwa [watch_concat]

theorem Inv.routine (h : Inv t s) (hx : Routine x) : Inv (t ++ [x]) s := by
  apply h.add
  intro _ hk _
  refine ⟨hx.proper t, ?_⟩
  rw [hx.next]
  exact hk.linked

/-- The record changes where the watch does not look; a pending frame may be dropped. -/
theorem Linked.keep (h : Linked w s) (hin : s'.actionInFlight = s.actionInFlight)
    (hdef : s'.actionDeferred = s.actionDeferred) (hact : s'.activeAction = s.activeAction)
    (hcomp : s'.completed = s.completed)
    (hpend : s.actionInFlight = true → s.pendingTx = none → s'.pendingTx = none) : Linked w s' where
  inFlight := hin.trans h.inFlight
  deferred := by
    rw [hin, hdef]
    exact h.deferred
  accepted := by
    rw [hin, hact]
    exact h.accepted
  begun := by
    rw [hin, hdef, hact]
    exact h.begun
  quiet := by
    rw [hin]
    exact fun hf => hpend hf (h.quiet hf)
  completed := by
    rw [hin, hdef, hact, hcomp]
    exact h.completed
  answered := by
    rw [hcomp]
    exact h.answered

theorem Inv.keep (h : Inv t s) (hin : s'.actionInFlight = s.actionInFlight)
    (hdef : s'.actionDeferred = s.actionDeferred) (hact : s'.activeAction = s.activeAction)
    (hcomp : s'.completed = s.completed)
    (hpend : s.actionInFlight = true → s.pendingTx = none → s'.pendingTx = none) : Inv t s' := by
  intro hfair
  exact ⟨(h hfair).proper, (h hfair).linked.keep hin hdef hact hcomp hpend⟩

/-! ## Code that keeps the invariant -/

/-- As part of `op`, the code keeps the invariant, and the condition `J` on the record with it. -/
def Safe (op : Op) (J : State → Prop) {α : Type} (m : Backend α) : Prop :=
  Reentrant.Triple Inv op (fun t s => Inv t s ∧ J s) m fun t _ s => Inv t s ∧ J s

def Any (_ : State) : Prop := True

def Idle (s : State) : Prop := s.actionInFlight = false

/-- The conditions that only look at the action in progress. -/
def Framed (J : State → Prop) : Prop :=
  ∀ s s' : State, s'.actionInFlight = s.actionInFlight → s'.actionDeferred = s.actionDeferred →
    s'.activeAction = s.activeAction → s'.completed = s.completed → J s → J s'

theorem framed_any : Framed Any := fun _ _ _ _ _ _ _ => trivial

theorem framed_idle : Framed Idle := fun _ _ hin _ _ _ h => hin.trans h

variable {J : State → Prop} {α β : Type}

theorem Safe.bind {m : Backend α} {f : α → Backend β} (hm : Safe op J m)
    (hf : ∀ a, Safe op J (f a)) : Safe op J (m >>= f) :=
  Reentrant.Triple.bind hm hf

theorem safe_pure (a : α) : Safe op J (pure a : Backend α) :=
  Reentrant.Triple.pure fun _ _ h => h

theorem safe_get_bind {f : State → Backend α} (hf : ∀ s, Safe op J (f s)) :
    Safe op J (get >>= f) :=
  fun t s h => hf s t s h

theorem safe_ite {c : Prop} [Decidable c] {m m' : Backend α} (hm : Safe op J m)
    (hm' : Safe op J m') : Safe op J (if c then m else m') :=
  Reentrant.Triple.ite (fun _ => hm) fun _ => hm'

theorem safe_ask {c : Call} (hc : plain c = true) : Safe op J (ask c) :=
  Reentrant.Triple.ask fun _ r _ h => ⟨h.1.routine (routine_call hc r), h.2⟩

theorem safe_lend (hy : ordinary y = true) : Safe op Any (lend y) :=
  Reentrant.Triple.lend (fun _ _ h => h.1.routine (routine_lent hy))
    fun _ _ _ h => ⟨h.routine routine_regained, trivial⟩

/-- An assignment that leaves the action in progress and the pending frame alone, or drops it. -/
theorem safe_modify {g : State → State} (hJ : Framed J)
    (hin : ∀ s, (g s).actionInFlight = s.actionInFlight)
    (hdef : ∀ s, (g s).actionDeferred = s.actionDeferred)
    (hact : ∀ s, (g s).activeAction = s.activeAction)
    (hcomp : ∀ s, (g s).completed = s.completed)
    (hpend : ∀ s, s.pendingTx = none → (g s).pendingTx = none) : Safe op J (modify g) :=
  Reentrant.Triple.modify fun _ s h =>
    ⟨h.1.keep (hin s) (hdef s) (hact s) (hcomp s) fun _ => hpend s,
      hJ s (g s) (hin s) (hdef s) (hact s) (hcomp s) h.2⟩

theorem releasePendingTx_safe (hJ : Framed J) : Safe op J releasePendingTx :=
  safe_modify hJ (fun _ => rfl) (fun _ => rfl) (fun _ => rfl) (fun _ => rfl) fun _ _ => rfl

theorem fail_safe (hJ : Framed J) (reason : String) : Safe op J (fail reason) := by
  apply safe_get_bind
  intro s
  apply safe_ite (safe_pure ())
  refine Safe.bind ?_ fun _ => Safe.bind (safe_ask rfl) fun _ => safe_ask rfl
  exact safe_modify hJ (fun _ => rfl) (fun _ => rfl) (fun _ => rfl) (fun _ => rfl) fun _ h => h

theorem dropForegroundHostProbe_safe (hJ : Framed J) : Safe op J dropForegroundHostProbe := by
  apply Safe.bind (safe_ask rfl)
  intro node
  apply safe_get_bind
  intro s
  exact safe_ite (releasePendingTx_safe hJ) (safe_pure ())

theorem foregroundProbeContext_safe : Safe op J foregroundProbeContext := by
  apply safe_get_bind
  intro s
  exact safe_ite (safe_pure false) (safe_ask rfl)

theorem cancelForeground_safe (cancelStation : Bool) :
    Safe op Any (cancelForeground cancelStation) := by
  apply Safe.bind (safe_ask rfl)
  intro active
  apply safe_ite (safe_pure ())
  apply Safe.bind (dropForegroundHostProbe_safe framed_any)
  intro _
  apply Safe.bind (safe_ask rfl)
  intro draining
  apply safe_ite _ (safe_pure ())
  apply Safe.bind (safe_lend rfl)
  intro cancelled
  exact safe_ite (fail_safe framed_any _) (safe_pure ())

theorem expireForegroundHardware_safe : Safe op Any expireForegroundHardware := by
  apply Safe.bind (safe_ask rfl)
  intro draining
  apply safe_ite _ (safe_pure ())
  apply Safe.bind (safe_lend rfl)
  intro cancelled
  exact safe_ite (fail_safe framed_any _) (safe_pure ())

/-! ## The pump -/

/-- The calls by which a frame moves on. -/
def moves : Call → Bool
  | .prepareNextTx => true
  | .publish _ _ => true
  | _ => false

theorem safe_move {c : Call} (hc : moves c = true) : Safe op Idle (ask c) := by
  apply Reentrant.Triple.ask
  rintro t r s ⟨hI, hidle⟩
  refine ⟨hI.add ?_, hidle⟩
  intro _ hk _
  have hin : (watch t).inFlight = false := hk.linked.inFlight.symm.trans hidle
  cases c with
  | prepareNextTx =>
      cases r with
      | ready lease => exact ⟨hin, hk.linked⟩
      | _ => exact ⟨trivial, hk.linked⟩
  | publish ring next => exact ⟨hin, hk.linked⟩
  | _ => cases hc

theorem safe_staged (ring : Fin 6) (lease : TxLease) : Safe op Idle (tell (.staged ring lease)) := by
  apply Reentrant.Triple.tell
  rintro t s ⟨hI, hidle⟩
  refine ⟨hI.add ?_, hidle⟩
  intro _ hk _
  exact ⟨hk.linked.inFlight.symm.trans hidle, hk.linked⟩

/-- With no action in flight, a frame may be or stay pending. -/
theorem settled_safe (ring : Fin 6) (q : Net80211PciQueue) (pending : Option TxLease) :
    Safe op Idle (modify fun s : State => { s with
      tx := Function.update s.tx ring q, pendingTx := pending } : Backend PUnit) := by
  apply Reentrant.Triple.modify
  rintro t s ⟨hI, hidle⟩
  refine ⟨hI.keep rfl rfl rfl rfl ?_, hidle⟩
  intro hin
  rw [hidle] at hin
  cases hin

theorem submitNativeData_safe (ring : Fin 6) (lease : TxLease) (info : TxInfo) :
    Safe op Idle (submitNativeData ring lease info) := by
  apply Safe.bind (safe_ask rfl)
  intro running
  apply safe_ite (safe_pure _)
  apply Safe.bind (safe_ask rfl)
  intro owned
  apply safe_ite (safe_pure _)
  apply Safe.bind (safe_ask rfl)
  intro reply
  apply safe_get_bind
  intro s
  rcases (s.tx ring).stage (some lease) info reply with ⟨e | staged, pending, q⟩
  · exact Safe.bind (settled_safe ring q pending) fun _ => safe_pure _
  · apply Safe.bind (safe_staged ring lease)
    intro _
    apply Safe.bind (settled_safe ring q pending)
    intro _
    apply Safe.bind (safe_ask rfl)
    intro synced
    apply safe_ite (safe_pure _)
    apply Safe.bind (safe_move rfl)
    intro published
    exact safe_pure _

/-- A round of the pump: it may begin an action, but only if it is the last one. -/
def Round (op : Op) (m : Backend Bool) : Prop :=
  Reentrant.Triple Inv op (fun t s => Inv t s ∧ Idle s) m
    fun t more s => Inv t s ∧ (more = true → Idle s)

theorem Safe.round {m : Backend Bool} (h : Safe op Idle m) : Round op m :=
  h.conseq (fun _ _ hs => hs) fun _ _ _ hs => ⟨hs.1, fun _ => hs.2⟩

theorem Safe.round_bind {m : Backend α} {f : α → Backend Bool} (hm : Safe op Idle m)
    (hf : ∀ a, Round op (f a)) : Round op (m >>= f) :=
  Reentrant.Triple.bind hm hf

theorem round_ite {c : Prop} [Decidable c] {m m' : Backend Bool} (hm : Round op m)
    (hm' : Round op m') : Round op (if c then m else m') :=
  Reentrant.Triple.ite (fun _ => hm) fun _ => hm'

theorem round_stop {m : Backend α} (h : Safe op Any m) : Round op (m >>= fun _ => pure false) := by
  refine Reentrant.Triple.bind (h.conseq (fun _ _ hs => ⟨hs.1, trivial⟩) fun _ _ _ hs => hs) ?_
  intro _
  exact Reentrant.Triple.pure fun _ _ hs => ⟨hs.1, nofun⟩

theorem round_fail (reason : String) :
    Round op (do releasePendingTx; fail reason; pure false) := by
  apply Safe.round_bind (releasePendingTx_safe framed_idle)
  intro _
  exact round_stop (fail_safe framed_any reason)

/-- Drop the pending probe and cancel its scan, which may begin an action. -/
theorem round_cancel : Round op (do releasePendingTx; cancelForeground true; pure false) := by
  apply Safe.round_bind (releasePendingTx_safe framed_idle)
  intro _
  exact round_stop (cancelForeground_safe true)

theorem counted_safe : Safe op Idle
    (modify fun s : State => { s with txSubmitted := s.txSubmitted + 1 } : Backend PUnit) :=
  safe_modify framed_idle (fun _ => rfl) (fun _ => rfl) (fun _ => rfl) (fun _ => rfl) fun _ h => h

theorem publishPending_round (probe : Bool) (ring : Fin 6) (lease : TxLease) (info : TxInfo) :
    Round op (publishPending probe ring lease info) := by
  apply Safe.round_bind (submitNativeData_safe ring lease info)
  intro error
  apply round_ite (round_fail _)
  apply round_ite
  · apply Safe.round_bind (safe_ask rfl)
    intro submitted
    apply round_ite (round_stop (fail_safe framed_any _))
    exact (Safe.bind counted_safe fun _ => safe_pure true).round
  · exact (Safe.bind counted_safe fun _ => safe_pure true).round

theorem round_get_bind {f : State → Backend Bool} (hf : ∀ s, Round op (f s)) :
    Round op (get >>= f) :=
  fun t s h => hf s t s h

theorem publishProbe_round (ring : Fin 6) (lease : TxLease) (info : TxInfo) :
    Round op (publishProbe ring lease info) := by
  apply round_get_bind
  intro s
  apply round_ite (round_fail _)
  apply Safe.round_bind foregroundProbeContext_safe
  intro context
  exact round_ite round_cancel (publishPending_round true ring lease info)

theorem routePending_round (probe : Bool) (lease : TxLease) :
    Round op (routePending probe lease) := by
  apply Safe.round_bind (safe_ask rfl)
  intro route
  rcases route with _ | ⟨info, ring⟩
  · exact round_fail _
  · by_cases h : ring < 6
    · simp only [h, dif_pos]
      apply round_get_bind
      intro s
      apply round_ite (safe_pure false).round
      exact round_ite (publishProbe_round _ lease info) (publishPending_round false _ lease info)
    · simp only [h, dif_neg, not_false_eq_true]
      exact round_fail _

theorem probeWanted_safe : Safe op J probeWanted := by
  apply Safe.bind (safe_ask rfl)
  intro pending
  exact safe_ite (safe_pure false) foregroundProbeContext_safe

theorem pumpPending_round (lease : TxLease) : Round op (pumpPending lease) := by
  apply Safe.round_bind (safe_ask rfl)
  intro node
  apply Safe.round_bind (safe_ask rfl)
  intro active
  apply Safe.round_bind (safe_ask rfl)
  intro activeScan
  apply round_ite (round_fail _)
  apply round_ite _ (routePending_round false lease)
  apply Safe.round_bind probeWanted_safe
  intro wanted
  exact round_ite round_cancel (routePending_round true lease)

/-- With no action in flight, a prepared frame may become pending. -/
theorem pending_safe (lease : TxLease) : Safe op Idle
    (modify fun s : State => { s with pendingTx := some lease } : Backend PUnit) := by
  apply Reentrant.Triple.modify
  rintro t s ⟨hI, hidle⟩
  refine ⟨hI.keep rfl rfl rfl rfl ?_, hidle⟩
  intro hin
  rw [hidle] at hin
  cases hin

theorem pumpRound_round : Round op pumpRound := by
  apply round_get_bind
  intro s
  rcases s.pendingTx with _ | lease
  · apply Safe.round_bind (safe_move rfl)
    intro prepared
    cases prepared with
    | again => exact (safe_pure false).round
    | error =>
        apply Safe.round_bind (safe_ask rfl)
        intro active
        apply Safe.round_bind (safe_ask rfl)
        intro activeScan
        exact round_ite (round_stop (fail_safe framed_any _)) (safe_pure true).round
    | ready lease =>
        apply Safe.round_bind (pending_safe lease)
        intro _
        exact pumpPending_round lease
  · exact pumpPending_round lease

theorem pumpRounds_idle (budget : ℕ) :
    Reentrant.Triple Inv op (fun t s => Inv t s ∧ Idle s) (pumpRounds budget)
      fun t _ s => Inv t s ∧ Any s := by
  induction budget with
  | zero => exact Reentrant.Triple.pure fun _ _ h => ⟨h.1, trivial⟩
  | succ budget ih =>
      apply Reentrant.Triple.bind pumpRound_round
      intro more
      cases more with
      | true => exact ih.conseq (fun _ _ h => ⟨h.1, h.2 rfl⟩) fun _ _ _ h => h
      | false => exact Reentrant.Triple.pure fun _ _ h => ⟨h.1, trivial⟩

theorem pumpTx_safe : Safe op Any pumpTx := by
  apply Safe.bind (safe_ask rfl)
  intro running
  apply Reentrant.Triple.get_bind
  intro s₀
  apply Reentrant.Triple.ite
  · intro _
    exact Reentrant.Triple.pure fun _ _ h => h.1
  · intro hgate
    -- The gate has checked that no action is in flight.
    have hidle : s₀.actionInFlight = false := by
      simp only [not_or] at hgate
      simpa using hgate.2.2.2.1
    refine Reentrant.Triple.bind (Q := fun t _ s => Inv t s ∧ Idle s) ?_ fun _ => ?_
    · apply Reentrant.Triple.modify
      rintro t s ⟨⟨hI, -⟩, rfl⟩
      exact ⟨hI.keep rfl rfl rfl rfl fun _ h => h, hidle⟩
    · apply Reentrant.Triple.bind (pumpRounds_idle 32)
      intro _
      exact safe_modify framed_any (fun _ => rfl) (fun _ => rfl) (fun _ => rfl) (fun _ => rfl)
        fun _ h => h

/-! ## The poll -/

theorem serviceForegroundProbe_safe : Safe op Any serviceForegroundProbe := by
  apply Safe.bind (safe_ask rfl)
  intro pending
  apply Safe.bind (safe_ask rfl)
  intro node
  apply safe_ite (safe_pure ())
  apply Safe.bind foregroundProbeContext_safe
  intro context
  apply safe_ite (cancelForeground_safe true)
  apply Safe.bind (safe_ask rfl)
  intro queued
  apply safe_ite _ pumpTx_safe
  apply Safe.bind (dropForegroundHostProbe_safe framed_any)
  intro _
  exact cancelForeground_safe true

theorem submitForegroundChannel_safe : Safe op Any submitForegroundChannel := by
  apply Safe.bind (safe_ask rfl)
  intro next
  apply Safe.bind (safe_ask rfl)
  intro idle
  apply safe_get_bind
  intro s
  apply safe_ite (safe_pure false)
  apply Safe.bind (safe_ask rfl)
  intro ready
  apply safe_ite (safe_pure false)
  apply Safe.bind (safe_lend rfl)
  intro accepted
  apply safe_ite (safe_pure false)
  apply Safe.bind (safe_ask rfl)
  intro owned
  apply safe_ite (Safe.bind (fail_safe framed_any _) fun _ => safe_pure false)
  apply Safe.bind (safe_ask rfl)
  intro observed
  apply safe_ite _ (safe_pure true)
  exact Safe.bind (cancelForeground_safe true) fun _ => safe_pure false

theorem advanceForeground_safe : Safe op Any advanceForeground := by
  apply Safe.bind (safe_ask rfl)
  intro ready
  apply safe_ite (safe_pure ())
  apply Safe.bind (safe_ask rfl)
  intro valid
  apply safe_ite (fail_safe framed_any _)
  apply Safe.bind (safe_ask rfl)
  intro expired
  apply safe_ite expireForegroundHardware_safe
  apply Safe.bind (safe_ask rfl)
  intro complete
  apply safe_ite (safe_pure ())
  apply Safe.bind (safe_ask rfl)
  intro next
  apply safe_ite (safe_pure ())
  apply Safe.bind submitForegroundChannel_safe
  intro submitted
  apply safe_get_bind
  intro s
  exact safe_ite (cancelForeground_safe true) (safe_pure ())

theorem lent_safe (hy : ordinary y = true) :
    Safe op Any (do let _ ← lend y; pure () : Backend Unit) :=
  Safe.bind (safe_lend hy) fun _ => safe_pure ()

theorem lendIf_safe (q : Query) (hy : ordinary y = true) :
    Safe op Any (lendIf q y) := by
  apply Safe.bind (safe_ask rfl)
  intro due
  exact safe_ite (lent_safe hy) (safe_pure ())

theorem pollReset_safe : Safe op Any pollReset := by
  apply Safe.bind (safe_ask rfl)
  intro reset
  apply safe_get_bind
  intro s
  exact safe_ite (lent_safe rfl) (safe_pure ())

theorem pollDeferredState_safe : Safe op Any pollDeferredState := by
  apply Safe.bind (safe_ask rfl)
  intro deferred
  apply Safe.bind (safe_ask rfl)
  intro idle
  apply safe_get_bind
  intro s
  apply safe_ite _ (safe_pure ())
  apply Safe.bind (safe_ask rfl)
  intro toInit
  apply lent_safe
  cases toInit with
  | true => rfl
  | false => rfl

theorem pollPump_safe : Safe op Any pollPump := by
  apply Safe.bind (lendIf_safe _ rfl)
  intro _
  apply Safe.bind pumpTx_safe
  intro _
  apply Safe.bind (safe_ask rfl)
  intro armed
  apply safe_get_bind
  intro s
  exact safe_ite (fail_safe framed_any _) (safe_pure ())

theorem pollPort_safe : Safe op Any pollPort := by
  apply Safe.bind (lendIf_safe _ rfl)
  intro _
  apply Safe.bind advanceForeground_safe
  intro _
  apply safe_get_bind
  intro s
  exact safe_ite (safe_pure ()) pollPump_safe

theorem pollAuthorize_safe : Safe op Any pollAuthorize := by
  apply Safe.bind (safe_ask rfl)
  intro opened
  apply safe_ite _ pollPort_safe
  apply Safe.bind (safe_lend rfl)
  intro authorized
  apply safe_ite (fail_safe framed_any _)
  exact Safe.bind (safe_ask rfl) fun _ => pollPort_safe

theorem pollProtocol_safe : Safe op Any pollProtocol := by
  apply Safe.bind pollReset_safe
  intro _
  apply Safe.bind pollDeferredState_safe
  intro _
  apply Safe.bind (lendIf_safe _ rfl)
  intro _
  apply Safe.bind (lendIf_safe _ rfl)
  intro _
  apply Safe.bind (lendIf_safe _ rfl)
  intro _
  apply Safe.bind (safe_lend rfl)
  intro applied
  apply safe_ite (fail_safe framed_any _)
  apply Safe.bind (lendIf_safe _ rfl)
  intro _
  apply Safe.bind (lendIf_safe _ rfl)
  intro _
  exact pollAuthorize_safe

theorem tickStation_safe (now : UInt64) : Safe op Any (tickStation now) := by
  apply safe_get_bind
  intro s
  exact safe_ite (safe_lend rfl) (safe_pure true)

theorem pollStation_safe : Safe op Any pollStation := by
  apply Safe.bind (safe_ask rfl)
  intro now
  apply Safe.bind (tickStation_safe now)
  intro timely
  apply safe_ite (fail_safe framed_any _)
  apply Safe.bind serviceForegroundProbe_safe
  intro _
  apply safe_get_bind
  intro s
  exact safe_ite (safe_pure ()) pollProtocol_safe

/-- A completion is taken from the queue: it is the one of the action in flight. -/
theorem consumed_safe (item : ActionCompletion) (rest : List ActionCompletion) (s₀ : State)
    (hcomp : s₀.completed = item :: rest) :
    Reentrant.Triple Inv .poll (fun t s => Inv t s₀ ∧ s = { s₀ with
        completed := rest, actionInFlight := false })
      (lend (.actionComplete item)) fun t _ s => Inv t s ∧ Any s := by
  apply Reentrant.Triple.lend
  · rintro t s ⟨hI, rfl⟩
    apply hI.add
    intro _ hk _
    rcases hk.linked.completed item (by simp [hcomp]) with ⟨hin, hdef, htok, hact⟩
    have hrest : rest = [] := by
      have hlen := (hk.linked.answered (by simp [hcomp])).2
      simpa [hcomp] using hlen
    refine ⟨⟨rfl, s₀.activeAction, hk.linked.accepted hin, htok, hact⟩, ?_⟩
    refine ⟨rfl, ?_, nofun, nofun, nofun, ?_, ?_⟩
    · intro h
      rw [show s₀.actionDeferred = true from h] at hdef
      cases hdef
    · intro x hx
      rw [hrest] at hx
      cases hx
    · intro h
      exact absurd hrest h
  · intro t b s hI
    exact ⟨hI.routine routine_regained, trivial⟩

theorem pollCompletions_safe (budget : ℕ) : Safe .poll Any (pollCompletions budget) := by
  induction budget with
  | zero => exact pollStation_safe
  | succ budget ih =>
      apply Reentrant.Triple.get_bind
      intro s₀
      rcases hcomp : s₀.completed with _ | ⟨item, rest⟩
      · exact pollStation_safe.conseq (fun _ _ h => h.1) fun _ _ _ h => h
      · refine Reentrant.Triple.bind (Q := fun t _ s => Inv t s₀ ∧
          s = { s₀ with completed := rest, actionInFlight := false }) ?_ fun _ => ?_
        · rintro t s ⟨⟨hI, -⟩, rfl⟩
          exact ⟨hI, rfl⟩
        · apply Reentrant.Triple.bind (consumed_safe item rest s₀ hcomp)
          intro accepted
          exact safe_ite (fail_safe framed_any _) ih

theorem pollBoot_safe (timestamp : UInt64) : Safe .poll Any (pollBoot timestamp) := by
  apply Safe.bind (safe_lend rfl)
  intro served
  apply safe_ite (fail_safe framed_any _)
  apply Safe.bind (safe_ask rfl)
  intro ready
  apply safe_get_bind
  intro s
  apply safe_ite _ (pollCompletions_safe 16)
  apply Safe.bind
  · exact safe_modify framed_any (fun _ => rfl) (fun _ => rfl) (fun _ => rfl) (fun _ => rfl)
      fun _ h => h
  · intro _
    apply Safe.bind (safe_lend rfl)
    intro restarted
    apply safe_ite (fail_safe framed_any _)
    apply Safe.bind (safe_lend rfl)
    intro started
    exact safe_ite (fail_safe framed_any _) (pollCompletions_safe 16)

/-- The boot service begins the action that was accepted last, with nothing in flight. -/
theorem begun_safe (s₀ : State) (hdef : s₀.actionDeferred = true) (hdrained : s₀.dataDrained = true) :
    Reentrant.Triple Inv .poll (fun t s => Inv t s₀ ∧ s = { s₀ with actionDeferred := false } ∧
        ∃ earlier y, t = earlier ++ [y] ∧ Pauses y)
      (ask (.beginAction s₀.activeAction s₀.activePeer)) fun t _ s => Inv t s ∧ Any s := by
  apply Reentrant.Triple.ask
  rintro t b s ⟨hI, rfl, hpaused⟩
  refine ⟨hI.add ?_, trivial⟩
  intro _ hk _
  have hin := hk.linked.deferred hdef
  simp only [State.dataDrained, Bool.and_eq_true, Option.isNone_iff_eq_none,
    decide_eq_true_eq] at hdrained
  refine ⟨⟨rfl, hdrained.1, hdrained.2, hk.linked.accepted hin, hpaused⟩, ?_⟩
  -- Nothing was queued while the action was deferred.
  have hnone : s₀.completed = [] := by
    rw [List.eq_nil_iff_forall_not_mem]
    intro item hitem
    have hnot := (hk.linked.completed item hitem).2.1
    rw [hdef] at hnot
    cases hnot
  refine ⟨hk.linked.inFlight, nofun, hk.linked.accepted, fun _ _ => rfl, hk.linked.quiet, ?_, ?_⟩
  · intro item hitem
    have hitem : item ∈ s₀.completed := hitem
    rw [hnone] at hitem
    cases hitem
  · intro h
    exact absurd hnone h

theorem pollAction_safe (timestamp : UInt64) : Safe .poll Any (pollAction timestamp) := by
  apply Reentrant.Triple.get_bind
  intro s₀
  apply Reentrant.Triple.ite
  · rintro ⟨hdef, hdrained⟩
    refine Reentrant.Triple.bind (Q := fun t paused s => Inv t s ∧ s = s₀ ∧
      (paused = true → ∃ earlier y, t = earlier ++ [y] ∧ Pauses y)) ?_ fun paused => ?_
    · apply Reentrant.Triple.ask
      rintro t paused s ⟨⟨hI, -⟩, rfl⟩
      refine ⟨hI.routine (routine_call rfl paused), rfl, ?_⟩
      rintro rfl
      exact ⟨t, _, rfl, rfl, rfl⟩
    · cases paused with
      | false =>
          exact (fail_safe framed_any _).conseq (fun _ _ h => ⟨h.1, trivial⟩) fun _ _ _ h => h
      | true =>
          refine Reentrant.Triple.bind (Q := fun t _ s => Inv t s₀ ∧
            s = { s₀ with actionDeferred := false } ∧
              ∃ earlier y, t = earlier ++ [y] ∧ Pauses y) ?_ fun _ => ?_
          · apply Reentrant.Triple.modify
            rintro t s ⟨hI, rfl, hpaused⟩
            exact ⟨hI, rfl, hpaused rfl⟩
          · apply Reentrant.Triple.bind (begun_safe s₀ hdef hdrained)
            intro begun
            exact safe_ite (fail_safe framed_any _) (pollBoot_safe timestamp)
  · intro _
    exact (pollBoot_safe timestamp).conseq (fun _ _ h => h.1) fun _ _ _ h => h

theorem pollExpired_safe : Safe op Any pollExpired := by
  apply Safe.bind (safe_ask rfl)
  intro expired
  exact safe_ite expireForegroundHardware_safe (safe_pure ())

/-- The deadlines come before the action: the station may still accept one there. -/
theorem pollDeadlines_safe (timestamp : UInt64) : Safe .poll Any (pollDeadlines timestamp) := by
  apply Safe.bind (safe_lend rfl)
  intro served
  apply safe_ite (fail_safe framed_any _)
  apply Safe.bind (tickStation_safe timestamp)
  intro timely
  exact safe_ite (fail_safe framed_any _) (pollAction_safe timestamp)

theorem poll_safe : Safe .poll Any poll := by
  apply safe_get_bind
  intro s
  apply safe_ite (safe_pure ())
  apply Safe.bind (safe_ask rfl)
  intro timestamp
  apply Safe.bind (safe_ask rfl)
  intro valid
  apply safe_ite (fail_safe framed_any _)
  apply Safe.bind pollExpired_safe
  intro _
  apply safe_get_bind
  intro s'
  exact safe_ite (safe_pure ()) (pollDeadlines_safe timestamp)

/-! ## The entry points -/

/-- What an entry point has to keep: from its `entered` to its `left`. -/
def Enters (op : Op) (m : Backend Result) : Prop :=
  Reentrant.Triple Inv op (fun t s => ∃ t', t = t' ++ [⟨op, s, .entered⟩] ∧ Inv t' s) m
    fun t r s => Inv (t ++ [⟨op, s, .left r⟩]) s

/-- Entering is routine, except for a report of the boot service. -/
theorem enters_of_triple {m : Backend Result} (hop : ∀ s, Routine ⟨op, s, .entered⟩)
    (h : Reentrant.Triple Inv op (fun t s => Inv t s ∧ Any s) m
      fun t r s => Inv (t ++ [⟨op, s, .left r⟩]) s) : Enters op m := by
  refine Reentrant.Triple.conseq h ?_ fun _ _ _ hs => hs
  rintro t s ⟨t', rfl, hI⟩
  exact ⟨hI.routine (hop s), trivial⟩

theorem enters_procedure {m : Backend Unit} (hop : ∀ s, Routine ⟨op, s, .entered⟩)
    (h : Safe op Any m) : Enters op (procedure m) := by
  apply enters_of_triple hop
  apply Reentrant.Triple.bind h
  intro _
  exact Reentrant.Triple.pure fun _ _ hs => hs.1.routine ⟨fun _ => rfl, fun _ => trivial⟩

theorem enters_function {m : Backend Bool} (hop : ∀ s, Routine ⟨op, s, .entered⟩)
    (hleft : ∀ b s, Routine ⟨op, s, .left (some b)⟩) (h : Safe op Any m) :
    Enters op (function m) := by
  apply enters_of_triple hop
  apply Reentrant.Triple.bind h
  intro b
  exact Reentrant.Triple.pure fun _ _ hs => hs.1.routine (hleft b _)

/-- A result that differs from `true` is no special moment. -/
theorem routine_refused {s : State} : Routine ⟨op, s, .left (some false)⟩ :=
  ⟨fun _ => rfl, fun _ => trivial⟩

theorem Inv.accept {r : ActionRequest} (h : Inv t s) (hidle : Idle s) (hpend : s.pendingTx = none)
    (peer : MacProtocolPeer) {s' : State}
    (hs' : s' = { s with
      activeAction := r, activePeer := peer, actionInFlight := true, actionDeferred := true }) :
    Inv (t ++ [⟨.beginAction r, s', .left (some true)⟩]) s' := by
  subst hs'
  apply h.add
  intro _ hk _
  have hempty : s.completed = [] := by
    rw [List.eq_nil_iff_forall_not_mem]
    intro item hitem
    have hin := (hk.linked.completed item hitem).1
    rw [hidle] at hin
    cases hin
  refine ⟨hk.linked.inFlight.symm.trans hidle, ?_⟩
  refine ⟨rfl, fun _ => rfl, fun _ => rfl, nofun, fun _ => hpend, ?_, ?_⟩
  · intro item hitem
    have hitem : item ∈ s.completed := hitem
    rw [hempty] at hitem
    cases hitem
  · intro hne
    exact absurd hempty hne

theorem beginAction_enters (r : ActionRequest) :
    Enters (.beginAction r) (function (beginAction r)) := by
  apply enters_of_triple fun _ => ⟨fun _ => rfl, fun _ => trivial⟩
  refine Reentrant.Triple.bind
    (Q := fun t b s => Inv (t ++ [⟨.beginAction r, s, .left (some b)⟩]) s) ?_
    fun b => Reentrant.Triple.pure fun _ _ h => h
  apply Reentrant.Triple.bind (safe_ask rfl)
  intro peer
  apply Reentrant.Triple.get_bind
  intro s₀
  apply Reentrant.Triple.ite
  · intro _
    exact Reentrant.Triple.pure fun _ _ h => h.1.1.routine routine_refused
  · intro hgate
    have hidle : s₀.actionInFlight = false := by
      simp only [not_or] at hgate
      simpa using hgate.2.2
    refine Reentrant.Triple.bind (Q := fun t _ s => Inv t s ∧ Idle s) ?_ fun _ => ?_
    · apply Reentrant.Triple.modify
      rintro t s ⟨⟨hI, -⟩, rfl⟩
      exact ⟨hI.keep rfl rfl rfl rfl fun _ h => h, hidle⟩
    apply Reentrant.Triple.bind (dropForegroundHostProbe_safe framed_idle)
    intro _
    refine Reentrant.Triple.bind (Q := fun t _ s => Inv t s ∧ Idle s ∧ s.pendingTx = none) ?_
      fun _ => ?_
    · apply Reentrant.Triple.modify
      rintro t s ⟨hI, hi⟩
      exact ⟨hI.keep rfl rfl rfl rfl fun _ _ => rfl, hi, rfl⟩
    refine Reentrant.Triple.bind (Q := fun t _ s =>
      Inv (t ++ [⟨.beginAction r, s, .left (some true)⟩]) s) ?_
      fun _ => Reentrant.Triple.pure fun _ _ h => h
    apply Reentrant.Triple.modify
    rintro t s ⟨hI, hi, hpend⟩
    exact hI.accept hi hpend peer rfl

theorem pauseTraffic_safe : Safe op Any pauseTraffic := by
  apply Safe.bind
  · exact safe_modify framed_any (fun _ => rfl) (fun _ => rfl) (fun _ => rfl) (fun _ => rfl)
      fun _ h => h
  · intro _
    apply Safe.bind (dropForegroundHostProbe_safe framed_any)
    intro _
    apply Safe.bind (releasePendingTx_safe framed_any)
    intro _
    apply Safe.bind (safe_ask rfl)
    intro _
    apply safe_get_bind
    intro s
    exact safe_ite (safe_pure true) (safe_ask rfl)

/-- The end of an accepted `setTraffic` while no action is in flight. -/
theorem Inv.admitted {tr : Traffic} (h : Inv t s) (hidle : Idle s) (b : Bool) :
    Inv (t ++ [⟨.setTraffic tr, s, .left (some b)⟩]) s := by
  apply h.add
  intro _ hk _
  cases b with
  | false => exact ⟨trivial, hk.linked⟩
  | true => exact ⟨fun _ => hk.linked.inFlight.symm.trans hidle, hk.linked⟩

theorem assign_safe (tr : Traffic) : Safe op Idle
    (modify fun s : State => { s with traffic := tr } : Backend PUnit) :=
  safe_modify framed_idle (fun _ => rfl) (fun _ => rfl) (fun _ => rfl) (fun _ => rfl) fun _ h => h

theorem setTraffic_enters (tr : Traffic) : Enters (.setTraffic tr) (function (setTraffic tr)) := by
  apply enters_of_triple fun _ => ⟨fun _ => rfl, fun _ => trivial⟩
  refine Reentrant.Triple.bind
    (Q := fun t b s => Inv (t ++ [⟨.setTraffic tr, s, .left (some b)⟩]) s) ?_
    fun b => Reentrant.Triple.pure fun _ _ h => h
  apply Reentrant.Triple.get_bind
  intro s₀
  apply Reentrant.Triple.ite
  · intro _
    exact Reentrant.Triple.pure fun _ _ h => h.1.1.routine routine_refused
  intro _
  apply Reentrant.Triple.ite
  · -- `none` is accepted at any time.
    rintro rfl
    refine pauseTraffic_safe.conseq (fun _ _ h => h.1) ?_
    intro t b s h
    apply h.1.add
    intro _ hk _
    cases b with
    | false => exact ⟨trivial, hk.linked⟩
    | true => exact ⟨fun hne => absurd rfl hne, hk.linked⟩
  intro _
  apply Reentrant.Triple.ite
  · intro _
    exact Reentrant.Triple.pure fun _ _ h => h.1.1.routine routine_refused
  intro hbusy
  have hidle : s₀.actionInFlight = false := by simpa using hbusy
  have hsafe : Safe (.setTraffic tr) Idle (do
      let accepted ← ask (.setTraffic tr)
      if !accepted then
        pure false
      else
        if tr ≠ .authorized then releasePendingTx else pure ()
        modify fun s => { s with traffic := tr }
        if tr ≠ .authorized then ask (.setLinkStatus false) else pure ()
        pure true : Backend Bool) := by
    apply Safe.bind (safe_ask rfl)
    intro accepted
    apply safe_ite (safe_pure false)
    apply safe_ite
    · apply Safe.bind (releasePendingTx_safe framed_idle)
      intro _
      apply Safe.bind (assign_safe tr)
      intro _
      exact safe_ite (Safe.bind (safe_ask rfl) fun _ => safe_pure true) (safe_pure true)
    · apply Safe.bind (assign_safe tr)
      intro _
      exact safe_ite (Safe.bind (safe_ask rfl) fun _ => safe_pure true) (safe_pure true)
  refine hsafe.conseq ?_ fun _ b _ h => h.1.admitted h.2 b
  rintro t s ⟨⟨hI, -⟩, rfl⟩
  exact ⟨hI, hidle⟩

/-! ### The reports of the boot service -/

/-- After a fair report entered: if it names the begun action, nothing is queued yet. -/
def Reported (token : Token) (action : Action) (t : List Step) (s : State) : Prop :=
  Always Fair t → Kept t s ∧
    ((watch t).awaits token action = true → s.completed = [] ∧ (watch t).answered = true)

theorem Inv.reported {token : Token} {action : Action} {success : Bool} (h : Inv t s) :
    Reported token action
      (t ++ [⟨.stationActionComplete token action success, s, .entered⟩]) s := by
  intro hfair
  rcases always_concat.1 hfair with ⟨hf, hfx⟩
  have hk := h hf
  by_cases hawaits : (watch t).awaits token action = true
  · -- The promise says that no report was queued before.
    have hnext : (watch t).next ⟨.stationActionComplete token action success, s, .entered⟩ =
        { watch t with answered := true } := by
      simp [Watch.next, hawaits]
    have hempty : s.completed = [] := by
      by_contra hne
      have hanswered := (hk.linked.answered hne).1
      rw [hfx hawaits] at hanswered
      cases hanswered
    have hl := hk.linked
    refine ⟨⟨always_concat.2 ⟨hk.proper, trivial⟩, ?_⟩, ?_⟩
    · rw [watch_concat, hnext]
      exact ⟨hl.inFlight, hl.deferred, hl.accepted, hl.begun, hl.quiet, hl.completed,
        fun hne => absurd hempty hne⟩
    · rw [watch_concat, hnext]
      exact fun _ => ⟨hempty, rfl⟩
  · have hnext : (watch t).next ⟨.stationActionComplete token action success, s, .entered⟩ =
        watch t := by
      simp [Watch.next, hawaits]
    refine ⟨⟨always_concat.2 ⟨hk.proper, trivial⟩, ?_⟩, ?_⟩
    · rw [watch_concat, hnext]
      exact hk.linked
    · rw [watch_concat, hnext]
      exact fun ha => absurd ha hawaits

theorem Reported.inv {token : Token} {action : Action} (h : Reported token action t s) : Inv t s :=
  fun hfair => (h hfair).1

theorem Reported.routine {token : Token} {action : Action} (h : Reported token action t s) (hx : Routine x) :
    Reported token action (t ++ [x]) s := by
  intro hfair
  rcases always_concat.1 hfair with ⟨hf, -⟩
  have hrep := h hf
  refine ⟨h.inv.routine hx hfair, ?_⟩
  rw [watch_concat, hx.next]
  exact hrep.2

/-- A report that names the action in flight, no longer deferred, is queued. -/
theorem Reported.queued {token : Token} {action : Action} (success : Bool)
    (h : Reported token action t s) (hin : s.actionInFlight = true)
    (hdef : s.actionDeferred = false) (htok : token = s.activeAction.token)
    (hact : action = s.activeAction.action) :
    Inv (t ++ [⟨op, s, .note (.queued ⟨token, action, success⟩)⟩])
      { s with completed := s.completed ++ [⟨token, action, success⟩] } := by
  intro hfair
  rcases always_concat.1 hfair with ⟨hf, -⟩
  rcases h hf with ⟨hk, hrep⟩
  have hbegun := hk.linked.begun hin hdef
  have hawaits : (watch t).awaits token action = true := by
    simp [Watch.awaits, hbegun, htok, hact]
  rcases hrep hawaits with ⟨hempty, hanswered⟩
  refine ⟨always_concat.2 ⟨hk.proper, hdef, s.activeAction, hbegun, htok, hact⟩, ?_⟩
  rw [watch_concat]
  have hl := hk.linked
  refine ⟨hl.inFlight, hl.deferred, hl.accepted, hl.begun, hl.quiet, ?_, ?_⟩
  · intro item hitem
    have hitem : item = ⟨token, action, success⟩ := by simpa [hempty] using hitem
    subst hitem
    exact ⟨hin, hdef, htok, hact⟩
  · intro _
    exact ⟨hanswered, by simp [hempty]⟩

theorem stationActionComplete_enters (token : Token) (action : Action) (success : Bool) :
    Enters (.stationActionComplete token action success)
      (procedure (stationActionComplete token action success)) := by
  refine Reentrant.Triple.bind (Q := fun t _ s => Inv t s) ?_ fun _ =>
    Reentrant.Triple.pure fun _ _ h => h.routine ⟨fun _ => rfl, fun _ => trivial⟩
  refine Reentrant.Triple.bind (Q := fun t _ s => Reported token action t s) ?_ fun inGate => ?_
  · apply Reentrant.Triple.ask
    rintro t b s ⟨t', rfl, hI⟩
    exact hI.reported.routine (routine_call rfl b)
  apply Reentrant.Triple.get_bind
  intro s₀
  apply Reentrant.Triple.ite
  · intro _
    exact (fail_safe framed_any _).conseq (fun _ _ h => ⟨h.1.inv, trivial⟩) fun _ _ _ h => h.1
  · intro hguard
    simp only [not_or] at hguard
    rcases hguard with ⟨-, -, -, hin, hdef, htok, hact⟩
    have hin : s₀.actionInFlight = true := by simpa using hin
    have hdef : s₀.actionDeferred = false := by simpa using hdef
    have htok : token = s₀.activeAction.token := by simpa using htok
    have hact : action = s₀.activeAction.action := by simpa using hact
    refine Reentrant.Triple.bind (Q := fun t _ s =>
      Inv t { s with completed := s.completed ++ [⟨token, action, success⟩] }) ?_ fun _ =>
        Reentrant.Triple.modify fun _ _ h => h
    apply Reentrant.Triple.tell
    rintro t s ⟨hrep, rfl⟩
    exact hrep.queued success hin hdef htok hact

theorem enable_safe (on : Bool) : Safe op Any (enable on) := by
  apply safe_get_bind
  intro s
  apply safe_ite (safe_pure false)
  apply Safe.bind
  · exact safe_modify framed_any (fun _ => rfl) (fun _ => rfl) (fun _ => rfl) (fun _ => rfl)
      fun _ h => h
  · intro _
    apply safe_ite (safe_pure true)
    apply Safe.bind (cancelForeground_safe false)
    intro _
    exact Safe.bind (safe_ask rfl) fun _ => safe_pure true

theorem shutdown_safe : Safe op Any shutdown := by
  apply Safe.bind (cancelForeground_safe false)
  intro _
  apply Safe.bind (dropForegroundHostProbe_safe framed_any)
  intro _
  apply Safe.bind
  · exact safe_modify framed_any (fun _ => rfl) (fun _ => rfl) (fun _ => rfl) (fun _ => rfl)
      fun _ h => h
  intro _
  apply Safe.bind (safe_ask rfl)
  intro _
  apply Safe.bind (safe_ask rfl)
  intro idle
  apply Safe.bind (safe_ask rfl)
  intro stopped
  apply safe_ite (safe_pure false)
  apply Safe.bind (releasePendingTx_safe framed_any)
  intro _
  refine Safe.bind ?_ fun _ => safe_pure true
  exact safe_modify framed_any (fun _ => rfl) (fun _ => rfl) (fun _ => rfl) (fun _ => rfl)
    fun _ h => h

theorem exec_enters (op : Op) : Enters op (exec op) := by
  have hring : ∀ {op : Op} (g : (Fin 6 → Net80211PciQueue) → Fin 6 → Net80211PciQueue),
      Safe op Any (modify fun s : State => { s with tx := g s.tx } : Backend PUnit) :=
    fun g => safe_modify framed_any (fun _ => rfl) (fun _ => rfl) (fun _ => rfl) (fun _ => rfl)
      fun _ h => h
  cases op with
  | beginAction r => exact beginAction_enters r
  | setTraffic tr => exact setTraffic_enters tr
  | stationActionComplete token action success =>
      exact stationActionComplete_enters token action success
  | recoveryRequired =>
      exact enters_procedure (fun _ => ⟨fun _ => rfl, fun _ => trivial⟩) (fail_safe framed_any _)
  | bootFailed reason =>
      exact enters_procedure (fun _ => ⟨fun _ => rfl, fun _ => trivial⟩) (fail_safe framed_any _)
  | pumpTx => exact enters_procedure (fun _ => ⟨fun _ => rfl, fun _ => trivial⟩) pumpTx_safe
  | consumeTo ring hardwareConsumer =>
      exact enters_procedure (fun _ => ⟨fun _ => rfl, fun _ => trivial⟩)
        (hring fun tx => Function.update tx ring ((tx ring).consumeTo hardwareConsumer).2.2)
  | releaseReport ring r =>
      exact enters_procedure (fun _ => ⟨fun _ => rfl, fun _ => trivial⟩)
        (hring fun tx => Function.update tx ring ((tx ring).releaseReport r).2.2)
  | cancelForeground cancelStation =>
      exact enters_procedure (fun _ => ⟨fun _ => rfl, fun _ => trivial⟩)
        (cancelForeground_safe cancelStation)
  | dropForegroundHostProbe =>
      exact enters_procedure (fun _ => ⟨fun _ => rfl, fun _ => trivial⟩)
        (dropForegroundHostProbe_safe framed_any)
  | enable on =>
      refine enters_function (fun _ => ⟨fun _ => rfl, fun _ => trivial⟩) ?_ (enable_safe on)
      intro b s
      cases b with
      | true => exact ⟨fun _ => rfl, fun _ => trivial⟩
      | false => exact routine_refused
  | shutdown =>
      refine enters_function (fun _ => ⟨fun _ => rfl, fun _ => trivial⟩) ?_ shutdown_safe
      intro b s
      cases b with
      | true => exact ⟨fun _ => rfl, fun _ => trivial⟩
      | false => exact routine_refused
  | poll => exact enters_procedure (fun _ => ⟨fun _ => rfl, fun _ => trivial⟩) poll_safe

theorem Running.kept {st : List (Suspended State Call Reply Loan Note Op Result)}
    (hrun : Running exec started t s st) : Inv t s :=
  hrun.invariant inv_initial exec_enters

/-! ## What the watch remembers -/

theorem not_accepts (h : x.what.isLeft = false) (r : ActionRequest) : ¬ Accepts r x := by
  rintro ⟨-, hx⟩
  rw [hx] at h
  cases h

theorem not_begins (h : x.what.isCall = false) (r : ActionRequest) : ¬ Begins r x := by
  rintro ⟨peer, b, hx⟩
  rw [hx] at h
  cases h

/-- All that a moment can do to the watch. -/
inductive Watch.Effect (w : Watch) (x : Step) : Watch → Prop
  | accepted {r : ActionRequest} : Accepts r x →
      Effect w x { inFlight := true, accepted := some r }
  | begun {r : ActionRequest} : Begins r x → Effect w x { w with begun := some r, answered := false }
  | consumed {item : ActionCompletion} : x.what = .lent (.actionComplete item) →
      Effect w x { w with inFlight := false }
  | reported {token : Token} {action : Action} : Reports token action x →
      w.awaits token action = true → Effect w x { w with answered := true }
  | unmoved : (∀ r, ¬ Accepts r x) → (∀ r, ¬ Begins r x) → Effect w x w

theorem Watch.effect (w : Watch) (x : Step) : w.Effect x (w.next x) := by
  rcases x with ⟨op, s, what⟩
  cases what with
  | entered =>
      cases op with
      | stationActionComplete token action success =>
          by_cases ha : w.awaits token action = true
          · simp only [Watch.next, ha, if_true]
            exact .reported ⟨⟨success, rfl⟩, rfl⟩ ha
          · simp only [Watch.next, ha]
            exact .unmoved (not_accepts rfl) (not_begins rfl)
      | _ => exact .unmoved (not_accepts rfl) (not_begins rfl)
  | left r =>
      rcases r with _ | _ | _
      · exact .unmoved (fun _ h => nomatch h.2) (not_begins rfl)
      · exact .unmoved (fun _ h => nomatch h.2) (not_begins rfl)
      · cases op with
        | beginAction r => exact .accepted ⟨rfl, rfl⟩
        | _ => exact .unmoved (fun _ h => nomatch h.1) (not_begins rfl)
  | call c r =>
      cases c with
      | beginAction r peer => exact .begun ⟨peer, _, rfl⟩
      | _ =>
          refine .unmoved (not_accepts rfl) ?_
          rintro r' ⟨peer, b, hb⟩
          cases hb
  | lent y =>
      cases y with
      | actionComplete item => exact .consumed rfl
      | _ => exact .unmoved (not_accepts rfl) (not_begins rfl)
  | note n => exact .unmoved (not_accepts rfl) (not_begins rfl)
  | regained y b => exact .unmoved (not_accepts rfl) (not_begins rfl)

theorem Reports.not_accepts {token : Token} {action : Action} (h : Reports token action x) (r : ActionRequest) :
    ¬ Accepts r x :=
  Host.not_accepts (by rw [h.2]; rfl) r

theorem Reports.not_begins {token : Token} {action : Action} (h : Reports token action x) (r : ActionRequest) :
    ¬ Begins r x :=
  Host.not_begins (by rw [h.2]; rfl) r

theorem not_accepts_of_lent (h : x.what = .lent y) (r : ActionRequest) :
    ¬ Accepts r x :=
  not_accepts (by rw [h]; rfl) r

theorem not_begins_of_lent (h : x.what = .lent y) (r : ActionRequest) :
    ¬ Begins r x :=
  not_begins (by rw [h]; rfl) r

theorem Begins.not_accepts {r r' : ActionRequest} (h : Begins r x) : ¬ Accepts r' x := by
  rcases h with ⟨peer, b, hb⟩
  exact Host.not_accepts (by rw [hb]; rfl) r'

/-- An accepted request the watch remembers is the latest one. -/
theorem watch_accepted (t : List Step) : ∀ {r : ActionRequest}, (watch t).accepted = some r →
    ∃ x, Latest (fun z => ∃ r', Accepts r' z) t x ∧ Accepts r x := by
  induction t using List.reverseRecOn with
  | nil => exact nofun
  | append_singleton t x ih =>
      intro r hr
      rw [watch_concat] at hr
      have heff := (watch t).effect x
      generalize (watch t).next x = w' at hr heff
      cases heff with
      | accepted ha =>
          rcases Option.some.inj hr with rfl
          exact ⟨x, Latest.here ⟨_, ha⟩, ha⟩
      | begun hb =>
          rcases ih hr with ⟨y, hy, hay⟩
          exact ⟨y, hy.concat fun ⟨_, ha⟩ => hb.not_accepts ha, hay⟩
      | consumed hc =>
          rcases ih hr with ⟨y, hy, hay⟩
          exact ⟨y, hy.concat fun ⟨r', ha⟩ => not_accepts_of_lent hc r' ha, hay⟩
      | reported hrep _ =>
          rcases ih hr with ⟨y, hy, hay⟩
          exact ⟨y, hy.concat fun ⟨r', ha⟩ => hrep.not_accepts r' ha, hay⟩
      | unmoved hna _ =>
          rcases ih hr with ⟨y, hy, hay⟩
          exact ⟨y, hy.concat fun ⟨r', ha⟩ => hna r' ha, hay⟩

/-- A begun request the watch remembers was begun after the latest acceptance. -/
theorem watch_begun (t : List Step) : ∀ {r : ActionRequest}, (watch t).begun = some r →
    ∃ x, Latest (fun z => ∃ r', Accepts r' z ∨ Begins r' z) t x ∧ Begins r x := by
  induction t using List.reverseRecOn with
  | nil => exact nofun
  | append_singleton t x ih =>
      intro r hr
      rw [watch_concat] at hr
      have heff := (watch t).effect x
      generalize (watch t).next x = w' at hr heff
      have hold : (∀ r', ¬ Accepts r' x) → (∀ r', ¬ Begins r' x) → (watch t).begun = some r →
          ∃ y, Latest (fun z => ∃ r', Accepts r' z ∨ Begins r' z) (t ++ [x]) y ∧ Begins r y := by
        intro hna hnb hr
        rcases ih hr with ⟨y, hy, hby⟩
        exact ⟨y, hy.concat fun ⟨r', h⟩ => h.elim (hna r') (hnb r'), hby⟩
      cases heff with
      | accepted ha => cases hr
      | begun hb =>
          rcases Option.some.inj hr with rfl
          exact ⟨x, Latest.here ⟨_, Or.inr hb⟩, hb⟩
      | consumed hc => exact hold (not_accepts_of_lent hc) (not_begins_of_lent hc) hr
      | reported hrep _ => exact hold hrep.not_accepts hrep.not_begins hr
      | unmoved hna hnb => exact hold hna hnb hr

/-- An answered action was reported after it was begun. -/
theorem watch_answered (t : List Step) : (watch t).answered = true →
    ∃ before x after token action, t = before ++ x :: after ∧ Reports token action x ∧
      (watch t).awaits token action = true ∧ ∀ z ∈ after, ∀ r, ¬ Begins r z := by
  induction t using List.reverseRecOn with
  | nil => exact nofun
  | append_singleton t x ih =>
      intro hans
      rw [watch_concat] at hans ⊢
      have heff := (watch t).effect x
      generalize hw : (watch t).next x = w' at hans heff
      have hold : (watch t).answered = true → w'.begun = (watch t).begun →
          (∀ r', ¬ Begins r' x) → ∃ before y after token action, t ++ [x] = before ++ y :: after ∧
            Reports token action y ∧ w'.awaits token action = true ∧
            ∀ z ∈ after, ∀ r, ¬ Begins r z := by
        intro ha hsame hnb
        rcases ih ha with ⟨before, y, after, token, action, ht, hy, haw, hnone⟩
        refine ⟨before, y, after ++ [x], token, action, by simp [ht], hy, ?_, ?_⟩
        · rwa [Watch.awaits, hsame]
        · intro z hz
          rcases List.mem_append.1 hz with hz | hz
          · exact hnone z hz
          · rcases List.mem_singleton.1 hz with rfl
            exact hnb
      cases heff with
      | accepted ha => cases hans
      | begun hb => cases hans
      | consumed hc => exact hold hans rfl (not_begins_of_lent hc)
      | reported hrep haw => exact ⟨t, x, [], _, _, rfl, hrep, haw, by simp⟩
      | unmoved hna hnb => exact hold hans rfl hnb

theorem Watch.awaits_inj {token token' : Token} {action action' : Action}
    (h : w.awaits token action = true) (h' : w.awaits token' action' = true) :
    token = token' ∧ action = action' := by
  rcases w with ⟨inFlight, accepted, _ | r, answered⟩
  · cases h
  · simp only [Watch.awaits, Option.any_some, Bool.and_eq_true, beq_iff_eq] at h h'
    exact ⟨h.1.symm.trans h'.1, h.2.symm.trans h'.2⟩

/-- The promise of the boot service, in terms of the watch. -/
theorem CompletesOnce.fair (h : CompletesOnce t) : Always Fair t := by
  intro before x after ht
  rcases x with ⟨op, s, what⟩
  cases what with
  | entered =>
      cases op with
      | stationActionComplete token action success =>
          intro haw
          by_contra hans
          have hans : (watch before).answered = true := by simpa using hans
          rcases watch_answered before hans with ⟨b, y, a, token', action', hb, hy, haw', hnone⟩
          rcases Watch.awaits_inj haw' haw with ⟨rfl, rfl⟩
          -- Two reports of the begun action, and none was begun in between.
          rcases h b y a _ after token' action' (by rw [ht, hb]) hy ⟨⟨success, rfl⟩, rfl⟩ with
            ⟨z, hz, r, hbegin⟩
          exact hnone z hz r hbegin
      | _ => trivial
  | _ => trivial

/-! ## While an action is in flight -/

/-- From its acceptance on, an action stays in flight until a poll consumes its completion. -/
theorem inFlight_until_consumed {before : List Step} {r : ActionRequest} (hx : Accepts r x) (during : List Step) :
    Always Proper (before ++ x :: during) → (∀ z ∈ during, ¬ Consumes r z) →
      (watch (before ++ x :: during)).inFlight = true ∧
        (watch (before ++ x :: during)).accepted = some r := by
  induction during using List.reverseRecOn with
  | nil =>
      intro _ _
      rw [watch_concat]
      rcases x with ⟨op, s, what⟩
      rcases hx with ⟨rfl, rfl⟩
      exact ⟨rfl, rfl⟩
  | append_singleton during z ih =>
      intro hproper hnone
      rw [show before ++ x :: (during ++ [z]) = (before ++ x :: during) ++ [z] by simp] at hproper ⊢
      rcases always_concat.1 hproper with ⟨hp, hz⟩
      rcases ih hp fun y hy => hnone y (List.mem_append_left _ hy) with ⟨hin, hacc⟩
      rw [watch_concat]
      have heff := (watch (before ++ x :: during)).effect z
      generalize (watch (before ++ x :: during)).next z = w' at heff
      cases heff with
      | accepted ha =>
          rcases z with ⟨op, s, what⟩
          rcases ha with ⟨rfl, rfl⟩
          rw [show (watch (before ++ x :: during)).inFlight = false from hz] at hin
          cases hin
      | begun _ => exact ⟨hin, hacc⟩
      | consumed hc =>
          -- Only the completion of `r` can be consumed, and it was not.
          exfalso
          rcases z with ⟨op, s, what⟩
          rcases hc with rfl
          rcases hz with ⟨rfl, r', hr', htok, hact⟩
          rcases Option.some.inj (hacc.symm.trans hr') with rfl
          rename_i item
          refine hnone ⟨.poll, s, .lent (.actionComplete item)⟩ (by simp) ⟨rfl, item.success, ?_⟩
          rw [← htok, ← hact]
      | reported _ _ => exact ⟨hin, hacc⟩
      | unmoved _ _ => exact ⟨hin, hacc⟩

theorem Proper.not_transmits {before : List Step} {y : Step} (h : Proper before y)
    (hin : (watch before).inFlight = true) : ¬ Transmits y := by
  rcases y with ⟨op, s, what⟩
  intro htx
  have hout : (watch before).inFlight = false := by
    unfold Transmits at htx
    split at htx <;> simp_all [Proper]
  rw [hin] at hout
  cases hout

theorem Proper.not_admits {before : List Step} {y : Step} (h : Proper before y)
    (hin : (watch before).inFlight = true) : ¬ Admits y := by
  rcases y with ⟨op, s, what⟩
  rintro ⟨tr, hne, rfl, rfl⟩
  rw [show (watch before).inFlight = false from h hne] at hin
  cases hin

/-- In every run of the backend in which the boot service completes each begun action at most once:
the boot service is told to begin an action only by a poll, with no frame pending or owned by a ring,
right after the scheduler was paused, and the action is the one accepted last; from an acceptance
until a poll consumes the completion, no frame is prepared, staged or published and no traffic is
admitted; and a completion is queued only for the action begun last, not while it is deferred. -/
theorem no_action_with_frames_in_flight
    {st : List (Suspended State Call Reply Loan Note Op Result)}
    (hrun : Running exec started t s st) (honce : CompletesOnce t) :
    (∀ before x after r, t = before ++ x :: after → Begins r x →
      x.op = .poll ∧ x.state.pendingTx = none ∧ (∀ i, (x.state.tx i).outstanding = 0) ∧
      (∃ earlier y, before = earlier ++ [y] ∧ Pauses y) ∧
      ∃ y, Latest (fun z => ∃ r', Accepts r' z) before y ∧ Accepts r y) ∧
    (∀ before x during y after r, t = before ++ x :: during ++ y :: after → Accepts r x →
      (∀ z ∈ during, ¬ Consumes r z) → ¬ Transmits y ∧ ¬ Admits y) ∧
    (∀ before x after item, t = before ++ x :: after → x.what = .note (.queued item) →
      x.state.actionDeferred = false ∧
      ∃ y r, Latest (fun z => ∃ r', Accepts r' z ∨ Begins r' z) before y ∧ Begins r y ∧
        item.token = r.token ∧ item.action = r.action) := by
  have hproper := (Running.kept hrun honce.fair).proper
  refine ⟨?_, ?_, ?_⟩
  · rintro before ⟨op, s', what⟩ after r ht ⟨peer, b, rfl⟩
    rcases hproper before _ after ht with ⟨hop, hpend, hrings, hacc, hpaused⟩
    exact ⟨hop, hpend, hrings, hpaused, watch_accepted before hacc⟩
  · intro before x during y after r ht hx hnone
    have hy := hproper (before ++ x :: during) y after (by simpa using ht)
    have hp : Always Proper (before ++ x :: during) := by
      intro b z a hz
      exact hproper b z (a ++ y :: after) (by simp [ht, hz])
    have hin := (inFlight_until_consumed hx during hp hnone).1
    exact ⟨hy.not_transmits hin, hy.not_admits hin⟩
  · rintro before ⟨op, s', what⟩ after item ht rfl
    rcases hproper before _ after ht with ⟨hdef, r, hbegun, htok, hact⟩
    rcases watch_begun before hbegun with ⟨y, hy, hby⟩
    exact ⟨hdef, y, r, hy, hby, htok, hact⟩

/-- Is this a report of the boot service? -/
def reporting (x : Step) : Bool :=
  match x.op, x.what with
  | .stationActionComplete _ _ _, .entered => true
  | _, _ => false

theorem Reports.reporting {token : Token} {action : Action} (h : Reports token action x) : reporting x = true := by
  rcases x with ⟨op, s, what⟩
  rcases h with ⟨⟨success, rfl⟩, rfl⟩
  rfl

theorem completesOnce_of_count (h : t.countP reporting ≤ 1) : CompletesOnce t := by
  rintro before x between y after token action rfl hx hy
  exfalso
  simp only [List.countP_append, List.countP_cons, hx.reporting, hy.reporting, if_true] at h
  omega

/-- An environment with one frame to send and nothing else to do. -/
def oneFrame : (c : Call) → ℕ → Reply c × ℕ
  | .test .inGate, n => (true, n)
  | .test .running, n => (true, n)
  | .test .clockValid, n => (true, n)
  | .test .timerArmed, n => (true, n)
  | .test _, n => (false, n)
  | .now, n => (0, n)
  | .peer, n => ({}, n)
  | .probeNode, n => (none, n)
  | .prepareNextTx, n => (if n = 0 then .ready ⟨1, 2, 60⟩ else .again, n + 1)
  | .txInfo _, n => (some ({ pktSize := 60, chDma := 8, qsel := 0x12 }, 4), n)
  | .ownsRing _, n => (true, n)
  | .stage _, n => (⟨60, true, []⟩, n)
  | .syncForDevice _, n => (true, n)
  | .publish _ _, n => (true, n)
  | .setTraffic _, n => (true, n)
  | .beginAction _ _, n => (true, n)
  | .setLinkStatus _, n => ((), n)
  | .failure _, n => ((), n)

def tune : ActionRequest := { action := .scanTune, token := ⟨1, 7⟩ }

/-- A management frame is sent, an action waits for its completion, begins and ends. -/
def sendThenTune : List (Turn Op) :=
  [.enter (.enable true), .enter (.setTraffic .management), .enter .pumpTx,
    .enter (.beginAction tune), .enter (.consumeTo 4 1), .enter (.releaseReport 4 { qsel := 0x12 }),
    .enter .poll, .back true, .enter (.stationActionComplete ⟨1, 7⟩ .scanTune true), .back true]

def sendThenTuneTrace : List Step := (drive exec oneFrame sendThenTune [] started [] 0).1

/-- Is the boot service told to begin `r` here? -/
def beginning (r : ActionRequest) (x : Step) : Bool :=
  match x.what with
  | .call (.beginAction r' _) _ => r' == r
  | _ => false

theorem begins_of_beginning {r : ActionRequest} (h : beginning r x = true) :
    Begins r x := by
  rcases x with ⟨op, s, what⟩
  unfold beginning at h
  split at h
  · rename_i r' peer b hwhat
    rcases eq_of_beq h with rfl
    exact ⟨peer, b, hwhat⟩
  · cases h

theorem no_action_with_frames_in_flight_tune :
    ∃ before x after, sendThenTuneTrace = before ++ x :: after ∧ Begins tune x ∧
      x.op = .poll ∧ ∀ i, (x.state.tx i).outstanding = 0 := by
  have hrun : Running exec started sendThenTuneTrace _ _ :=
    drive_running exec oneFrame sendThenTune 0 .start
  have hone : CompletesOnce sendThenTuneTrace := completesOnce_of_count (by decide +kernel)
  have hsome : sendThenTuneTrace.any (beginning tune) = true := by decide +kernel
  rcases List.any_eq_true.1 hsome with ⟨x, hx, hbegin⟩
  rcases List.append_of_mem hx with ⟨before, after, hsplit⟩
  have hb := begins_of_beginning hbegin
  have hall := (no_action_with_frames_in_flight hrun hone).1 before x after tune hsplit hb
  exact ⟨before, x, after, hsplit, hb, hall.1, hall.2.2.1⟩

end Host
end Rtl8852be
