import Mathlib.Data.Prod.Lex
import Rtl8852be.Station.Run

/-!
# Trace — what a call may leave behind, whether or not it faults

`Move` says what a call does when it goes well.  Some promises are about every call: tokens are
handed out in order, the port is not opened behind a pending disconnect, the plan is not read out
of bounds, and only the current association is cancelled.  They hold of calls that fault half way
too, so they are proved of the code once more, function by function, by the rule for composition
`tidy_bind`.
-/

namespace Rtl8852be
namespace Station

open Interaction Network

variable {c c' : Controller} {op : Op} {log : Trace} {ok : Bool} {h : List Record}

/-! ## Tokens -/

def Token.stamp (t : Token) : ℕ ×ₗ ℕ := toLex (t.epoch.toNat, t.operation.toNat)

def tokens (log : Trace) : List Token :=
  log.filterMap fun e =>
    match e with
    | .note (.issued t) => some t
    | _ => none

/-- What a call's trace is measured against: the last token handed out, the position in the plan
and the association. -/
structure Key where
  last : Token
  index : Nat
  count : Nat
  association : Token

def Controller.key (c : Controller) : Key :=
  ⟨⟨c.epoch.epoch, c.serial⟩, c.channelIndex, c.channelCount, c.associationToken⟩

/-- `Issues t log t'`: after `t`, the trace hands out tokens in increasing order, up to `t'`. -/
structure Issues (t : Token) (log : Trace) (t' : Token) : Prop where
  le : t.stamp ≤ t'.stamp
  pairwise : (tokens log).Pairwise fun a b => a.stamp < b.stamp
  between : ∀ a ∈ tokens log, t.stamp < a.stamp ∧ a.stamp ≤ t'.stamp

theorem Issues.refl (t : Token) : Issues t [] t := ⟨le_rfl, .nil, nofun⟩

theorem Issues.trans {t t' t'' : Token} {l l' : Trace} (h : Issues t l t') (h' : Issues t' l' t'') :
    Issues t (l ++ l') t'' := by
  have hsplit : tokens (l ++ l') = tokens l ++ tokens l' := List.filterMap_append
  refine ⟨h.le.trans h'.le, ?_, ?_⟩
  · rw [hsplit, List.pairwise_append]
    exact ⟨h.pairwise, h'.pairwise, fun a ha b hb =>
      lt_of_le_of_lt (h.between a ha).2 (h'.between b hb).1⟩
  · intro a ha
    rw [hsplit, List.mem_append] at ha
    rcases ha with ha | ha
    · exact ⟨(h.between a ha).1, (h.between a ha).2.trans h'.le⟩
    · exact ⟨lt_of_le_of_lt h.le (h'.between a ha).1, (h'.between a ha).2⟩

/-! ## Tidy code -/

def plain : TraceEvent → Bool
  | .call (.setTraffic .controlledPort) _ => false
  | .call (.setTraffic .authorized) _ => false
  | .call (.cancelProtocol _) _ => false
  | .note (.channelRead _ _) => false
  | _ => true

/-- The code hands out tokens in order, leaves only events in `A` and keeps its position. -/
structure Tidy (A : TraceEvent → Prop) (k : Key) (log : Trace) (k' : Key) : Prop where
  issues : Issues k.last log k'.last
  events : ∀ e ∈ log, A e
  index : k'.index = k.index
  count : k'.count = k.count
  association : k'.association = k.association

section Tidy

variable {A : TraceEvent → Prop} {α β : Type}

abbrev TidyAt (A : TraceEvent → Prop) (m : Gated α) (c : Controller) : Prop :=
  m.wp (fun log _ c' => Tidy A c.key log c'.key) c

theorem Tidy.refl (k : Key) : Tidy A k [] k := ⟨Issues.refl _, nofun, rfl, rfl, rfl⟩

theorem Tidy.trans {k k' k'' : Key} {l l' : Trace} (h : Tidy A k l k') (h' : Tidy A k' l' k'') :
    Tidy A k (l ++ l') k'' :=
  ⟨h.issues.trans h'.issues, fun e he => (List.mem_append.1 he).elim (h.events e) (h'.events e),
    h'.index.trans h.index, h'.count.trans h.count, h'.association.trans h.association⟩

theorem Tidy.call {k k' : Key} {call : Call} {reply : Reply call} {l : Trace}
    (he : A (.call call reply)) (h : Tidy A k l k') : Tidy A k (.call call reply :: l) k' :=
  Tidy.trans (l := [.call call reply])
    ⟨⟨le_rfl, .nil, nofun⟩, fun e hm => by rw [List.mem_singleton.1 hm]; exact he, rfl, rfl, rfl⟩ h

/-- Field updates that `Key` does not see. -/
theorem tidy_of_key {m : Gated α} {d : Controller} (hk : d.key = c.key) (h : TidyAt A m d) :
    m.wp (fun log _ c' => Tidy A c.key log c'.key) d := by
  rw [← hk]
  exact h

theorem tidy_bind {m : Gated α} {f : α → Gated β} (hm : TidyAt A m c)
    (hf : ∀ a c', c'.channelIndex = c.channelIndex → c'.channelCount = c.channelCount →
      c'.associationToken = c.associationToken → TidyAt A (f a) c') : TidyAt A (m >>= f) c := by
  rw [TidyAt, wp_bind]
  refine wp_mono hm fun log a c' h => ?_
  exact wp_mono (hf a c' h.index h.count h.association) fun log' b c'' h' => h.trans h'

theorem tidy_guard {m rest : Gated Bool} (hm : TidyAt A m c)
    (hrest : ∀ c', c'.channelIndex = c.channelIndex → c'.channelCount = c.channelCount →
      c'.associationToken = c.associationToken → TidyAt A rest c') :
    TidyAt A (do if !(← m) then return false
                 rest) c := by
  refine tidy_bind hm fun ok c' hi hn ha => ?_
  rw [TidyAt, wp_ite]
  exact ⟨fun _ => (wp_pure _).2 (Tidy.refl _), fun _ => hrest c' hi hn ha⟩

variable (hA : ∀ e, plain e = true → A e)
include hA

theorem fail_tidy (error : Error) : TidyAt A (fail error) c := by
  simp only [TidyAt, fail, wp_get_bind, wp_ite, wp_set_bind, wp_pure,
    wp_setTraffic, wp_recoveryRequired]
  exact ⟨fun _ => Tidy.refl _, fun _ ok => Tidy.call (hA _ rfl) (Tidy.call (hA _ rfl) (Tidy.refl _))⟩

theorem time_tidy (now : UInt64) : TidyAt A (time now) c := by
  simp only [TidyAt, time, wp_inGate, wp_ite, wp_pure, wp_get_bind, wp_set_bind]
  intro ok
  refine ⟨fun _ => Tidy.call (hA _ rfl) (Tidy.refl _), fun _ => ⟨fun _ =>
    Tidy.call (hA _ rfl) (Tidy.refl _), fun _ => ⟨fun _ => ?_, fun _ =>
      Tidy.call (hA _ rfl) (Tidy.refl _)⟩⟩⟩
  exact wp_mono (fail_tidy hA .clock) fun log _ c' h => Tidy.call (hA _ rfl) h

theorem arm_tidy (duration : UInt64) : TidyAt A (arm duration) c := by
  simp only [TidyAt, arm, wp_get_bind, wp_ite, wp_set_bind, wp_pure]
  exact ⟨fun _ => fail_tidy hA .clock, fun _ => Tidy.refl _⟩

omit hA in
theorem nextToken_stamp (hmax : c.serial ≠ uint64Max) :
    (⟨c.epoch.epoch, c.serial⟩ : Token).stamp < c.nextToken.stamp := by
  have hlt : c.serial.toNat < (c.serial + 1).toNat := by
    have h1 : c.serial.toNat ≠ 18446744073709551615 := fun h =>
      hmax (UInt64.toNat_inj.1 (h.trans (by decide)))
    have h2 := c.serial.toNat_lt
    rw [UInt64.toNat_add]
    simp only [UInt64.toNat_ofNat, Nat.reducePow, Nat.reduceMod]
    omega
  exact Prod.Lex.toLex_lt_toLex.2 (Or.inr ⟨rfl, hlt⟩)

theorem token_tidy : TidyAt A token c := by
  simp only [TidyAt, token, wp_get_bind, wp_ite, wp_set_bind, wp_pure,
    wp_tell_bind]
  refine ⟨fun _ => ?_, fun hmax => ?_⟩
  · exact tidy_bind (fail_tidy hA .sequenceExhausted) fun _ _ _ _ _ => (wp_pure _).2 (Tidy.refl _)
  · have hlt := nextToken_stamp hmax
    refine ⟨⟨hlt.le, List.pairwise_singleton _ _, ?_⟩, ?_, rfl, rfl, rfl⟩
    · intro a ha
      have ha' : a = c.nextToken := List.mem_singleton.1 ha
      rw [ha']
      exact ⟨hlt, le_rfl⟩
    · intro e he
      rw [List.mem_singleton.1 he]
      exact hA _ rfl

theorem traffic_tidy (value : Traffic) (hv : ∀ ok, A (.call (.setTraffic value) ok)) :
    TidyAt A (traffic value) c := by
  simp only [TidyAt, traffic, wp_setTraffic, wp_ite, wp_pure]
  intro ok
  refine ⟨fun _ => Tidy.call (hv ok) (Tidy.refl _), fun _ => ?_⟩
  exact wp_mono (fail_tidy hA .backend) fun log _ c' h => Tidy.call (hv ok) h

theorem pause_tidy : TidyAt A (traffic .none) c := traffic_tidy hA .none fun _ => hA _ rfl

omit hA in
theorem currentChannel_tidy (hread : A (.note (.channelRead c.channelIndex c.channelCount))) :
    TidyAt A currentChannel c := by
  simp only [TidyAt, currentChannel, wp_get_bind, wp_tell_bind, wp_pure]
  refine ⟨⟨le_rfl, .nil, (by intros; contradiction)⟩, fun e he => ?_, rfl, rfl, rfl⟩
  rw [List.mem_singleton.1 he]
  exact hread

theorem action_tidy (kind : Action) (state : State) (target : Channel)
    (hread : kind = .scanTune → A (.note (.channelRead c.channelIndex c.channelCount))) :
    TidyAt A (action kind state target) c := by
  simp only [TidyAt, action, wp_get_bind, wp_ite]
  refine ⟨fun _ => fail_tidy hA .backend, fun _ => tidy_bind (token_tidy hA) fun pending c' hi hn _ => ?_⟩
  simp only [TidyAt, wp_modify_bind, wp_get_bind, wp_ite, wp_pure]
  refine ⟨fun _ => Tidy.refl _, fun _ => tidy_of_key rfl (tidy_guard (arm_tidy hA _) fun c'' hi' hn' _ => ?_)⟩
  refine tidy_bind ?_ fun active d _ _ _ => ?_
  · rw [TidyAt, activeTune, wp_ite]
    refine ⟨fun hk => tidy_bind (currentChannel_tidy ?_) fun _ _ _ _ _ =>
      (wp_pure _).2 (Tidy.refl _), fun _ => (wp_pure _).2 (Tidy.refl _)⟩
    rw [hi'.trans hi, hn'.trans hn]
    exact hread hk
  · simp only [TidyAt, wp_get_bind, wp_beginAction, wp_ite, wp_pure]
    intro begun
    refine ⟨fun _ => Tidy.call (hA _ rfl) (Tidy.refl _), fun _ => ?_⟩
    exact wp_mono (fail_tidy hA .backend) fun log _ c' h => Tidy.call (hA _ rfl) h

theorem command_tidy (role removeOrDisconnect : Bool) (state : State) :
    TidyAt A (command role removeOrDisconnect state) c := by
  simp only [TidyAt, command, wp_get_bind, wp_ite]
  refine ⟨fun _ => fail_tidy hA .backend, fun _ => ?_⟩
  rw [wp_reserveH2cSequence]
  intro reserved
  refine wp_mono (Q := fun log _ c' => Tidy A c.key log c'.key) ?_
    fun log _ c' h => Tidy.call (hA _ rfl) h
  cases reserved with
  | none => exact fail_tidy hA .sequenceExhausted
  | some sequence =>
      simp only [wp_get_bind, wp_modify_bind]
      cases (commandPacket c.interface role removeOrDisconnect sequence).1 with
      | none => exact tidy_of_key rfl (fail_tidy hA .backend)
      | some bytes =>
          refine tidy_of_key rfl (tidy_bind (token_tidy hA) fun pending c' _ _ _ => ?_)
          simp only [TidyAt, wp_modify_bind, wp_get_bind, wp_ite, wp_pure]
          refine ⟨fun _ => Tidy.refl _, fun _ =>
            tidy_of_key rfl (tidy_guard (arm_tidy hA _) fun c'' _ _ _ => ?_)⟩
          simp only [TidyAt, wp_get_bind, wp_publishH2c, wp_ite, wp_pure]
          intro published
          refine ⟨fun _ => Tidy.call (hA _ rfl) (Tidy.refl _), fun _ => ?_⟩
          exact wp_mono (fail_tidy hA .backend) fun log _ c' h => Tidy.call (hA _ rfl) h

theorem beginDisconnect_tidy (hcancel : ∀ ok, A (.call (.cancelProtocol c.associationToken) ok)) :
    TidyAt A beginDisconnect c := by
  refine tidy_guard (pause_tidy hA) fun c' _ _ ha => ?_
  simp only [TidyAt, wp_get_bind, wp_cancelProtocol, wp_ite]
  intro ok
  rw [ha]
  refine ⟨fun _ => ?_, fun _ => ?_⟩
  · exact wp_mono (fail_tidy hA .backend) fun log _ c' h => Tidy.call (hcancel ok) h
  · exact wp_mono (action_tidy hA .disconnectCmac .disconnectingCmac {} (by rintro ⟨⟩))
      fun log _ c' h => Tidy.call (hcancel ok) h

theorem tuneScan_tidy (hread : A (.note (.channelRead c.channelIndex c.channelCount))) :
    TidyAt A tuneScan c := by
  refine tidy_guard (pause_tidy hA) fun c' hi hn _ => ?_
  refine tidy_bind (currentChannel_tidy (by rw [hi, hn]; exact hread)) fun current c'' hi' hn' _ => ?_
  exact action_tidy hA .scanTune .scanningTune current.channel fun _ => by
    rw [hi', hn', hi, hn]
    exact hread

theorem restoreScan_tidy : TidyAt A restoreScan c := by
  refine tidy_guard (pause_tidy hA) fun c' _ _ _ => ?_
  rw [TidyAt, wp_get_bind]
  exact action_tidy hA .scanRestore .scanningRestore _ nofun

theorem expire_tidy (hcancel : ∀ ok, A (.call (.cancelProtocol c.associationToken) ok)) :
    TidyAt A expire c := by
  simp only [TidyAt, expire, wp_get_bind, wp_ite, wp_set_bind, wp_pure]
  exact ⟨fun _ => fail_tidy hA .timeout, fun _ => ⟨fun _ => ⟨fun _ => fail_tidy hA .timeout,
    fun _ => Tidy.refl _⟩, fun _ => ⟨fun _ => tidy_of_key rfl (beginDisconnect_tidy hA hcancel),
      fun _ => Tidy.refl _⟩⟩⟩

end Tidy

/-! ## Calls -/

/-- Like `Tidy`, for code that moves its position. -/
structure Orderly (A : TraceEvent → Prop) (t : Token) (log : Trace) (t' : Token) : Prop where
  issues : Issues t log t'
  events : ∀ e ∈ log, A e

section Orderly

variable {A : TraceEvent → Prop} {α : Type}

abbrev OrderlyAt (A : TraceEvent → Prop) (m : Gated α) (c : Controller) : Prop :=
  m.wp (fun log _ c' => Orderly A c.key.last log c'.key.last) c

theorem Orderly.refl (t : Token) : Orderly A t [] t := ⟨Issues.refl t, nofun⟩

theorem orderly_of_tidy {m : Gated α} (h : TidyAt A m c) : OrderlyAt A m c :=
  wp_mono h fun _ _ _ ht => ⟨ht.issues, ht.events⟩

theorem orderly_of_last {m : Gated α} {d : Controller} (hk : d.key.last = c.key.last)
    (h : OrderlyAt A m d) : m.wp (fun log _ c' => Orderly A c.key.last log c'.key.last) d := by
  rw [← hk]
  exact h

variable {rest : Gated Bool}

/-- After a helper that leaves the controller as `P` says if it lets the call go on. -/
theorem orderly_guard {m : Gated Bool} {P : Controller → Prop} (hm : TidyAt A m c)
    (hP : m.wp (fun _ ok c' => ok = true → P c') c) (hrest : ∀ c', P c' → OrderlyAt A rest c') :
    OrderlyAt A (do if !(← m) then return false
                    rest) c := by
  rw [OrderlyAt, wp_bind]
  refine wp_mono (wp_and hm hP) fun log ok c' ⟨ht, hp⟩ => ?_
  rw [wp_ite]
  refine ⟨fun _ => (wp_pure _).2 ?_, fun h => ?_⟩
  · rw [List.append_nil]
    exact ⟨ht.issues, ht.events⟩
  · refine wp_mono (hrest c' (hp (by simpa using h))) fun log' _ c'' h' => ?_
    exact ⟨ht.issues.trans h'.issues,
      fun e he => (List.mem_append.1 he).elim (ht.events e) (h'.events e)⟩

variable (hA : ∀ e, plain e = true → A e)
include hA

theorem orderly_time {now : UInt64} (hrest : c.state ≠ .faulted → OrderlyAt A rest (c.clocked now)) :
    OrderlyAt A (do if !(← time now) then return false
                    rest) c := by
  refine orderly_guard (P := fun c' => c.state ≠ .faulted ∧ c' = c.clocked now) (time_tidy hA now)
    (wp_time (W := True) (fun _ _ _ => nofun) (fun _ _ => nofun) (fun _ _ => trivial)
      fun hc _ => ⟨hc, rfl⟩) ?_
  rintro c' ⟨hc, rfl⟩
  exact hrest hc

theorem orderly_traffic {value : Traffic} (hc : c.state ≠ .faulted) (hv : ∀ ok, A (.call (.setTraffic value) ok))
    (hrest : OrderlyAt A rest c) :
    OrderlyAt A (do if !(← traffic value) then return false
                    rest) c := by
  refine orderly_guard (P := fun c' => c' = c) (traffic_tidy hA value hv)
    (wp_traffic (W := True) (fun _ _ _ => nofun) hc fun _ => rfl) ?_
  rintro c' rfl
  exact hrest

theorem orderly_expire (hc : c.state ≠ .faulted) (hcancel : ∀ ok, A (.call (.cancelProtocol c.associationToken) ok))
    (hrest : OrderlyAt A rest c) (hlate : c.timedOut c.lastNow → OrderlyAt A rest (c.leaving .timeout).parting) :
    OrderlyAt A (do if !(← expire) then return false
                    rest) c := by
  refine orderly_guard
    (P := fun c' => c' = c ∨ (c.timedOut c.lastNow ∧ c' = (c.leaving .timeout).parting))
    (expire_tidy hA hcancel)
    (wp_expire (W := True) (fun _ _ _ => nofun) hc (fun _ => trivial) (fun _ => trivial)
      (fun _ _ _ => Or.inl rfl) fun h _ => Or.inr ⟨h, rfl⟩) ?_
  rintro c' (rfl | ⟨h, rfl⟩)
  · exact hrest
  · exact hlate h

/-- How a function goes on after `token()`. -/
theorem orderly_token {save : Token → Controller → Controller} (hsave : ∀ t c', (save t c').key.last = c'.key.last)
    (hrest : ∀ t c', c'.channelIndex = c.channelIndex → c'.channelCount = c.channelCount →
      OrderlyAt A rest (save t c')) :
    OrderlyAt A (do
      let t ← token
      modify fun c => save t c
      if (← get).state = State.faulted then return false
      rest) c := by
  rw [OrderlyAt, wp_bind]
  refine wp_mono (token_tidy hA) fun log t c' ht => ?_
  simp only [wp_modify_bind, wp_get_bind, wp_ite, wp_pure]
  refine ⟨fun _ => ?_, fun _ => ?_⟩
  · rw [hsave, List.append_nil]
    exact ⟨ht.issues, ht.events⟩
  · refine wp_mono (hrest t c' ht.index ht.count) fun log' _ c'' h' => ?_
    rw [hsave] at h'
    exact ⟨ht.issues.trans h'.issues,
      fun e he => (List.mem_append.1 he).elim (ht.events e) (h'.events e)⟩

end Orderly

def Controller.mayOpen (c : Controller) : Op → Prop
  | .authorizePort _ _ => c.state = .associated
  | .revokePort _ _ => c.linked = true
  | .actionComplete _ kind _ _ =>
      c.waitingAction = true ∧ kind = c.pendingAction ∧ c.disconnectRequested = false ∧
        (kind = .associationCam ∨ kind = .scanEnd)
  | _ => False

def Allowed (c : Controller) (op : Op) : TraceEvent → Prop
  | .call (.setTraffic .controlledPort) _ => c.mayOpen op
  | .call (.setTraffic .authorized) _ => c.mayOpen op
  | .call (.cancelProtocol token) _ => token = c.associationToken ∧ c.state ≠ .faulted
  | .note (.channelRead index count) => index < count
  | _ => True

theorem allowed_of_plain (e : TraceEvent) (he : plain e = true) : Allowed c op e := by
  unfold plain at he
  unfold Allowed
  split at he
  · cases he
  · cases he
  · cases he
  · cases he
  · trivial

section Calls

variable (c)

theorem restart_orderly (newEpoch now : UInt64) :
    OrderlyAt (Allowed c (.restart newEpoch now)) (restart newEpoch now) c := by
  simp only [OrderlyAt, restart, wp_inGate, wp_ite, wp_get_bind, wp_pure,
    wp_set_bind, wp_firmwareRestartVerified, wp_setTraffic]
  have hcalls : ∀ {l : Trace}, (∀ e ∈ l, plain e = true) →
      ∀ e ∈ l, Allowed c (.restart newEpoch now) e := fun h e he => allowed_of_plain e (h e he)
  intro opened
  refine ⟨fun _ => ⟨⟨le_rfl, .nil, (by intros; contradiction)⟩, hcalls (by simp [plain])⟩, fun _ =>
    ⟨fun _ => ⟨⟨le_rfl, .nil, (by intros; contradiction)⟩, hcalls (by simp [plain])⟩, fun hepoch verified =>
      ⟨fun _ => ⟨⟨le_rfl, .nil, (by intros; contradiction)⟩, hcalls (by simp [plain])⟩, fun _ paused =>
        ⟨fun _ => ⟨⟨le_rfl, .nil, (by intros; contradiction)⟩, hcalls (by simp [plain])⟩, fun _ => ?_⟩⟩⟩⟩
  have hlt : c.epoch.epoch < newEpoch := UInt64.not_le.1 (not_or.1 hepoch).2
  refine ⟨⟨le_of_lt ?_, .nil, (by intros; contradiction)⟩, hcalls (by simp [plain])⟩
  exact Prod.Lex.toLex_lt_toLex.2 (Or.inl (UInt64.lt_iff_toNat_lt.1 hlt))

theorem start_orderly (config : Interface) (now : UInt64) :
    OrderlyAt (Allowed c (.start config now)) (start config now) c := by
  refine orderly_time allowed_of_plain fun hc => ?_
  simp only [OrderlyAt, wp_get_bind, wp_ite, wp_pure, wp_set_bind]
  refine ⟨fun _ => Orderly.refl _, fun _ => orderly_of_last rfl ?_⟩
  refine orderly_traffic allowed_of_plain hc (fun _ => trivial) ?_
  exact orderly_of_tidy (action_tidy allowed_of_plain _ _ _ (by rintro ⟨⟩))

theorem stop_orderly (now : UInt64) : OrderlyAt (Allowed c (.stop now)) (stop now) c := by
  refine orderly_time allowed_of_plain fun hc => ?_
  simp only [OrderlyAt, wp_get_bind, wp_ite, wp_pure]
  refine ⟨fun _ => Orderly.refl _, fun _ => ?_⟩
  refine orderly_traffic allowed_of_plain hc (fun _ => trivial) ?_
  exact orderly_of_tidy (command_tidy allowed_of_plain _ _ _)

theorem scan_orderly (plan : Option (List ScanChannel)) (now : UInt64) :
    OrderlyAt (Allowed c (.scan plan now)) (scan plan now) c := by
  refine orderly_time allowed_of_plain fun hc => ?_
  simp only [OrderlyAt, wp_get_bind, wp_ite, wp_pure]
  refine ⟨fun _ => Orderly.refl _, fun _ => ?_⟩
  cases plan with
  | none =>
      simp only [wp_pure]
      exact Orderly.refl _
  | some plan =>
      simp only [wp_ite, wp_pure, wp_modify_bind]
      refine ⟨fun _ => Orderly.refl _, fun _ => ⟨fun _ => Orderly.refl _, fun _ => ⟨fun _ =>
        orderly_of_tidy (fail_tidy allowed_of_plain .clock), fun _ => ?_⟩⟩⟩
      refine orderly_of_last rfl (orderly_token allowed_of_plain (fun _ _ => rfl) fun t c' _ _ => ?_)
      rw [OrderlyAt, wp_modify_bind]
      refine orderly_of_last ?_ (orderly_of_tidy ?_)
      · show (⟨c'.epoch.epoch, c'.serial⟩ : Token) = ⟨c'.epoch.epoch, c'.serial⟩
        rfl
      · exact tidy_guard (pause_tidy allowed_of_plain) fun c'' _ _ _ =>
          action_tidy allowed_of_plain _ _ _ (by rintro ⟨⟩)

variable {A : TraceEvent → Prop}

theorem cancel_tidy (hA : ∀ e, plain e = true → A e) {d : Controller}
    (hcancel : ∀ ok, A (.call (.cancelProtocol d.associationToken) ok)) :
    TidyAt A (do if !(← expire) then return false
                 modify fun c => { c with scanCancelled := true }
                 if (← get).state = .scanningDwell then restoreScan else return true : Gated Bool)
      d := by
  refine tidy_guard (expire_tidy hA hcancel) fun c' _ _ _ => ?_
  simp only [TidyAt, wp_modify_bind, wp_get_bind, wp_ite, wp_pure]
  exact ⟨fun _ => tidy_of_key rfl (restoreScan_tidy hA), fun _ => Tidy.refl _⟩

theorem cancelScan_tidy (hA : ∀ e, plain e = true → A e) {d : Controller} (original : Token) (now : UInt64)
    (hcancel : ∀ ok, A (.call (.cancelProtocol d.associationToken) ok)) :
    TidyAt A (cancelScan original now) d := by
  refine tidy_guard (time_tidy hA now) fun c' _ _ ha => ?_
  simp only [TidyAt, wp_get_bind, wp_ite, wp_pure]
  exact ⟨fun _ => Tidy.refl _, fun _ => cancel_tidy hA (by rw [ha]; exact hcancel)⟩

theorem cancelScan_orderly (original : Token) (now : UInt64) :
    OrderlyAt (Allowed c (.cancelScan original now)) (cancelScan original now) c := by
  refine orderly_time allowed_of_plain fun hc => orderly_of_tidy ?_
  simp only [TidyAt, wp_get_bind, wp_ite, wp_pure]
  exact ⟨fun _ => Tidy.refl _, fun _ => cancel_tidy allowed_of_plain fun _ => ⟨rfl, hc⟩⟩

theorem connect_orderly (peer : Peer) (now : UInt64) :
    OrderlyAt (Allowed c (.connect peer now)) (connect peer now) c := by
  refine orderly_time allowed_of_plain fun hc => ?_
  simp only [OrderlyAt, wp_get_bind, wp_ite, wp_pure, wp_set_bind]
  refine ⟨fun _ => Orderly.refl _, fun _ => ?_⟩
  refine orderly_of_last rfl (orderly_token allowed_of_plain (fun _ _ => rfl) fun t c' _ _ => ?_)
  refine orderly_of_tidy ?_
  exact tidy_guard (pause_tidy allowed_of_plain) fun c'' _ _ _ =>
    action_tidy allowed_of_plain _ _ _ (by rintro ⟨⟩)

theorem authenticated_orderly (original : Token) (bssid : Address) (success : Bool) (now : UInt64) :
    OrderlyAt (Allowed c (.authenticated original bssid success now))
      (authenticated original bssid success now) c := by
  refine orderly_time allowed_of_plain fun hc => orderly_of_tidy ?_
  simp only [TidyAt, wp_get_bind, wp_ite, wp_pure]
  refine ⟨fun _ => Tidy.refl _, fun _ => ?_⟩
  refine tidy_guard (expire_tidy allowed_of_plain fun _ => ⟨rfl, hc⟩) fun c' _ _ ha => ?_
  simp only [TidyAt, wp_modify_bind, wp_ite, wp_pure]
  exact ⟨fun _ => tidy_of_key rfl (beginDisconnect_tidy allowed_of_plain fun _ => ⟨ha, hc⟩), fun _ =>
    Tidy.refl _⟩

theorem associationReceived_orderly (original : Token) (peer : Association) (now : UInt64) :
    OrderlyAt (Allowed c (.associationReceived original peer now))
      (associationReceived original peer now) c := by
  refine orderly_time allowed_of_plain fun hc => orderly_of_tidy ?_
  simp only [TidyAt, wp_get_bind, wp_ite, wp_pure]
  refine ⟨fun _ => Tidy.refl _, fun _ => ?_⟩
  refine tidy_guard (expire_tidy allowed_of_plain fun _ => ⟨rfl, hc⟩) fun c' _ _ ha => ?_
  rw [TidyAt, wp_modify_bind]
  exact tidy_of_key rfl (action_tidy allowed_of_plain _ _ _ (by rintro ⟨⟩))

theorem associationRejected_orderly (original : Token) (bssid : Address) (status : UInt16)
    (now : UInt64) :
    OrderlyAt (Allowed c (.associationRejected original bssid status now))
      (associationRejected original bssid status now) c := by
  refine orderly_time allowed_of_plain fun hc => orderly_of_tidy ?_
  simp only [TidyAt, wp_get_bind, wp_ite, wp_pure]
  refine ⟨fun _ => Tidy.refl _, fun _ => ?_⟩
  refine tidy_guard (expire_tidy allowed_of_plain fun _ => ⟨rfl, hc⟩) fun c' _ _ ha => ?_
  rw [TidyAt, wp_modify_bind]
  exact tidy_of_key rfl (beginDisconnect_tidy allowed_of_plain fun _ => ⟨ha, hc⟩)

theorem authorizePort_orderly (original : Token) (now : UInt64) :
    OrderlyAt (Allowed c (.authorizePort original now)) (authorizePort original now) c := by
  refine orderly_time allowed_of_plain fun hc => ?_
  simp only [OrderlyAt, wp_get_bind, wp_ite, wp_pure]
  refine ⟨fun _ => Orderly.refl _, fun h => ?_⟩
  have hs : c.state = .associated := not_not.1 (not_or.1 h).1
  refine orderly_traffic allowed_of_plain hc (fun _ => hs) ?_
  simp only [OrderlyAt, wp_modify_bind, wp_pure]
  exact Orderly.refl _

theorem revokePort_orderly (original : Token) (now : UInt64) :
    OrderlyAt (Allowed c (.revokePort original now)) (revokePort original now) c := by
  refine orderly_time allowed_of_plain fun hc => ?_
  simp only [OrderlyAt, wp_get_bind, wp_ite, wp_pure]
  refine ⟨fun _ => Orderly.refl _, fun _ => ?_⟩
  refine orderly_expire allowed_of_plain hc (fun _ => ⟨rfl, hc⟩) ?_ fun _ => ?_
  · simp only [OrderlyAt, wp_get_bind, wp_ite, wp_pure, wp_set_bind]
    refine ⟨fun _ => Orderly.refl _, fun _ => ⟨fun _ => Orderly.refl _, fun hl => ?_⟩⟩
    have hl' : c.linked = true := by simpa using hl
    refine orderly_traffic allowed_of_plain hc (fun _ => hl') ?_
    simp only [OrderlyAt, wp_modify_bind, wp_pure]
    exact Orderly.refl _
  · simp only [OrderlyAt, wp_get_bind, wp_ite, wp_pure, wp_set_bind]
    exact ⟨fun _ => Orderly.refl _, fun _ => ⟨fun _ => Orderly.refl _, fun hl => absurd rfl hl⟩⟩

theorem disconnect_orderly (now : UInt64) :
    OrderlyAt (Allowed c (.disconnect now)) (disconnect now) c := by
  refine orderly_time allowed_of_plain fun hc => orderly_of_tidy ?_
  refine tidy_guard (expire_tidy allowed_of_plain fun _ => ⟨rfl, hc⟩) fun c' _ _ ha => ?_
  simp only [TidyAt, wp_get_bind, wp_ite, wp_pure, wp_set_bind]
  refine ⟨fun _ => Tidy.refl _, fun _ => ⟨fun _ => ⟨fun _ => ?_, fun _ => ?_⟩, fun _ =>
    ⟨fun _ => Tidy.refl _, fun _ => tidy_of_key rfl ?_⟩⟩⟩
  · exact tidy_of_key rfl (cancelScan_tidy allowed_of_plain _ _ fun _ => ⟨ha, hc⟩)
  · exact cancelScan_tidy allowed_of_plain _ _ fun _ => ⟨ha, hc⟩
  · refine tidy_guard (pause_tidy allowed_of_plain) fun c'' _ _ ha' => ?_
    simp only [TidyAt, wp_get_bind, wp_ite, wp_pure]
    exact ⟨fun _ => Tidy.refl _, fun _ =>
      beginDisconnect_tidy allowed_of_plain fun _ => ⟨ha'.trans ha, hc⟩⟩

theorem tick_orderly (hS : Sound c) (now : UInt64) :
    OrderlyAt (Allowed c (.tick now)) (tick now) c := by
  refine orderly_time allowed_of_plain fun hc => ?_
  refine orderly_expire allowed_of_plain hc (fun _ => ⟨rfl, hc⟩) ?_ fun _ => ?_
  · simp only [OrderlyAt, wp_get_bind, wp_ite, wp_pure, wp_set_bind]
    refine ⟨fun hd => ⟨fun _ => ?_, fun _ => ⟨fun _ => ?_, fun hn => ?_⟩⟩, fun _ => Orderly.refl _⟩
    · exact orderly_of_tidy (restoreScan_tidy allowed_of_plain)
    · exact orderly_of_last rfl (orderly_of_tidy (restoreScan_tidy allowed_of_plain))
    · have hs : c.state = .scanningDwell := hd.1
      have hin := hS.inPlan (Controller.scanning_of_dwell hs) (by simp [hs]) (by simp [hs])
      refine orderly_of_last rfl (orderly_of_tidy (tuneScan_tidy allowed_of_plain ?_))
      exact lt_of_le_of_ne hin hn
  · simp only [OrderlyAt, wp_get_bind, wp_ite, wp_pure, wp_set_bind]
    exact ⟨fun hd => absurd hd.1 (by rintro ⟨⟩), fun _ => Orderly.refl _⟩

theorem firmwareEvent_orderly (event : FirmwareEvent) (receiveEpoch now : UInt64) :
    OrderlyAt (Allowed c (.firmwareEvent event receiveEpoch now))
      (firmwareEvent event receiveEpoch now) c := by
  refine orderly_time allowed_of_plain fun hc => orderly_of_tidy ?_
  simp only [TidyAt, wp_get_bind, wp_ite, wp_pure]
  refine ⟨fun _ => Tidy.refl _, fun _ => ?_⟩
  refine tidy_guard (expire_tidy allowed_of_plain fun _ => ⟨rfl, hc⟩) fun c' _ _ ha => ?_
  rw [TidyAt, wp_get_bind]
  cases decodeAck event with
  | none =>
      simp only [wp_pure]
      exact Tidy.refl _
  | some ack =>
      simp only [wp_ite, wp_pure, wp_set_bind]
      refine ⟨fun _ => Tidy.refl _, fun _ => ⟨fun _ => ?_, fun _ => tidy_of_key rfl ?_⟩⟩
      · exact tidy_of_key rfl (fail_tidy allowed_of_plain _)
      · split
        · rw [TidyAt, wp_modify_bind]
          exact tidy_of_key rfl (command_tidy allowed_of_plain _ _ _)
        · exact action_tidy allowed_of_plain _ _ _ (by rintro ⟨⟩)
        · rw [TidyAt, wp_ite]
          exact ⟨fun _ => beginDisconnect_tidy allowed_of_plain fun _ => ⟨ha, hc⟩, fun _ =>
            action_tidy allowed_of_plain _ _ _ (by rintro ⟨⟩)⟩
        · exact action_tidy allowed_of_plain _ _ _ (by rintro ⟨⟩)
        · exact action_tidy allowed_of_plain _ _ _ (by rintro ⟨⟩)
        · exact fail_tidy allowed_of_plain _

theorem completeTune_tidy (hA : ∀ e, plain e = true → A e) {d : Controller}
    (hread : A (.note (.channelRead d.channelIndex d.channelCount))) :
    TidyAt A completeTune d := by
  have hreads : ∀ {c' : Controller}, c'.channelIndex = d.channelIndex →
      c'.channelCount = d.channelCount → TidyAt A currentChannel c' := fun hi hn =>
    currentChannel_tidy (by rw [hi, hn]; exact hread)
  simp only [TidyAt, completeTune, wp_get_bind, wp_ite, wp_modify_bind]
  refine ⟨fun _ => restoreScan_tidy hA, fun _ => tidy_of_key rfl ?_⟩
  refine tidy_bind (hreads rfl rfl) fun dwell c1 hi1 hn1 _ => ?_
  refine tidy_guard (arm_tidy hA _) fun c2 hi2 hn2 _ => ?_
  refine tidy_bind (hreads (hi2.trans hi1) (hn2.trans hn1)) fun entry c3 hi3 hn3 _ => ?_
  refine tidy_guard (traffic_tidy hA _ fun ok => ?_) fun c4 hi4 hn4 _ => ?_
  · cases entry.active <;> exact hA _ rfl
  rw [TidyAt, wp_get_bind]
  refine tidy_bind (hreads (hi4.trans (hi3.trans (hi2.trans hi1)))
    (hn4.trans (hn3.trans (hn2.trans hn1)))) fun probed c5 hi5 hn5 _ => ?_
  rw [TidyAt, wp_ite]
  refine ⟨fun _ => ?_, fun _ => (wp_pure _).2 (Tidy.refl _)⟩
  refine tidy_bind (hreads (hi5.trans (hi4.trans (hi3.trans (hi2.trans hi1))))
    (hn5.trans (hn4.trans (hn3.trans (hn2.trans hn1))))) fun argument c6 _ _ _ => ?_
  simp only [TidyAt, wp_sendProbe, wp_ite, wp_pure]
  intro sent
  refine ⟨fun _ => Tidy.call (hA _ rfl) (Tidy.refl _), fun _ => ?_⟩
  exact wp_mono (fail_tidy hA .backend) fun log _ c' h => Tidy.call (hA _ rfl) h

theorem completeScan_tidy (hA : ∀ e, plain e = true → A e) {d : Controller}
    (hcancel : ∀ ok, A (.call (.cancelProtocol d.associationToken) ok))
    (hopen : d.disconnectRequested = false → ∀ mode ok, A (.call (.setTraffic mode) ok)) :
    TidyAt A completeScan d := by
  simp only [TidyAt, completeScan, wp_modify_bind, wp_get_bind]
  refine tidy_of_key rfl (tidy_guard (traffic_tidy hA _ fun ok => ?_) fun c' _ _ ha => ?_)
  · by_cases hd : d.disconnectRequested = true
    · rw [if_pos hd]
      exact hA _ rfl
    · exact hopen (by simpa using hd) _ ok
  · simp only [TidyAt, wp_scanFinished, wp_modify_bind, wp_get_bind, wp_ite,
      wp_pure]
    refine ⟨fun _ => ?_, fun _ => Tidy.call (hA _ rfl) (Tidy.refl _)⟩
    refine wp_mono (tidy_of_key (c := c') rfl (beginDisconnect_tidy hA fun ok => ?_))
      fun log _ c'' h => Tidy.call (hA _ rfl) h
    have ha' : c'.associationToken = d.associationToken := ha
    rw [ha']
    exact hcancel ok

theorem actionComplete_orderly (hS : Sound c) (original : Token) (kind : Action) (success : Bool)
    (now : UInt64) :
    OrderlyAt (Allowed c (.actionComplete original kind success now))
      (actionComplete original kind success now) c := by
  have hA : ∀ e, plain e = true → Allowed c (.actionComplete original kind success now) e :=
    allowed_of_plain
  refine orderly_time hA fun hc => ?_
  simp only [OrderlyAt, wp_get_bind, wp_ite, wp_pure]
  refine ⟨fun _ => Orderly.refl _, fun h => ?_⟩
  obtain ⟨⟨hw, -⟩, hk⟩ :
      (c.waitingAction = true ∧ original = c.pendingToken) ∧ kind = c.pendingAction := by
    simpa using h
  refine orderly_expire hA hc (fun _ => ⟨rfl, hc⟩) ?_ fun hlate => ?_
  · simp only [OrderlyAt, wp_modify_bind, wp_ite]
    refine ⟨fun _ => orderly_of_last rfl (orderly_of_tidy (fail_tidy hA _)), fun _ => ?_⟩
    have hstate : c.state = kind.state := by rw [(hS.action hw).2, hk]
    cases kind with
    | prepareInterface => exact orderly_of_last rfl (orderly_of_tidy (command_tidy hA _ _ _))
    | idleTables =>
        rw [wp_modify_bind]
        exact orderly_of_last rfl (orderly_of_tidy (traffic_tidy hA _ fun _ => trivial))
    | scanBegin =>
        have hin := hS.inPlan (hS.scanning_of_pending hw hk rfl)
          (by simp [hstate, Action.state]) (by simp [hstate, Action.state])
        rw [wp_get_bind, wp_ite]
        exact ⟨fun _ => orderly_of_last rfl (orderly_of_tidy (restoreScan_tidy hA)), fun _ =>
          orderly_of_last rfl (orderly_of_tidy (tuneScan_tidy hA hin))⟩
    | scanTune =>
        have hin := hS.inPlan (hS.scanning_of_pending hw hk rfl)
          (by simp [hstate, Action.state]) (by simp [hstate, Action.state])
        exact orderly_of_last rfl (orderly_of_tidy (completeTune_tidy hA hin))
    | scanRestore => exact orderly_of_last rfl (orderly_of_tidy (action_tidy hA _ _ _ (by rintro ⟨⟩)))
    | scanEnd =>
        refine orderly_of_last rfl (orderly_of_tidy (completeScan_tidy hA (fun _ => ⟨rfl, hc⟩) ?_))
        intro hd mode ok
        cases mode with
        | controlledPort => exact ⟨hw, hk, hd, Or.inr rfl⟩
        | authorized => exact ⟨hw, hk, hd, Or.inr rfl⟩
        | _ => trivial
    | prepareAuthentication =>
        simp only [wp_modify_bind, wp_get_bind, wp_ite]
        refine ⟨fun _ => orderly_of_last rfl (orderly_of_tidy (beginDisconnect_tidy hA fun _ => ⟨rfl, hc⟩)),
          fun _ => orderly_of_last rfl (orderly_of_tidy ?_)⟩
        refine tidy_guard (arm_tidy hA _) fun c1 _ _ _ => ?_
        refine tidy_guard (traffic_tidy hA _ fun _ => trivial) fun c2 _ _ _ => ?_
        simp only [TidyAt, wp_get_bind, wp_beginAuthentication, wp_ite, wp_pure]
        intro begun
        refine ⟨fun _ => Tidy.call (hA _ rfl) (Tidy.refl _), fun _ => ?_⟩
        exact wp_mono (fail_tidy hA .backend) fun log _ c' h => Tidy.call (hA _ rfl) h
    | associationCmac =>
        rw [wp_get_bind, wp_ite]
        exact ⟨fun _ => orderly_of_last rfl (orderly_of_tidy (beginDisconnect_tidy hA fun _ => ⟨rfl, hc⟩)),
          fun _ => orderly_of_last rfl (orderly_of_tidy (command_tidy hA _ _ _))⟩
    | associationCam =>
        simp only [wp_modify_bind, wp_get_bind, wp_ite]
        refine ⟨fun _ => orderly_of_last rfl (orderly_of_tidy (beginDisconnect_tidy hA fun _ => ⟨rfl, hc⟩)),
          fun hd => orderly_of_last rfl (orderly_of_tidy (traffic_tidy hA _ fun _ => ?_))⟩
        exact ⟨hw, hk, by simpa using hd, Or.inl rfl⟩
    | disconnectCmac => exact orderly_of_last rfl (orderly_of_tidy (command_tidy hA _ _ _))
    | disconnectCam =>
        rw [wp_modify_bind]
        exact orderly_of_last rfl (orderly_of_tidy (traffic_tidy hA _ fun _ => trivial))
    | removeCam =>
        simp only [wp_modify_bind, wp_pure]
        exact Orderly.refl _
  · have hwait : c.waiting = true := by simp [Controller.waiting, hw]
    exact absurd (hlate.1.symm.trans hwait) (by decide)

/-- Whatever the backend replies, a call hands out tokens in order and leaves only what is allowed
in its trace. -/
theorem exec_orderly (hS : Sound c) (op : Op) : OrderlyAt (Allowed c op) (exec op) c := by
  cases op with
  | restart newEpoch now => exact restart_orderly c newEpoch now
  | start config now => exact start_orderly c config now
  | scan plan now => exact scan_orderly c plan now
  | cancelScan original now => exact cancelScan_orderly c original now
  | connect peer now => exact connect_orderly c peer now
  | authenticated original bssid success now =>
      exact authenticated_orderly c original bssid success now
  | associationReceived original peer now => exact associationReceived_orderly c original peer now
  | associationRejected original bssid status now =>
      exact associationRejected_orderly c original bssid status now
  | authorizePort original now => exact authorizePort_orderly c original now
  | revokePort original now => exact revokePort_orderly c original now
  | disconnect now => exact disconnect_orderly c now
  | stop now => exact stop_orderly c now
  | tick now => exact tick_orderly c hS now
  | actionComplete original kind success now =>
      exact actionComplete_orderly c hS original kind success now
  | firmwareEvent event receiveEpoch now => exact firmwareEvent_orderly c event receiveEpoch now

end Calls

end Station
end Rtl8852be
