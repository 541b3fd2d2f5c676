import Rtl8852be.Sae.SaeExchange

/-!
# Steps — the ways in which a call of an exchange can go

`Went x op log answer x'` has one case for each of them, with everything that is known of the states, of
the session calls and of the answer.  `exec_went` says that there are no others.  What holds of whole
runs is derived from these cases.
-/

namespace Rtl8852be
namespace Sae

open Interaction

/-! ## States -/

def Waiting (x : Exchange) : Prop := x.state = .waitCommit ∨ x.state = .waitConfirm

def Over (x : Exchange) : Prop := x.state = .failed ∨ x.state = .cancelled

structure Cleared (x : Exchange) : Prop where
  session : x.session = false
  commit : x.commit = {}
  confirm : x.confirm = {}
  own : x.own = fun _ => 0
  peer : x.peer = fun _ => 0

/-- What was fixed when the exchange was created. -/
structure Settings (x x' : Exchange) : Prop where
  h2e : x'.h2e = x.h2e
  retryMs : x'.retryMs = x.retryMs
  timeoutMs : x'.timeoutMs = x.timeoutMs
  retries : x'.retries = x.retries

theorem Settings.refl (x : Exchange) : Settings x x := ⟨rfl, rfl, rfl, rfl⟩

variable {x x' : Exchange}

theorem Settings.trans {x'' : Exchange} (h : Settings x x') (h' : Settings x' x'') : Settings x x'' :=
  ⟨h'.h2e.trans h.h2e, h'.retryMs.trans h.retryMs, h'.timeoutMs.trans h.timeoutMs, h'.retries.trans h.retries⟩

/-- The schedule of the retries. -/
structure Timing (x x' : Exchange) : Prop where
  retriesUsed : x'.retriesUsed = x.retriesUsed
  deadlineMs : x'.deadlineMs = x.deadlineMs
  retryAtMs : x'.retryAtMs = x.retryAtMs

theorem Timing.refl (x : Exchange) : Timing x x := ⟨rfl, rfl, rfl⟩

theorem Timing.trans {x'' : Exchange} (h : Timing x x') (h' : Timing x' x'') : Timing x x'' :=
  ⟨h'.retriesUsed.trans h.retriesUsed, h'.deadlineMs.trans h.deadlineMs, h'.retryAtMs.trans h.retryAtMs⟩

/-- What `fail` leaves of `x`. -/
structure Fallen (x : Exchange) (log : Trace) (x' : Exchange) : Prop where
  state : x'.state = .failed
  cleared : Cleared x'
  settings : Settings x x'
  timing : Timing x x'
  destroyed : x.session = false ∨ .call .destroy () ∈ log

/-- The exchange is under way, and the clock neither ran backwards nor reached the deadline. -/
structure Timely (x : Exchange) (now : UInt64) : Prop where
  live : Waiting x ∨ x.state = .accepted
  last : x.lastMs ≤ now
  deadline : Waiting x → now < x.deadlineMs

/-! ## Calls -/

def Op.time : Op → Option UInt64
  | .start now _ => some now
  | .receive _ _ _ now _ => some now
  | .poll now _ => some now
  | .cancel => none
  | .exportKeys _ _ => none

/-- Does the call look at the clock of the exchange? -/
def Op.clocked : Op → Bool
  | .receive _ _ _ _ _ => true
  | .poll _ _ => true
  | _ => false

def Op.receives : Op → Bool
  | .receive _ _ _ _ _ => true
  | _ => false

def Op.out : Op → Bool
  | .start _ out => out
  | .receive _ _ _ _ out => out
  | .poll _ out => out
  | .cancel => false
  | .exportKeys _ _ => false

/-- A Commit as this exchange expects it. -/
structure IsCommit (h2e : Bool) (body : List UInt8) : Prop where
  algorithm : le16 body 0 = 3
  transaction : le16 body 2 = 1
  status : le16 body 4 = if h2e then 126 else 0
  length : body.length = 104

structure IsConfirm (body : List UInt8) : Prop where
  algorithm : le16 body 0 = 3
  transaction : le16 body 2 = 2
  status : le16 body 4 = 0
  length : body.length = 40

/-- A Commit as it is sent: algorithm 3, transaction 1, status 126 or 0, and the 98 bytes of the
session. -/
structure SendsCommit (h2e : Bool) (r : Output) (out : AuthBody) : Prop where
  length : out.length = 104
  algorithm : out.bytes 0 = 3 ∧ out.bytes 1 = 0
  transaction : out.bytes 2 = 1 ∧ out.bytes 3 = 0
  status : out.bytes 4 = (if h2e then 126 else 0) ∧ out.bytes 5 = 0
  payload : ∀ i : Fin 98, out.bytes (Fin.natAdd 6 i) = r.bytes i

/-- A Confirm as it is sent: algorithm 3, transaction 2, status 0, and the 34 bytes of the session. -/
structure SendsConfirm (r : Output) (out : AuthBody) : Prop where
  length : out.length = 40
  algorithm : out.bytes 0 = 3 ∧ out.bytes 1 = 0
  transaction : out.bytes 2 = 2 ∧ out.bytes 3 = 0
  status : out.bytes 4 = 0 ∧ out.bytes 5 = 0
  payload : ∀ i : Fin 98, (i : ℕ) < 34 → out.bytes (Fin.natAdd 6 i) = r.bytes i

/-- Behind its header a body is what the session left there. -/
theorem fillBody_payload (h2e confirm : Bool) (r : Output) (i : Fin 98) :
    (fillBody h2e confirm r).bytes (Fin.natAdd 6 i) = r.bytes i := by
  have hbehind : 6 ≤ (Fin.natAdd 6 i).val := by simp
  simp only [fillBody]
  rw [dif_pos hbehind]
  congr 1
  apply Fin.ext
  simp

theorem sendsCommit {h2e : Bool} {r : Output} (hcount : r.count = 98) :
    SendsCommit h2e r (fillBody h2e false r) where
  length := congrArg (· + 6) hcount
  algorithm := ⟨rfl, rfl⟩
  transaction := ⟨rfl, rfl⟩
  status := by
    cases h2e with
    | true => exact ⟨rfl, rfl⟩
    | false => exact ⟨rfl, rfl⟩
  payload := fillBody_payload h2e false r

theorem sendsConfirm {h2e : Bool} {r : Output} (hcount : r.count = 34) :
    SendsConfirm r (fillBody h2e true r) where
  length := congrArg (· + 6) hcount
  algorithm := ⟨rfl, rfl⟩
  transaction := ⟨rfl, rfl⟩
  status := ⟨rfl, rfl⟩
  payload i _ := fillBody_payload h2e true r i

/-- The exchange after its Commit was sent. -/
def Exchange.started (x : Exchange) (now : UInt64) (r : Output) : Exchange :=
  nextRetry now { x with
    lastMs := now
    deadlineMs := now + x.timeoutMs.toUInt64
    commit := fillBody x.h2e false r
    state := .waitCommit }

/-- The exchange after the Commit of the peer was answered. -/
def Exchange.committed (x : Exchange) (now : UInt64) (r : Output) : Exchange :=
  nextRetry now { x with
    lastMs := now
    confirm := fillBody x.h2e true r
    state := .waitConfirm
    retriesUsed := 0 }

/-- The exchange after a retry of its Commit. -/
def Exchange.resentCommit (x : Exchange) (now : UInt64) : Exchange :=
  nextRetry now { x with lastMs := now, retriesUsed := x.retriesUsed + 1 }

/-- The exchange after a retry of its Confirm. -/
def Exchange.resentConfirm (x : Exchange) (now : UInt64) (r : Output) : Exchange :=
  nextRetry now { x with
    lastMs := now
    retriesUsed := x.retriesUsed + 1
    confirm := fillBody x.h2e true r }

inductive Went (x : Exchange) : Op → Trace → Answer → Exchange → Prop
  | failed {op : Op} {log : Trace} {x' : Exchange} : op.time.isSome → x'.state = .failed → Cleared x' →
      Settings x x' → (op.receives → Timing x x') → x.session = false ∨ .call .destroy () ∈ log →
      Went x op log (.exchanged .error (blank op.out)) x'
  | gone {op : Op} : Over x → op.time.isSome → Went x op [] (.exchanged .error (blank op.out)) x
  | repeated {now : UInt64} : x.state ≠ .ready → Went x (.start now true) [] (.exchanged .error (some {})) x
  | started {now : UInt64} {r : Output} : x.state = .ready →
      now.toNat + x.timeoutMs.toNat < 2 ^ 64 → r.error = false → r.count = 98 →
      Went x (.start now true) [.call .commit r] (.exchanged .send (some (fillBody x.h2e false r)))
        (x.started now r)
  | ignored {op : Op} {now : UInt64} : op.clocked → op.time = some now → op.out → Timely x now →
      Went x op [] (.exchanged .idle (some {})) { x with lastMs := now }
  | committed {body : List UInt8} {now : UInt64} {r : Output} : x.state = .waitCommit → Timely x now →
      IsCommit x.h2e body → r.error = false → r.count = 34 →
      Went x (.receive (some x.peer) (some x.own) (some body) now true)
        [.call (.receiveCommit (body.drop 6)) false, .call .confirm r]
        (.exchanged .send (some (fillBody x.h2e true r))) (x.committed now r)
  | resentCommit {now : UInt64} : x.state = .waitCommit → Timely x now → x.retryAtMs ≤ now →
      x.retriesUsed ≠ x.retries →
      Went x (.poll now true) [] (.exchanged .send (some x.commit)) (x.resentCommit now)
  | resentConfirm {now : UInt64} {r : Output} : x.state = .waitConfirm → Timely x now →
      x.retryAtMs ≤ now → x.retriesUsed ≠ x.retries → r.error = false → r.count = 34 →
      Went x (.poll now true) [.call .confirm r] (.exchanged .send (some (fillBody x.h2e true r)))
        (x.resentConfirm now r)
  | accepted {body : List UInt8} {now : UInt64} : x.state = .waitConfirm → Timely x now → IsConfirm body →
      Went x (.receive (some x.peer) (some x.own) (some body) now true)
        [.call (.receiveConfirm (body.drop 6)) false] (.exchanged .accepted (some {}))
        { x with lastMs := now, state := .accepted, commit := {}, confirm := {} }
  | cancelled {log : Trace} {x' : Exchange} : x'.state = .cancelled → Cleared x' → Settings x x' →
      x.session = false ∨ .call .destroy () ∈ log → Went x .cancel log .cancelled x'
  | exported {error : Bool} {keys : Keys} : x.state = .accepted →
      Went x (.exportKeys true true) [.call .exportKeys (error, keys)] (.exported error keys) x
  | withheld {pmk pmkid : Bool} : Went x (.exportKeys pmk pmkid) [] (.exported true {}) x

/-! ## Parts -/

theorem wp_clearMaterial {Q : Trace → Unit → Exchange → Prop}
    (h : ∀ log, x.session = false ∨ .call .destroy () ∈ log → Q log () { x with
      session := false
      commit := {}
      confirm := {}
      own := fun _ => 0
      peer := fun _ => 0 }) : clearMaterial.wp Q x := by
  cases hsession : x.session with
  | true =>
      rw [clearMaterial, wp_get_bind, hsession, if_pos rfl, wp_ask_bind]
      intro r
      rw [wp_modify]
      exact h _ (Or.inr List.mem_cons_self)
  | false =>
      rw [clearMaterial, wp_get_bind, hsession, if_neg nofun, wp_modify]
      exact h _ (Or.inl hsession)

variable {Q : Trace → ExchangeResult → Exchange → Prop}

theorem wp_fail {why : ExchangeError} (h : ∀ log x', Fallen x log x' → Q log .error x') : (fail why).wp Q x := by
  rw [fail, wp_bind]
  refine wp_clearMaterial fun log hlog => ?_
  rw [wp_modify_bind, wp_pure, List.append_nil]
  exact h log _ ⟨rfl, ⟨rfl, rfl, rfl, rfl, rfl⟩, ⟨rfl, rfl, rfl, rfl⟩, ⟨rfl, rfl, rfl⟩, hlog⟩

theorem wp_leave_pure {Q : Trace → Answer → Exchange → Prop} {out : Bool} {r : ExchangeResult} :
    (leave out (pure r)).wp Q x ↔ Q [] (.exchanged r (blank out)) x := by
  rw [leave, wp_bind, wp_pure, wp_pure, List.append_nil]

theorem wp_leave_fail {Q : Trace → Answer → Exchange → Prop} {out : Bool} {why : ExchangeError}
    (h : ∀ log x', Fallen x log x' → Q log (.exchanged .error (blank out)) x') :
    (leave out (fail why)).wp Q x := by
  rw [leave, wp_bind]
  refine wp_fail fun log x' hfallen => ?_
  rw [wp_pure, List.append_nil]
  exact h log x' hfallen

theorem Fallen.after {log : Trace} (h : Fallen x log x') (before : Trace) :
    Fallen x (before ++ log) x' :=
  ⟨h.state, h.cleared, h.settings, h.timing, h.destroyed.imp_right (List.mem_append_right before)⟩

/-- A failure in a state `y` that the call had reached. -/
theorem Fallen.went {y : Exchange} {op : Op} {log : Trace} (h : Fallen y log x') (htime : op.time.isSome)
    (hsettings : Settings x y) (htiming : op.receives → Timing x y) (hsession : y.session = x.session) :
    Went x op log (.exchanged .error (blank op.out)) x' :=
  .failed htime h.state h.cleared (hsettings.trans h.settings) (fun hop => (htiming hop).trans h.timing)
    (hsession ▸ h.destroyed)

theorem went_fail {y : Exchange} {op : Op} (before : Trace) {why : ExchangeError} {out : Bool}
    (htime : op.time.isSome) (hout : op.out = out) (hsettings : Settings x y) (htiming : op.receives → Timing x y)
    (hsession : y.session = x.session) :
    (leave out (fail why)).wp (fun log a x' => Went x op (before ++ log) a x') y := by
  refine wp_leave_fail fun log x' hfallen => ?_
  subst hout
  exact (hfallen.after before).went htime hsettings htiming hsession

theorem wp_makeBody_commit (hfail : ∀ log x', Fallen x log x' → Q log .error x')
    (hok : ∀ r : Output, r.error = false → r.count = 98 →
      Q [.call .commit r] .idle { x with commit := fillBody x.h2e false r }) :
    (makeBody false).wp Q x := by
  rw [makeBody, wp_bind, output, if_neg nofun, wp_ask]
  intro r
  rw [wp_ite]
  refine ⟨fun _ => ?_, fun hgood => ?_⟩
  · refine wp_fail fun log x' hfallen => ?_
    exact hfail _ x' (hfallen.after [_])
  · rcases not_or.1 hgood with ⟨herror, hcount⟩
    rw [wp_modify_bind, wp_pure]
    exact hok r (by simpa using herror) (by simpa using hcount)

theorem wp_makeBody_confirm (hfail : ∀ log x', Fallen x log x' → Q log .error x')
    (hok : ∀ r : Output, r.error = false → r.count = 34 →
      Q [.call .confirm r] .idle { x with confirm := fillBody x.h2e true r }) :
    (makeBody true).wp Q x := by
  rw [makeBody, wp_bind, output, if_pos rfl, wp_ask]
  intro r
  rw [wp_ite]
  refine ⟨fun _ => ?_, fun hgood => ?_⟩
  · refine wp_fail fun log x' hfallen => ?_
    exact hfail _ x' (hfallen.after [_])
  · rcases not_or.1 hgood with ⟨herror, hcount⟩
    rw [wp_modify_bind, wp_pure]
    exact hok r (by simpa using herror) (by simpa using hcount)

theorem wp_checkTime {now : UInt64} (hover : Over x → Q [] .error x)
    (hfail : ∀ log x', Fallen x log x' → Q log .error x') (hok : Timely x now → Q [] .idle { x with lastMs := now }) :
    (checkTime now).wp Q x := by
  rw [checkTime, wp_get_bind, wp_ite]
  refine ⟨fun hdead => (wp_pure _).2 (hover hdead), fun halive => ?_⟩
  rw [wp_ite]
  refine ⟨fun _ => wp_fail hfail, fun hready => ?_⟩
  have hlive : Waiting x ∨ x.state = .accepted := by
    cases hstate : x.state with
    | ready => exact absurd hstate hready
    | waitCommit => exact Or.inl (Or.inl hstate)
    | waitConfirm => exact Or.inl (Or.inr hstate)
    | accepted => exact Or.inr rfl
    | failed => exact absurd (Or.inl hstate) halive
    | cancelled => exact absurd (Or.inr hstate) halive
  rw [wp_ite]
  refine ⟨fun _ => wp_fail hfail, fun hclock => ?_⟩
  rw [wp_modify_bind, wp_ite]
  refine ⟨fun _ => ?_, fun hintime => ?_⟩
  · refine wp_fail fun log x' h => hfail log x' ⟨h.state, h.cleared, ?_, ?_, h.destroyed⟩
    · exact ⟨h.settings.h2e, h.settings.retryMs, h.settings.timeoutMs, h.settings.retries⟩
    · exact ⟨h.timing.retriesUsed, h.timing.deadlineMs, h.timing.retryAtMs⟩
  · rw [wp_pure]
    refine hok ⟨hlive, UInt64.not_lt.1 hclock, fun hwaiting => ?_⟩
    by_contra hlate
    refine hintime ⟨fun haccepted => ?_, UInt64.not_lt.1 hlate⟩
    rcases hwaiting with h | h
    · exact ExchangeState.noConfusion (h.symm.trans haccepted)
    · exact ExchangeState.noConfusion (h.symm.trans haccepted)

/-! ## Calls -/

theorem went_start (x : Exchange) (now : UInt64) (out : Bool) :
    (start now out).wp (Went x (.start now out)) x := by
  rw [start, wp_get_bind, wp_ite]
  refine ⟨fun _ => went_fail [] rfl rfl (Settings.refl x) (fun _ => Timing.refl x) rfl, fun hout => ?_⟩
  have hout : out = true := by simpa using hout
  subst hout
  rw [wp_ite]
  refine ⟨fun hstate => wp_leave_pure.2 (.repeated hstate), fun hready => ?_⟩
  rw [wp_ite]
  refine ⟨fun _ => went_fail [] rfl rfl (Settings.refl x) (fun _ => Timing.refl x) rfl, fun hroom => ?_⟩
  have hroom : now.toNat + x.timeoutMs.toNat < 2 ^ 64 := by
    have hle := UInt64.le_iff_toNat_le.1 (UInt64.not_lt.1 hroom)
    have htimeout := x.timeoutMs.toNat_lt
    have hsub : ((0xffffffffffffffff : UInt64) - x.timeoutMs.toUInt64).toNat = 2 ^ 64 - 1 - x.timeoutMs.toNat := by
      rw [UInt64.toNat_sub_of_le]
      · rfl
      · rw [UInt64.le_iff_toNat_le]
        simp
        omega
    omega
  rw [wp_modify_bind, wp_bind]
  refine wp_makeBody_commit (fun log x' hfallen => ?_) fun r herror hcount => ?_
  · rw [if_pos nofun, wp_leave_pure, List.append_nil]
    exact hfallen.went rfl ⟨rfl, rfl, rfl, rfl⟩ nofun rfl
  · rw [if_neg (by simp), wp_modify_bind, wp_get_bind, wp_pure]
    exact .started (not_ne_iff.1 hready) hroom herror hcount

section Frames

variable {x : Exchange} {body : List UInt8} {now : UInt64}

theorem settings_clocked : Settings x { x with lastMs := now } := ⟨rfl, rfl, rfl, rfl⟩

theorem timing_clocked : Timing x { x with lastMs := now } := ⟨rfl, rfl, rfl⟩

theorem went_receiveCommit (htimely : Timely x now) (hstate : Waiting x) (halgorithm : le16 body 0 = 3)
    (htransaction : le16 body 2 = 1) :
    (receiveCommit body now).wp (Went x (.receive (some x.peer) (some x.own) (some body) now true))
      { x with lastMs := now } := by
  rw [receiveCommit, wp_get_bind, wp_ite]
  refine ⟨fun _ => went_fail [] rfl rfl settings_clocked (fun _ => timing_clocked) rfl, fun hgood => ?_⟩
  rcases not_or.1 hgood with ⟨hstatus, hlength⟩
  rw [wp_ite]
  refine ⟨fun _ => wp_leave_pure.2 (.ignored rfl rfl rfl htimely), fun hfirst => ?_⟩
  have hcommit : x.state = .waitCommit := hstate.resolve_right hfirst
  rw [wp_ask_bind]
  intro error
  cases error with
  | true => exact went_fail [_] rfl rfl settings_clocked (fun _ => timing_clocked) rfl
  | false =>
      rw [if_neg nofun, wp_bind]
      refine wp_makeBody_confirm (fun log x' hfallen => ?_) fun r herror hcount => ?_
      · rw [if_pos nofun, wp_leave_pure, List.append_nil]
        exact (hfallen.after [_]).went rfl settings_clocked (fun _ => timing_clocked) rfl
      · rw [if_neg (by simp), wp_modify_bind, wp_get_bind, wp_pure]
        exact .committed hcommit htimely ⟨halgorithm, htransaction, not_ne_iff.1 hstatus, not_ne_iff.1 hlength⟩
          herror hcount

theorem went_receiveConfirm (htimely : Timely x now) (halgorithm : le16 body 0 = 3)
    (htransaction : le16 body 2 = 2) :
    (receiveConfirm body).wp (Went x (.receive (some x.peer) (some x.own) (some body) now true))
      { x with lastMs := now } := by
  rw [receiveConfirm, wp_get_bind, wp_ite]
  refine ⟨fun _ => went_fail [] rfl rfl settings_clocked (fun _ => timing_clocked) rfl, fun hgood => ?_⟩
  rcases not_or.1 hgood with ⟨hstatus, hlength⟩
  rw [wp_ite]
  refine ⟨fun _ => went_fail [] rfl rfl settings_clocked (fun _ => timing_clocked) rfl, fun hstate => ?_⟩
  rw [wp_ask_bind]
  intro error
  cases error with
  | true => exact went_fail [_] rfl rfl settings_clocked (fun _ => timing_clocked) rfl
  | false =>
      rw [if_neg nofun, wp_modify_bind, wp_pure]
      exact .accepted (not_ne_iff.1 hstate) htimely
        ⟨halgorithm, htransaction, not_ne_iff.1 hstatus, not_ne_iff.1 hlength⟩

theorem went_receiveFrame (x : Exchange) (source destination : Address) (body : List UInt8) (now : UInt64) :
    (receiveFrame source destination body now).wp
      (Went x (.receive (some source) (some destination) (some body) now true)) x := by
  rw [receiveFrame, wp_bind]
  refine wp_checkTime (fun hover => ?_) (fun log x' hfallen => ?_) fun htimely => ?_
  · rw [if_pos nofun, wp_leave_pure]
    exact .gone hover rfl
  · rw [if_pos nofun, wp_leave_pure, List.append_nil]
    exact hfallen.went rfl (Settings.refl x) (fun _ => Timing.refl x) rfl
  · rw [if_neg (by simp), wp_get_bind, wp_ite]
    refine ⟨fun _ => wp_leave_pure.2 (.ignored rfl rfl rfl htimely), fun hnot => ?_⟩
    rw [wp_ite]
    refine ⟨fun _ => wp_leave_pure.2 (.ignored rfl rfl rfl htimely), fun hown => ?_⟩
    rcases not_or.1 hown with ⟨hsource, hdestination⟩
    have hsource : source = x.peer := not_ne_iff.1 hsource
    have hdestination : destination = x.own := not_ne_iff.1 hdestination
    subst hsource hdestination
    have hwaiting : Waiting x := htimely.live.resolve_right hnot
    rw [wp_ite]
    refine ⟨fun _ => went_fail [] rfl rfl settings_clocked (fun _ => timing_clocked) rfl, fun hgood => ?_⟩
    have halgorithm : le16 body 0 = 3 := by
      by_contra h
      exact hgood (Or.inr (Or.inr h))
    rw [wp_ite]
    refine ⟨fun htransaction => went_receiveCommit htimely hwaiting halgorithm htransaction, fun _ => ?_⟩
    rw [wp_ite]
    refine ⟨fun _ => went_fail [] rfl rfl settings_clocked (fun _ => timing_clocked) rfl, fun htransaction => ?_⟩
    exact went_receiveConfirm htimely halgorithm (not_ne_iff.1 htransaction)

theorem went_receive (x : Exchange) (source destination : Option Address) (body : Option (List UInt8))
    (now : UInt64) (out : Bool) :
    (receive source destination body now out).wp (Went x (.receive source destination body now out)) x := by
  have hargument : (leave out (fail .argument)).wp (Went x (.receive source destination body now out)) x :=
    went_fail [] rfl rfl (Settings.refl x) (fun _ => Timing.refl x) rfl
  cases source with
  | none => exact hargument
  | some source =>
      cases destination with
      | none => exact hargument
      | some destination =>
          cases body with
          | none => exact hargument
          | some body =>
              cases out with
              | false => exact hargument
              | true => exact went_receiveFrame x source destination body now

theorem went_pollRetry (htimely : Timely x now) :
    (pollRetry now).wp (Went x (.poll now true)) { x with lastMs := now } := by
  rw [pollRetry, wp_get_bind, wp_ite]
  refine ⟨fun _ => wp_leave_pure.2 (.ignored rfl rfl rfl htimely), fun hdue => ?_⟩
  rcases not_or.1 hdue with ⟨hnot, hdue⟩
  have hwaiting : Waiting x := htimely.live.resolve_right hnot
  rw [wp_ite]
  refine ⟨fun _ => went_fail [] rfl rfl settings_clocked (fun _ => timing_clocked) rfl, fun hleft => ?_⟩
  rw [wp_modify_bind, wp_bind, renewBody, wp_get_bind, wp_ite]
  refine ⟨fun hconfirm => ?_, fun hcommit => ?_⟩
  · refine wp_makeBody_confirm (fun log x' hfallen => ?_) fun r herror hcount => ?_
    · rw [if_pos nofun, wp_leave_pure, List.append_nil]
      exact hfallen.went rfl ⟨rfl, rfl, rfl, rfl⟩ nofun rfl
    · rw [if_neg (by simp), wp_modify_bind, wp_get_bind, wp_pure]
      have hstate : x.state = .waitConfirm := hconfirm
      show Went x _ _ (.exchanged .send (some (if x.state = .waitCommit then x.commit else fillBody x.h2e true r)))
        (x.resentConfirm now r)
      rw [if_neg (by rw [hstate]; exact nofun)]
      exact .resentConfirm hstate htimely (UInt64.not_lt.1 hdue) hleft herror hcount
  · rw [wp_pure, if_neg (by simp), wp_modify_bind, wp_get_bind, wp_pure]
    have hstate : x.state = .waitCommit := hwaiting.resolve_right hcommit
    show Went x _ _ (.exchanged .send (some (if x.state = .waitCommit then x.commit else x.confirm)))
      (x.resentCommit now)
    rw [if_pos hstate]
    exact .resentCommit hstate htimely (UInt64.not_lt.1 hdue) hleft

end Frames

theorem went_poll (x : Exchange) (now : UInt64) (out : Bool) : (poll now out).wp (Went x (.poll now out)) x := by
  rw [poll, wp_ite]
  refine ⟨fun _ => went_fail [] rfl rfl (Settings.refl x) (fun _ => Timing.refl x) rfl, fun hout => ?_⟩
  have hout : out = true := by simpa using hout
  subst hout
  rw [wp_bind]
  refine wp_checkTime (fun hover => ?_) (fun log x' hfallen => ?_) fun htimely => ?_
  · rw [if_pos nofun, wp_leave_pure]
    exact .gone hover rfl
  · rw [if_pos nofun, wp_leave_pure, List.append_nil]
    exact hfallen.went rfl (Settings.refl x) (fun _ => Timing.refl x) rfl
  · rw [if_neg (by simp)]
    exact went_pollRetry htimely

theorem went_cancel (x : Exchange) : cancel.wp (Went x .cancel) x := by
  rw [cancel, wp_bind]
  refine wp_clearMaterial fun log hlog => ?_
  rw [wp_modify_bind, wp_pure, List.append_nil]
  exact .cancelled rfl ⟨rfl, rfl, rfl, rfl, rfl⟩ ⟨rfl, rfl, rfl, rfl⟩ hlog

theorem went_exportKeys (x : Exchange) (pmk pmkid : Bool) :
    (exportKeys pmk pmkid).wp (Went x (.exportKeys pmk pmkid)) x := by
  rw [exportKeys, wp_get_bind, wp_ite]
  refine ⟨fun _ => (wp_pure _).2 .withheld, fun hgiven => ?_⟩
  rcases not_or.1 hgiven with ⟨hstate, hbuffers⟩
  have hpmk : pmk = true := by
    by_contra h
    exact hbuffers (Or.inl (by simpa using h))
  have hpmkid : pmkid = true := by
    by_contra h
    exact hbuffers (Or.inr (by simpa using h))
  subst hpmk hpmkid
  rw [wp_ask_bind]
  rintro ⟨error, keys⟩
  exact (wp_pure _).2 (.exported (not_ne_iff.1 hstate))

theorem exec_went (x : Exchange) (op : Op) : (exec op).wp (Went x op) x := by
  cases op with
  | start now out => exact went_start x now out
  | receive source destination body now out => exact went_receive x source destination body now out
  | poll now out => exact went_poll x now out
  | cancel => exact went_cancel x
  | exportKeys pmk pmkid => exact went_exportKeys x pmk pmkid

end Sae
end Rtl8852be
