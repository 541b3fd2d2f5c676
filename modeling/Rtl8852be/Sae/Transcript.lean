import Rtl8852be.Sae.Steps

/-!
# Transcript — what must have happened before an exchange accepts

An exchange is accepted only at the end of the whole protocol: its Commit was sent, one Commit of the
peer was taken and answered, and a Confirm of the peer was checked.  An exchange that is over stays so,
without its session and without what it had stored.
-/

namespace Rtl8852be
namespace Sae

open Interaction

/-! ## Milestones -/

def Started (h2e : Bool) (y : Record) : Prop :=
  ∃ now r out, y.op = .start now true ∧ y.log = [.call .commit r] ∧ r.error = false ∧
    y.result = .exchanged .send (some out) ∧ SendsCommit h2e r out

/-- A call that took the Commit of the peer and sent the Confirm. -/
def Committed (own peer : Address) (h2e : Bool) (y : Record) : Prop :=
  ∃ body now r out, y.op = .receive (some peer) (some own) (some body) now true ∧
    IsCommit h2e body ∧ y.log = [.call (.receiveCommit (body.drop 6)) false, .call .confirm r] ∧
    r.error = false ∧ y.result = .exchanged .send (some out) ∧ SendsConfirm r out

/-- A call that took the Confirm of the peer. -/
def Confirmed (own peer : Address) (y : Record) : Prop :=
  ∃ body now, y.op = .receive (some peer) (some own) (some body) now true ∧ IsConfirm body ∧
    y.log = [.call (.receiveConfirm (body.drop 6)) false] ∧ y.result = .exchanged .accepted (some {})

def isReceiveCommit : TraceEvent → Bool
  | .call (.receiveCommit _) _ => true
  | _ => false

/-- How often the session was given a Commit. -/
def commitsTaken (h : List Record) : ℕ := (eventsOf h).countP isReceiveCommit

theorem commitsTaken_cons (y : Record) (h : List Record) :
    commitsTaken (y :: h) = commitsTaken h + y.log.countP isReceiveCommit :=
  List.countP_append ..

/-- The milestones passed, newest first. -/
abbrev Passed (ms : List (Record → Prop)) (h : List Record) : Prop := Trail (fun _ => True) ms h

/-- What an exchange keeps until it is over. -/
structure Live (own peer : Address) (h2e : Bool) (x : Exchange) : Prop where
  session : x.session = true
  own : x.own = own
  peer : x.peer = peer
  h2e : x.h2e = h2e

def Destroyed (h : List Record) : Prop := .call .destroy () ∈ eventsOf h

/-- What is known of the past in each state. -/
def Progress (own peer : Address) (h2e : Bool) (h : List Record) (x : Exchange) : Prop :=
  match x.state with
  | .ready => Live own peer h2e x ∧ commitsTaken h = 0
  | .waitCommit => Live own peer h2e x ∧ commitsTaken h = 0 ∧ Passed [Started h2e] h
  | .waitConfirm => Live own peer h2e x ∧ commitsTaken h = 1 ∧
      Passed [Committed own peer h2e, Started h2e] h
  | .accepted => Live own peer h2e x ∧ commitsTaken h = 1 ∧
      Passed [Confirmed own peer, Committed own peer h2e, Started h2e] h
  | .failed => Cleared x ∧ Destroyed h
  | .cancelled => Cleared x ∧ Destroyed h

section Progress

variable {own peer : Address} {h2e : Bool} {h : List Record} {x x' : Exchange}

theorem Progress.over (hp : Progress own peer h2e h x) (hover : Over x) : Cleared x ∧ Destroyed h := by
  rcases hover with hstate | hstate
  · simpa only [Progress, hstate] using hp
  · simpa only [Progress, hstate] using hp

theorem Progress.destroyed (hp : Progress own peer h2e h x) (hsession : x.session = false) : Destroyed h := by
  have hlive : ¬ Live own peer h2e x := fun hlive => Bool.noConfusion (hsession.symm.trans hlive.session)
  unfold Progress at hp
  cases hstate : x.state with
  | ready =>
      rw [hstate] at hp
      exact absurd hp.1 hlive
  | waitCommit =>
      rw [hstate] at hp
      exact absurd hp.1 hlive
  | waitConfirm =>
      rw [hstate] at hp
      exact absurd hp.1 hlive
  | accepted =>
      rw [hstate] at hp
      exact absurd hp.1 hlive
  | failed =>
      rw [hstate] at hp
      exact hp.2
  | cancelled =>
      rw [hstate] at hp
      exact hp.2

theorem Destroyed.cons (hd : Destroyed h) (y : Record) : Destroyed (y :: h) := List.mem_append_left _ hd

/-- Clearing the material destroys the session if there is one. -/
theorem Progress.clear (hp : Progress own peer h2e h x) {y : Record}
    (hlog : x.session = false ∨ .call .destroy () ∈ y.log) : Destroyed (y :: h) := by
  rcases hlog with hsession | hin
  · exact (hp.destroyed hsession).cons y
  · exact List.mem_append_right _ hin

/-- A call without session calls that leaves the state as it is. -/
theorem Progress.quiet (hp : Progress own peer h2e h x) {y : Record} (hlog : y.log.countP isReceiveCommit = 0)
    (hstate : x'.state = x.state) (hcleared : Cleared x → Cleared x')
    (hlive : Live own peer h2e x → Live own peer h2e x') : Progress own peer h2e (y :: h) x' := by
  have hcount : commitsTaken (y :: h) = commitsTaken h := by rw [commitsTaken_cons, hlog, Nat.add_zero]
  unfold Progress at hp ⊢
  rw [hstate, hcount]
  cases hx : x.state with
  | ready =>
      rw [hx] at hp
      exact ⟨hlive hp.1, hp.2⟩
  | waitCommit =>
      rw [hx] at hp
      exact ⟨hlive hp.1, hp.2.1, Trail.cons trivial hp.2.2⟩
  | waitConfirm =>
      rw [hx] at hp
      exact ⟨hlive hp.1, hp.2.1, Trail.cons trivial hp.2.2⟩
  | accepted =>
      rw [hx] at hp
      exact ⟨hlive hp.1, hp.2.1, Trail.cons trivial hp.2.2⟩
  | failed =>
      rw [hx] at hp
      exact ⟨hcleared hp.1, hp.2.cons y⟩
  | cancelled =>
      rw [hx] at hp
      exact ⟨hcleared hp.1, hp.2.cons y⟩

end Progress

theorem Went.progress {own peer : Address} {h2e : Bool} {h : List Record} {x x' : Exchange} {op : Op}
    {log : Trace} {answer : Answer} (hwent : Went x op log answer x') (hp : Progress own peer h2e h x) :
    Progress own peer h2e (⟨x, op, log, answer, x'⟩ :: h) x' := by
  cases hwent with
  | failed _ hstate hcleared _ _ hlog =>
      simp only [Progress, hstate]
      exact ⟨hcleared, hp.clear hlog⟩
  | gone _ _ => exact hp.quiet rfl rfl id id
  | repeated _ => exact hp.quiet rfl rfl id id
  | withheld => exact hp.quiet rfl rfl id id
  | exported _ => exact hp.quiet rfl rfl id id
  | ignored _ _ _ _ =>
      exact hp.quiet rfl rfl (fun hc => ⟨hc.session, hc.commit, hc.confirm, hc.own, hc.peer⟩)
        fun hl => ⟨hl.session, hl.own, hl.peer, hl.h2e⟩
  | resentCommit _ _ _ _ =>
      refine hp.quiet rfl rfl (fun hc => ⟨hc.session, hc.commit, hc.confirm, hc.own, hc.peer⟩)
        fun hl => ⟨hl.session, hl.own, hl.peer, hl.h2e⟩
  | started hstate _ herror hlength =>
      simp only [Progress, hstate] at hp
      rcases hp with ⟨⟨hsession, rfl, rfl, rfl⟩, hcount⟩
      refine ⟨⟨hsession, rfl, rfl, rfl⟩, ?_, Trail.push ?_ trivial⟩
      swap
      · exact ⟨_, _, _, rfl, rfl, herror, rfl, sendsCommit hlength⟩
      rw [commitsTaken_cons, hcount]
      rfl
  | committed hstate _ hcommit herror hlength =>
      simp only [Progress, hstate] at hp
      rcases hp with ⟨⟨hsession, rfl, rfl, rfl⟩, hcount, htrail⟩
      refine ⟨⟨hsession, rfl, rfl, rfl⟩, ?_, Trail.push ?_ htrail⟩
      swap
      · exact ⟨_, _, _, _, rfl, hcommit, rfl, herror, rfl, sendsConfirm hlength⟩
      rw [commitsTaken_cons, hcount]
      rfl
  | resentConfirm hstate _ _ _ _ _ =>
      simp only [Progress, hstate] at hp
      rcases hp with ⟨hlive, hcount, htrail⟩
      simp only [Progress, Exchange.resentConfirm, nextRetry, hstate]
      refine ⟨⟨hlive.session, hlive.own, hlive.peer, hlive.h2e⟩, ?_, Trail.cons trivial htrail⟩
      rw [commitsTaken_cons, hcount]
      rfl
  | accepted hstate _ hconfirm =>
      simp only [Progress, hstate] at hp
      rcases hp with ⟨⟨hsession, rfl, rfl, rfl⟩, hcount, htrail⟩
      refine ⟨⟨hsession, rfl, rfl, rfl⟩, ?_, Trail.push ⟨_, _, rfl, hconfirm, rfl, rfl⟩ htrail⟩
      rw [commitsTaken_cons, hcount]
      rfl
  | cancelled hstate hcleared _ hlog =>
      simp only [Progress, hstate]
      exact ⟨hcleared, hp.clear hlog⟩

/-! ## Runs -/

section Runs

variable {own peer : Address} {h2e : Bool} {retryMs timeoutMs retries : UInt32} {x₀ x : Exchange}
  {h : List Record}

theorem create_eq (hcreate : create own peer h2e retryMs timeoutMs retries = some x₀) :
    x₀ = { session := true, h2e := h2e, own := own, peer := peer, retryMs := retryMs,
           timeoutMs := timeoutMs, retries := retries } := by
  rw [create] at hcreate
  split at hcreate
  · cases hcreate
  · exact (Option.some.inj hcreate).symm

theorem run_went (hrun : Run exec x₀ h x) {y : Record} (hy : y ∈ h) :
    Went y.before y.op y.log y.result y.after :=
  wp_outcome (exec_went y.before y.op) (hrun.outcome hy)

theorem run_progress (hcreate : create own peer h2e retryMs timeoutMs retries = some x₀)
    (hrun : Run exec x₀ h x) : Progress own peer h2e h x := by
  refine hrun.invariant (P := Progress own peer h2e) ?_ ?_
  · rw [create_eq hcreate]
    exact ⟨⟨rfl, rfl, rfl, rfl⟩, rfl⟩
  · intro h x x' op log r _ hp hout
    exact (wp_outcome (exec_went x op) hout).progress hp

/-- Nothing comes out of a call any more. -/
def Refused (y : Record) : Prop :=
  (∀ out, y.result ≠ .exchanged .send out) ∧ (∀ out, y.result ≠ .exchanged .accepted out) ∧
    ∀ keys, y.result ≠ .exported false keys

variable {x x' : Exchange} {log : Trace}

theorem Went.refused {op : Op} {answer : Answer} (hwent : Went x op log answer x') (hover : Over x) :
    Refused ⟨x, op, log, answer, x'⟩ ∧ Over x' := by
  have hnot : ∀ {s : ExchangeState}, s ≠ .failed → s ≠ .cancelled → x.state ≠ s := by
    rintro s hfailed hcancelled rfl
    exact hover.elim hfailed hcancelled
  cases hwent with
  | failed _ hstate _ _ _ _ => exact ⟨⟨nofun, nofun, nofun⟩, Or.inl hstate⟩
  | gone _ _ => exact ⟨⟨nofun, nofun, nofun⟩, hover⟩
  | repeated _ => exact ⟨⟨nofun, nofun, nofun⟩, hover⟩
  | withheld => exact ⟨⟨nofun, nofun, nofun⟩, hover⟩
  | cancelled hstate _ _ _ => exact ⟨⟨nofun, nofun, nofun⟩, Or.inr hstate⟩
  | ignored _ _ _ htimely =>
      rcases htimely.live with (hstate | hstate) | hstate
      · exact absurd hstate (hnot nofun nofun)
      · exact absurd hstate (hnot nofun nofun)
      · exact absurd hstate (hnot nofun nofun)
  | started hstate _ _ _ => exact absurd hstate (hnot nofun nofun)
  | committed hstate _ _ _ _ => exact absurd hstate (hnot nofun nofun)
  | resentCommit hstate _ _ _ => exact absurd hstate (hnot nofun nofun)
  | resentConfirm hstate _ _ _ _ _ => exact absurd hstate (hnot nofun nofun)
  | accepted hstate _ _ => exact absurd hstate (hnot nofun nofun)
  | exported hstate => exact absurd hstate (hnot nofun nofun)

theorem run_over {y : Record} {earlier : List Record} (hy : Over y.after) (later : List Record) :
    ∀ {x : Exchange}, Run exec x₀ (later ++ y :: earlier) x →
      Over x ∧ ∀ z ∈ later, Refused z ∧ Over z.after := by
  induction later with
  | nil =>
      intro x hrun
      rcases hrun.tail with ⟨-, rfl, -⟩
      exact ⟨hy, fun z hz => absurd hz List.not_mem_nil⟩
  | cons z later ih =>
      intro x hrun
      rcases hrun.tail with ⟨hbefore, rfl, hout⟩
      rcases ih hbefore with ⟨hover, hall⟩
      have hz := (wp_outcome (exec_went z.before z.op) hout).refused hover
      refine ⟨hz.2, fun w hw => ?_⟩
      rcases List.mem_cons.1 hw with rfl | hw
      · exact hz
      · exact hall w hw

theorem Went.out_empty {op : Op} {r : ExchangeResult} {out : AuthBody}
    (hwent : Went x op log (.exchanged r (some out)) x') (hr : r ≠ .send) : out = {} := by
  have hblank : ∀ {b : Bool}, some out = blank b → out = {} := by
    intro b hb
    cases b with
    | true => exact Option.some.inj hb
    | false => cases hb
  generalize hanswer : Answer.exchanged r (some out) = answer at hwent
  cases hwent with
  | failed => exact hblank (Answer.exchanged.inj hanswer).2
  | gone => exact hblank (Answer.exchanged.inj hanswer).2
  | repeated => exact Option.some.inj (Answer.exchanged.inj hanswer).2
  | ignored => exact Option.some.inj (Answer.exchanged.inj hanswer).2
  | accepted => exact Option.some.inj (Answer.exchanged.inj hanswer).2
  | started => exact absurd (Answer.exchanged.inj hanswer).1 hr
  | committed => exact absurd (Answer.exchanged.inj hanswer).1 hr
  | resentCommit => exact absurd (Answer.exchanged.inj hanswer).1 hr
  | resentConfirm => exact absurd (Answer.exchanged.inj hanswer).1 hr
  | cancelled => exact Answer.noConfusion hanswer
  | exported => exact Answer.noConfusion hanswer
  | withheld => exact Answer.noConfusion hanswer

theorem Went.accepted_of_exported {op : Op} {keys : Keys} (hwent : Went x op log (.exported false keys) x') :
    x.state = .accepted := by
  cases hwent with
  | exported hstate => exact hstate

/-! ## What is sent -/

/-- The session was asked for the Commit that waits to be sent again. -/
def Drafted (h2e : Bool) (h : List Record) (x : Exchange) : Prop :=
  x.state = .waitCommit → ∃ r, .call .commit r ∈ eventsOf h ∧ SendsCommit h2e r x.commit

/-- A body that was sent: the Commit that the session gave once, or a Confirm that it gave in the same
call. -/
def SendsBody (h2e : Bool) (h : List Record) (log : Trace) (out : AuthBody) : Prop :=
  (∃ r, .call .commit r ∈ eventsOf h ++ log ∧ SendsCommit h2e r out) ∨
    ∃ r, .call .confirm r ∈ log ∧ SendsConfirm r out

theorem Went.settings {op : Op} {answer : Answer} (hwent : Went x op log answer x') : Settings x x' := by
  cases hwent with
  | failed _ _ _ hsettings _ _ => exact hsettings
  | cancelled _ _ hsettings _ => exact hsettings
  | _ => exact ⟨rfl, rfl, rfl, rfl⟩

theorem Went.drafted {op : Op} {answer : Answer} (hwent : Went x op log answer x') (hsettings : x.h2e = h2e)
    (hd : Drafted h2e h x) :
    Drafted h2e (⟨x, op, log, answer, x'⟩ :: h) x' := by
  have hkept : x'.state = x.state → x'.commit = x.commit →
      Drafted h2e (⟨x, op, log, answer, x'⟩ :: h) x' := by
    intro hstate hcommit hwaiting
    rcases hd (hstate.symm.trans hwaiting) with ⟨r, hin, hbody⟩
    exact ⟨r, List.mem_append_left _ hin, hcommit ▸ hbody⟩
  have hnot : ∀ {s : ExchangeState}, x'.state = s → s ≠ .waitCommit →
      Drafted h2e (⟨x, op, log, answer, x'⟩ :: h) x' := by
    intro s hstate hne hwaiting
    exact absurd (hstate.symm.trans hwaiting) hne
  cases hwent with
  | failed _ hstate _ _ _ _ => exact hnot hstate (by rintro ⟨⟩)
  | gone _ _ => exact hkept rfl rfl
  | repeated _ => exact hkept rfl rfl
  | withheld => exact hkept rfl rfl
  | exported _ => exact hkept rfl rfl
  | ignored _ _ _ _ => exact hkept rfl rfl
  | resentCommit _ _ _ _ => exact hkept rfl rfl
  | started _ _ _ hlength =>
      intro _
      refine ⟨_, List.mem_append_right _ List.mem_cons_self, ?_⟩
      rw [← hsettings]
      exact sendsCommit hlength
  | committed _ _ _ _ _ => exact hnot rfl (by rintro ⟨⟩)
  | resentConfirm hstate _ _ _ _ _ => exact hnot hstate (by rintro ⟨⟩)
  | accepted _ _ _ => exact hnot rfl (by rintro ⟨⟩)
  | cancelled hstate _ _ _ => exact hnot hstate (by rintro ⟨⟩)

theorem Went.sends_body {op : Op} {out : AuthBody} (hwent : Went x op log (.exchanged .send (some out)) x')
    (hsettings : x.h2e = h2e) (hd : Drafted h2e h x) : SendsBody h2e h log out := by
  rw [← hsettings] at hd ⊢
  generalize hanswer : Answer.exchanged .send (some out) = answer at hwent
  cases hwent with
  | started _ _ _ hlength =>
      cases hanswer
      exact Or.inl ⟨_, List.mem_append_right _ List.mem_cons_self, sendsCommit hlength⟩
  | committed _ _ _ _ hlength =>
      cases hanswer
      exact Or.inr ⟨_, List.mem_cons_of_mem _ List.mem_cons_self, sendsConfirm hlength⟩
  | resentCommit hstate _ _ _ =>
      cases hanswer
      rcases hd hstate with ⟨r, hin, hbody⟩
      exact Or.inl ⟨r, List.mem_append_left _ hin, hbody⟩
  | resentConfirm _ _ _ _ _ hlength =>
      cases hanswer
      exact Or.inr ⟨_, List.mem_cons_self, sendsConfirm hlength⟩
  | _ => cases hanswer

theorem run_h2e (hcreate : create own peer h2e retryMs timeoutMs retries = some x₀)
    (hrun : Run exec x₀ h x) : x.h2e = h2e := by
  refine hrun.invariant (P := fun _ x => x.h2e = h2e) ?_ ?_
  · rw [create_eq hcreate]
  · intro h x x' op log r _ hx hout
    exact ((wp_outcome (exec_went x op) hout).settings.h2e).trans hx

theorem run_drafted (hcreate : create own peer h2e retryMs timeoutMs retries = some x₀)
    (hrun : Run exec x₀ h x) : Drafted h2e h x := by
  refine hrun.invariant (P := Drafted h2e) ?_ ?_
  · rw [create_eq hcreate]
    rintro ⟨⟩
  · intro h x x' op log r hbefore hd hout
    exact (wp_outcome (exec_went x op) hout).drafted (run_h2e hcreate hbefore) hd

/-- What is promised of an exchange between these two stations, of which `h` is the past. -/
structure Transcript (own peer : Address) (h2e : Bool) (h : List Record) (x : Exchange) : Prop where
  accepted : x.state = .accepted → commitsTaken h = 1 ∧
    Passed [Confirmed own peer, Committed own peer h2e, Started h2e] h
  exported : ∀ y ∈ h, ∀ keys, y.result = .exported false keys → y.before.state = .accepted
  cleared : Over x → Cleared x ∧ Destroyed h
  ended : ∀ later y earlier, h = later ++ y :: earlier → Over y.after →
    Over x ∧ ∀ z ∈ later, Refused z ∧ Over z.after
  blank : ∀ y ∈ h, ∀ r out, y.result = .exchanged r (some out) → r ≠ .send → out = {}
  sent : ∀ later y earlier out, h = later ++ y :: earlier →
    y.result = .exchanged .send (some out) → SendsBody h2e earlier y.log out

theorem exchange_transcript (hcreate : create own peer h2e retryMs timeoutMs retries = some x₀)
    (hrun : Run exec x₀ h x) : Transcript own peer h2e h x where
  accepted := by
    intro hstate
    have hp := run_progress hcreate hrun
    simp only [Progress, hstate] at hp
    exact hp.2
  exported := by
    intro y hy keys hresult
    have hwent := run_went hrun hy
    rw [hresult] at hwent
    exact hwent.accepted_of_exported
  cleared := (run_progress hcreate hrun).over
  ended := by
    rintro later y earlier rfl hover
    exact run_over hover later hrun
  blank := by
    intro y hy r out hresult hr
    have hwent := run_went hrun hy
    rw [hresult] at hwent
    exact hwent.out_empty hr
  sent := by
    rintro later y earlier out rfl hresult
    rcases (Interaction.Run.drop hrun).tail with ⟨hbefore, -, hout⟩
    have hwent := wp_outcome (exec_went y.before y.op) hout
    rw [hresult] at hwent
    exact hwent.sends_body (run_h2e hcreate hbefore) (run_drafted hcreate hbefore)

def agreeable : (c : Call) → Unit → Reply c × Unit
  | .commit, _ => (⟨false, 98, fun _ => 0⟩, ())
  | .confirm, _ => (⟨false, 34, fun _ => 0⟩, ())
  | .receiveCommit _, _ => (false, ())
  | .receiveConfirm _, _ => (false, ())
  | .exportKeys, _ => ((false, { pmk := fun _ => 7, pmkid := fun _ => 9 }), ())
  | .destroy, _ => ((), ())

def stationAddress : Address := fun _ => 2

def accessPointAddress : Address := fun _ => 4

def newExchange : Exchange where
  session := true
  own := stationAddress
  peer := accessPointAddress
  h2e := true
  retryMs := 100
  timeoutMs := 1000
  retries := 3

theorem newExchange_created :
    create stationAddress accessPointAddress true 100 1000 3 = some newExchange := rfl

def peerCommit (now : UInt64) : Op :=
  .receive (some accessPointAddress) (some stationAddress) (some ([3, 0, 1, 0, 126, 0] ++ List.replicate 98 0)) now true

def peerConfirm (now : UInt64) : Op :=
  .receive (some accessPointAddress) (some stationAddress) (some ([3, 0, 2, 0, 0, 0] ++ List.replicate 34 1)) now true

def handshake : List Op := [.start 10 true, peerCommit 20, peerConfirm 30]

theorem exchange_transcript_handshake :
    (replay exec agreeable handshake newExchange ()).2.1.state = .accepted ∧
    Transcript stationAddress accessPointAddress true (replay exec agreeable handshake newExchange ()).1
      (replay exec agreeable handshake newExchange ()).2.1 :=
  ⟨by decide +kernel, exchange_transcript newExchange_created
    (replay_run exec agreeable handshake newExchange ())⟩

end Runs

end Sae
end Rtl8852be
