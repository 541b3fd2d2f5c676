import Rtl8852be.SaeSession.SaeSession

/-!
# Acceptance — when a session has keys

* `Moves` — what one call can do to a session;
* `Sound` — the invariant of a run: what was written and taken so far, and which counters were accepted;
* `session_acceptance` — what holds of every run.

Of the library it is assumed only that a Confirm that does not check changes nothing, that one that checks
changes no key, and that writing a Confirm does not change the length of the key.
-/

namespace Rtl8852be
namespace SaeSession

open Interaction

variable {τ π : Type}

/-! ## What one call can do -/

def Answer.ok : Answer → Bool
  | .wrote o => o.ok
  | .took ok => ok
  | .exported e => e.ok

def processes : TraceEvent τ π → Bool
  | .call (.processCommit _) _ => true
  | _ => false

def processings (log : Trace τ π) : ℕ := log.countP processes

theorem processings_append (log log' : Trace τ π) :
    processings (log ++ log') = processings log + processings log' := List.countP_append

def SaeData.keys (d : SaeData τ) : List UInt8 × ℕ × List UInt8 := (d.pmk, d.pmkLen, d.pmkid)

def Faithful : TraceEvent τ π → Prop
  | .call (.checkConfirm d _) r => (r.error = true → r.data = d) ∧ r.data.keys = d.keys
  | .call (.writeConfirm d) r => r.data.pmkLen = d.pmkLen
  | _ => True

instance [DecidableEq τ] : DecidablePred (Faithful (τ := τ) (π := π)) := fun e =>
  match e with
  | .call (.checkConfirm d _) r => inferInstanceAs (Decidable ((r.error = true → r.data = d) ∧ _ = _))
  | .call (.writeConfirm d) r => inferInstanceAs (Decidable (r.data.pmkLen = d.pmkLen))
  | .call .allocateSession _ | .call (.allocateBuffer _) _ | .call (.setGroup _ _) _ | .call (.derivePt _ _) _
  | .call (.prepareCommitPt _ _ _ _) _ | .call (.deinitPt _) _ | .call (.prepareCommit _ _ _ _) _
  | .call (.clearData _) _ | .call (.writeCommit _) _ | .call (.parseCommit _ _ _) _
  | .call (.processCommit _) _ => inferInstanceAs (Decidable True)

/-- What one call can do. -/
inductive Moves (s : Session τ) : Op → Trace τ π → Answer → Session τ → Prop
  | refuses {op : Op} {log : Trace τ π} {answer : Answer} (hnone : processings log = 0)
      (hanswer : answer.ok = false) (hop : ∀ pmk pmkid, op ≠ .exportKeys pmk pmkid) : Moves s op log answer s
  | unwritten {op : Op} {log : Trace τ π} {answer : Answer} (d : SaeData τ) (hnone : processings log = 0)
      (hanswer : answer.ok = false)
      (hop : ∃ out capacity written, op = .commit out capacity written ∨ op = .confirm out capacity written) :
      Moves s op log answer (s.failing d)
  | unprocessed {data : Option (List UInt8)} {log : Trace τ π} {answer : Answer} (d : SaeData τ)
      (honce : processings log ≤ 1) (hanswer : answer.ok = false) (hfailed : s.failed = false)
      (hsent : s.commitSent = true) (hfirst : s.peerCommit = false) :
      Moves s (.receiveCommit data) log answer (s.failing d)
  | mistaken {data : Option (List UInt8)} {log : Trace τ π} {answer : Answer} (d : SaeData τ)
      (hnone : processings log = 0) (hanswer : answer.ok = false) (haccepted : s.accepted = false) :
      Moves s (.receiveConfirm data) log answer (s.failing d)
  | mismatched {data : Option (List UInt8)} {bytes : List UInt8} {log : Trace τ π} {answer : Answer}
      (c : Computed τ) (hnone : processings log = 0) (hanswer : answer.ok = false)
      (hcall : .call (.checkConfirm s.sae bytes) c ∈ log) (herror : c.error = true) :
      Moves s (.receiveConfirm data) log answer { s with sae := c.data }
  | short {data : Option (List UInt8)} {bytes : List UInt8} {log : Trace τ π} {answer : Answer}
      (c : Computed τ) (d : SaeData τ) (hnone : processings log = 0) (hanswer : answer.ok = false)
      (hcall : .call (.checkConfirm s.sae bytes) c ∈ log) (hlen : c.data.pmkLen ≠ 32) :
      Moves s (.receiveConfirm data) log answer (s.failing d)
  | commits {out written : Bool} {capacity : ℕ} {log : Trace τ π} {answer : Answer} (d : SaeData τ)
      (hnone : processings log = 0) (hanswer : answer.ok = true) (hfailed : s.failed = false)
      (haccepted : s.accepted = false) (hfirst : s.commitSent = false) :
      Moves s (.commit out capacity written) log answer ({ s with sae := d }.sent false)
  | confirms {out written : Bool} {capacity : ℕ} {log : Trace τ π} {answer : Answer} (w : Written τ)
      (hnone : processings log = 0) (hanswer : answer.ok = true) (hfailed : s.failed = false)
      (hpeer : s.peerCommit = true) (hcall : .call (.writeConfirm (s.counting true).sae) w ∈ log) :
      Moves s (.confirm out capacity written) log answer ({ s with sae := w.data }.sent true)
  | processed {data : Option (List UInt8)} {log : Trace τ π} {answer : Answer} (d : SaeData τ)
      (honce : processings log = 1) (hanswer : answer.ok = true) (hfailed : s.failed = false)
      (hsent : s.commitSent = true) (hfirst : s.peerCommit = false) :
      Moves s (.receiveCommit data) log answer { s with sae := d, peerCommit := true }
  | accepts {bytes : List UInt8} {log : Trace τ π} {answer : Answer} (c : Computed τ)
      (hnone : processings log = 0) (hanswer : answer.ok = true) (hfailed : s.failed = false)
      (hpeer : s.peerCommit = true) (hsent : s.confirmSent = true) (hpositive : le16 bytes ≠ 0)
      (hnew : s.accepted = true → s.peerConfirm < le16 bytes ∧ le16 bytes ≠ 0xffff)
      (hcall : .call (.checkConfirm s.sae bytes) c ∈ log) (hlen : c.data.pmkLen = 32) :
      Moves s (.receiveConfirm (some bytes)) log answer ({ s with sae := c.data }.accepting (le16 bytes))
  | exports (pmk pmkid : Bool) : Moves s (.exportKeys pmk pmkid) [] (.exported (s.exported pmk pmkid)) s

/-! ## Every call -/

section Calls

variable {s : Session τ}

theorem wp_fail {Q : Trace τ π → Bool → Session τ → Prop}
    (h : ∀ d, Q [.call (.clearData s.sae) d] false (s.failing d)) : (fail : Gated τ π Bool).wp Q s := by
  unfold fail
  rw [wp_get_bind, wp_ask_bind]
  intro d
  rw [wp_modify_bind, wp_pure]
  exact h d

theorem failing_data (s : Session τ) (d d' : SaeData τ) : ({ s with sae := d' } : Session τ).failing d = s.failing d :=
  rfl

theorem output_commit_moves (s : Session τ) (out written : Bool) (capacity : ℕ) :
    (output (π := π) out capacity written false).wp
      (fun log o s' => Moves s (.commit out capacity written) log (.wrote o) s') s := by
  have hrefuses : ∀ (log : Trace τ π) (o : Output), processings log = 0 → o.ok = false →
      Moves s (.commit out capacity written) log (.wrote o) s :=
    fun log o hlog ho => .refuses hlog ho fun _ _ => nofun
  unfold output
  rw [wp_get_bind]
  by_cases hnull : s.failed || !out || !written
  · rw [if_pos hnull, wp_pure]
    exact hrefuses [] _ rfl rfl
  rw [if_neg hnull, if_neg Bool.false_ne_true]
  have hfailed : s.failed = false := by
    cases hf : s.failed with
    | false => rfl
    | true =>
        rw [hf] at hnull
        exact absurd rfl hnull
  by_cases hagain : s.accepted || s.commitSent
  · rw [if_pos hagain, wp_pure]
    exact hrefuses [] _ rfl rfl
  rw [if_neg hagain, wp_ask_bind]
  simp only [Bool.or_eq_true, not_or, Bool.not_eq_true] at hagain
  intro allocated
  cases allocated with
  | false =>
      rw [if_neg Bool.false_ne_true, wp_pure]
      exact hrefuses _ _ rfl rfl
  | true =>
      have hcounting : s.counting false = s := rfl
      rw [if_pos rfl, wp_modify_bind, wp_get_bind, hcounting]
      unfold write
      rw [if_neg Bool.false_ne_true, wp_ask_bind]
      intro w
      rw [wp_modify_bind]
      by_cases hlong : w.error || capacity < w.bytes.length
      · rw [if_pos hlong, wp_bind]
        refine wp_fail fun d => ?_
        rw [wp_pure]
        exact .unwritten d rfl rfl ⟨out, capacity, written, .inl rfl⟩
      · rw [if_neg hlong, wp_modify_bind, wp_pure]
        exact .commits w.data rfl rfl hfailed hagain.1 hagain.2

theorem counting_data (s : Session τ) (confirm : Bool) (d : SaeData τ) :
    ({ s.counting confirm with sae := d } : Session τ) = { s with sae := d } := by
  unfold Session.counting
  cases confirm && s.accepted <;> rfl

theorem output_confirm_moves (s : Session τ) (out written : Bool) (capacity : ℕ) :
    (output (π := π) out capacity written true).wp
      (fun log o s' => Moves s (.confirm out capacity written) log (.wrote o) s') s := by
  have hrefuses : ∀ (log : Trace τ π) (o : Output), processings log = 0 → o.ok = false →
      Moves s (.confirm out capacity written) log (.wrote o) s :=
    fun log o hlog ho => .refuses hlog ho fun _ _ => nofun
  unfold output
  rw [wp_get_bind]
  by_cases hnull : s.failed || !out || !written
  · rw [if_pos hnull, wp_pure]
    exact hrefuses [] _ rfl rfl
  rw [if_neg hnull, if_pos rfl]
  have hfailed : s.failed = false := by
    cases hf : s.failed with
    | false => rfl
    | true =>
        rw [hf] at hnull
        exact absurd rfl hnull
  by_cases hearly : !s.peerCommit
  · rw [if_pos hearly, wp_pure]
    exact hrefuses [] _ rfl rfl
  rw [if_neg hearly, wp_ask_bind]
  have hpeer : s.peerCommit = true := by simpa using hearly
  intro allocated
  cases allocated with
  | false =>
      rw [if_neg Bool.false_ne_true, wp_pure]
      exact hrefuses _ _ rfl rfl
  | true =>
      rw [if_pos rfl, wp_modify_bind, wp_get_bind]
      unfold write
      rw [if_pos rfl, wp_ask_bind]
      intro w
      rw [wp_modify_bind, counting_data]
      by_cases hlong : w.error || capacity < w.bytes.length
      · rw [if_pos hlong, wp_bind]
        refine wp_fail fun d => ?_
        rw [wp_pure]
        exact .unwritten d rfl rfl ⟨out, capacity, written, .inr rfl⟩
      · rw [if_neg hlong, wp_modify_bind, wp_pure]
        exact .confirms w rfl rfl hfailed hpeer (by simp)

theorem receiveCommit_moves (s : Session τ) (commitMax : ℕ) (data : Option (List UInt8)) :
    (receiveCommit (π := π) commitMax data).wp
      (fun log ok s' => Moves s (.receiveCommit data) log (.took ok) s') s := by
  have hrefuses : Moves (π := π) s (.receiveCommit data) [] (.took false) s := .refuses rfl rfl fun _ _ => nofun
  unfold receiveCommit
  rw [wp_get_bind]
  cases data with
  | none => exact (wp_pure _).2 hrefuses
  | some bytes =>
      by_cases hno : s.failed || !s.commitSent || s.peerCommit || commitMax < bytes.length
      · simp only [hno, if_true]
        exact (wp_pure _).2 hrefuses
      simp only [hno, if_false, Bool.false_eq_true]
      have hguards : s.failed = false ∧ s.commitSent = true ∧ s.peerCommit = false := by
        simp only [Bool.or_eq_true, not_or, Bool.not_eq_true, Bool.not_eq_eq_eq_not, Bool.not_true,
          Bool.not_eq_false] at hno
        exact ⟨hno.1.1.1, hno.1.1.2, hno.1.2⟩
      rcases hguards with ⟨hfailed, hsent, hfirst⟩
      have hfail : ∀ (log : Trace τ π) (d d' : SaeData τ), processings log ≤ 1 →
          Moves s (.receiveCommit (some bytes)) log (.took false) (({ s with sae := d' } : Session τ).failing d) := by
        intro log d d' hlog
        rw [failing_data]
        exact .unprocessed d hlog rfl hfailed hsent hfirst
      by_cases hform : bytes.length != 98 || le16 bytes != 19
      · rw [if_pos hform]
        exact wp_fail fun d => hfail _ d s.sae (Nat.zero_le 1)
      rw [if_neg hform, wp_ask_bind]
      intro p
      rw [wp_modify_bind]
      by_cases hparsed : p.error || p.tokenLen != 0
      · rw [if_pos hparsed]
        exact wp_fail fun d => hfail _ d _ (Nat.zero_le 1)
      rw [if_neg hparsed, wp_ask_bind]
      intro c
      rw [wp_modify_bind]
      by_cases herror : c.error = true
      · rw [if_pos herror]
        exact wp_fail fun d => hfail _ d _ (Nat.le_refl 1)
      · rw [if_neg herror, wp_modify_bind, wp_pure]
        exact .processed c.data rfl rfl hfailed hsent hfirst

theorem receiveConfirm_moves (s : Session τ) (data : Option (List UInt8)) :
    (receiveConfirm (π := π) data).wp
      (fun log ok s' => Moves s (.receiveConfirm data) log (.took ok) s') s := by
  have hrefuses : Moves (π := π) s (.receiveConfirm data) [] (.took false) s := .refuses rfl rfl fun _ _ => nofun
  unfold receiveConfirm
  rw [wp_get_bind]
  cases data with
  | none => exact (wp_pure _).2 hrefuses
  | some bytes =>
      by_cases hno : s.failed || !s.peerCommit || !s.confirmSent
      · simp only [hno, if_true]
        exact (wp_pure _).2 hrefuses
      simp only [hno, if_false, Bool.false_eq_true]
      have hguards : s.failed = false ∧ s.peerCommit = true ∧ s.confirmSent = true := by
        simp only [Bool.or_eq_true, not_or, Bool.not_eq_true, Bool.not_eq_eq_eq_not, Bool.not_true,
          Bool.not_eq_false] at hno
        exact ⟨hno.1.1, hno.1.2, hno.2⟩
      rcases hguards with ⟨hfailed, hpeer, hsent⟩
      by_cases hform : bytes.length != 34 || le16 bytes == 0
      · rw [if_pos hform]
        unfold reject
        rw [wp_get_bind]
        by_cases haccepted : s.accepted = true
        · rw [if_pos haccepted]
          exact (wp_pure _).2 hrefuses
        · rw [if_neg haccepted]
          exact wp_fail fun d => .mistaken d rfl rfl (Bool.eq_false_iff.2 haccepted)
      rw [if_neg hform]
      have hpositive : le16 bytes ≠ 0 := by
        intro hzero
        rw [hzero] at hform
        exact hform (Bool.or_true _)
      by_cases hold : s.accepted && (le16 bytes ≤ s.peerConfirm || le16 bytes == 0xffff)
      · rw [if_pos hold]
        exact (wp_pure _).2 hrefuses
      rw [if_neg hold, wp_ask_bind]
      have hnew : s.accepted = true → s.peerConfirm < le16 bytes ∧ le16 bytes ≠ 0xffff := by
        intro haccepted
        rw [haccepted, Bool.true_and] at hold
        simpa using hold
      intro c
      rw [wp_modify_bind]
      by_cases herror : c.error = true
      · rw [if_pos herror]
        unfold reject
        rw [wp_get_bind]
        by_cases haccepted : s.accepted = true
        · rw [if_pos haccepted, wp_pure]
          exact .mismatched c rfl rfl List.mem_cons_self herror
        · rw [if_neg haccepted]
          refine wp_fail fun d => ?_
          rw [failing_data]
          exact .mistaken d rfl rfl (Bool.eq_false_iff.2 haccepted)
      rw [if_neg herror]
      by_cases hlen : c.data.pmkLen ≠ 32
      · rw [if_pos hlen]
        refine wp_fail fun d => ?_
        rw [failing_data]
        exact .short c d rfl rfl List.mem_cons_self hlen
      · rw [if_neg hlen, wp_modify_bind, wp_pure]
        exact .accepts c rfl rfl hfailed hpeer hsent hpositive hnew List.mem_cons_self (not_not.1 hlen)

theorem exec_moves (s : Session τ) (commitMax : ℕ) (op : Op) :
    (exec (π := π) commitMax op).wp (fun log answer s' => Moves s op log answer s') s := by
  have hanswers : ∀ {α : Type} (m : Gated τ π α) (f : α → Answer),
      m.wp (fun log a s' => Moves s op log (f a) s') s →
        (do return f (← m) : Gated τ π Answer).wp (fun log answer s' => Moves s op log answer s') s := by
    intro α m f h
    rw [wp_bind]
    refine wp_mono h fun log a s' hmoves => ?_
    rw [wp_pure, List.append_nil]
    exact hmoves
  cases op with
  | commit out capacity written => exact hanswers _ _ (output_commit_moves s out written capacity)
  | confirm out capacity written => exact hanswers _ _ (output_confirm_moves s out written capacity)
  | receiveCommit data => exact hanswers _ _ (receiveCommit_moves s commitMax data)
  | receiveConfirm data => exact hanswers _ _ (receiveConfirm_moves s data)
  | exportKeys pmk pmkid =>
      unfold exec
      rw [wp_get_bind, wp_pure]
      exact .exports pmk pmkid

end Calls

/-! ## The invariant -/

def WritesCommit (x : Record τ π) : Prop :=
  (∃ out capacity written, x.op = .commit out capacity written) ∧ x.result.ok = true

def WritesConfirm (x : Record τ π) : Prop :=
  (∃ out capacity written, x.op = .confirm out capacity written) ∧ x.result.ok = true

def TakesCommit (x : Record τ π) : Prop := (∃ data, x.op = .receiveCommit data) ∧ x.result.ok = true

/-- The counter of a Confirm of the peer that was accepted. -/
def acceptedCounter (x : Record τ π) : Option UInt16 :=
  match x.op with
  | .receiveConfirm (some bytes) => if x.result.ok then some (le16 bytes) else none
  | _ => none

/-- The counters that were accepted, first one first. -/
def counters (h : List (Record τ π)) : List UInt16 := (h.filterMap acceptedCounter).reverse

/-- Each counter is greater than the one before it, and only the first one may be `0xffff`. -/
def Rising (cs : List UInt16) : Prop := cs.Pairwise (· < ·) ∧ ∀ c ∈ cs.tail, c ≠ 0xffff

theorem rising_snoc {cs : List UInt16} {last c : UInt16} (h : Rising cs) (hlast : cs.getLast? = some last)
    (hlt : last < c) (hc : c ≠ 0xffff) : Rising (cs ++ [c]) := by
  rcases List.getLast?_eq_some_iff.1 hlast with ⟨front, hfront⟩
  refine ⟨List.pairwise_append.2 ⟨h.1, List.pairwise_singleton _ _, fun a ha b hb => ?_⟩, fun b hb => ?_⟩
  · rw [List.mem_singleton.1 hb]
    -- The last counter is the greatest one so far.
    rw [hfront] at ha h
    rcases List.mem_append.1 ha with ha | ha
    · exact UInt16.lt_trans ((List.pairwise_append.1 h.1).2.2 a ha last List.mem_cons_self) hlt
    · rw [List.mem_singleton.1 ha]
      exact hlt
  · have hne : cs ≠ [] := by
      rw [hfront]
      exact List.append_ne_nil_of_right_ne_nil _ (List.cons_ne_nil _ _)
    rw [List.tail_append_of_ne_nil hne] at hb
    rcases List.mem_append.1 hb with hb | hb
    · exact h.2 b hb
    · rw [List.mem_singleton.1 hb]
      exact hc

/-- What was written and taken so far, and which counters were accepted. -/
structure Sound (h : List (Record τ π)) (s : Session τ) : Prop where
  committed : s.commitSent = true → ∃ y ∈ h, WritesCommit y
  uncommitted : s.commitSent = false → ∀ y ∈ h, ¬ WritesCommit y
  commits : h.Pairwise fun x y => ¬ (WritesCommit x ∧ WritesCommit y)
  unprocessed : s.peerCommit = false → s.failed = false → processings (eventsOf h) = 0
  processings : processings (eventsOf h) ≤ 1
  taken : s.peerCommit = true → ∃ y ∈ h, TakesCommit y
  confirmed : s.confirmSent = true → ∃ y ∈ h, WritesConfirm y
  failed : s.failed = true → s.accepted = false
  rising : Rising (counters h)
  last : s.accepted = true → (counters h).getLast? = some s.peerConfirm ∧ s.sae.pmkLen = 32
  none : s.accepted = false → s.failed = false → counters h = []

theorem sound_new {s₀ : Session τ} (hcommit : s₀.commitSent = false) (hpeer : s₀.peerCommit = false)
    (hconfirm : s₀.confirmSent = false) (haccepted : s₀.accepted = false) :
    Sound ([] : List (Record τ π)) s₀ where
  committed := fun h => by rw [hcommit] at h; exact absurd h nofun
  uncommitted := fun _ y hy => absurd hy List.not_mem_nil
  commits := List.Pairwise.nil
  unprocessed := fun _ _ => rfl
  processings := Nat.zero_le 1
  taken := fun h => by rw [hpeer] at h; exact absurd h nofun
  confirmed := fun h => by rw [hconfirm] at h; exact absurd h nofun
  failed := fun _ => haccepted
  rising := ⟨List.Pairwise.nil, nofun⟩
  last := fun h => by rw [haccepted] at h; exact absurd h nofun
  none := fun _ _ => rfl

section Step

variable {h : List (Record τ π)} {s s' : Session τ} {op : Op} {log : Trace τ π} {answer : Answer}

theorem counters_cons (x : Record τ π) (h : List (Record τ π)) :
    counters (x :: h) = counters h ++ (acceptedCounter x).toList := by
  unfold counters
  rw [List.filterMap_cons]
  cases acceptedCounter x with
  | none => exact (List.append_nil _).symm
  | some c => exact List.reverse_cons

theorem counters_same (hnone : acceptedCounter ⟨s, op, log, answer, s'⟩ = none) :
    counters (⟨s, op, log, answer, s'⟩ :: h) = counters h := by
  rw [counters_cons, hnone]
  exact List.append_nil _

theorem acceptedCounter_refused (hanswer : answer.ok = false) :
    acceptedCounter (⟨s, op, log, answer, s'⟩ : Record τ π) = none := by
  unfold acceptedCounter
  cases op with
  | receiveConfirm data =>
      cases data with
      | none => rfl
      | some bytes => exact if_neg (by rw [hanswer]; exact Bool.false_ne_true)
  | _ => rfl

theorem not_of_refused (hanswer : answer.ok = false) :
    ¬ WritesCommit (⟨s, op, log, answer, s'⟩ : Record τ π) := by
  rintro ⟨-, hok⟩
  rw [hanswer] at hok
  exact absurd hok nofun

theorem processings_cons (x : Record τ π) (h : List (Record τ π)) :
    processings (eventsOf (x :: h)) = processings (eventsOf h) + processings x.log :=
  processings_append _ _

theorem Sound.refused (hs : Sound h s) (hanswer : answer.ok = false)
    (hprocess : SaeSession.processings log + SaeSession.processings (eventsOf h) ≤ 1)
    (hcommit : s'.commitSent = s.commitSent) (hpeer : s'.peerCommit = s.peerCommit)
    (hconfirm : s'.confirmSent = s.confirmSent)
    (hquiet : s'.failed = false → SaeSession.processings log = 0 ∧ s.failed = false)
    (hfailed : s'.failed = true → s'.accepted = false)
    (hlast : s'.accepted = true → s.accepted = true ∧ s'.peerConfirm = s.peerConfirm ∧
      s'.sae.pmkLen = s.sae.pmkLen)
    (hnone : s'.accepted = false → s'.failed = false → s.accepted = false) :
    Sound (⟨s, op, log, answer, s'⟩ :: h) s' := by
  have hcounters : counters (⟨s, op, log, answer, s'⟩ :: h) = counters h :=
    counters_same (acceptedCounter_refused hanswer)
  refine ⟨?_, ?_, ?_, ?_, ?_, ?_, ?_, hfailed, ?_, ?_, ?_⟩
  · intro hc
    rcases hs.committed (hcommit.symm.trans hc) with ⟨y, hy, hwrites⟩
    exact ⟨y, List.mem_cons_of_mem _ hy, hwrites⟩
  · intro hc y hy
    rcases List.mem_cons.1 hy with rfl | hy
    · exact not_of_refused hanswer
    · exact hs.uncommitted (hcommit.symm.trans hc) y hy
  · refine List.pairwise_cons.2 ⟨fun y _ hboth => not_of_refused hanswer hboth.1, hs.commits⟩
  · intro hp hf
    rcases hquiet hf with ⟨hlog, hf⟩
    rw [processings_cons, hs.unprocessed (hpeer.symm.trans hp) hf, hlog]
  · rw [processings_cons, Nat.add_comm]
    exact hprocess
  · intro hp
    rcases hs.taken (hpeer.symm.trans hp) with ⟨y, hy, htakes⟩
    exact ⟨y, List.mem_cons_of_mem _ hy, htakes⟩
  · intro hc
    rcases hs.confirmed (hconfirm.symm.trans hc) with ⟨y, hy, hwrites⟩
    exact ⟨y, List.mem_cons_of_mem _ hy, hwrites⟩
  · rw [hcounters]
    exact hs.rising
  · intro ha
    rcases hlast ha with ⟨hbefore, hcounter, hlen⟩
    rcases hs.last hbefore with ⟨hold, hpmk⟩
    rw [hcounters, hcounter, hlen]
    exact ⟨hold, hpmk⟩
  · intro ha hf
    rw [hcounters]
    exact hs.none (hnone ha hf) (hquiet hf).2

/-- A call that sets flags keeps what was found for the others. -/
theorem Sound.earlier {P : Record τ π → Prop} {x : Record τ π} (hold : ∃ y ∈ h, P y) : ∃ y ∈ x :: h, P y := by
  rcases hold with ⟨y, hy, hp⟩
  exact ⟨y, List.mem_cons_of_mem x hy, hp⟩

theorem not_writesCommit (hop : ∀ out capacity written, op ≠ .commit out capacity written) :
    ¬ WritesCommit (⟨s, op, log, answer, s'⟩ : Record τ π) := by
  rintro ⟨⟨out, capacity, written, heq⟩, -⟩
  exact hop out capacity written heq

theorem Sound.commit (hs : Sound h s) {out written : Bool} {capacity : ℕ} {d : SaeData τ}
    (hlog : SaeSession.processings log = 0) (hanswer : answer.ok = true) (haccepted : s.accepted = false)
    (hfirst : s.commitSent = false) :
    Sound (⟨s, .commit out capacity written, log, answer, { s with sae := d }.sent false⟩ :: h)
      ({ s with sae := d }.sent false) := by
  have hcounters : counters (⟨s, .commit out capacity written, log, answer, { s with sae := d }.sent false⟩ :: h) =
      counters h := counters_same rfl
  refine ⟨?_, ?_, ?_, ?_, ?_, ?_, ?_, ?_, ?_, ?_, ?_⟩
  · intro _
    exact ⟨_, List.mem_cons_self, ⟨out, capacity, written, rfl⟩, hanswer⟩
  · exact fun hno => absurd hno nofun
  · exact List.pairwise_cons.2 ⟨fun y hy hboth => hs.uncommitted hfirst y hy hboth.2, hs.commits⟩
  · intro hp hf
    rw [processings_cons, hs.unprocessed hp hf, hlog]
  · rw [processings_cons, hlog]
    exact hs.processings
  · exact fun hp => Sound.earlier (hs.taken hp)
  · exact fun hc => Sound.earlier (hs.confirmed hc)
  · exact fun _ => haccepted
  · rw [hcounters]
    exact hs.rising
  · intro ha
    have ha' : s.accepted = true := ha
    rw [haccepted] at ha'
    exact absurd ha' nofun
  · intro ha hf
    rw [hcounters]
    exact hs.none ha hf

theorem Sound.confirm (hs : Sound h s) {out written : Bool} {capacity : ℕ} {d : SaeData τ}
    (hlog : SaeSession.processings log = 0) (hanswer : answer.ok = true) (hlen : d.pmkLen = s.sae.pmkLen) :
    Sound (⟨s, .confirm out capacity written, log, answer, { s with sae := d }.sent true⟩ :: h)
      ({ s with sae := d }.sent true) := by
  have hcounters : counters (⟨s, .confirm out capacity written, log, answer, { s with sae := d }.sent true⟩ :: h) =
      counters h := counters_same rfl
  have hsae : ({ s with sae := d }.sent true).sae.pmkLen = d.pmkLen := by
    unfold Session.sent
    cases s.accepted <;> rfl
  have hno : ¬ WritesCommit (⟨s, .confirm out capacity written, log, answer, { s with sae := d }.sent true⟩ :
      Record τ π) := not_writesCommit fun _ _ _ => nofun
  refine ⟨?_, ?_, ?_, ?_, ?_, ?_, ?_, ?_, ?_, ?_, ?_⟩
  · exact fun hc => Sound.earlier (hs.committed hc)
  · intro hc y hy
    rcases List.mem_cons.1 hy with rfl | hy
    · exact hno
    · exact hs.uncommitted hc y hy
  · exact List.pairwise_cons.2 ⟨fun y _ hboth => hno hboth.1, hs.commits⟩
  · intro hp hf
    rw [processings_cons, hs.unprocessed hp hf, hlog]
  · rw [processings_cons, hlog]
    exact hs.processings
  · exact fun hp => Sound.earlier (hs.taken hp)
  · intro _
    exact ⟨_, List.mem_cons_self, ⟨out, capacity, written, rfl⟩, hanswer⟩
  · exact fun hf => hs.failed hf
  · rw [hcounters]
    exact hs.rising
  · intro ha
    rw [hcounters, hsae, hlen]
    exact hs.last ha
  · intro ha hf
    rw [hcounters]
    exact hs.none ha hf

theorem Sound.take (hs : Sound h s) {data : Option (List UInt8)} {d : SaeData τ}
    (hlog : SaeSession.processings log = 1) (hanswer : answer.ok = true) (hfailed : s.failed = false)
    (hfirst : s.peerCommit = false) (haccepted : s.accepted = false) :
    Sound (⟨s, .receiveCommit data, log, answer, { s with sae := d, peerCommit := true }⟩ :: h)
      { s with sae := d, peerCommit := true } := by
  have hcounters : counters (⟨s, .receiveCommit data, log, answer, { s with sae := d, peerCommit := true }⟩ :: h) =
      counters h := counters_same rfl
  have hno : ¬ WritesCommit (⟨s, .receiveCommit data, log, answer, { s with sae := d, peerCommit := true }⟩ :
      Record τ π) := not_writesCommit fun _ _ _ => nofun
  refine ⟨?_, ?_, ?_, ?_, ?_, ?_, ?_, ?_, ?_, ?_, ?_⟩
  · exact fun hc => Sound.earlier (hs.committed hc)
  · intro hc y hy
    rcases List.mem_cons.1 hy with rfl | hy
    · exact hno
    · exact hs.uncommitted hc y hy
  · exact List.pairwise_cons.2 ⟨fun y _ hboth => hno hboth.1, hs.commits⟩
  · exact fun hp => absurd hp nofun
  · rw [processings_cons, hs.unprocessed hfirst hfailed, hlog]
  · intro _
    exact ⟨_, List.mem_cons_self, ⟨data, rfl⟩, hanswer⟩
  · exact fun hc => Sound.earlier (hs.confirmed hc)
  · exact fun _ => haccepted
  · rw [hcounters]
    exact hs.rising
  · intro ha
    have ha' : s.accepted = true := ha
    rw [haccepted] at ha'
    exact absurd ha' nofun
  · intro ha hf
    rw [hcounters]
    exact hs.none ha hf

theorem Sound.accept (hs : Sound h s) {bytes : List UInt8} {d : SaeData τ}
    (hlog : SaeSession.processings log = 0) (hanswer : answer.ok = true) (hfailed : s.failed = false)
    (hnew : s.accepted = true → s.peerConfirm < le16 bytes ∧ le16 bytes ≠ 0xffff) (hlen : d.pmkLen = 32) :
    Sound (⟨s, .receiveConfirm (some bytes), log, answer, { s with sae := d }.accepting (le16 bytes)⟩ :: h)
      ({ s with sae := d }.accepting (le16 bytes)) := by
  have hcounters : counters
      (⟨s, .receiveConfirm (some bytes), log, answer, { s with sae := d }.accepting (le16 bytes)⟩ :: h) =
      counters h ++ [le16 bytes] := by
    rw [counters_cons]
    unfold acceptedCounter
    simp [hanswer]
  have hno : ¬ WritesCommit (⟨s, .receiveConfirm (some bytes), log, answer,
      { s with sae := d }.accepting (le16 bytes)⟩ : Record τ π) := not_writesCommit fun _ _ _ => nofun
  refine ⟨?_, ?_, ?_, ?_, ?_, ?_, ?_, ?_, ?_, ?_, ?_⟩
  · exact fun hc => Sound.earlier (hs.committed hc)
  · intro hc y hy
    rcases List.mem_cons.1 hy with rfl | hy
    · exact hno
    · exact hs.uncommitted hc y hy
  · exact List.pairwise_cons.2 ⟨fun y _ hboth => hno hboth.1, hs.commits⟩
  · intro hp hf
    rw [processings_cons, hs.unprocessed hp hf, hlog]
  · rw [processings_cons, hlog]
    exact hs.processings
  · exact fun hp => Sound.earlier (hs.taken hp)
  · exact fun hc => Sound.earlier (hs.confirmed hc)
  · intro hf
    have hf' : s.failed = true := hf
    rw [hfailed] at hf'
    exact absurd hf' nofun
  · rw [hcounters]
    cases haccepted : s.accepted with
    | false =>
        rw [hs.none haccepted hfailed]
        exact ⟨List.pairwise_singleton _ _, nofun⟩
    | true => exact rising_snoc hs.rising (hs.last haccepted).1 (hnew haccepted).1 (hnew haccepted).2
  · intro _
    rw [hcounters, List.getLast?_concat]
    exact ⟨rfl, hlen⟩
  · exact fun ha => absurd ha nofun

/-- Before the Commit of the peer is taken nothing is accepted. -/
theorem Moves.accepted_peer (hmoves : Moves s op log answer s') (hs : s.accepted = true → s.peerCommit = true)
    (ha : s'.accepted = true) : s'.peerCommit = true := by
  cases hmoves with
  | refuses _ _ _ | mismatched _ _ _ _ _ | commits _ _ _ _ _ _ | confirms _ _ _ _ _ _ | exports _ _ => exact hs ha
  | unwritten _ _ _ _ | unprocessed _ _ _ _ _ _ | mistaken _ _ _ _ | short _ _ _ _ _ _ => exact absurd ha nofun
  | processed _ _ _ _ _ _ => rfl
  | accepts _ _ _ _ hpeer _ _ _ _ _ => exact hpeer

/-- One call keeps the invariant, if the library is faithful. -/
theorem Moves.sound (hmoves : Moves s op log answer s') (hs : Sound h s)
    (hpeer : s.accepted = true → s.peerCommit = true) (hlog : ∀ e ∈ log, Faithful e) :
    Sound (⟨s, op, log, answer, s'⟩ :: h) s' := by
  have honce : ∀ {n : ℕ}, n = 0 → n + processings (eventsOf h) ≤ 1 := by
    intro n hn
    rw [hn, Nat.zero_add]
    exact hs.processings
  cases hmoves with
  | refuses hnone hanswer hop =>
      exact hs.refused hanswer (honce hnone) rfl rfl rfl (fun hf => ⟨hnone, hf⟩) hs.failed
        (fun ha => ⟨ha, rfl, rfl⟩) fun ha _ => ha
  | unwritten d hnone hanswer hop =>
      exact hs.refused hanswer (honce hnone) rfl rfl rfl (fun hf => absurd hf nofun) (fun _ => rfl)
        (fun ha => absurd ha nofun) fun _ hf => absurd hf nofun
  | unprocessed d hone hanswer hfailed hsent hfirst =>
      refine hs.refused hanswer ?_ rfl rfl rfl (fun hf => absurd hf nofun) (fun _ => rfl)
        (fun ha => absurd ha nofun) fun _ hf => absurd hf nofun
      rw [hs.unprocessed hfirst hfailed]
      exact hone
  | mistaken d hnone hanswer haccepted =>
      exact hs.refused hanswer (honce hnone) rfl rfl rfl (fun hf => absurd hf nofun) (fun _ => rfl)
        (fun ha => absurd ha nofun) fun _ hf => absurd hf nofun
  | mismatched c hnone hanswer hcall herror =>
      have hdata : c.data = s.sae := (hlog _ hcall).1 herror
      refine hs.refused hanswer (honce hnone) rfl rfl rfl (fun hf => ⟨hnone, hf⟩) hs.failed
        (fun ha => ⟨ha, rfl, ?_⟩) fun ha _ => ha
      exact congrArg SaeData.pmkLen hdata
  | short c d hnone hanswer hcall hlen =>
      exact hs.refused hanswer (honce hnone) rfl rfl rfl (fun hf => absurd hf nofun) (fun _ => rfl)
        (fun ha => absurd ha nofun) fun _ hf => absurd hf nofun
  | commits d hnone hanswer hfailed haccepted hfirst => exact hs.commit hnone hanswer haccepted hfirst
  | confirms w hnone hanswer hfailed hcommit hcall =>
      have hlen : w.data.pmkLen = (s.counting true).sae.pmkLen := hlog _ hcall
      refine hs.confirm hnone hanswer (hlen.trans ?_)
      unfold Session.counting
      cases true && s.accepted <;> rfl
  | processed d hone hanswer hfailed hsent hfirst =>
      have haccepted : s.accepted = false := by
        rw [← Bool.not_eq_true]
        intro ha
        rw [hpeer ha] at hfirst
        exact absurd hfirst nofun
      exact hs.take hone hanswer hfailed hfirst haccepted
  | accepts c hnone hanswer hfailed hcommit hsent hpositive hnew hcall hlen =>
      exact hs.accept hnone hanswer hfailed hnew hlen
  | exports pmk pmkid =>
      have hno : ¬ WritesCommit (⟨s, .exportKeys pmk pmkid, [], .exported (s.exported pmk pmkid), s⟩ :
          Record τ π) := not_writesCommit fun _ _ _ => nofun
      have hcounters : counters ((⟨s, .exportKeys pmk pmkid, [], .exported (s.exported pmk pmkid), s⟩ :
          Record τ π) :: h) = counters h := counters_same rfl
      refine ⟨fun hc => Sound.earlier (hs.committed hc), ?_, ?_, ?_, ?_, fun hp => Sound.earlier (hs.taken hp),
        fun hc => Sound.earlier (hs.confirmed hc), hs.failed, ?_, ?_, ?_⟩
      · intro hc y hy
        rcases List.mem_cons.1 hy with rfl | hy
        · exact hno
        · exact hs.uncommitted hc y hy
      · exact List.pairwise_cons.2 ⟨fun y _ hboth => hno hboth.1, hs.commits⟩
      · intro hp hf
        rw [processings_cons, hs.unprocessed hp hf]
        rfl
      · rw [processings_cons]
        exact hs.processings
      · rw [hcounters]
        exact hs.rising
      · rw [hcounters]
        exact hs.last
      · rw [hcounters]
        exact hs.none

end Step

/-! ## Every run -/

/-- A session as it is created. -/
structure Fresh (s : Session τ) : Prop where
  commit : s.commitSent = false
  peer : s.peerCommit = false
  confirm : s.confirmSent = false
  accepted : s.accepted = false

theorem fresh_none (s : Session τ) (hs : none = some s) : Fresh s := absurd hs.symm (Option.some_ne_none s)

theorem create_fresh (own peer ssid password : Option (List UInt8)) (h2e : ℕ) :
    (create (τ := τ) (π := π) own peer ssid password h2e).wp (fun _ r _ => ∀ s, r = some s → Fresh s) () := by
  have hdiscard : ∀ (d : SaeData τ) (Q : Trace τ π → Option (Session τ) → Unit → Prop),
      (∀ log, Q log none ()) → (discard d).wp Q () := by
    intro d Q hQ
    unfold discard
    rw [wp_ask_bind]
    intro r
    exact (wp_pure _).2 (hQ _)
  have hmade : ∀ (c : Computed τ) (h : Bool),
      (if c.error then discard c.data else return some { sae := c.data, h2e := h } :
        Code Unit (Call τ π) Reply Empty (Option (Session τ))).wp (fun _ r _ => ∀ s, r = some s → Fresh s) () := by
    intro c h
    rw [wp_ite]
    refine ⟨fun _ => hdiscard _ _ fun _ => fresh_none, fun _ => (wp_pure _).2 fun s hs => ?_⟩
    cases hs
    exact ⟨rfl, rfl, rfl, rfl⟩
  have hprepare : ∀ (own peer ssid password : List UInt8) (h : Bool) (d : SaeData τ),
      (prepare (π := π) own peer ssid password h d).wp (fun _ r _ => ∀ s, r = some s → Fresh s) () := by
    intro own peer ssid password h d
    unfold prepare
    rw [wp_ite]
    refine ⟨fun _ => ?_, fun _ => ?_⟩
    · rw [wp_ask_bind]
      intro pt
      cases pt with
      | none => exact hdiscard _ _ fun _ => fresh_none
      | some pt =>
          rw [wp_ask_bind]
          intro c
          rw [wp_ask_bind]
          intro _
          exact hmade c h
    · rw [wp_ask_bind]
      intro c
      exact hmade c h
  unfold create
  cases own with
  | none => exact (wp_pure _).2 fresh_none
  | some own =>
  cases peer with
  | none => exact (wp_pure _).2 fresh_none
  | some peer =>
  cases ssid with
  | none => exact (wp_pure _).2 fresh_none
  | some ssid =>
  cases password with
  | none => exact (wp_pure _).2 fresh_none
  | some password =>
      rw [wp_ite]
      refine ⟨fun _ => (wp_pure _).2 fresh_none, fun _ => ?_⟩
      rw [wp_ask_bind]
      intro zero
      cases zero with
      | none => exact (wp_pure _).2 fresh_none
      | some zero =>
          rw [wp_ask_bind]
          intro c
          rw [wp_ite]
          exact ⟨fun _ => hdiscard _ _ fun _ => fresh_none, fun _ => hprepare _ _ _ _ _ _⟩

section Runs

variable {commitMax : ℕ} {s₀ s : Session τ} {h : List (Record τ π)}

theorem run_sound (hs₀ : Fresh s₀) (hrun : Run commitMax s₀ h s) (hlog : ∀ e ∈ eventsOf h, Faithful e) :
    Sound h s ∧ (s.accepted = true → s.peerCommit = true) := by
  revert hlog
  refine hrun.invariant (P := fun h s => (∀ e ∈ eventsOf h, Faithful e) →
    Sound h s ∧ (s.accepted = true → s.peerCommit = true)) ?_ ?_
  · intro _
    refine ⟨sound_new hs₀.commit hs₀.peer hs₀.confirm hs₀.accepted, fun ha => ?_⟩
    rw [hs₀.accepted] at ha
    exact absurd ha nofun
  · intro h s s' op log answer hrun hbefore hout hlog
    have hmoves := wp_outcome (exec_moves s commitMax op) hout
    rcases hbefore fun e he => hlog e (List.mem_append_left _ he) with ⟨hs, hpeer⟩
    exact ⟨hmoves.sound hs hpeer fun e he => hlog e (List.mem_append_right _ he), hmoves.accepted_peer hpeer⟩

theorem run_moves {later earlier : List (Record τ π)} {x : Record τ π} (hs₀ : Fresh s₀)
    (hrun : Run commitMax s₀ (later ++ x :: earlier) s) (hlog : ∀ e ∈ eventsOf (later ++ x :: earlier), Faithful e) :
    Sound earlier x.before ∧ Moves x.before x.op x.log x.result x.after := by
  have hpart : ∀ (l : List (Record τ π)) (e : TraceEvent τ π), e ∈ eventsOf earlier →
      e ∈ eventsOf (l ++ x :: earlier) := by
    intro l e he
    induction l with
    | nil => exact List.mem_append_left _ he
    | cons y l ih => exact List.mem_append_left _ ih
  rcases (Run.drop hrun).tail with ⟨hbefore, -, hout⟩
  exact ⟨(run_sound hs₀ hbefore fun e he => hlog e (hpart later e he)).1,
    wp_outcome (exec_moves _ commitMax x.op) hout⟩

section Step

variable {s s' : Session τ} {op : Op} {log : Trace τ π} {answer : Answer}

theorem Moves.processing (hmoves : Moves s op log answer s') (hlog : processings log ≠ 0) : s.commitSent = true := by
  cases hmoves with
  | refuses hnone _ _ | unwritten _ hnone _ _ | mistaken _ hnone _ _ | mismatched _ hnone _ _ _
  | short _ _ hnone _ _ _ | commits _ hnone _ _ _ _ | confirms _ hnone _ _ _ _
  | accepts _ hnone _ _ _ _ _ _ _ _ => exact absurd hnone hlog
  | unprocessed _ _ _ _ hsent _ | processed _ _ _ _ hsent _ => exact hsent
  | exports _ _ => exact absurd rfl hlog

theorem Moves.acceptance (hmoves : Moves s op log answer s') (hbefore : s.accepted = false)
    (hafter : s'.accepted = true) :
    (∃ bytes, op = .receiveConfirm (some bytes)) ∧ s.peerCommit = true ∧ s.confirmSent = true := by
  have hno : s'.accepted = s.accepted → False := by
    intro hsame
    rw [hsame, hbefore] at hafter
    exact absurd hafter nofun
  cases hmoves with
  | refuses _ _ _ | mismatched _ _ _ _ _ | commits _ _ _ _ _ _ | confirms _ _ _ _ _ _ | processed _ _ _ _ _ _
  | exports _ _ => exact (hno rfl).elim
  | unwritten _ _ _ _ | unprocessed _ _ _ _ _ _ | mistaken _ _ _ _ | short _ _ _ _ _ _ => exact absurd hafter nofun
  | accepts _ _ _ _ hpeer hsent _ _ _ _ => exact ⟨⟨_, rfl⟩, hpeer, hsent⟩

theorem Moves.kept {data : Option (List UInt8)} (hmoves : Moves s (.receiveConfirm data) log answer s')
    (hlog : ∀ e ∈ log, Faithful e) (haccepted : s.accepted = true) (hlen : s.sae.pmkLen = 32) :
    s'.accepted = true ∧ s'.exported true true = s.exported true true := by
  have hkeys : ∀ (s' : Session τ), s'.accepted = s.accepted → s'.failed = s.failed →
      s'.sae.keys = s.sae.keys → s'.exported true true = s.exported true true := by
    intro s' ha hf hk
    have hpmk : s'.sae.pmk = s.sae.pmk := congrArg Prod.fst hk
    have hpmkid : s'.sae.pmkid = s.sae.pmkid := congrArg (fun k => k.2.2) hk
    unfold Session.exported
    rw [ha, hf, hpmk, hpmkid]
  cases hmoves with
  | refuses _ _ _ => exact ⟨haccepted, rfl⟩
  | unwritten _ _ _ hwrites =>
      rcases hwrites with ⟨out, capacity, written, hwrites | hwrites⟩
      · exact absurd hwrites nofun
      · exact absurd hwrites nofun
  | mistaken _ _ _ hnot => exact absurd (haccepted.symm.trans hnot) nofun
  | mismatched c _ _ hcall herror => exact ⟨haccepted, hkeys _ rfl rfl (hlog _ hcall).2⟩
  | short c d _ _ hcall hshort =>
      -- The length of the key is that of the first acceptance.
      have hsame : c.data.pmkLen = s.sae.pmkLen := congrArg (fun k => k.2.1) (hlog _ hcall).2
      exact absurd (hsame.trans hlen) hshort
  | accepts c _ _ _ _ _ _ _ hcall _ => exact ⟨rfl, hkeys _ haccepted.symm rfl (hlog _ hcall).2⟩

end Step

def zeroed : Exported := ⟨false, some (List.replicate 32 0), some (List.replicate 16 0)⟩

theorem exported_eq (s : Session τ) :
    s.exported true true = if s.accepted = true ∧ s.failed = false then
      ⟨true, some (s.sae.pmk.take 32), some (s.sae.pmkid.take 16)⟩ else zeroed := by
  unfold Session.exported zeroed
  cases s.accepted <;> cases s.failed <;> rfl

/-- A run of a session. -/
structure Accepting (h : List (Record τ π)) : Prop where
  once : h.Pairwise fun x y => ¬ (WritesCommit x ∧ WritesCommit y)
  processed : processings (eventsOf h) ≤ 1
  after : ∀ later x earlier, h = later ++ x :: earlier → processings x.log ≠ 0 → ∃ y ∈ earlier, WritesCommit y
  accepted : ∀ later x earlier, h = later ++ x :: earlier → x.before.accepted = false → x.after.accepted = true →
    (∃ bytes, x.op = .receiveConfirm (some bytes)) ∧ (∃ y ∈ earlier, TakesCommit y) ∧ ∃ y ∈ earlier, WritesConfirm y
  kept : ∀ x ∈ h, ∀ data, x.op = .receiveConfirm data → x.before.accepted = true →
    x.after.accepted = true ∧ x.after.exported true true = x.before.exported true true
  counters : Rising (counters h)
  exported : ∀ x ∈ h, x.op = .exportKeys true true → x.result = .exported
    (if x.before.accepted = true ∧ x.before.failed = false then
      ⟨true, some (x.before.sae.pmk.take 32), some (x.before.sae.pmkid.take 16)⟩ else zeroed)

/-- In every run of a new session one Commit is written and one is processed, keys are accepted only after
both and after a Confirm was written, nothing that is received takes them away again, the accepted counters
rise, and the keys can be read exactly while they are accepted. -/
theorem session_acceptance {own peer ssid password : Option (List UInt8)} {h2e : ℕ} {log₀ : Trace τ π}
    (hcreate : (create own peer ssid password h2e ()).Outcome log₀ (some s₀, ()))
    (hrun : Run commitMax s₀ h s) (hlog : ∀ e ∈ eventsOf h, Faithful e) : Accepting h := by
  have hs₀ : Fresh s₀ := wp_outcome (create_fresh own peer ssid password h2e) hcreate s₀ rfl
  have hs := (run_sound hs₀ hrun hlog).1
  refine ⟨hs.commits, hs.processings, ?_, ?_, ?_, hs.rising, ?_⟩
  · intro later x earlier heq hx
    subst heq
    rcases run_moves hs₀ hrun hlog with ⟨hbefore, hmoves⟩
    exact hbefore.committed (hmoves.processing hx)
  · intro later x earlier heq hno hyes
    subst heq
    rcases run_moves hs₀ hrun hlog with ⟨hbefore, hmoves⟩
    rcases hmoves.acceptance hno hyes with ⟨hop, hpeer, hsent⟩
    exact ⟨hop, hbefore.taken hpeer, hbefore.confirmed hsent⟩
  · intro x hx data hop haccepted
    rcases List.append_of_mem hx with ⟨later, earlier, rfl⟩
    rcases run_moves hs₀ hrun hlog with ⟨hbefore, hmoves⟩
    rw [hop] at hmoves
    refine hmoves.kept (fun e he => hlog e ?_) haccepted (hbefore.last haccepted).2
    clear hrun hlog hx hs
    induction later with
    | nil => exact List.mem_append_right _ he
    | cons y later ih => exact List.mem_append_left _ ih
  · intro x hx hop
    rcases List.append_of_mem hx with ⟨later, earlier, rfl⟩
    have hout := hrun.outcome hx
    rw [hop] at hout
    have hwp : (exec (π := π) commitMax (.exportKeys true true)).wp (fun _ answer _ =>
        answer = .exported (x.before.exported true true)) x.before := by
      unfold exec
      rw [wp_get_bind, wp_pure]
    rw [wp_outcome hwp hout, exported_eq]

end Runs

/-- A library that computes without an error. -/
def working (call : Call Unit Unit) (_ : Unit) : Reply call × Unit :=
  match call with
  | .allocateSession | .derivePt _ _ => (some (), ())
  | .allocateBuffer _ => (true, ())
  | .setGroup d _ | .prepareCommitPt d _ _ _ | .prepareCommit d _ _ _ | .checkConfirm d _ => (⟨false, d⟩, ())
  | .deinitPt _ => ((), ())
  | .clearData _ => ({ rest := () }, ())
  | .writeCommit d => ({ error := false, data := d, bytes := List.replicate 98 1 }, ())
  | .writeConfirm d => ({ error := false, data := d, bytes := List.replicate 34 2 }, ())
  | .parseCommit d _ _ => ({ error := false, data := d, tokenLen := 0 }, ())
  | .processCommit d =>
      (⟨false, { d with pmk := List.replicate 64 7, pmkLen := 32, pmkid := List.replicate 16 9 }⟩, ())

def newSession : Session Unit := { sae := { akmp := .sae, rest := () }, h2e := true }

theorem create_newSession :
    (create (some [2, 0, 0, 0, 0, 1]) (some [2, 0, 0, 0, 0, 2]) (some [65]) (some [66]) 1 ()).Outcome
      (Prog.run working (create (some [2, 0, 0, 0, 0, 1]) (some [2, 0, 0, 0, 0, 2]) (some [65]) (some [66]) 1 ())
        ()).1 (some newSession, ()) :=
  Prog.run_outcome working _ ()

/-- A whole exchange, with the Confirm of the peer repeated. -/
def exchange : List Op :=
  [.commit true 100 true, .receiveCommit (some (19 :: 0 :: List.replicate 96 0)), .confirm true 100 true,
    .receiveConfirm (some (1 :: 0 :: List.replicate 32 0)), .receiveConfirm (some (1 :: 0 :: List.replicate 32 0)),
    .exportKeys true true]

theorem session_acceptance_exchange :
    (replay (exec 1000) working exchange newSession ()).2.1.accepted = true ∧
      Accepting (replay (exec 1000) working exchange newSession ()).1 :=
  ⟨by decide +kernel, session_acceptance create_newSession (replay_run (exec 1000) working exchange newSession ())
    (by decide +kernel)⟩

end SaeSession
end Rtl8852be
