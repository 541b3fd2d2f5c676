import Rtl8852be.Station.Disconnect
import Rtl8852be.Station.Tokens

/-!
# Scan — the protocol of a scan

A scan goes through its plan channel by channel and can be cancelled, revoked or overtaken by a
disconnect in each of its five states.  `Stage` says what the backend has seen when the scan is in a
state, `ScanPart` holds the fields a scan lives on.  Both are carried from call to call until the
scan ends.
-/

namespace Rtl8852be
namespace Station

open Interaction Network

variable {c c' d : Controller} {op : Op} {log : Trace} {ok : Bool} {h between : List Record}
  {r x : Record} {plan : List ScanChannel} {token : Token}

/-! ## What the backend sees -/

/-- The calls of the backend that make up a scan. -/
inductive Step
  | began (kind : Action) (target : Channel) (active : Bool)
  | probed (token : Token) (entry : ScanChannel)
  | finished (token : Token) (cancelled : Bool)
  deriving DecidableEq

def steps (log : Trace) : List Step :=
  log.filterMap fun e =>
    match e with
    | .call (.beginAction request) _ =>
        some (.began request.action request.channel request.activeScan)
    | .call (.sendProbe token _ entry) _ => some (.probed token entry)
    | .call (.scanFinished token cancelled) _ => some (.finished token cancelled)
    | _ => none

/-- The steps of a history, oldest first. -/
def seen (h : List Record) : List Step := h.reverse.flatMap fun r => steps r.log

theorem seen_cons (r : Record) (h : List Record) : seen (r :: h) = seen h ++ steps r.log := by
  simp [seen]

section Traces

variable (d)

@[simp] theorem steps_append (l l' : Trace) : steps (l ++ l') = steps l ++ steps l' :=
  List.filterMap_append

@[simp] theorem steps_gate : steps gate = [] := rfl

@[simp] theorem steps_paused (l : Trace) : steps (paused :: l) = steps l := rfl

@[simp] theorem steps_note (n : Note) (l : Trace) : steps (.note n :: l) = steps l := rfl

@[simp] theorem steps_actionTrace (kind : Action) (target : Channel) :
    steps (actionTrace d kind target) =
      [.began kind target (kind == .scanTune && d.entry.active)] := by
  by_cases hk : kind = .scanTune <;> simp [actionTrace, hk, readChannel, steps, Controller.request]

theorem steps_tuneTrace :
    steps (tuneTrace d) = [.began .scanTune d.entry.channel d.entry.active] :=
  steps_actionTrace d .scanTune d.entry.channel

theorem steps_restoreTrace : steps (restoreTrace d) = [.began .scanRestore d.homeChannel false] :=
  steps_actionTrace d .scanRestore d.homeChannel

theorem steps_disconnectTrace : steps (disconnectTrace d) = [.began .disconnectCmac {} false] :=
  steps_actionTrace d .disconnectCmac {}

theorem steps_dwellTrace :
    steps (dwellTrace d) = if d.entry.active then [.probed d.scanToken d.entry] else [] := by
  cases ha : d.entry.active <;> simp [dwellTrace, ha, readChannel, paused, steps]

end Traces

/-! ## What happens to a scan -/

/-- An accepted call that cancels the scan. -/
def Record.cancelsScan (r : Record) : Bool :=
  r.result &&
    match r.op with
    | .cancelScan _ _ => true
    | .disconnect _ => true
    | _ => false

/-- An accepted `revokePort`. -/
def Record.revokes (r : Record) : Bool := r.result && r.op matches .revokePort _ _

/-- A `disconnect` that the gate let in. -/
def Record.asksToLeave (r : Record) : Bool :=
  match r.op, r.log with
  | .disconnect _, .call .inGate true :: _ => true
  | _, _ => false

/-- The channel the scan has arrived at with this call. -/
def Record.arrives (r : Record) : Option ScanChannel :=
  if r.before.state ≠ .scanningDwell ∧ r.after.state = .scanningDwell then some r.after.entry
  else none

/-- The channels the scan has dwelt on, in order. -/
def dwelt (h : List Record) : List ScanChannel := h.reverse.filterMap Record.arrives

theorem dwelt_cons (r : Record) (h : List Record) :
    dwelt (r :: h) = dwelt h ++ (Record.arrives r).toList := by
  cases hr : Record.arrives r <;> simp [dwelt, List.filterMap_append, hr]

theorem Record.arrives_none (hr : r.after.state ≠ .scanningDwell) : Record.arrives r = none := by
  simp [Record.arrives, hr]

theorem Record.arrives_same (hr : r.after.state = r.before.state) : Record.arrives r = none := by
  simp [Record.arrives, hr]

def Record.scanTarget (r : Record) : Channel :=
  if r.before.state = .idle then r.before.interface.home else r.before.peer.channel

/-! ## The plan -/

def begin_ : Step := .began .scanBegin {} false

def tune (entry : ScanChannel) : Step := .began .scanTune entry.channel entry.active

/-- What the backend sees of a channel the scan dwells on. -/
def visit (token : Token) (entry : ScanChannel) : List Step :=
  tune entry :: if entry.active then [.probed token entry] else []

/-- The part of the plan that was worked off before the scan went home: the channels in `visited`
were dwelt on, and one more may have been tuned to when the scan was cancelled.  An uncancelled scan
has worked off all of it. -/
structure Tuned (plan : List ScanChannel) (token : Token) (cancelled : Bool)
    (visited : List ScanChannel) (tuned : List Step) : Prop where
  inPlan : visited <+: plan
  shape : tuned = visited.flatMap (visit token) ∨
    ∃ entry, visited ++ [entry] <+: plan ∧ tuned = visited.flatMap (visit token) ++ [tune entry]
  whole : cancelled = false → visited = plan ∧ tuned = plan.flatMap (visit token)

theorem Tuned.mono {cancelled cancelled' : Bool} {visited : List ScanChannel} {tuned : List Step}
    (ht : Tuned plan token cancelled visited tuned) (hc : cancelled' = false → cancelled = false) :
    Tuned plan token cancelled' visited tuned :=
  ⟨ht.inPlan, ht.shape, fun h => ht.whole (hc h)⟩

/-- What the backend has seen when the scan is in a state: `index` is the position in the plan. -/
def Stage (plan : List ScanChannel) (token : Token) (target : Channel) (cancelled : Bool)
    (state : State) (index : Nat) (seen : List Step) (visited : List ScanChannel) : Prop :=
  match state with
  | .scanningBegin => index = 0 ∧ visited = [] ∧ seen = [begin_]
  | .scanningTune => visited = plan.take index ∧ ∃ h : index < plan.length,
      seen = begin_ :: visited.flatMap (visit token) ++ [tune plan[index]]
  | .scanningDwell => index < plan.length ∧ visited = plan.take (index + 1) ∧
      seen = begin_ :: visited.flatMap (visit token)
  | .scanningRestore => ∃ tuned, Tuned plan token cancelled visited tuned ∧
      seen = begin_ :: tuned ++ [.began .scanRestore target false]
  | .scanningEnd => ∃ tuned, Tuned plan token cancelled visited tuned ∧
      seen = begin_ :: tuned ++ [.began .scanRestore target false, .began .scanEnd {} false]
  | _ => False

variable {target : Channel} {cancelled : Bool} {state : State} {index : Nat} {trace : List Step}
  {visited : List ScanChannel}

theorem Stage.mono {cancelled' : Bool}
    (hg : Stage plan token target cancelled state index trace visited)
    (hc : cancelled' = false → cancelled = false) :
    Stage plan token target cancelled' state index trace visited := by
  cases state with
  | scanningRestore =>
      obtain ⟨tuned, ht, hseen⟩ := hg
      exact ⟨tuned, ht.mono hc, hseen⟩
  | scanningEnd =>
      obtain ⟨tuned, ht, hseen⟩ := hg
      exact ⟨tuned, ht.mono hc, hseen⟩
  | _ => exact hg

/-- Going home from the middle of the plan takes a cancelled scan. -/
theorem Stage.home (hg : Stage plan token target cancelled state index trace visited)
    (hs : state = .scanningBegin ∨ state = .scanningTune ∨ state = .scanningDwell)
    (hc : cancelled = true ∨ (state = .scanningDwell ∧ index + 1 = plan.length)) (i : Nat) :
    Stage plan token target cancelled .scanningRestore i
      (trace ++ [.began .scanRestore target false]) visited := by
  rcases hs with rfl | rfl | rfl
  · obtain ⟨-, rfl, rfl⟩ := hg
    have hc : cancelled = true := hc.resolve_right nofun
    exact ⟨[], ⟨List.nil_prefix, Or.inl rfl, fun h => absurd (hc.symm.trans h) nofun⟩, rfl⟩
  · obtain ⟨rfl, hi, rfl⟩ := hg
    have hc : cancelled = true := hc.resolve_right nofun
    refine ⟨(plan.take index).flatMap (visit token) ++ [tune plan[index]],
      ⟨List.take_prefix _ _, Or.inr ⟨plan[index], ?_, rfl⟩,
        fun h => absurd (hc.symm.trans h) nofun⟩, by simp⟩
    rw [List.take_concat_get']
    exact List.take_prefix _ _
  · obtain ⟨hi, rfl, rfl⟩ := hg
    refine ⟨(plan.take (index + 1)).flatMap (visit token),
      ⟨List.take_prefix _ _, Or.inl rfl, fun h => ?_⟩, rfl⟩
    have hlast : index + 1 = plan.length :=
      (hc.resolve_left fun h' => absurd (h'.symm.trans h) nofun).2
    rw [hlast, List.take_length]
    exact ⟨rfl, rfl⟩

/-! ## From call to call -/

/-- The fields a scan lives on. -/
structure ScanPart where
  token : Token
  count : Nat
  channels : Nat → ScanChannel
  interface : Interface
  peer : Peer
  cancelled : Bool
  resume : State

def Controller.scanPart (c : Controller) : ScanPart :=
  ⟨c.scanToken, c.channelCount, c.channels, c.interface, c.peer, c.scanCancelled, c.scanResume⟩

/-- The scan that `r` began, after the calls in `between`. -/
structure Holds (plan : List ScanChannel) (r : Record) (between : List Record) (s : ScanPart) :
    Prop where
  token : s.token = r.after.scanToken
  count : s.count = plan.length
  channels : ∀ i, ∀ h : i < plan.length, s.channels i = plan[i]
  interface : s.interface = r.before.interface
  peer : s.peer = r.before.peer
  cancelled : s.cancelled = between.any Record.cancelsScan
  resume : s.resume =
    if r.before.state = .idle then .idle
    else if between.any Record.revokes then .associated
    else .authorized
  portless : r.before.state = .idle → between.any Record.revokes = false

theorem Holds.keep {s : ScanPart} (hh : Holds plan r between s)
    (hc : Record.cancelsScan x = false) (hr : Record.revokes x = false) :
    Holds plan r (x :: between) s :=
  ⟨hh.token, hh.count, hh.channels, hh.interface, hh.peer, by simp [hh.cancelled, hc],
    by simp [hh.resume, hr], fun hs => by rw [List.any_cons, hr, hh.portless hs]; rfl⟩

theorem Holds.cancel {s : ScanPart} (hh : Holds plan r between s)
    (hc : Record.cancelsScan x = true) (hr : Record.revokes x = false) :
    Holds plan r (x :: between) { s with cancelled := true } :=
  ⟨hh.token, hh.count, hh.channels, hh.interface, hh.peer, by simp [hc], by simp [hh.resume, hr],
    fun hs => by rw [List.any_cons, hr, hh.portless hs]; rfl⟩

theorem Holds.revoke {s : ScanPart} (hh : Holds plan r between s)
    (hc : Record.cancelsScan x = false) (hr : Record.revokes x = true) (hidle : s.resume ≠ .idle) :
    Holds plan r (x :: between) { s with resume := .associated } := by
  have hne : r.before.state ≠ .idle := fun hs => hidle (by simp [hh.resume, hs])
  exact ⟨hh.token, hh.count, hh.channels, hh.interface, hh.peer, by simp [hh.cancelled, hc],
    by simp [hne, hr], fun hs => absurd hs hne⟩

theorem Holds.resume_idle (hh : Holds plan r between c.scanPart) :
    c.scanResume = .idle ↔ r.before.state = .idle := by
  have hresume := hh.resume
  simp only [Controller.scanPart] at hresume
  rw [hresume]
  by_cases hs : r.before.state = .idle
  · simp [hs]
  · simp only [hs, if_false, iff_false]
    split <;> nofun

theorem Holds.homeChannel (hh : Holds plan r between c.scanPart) :
    c.homeChannel = Record.scanTarget r := by
  have hi : c.interface = r.before.interface := hh.interface
  have hp : c.peer = r.before.peer := hh.peer
  simp only [Controller.homeChannel, Record.scanTarget, hh.resume_idle, hi, hp]

theorem Holds.entry (hh : Holds plan r between c.scanPart) {i : Nat} (hi : i < plan.length) :
    c.channels i = plan[i] := hh.channels i hi

/-- The scan is where its state says. -/
structure Scanning (plan : List ScanChannel) (r : Record) (between : List Record)
    (c : Controller) : Prop where
  holds : Holds plan r between c.scanPart
  stage : Stage plan r.after.scanToken (Record.scanTarget r) (between.any Record.cancelsScan)
    c.state c.channelIndex (seen (between ++ [r])) (dwelt between)

theorem Scanning.stay (hg : Scanning plan r between c)
    (hh : Holds plan r (x :: between) d.scanPart) (hs : d.state = c.state)
    (hi : d.channelIndex = c.channelIndex) (hlog : steps x.log = [])
    (hx : Record.arrives x = none) : Scanning plan r (x :: between) d := by
  refine ⟨hh, ?_⟩
  rw [hs, hi, List.cons_append, seen_cons, hlog, List.append_nil, dwelt_cons, hx,
    Option.toList_none, List.append_nil]
  refine hg.stage.mono fun h => ?_
  rw [List.any_cons, Bool.or_eq_false_iff] at h
  exact h.2

theorem Scanning.home (hg : Scanning plan r between c)
    (hh : Holds plan r (x :: between) d.scanPart)
    (hs : c.state = .scanningBegin ∨ c.state = .scanningTune ∨ c.state = .scanningDwell)
    (hs' : d.state = .scanningRestore)
    (hc : d.scanCancelled = true ∨
      (c.state = .scanningDwell ∧ c.channelIndex + 1 = plan.length))
    (hlog : steps x.log = [.began .scanRestore d.homeChannel false])
    (hx : x.after = d) : Scanning plan r (x :: between) d := by
  refine ⟨hh, ?_⟩
  rw [hs', List.cons_append, seen_cons, hlog, dwelt_cons,
    Record.arrives_none (by rw [hx, hs']; nofun), Option.toList_none, List.append_nil,
    hh.homeChannel]
  refine Stage.home (hg.stage.mono fun h => ?_) hs (hc.imp_left fun h => ?_) _
  · rw [List.any_cons, Bool.or_eq_false_iff] at h
    exact h.2
  · rw [← hh.cancelled]
    exact h

/-- A call after which the scan is on its way to the next channel. -/
theorem Scanning.next (hg : Scanning plan r between c)
    (hh : Holds plan r (x :: between) d.scanPart)
    (hs : (c.state = .scanningBegin ∧ d.channelIndex = c.channelIndex) ∨
      (c.state = .scanningDwell ∧ d.channelIndex = c.channelIndex + 1))
    (hs' : d.state = .scanningTune) (hi : d.channelIndex < plan.length)
    (hlog : steps x.log = [.began .scanTune d.entry.channel d.entry.active])
    (hx : x.after = d) : Scanning plan r (x :: between) d := by
  refine ⟨hh, ?_⟩
  have hentry : d.entry = plan[d.channelIndex] := hh.entry hi
  rw [hs', List.cons_append, seen_cons, hlog, dwelt_cons,
    Record.arrives_none (by rw [hx, hs']; nofun), Option.toList_none, List.append_nil, hentry]
  have hstage := hg.stage
  rcases hs with ⟨hs, hidx⟩ | ⟨hs, hidx⟩
  · rw [hs] at hstage
    obtain ⟨h0, hvisited, hseen⟩ := hstage
    refine ⟨?_, hi, ?_⟩
    · rw [hvisited, hidx, h0, List.take_zero]
    · rw [hseen, hvisited]
      rfl
  · rw [hs] at hstage
    obtain ⟨-, hvisited, hseen⟩ := hstage
    refine ⟨?_, hi, ?_⟩
    · rw [hvisited, hidx]
    · rw [hseen]
      rfl

theorem Scanning.arrive (hg : Scanning plan r between c)
    (hh : Holds plan r (x :: between) d.scanPart) (hs : c.state = .scanningTune)
    (hs' : d.state = .scanningDwell) (hi : d.channelIndex = c.channelIndex)
    (hlog : steps x.log = if d.entry.active then [.probed d.scanToken d.entry] else [])
    (hx : x.before = c ∧ x.after = d) : Scanning plan r (x :: between) d := by
  refine ⟨hh, ?_⟩
  have hstage := hg.stage
  rw [hs] at hstage
  obtain ⟨hvisited, hlt, hseen⟩ := hstage
  have hentry : d.entry = plan[c.channelIndex] := by
    rw [Controller.entry, hi]
    exact hh.entry hlt
  have htoken : d.scanToken = r.after.scanToken := hh.token
  have harrives : Record.arrives x = some plan[c.channelIndex] := by
    simp [Record.arrives, hx.1, hx.2, hs, hs', hentry]
  have htake : plan.take (c.channelIndex + 1) = plan.take c.channelIndex ++ [plan[c.channelIndex]] :=
    (List.take_concat_get' _ _ _).symm
  rw [hs', List.cons_append, seen_cons, hlog, dwelt_cons, harrives, hi, hentry, htoken]
  refine ⟨hlt, ?_, ?_⟩
  · rw [hvisited, htake]
    rfl
  · rw [hseen]
    simp [visit]

theorem Completion.scanning {kind : Action} {now : UInt64} (hS : Sound c)
    (hg : Scanning plan r between c) (hw : c.waitingAction = true) (hk : kind = c.pendingAction)
    (hx : x.op = .actionComplete c.pendingToken kind true now ∧ x.log = gate ++ log ∧
      x.before = c ∧ x.after = c') (hs' : c'.scanning = true)
    (hm : Completion { c.clocked now with waitingAction := false } kind log c') :
    Scanning plan r (x :: between) c' ∧ c'.disconnectRequested = c.disconnectRequested := by
  have hstate : c.state = kind.state := by rw [(hS.action hw).2, hk]
  obtain ⟨hop, hlog, hbefore, hafter⟩ := hx
  have hkeep : Holds plan r (x :: between) c.scanPart :=
    hg.holds.keep (by simp [Record.cancelsScan, hop]) (by simp [Record.revokes, hop])
  have hcount : c.channelCount = plan.length := hg.holds.count
  have hin : c.state = .scanningBegin ∨ c.state = .scanningTune → c.channelIndex < plan.length := by
    intro h
    rw [← hcount]
    rcases h with h | h <;>
      exact hS.inPlan (by simp [Controller.scanning, h, State.rank]) (by simp [h]) (by simp [h])
  cases hm with
  | scanBegun hc =>
      refine ⟨hg.next hkeep (Or.inl ⟨hstate, rfl⟩) rfl (hin (Or.inl hstate)) ?_ hafter, rfl⟩
      rw [hlog, steps_append, steps_tuneTrace]
      rfl
  | scanBegunCancelled hc =>
      refine ⟨hg.home hkeep (Or.inl hstate) rfl (Or.inl hc) ?_ hafter, rfl⟩
      rw [hlog, steps_append, steps_restoreTrace]
      rfl
  | tuned hc =>
      refine ⟨hg.arrive hkeep hstate rfl rfl ?_ ⟨hbefore, hafter⟩, rfl⟩
      rw [hlog, steps_append, steps_dwellTrace]
      rfl
  | tunedCancelled hc =>
      refine ⟨hg.home hkeep (Or.inr (Or.inl hstate)) rfl (Or.inl hc) ?_ hafter, rfl⟩
      rw [hlog, steps_append, steps_restoreTrace]
      rfl
  | scanRestored =>
      refine ⟨⟨hkeep, ?_⟩, rfl⟩
      have hstage := hg.stage
      rw [hstate] at hstage
      obtain ⟨tuned, htuned, hseen⟩ := hstage
      have hnone : Record.arrives x = none := Record.arrives_none (by rw [hafter]; rintro ⟨⟩)
      rw [List.cons_append, seen_cons, hlog, dwelt_cons, hnone, steps_append, steps_actionTrace,
        hseen, Option.toList_none, List.append_nil]
      refine ⟨tuned, htuned.mono fun h => ?_, by simp⟩
      rw [List.any_cons, Bool.or_eq_false_iff] at h
      exact h.2
  | scanEnded hd =>
      have hr := hS.resume (hS.scanning_of_pending hw hk rfl)
      rcases hr with hr | hr | hr <;> simp [Controller.scanning, hr, State.rank] at hs'
  | _ => cases hs'

/-- The step lemma: a move that begins and ends in the scan. -/
theorem Move.scanning (hS : Sound c) (hg : Scanning plan r between c) (hs : c.scanning = true)
    (hs' : c'.scanning = true) (hm : Move c op log ok c') :
    Scanning plan r (⟨c, op, log, ok, c'⟩ :: between) c' ∧
      ((∀ now, op ≠ .disconnect now) → c'.disconnectRequested = c.disconnectRequested) := by
  have hcount : c.channelCount = plan.length := hg.holds.count
  have hin : c.state = .scanningDwell → c.channelIndex < plan.length := fun hd => by
    rw [← hcount]
    exact hS.inPlan hs (by simp [hd]) (by simp [hd])
  have hnot : ∀ {state : State}, c.state = state →
      (State.scanningBegin.rank ≤ state.rank && state.rank ≤ State.scanningEnd.rank) = false →
      False := fun h hn => by
    rw [Controller.scanning, h, hn] at hs
    cases hs
  cases hm with
  | closed =>
      exact ⟨hg.stay (hg.holds.keep rfl rfl) rfl rfl rfl (Record.arrives_same rfl), fun _ => rfl⟩
  | refused hc =>
      exact ⟨hg.stay (hg.holds.keep rfl rfl) rfl rfl rfl (Record.arrives_same rfl), fun _ => rfl⟩
  | restartUnverified =>
      exact ⟨hg.stay (hg.holds.keep rfl rfl) rfl rfl rfl (Record.arrives_same rfl), fun _ => rfl⟩
  | restartUnpaused =>
      exact ⟨hg.stay (hg.holds.keep rfl rfl) rfl rfl rfl (Record.arrives_same rfl), fun _ => rfl⟩
  | scan hidle hw hlen hmax hall =>
      rcases hidle with h | h <;> exact (hnot h rfl).elim
  | cancelScan _ ht hd =>
      exact ⟨hg.stay (hg.holds.cancel rfl rfl) rfl rfl rfl (Record.arrives_same rfl), fun _ => rfl⟩
  | cancelDwell ht hd hw =>
      refine ⟨hg.home (hg.holds.cancel rfl rfl) (Or.inr (Or.inr hd)) rfl (Or.inl rfl) ?_ rfl,
        fun _ => rfl⟩
      rw [steps_append, steps_restoreTrace]
      rfl
  | nextChannel hd hw ht hc hn =>
      have hlt : c.channelIndex + 1 < plan.length :=
        lt_of_le_of_ne (hin hd) (by rw [← hcount]; exact hn)
      refine ⟨hg.next (hg.holds.keep rfl rfl) (Or.inr ⟨hd, rfl⟩) rfl hlt ?_ rfl, fun _ => rfl⟩
      rw [steps_append, steps_tuneTrace]
      rfl
  | lastChannel hd hw ht hc hn =>
      refine ⟨hg.home (hg.holds.keep rfl rfl) (Or.inr (Or.inr hd)) rfl
        (Or.inr ⟨hd, by rw [← hcount]; exact hn⟩) ?_ rfl, fun _ => rfl⟩
      rw [steps_append, steps_restoreTrace]
      rfl
  | dwellCancelled hd hw ht hc =>
      refine ⟨hg.home (hg.holds.keep rfl rfl) (Or.inr (Or.inr hd)) rfl (Or.inl hc) ?_ rfl,
        fun _ => rfl⟩
      rw [steps_append, steps_restoreTrace]
      rfl
  | authenticated hs ht hb hn => exact (hnot hs rfl).elim
  | revokeScan ht hs hr =>
      exact ⟨hg.stay (hg.holds.revoke rfl rfl hr) rfl rfl rfl (Record.arrives_same rfl),
        fun _ => rfl⟩
  | disconnectIdle hs => exact (hnot hs rfl).elim
  | disconnectScan hs hd =>
      exact ⟨hg.stay (hg.holds.cancel rfl rfl) rfl rfl rfl (Record.arrives_same rfl),
        fun h => absurd rfl (h _)⟩
  | disconnectDwell hd hw =>
      refine ⟨hg.home (hg.holds.cancel rfl rfl) (Or.inr (Or.inr hd)) rfl (Or.inl rfl) ?_ rfl,
        fun h => absurd rfl (h _)⟩
      rw [steps_append, steps_append, steps_restoreTrace]
      rfl
  | disconnectScanClosed hs =>
      exact ⟨hg.stay (hg.holds.keep rfl rfl) rfl rfl rfl (Record.arrives_same rfl),
        fun h => absurd rfl (h _)⟩
  | disconnectDeferred hw hlo hhi =>
      cases hk : c.state <;> simp [hk, Controller.scanning, State.rank] at hs hlo hhi
  | tick hc =>
      exact ⟨hg.stay (hg.holds.keep rfl rfl) rfl rfl rfl (Record.arrives_same rfl), fun _ => rfl⟩
  | actionComplete hw ht hk hd h =>
      subst ht
      have hstep := h.scanning (x := ⟨c, .actionComplete _ _ true _, _, true, c'⟩) hS hg hw hk
        ⟨rfl, rfl, rfl, rfl⟩ hs'
      exact ⟨hstep.1, fun _ => hstep.2⟩
  | firmwareEvent hw he hack hdone hseq hcmd hrc hd h => cases h <;> cases hs'
  | _ => cases hs'

/-! ## Disconnects and links -/

/-- In an associated or authorized state no disconnect is waiting to be honoured. -/
theorem Move.linked_calm (hS : Sound c) (hc : c.linked = true → c.disconnectRequested = false)
    (hl : c'.linked = true) (hm : Move c op log ok c') : c'.disconnectRequested = false := by
  cases hm with
  | authorizePort hs ht => exact hc (by simp [Controller.linked, hs])
  | revokePort ht hs => exact hc hs
  | disconnectScan hs hd =>
      have hl' : c.state = .associated ∨ c.state = .authorized := by
        simpa [Controller.linked] using hl
      rcases hl' with h | h <;> simp [Controller.scanning, h, State.rank] at hs
  | disconnectScanClosed hs =>
      have hl' : c.state = .associated ∨ c.state = .authorized := by
        simpa [Controller.linked] using hl
      rcases hl' with h | h <;> simp [Controller.scanning, h, State.rank] at hs
  | disconnectDeferred hw hlo hhi =>
      have hl' : c.state = .associated ∨ c.state = .authorized := by
        simpa [Controller.linked] using hl
      rcases hl' with h | h <;> exact (hS.not_busy h rfl hw).elim
  | actionComplete hw ht hk hd h =>
      cases h with
      | scanEnded hd => exact hd
      | camInstalled hd => exact hd
      | _ => cases hl
  | firmwareEvent hw he hack hdone hseq hcmd hrc hd h => cases h <;> cases hl
  | _ => first | exact hc hl | cases hl

theorem Run.linked_calm (hrun : Run h c) : c.linked = true → c.disconnectRequested = false := by
  refine Run.induction (P := fun _ c => c.linked = true → c.disconnectRequested = false) nofun ?_ hrun
  intro h c c' op log ok _ hS ih hspec hl
  rcases hspec with ⟨-, hf⟩ | hm
  · simp [Controller.linked, hf.state] at hl
  · exact hm.linked_calm hS ih hl

/-- What a `disconnect` asks of a scan, exactly. -/
theorem disconnect_scanning (hs : c.scanning = true) (now : UInt64) :
    (disconnect now).wp (fun log ok c' => c'.state = .faulted ∨
      c'.disconnectRequested = (c.disconnectRequested ||
        (Record.asksToLeave ⟨c, .disconnect now, log, ok, c'⟩ && c.scanResume != .idle))) c := by
  have hc : c.state ≠ .faulted := fun h => by simp [Controller.scanning, h, State.rank] at hs
  have hF : FaultOk True (fun log ok c' => c'.state = .faulted ∨
      c'.disconnectRequested = (c.disconnectRequested ||
        (Record.asksToLeave ⟨c, .disconnect now, log, ok, c'⟩ && c.scanResume != .idle))) :=
    fun _ _ hf => Or.inl hf.state
  refine wp_time_guard hF (fun ok hok => ?_) (fun _ _ => trivial) fun _ => ?_
  · have hno : ok = false := by
      by_contra h
      exact hc (hok (by simpa using h))
    subst hno
    exact Or.inr (by simp [Record.asksToLeave])
  refine wp_expire_guard (hF.after gate) hc (fun _ => trivial) (fun _ => trivial) (fun _ _ => ?_)
    fun hlate => ?_
  · simp only [wp_get_bind, wp_ite, wp_pure, wp_set_bind]
    refine ⟨fun h => ?_, fun _ => ⟨fun _ => ?_, fun h => absurd hs h⟩⟩
    · have h' : c.state = .idle := h
      simp [Controller.scanning, h', State.rank] at hs
    · have hcancel : (cancelScan c.scanToken now).wp (fun log ok c' => c'.state = .faulted ∨
            c'.disconnectRequested = (c.disconnectRequested ||
              (Record.asksToLeave ⟨c, .disconnect now, gate ++ log, ok, c'⟩ &&
                c.scanResume != .idle)))
          { c.clocked now with
            disconnectRequested := c.disconnectRequested || c.scanResume != .idle } :=
        wp_cancelScan
          (c := { c.clocked now with
            disconnectRequested := c.disconnectRequested || c.scanResume != .idle })
          (hF.after gate) hc hs rfl (fun _ => trivial) (fun _ => trivial) (fun _ _ => trivial)
          (Or.inr rfl) (fun _ => Or.inr rfl) fun _ _ => Or.inr rfl
      refine ⟨fun hr => ?_, fun hr => ?_⟩
      · have hb : (c.scanResume != .idle) = true := bne_iff_ne.2 hr
        rw [hb, Bool.or_true] at hcancel
        rw [hb]
        exact hcancel
      · have hb : (c.scanResume != .idle) = false := by simpa using hr
        rw [hb, Bool.or_false] at hcancel
        rw [hb]
        exact hcancel
  · have h' : c.state = .authenticating := hlate.2.1
    simp [Controller.scanning, h', State.rank] at hs

/-! ## The whole scan -/

theorem Record.scanned {now : UInt64} (hop : r.op = .scan (some plan) now) (hok : r.result = true)
    (hspec : Spec r.before r.op r.log r.result r.after) :
    Scanning plan r [] r.after ∧ (r.before.state = .idle ∨ r.before.state = .authorized) ∧
      (0 < plan.length ∧ plan.length ≤ 64) ∧ r.after.scanning = true ∧
      r.after.disconnectRequested = r.before.disconnectRequested := by
  obtain ⟨c, op, log, ok, c'⟩ := r
  obtain rfl : op = .scan (some plan) now := hop
  obtain rfl : ok = true := hok
  have hspec : Spec c (.scan (some plan) now) log true c' := hspec
  rcases hspec with ⟨hf, -⟩ | hm
  · cases hf
  · cases hm with
    | scan hs hw hlen hmax hall =>
        refine ⟨⟨⟨rfl, rfl, fun i hi => ?_, rfl, rfl, rfl, ?_, fun _ => rfl⟩, rfl, rfl, ?_⟩, hs, ⟨hlen, hmax⟩, rfl,
          rfl⟩
        · simp [Controller.scanPart, List.getD_eq_getElem?_getD, hi]
        · rcases hs with hs | hs <;> simp [Controller.scanPart, hs]
        · simp [seen, begin_]

/-- The run lemma: the scan that `r` began, as long as it lasts. -/
theorem Run.scanning {earlier : List Record} {now : UInt64} (hop : r.op = .scan (some plan) now)
    (hok : r.result = true) :
    ∀ {c : Controller}, Run (between ++ r :: earlier) c →
      (∀ y ∈ between, y.after.scanning = true) →
      Scanning plan r between c ∧ c.scanning = true ∧
        c.disconnectRequested = (r.before.state != .idle && between.any Record.asksToLeave) := by
  induction between with
  | nil =>
      intro c hrun _
      obtain ⟨hbefore, rfl, hout⟩ := hrun.tail
      have hspec := wp_outcome (exec_spec (Run.sound hbefore) r.op) hout
      obtain ⟨hg, horigin, -, hs, hd⟩ := Record.scanned hop hok hspec
      refine ⟨hg, hs, ?_⟩
      rw [hd, List.any_nil, Bool.and_false]
      rcases horigin with ho | ho
      · have hfarewell := Run.farewell hbefore
        simp only [Farewell, ho] at hfarewell
        exact hfarewell.requested
      · exact Run.linked_calm hbefore (by simp [Controller.linked, ho])
  | cons y between ih =>
      intro c hrun hin
      obtain ⟨hbefore, rfl, hout⟩ := hrun.tail
      obtain ⟨hg, hs, hd⟩ := ih hbefore fun z hz => hin z (List.mem_cons_of_mem _ hz)
      have hs' := hin y List.mem_cons_self
      have hS := Run.sound hbefore
      have hfaulted : y.after.state ≠ .faulted := fun h => by
        simp [Controller.scanning, h, State.rank] at hs'
      rcases wp_outcome (exec_spec hS y.op) hout with ⟨-, hf⟩ | hm
      · exact absurd hf.state hfaulted
      · obtain ⟨hg', hkeep⟩ := hm.scanning hS hg hs hs'
        refine ⟨hg', hs', ?_⟩
        by_cases hdis : ∃ now, y.op = .disconnect now
        · obtain ⟨now', hdis⟩ := hdis
          obtain ⟨c, op, log, ok, c'⟩ := y
          obtain rfl : op = .disconnect now' := hdis
          have hresume : (c.scanResume != .idle) = (r.before.state != .idle) := by
            rw [Bool.eq_iff_iff, bne_iff_ne, bne_iff_ne, ne_eq, ne_eq, hg.holds.resume_idle]
          rcases wp_outcome (disconnect_scanning hs now') hout with h | h
          · exact absurd h hfaulted
          · rw [h, hd, hresume, List.any_cons, Bool.and_comm _ (_ != _), ← Bool.and_or_distrib_left,
              Bool.or_comm]
        · have hask : Record.asksToLeave y = false := by
            unfold Record.asksToLeave
            split
            · exact absurd ⟨_, ‹_›⟩ hdis
            · rfl
          rw [hkeep fun now' h => hdis ⟨now', h⟩, hd, List.any_cons, hask, Bool.false_or]

/-- What a finished scan was: `x` is the call that ends it. -/
structure Scanned (plan : List ScanChannel) (r : Record) (between : List Record) (x : Record) :
    Prop where
  length : 0 < plan.length ∧ plan.length ≤ 64
  origin : r.before.state = .idle ∨ r.before.state = .authorized
  sequence : ∃ tuned,
    Tuned plan r.after.scanToken (between.any Record.cancelsScan) (dwelt between) tuned ∧
    seen (x :: (between ++ [r])) =
      begin_ :: tuned ++ [.began .scanRestore (Record.scanTarget r) false,
        .began .scanEnd {} false,
        .finished r.after.scanToken (between.any Record.cancelsScan)] ++
      if r.before.state ≠ .idle ∧ between.any Record.asksToLeave = true then
        [.began .disconnectCmac {} false]
      else []
  state : x.after.state =
    if r.before.state ≠ .idle ∧ between.any Record.asksToLeave = true then .disconnectingCmac
    else if between.any Record.revokes = true then .associated
    else r.before.state

theorem Completion.scanned {kind : Action} {now : UInt64} (hS : Sound c)
    (hg : Scanning plan r between c) (hw : c.waitingAction = true) (hk : kind = c.pendingAction)
    (hlog : x.log = gate ++ log) (hs : c.scanning = true) (hs' : c'.scanning = false)
    (hm : Completion { c.clocked now with waitingAction := false } kind log c') :
    (∃ tuned, Tuned plan r.after.scanToken (between.any Record.cancelsScan) (dwelt between) tuned ∧
      seen (x :: (between ++ [r])) =
        begin_ :: tuned ++ [.began .scanRestore (Record.scanTarget r) false,
          .began .scanEnd {} false,
          .finished r.after.scanToken (between.any Record.cancelsScan)] ++
        if c.disconnectRequested = true then [.began .disconnectCmac {} false] else []) ∧
    c'.state = if c.disconnectRequested = true then .disconnectingCmac else c.scanResume := by
  have hstate : c.state = kind.state := by rw [(hS.action hw).2, hk]
  have hnot : (State.scanningBegin.rank ≤ kind.state.rank &&
      kind.state.rank ≤ State.scanningEnd.rank) = false → False := fun hn => by
    rw [Controller.scanning, hstate, hn] at hs
    cases hs
  have htoken : c.scanToken = r.after.scanToken := hg.holds.token
  have hcancelled : c.scanCancelled = between.any Record.cancelsScan := hg.holds.cancelled
  have hend : kind = .scanEnd → ∃ tuned,
      Tuned plan r.after.scanToken (between.any Record.cancelsScan) (dwelt between) tuned ∧
      seen (between ++ [r]) = begin_ :: tuned ++ [.began .scanRestore (Record.scanTarget r) false,
        .began .scanEnd {} false] := fun hk => by
    have hstage := hg.stage
    rw [hstate, hk] at hstage
    exact hstage
  cases hm with
  | scanEnded hd =>
      have hd' : c.disconnectRequested = false := hd
      obtain ⟨tuned, htuned, hseen⟩ := hend rfl
      refine ⟨⟨tuned, htuned, ?_⟩, by rw [hd']; rfl⟩
      have hsteps : steps x.log = [.finished c.scanToken c.scanCancelled] := by
        rw [hlog]
        rfl
      rw [seen_cons, hseen, hsteps, hd', htoken, hcancelled]
      simp
  | scanEndedLeaving hd =>
      have hd' : c.disconnectRequested = true := hd
      obtain ⟨tuned, htuned, hseen⟩ := hend rfl
      refine ⟨⟨tuned, htuned, ?_⟩, by rw [hd']; rfl⟩
      have hsteps : steps x.log =
          [.finished c.scanToken c.scanCancelled, .began .disconnectCmac {} false] := by
        rw [hlog]
        exact congrArg (_ :: ·) (steps_disconnectTrace c)
      rw [seen_cons, hseen, hsteps, hd', htoken, hcancelled]
      simp
  | scanBegun hc => cases hs'
  | scanBegunCancelled hc => cases hs'
  | tuned hc => cases hs'
  | tunedCancelled hc => cases hs'
  | scanRestored => cases hs'
  | _ => exact (hnot rfl).elim

def Record.restarts (r : Record) : Bool := r.result && r.op matches .restart _ _

theorem Move.scanned (hS : Sound c) (hg : Scanning plan r between c) (hs : c.scanning = true)
    (hs' : c'.scanning = false) (hx : Record.restarts ⟨c, op, log, ok, c'⟩ = false)
    (hm : Move c op log ok c') :
    (∃ tuned, Tuned plan r.after.scanToken (between.any Record.cancelsScan) (dwelt between) tuned ∧
      seen (⟨c, op, log, ok, c'⟩ :: (between ++ [r])) =
        begin_ :: tuned ++ [.began .scanRestore (Record.scanTarget r) false,
          .began .scanEnd {} false,
          .finished r.after.scanToken (between.any Record.cancelsScan)] ++
        if c.disconnectRequested = true then [.began .disconnectCmac {} false] else []) ∧
    c'.state = if c.disconnectRequested = true then .disconnectingCmac else c.scanResume := by
  have hnot : ∀ {state : State}, c.state = state →
      (State.scanningBegin.rank ≤ state.rank && state.rank ≤ State.scanningEnd.rank) = false →
      False := fun h hn => by
    rw [Controller.scanning, h, hn] at hs
    cases hs
  have hkept : c.scanning = false → False := fun h => by
    rw [h] at hs
    cases hs
  have hlate : ∀ {now}, c.timedOut now → False := fun hn => hnot hn.2.1 rfl
  cases hm with
  | actionComplete hw ht hk hd h =>
      exact h.scanned (x := ⟨c, .actionComplete _ _ true _, _, true, c'⟩) hS hg hw hk rfl hs hs'
  | firmwareEvent hw he hack hdone hseq hcmd hrc hd h =>
      have hid := hS.command hw
      exact absurd hs (State.command_not_scanning hid)
  | restart he hlt => cases hx
  | start h hw he ha => exact (hnot h rfl).elim
  | stop h hw hb => exact (hnot h rfl).elim
  | connect h hw hb hl hv => exact (hnot h rfl).elim
  | authenticated h ht hb hn => exact (hnot h rfl).elim
  | authenticatedLate ht hb hn => exact (hlate hn).elim
  | authenticationFailed h hw ht hb hn => exact (hnot h rfl).elim
  | associationReceived h hw ha ht hb hch h0 h1 hn => exact (hnot h rfl).elim
  | associationRejected h hw ha ht hb h0 hn => exact (hnot h rfl).elim
  | authorizePort h ht => exact (hnot h rfl).elim
  | revokePort ht h =>
      have h' : c.state = .associated ∨ c.state = .authorized := by
        simpa [Controller.linked] using h
      rcases h' with h' | h' <;> exact (hnot h' rfl).elim
  | revokeTimedOut ht hn => exact (hlate hn).elim
  | disconnectNow hw hlo hhi hn =>
      cases hk : c.state <;> simp [hk, Controller.scanning, State.rank] at hs hlo hhi
  | disconnectTimedOut hn => exact (hlate hn).elim
  | tickTimedOut hn => exact (hlate hn).elim
  | _ => first | exact (hkept hs').elim | cases hs'

/-- Over every run: the backend sees an accepted scan as `scanBegin`, the channels of the plan in
order (all of them unless the scan is cancelled) with one probe for each active channel it dwelt on,
`scanRestore` to the channel it came from, `scanEnd` and one `scanFinished`.  The plan is never read
out of bounds.  The scan ends where it began; a revoked port ends it in `associated`, and a
disconnect the gate let in, if the scan began with a link, in the disconnect sequence. -/
theorem scan_protocol (hrun : Run h c) :
    (∀ {later between earlier : List Record} {x r : Record} {plan : List ScanChannel} {now : UInt64},
      h = later ++ x :: (between ++ r :: earlier) → r.op = .scan (some plan) now →
      r.result = true → (∀ y ∈ between, y.after.scanning = true) → x.after.scanning = false →
      x.after.state ≠ .faulted → Record.restarts x = false → Scanned plan r between x) ∧
    (∀ y ∈ h, ∀ index count, .note (.channelRead index count) ∈ y.log → index < count) := by
  refine ⟨fun {later between earlier x r plan now} hh hop hok hin hout hfaulted hrestart => ?_,
    fun y hy index count hread => (Run.orderly hrun hy).events _ hread⟩
  subst hh
  obtain ⟨hbefore, -, houtx⟩ := (Interaction.Run.drop hrun).tail
  obtain ⟨hg, hs, hd⟩ := Run.scanning hop hok hbefore hin
  have hS := Run.sound hbefore
  obtain ⟨hr, -, houtr⟩ := (Interaction.Run.drop hbefore).tail
  obtain ⟨-, horigin, hlen, -, -⟩ :=
    Record.scanned hop hok (wp_outcome (exec_spec (Run.sound hr) r.op) houtr)
  have hleave : x.before.disconnectRequested = true ↔
      r.before.state ≠ .idle ∧ between.any Record.asksToLeave = true := by
    rw [hd, Bool.and_eq_true, bne_iff_ne]
  rcases wp_outcome (exec_spec hS x.op) houtx with ⟨-, hf⟩ | hm
  · exact absurd hf.state hfaulted
  · obtain ⟨hsequence, hstate⟩ := hm.scanned hS hg hs hout hrestart
    simp only [hleave] at hsequence hstate
    refine ⟨hlen, horigin, hsequence, ?_⟩
    have hresume : x.before.scanResume = if r.before.state = .idle then .idle
        else if between.any Record.revokes then .associated else .authorized := hg.holds.resume
    rw [hstate, hresume]
    rcases horigin with ho | ho
    · simp [ho, hg.holds.portless ho]
    · simp [ho]

def surveyPlan : List ScanChannel :=
  [⟨{ center := 1, primary := 1 }, 10, true⟩, ⟨{ center := 11, primary := 11 }, 10, false⟩]

/-- A scan of an authorized link, during which the port is revoked. -/
def survey : List Op :=
  linkUp ++
    [.authorizePort ⟨1, 5⟩ 13, .scan (some surveyPlan) 14,
      .actionComplete ⟨1, 11⟩ .scanBegin true 15, .actionComplete ⟨1, 12⟩ .scanTune true 16,
      .revokePort ⟨1, 5⟩ 17, .tick 10016, .actionComplete ⟨1, 13⟩ .scanTune true 10017, .tick 20017,
      .actionComplete ⟨1, 14⟩ .scanRestore true 20018, .actionComplete ⟨1, 15⟩ .scanEnd true 20019]

theorem scan_protocol_survey :
    ∃ x between r earlier, history survey = x :: (between ++ r :: earlier) ∧
      Scanned surveyPlan r between x ∧ r.before.state = .authorized ∧ x.after.state = .associated := by
  have hsplit : history survey = [] ++ (history survey)[0] ::
      ((history survey).tail.take 7 ++ (history survey)[8] :: (history survey).drop 9) := rfl
  have hop : (history survey)[8].op = .scan (some surveyPlan) 14 := rfl
  exact ⟨_, _, _, _, hsplit, (scan_protocol (run_history survey)).1 hsplit hop rfl
    (by decide +kernel) (by decide +kernel) (by decide +kernel) (by decide +kernel),
    by decide +kernel, by decide +kernel⟩

/-- A scan begun in `idle` and cancelled by a disconnect. -/
def abandoned : List Op :=
  bringUp ++
    [.scan (some surveyPlan) 6, .disconnect 7, .actionComplete ⟨1, 6⟩ .scanBegin true 8,
      .actionComplete ⟨1, 7⟩ .scanRestore true 9, .actionComplete ⟨1, 8⟩ .scanEnd true 10]

/-- It ends in `idle`: with no association there is nothing to disconnect, and no disconnect
sequence begins although the disconnect was accepted. -/
theorem disconnect_of_idle_scan :
    ∃ x between r earlier, history abandoned = x :: (between ++ r :: earlier) ∧
      Run (history abandoned) (final abandoned) ∧
      r.op = .scan (some surveyPlan) 6 ∧ r.result = true ∧
      (∀ y ∈ between, y.after.scanning = true) ∧
      (∃ y ∈ between, y.op = .disconnect 7 ∧ y.result = true) ∧
      x.after.state = .idle ∧
      Step.began .disconnectCmac {} false ∉ seen (x :: (between ++ [r])) := by
  have hsplit : history abandoned = (history abandoned)[0] ::
      ([(history abandoned)[1], (history abandoned)[2], (history abandoned)[3]] ++
        (history abandoned)[4] :: (history abandoned).drop 5) := rfl
  exact ⟨_, _, _, _, hsplit, run_history abandoned, rfl, rfl, by decide +kernel,
    ⟨_, List.mem_cons_of_mem _ (List.mem_cons_of_mem _ List.mem_cons_self), rfl, rfl⟩,
    by decide +kernel, by decide +kernel⟩

end Station
end Rtl8852be
