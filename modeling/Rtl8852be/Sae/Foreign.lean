import Rtl8852be.Sae.Schedule

/-!
# Foreign — frames of other stations

Two runs of one exchange over the same session are compared: one with additional frames that are not from
the peer to the station, and one without.  `Rel` relates the two exchanges between calls: they are equal
but for the time they were last shown, or both of them can only fail.
-/

namespace Rtl8852be
namespace Sae

open Interaction

/-! ## Two runs -/

/-- One call of a run, with what it returned.  It may have been inserted into another run. -/
structure Response where
  inserted : Bool
  op : Op
  before : Exchange
  answer : Answer

section Runs

variable {β : Type}

def respond (env : (c : Call) → β → Reply c × β) : List (Bool × Op) → Exchange → β → List Response
  | [], _, _ => []
  | (inserted, op) :: ms, x, b =>
      let (_, (answer, x'), b') := (exec op x).run env b
      ⟨inserted, op, x, answer⟩ :: respond env ms x' b'

/-- The run into which calls were inserted. -/
def original (ms : List (Bool × Op)) : List (Bool × Op) := ms.filter fun p => !p.1

def Op.isStart : Op → Bool
  | .start _ _ => true
  | _ => false

def AfterStart : Bool → List (Bool × Op) → Prop
  | _, [] => True
  | started, (inserted, op) :: ms => (inserted = true → started = true) ∧ AfterStart (started || op.isStart) ms

/-- A frame that is not from the peer, or not to the station. -/
def Foreign (own peer : Address) (op : Op) : Prop :=
  ∃ source destination body now, op = .receive (some source) (some destination) (some body) now true ∧
    (source ≠ peer ∨ destination ≠ own)

/-- The answer to a frame that is ignored. -/
def Ignored (r : Response) : Prop :=
  r.answer = .exchanged .idle (some {}) ∨
    r.answer = .exchanged .error (some {}) ∧
      (Over r.before ∨ ∃ now, r.op.time = some now ∧ r.before.deadlineMs ≤ now)

/-! ## Exchanges that can only fail -/

/-- What a call returns when there is nothing left to do. -/
def Op.refusal : Op → Answer
  | .cancel => .cancelled
  | .exportKeys _ _ => .exported true {}
  | op => .exchanged .error (blank op.out)

/-- The exchange is over, or will be at the next look at the clock. -/
def Doomed (x : Exchange) (times : List UInt64) : Prop :=
  Over x ∨ Waiting x ∧ ∀ t ∈ times, x.deadlineMs ≤ t

theorem refusal_of_time {op : Op} (htime : op.time.isSome) : op.refusal = .exchanged .error (blank op.out) := by
  cases op with
  | cancel => exact Bool.noConfusion htime
  | exportKeys => exact Bool.noConfusion htime
  | start => rfl
  | receive => rfl
  | poll => rfl

theorem Went.doomed {x x' : Exchange} {op : Op} {log : Trace} {answer : Answer} (times : List UInt64)
    (hwent : Went x op log answer x') (hx : Doomed x (op.time.toList ++ times)) (hcancel : op ≠ .cancel) :
    answer = op.refusal ∧ Doomed x' times := by
  have hlater : Doomed x times := hx.imp_right fun h => ⟨h.1, fun t ht => h.2 t (List.mem_append_right _ ht)⟩
  have hlate : ∀ {now : UInt64}, op.time = some now → ¬ Timely x now := by
    intro now htime htimely
    rcases hx with hover | ⟨hwaiting, htimes⟩
    · exact not_underWay hover htimely.live
    · refine UInt64.not_lt.2 (htimes now ?_) (htimely.deadline hwaiting)
      rw [htime]
      exact List.mem_append_left _ (List.mem_singleton_self now)
  have hnot : ∀ {s : ExchangeState}, s = .ready ∨ s = .accepted → x.state ≠ s := by
    rintro s hs rfl
    rcases hx with (h | h) | ⟨h | h, -⟩ <;> rcases hs with hs | hs <;> exact ExchangeState.noConfusion (h.symm.trans hs)
  cases hwent with
  | failed htime hstate _ _ _ _ => exact ⟨(refusal_of_time htime).symm, Or.inl (Or.inl hstate)⟩
  | gone _ htime => exact ⟨(refusal_of_time htime).symm, hlater⟩
  | repeated _ => exact ⟨rfl, hlater⟩
  | withheld => exact ⟨rfl, hlater⟩
  | cancelled => exact absurd rfl hcancel
  | started hstate _ _ _ => exact absurd hstate (hnot (Or.inl rfl))
  | exported hstate => exact absurd hstate (hnot (Or.inr rfl))
  | ignored _ htime _ htimely => exact absurd htimely (hlate htime)
  | committed _ htimely _ _ _ => exact absurd htimely (hlate rfl)
  | resentCommit _ htimely _ _ => exact absurd htimely (hlate rfl)
  | resentConfirm _ htimely _ _ _ _ => exact absurd htimely (hlate rfl)
  | accepted _ htimely _ => exact absurd htimely (hlate rfl)

/-! ## Exchanges that differ in the time they were last shown -/

theorem checkTime_eq {x : Exchange} {now : UInt64} (hx : UnderWay x) (hlast : x.lastMs ≤ now) :
    checkTime now x = (if x.state ≠ .accepted ∧ x.deadlineMs ≤ now then fail .timeout else pure .idle)
      { x with lastMs := now } := by
  have hover : ¬ (x.state = .failed ∨ x.state = .cancelled) := fun hover => not_underWay hover hx
  have hready : ¬ x.state = .ready := by
    intro hready
    rcases hx with (h | h) | h <;> exact ExchangeState.noConfusion (h.symm.trans hready)
  show (if x.state = .failed ∨ x.state = .cancelled then _ else _ : Gated ExchangeResult) x = _
  rw [if_neg hover, if_neg hready, if_neg (UInt64.not_lt.2 hlast)]
  rfl

/-- Once it is known that the clock did not run backwards, the last time is forgotten. -/
theorem receiveFrame_forgets {x : Exchange} {now l : UInt64} {source destination : Address} {body : List UInt8}
    (hx : UnderWay x) (hlast : x.lastMs ≤ now) (hl : l ≤ now) :
    receiveFrame source destination body now { x with lastMs := l } = receiveFrame source destination body now x := by
  show (checkTime now _).bind _ = (checkTime now _).bind _
  rw [checkTime_eq (x := { x with lastMs := l }) hx hl, checkTime_eq hx hlast]

theorem poll_forgets {x : Exchange} {now l : UInt64} (hx : UnderWay x) (hlast : x.lastMs ≤ now) (hl : l ≤ now) :
    poll now true { x with lastMs := l } = poll now true x := by
  show (checkTime now _).bind _ = (checkTime now _).bind _
  rw [checkTime_eq (x := { x with lastMs := l }) hx hl, checkTime_eq hx hlast]

theorem receiveFrame_foreign {x : Exchange} {now : UInt64} {source destination : Address} {body : List UInt8}
    (hx : UnderWay x) (hlast : x.lastMs ≤ now) (hdeadline : Waiting x → now < x.deadlineMs)
    (hforeign : source ≠ x.peer ∨ destination ≠ x.own) :
    receiveFrame source destination body now x =
      .done (.exchanged .idle (some {}), { x with lastMs := now }) := by
  have hintime : ¬ (x.state ≠ .accepted ∧ x.deadlineMs ≤ now) := by
    rintro ⟨hnot, hle⟩
    exact UInt64.not_lt.2 hle (hdeadline (hx.resolve_right hnot))
  show (checkTime now x).bind _ = _
  rw [checkTime_eq hx hlast, if_neg hintime]
  show (if x.state = .accepted then _ else if source ≠ x.peer ∨ destination ≠ x.own then _ else _ : Gated Answer) _ = _
  rw [if_pos hforeign]
  by_cases haccepted : x.state = .accepted
  · rw [if_pos haccepted]
    rfl
  · rw [if_neg haccepted]
    rfl

/-! ## One call -/

section Went

variable {x x' : Exchange} {op : Op} {log : Trace} {answer : Answer}

/-- At the deadline every look at the clock ends the exchange. -/
theorem Went.late {now : UInt64} (hwent : Went x op log answer x') (hop : op.clocked = true)
    (htime : op.time = some now) (hwaiting : Waiting x) (hlate : x.deadlineMs ≤ now) :
    answer = .exchanged .error (blank op.out) ∧ x'.state = .failed := by
  have hnot : ∀ {t : UInt64}, some t = some now → ¬ Timely x t := by
    rintro t ⟨⟩ htimely
    exact UInt64.not_lt.2 hlate (htimely.deadline hwaiting)
  cases hwent with
  | failed _ hstate _ _ _ _ => exact ⟨rfl, hstate⟩
  | gone hover _ => exact absurd (Or.inl hwaiting) (not_underWay hover)
  | ignored _ htime' _ htimely => exact absurd htimely (hnot (htime'.symm.trans htime))
  | committed _ htimely _ _ _ => exact absurd htimely (hnot htime)
  | resentCommit _ htimely _ _ => exact absurd htimely (hnot htime)
  | resentConfirm _ htimely _ _ _ _ => exact absurd htimely (hnot htime)
  | accepted _ htimely _ => exact absurd htimely (hnot htime)
  | repeated | started | cancelled | exported | withheld => exact Bool.noConfusion hop

/-- What a call leaves of an exchange that is not over. -/
theorem Went.left (hwent : Went x op log answer x') (hx' : ¬ Over x') :
    ¬ Over x ∧ x'.own = x.own ∧ x'.peer = x.peer ∧ (x'.lastMs = x.lastMs ∨ op.time = some x'.lastMs) ∧
      (x'.state = .ready → x.state = .ready ∧ op.isStart = false) := by
  have hx : ¬ Over x := fun hover => hx' (hwent.refused hover).2
  refine ⟨hx, ?_⟩
  cases hwent with
  | failed _ hstate _ _ _ _ => exact absurd (Or.inl hstate) hx'
  | cancelled hstate _ _ _ => exact absurd (Or.inr hstate) hx'
  | gone hover _ => exact absurd hover hx
  | repeated hstate => exact ⟨rfl, rfl, Or.inl rfl, fun hready => absurd hready hstate⟩
  | withheld => exact ⟨rfl, rfl, Or.inl rfl, fun hready => ⟨hready, rfl⟩⟩
  | exported _ => exact ⟨rfl, rfl, Or.inl rfl, fun hready => ⟨hready, rfl⟩⟩
  | ignored hop htime _ _ =>
      refine ⟨rfl, rfl, Or.inr htime, fun hready => ⟨hready, ?_⟩⟩
      cases op with
      | start => exact Bool.noConfusion hop
      | receive | poll | cancel | exportKeys => rfl
  | started _ _ _ _ => exact ⟨rfl, rfl, Or.inr rfl, nofun⟩
  | committed _ _ _ _ _ => exact ⟨rfl, rfl, Or.inr rfl, nofun⟩
  | resentCommit _ _ _ _ => exact ⟨rfl, rfl, Or.inr rfl, fun hready => ⟨hready, rfl⟩⟩
  | resentConfirm _ _ _ _ _ _ => exact ⟨rfl, rfl, Or.inr rfl, fun hready => ⟨hready, rfl⟩⟩
  | accepted _ _ _ => exact ⟨rfl, rfl, Or.inr rfl, nofun⟩

end Went

/-- Shown `l` last instead, an exchange differs in nothing that matters.  The calls still to come have these
times. -/
structure Near (own peer : Address) (started : Bool) (times : List UInt64) (x : Exchange) (l : UInt64) : Prop where
  started : started = true → x.state ≠ .ready
  ready : x.state = .ready → l = x.lastMs
  times : ∀ t ∈ times, x.lastMs ≤ t ∧ l ≤ t
  address : ¬ Over x → x.own = own ∧ x.peer = peer

/-- The exchange of the run without additional frames, with its session, beside that of the run with them. -/
inductive Rel (own peer : Address) (started : Bool) (times : List UInt64) : Exchange → β → Exchange → β → Prop
  | near {x : Exchange} {b : β} {l : UInt64} : Near own peer started times x l →
      Rel own peer started times x b { x with lastMs := l } b
  | far {x y : Exchange} {b b' : β} : Doomed x times → Over y → Rel own peer started times x b y b'

section Rel

variable {own peer : Address} {started : Bool} {times : List UInt64} {x y : Exchange} {b b' : β}

theorem rel_alike {x' : Exchange} {op : Op} {log : Trace} {answer : Answer} (hwent : Went x op log answer x')
    (hstarted : started = true → x.state ≠ .ready) (hlast : ∀ t ∈ times, x.lastMs ≤ t)
    (hnow : ∀ now, op.time = some now → ∀ t ∈ times, now ≤ t) (haddress : ¬ Over x → x.own = own ∧ x.peer = peer) :
    Rel own peer (started || op.isStart) times x' b x' b := by
  by_cases hover : Over x'
  · exact .far (Or.inl hover) hover
  · rcases hwent.left hover with ⟨hx, hown, hpeer, htime, hready⟩
    have hle : ∀ t ∈ times, x'.lastMs ≤ t := by
      intro t ht
      rcases htime with hsame | hnew
      · rw [hsame]
        exact hlast t ht
      · exact hnow _ hnew t ht
    refine .near (x := x') (l := x'.lastMs) ⟨fun hstart hx' => ?_, fun _ => rfl, fun t ht => ⟨hle t ht, hle t ht⟩,
      fun _ => ?_⟩
    · rcases hready hx' with ⟨hbefore, hop⟩
      rw [hop, Bool.or_false] at hstart
      exact hstarted hstart hbefore
    · rw [hown, hpeer]
      exact haddress hx

theorem run_went_of (env : (c : Call) → β → Reply c × β) (op : Op) (x : Exchange) (b : β) :
    Went x op ((exec op x).run env b).1 ((exec op x).run env b).2.1.1 ((exec op x).run env b).2.1.2 :=
  wp_outcome (exec_went x op) (Prog.run_outcome env (exec op x) b)

theorem run_argument (env : (c : Call) → β → Reply c × β) (out : Bool) (x : Exchange) (b : β) :
    ((leave out (fail .argument) x).run env b).2.1.1 = .exchanged .error (blank out) ∧
      Over ((leave out (fail .argument) x).run env b).2.1.2 := by
  have hwp : (leave out (fail .argument)).wp (fun _ a x' => a = .exchanged .error (blank out) ∧ Over x') x :=
    wp_leave_fail fun log x' hfallen => ⟨rfl, Or.inl hfallen.state⟩
  exact wp_outcome hwp (Prog.run_outcome env _ b)

/-- What the same call does in both runs. -/
def Alike (own peer : Address) (started : Bool) (times : List UInt64) (env : (c : Call) → β → Reply c × β) (op : Op)
    (x : Exchange) (b : β) (y : Exchange) (b' : β) : Prop :=
  ((exec op x).run env b).2.1.1 = ((exec op y).run env b').2.1.1 ∧
    Rel own peer (started || op.isStart) times ((exec op x).run env b).2.1.2 ((exec op x).run env b).2.2
      ((exec op y).run env b').2.1.2 ((exec op y).run env b').2.2

variable {env : (c : Call) → β → Reply c × β} {op : Op}

theorem alike_far (hx : Doomed x (op.time.toList ++ times)) (hy : Over y) (hcancel : op ≠ .cancel) :
    Alike own peer started times env op x b y b' := by
  have hwentx := run_went_of env op x b
  have hwenty := run_went_of env op y b'
  have hdoomedx := hwentx.doomed times hx hcancel
  have hdoomedy := hwenty.doomed times (Or.inl hy) hcancel
  exact ⟨hdoomedx.1.trans hdoomedy.1.symm, .far hdoomedx.2 (hwenty.refused hy).2⟩

theorem alike_eq (heq : exec op y = exec op x) (hstarted : started = true → x.state ≠ .ready)
    (hlast : ∀ t ∈ times, x.lastMs ≤ t) (hnow : ∀ now, op.time = some now → ∀ t ∈ times, now ≤ t)
    (haddress : ¬ Over x → x.own = own ∧ x.peer = peer) : Alike own peer started times env op x b y b := by
  unfold Alike
  rw [heq]
  exact ⟨rfl, rel_alike (run_went_of env op x b) hstarted hlast hnow haddress⟩

theorem alike_argument (out : Bool) (hx : exec op x = leave out (fail .argument) x)
    (hy : exec op y = leave out (fail .argument) y) : Alike own peer started times env op x b y b' := by
  have hfailx := run_argument env out x b
  have hfaily := run_argument env out y b'
  unfold Alike
  rw [hx, hy]
  exact ⟨hfailx.1.trans hfaily.1.symm, .far (Or.inl hfailx.2) hfaily.2⟩

theorem start_repeated {now : UInt64} (hx : x.state ≠ .ready) :
    exec (.start now true) x = .done (.exchanged .error (some {}), x) := by
  show (if x.state ≠ .ready then _ else _ : Gated Answer) x = _
  rw [if_pos hx]
  rfl

theorem alike_exportKeys {pmk pmkid : Bool} {l : UInt64} (hnear : Near own peer started times x l) :
    Alike own peer started times env (.exportKeys pmk pmkid) x b { x with lastMs := l } b := by
  have hexport : ∀ z : Exchange, exec (.exportKeys pmk pmkid) z =
      (if z.state ≠ .accepted ∨ !pmk ∨ !pmkid then .done (.exported true {}, z)
        else .ask .exportKeys fun r => .done (.exported r.1 r.2, z)) := by
    intro z
    show (if z.state ≠ .accepted ∨ !pmk ∨ !pmkid then _ else _ : Gated Answer) z = _
    split <;> rfl
  have hstarted : (started || (Op.exportKeys pmk pmkid).isStart) = started := Bool.or_false started
  unfold Alike
  rw [hexport, hexport, hstarted]
  by_cases hgiven : x.state ≠ .accepted ∨ !pmk ∨ !pmkid
  · rw [if_pos hgiven, if_pos hgiven]
    exact ⟨rfl, .near hnear⟩
  · rw [if_neg hgiven, if_neg hgiven]
    exact ⟨rfl, .near hnear⟩

theorem Near.later {l : UInt64} (hnear : Near own peer started (op.time.toList ++ times) x l) :
    Near own peer started times x l :=
  ⟨hnear.started, hnear.ready, fun t ht => hnear.times t (List.mem_append_right _ ht), hnear.address⟩

/-- The same call in both runs, while the exchange is under way. -/
theorem alike_near {l : UInt64} (hx : UnderWay x) (hnear : Near own peer started (op.time.toList ++ times) x l)
    (hnow : ∀ now, op.time = some now → ∀ t ∈ times, now ≤ t) (hcancel : op ≠ .cancel) :
    Alike own peer started times env op x b { x with lastMs := l } b := by
  have hready : x.state ≠ .ready := by
    intro hready
    rcases hx with (h | h) | h <;> exact ExchangeState.noConfusion (h.symm.trans hready)
  have hlast : ∀ t ∈ times, x.lastMs ≤ t := fun t ht => (hnear.later.times t ht).1
  cases op with
  | cancel => exact absurd rfl hcancel
  | exportKeys pmk pmkid => exact alike_exportKeys hnear.later
  | start now out =>
      cases out with
      | false => exact alike_argument false rfl rfl
      | true =>
          have hstart : (started || (Op.start now true).isStart) = true := Bool.or_true started
          have hafter : Near own peer true times x l :=
            ⟨fun _ => hready, hnear.ready, hnear.later.times, hnear.address⟩
          unfold Alike
          rw [start_repeated hready, start_repeated (x := { x with lastMs := l }) hready, hstart]
          exact ⟨rfl, .near hafter⟩
  | poll now out =>
      have hclock := hnear.times now (List.mem_append_left _ (List.mem_singleton_self now))
      cases out with
      | false => exact alike_argument false rfl rfl
      | true => exact alike_eq (poll_forgets hx hclock.1 hclock.2) hnear.started hlast hnow hnear.address
  | receive source destination body now out =>
      have hclock := hnear.times now (List.mem_append_left _ (List.mem_singleton_self now))
      cases source with
      | none => exact alike_argument out rfl rfl
      | some source =>
          cases destination with
          | none => exact alike_argument out rfl rfl
          | some destination =>
              cases body with
              | none => exact alike_argument out rfl rfl
              | some body =>
                  cases out with
                  | false => exact alike_argument false rfl rfl
                  | true =>
                      exact alike_eq (receiveFrame_forgets hx hclock.1 hclock.2) hnear.started hlast hnow
                        hnear.address

theorem underWay_of (hready : x.state ≠ .ready) (hover : ¬ Over x) : UnderWay x := by
  cases hstate : x.state with
  | ready => exact absurd hstate hready
  | waitCommit => exact Or.inl (Or.inl hstate)
  | waitConfirm => exact Or.inl (Or.inr hstate)
  | accepted => exact Or.inr hstate
  | failed => exact absurd (Or.inl hstate) hover
  | cancelled => exact absurd (Or.inr hstate) hover

theorem Rel.call (env : (c : Call) → β → Reply c × β) (hrel : Rel own peer started (op.time.toList ++ times) x b y b')
    (hnow : ∀ now, op.time = some now → ∀ t ∈ times, now ≤ t) (hcancel : op ≠ .cancel) :
    Alike own peer started times env op x b y b' := by
  cases hrel with
  | far hx hy => exact alike_far hx hy hcancel
  | near hnear =>
      by_cases hover : Over x
      · exact alike_far (Or.inl hover) hover hcancel
      · by_cases hready : x.state = .ready
        · rw [hnear.ready hready]
          exact alike_eq rfl hnear.started (fun t ht => (hnear.later.times t ht).1) hnow hnear.address
        · exact alike_near (underWay_of hready hover) hnear hnow hcancel

/-- What an additional frame does in the run with additional frames. -/
def Harmless (own peer : Address) (times : List UInt64) (env : (c : Call) → β → Reply c × β) (op : Op)
    (x : Exchange) (b : β) (y : Exchange) (b' : β) : Prop :=
  Ignored ⟨true, op, y, ((exec op y).run env b').2.1.1⟩ ∧
    Rel own peer true times x b ((exec op y).run env b').2.1.2 ((exec op y).run env b').2.2

theorem harmless_far (hx : Doomed x times) (hy : Over y) (hop : Foreign own peer op) :
    Harmless own peer times env op x b y b' := by
  have hwent := run_went_of env op y b'
  rcases hop with ⟨source, destination, body, now, rfl, -⟩
  have hrefused := (hwent.doomed times (Or.inl hy) nofun).1
  exact ⟨Or.inr ⟨hrefused, Or.inl hy⟩, .far hx (hwent.refused hy).2⟩

theorem harmless_near {l : UInt64} (hx : UnderWay x) (hnear : Near own peer true (op.time.toList ++ times) x l)
    (hnow : ∀ now, op.time = some now → ∀ t ∈ times, now ≤ t) (hop : Foreign own peer op) :
    Harmless own peer times env op x b { x with lastMs := l } b := by
  have hwent := run_went_of env op { x with lastMs := l } b
  rcases hop with ⟨source, destination, body, now, rfl, hforeign⟩
  have hclock := hnear.times now (List.mem_append_left _ (List.mem_singleton_self now))
  rcases hnear.address fun hover => not_underWay hover hx with ⟨hown, hpeer⟩
  by_cases hlate : Waiting x ∧ x.deadlineMs ≤ now
  · -- The frame comes after the deadline: this exchange fails now, and the other at its next call.
    have hfailed := hwent.late rfl rfl hlate.1 hlate.2
    refine ⟨Or.inr ⟨hfailed.1, Or.inr ⟨now, rfl, hlate.2⟩⟩, .far (Or.inr ⟨hlate.1, fun t ht => ?_⟩) (Or.inl hfailed.2)⟩
    exact UInt64.le_trans hlate.2 (hnow now rfl t ht)
  · have hdeadline : Waiting x → now < x.deadlineMs := by
      intro hwaiting
      by_contra hle
      exact hlate ⟨hwaiting, UInt64.not_lt.1 hle⟩
    have hidle : exec (.receive (some source) (some destination) (some body) now true) { x with lastMs := l } =
        .done (.exchanged .idle (some {}), { x with lastMs := now }) := by
      refine receiveFrame_foreign (x := { x with lastMs := l }) hx hclock.2 hdeadline ?_
      show source ≠ x.peer ∨ destination ≠ x.own
      rwa [hown, hpeer]
    unfold Harmless
    rw [hidle]
    refine ⟨Or.inl rfl, .near (l := now) ⟨hnear.started, fun hready => ?_, fun t ht => ?_, hnear.address⟩⟩
    · exact absurd hready (hnear.started rfl)
    · exact ⟨(hnear.later.times t ht).1, hnow now rfl t ht⟩

theorem Rel.insert (env : (c : Call) → β → Reply c × β) (hrel : Rel own peer true (op.time.toList ++ times) x b y b')
    (hnow : ∀ now, op.time = some now → ∀ t ∈ times, now ≤ t) (hop : Foreign own peer op) :
    Harmless own peer times env op x b y b' := by
  cases hrel with
  | far hx hy =>
      exact harmless_far (hx.imp_right fun h => ⟨h.1, fun t ht => h.2 t (List.mem_append_right _ ht)⟩) hy hop
  | near hnear =>
      by_cases hover : Over x
      · exact harmless_far (Or.inl hover) hover hop
      · exact harmless_near (underWay_of (hnear.started rfl) hover) hnear hnow hop

def timesOf (ms : List (Bool × Op)) : List UInt64 := ms.flatMap fun p => p.2.time.toList

theorem respond_agree (env : (c : Call) → β → Reply c × β) :
    ∀ {ms : List (Bool × Op)} {started : Bool} {x y : Exchange} {b b' : β},
      Rel own peer started (timesOf ms) x b y b' → AfterStart started ms → (timesOf ms).Pairwise (· ≤ ·) →
      (∀ p ∈ ms, p.2 ≠ .cancel) → (∀ p ∈ ms, p.1 = true → Foreign own peer p.2) →
      ((respond env ms y b').filter fun r => !r.inserted).map Response.answer =
          (respond env (original ms) x b).map Response.answer ∧
        ∀ r ∈ respond env ms y b', r.inserted = true → Ignored r := by
  intro ms
  induction ms with
  | nil =>
      intro started x y b b' _ _ _ _ _
      exact ⟨rfl, fun r hr => absurd hr List.not_mem_nil⟩
  | cons p ms ih =>
      intro started x y b b' hrel hafter hordered hcancel hforeign
      rcases p with ⟨inserted, op⟩
      rcases List.pairwise_append.1 hordered with ⟨-, hrest, hbefore⟩
      have hnow : ∀ now, op.time = some now → ∀ t ∈ timesOf ms, now ≤ t := by
        intro now htime t ht
        refine hbefore now ?_ t ht
        show now ∈ op.time.toList
        rw [htime]
        exact List.mem_singleton_self now
      have hcancel' : ∀ q ∈ ms, q.2 ≠ .cancel := fun q hq => hcancel q (List.mem_cons_of_mem _ hq)
      have hforeign' : ∀ q ∈ ms, q.1 = true → Foreign own peer q.2 := fun q hq =>
        hforeign q (List.mem_cons_of_mem _ hq)
      cases inserted with
      | false =>
          rcases hrel.call env hnow (hcancel _ List.mem_cons_self) with ⟨hanswer, hrel'⟩
          rcases ih hrel' hafter.2 hrest hcancel' hforeign' with ⟨hsame, hignored⟩
          refine ⟨?_, fun r hr hinserted => ?_⟩
          · show _ :: _ = _ :: _
            rw [hanswer]
            exact congrArg _ hsame
          · rcases List.mem_cons.1 hr with rfl | hr
            · exact Bool.noConfusion hinserted
            · exact hignored r hr hinserted
      | true =>
          have hstarted := hafter.1 rfl
          subst hstarted
          rcases hrel.insert env hnow (hforeign _ List.mem_cons_self rfl) with ⟨hhere, hrel'⟩
          rcases ih hrel' hafter.2 hrest hcancel' hforeign' with ⟨hsame, hignored⟩
          refine ⟨hsame, fun r hr hinserted => ?_⟩
          rcases List.mem_cons.1 hr with rfl | hr
          · exact hhere
          · exact hignored r hr hinserted

variable {h2e : Bool} {retryMs timeoutMs retries : UInt32} {x₀ : Exchange}

/-- Frames of other stations do not influence an exchange. -/
theorem foreign_frames_ignored (hcreate : create own peer h2e retryMs timeoutMs retries = some x₀)
    (env : (c : Call) → β → Reply c × β) (b : β) {ms : List (Bool × Op)} (hafter : AfterStart false ms)
    (hordered : (timesOf ms).Pairwise (· ≤ ·)) (hcancel : ∀ p ∈ ms, p.2 ≠ .cancel)
    (hforeign : ∀ p ∈ ms, p.1 = true → Foreign own peer p.2) :
    ((respond env ms x₀ b).filter fun r => !r.inserted).map Response.answer =
        (respond env (original ms) x₀ b).map Response.answer ∧
      ∀ r ∈ respond env ms x₀ b, r.inserted = true → Ignored r := by
  have hnear : Near own peer false (timesOf ms) x₀ x₀.lastMs := by
    rw [create_eq hcreate]
    exact ⟨nofun, fun _ => rfl, fun t _ => ⟨UInt64.zero_le, UInt64.zero_le⟩, fun _ => ⟨rfl, rfl⟩⟩
  exact respond_agree env (.near hnear) hafter hordered hcancel hforeign

end Rel

/-- A handshake with a frame of another station in it. -/
def disturbedHandshake : List (Bool × Op) :=
  [(false, .start 10 true),
    (true, .receive (some stationAddress) (some accessPointAddress) (some [1]) 15 true),
    (false, peerCommit 20), (false, peerConfirm 30), (false, .exportKeys true true)]

theorem foreign_frames_ignored_handshake :
    ((respond agreeable disturbedHandshake newExchange ()).filter fun r => !r.inserted).map Response.answer =
        (respond agreeable (original disturbedHandshake) newExchange ()).map Response.answer ∧
      ∀ r ∈ respond agreeable disturbedHandshake newExchange (), r.inserted = true → Ignored r := by
  refine foreign_frames_ignored newExchange_created agreeable () ?_ (by decide) (by simp [disturbedHandshake, peerCommit, peerConfirm]) ?_
  · exact ⟨nofun, fun _ => rfl, nofun, nofun, nofun, trivial⟩
  · intro p hp hinserted
    simp only [disturbedHandshake, List.mem_cons, List.not_mem_nil, or_false] at hp
    rcases hp with rfl | rfl | rfl | rfl | rfl
    · exact Bool.noConfusion hinserted
    · exact ⟨_, _, _, _, rfl, Or.inl (by decide)⟩
    · exact Bool.noConfusion hinserted
    · exact Bool.noConfusion hinserted
    · exact Bool.noConfusion hinserted

end Runs

end Sae
end Rtl8852be
