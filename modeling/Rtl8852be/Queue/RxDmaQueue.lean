import Rtl8852be.Interaction.History
import Rtl8852be.Wire.FirmwareProtocol

/-!
# RxDmaQueue — polling a receive ring

`RxDmaQueue::poll`.  The device fills buffers and moves its index forward; `poll` hands the buffers in
between to a callback, clears them and gives them back.  The callback runs with the queue in the middle
of a poll and may call `poll` again.  Descriptor positions are counted from the beginning and never wrap;
position `p` uses buffer `p % 64`.

* `rounds_handles` — what the loop leaves in the trace, by induction on its rounds;
* `rx_ring_delivery` — every position is handled once, in order, over any sequence of polls.
-/

namespace Rtl8852be
namespace Queue
namespace Rx

open Interaction Network

/-! ## The class -/

/-- `RxDmaQueue::count`. -/
def count : ℕ := 64

/-- `RxDmaQueue::bufferBytes`. -/
def bufferBytes : ℕ := 11454 + 40

structure RxDmaPoll where
  ok : Bool := false
  consumer : ℕ := 0
  processed : ℕ := 0
  delivered : ℕ := 0
  dropped : ℕ := 0
  deriving DecidableEq, Repr

/-- The fields `poll` uses. -/
structure RxDmaQueue where
  consumer : ℕ := 0
  ready : Bool := false
  visible : Bool := false
  faulted : Bool := false
  polling : Bool := false
  deriving DecidableEq

/-- The arguments of `poll`; `receive` is whether the callback is not null. -/
structure PollCall where
  producer : ℕ
  budget : ℕ
  receive : Bool := true
  deriving DecidableEq

/-- Buffers are numbered.  `contents` is what the device left in one, `zero` is `store32(m.bytes, 0)`,
and `receive` runs the callback, which answers with the polls it makes. -/
inductive Call
  | syncForCpu (slot : ℕ)
  | contents (slot : ℕ)
  | receive (slot length : ℕ)
  | zero (slot : ℕ)
  | syncForDevice (slot : ℕ)
  deriving DecidableEq

abbrev Reply : Call → Type
  | .syncForCpu _ => Bool
  | .contents _ => List UInt8
  | .receive _ _ => List PollCall
  | .zero _ => Unit
  | .syncForDevice _ => Bool

/-- What a poll from inside a callback returned. -/
inductive Note
  | nested (result : RxDmaPoll)
  deriving DecidableEq

abbrev Trace := List (Event Call Reply Note)

abbrev Polling := Code RxDmaQueue Call Reply Note

/-- The first lines of `poll`. -/
def refuses (q : RxDmaQueue) (call : PollCall) : Bool :=
  !q.ready || !q.visible || q.faulted || q.polling || decide (count ≤ call.producer) ||
    call.budget == 0 || !call.receive

def writtenBytes (bytes : List UInt8) : ℕ := (little32 bytes &&& 0x3fff).toNat

def acceptable (bytes : List UInt8) : Bool :=
  decide (4 ≤ writtenBytes bytes) && decide (writtenBytes bytes ≤ bufferBytes)

/-- The polls of a callback, one after the other. -/
def nestedPolls (poll : PollCall → Polling RxDmaPoll) : List PollCall → Polling Unit
  | [] => pure ()
  | call :: calls => do
      let result ← poll call
      Code.tell (.nested result)
      nestedPolls poll calls

/-- Hand a buffer to the callback, or drop it. -/
def handOver (poll : PollCall → Polling RxDmaPoll) (slot : ℕ) (bytes : List UInt8)
    (result : RxDmaPoll) : Polling RxDmaPoll :=
  if !acceptable bytes then
    pure { result with dropped := result.dropped + 1 }
  else do
    let calls ← Code.ask (.receive slot (writtenBytes bytes))
    nestedPolls poll calls
    pure { result with delivered := result.delivered + 1 }

/-- The loop of `poll`: the rounds that are left and the result so far. -/
def rounds (poll : PollCall → Polling RxDmaPoll) : ℕ → RxDmaPoll → Polling RxDmaPoll
  | 0, result => pure { result with ok := true }
  | k + 1, result => do
      let slot := (← get).consumer
      if !(← Code.ask (.syncForCpu slot)) then
        modify fun q => { q with faulted := true }
        return result
      let bytes ← Code.ask (.contents slot)
      let result ← handOver poll slot bytes result
      let _ ← Code.ask (.zero slot)
      if !(← Code.ask (.syncForDevice slot)) then
        modify fun q => { q with faulted := true }
        return result
      modify fun q => { q with consumer := (q.consumer + 1) % count }
      let consumer := (← get).consumer
      rounds poll k { result with consumer := consumer, processed := result.processed + 1 }

/-- How many rounds `poll` makes. -/
def pending (q : RxDmaQueue) (call : PollCall) : ℕ :=
  min ((call.producer + count - q.consumer) % count) call.budget

/-- `poll`, with callbacks that poll again nested at most this deep. -/
def poll : ℕ → PollCall → Polling RxDmaPoll
  | 0, _ => do return { consumer := (← get).consumer }
  | depth + 1, call => do
      let q ← get
      if refuses q call then
        return { consumer := q.consumer }
      modify fun q => { q with polling := true }
      let result ← rounds (poll depth) (pending q call) { consumer := q.consumer }
      modify fun q => { q with polling := false }
      return result

/-! ## What handling a position looks like -/

/-- One handled position: what was in its buffer, and the polls its callback made. -/
structure Handling where
  bytes : List UInt8
  calls : List PollCall

/-- The callback, if the length is acceptable; its own polls are refused. -/
def Handling.delivery (p : ℕ) (x : Handling) : Trace :=
  if acceptable x.bytes then
    .call (.receive (p % count) (writtenBytes x.bytes)) x.calls ::
      List.replicate x.calls.length (.note (.nested { consumer := p % count }))
  else
    []

/-- Everything up to the moment the buffer is given back: its first word is zero by then. -/
def Handling.cleared (p : ℕ) (x : Handling) : Trace :=
  .call (.syncForCpu (p % count)) true :: .call (.contents (p % count)) x.bytes ::
    (x.delivery p ++ [.call (.zero (p % count)) ()])

def Handling.events (p : ℕ) (x : Handling) : Trace :=
  x.cleared p ++ [.call (.syncForDevice (p % count)) true]

/-- Consecutive positions, the first of them `p`. -/
def eventsFrom : ℕ → List Handling → Trace
  | _, [] => []
  | p, x :: xs => x.events p ++ eventsFrom (p + 1) xs

/-- A position whose buffer could not be synchronized, before or after the callback. -/
inductive Broken (p : ℕ) : Trace → Prop
  | cpu : Broken p [.call (.syncForCpu (p % count)) false]
  | device (x : Handling) : Broken p (x.cleared p ++ [.call (.syncForDevice (p % count)) false])

theorem eventsFrom_append (p : ℕ) (xs ys : List Handling) :
    eventsFrom p (xs ++ ys) = eventsFrom p xs ++ eventsFrom (p + xs.length) ys := by
  induction xs generalizing p with
  | nil => rfl
  | cons x xs ih =>
      have hsum : p + (xs.length + 1) = p + 1 + xs.length := by omega
      rw [List.cons_append, eventsFrom, eventsFrom, ih, List.append_assoc, List.length_cons, hsum]

def isDelivery : Event Call Reply Note → Bool
  | .call (.receive _ _) _ => true
  | _ => false

/-- Is this a buffer with a length that is not acceptable? -/
def isDrop : Event Call Reply Note → Bool
  | .call (.contents _) bytes => !acceptable bytes
  | _ => false

def deliveries (log : Trace) : ℕ := log.countP isDelivery

def drops (log : Trace) : ℕ := log.countP isDrop

@[simp] theorem deliveries_append (a b : Trace) : deliveries (a ++ b) = deliveries a + deliveries b :=
  List.countP_append

@[simp] theorem drops_append (a b : Trace) : drops (a ++ b) = drops a + drops b :=
  List.countP_append

theorem Handling.counted (p : ℕ) (x : Handling) :
    deliveries (x.cleared p) = (if acceptable x.bytes then 1 else 0) ∧
      drops (x.cleared p) = if acceptable x.bytes then 0 else 1 := by
  cases hok : acceptable x.bytes with
  | true =>
      simp [Handling.cleared, Handling.delivery, hok, deliveries, drops, isDelivery, isDrop,
        List.countP_cons, List.countP_replicate]
  | false =>
      simp [Handling.cleared, Handling.delivery, hok, deliveries, drops, isDelivery, isDrop]

theorem counted_events (p : ℕ) (xs : List Handling) :
    deliveries (eventsFrom p xs) + drops (eventsFrom p xs) = xs.length := by
  induction xs generalizing p with
  | nil => rfl
  | cons x xs ih =>
      have hx := x.counted p
      have hlast : deliveries [.call (.syncForDevice (p % count)) true] = 0 ∧
          drops [.call (.syncForDevice (p % count)) true] = 0 := ⟨rfl, rfl⟩
      have hrest := ih (p + 1)
      rw [eventsFrom, Handling.events, List.length_cons]
      simp only [deliveries_append, drops_append, hx.1, hx.2, hlast.1, hlast.2]
      split <;> omega

/-! ## The loop -/

variable {q : RxDmaQueue} {depth p : ℕ}

theorem poll_refused (hpolling : q.polling = true) (depth : ℕ) (call : PollCall)
    {Q : Trace → RxDmaPoll → RxDmaQueue → Prop} (h : Q [] { consumer := q.consumer } q) :
    (poll depth call).wp Q q := by
  cases depth with
  | zero =>
      simp only [poll, wp_get_bind, wp_pure]
      exact h
  | succ depth =>
      have hrefused : refuses q call = true := by simp [refuses, hpolling]
      simp only [poll, wp_get_bind, wp_ite, wp_pure]
      exact ⟨fun _ => h, fun hnot => absurd hrefused hnot⟩

theorem nestedPolls_refused (hpolling : q.polling = true) (calls : List PollCall) :
    ∀ {Q : Trace → Unit → RxDmaQueue → Prop},
      Q (List.replicate calls.length (.note (.nested { consumer := q.consumer }))) () q →
      (nestedPolls (poll depth) calls).wp Q q := by
  induction calls with
  | nil =>
      intro Q h
      rw [nestedPolls, wp_pure]
      exact h
  | cons call calls ih =>
      intro Q h
      rw [nestedPolls, wp_bind]
      apply poll_refused hpolling
      rw [wp_tell_bind]
      exact ih h

theorem handOver_delivers (hpolling : q.polling = true) (hc : q.consumer = p % count)
    (bytes : List UInt8) (result : RxDmaPoll) {Q : Trace → RxDmaPoll → RxDmaQueue → Prop}
    (h : ∀ calls, Q (Handling.delivery p ⟨bytes, calls⟩)
      { result with
        delivered := result.delivered + (if acceptable bytes then 1 else 0)
        dropped := result.dropped + (if acceptable bytes then 0 else 1) } q) :
    (handOver (poll depth) (p % count) bytes result).wp Q q := by
  cases hok : acceptable bytes with
  | false =>
      have hnone := h []
      simp only [Handling.delivery, hok] at hnone
      simpa [handOver, hok] using hnone
  | true =>
      simp only [handOver, hok, wp_ite]
      refine ⟨fun hno => absurd hno (by simp), fun _ => ?_⟩
      rw [wp_ask_bind]
      intro calls
      rw [wp_bind]
      apply nestedPolls_refused hpolling
      have hsome := h calls
      simp only [Handling.delivery, hok] at hsome
      rw [wp_pure]
      simpa [hc] using hsome

/-- What at most `k` rounds do that start at position `p` with the result `r₀`: the positions `xs` are
handled, and `tail` is left of one that failed. -/
structure Handles (p k : ℕ) (r₀ : RxDmaPoll) (q : RxDmaQueue) (xs : List Handling) (tail : Trace)
    (log : Trace) (r : RxDmaPoll) (q' : RxDmaQueue) : Prop where
  split : log = eventsFrom p xs ++ tail
  processed : r.processed = r₀.processed + xs.length
  delivered : r.delivered = r₀.delivered + deliveries log
  dropped : r.dropped = r₀.dropped + drops log
  consumer : r.consumer = (p + xs.length) % count
  state : q' = { q with consumer := (p + xs.length) % count, faulted := q.faulted || !tail.isEmpty }
  ends : (tail = [] ∧ xs.length = k ∧ r.ok = true) ∨
    (Broken (p + xs.length) tail ∧ xs.length < k ∧ r.ok = r₀.ok)

theorem rounds_handles (k : ℕ) :
    ∀ {p : ℕ} {q : RxDmaQueue} {r₀ : RxDmaPoll}, q.polling = true → q.consumer = p % count →
      r₀.consumer = p % count →
      (rounds (poll depth) k r₀).wp (fun log r q' => ∃ xs tail, Handles p k r₀ q xs tail log r q') q := by
  induction k with
  | zero =>
      intro p q r₀ _ hc hr
      rw [rounds, wp_pure]
      refine ⟨[], [], rfl, rfl, rfl, rfl, hr, ?_, Or.inl ⟨rfl, rfl, rfl⟩⟩
      simp [← hc]
  | succ k ih =>
      intro p q r₀ hpolling hc hr
      rcases q with ⟨consumer, ready, visible, faulted, polling⟩
      simp only at hc hpolling
      subst hc hpolling
      simp only [rounds, wp_get_bind, wp_ask_bind, wp_ite, wp_modify_bind,
        wp_pure]
      intro synced
      refine ⟨?_, ?_⟩
      · -- The processor could not take the buffer.
        intro hno
        have hfalse : synced = false := by simpa using hno
        subst hfalse
        refine ⟨[], _, rfl, rfl, rfl, rfl, hr, ?_, Or.inr ⟨.cpu, Nat.succ_pos k, rfl⟩⟩
        simp
      · intro hyes
        have htrue : synced = true := by simpa using hyes
        subst htrue
        intro bytes
        rw [wp_bind]
        apply handOver_delivers rfl rfl
        intro calls
        simp only [wp_ask_bind, wp_ite, wp_modify_bind, wp_pure, wp_get_bind]
        intro _ returned
        have hcounts := Handling.counted p ⟨bytes, calls⟩
        have hcleared : ∀ rest : Trace,
            .call (.syncForCpu (p % count)) true :: .call (.contents (p % count)) bytes ::
                (Handling.delivery p ⟨bytes, calls⟩ ++ .call (.zero (p % count)) () :: rest) =
              Handling.cleared p ⟨bytes, calls⟩ ++ rest := by
          intro rest
          simp [Handling.cleared]
        refine ⟨?_, ?_⟩
        · -- The device could not take it back.
          intro hno
          have hfalse : returned = false := by simpa using hno
          subst hfalse
          refine ⟨[], (Handling.cleared p ⟨bytes, calls⟩) ++ [.call (.syncForDevice (p % count)) false],
            hcleared _, rfl, ?_, ?_, hr, ?_, Or.inr ⟨.device ⟨bytes, calls⟩, Nat.succ_pos k, rfl⟩⟩
          · rw [hcleared, deliveries_append, hcounts.1]
            rfl
          · rw [hcleared, drops_append, hcounts.2]
            rfl
          · simp [Handling.cleared]
        · intro hyes
          have htrue : returned = true := by simpa using hyes
          subst htrue
          have hnext : (p % count + 1) % count = (p + 1) % count := Nat.mod_add_mod _ _ _
          rw [hnext]
          refine wp_mono (ih (p := p + 1) rfl rfl rfl) ?_
          rintro log r q' ⟨xs, tail, hdone⟩
          have hsum : p + 1 + xs.length = p + (xs.length + 1) := by omega
          have hlog : .call (.syncForCpu (p % count)) true :: .call (.contents (p % count)) bytes ::
                (Handling.delivery p ⟨bytes, calls⟩ ++ .call (.zero (p % count)) () ::
                  .call (.syncForDevice (p % count)) true :: log) =
              Handling.events p ⟨bytes, calls⟩ ++ log := by
            rw [hcleared, Handling.events, List.append_assoc]
            rfl
          refine ⟨⟨bytes, calls⟩ :: xs, tail, ?_, ?_, ?_, ?_, ?_, ?_, ?_⟩
          · rw [eventsFrom, List.append_assoc, ← hdone.split]
            exact hlog
          · refine hdone.processed.trans ?_
            show r₀.processed + 1 + xs.length = r₀.processed + (xs.length + 1)
            omega
          · refine hdone.delivered.trans ?_
            rw [hlog, Handling.events, deliveries_append, deliveries_append, hcounts.1]
            exact Nat.add_assoc _ _ _
          · refine hdone.dropped.trans ?_
            rw [hlog, Handling.events, drops_append, drops_append, hcounts.2]
            exact Nat.add_assoc _ _ _
          · rw [hdone.consumer, List.length_cons, hsum]
          · rw [hdone.state, List.length_cons, hsum]
          · rw [List.length_cons, ← hsum]
            rcases hdone.ends with ⟨htail, hlen, hok⟩ | ⟨hbroken, hlen, hok⟩
            · exact Or.inl ⟨htail, by omega, hok⟩
            · exact Or.inr ⟨hbroken, by omega, hok⟩

/-! ## One poll -/

/-- What one poll does from position `p`. -/
inductive Polled (p : ℕ) (call : PollCall) (q : RxDmaQueue) (log : Trace) (r : RxDmaPoll)
    (q' : RxDmaQueue) : Prop
  | refused (hno : refuses q call = true) (hlog : log = []) (hr : r = { consumer := q.consumer })
      (hq : q' = q)
  | handled {xs : List Handling} {tail : Trace} (hyes : refuses q call = false)
      (hdone : Handles p (pending q call) { consumer := q.consumer } { q with polling := true } xs tail
        log r { q' with polling := true })
      (hq : q'.polling = false)

theorem poll_polled (hc : q.consumer = p % count) (depth : ℕ) (call : PollCall) :
    (poll (depth + 1) call).wp (fun log r q' => Polled p call q log r q') q := by
  simp only [poll, wp_get_bind, wp_ite, wp_pure, wp_modify_bind]
  refine ⟨?_, ?_⟩
  · intro hno
    exact .refused hno rfl rfl rfl
  · intro hyes
    rw [wp_bind]
    refine wp_mono (rounds_handles (p := p) (pending q call) rfl hc hc) ?_
    rintro log r q' ⟨xs, tail, hdone⟩
    rw [wp_modify_bind, wp_pure, List.append_nil]
    have hq' : ({ q' with polling := true } : RxDmaQueue) = q' := by
      rw [hdone.state]
    have hdone' : Handles p (pending q call) { consumer := q.consumer } { q with polling := true } xs
        tail log r { q' with polling := true } := by
      rw [hq']
      exact hdone
    exact .handled (by simpa using hyes) hdone' rfl

/-! ## Runs -/

abbrev Record := Interaction.Record RxDmaQueue Call Reply Note PollCall RxDmaPoll

/-- Any polls, with any device and any callbacks. -/
abbrev Run (depth : ℕ) (init : RxDmaQueue) : List Record → RxDmaQueue → Prop :=
  Interaction.Run (poll (depth + 1)) init

/-- Everything that happened, oldest first. -/
def trace (h : List Record) : Trace := (h.reverse.map Interaction.Record.log).flatten

theorem trace_cons (x : Record) (h : List Record) : trace (x :: h) = trace h ++ x.log := by
  simp [trace]

/-- The positions handled so far, and the remains of the one that failed, if any. -/
structure Progress (init : RxDmaQueue) (h : List Record) (q : RxDmaQueue) (xs : List Handling)
    (tail : Trace) : Prop where
  split : trace h = eventsFrom init.consumer xs ++ tail
  broken : tail = [] ∨ Broken (init.consumer + xs.length) tail
  consumer : q.consumer = (init.consumer + xs.length) % count
  faulted : q.faulted = true ↔ tail ≠ []
  polling : q.polling = false

variable {init : RxDmaQueue} {h : List Record}

theorem Progress.poll {xs : List Handling} {tail : Trace} (hp : Progress init h q xs tail)
    {call : PollCall} {log : Trace} {r : RxDmaPoll} {q' : RxDmaQueue}
    (hpolled : Polled (init.consumer + xs.length) call q log r q') :
    ∃ xs' tail', Progress init (⟨q, call, log, r, q'⟩ :: h) q' xs' tail' := by
  cases hpolled with
  | refused hno hlog hr hq =>
      subst hlog hq
      refine ⟨xs, tail, ?_, hp.broken, hp.consumer, hp.faulted, hp.polling⟩
      rw [trace_cons, List.append_nil]
      exact hp.split
  | @handled xs' tail' hyes hdone hq =>
      -- A poll that was not refused found the queue without fault.
      have hclean : q.faulted = false := by
        simp only [refuses, Bool.or_eq_false_iff] at hyes
        exact hyes.1.1.1.1.2
      have htail : tail = [] := by
        by_contra hne
        have hfaulted := hp.faulted.2 hne
        rw [hclean] at hfaulted
        exact absurd hfaulted nofun
      subst htail
      have hstate := hdone.state
      have hsum : init.consumer + (xs ++ xs').length = init.consumer + xs.length + xs'.length := by
        rw [List.length_append]
        omega
      refine ⟨xs ++ xs', tail', ?_, ?_, ?_, ?_, hq⟩
      · rw [trace_cons, hp.split, List.append_nil, eventsFrom_append, List.append_assoc,
          ← hdone.split]
      · rw [hsum]
        rcases hdone.ends with ⟨hnil, -, -⟩ | ⟨hbroken, -, -⟩
        · exact Or.inl hnil
        · exact Or.inr hbroken
      · rw [hsum]
        exact congrArg RxDmaQueue.consumer hstate
      · have hfault : q'.faulted = (q.faulted || !tail'.isEmpty) :=
          congrArg RxDmaQueue.faulted hstate
        rw [hfault, hclean]
        simp

theorem Run.progress (hc : init.consumer < count) (hclean : init.faulted = false)
    (hidle : init.polling = false) (hrun : Run depth init h q) :
    ∃ xs tail, Progress init h q xs tail := by
  apply Interaction.Run.invariant (P := fun h q => ∃ xs tail, Progress init h q xs tail) _ _ hrun
  · refine ⟨[], [], rfl, Or.inl rfl, ?_, ?_, hidle⟩
    · exact (Nat.mod_eq_of_lt hc).symm
    · simp [hclean]
  · intro h s s' op log r _ hprogress hout
    rcases hprogress with ⟨xs, tail, hp⟩
    exact hp.poll (wp_outcome (poll_polled hp.consumer depth op) hout)

/-- What the result of a poll says. -/
structure Reported (x : Record) : Prop where
  bounded : x.result.processed ≤
    min x.op.budget ((x.op.producer + count - x.before.consumer) % count)
  advance : x.after.consumer = (x.before.consumer + x.result.processed) % count
  consumer : x.result.consumer = x.after.consumer
  delivered : x.result.delivered = deliveries x.log
  dropped : x.result.dropped = drops x.log
  complete : x.result.ok = true → x.result.processed = x.result.delivered + x.result.dropped
  silent : x.before.faulted = true → x.log = [] ∧ x.after.faulted = true

theorem Polled.reported {x : Record} (hp : Polled p x.op x.before x.log x.result x.after)
    (hc : x.before.consumer = p % count) : Reported x := by
  rcases x with ⟨before, op, log, r, after⟩
  cases hp with
  | refused hno hlog hr hq =>
      simp only at hno hlog hr hq hc
      subst hlog hr hq
      refine ⟨Nat.zero_le _, ?_, rfl, rfl, rfl, nofun, fun hf => ⟨rfl, hf⟩⟩
      show after.consumer = (after.consumer + 0) % count
      rw [Nat.add_zero, hc, Nat.mod_mod]
  | @handled xs tail hyes hdone hq =>
      simp only at hyes hdone hq hc
      have hconsumer : after.consumer = (p + xs.length) % count :=
        congrArg RxDmaQueue.consumer hdone.state
      have hprocessed : r.processed = xs.length := hdone.processed.trans (Nat.zero_add _)
      have hdelivered : r.delivered = deliveries log := hdone.delivered.trans (Nat.zero_add _)
      have hdropped : r.dropped = drops log := hdone.dropped.trans (Nat.zero_add _)
      refine ⟨?_, ?_, hdone.consumer.trans hconsumer.symm, hdelivered, hdropped, ?_, ?_⟩
      · have hlen : xs.length ≤ pending before op := by
          rcases hdone.ends with ⟨-, hlen, -⟩ | ⟨-, hlen, -⟩ <;> omega
        show r.processed ≤ min op.budget _
        rw [hprocessed, min_comm]
        exact hlen
      · show after.consumer = (before.consumer + r.processed) % count
        rw [hconsumer, hprocessed, hc, Nat.mod_add_mod]
      · intro hok
        rcases hdone.ends with ⟨htail, -, -⟩ | ⟨-, -, hfailed⟩
        · have hlog : log = eventsFrom p xs := by rw [hdone.split, htail, List.append_nil]
          show r.processed = r.delivered + r.dropped
          rw [hprocessed, hdelivered, hdropped, hlog, counted_events]
        · exact absurd (hok.symm.trans hfailed) nofun
      · intro hfaulted
        simp only at hfaulted
        simp [refuses, hfaulted] at hyes

theorem Run.reported (hc : init.consumer < count) (hclean : init.faulted = false)
    (hidle : init.polling = false) (hrun : Run depth init h q) : ∀ x ∈ h, Reported x := by
  induction hrun with
  | nil => exact nofun
  | @call h s s' op log r hrun hout ih =>
      intro x hx
      rcases List.mem_cons.1 hx with rfl | hx
      · rcases Run.progress hc hclean hidle hrun with ⟨xs, tail, hp⟩
        exact (wp_outcome (poll_polled hp.consumer depth op) hout).reported hp.consumer
      · exact ih x hx

/-! ## The theorem -/

/-- Delivery.  `xs` are the positions from the first one on, with what was done for each of them. -/
theorem rx_ring_delivery {depth : ℕ} {init q : RxDmaQueue} {h : List Record}
    (hc : init.consumer < count) (hclean : init.faulted = false) (hidle : init.polling = false)
    (hrun : Run depth init h q) :
    -- Positions are handled one after the other; after a failed one there is nothing more.
    (∃ xs tail, trace h = eventsFrom init.consumer xs ++ tail ∧
      (tail = [] ∨ Broken (init.consumer + xs.length) tail) ∧
      q.consumer = (init.consumer + xs.length) % count ∧ (q.faulted = true ↔ tail ≠ [])) ∧
    -- Every poll reports what it did, and a faulted queue does nothing.
    (∀ x ∈ h, Reported x) ∧
    -- A poll from inside a callback changes nothing and reports nothing.
    (∀ (busy after : RxDmaQueue) (call : PollCall) (log : Trace) (r : RxDmaPoll),
      busy.polling = true → (poll (depth + 1) call busy).Outcome log (r, after) →
      log = [] ∧ r = { consumer := busy.consumer } ∧ after = busy) := by
  refine ⟨?_, Run.reported hc hclean hidle hrun, ?_⟩
  · rcases Run.progress hc hclean hidle hrun with ⟨xs, tail, hp⟩
    exact ⟨xs, tail, hp.split, hp.broken, hp.consumer, hp.faulted⟩
  · intro busy after call log r hbusy hout
    exact wp_outcome (poll_refused hbusy (depth + 1) call
      (Q := fun log r after => log = [] ∧ r = { consumer := busy.consumer } ∧ after = busy)
      ⟨rfl, rfl, rfl⟩) hout

/-- Two buffers, the first with a frame of four bytes and the second empty; the callback polls again. -/
def twoBuffers (call : Call) (_ : Unit) : Reply call × Unit :=
  match call with
  | .syncForCpu _ => (true, ())
  | .contents slot => (if slot = 63 then [4, 0, 0, 0] else [0, 0, 0, 0], ())
  | .receive _ _ => ([⟨5, 1, true⟩], ())
  | .zero _ => ((), ())
  | .syncForDevice _ => (true, ())

theorem rx_ring_delivery_twoBuffers :
    let init : RxDmaQueue := { consumer := 63, ready := true, visible := true }
    let x := replay (poll 2) twoBuffers [⟨1, 32, true⟩] init ()
    x.1.map Interaction.Record.result = [⟨true, 1, 2, 1, 1⟩] ∧ (∀ y ∈ x.1, Reported y) := by
  refine ⟨by decide +kernel, ?_⟩
  exact (@rx_ring_delivery 1 _ _ _ (by decide) rfl rfl (replay_run _ _ _ _ _)).2.1

end Rx
end Queue
end Rtl8852be
