import Rtl8852be.Commands.FirmwareCommands

/-!
# Delivery — what the command bus promises

* `watch` follows the two counters of the bus through a trace: reservations are numbered one after
  the other, and an error, once set, is final and ends all publishing.
* `Booked` connects the records of the bus with the trace: whoever waits behind a record reserved it,
  and has not been notified since.
* `Notified` is what `accept` has checked when it enters a receiver.

All three are proved of the code function by function.
-/

namespace Rtl8852be
namespace Commands

open Interaction Network

variable {b b' b'' : FirmwareCommands} {T log log' : Trace} {s : UInt8} {e : CommandError}

/-! ## Traces -/

/-- The event is a reservation of this sequence. -/
def reserves (s : UInt8) : TraceEvent → Bool
  | .note (.reserved s' _ _) => s' == s
  | _ => false

/-- The event notifies the receiver behind this sequence. -/
def notifies (s : UInt8) : TraceEvent → Bool
  | .call (.event _ event _ _) _ =>
      match decodeAck event with
      | some ack => ack.sequence == s
      | none => false
  | _ => false

/-- The event hands a packet to the transport. -/
def publishes : TraceEvent → Bool
  | .call (.publish _) _ => true
  | _ => false

def fails : TraceEvent → Bool
  | .note (.failed _) => true
  | _ => false

/-- The sequences reserved in a trace, in order. -/
def reservations (log : Trace) : List UInt8 :=
  log.filterMap fun x =>
    match x with
    | .note (.reserved s _ _) => some s
    | _ => none

/-- The notifications in a trace, in order. -/
def notifications (log : Trace) : List (CommandReceiver × FirmwareEvent × UInt64 × UInt64) :=
  log.filterMap fun x =>
    match x with
    | .call (.event receiver event epoch token) _ => some (receiver, event, epoch, token)
    | _ => none

def plain : TraceEvent → Bool
  | .call .inGate _ => true
  | .call .nowUs _ => true
  | .note (.failed _) => true
  | _ => false

theorem plain_quiet {x : TraceEvent} (hx : plain x = true) :
    reserves s x = false ∧ notifies s x = false := by
  unfold plain at hx
  split at hx
  · exact ⟨rfl, rfl⟩
  · exact ⟨rfl, rfl⟩
  · exact ⟨rfl, rfl⟩
  · cases hx

/-! ## The counters -/

/-- What `watch` follows. -/
structure Watch where
  error : CommandError
  next : ℕ
  deriving DecidableEq

def Watch.step (w : Watch) : TraceEvent → Option Watch
  | .note (.failed e) => if w.error = .none ∧ e ≠ .none then some { w with error := e } else none
  | .note (.reserved s _ _) =>
      if w.error = .none ∧ s = UInt8.ofNat w.next then some { w with next := w.next + 1 } else none
  | .call (.publish _) _ => if w.error = .none then some w else none
  | _ => some w

/-- Follow a trace; `none` if it breaks the rules. -/
def Watch.follow (w : Watch) (log : Trace) : Option Watch := log.foldlM Watch.step w

theorem Watch.follow_cons (w : Watch) (x : TraceEvent) :
    w.follow (x :: log) = (w.step x).bind fun w' => w'.follow log := rfl

theorem Watch.follow_append (w : Watch) :
    w.follow (log ++ log') = (w.follow log).bind fun w' => w'.follow log' :=
  List.foldlM_append

theorem Watch.step_latched {w w' : Watch} {x : TraceEvent} (hw : w.error ≠ .none)
    (hx : w.step x = some w') : w' = w ∧ publishes x = false ∧ fails x = false := by
  cases x with
  | call c r =>
      cases c with
      | publish packet => simp [Watch.step, hw] at hx
      | _ => exact ⟨(Option.some.inj hx).symm, rfl, rfl⟩
  | note n => cases n <;> simp [Watch.step, hw] at hx

/-- After an error nothing is published, reserved or failed again. -/
theorem Watch.follow_latched {w w' : Watch} (hw : w.error ≠ .none) :
    w.follow log = some w' → w' = w ∧ ∀ x ∈ log, publishes x = false ∧ fails x = false := by
  induction log with
  | nil =>
      intro h
      exact ⟨(Option.some.inj h).symm, nofun⟩
  | cons x log ih =>
      intro h
      obtain ⟨w'', hx, hlog⟩ := Option.bind_eq_some_iff.1 h
      obtain ⟨rfl, hquiet⟩ := Watch.step_latched hw hx
      obtain ⟨hlast, hrest⟩ := ih hlog
      refine ⟨hlast, fun y hy => ?_⟩
      rcases List.mem_cons.1 hy with rfl | hy
      · exact hquiet
      · exact hrest y hy

theorem Watch.step_reservations {w w' : Watch} {x : TraceEvent} (hx : w.step x = some w') :
    (reservations [x] = [] ∧ w'.next = w.next) ∨
      (reservations [x] = [UInt8.ofNat w.next] ∧ w'.next = w.next + 1) := by
  cases x with
  | call c r =>
      cases c with
      | publish packet =>
          by_cases hw : w.error = .none
          · rw [Watch.step, if_pos hw] at hx
            obtain rfl := Option.some.inj hx
            exact Or.inl ⟨rfl, rfl⟩
          · simp [Watch.step, hw] at hx
      | _ =>
          obtain rfl := Option.some.inj hx
          exact Or.inl ⟨rfl, rfl⟩
  | note n =>
      cases n with
      | failed e =>
          by_cases hw : w.error = .none ∧ e ≠ .none
          · rw [Watch.step, if_pos hw] at hx
            obtain rfl := Option.some.inj hx
            exact Or.inl ⟨rfl, rfl⟩
          · rw [Watch.step, if_neg hw] at hx
            cases hx
      | reserved s r t =>
          by_cases hw : w.error = .none ∧ s = UInt8.ofNat w.next
          · rw [Watch.step, if_pos hw] at hx
            obtain rfl := Option.some.inj hx
            obtain ⟨-, rfl⟩ := hw
            exact Or.inr ⟨rfl, rfl⟩
          · rw [Watch.step, if_neg hw] at hx
            cases hx

theorem Watch.follow_reservations :
    ∀ {log : Trace} {w w' : Watch}, w.follow log = some w' →
      reservations log = (List.range' w.next (reservations log).length).map UInt8.ofNat ∧
        w'.next = w.next + (reservations log).length := by
  intro log
  induction log with
  | nil =>
      intro w w' h
      obtain rfl := Option.some.inj h
      exact ⟨rfl, rfl⟩
  | cons x log ih =>
      intro w w' h
      obtain ⟨w'', hx, hlog⟩ := Option.bind_eq_some_iff.1 h
      obtain ⟨hlist, hnext⟩ := ih hlog
      have hsplit : reservations (x :: log) = reservations [x] ++ reservations log :=
        List.filterMap_append (l := [x])
      rcases Watch.step_reservations hx with ⟨hone, hw⟩ | ⟨hone, hw⟩
      · rw [hsplit, hone, List.nil_append]
        rw [hw] at hlist hnext
        exact ⟨hlist, hnext⟩
      · rw [hsplit, hone, List.cons_append, List.nil_append, List.length_cons, List.range'_succ,
          List.map_cons]
        rw [hw] at hlist hnext
        exact ⟨by rw [← hlist], by omega⟩

def FirmwareCommands.watch (b : FirmwareCommands) : Watch := ⟨b.error, b.next.toNat⟩

/-! ## Bookings -/

/-- The record was reserved, and nobody has been notified for it since; if it is pending and the bus
has not failed, its packet went out. -/
def Open (s : UInt8) (r : CommandRecord) (e : CommandError) (T : Trace) : Prop :=
  ∃ earlier later, T = earlier ++ .note (.reserved s r.receiver r.token) :: later ∧
    (∀ x ∈ later, reserves s x = false ∧ notifies s x = false) ∧
    (r.state = .pending → e = .none → ∃ packet, .call (.publish packet) true ∈ later ∧
      header packet = ⟨s, r.id, r.receiveAck, r.doneAck⟩)

def Booked (T : Trace) (b : FirmwareCommands) : Prop :=
  ∀ s, (b.records s).busy = true → Open s (b.records s) b.error T

theorem Open.append {r : CommandRecord} {e' : CommandError} (ho : Open s r e T)
    (hlog : ∀ x ∈ log, reserves s x = false ∧ notifies s x = false) (he : e' = .none → e = .none) :
    Open s r e' (T ++ log) := by
  obtain ⟨earlier, later, rfl, hquiet, hpub⟩ := ho
  refine ⟨earlier, later ++ log, by simp, fun x hx => ?_, fun hp hn => ?_⟩
  · exact (List.mem_append.1 hx).elim (hquiet x) (hlog x)
  · obtain ⟨packet, hmem, hhead⟩ := hpub hp (he hn)
    exact ⟨packet, List.mem_append_left _ hmem, hhead⟩

/-- Nobody sees a change of the record that leaves its identity alone. -/
theorem Open.congr {r r' : CommandRecord} (ho : Open s r e T) (hr : r'.receiver = r.receiver)
    (ht : r'.token = r.token)
    (hp : r'.state = .pending → r.state = .pending ∧ r'.id = r.id ∧ r'.receiveAck = r.receiveAck ∧
      r'.doneAck = r.doneAck) : Open s r' e T := by
  obtain ⟨earlier, later, hT, hquiet, hpub⟩ := ho
  refine ⟨earlier, later, by rw [hr, ht]; exact hT, hquiet, fun hs he => ?_⟩
  obtain ⟨hs', hid, hra, hda⟩ := hp hs
  rw [hid, hra, hda]
  exact hpub hs' he

theorem Open.failed {r r' : CommandRecord} {e' : CommandError} (ho : Open s r e T)
    (hr : r'.receiver = r.receiver) (ht : r'.token = r.token)
    (hlog : ∀ x ∈ log, reserves s x = false ∧ notifies s x = false) (he : e' ≠ .none) :
    Open s r' e' (T ++ log) := by
  obtain ⟨earlier, later, rfl, hquiet, -⟩ := ho
  refine ⟨earlier, later ++ log, by rw [hr, ht]; simp, fun x hx => ?_, fun _ hn => absurd hn he⟩
  exact (List.mem_append.1 hx).elim (hquiet x) (hlog x)

/-- The steps of the bus that touch no record. -/
structure Quiet (b : FirmwareCommands) (log : Trace) (b' : FirmwareCommands) : Prop where
  records : b'.records = b.records
  next : b'.next = b.next
  epoch : b'.epoch = b.epoch
  latched : b'.error = .none → b.error = .none
  events : ∀ x ∈ log, plain x = true
  watched : b.watch.follow log = some b'.watch

/-- What every function of the bus does: it keeps the counters and the bookings. -/
structure Keeps (T : Trace) (b : FirmwareCommands) (log : Trace) (b' : FirmwareCommands) : Prop where
  watched : b.watch.follow log = some b'.watch
  booked : Booked T b → Booked (T ++ log) b'
  epoch : b'.epoch = b.epoch

theorem Quiet.refl (b : FirmwareCommands) : Quiet b [] b := ⟨rfl, rfl, rfl, id, nofun, rfl⟩

theorem Keeps.trans (h : Keeps T b log b') (h' : Keeps (T ++ log) b' log' b'') :
    Keeps T b (log ++ log') b'' := by
  refine ⟨?_, fun hb => ?_, h'.epoch.trans h.epoch⟩
  · rw [Watch.follow_append, h.watched]
    exact h'.watched
  · rw [← List.append_assoc]
    exact h'.booked (h.booked hb)

theorem Quiet.keeps (h : Quiet b log b') : Keeps T b log b' := by
  refine ⟨h.watched, fun hb s hs => ?_, h.epoch⟩
  rw [h.records] at hs ⊢
  exact (hb s hs).append (fun x hx => plain_quiet (h.events x hx)) h.latched

theorem Keeps.refl (b : FirmwareCommands) : Keeps T b [] b := (Quiet.refl b).keeps

theorem Quiet.reservations (h : Quiet b log b') : reservations log = [] := by
  refine List.filterMap_eq_nil_iff.2 fun x hx => ?_
  have hplain := h.events x hx
  split
  · cases hplain
  · rfl

theorem Quiet.notifications (h : Quiet b log b') : notifications log = [] := by
  refine List.filterMap_eq_nil_iff.2 fun x hx => ?_
  have hplain := h.events x hx
  split
  · cases hplain
  · rfl

/-! ## `fail` and `check` -/

theorem wp_inGate {α : Type} {Q : Trace → α → FirmwareCommands → Prop} (f : Bool → Gated α) :
    (inGate >>= f).wp Q b ↔
      ∀ ok, (f ok).wp (fun log a b' => Q (.call .inGate ok :: log) a b') b :=
  wp_ask_bind _ _

theorem wp_nowUs {α : Type} {Q : Trace → α → FirmwareCommands → Prop} (f : UInt64 → Gated α) :
    (nowUs >>= f).wp Q b ↔
      ∀ now, (f now).wp (fun log a b' => Q (.call .nowUs now :: log) a b') b :=
  wp_ask_bind _ _

theorem wp_transportPublish {α : Type} {Q : Trace → α → FirmwareCommands → Prop}
    (packet : List UInt8) (f : Bool → Gated α) :
    (transportPublish packet >>= f).wp Q b ↔
      ∀ ok, (f ok).wp (fun log a b' => Q (.call (.publish packet) ok :: log) a b') b :=
  wp_ask_bind _ _

theorem fail_quiet (he : e ≠ .none) :
    (fail e).wp (fun log ok b' => ok = false ∧ Quiet b log b' ∧ b'.error ≠ .none) b := by
  simp only [fail, wp_get_bind, wp_ite, wp_modify_bind, wp_tell_bind,
    wp_pure]
  refine ⟨fun hn => ⟨trivial, ⟨rfl, rfl, rfl, fun h => absurd h he, ?_, ?_⟩, he⟩,
    fun hn => ⟨trivial, Quiet.refl b, hn⟩⟩
  · intro x hx
    rw [List.mem_singleton.1 hx]
    rfl
  · show (b.watch.step (.note (.failed e))).bind _ = _
    rw [Watch.step, if_pos ⟨hn, he⟩]
    rfl

/-- After `check` has accepted the call. -/
@[simps] def FirmwareCommands.ticked (b : FirmwareCommands) (now : UInt64) : FirmwareCommands :=
  { b with lastTime := now, clockStarted := true }

theorem quiet_ticked (b : FirmwareCommands) (now : UInt64) :
    Quiet b [.call .inGate true, .call .nowUs now] (b.ticked now) :=
  ⟨rfl, rfl, rfl, id, by simp [plain], rfl⟩

theorem Quiet.trans (h : Quiet b log b') (h' : Quiet b' log' b'') : Quiet b (log ++ log') b'' := by
  refine ⟨h'.records.trans h.records, h'.next.trans h.next, h'.epoch.trans h.epoch,
    fun hn => h.latched (h'.latched hn), fun x hx => ?_, ?_⟩
  · exact (List.mem_append.1 hx).elim (h.events x) (h'.events x)
  · rw [Watch.follow_append, h.watched]
    exact h'.watched

theorem check_quiet :
    check.wp (fun log ok b' => Quiet b log b' ∧
      (ok = true → b.error = .none ∧ ∃ now, log = [.call .inGate true, .call .nowUs now] ∧
        b' = b.ticked now)) b := by
  simp only [check, wp_get_bind, wp_ite, wp_pure, wp_inGate, wp_nowUs,
    wp_modify_bind]
  have hasked : ∀ {l : Trace}, (∀ x ∈ l, ∃ c r, x = .call c r ∧ (c = .inGate ∨ c = .nowUs)) →
      Quiet b l b := by
    intro l hl
    refine ⟨rfl, rfl, rfl, id, fun x hx => ?_, ?_⟩
    · obtain ⟨c, r, rfl, rfl | rfl⟩ := hl x hx <;> rfl
    · induction l with
      | nil => rfl
      | cons x l ih =>
          have hx : b.watch.step x = some b.watch := by
            obtain ⟨c, r, rfl, rfl | rfl⟩ := hl x List.mem_cons_self <;> rfl
          rw [Watch.follow_cons, hx]
          exact ih fun y hy => hl y (List.mem_cons_of_mem _ hy)
  refine ⟨fun _ => ⟨Quiet.refl b, (by rintro ⟨⟩)⟩, fun hb ok => ⟨fun _ => ⟨hasked (by simp), (by rintro ⟨⟩)⟩,
    fun hok now => ⟨fun _ => ?_, fun _ => ⟨fun _ => ?_, fun _ => ?_⟩⟩⟩⟩
  · refine wp_mono (fail_quiet (b := b) (e := .clock) (by rintro ⟨⟩)) fun log ok' b' h => ?_
    refine ⟨Quiet.trans (hasked (l := [.call .inGate ok, .call .nowUs now]) (by simp)) h.2.1, ?_⟩
    rw [h.1]
    rintro ⟨⟩
  · obtain rfl : ok = true := by simpa using hok
    refine wp_mono (fail_quiet (b := b.ticked now) (e := .timeout) (by rintro ⟨⟩)) fun log ok' b' h => ?_
    refine ⟨(quiet_ticked b now).trans h.2.1, ?_⟩
    rw [h.1]
    rintro ⟨⟩
  · obtain rfl : ok = true := by simpa using hok
    exact ⟨quiet_ticked b now, fun _ => ⟨not_not.1 (not_or.1 hb).2, now, rfl, rfl⟩⟩

/-- The rule for `check` in front of the rest of a function. -/
theorem wp_check_guard {α : Type} {Q : Trace → α → FirmwareCommands → Prop} {stop : α}
    {rest : Gated α} (hstop : ∀ log b', Quiet b log b' → Q log stop b')
    (hrest : b.error = .none → ∀ now,
      rest.wp (fun log a b' => Q ([.call .inGate true, .call .nowUs now] ++ log) a b')
        (b.ticked now)) :
    (do if !(← check) then return stop
        rest).wp Q b := by
  rw [wp_bind]
  refine wp_mono check_quiet fun log ok b' h => ?_
  rw [wp_ite]
  refine ⟨fun _ => (wp_pure _).2 ?_, fun hok => ?_⟩
  · rw [List.append_nil]
    exact hstop log b' h.1
  · obtain ⟨hn, now, rfl, rfl⟩ := h.2 (by simpa using hok)
    exact hrest hn now

/-! ## `reserve` -/

def FirmwareCommands.booking (b : FirmwareCommands) (receiver : CommandReceiver)
    (token timeoutUs : UInt64) : CommandRecord :=
  { state := .reserved, receiver := receiver, token := token, deadline := b.lastTime + timeoutUs }

@[simps] def FirmwareCommands.booked (b : FirmwareCommands) (receiver : CommandReceiver)
    (token timeoutUs : UInt64) : FirmwareCommands :=
  { b with
    next := b.next + 1
    records := Function.update b.records b.next.toUInt8 (b.booking receiver token timeoutUs) }

variable {receiver : CommandReceiver} {token timeoutUs : UInt64}

theorem wp_reserve {Q : Trace → Option UInt8 → FirmwareCommands → Prop}
    (hno : ∀ log b', Quiet b log b' → Q log none b')
    (hyes : ∀ now, b.error = .none → b.next ≠ uint32Max → (b.records b.next.toUInt8).busy = false →
      Q [.call .inGate true, .call .nowUs now, .note (.reserved b.next.toUInt8 receiver token)]
        (some b.next.toUInt8) ((b.ticked now).booked receiver token timeoutUs)) :
    (reserve receiver token timeoutUs).wp Q b := by
  simp only [reserve, wp_get_bind, wp_ite, wp_pure]
  refine ⟨fun _ => hno _ _ (Quiet.refl b), fun _ => wp_check_guard hno fun hn now => ?_⟩
  simp only [wp_get_bind, wp_ite, wp_pure, wp_modify_bind, wp_tell_bind,
    setRecord]
  have hexhausted : (fail .exhausted >>= fun _ => pure none : Gated (Option UInt8)).wp
      (fun log a b' => Q ([.call .inGate true, .call .nowUs now] ++ log) a b') (b.ticked now) := by
    rw [wp_bind]
    refine wp_mono (fail_quiet (e := .exhausted) (by rintro ⟨⟩)) fun log _ b' h => ?_
    rw [wp_pure, List.append_nil]
    exact hno _ _ ((quiet_ticked b now).trans h.2.1)
  refine ⟨fun _ => ?_, fun _ => ⟨fun _ => hexhausted, fun hmax => ⟨fun _ => hexhausted,
    fun hfree => ?_⟩⟩⟩
  · exact hno _ _ (quiet_ticked b now)
  · exact hyes now hn hmax (by simpa using hfree)

theorem toUInt8_next (n : UInt32) : n.toUInt8 = UInt8.ofNat n.toNat := by
  apply UInt8.toNat_inj.1
  simp

theorem keeps_booked (hn : b.error = .none) (hmax : b.next ≠ uint32Max) (now : UInt64) :
    Keeps T b [.call .inGate true, .call .nowUs now,
        .note (.reserved b.next.toUInt8 receiver token)]
      ((b.ticked now).booked receiver token timeoutUs) := by
  refine ⟨?_, fun hb s hs => ?_, rfl⟩
  · show (b.watch.step (.note (.reserved b.next.toUInt8 receiver token))).bind _ = _
    have hnext : (b.next + 1).toNat = b.next.toNat + 1 := by
      have h1 : b.next.toNat ≠ 4294967295 := fun h =>
        hmax (UInt32.toNat_inj.1 (h.trans (by decide)))
      have h2 := b.next.toNat_lt
      rw [UInt32.toNat_add]
      simp only [UInt32.toNat_ofNat, Nat.reducePow, Nat.reduceMod]
      omega
    rw [Watch.step, if_pos ⟨hn, toUInt8_next _⟩]
    show some (⟨b.error, b.next.toNat + 1⟩ : Watch) = some ⟨b.error, (b.next + 1).toNat⟩
    rw [hnext]
  · by_cases hsame : s = b.next.toUInt8
    · subst hsame
      simp only [FirmwareCommands.booked_records, FirmwareCommands.ticked_next,
        Function.update_self]
      refine ⟨T ++ [.call .inGate true, .call .nowUs now], [], ?_, nofun, nofun⟩
      rw [List.append_assoc]
      rfl
    · simp only [FirmwareCommands.booked_records, FirmwareCommands.ticked_next,
        FirmwareCommands.ticked_records, Function.update_of_ne hsame] at hs ⊢
      refine (hb s hs).append (fun x hx => ?_) id
      have hne : (b.next.toUInt8 == s) = false := by simpa using fun h => hsame h.symm
      simp only [List.mem_cons, List.not_mem_nil, or_false] at hx
      rcases hx with rfl | rfl | rfl
      · exact ⟨rfl, rfl⟩
      · exact ⟨rfl, rfl⟩
      · exact ⟨hne, rfl⟩

/-! ## `publish` and `submit` -/

theorem Booked.update {r : CommandRecord} (hb : Booked T b)
    (hrec : b'.records = Function.update b.records s r)
    (hopen : r.busy = true → Open s r b'.error (T ++ log))
    (hquiet : ∀ t, t ≠ s → ∀ x ∈ log, reserves t x = false ∧ notifies t x = false)
    (hlatch : b'.error = .none → b.error = .none) : Booked (T ++ log) b' := by
  intro t ht
  by_cases hts : t = s
  · subst hts
    rw [hrec, Function.update_self] at ht ⊢
    exact hopen ht
  · rw [hrec, Function.update_of_ne hts] at ht ⊢
    exact (hb t ht).append (hquiet t hts) hlatch

theorem Booked.retire {r : CommandRecord} (hb : Booked T b)
    (hrec : b'.records = Function.update b.records s r) (hr : r.busy = false)
    (he : b'.error = b.error) : Booked T b' := by
  intro t ht
  by_cases hts : t = s
  · subst hts
    rw [hrec, Function.update_self, hr] at ht
    cases ht
  · rw [hrec, Function.update_of_ne hts] at ht ⊢
    rw [he]
    exact hb t ht

/-- The record of a packet that is being published. -/
def CommandRecord.labelled (r : CommandRecord) (hd : Header) : CommandRecord :=
  { r with id := hd.id, receiveAck := hd.receiveAck, doneAck := hd.doneAck }

/-- The bus after the transport has taken or refused a packet. -/
def FirmwareCommands.sent (b : FirmwareCommands) (hd : Header) : FirmwareCommands :=
  { b with
    records := Function.update b.records hd.sequence
      { (b.records hd.sequence).labelled hd with state := .pending }
    publishing := false }

theorem checked_quiet (t : UInt8) (now : UInt64) :
    ∀ x ∈ ([.call .inGate true, .call .nowUs now] : Trace),
      reserves t x = false ∧ notifies t x = false := fun x hx =>
  plain_quiet ((quiet_ticked { epoch := 0 } now).events x hx)

theorem published_quiet (t : UInt8) (now : UInt64) (packet : List UInt8) (ok : Bool) :
    ∀ x ∈ ([.call .inGate true, .call .nowUs now, .call (.publish packet) ok] : Trace),
      reserves t x = false ∧ notifies t x = false := by
  intro x hx
  simp only [List.mem_cons, List.not_mem_nil, or_false] at hx
  rcases hx with rfl | rfl | rfl <;> exact ⟨rfl, rfl⟩

theorem follow_published (hn : b.error = .none) (now : UInt64) (packet : List UInt8) (ok : Bool) :
    b.watch.follow [.call .inGate true, .call .nowUs now, .call (.publish packet) ok] =
      some b.watch := by
  have hn' : b.watch.error = .none := hn
  show (b.watch.step (.call (.publish packet) ok)).bind _ = _
  rw [Watch.step, if_pos hn']
  rfl

theorem keeps_sent {packet : List UInt8} (hn : b.error = .none) (now : UInt64)
    (hr : (b.records (header packet).sequence).state = .reserved) :
    Keeps T b [.call .inGate true, .call .nowUs now, .call (.publish packet) true]
      ((b.ticked now).sent (header packet)) := by
  refine ⟨follow_published hn now packet true, fun hb => ?_, rfl⟩
  · refine hb.update rfl (fun _ => ?_) (fun t _ => published_quiet t now packet true) id
    obtain ⟨earlier, later, rfl, hquiet, -⟩ :=
      hb (header packet).sequence (by simp [CommandRecord.busy, hr])
    refine ⟨earlier, later ++ [.call .inGate true, .call .nowUs now, .call (.publish packet) true],
      by simp [CommandRecord.labelled], fun x hx => ?_, fun _ _ => ⟨packet, by simp, rfl⟩⟩
    exact (List.mem_append.1 hx).elim (hquiet x) (published_quiet _ now packet true x)

theorem keeps_refused {packet : List UInt8} (hn : b.error = .none) (now : UInt64)
    (hr : (b.records (header packet).sequence).state = .reserved)
    (hq : Quiet ((b.ticked now).sent (header packet)) log b') (hf : b'.error ≠ .none) :
    Keeps T b ([.call .inGate true, .call .nowUs now, .call (.publish packet) false] ++ log) b' := by
  refine ⟨?_, fun hb => ?_, hq.epoch⟩
  · rw [Watch.follow_append, follow_published hn]
    exact hq.watched
  · have hevents : ∀ t, ∀ x ∈ ([.call .inGate true, .call .nowUs now,
        .call (.publish packet) false] ++ log : Trace),
        reserves t x = false ∧ notifies t x = false := fun t x hx =>
      (List.mem_append.1 hx).elim (published_quiet t now packet false x) fun hx =>
        plain_quiet (hq.events x hx)
    refine hb.update hq.records (fun _ => ?_) (fun t _ => hevents t) fun h => absurd h hf
    exact (hb (header packet).sequence (by simp [CommandRecord.busy, hr])).failed rfl rfl
      (hevents _) hf

/-- Traces without reservations and notifications. -/
structure Unrelated (log : Trace) : Prop where
  reservations : reservations log = []
  notifications : notifications log = []

theorem Unrelated.append (h : Unrelated log) (h' : Unrelated log') : Unrelated (log ++ log') :=
  ⟨by rw [Commands.reservations, List.filterMap_append]
      exact List.append_eq_nil_iff.2 ⟨h.reservations, h'.reservations⟩,
    by rw [Commands.notifications, List.filterMap_append]
       exact List.append_eq_nil_iff.2 ⟨h.notifications, h'.notifications⟩⟩

theorem Quiet.unrelated (h : Quiet b log b') : Unrelated log := ⟨h.reservations, h.notifications⟩

theorem publish_keeps (buffer : Buffer) :
    (publish buffer).wp (fun log _ b' => Keeps T b log b' ∧ Unrelated log) b := by
  simp only [publish, wp_get_bind, wp_ite, wp_pure]
  refine ⟨fun _ => ⟨Keeps.refl b, rfl, rfl⟩, fun _ =>
    wp_check_guard (fun log b' h => ⟨h.keeps, h.unrelated⟩) fun hn now => ?_⟩
  have hchecked : Keeps T b [.call .inGate true, .call .nowUs now] (b.ticked now) ∧
      Unrelated [.call .inGate true, .call .nowUs now] :=
    ⟨(quiet_ticked b now).keeps, (quiet_ticked b now).unrelated⟩
  simp only [wp_get_bind, wp_ite, wp_pure, wp_modify_bind, setRecord,
    List.append_nil, wp_transportPublish, Function.update_idem]
  refine ⟨fun _ => hchecked, fun _ => ⟨fun _ => hchecked, fun _ => ⟨fun _ => hchecked, fun hr => ?_⟩⟩⟩
  have hr' : (b.records (header buffer.data).sequence).state = .reserved := not_not.1 hr
  have hsent : ∀ ok, Unrelated
      [.call .inGate true, .call .nowUs now, .call (.publish buffer.data) ok] :=
    fun _ => ⟨rfl, rfl⟩
  refine ⟨fun _ => ?_, fun _ ok => ⟨fun hok => ?_, fun hok => ?_⟩⟩
  · -- The header is already in the record, which stays reserved.
    refine ⟨⟨rfl, fun hb => ?_, rfl⟩, hchecked.2⟩
    refine hb.update rfl (fun _ => ?_) (fun t _ => checked_quiet t now) id
    refine ((hb _ (by simp [CommandRecord.busy, hr'])).append (checked_quiet _ now) id).congr rfl rfl
      fun hp => ?_
    exact absurd (hr'.symm.trans hp) (by rintro ⟨⟩)
  · obtain rfl : ok = false := by simpa using hok
    refine wp_mono (fail_quiet (b := (b.ticked now).sent (header buffer.data)) (e := .transport)
      (by rintro ⟨⟩)) fun log _ b' h => ?_
    exact ⟨keeps_refused hn now hr' h.2.1 h.2.2, (hsent false).append h.2.1.unrelated⟩
  · obtain rfl : ok = true := by simpa using hok
    refine wp_check_guard (b := (b.ticked now).sent (header buffer.data)) (fun log b' h => ?_)
      fun hn' now' => ?_
    · exact ⟨(keeps_sent hn now hr').trans h.keeps, (hsent true).append h.unrelated⟩
    · have hticked := quiet_ticked ((b.ticked now).sent (header buffer.data)) now'
      have hkeeps : Keeps T b _ _ := (keeps_sent hn now hr').trans hticked.keeps
      have hunrelated := (hsent true).append hticked.unrelated
      simp only [wp_get_bind, wp_ite, wp_modify_bind, wp_pure]
      refine ⟨fun _ => ⟨⟨hkeeps.watched, fun hb => ?_, rfl⟩, hunrelated⟩, fun _ =>
        ⟨hkeeps, hunrelated⟩⟩
      exact (hkeeps.booked hb).retire rfl rfl rfl

theorem submit_keeps (id : CommandId) (receiveAck doneAck : Bool) (payload : Buffer) :
    (submit id receiveAck doneAck payload receiver token timeoutUs).wp
      (fun log sent b' => Keeps T b log b' ∧ notifications log = [] ∧
        ∀ s ∈ reservations log, s = sent.2 ∧ (b.records s).busy = false) b := by
  simp only [submit, wp_get_bind, wp_ite, wp_pure]
  have hrefl : Keeps T b [] b ∧ notifications [] = [] ∧
      ∀ s ∈ reservations [], s = 0 ∧ (b.records s).busy = false := ⟨Keeps.refl b, rfl, (by intros; contradiction)⟩
  refine ⟨fun _ => hrefl, fun _ => ⟨fun _ => hrefl, fun _ => ⟨fun _ => hrefl, fun _ => ?_⟩⟩⟩
  rw [wp_bind]
  refine wp_reserve (fun log b' h => ?_) fun now hn hmax hfree => ?_
  · simp only [wp_pure, List.append_nil]
    exact ⟨h.keeps, h.notifications, by rw [h.reservations]; exact fun _ hs => absurd hs List.not_mem_nil⟩
  · have hbooked : Keeps T b _ ((b.ticked now).booked receiver token timeoutUs) :=
      keeps_booked hn hmax now
    have hfresh : ∀ s ∈ [b.next.toUInt8], s = b.next.toUInt8 ∧ (b.records s).busy = false :=
      fun s hs => by
        obtain rfl := List.mem_singleton.1 hs
        exact ⟨rfl, hfree⟩
    cases hpacket : encodeH2c id b.next.toUInt8 receiveAck doneAck payload.data packetCapacity with
    | none =>
        simp only [hpacket, wp_pure, List.append_nil]
        exact ⟨hbooked, rfl, hfresh⟩
    | some packet =>
        simp only [hpacket]
        rw [wp_bind]
        refine wp_mono (publish_keeps (T := T ++ [.call .inGate true, .call .nowUs now,
          .note (.reserved b.next.toUInt8 receiver token)]) (.bytes packet)) fun log _ b' h => ?_
        rw [wp_pure, List.append_nil]
        have hres : reservations ([.call .inGate true, .call .nowUs now,
            .note (.reserved b.next.toUInt8 receiver token)] ++ log) = [b.next.toUInt8] :=
          List.filterMap_append.trans (congrArg (_ :: ·) h.2.reservations)
        refine ⟨hbooked.trans h.1, ?_, by rw [hres]; exact hfresh⟩
        exact List.filterMap_append.trans h.2.notifications

/-! ## `accept` and the receivers -/

variable {event : FirmwareEvent} {ack : FirmwareAck} {r : CommandRecord}

@[simps] def FirmwareCommands.filed (b : FirmwareCommands) (s : UInt8) (r : CommandRecord) :
    FirmwareCommands :=
  { b with records := Function.update b.records s r }

theorem keeps_retired (hr : r.busy = false) : Keeps T b [] (b.filed s r) := by
  refine ⟨rfl, fun hb => ?_, rfl⟩
  rw [List.append_nil]
  exact hb.retire rfl hr rfl

theorem keeps_notified (hack : decodeAck event = some ack)
    (hfree : (b.records ack.sequence).busy = false) (rejected : Bool) (epoch : UInt64) :
    Keeps T b [.call (.event receiver event epoch token) ()]
      { b with delivering := true, suspended := some rejected } := by
  refine ⟨rfl, fun hb t ht => ?_, rfl⟩
  have hne : (ack.sequence == t) = false := by
    by_contra h
    have heq : ack.sequence = t := by simpa using h
    rw [← heq] at ht
    exact absurd (ht.symm.trans hfree) nofun
  refine (hb t ht).append (fun x hx => ?_) id
  rw [List.mem_singleton.1 hx]
  refine ⟨rfl, ?_⟩
  simp only [notifies, hack, hne]

theorem deliver_keeps (hack : decodeAck event = some ack)
    (hfree : (b.records ack.sequence).busy = false) (rejected : Bool) :
    (deliver r event rejected).wp (fun log _ b' => Keeps T b log b' ∧ reservations log = [] ∧
      (notifications log = [] ∨ notifications log = [(r.receiver, event, b.epoch, r.token)])) b := by
  simp only [deliver, wp_ite, wp_pure, wp_modify_bind, wp_get_bind,
    wp_ask_bind]
  exact ⟨fun _ => ⟨Keeps.refl b, rfl, Or.inl rfl⟩, fun _ _ =>
    ⟨keeps_notified hack hfree rejected b.epoch, rfl, Or.inr rfl⟩⟩

/-- What `accept` has checked when it enters a receiver. -/
structure Notified (b : FirmwareCommands) (event : FirmwareEvent) (receiveEpoch : UInt64)
    (ack : FirmwareAck) (log : Trace) : Prop where
  epoch : receiveEpoch = b.epoch
  decoded : decodeAck event = some ack
  error : b.error = .none
  state : (b.records ack.sequence).state = .pending
  id : (b.records ack.sequence).id = ack.command
  done : ack.done = (b.records ack.sequence).doneAck
  once : notifications log = [((b.records ack.sequence).receiver, event, b.epoch,
    (b.records ack.sequence).token)]

/-- `accept` reserves nothing, and notifies at most once. -/
structure Accepts (T : Trace) (b : FirmwareCommands) (event : FirmwareEvent) (receiveEpoch : UInt64)
    (log : Trace) (b' : FirmwareCommands) : Prop where
  keeps : Keeps T b log b'
  reservations : reservations log = []
  notified : notifications log = [] ∨ ∃ ack, Notified b event receiveEpoch ack log

variable {receiveEpoch : UInt64}

theorem Quiet.accepts (h : Quiet b log b') :
    Accepts T b event receiveEpoch log b' :=
  ⟨h.keeps, h.reservations, Or.inl h.notifications⟩

/-- The last step of `accept`, after the record was retired. -/
theorem deliver_accepts (hd : Keeps T b log b') (hlog : Unrelated log)
    (hfree : (b'.records ack.sequence).busy = false) (hepoch : receiveEpoch = b.epoch)
    (hack : decodeAck event = some ack) (hn : b.error = .none) (hstate : (b.records ack.sequence).state = .pending)
    (hid : (b.records ack.sequence).id = ack.command) (hdone : ack.done = (b.records ack.sequence).doneAck)
    (rejected : Bool) :
    (deliver (b.records ack.sequence) event rejected).wp
      (fun log' _ b'' => Accepts T b event receiveEpoch (log ++ log') b'') b' := by
  refine wp_mono (deliver_keeps (T := T ++ log) hack hfree rejected) fun log' _ b'' h => ?_
  have hnot : notifications (log ++ log') = notifications log' := by
    refine List.filterMap_append.trans ?_
    rw [show List.filterMap _ log = [] from hlog.notifications]
    rfl
  refine ⟨hd.trans h.1, ?_, ?_⟩
  · refine List.filterMap_append.trans ?_
    exact List.append_eq_nil_iff.2 ⟨hlog.reservations, h.2.1⟩
  · rcases h.2.2 with hno | hone
    · exact Or.inl (hnot.trans hno)
    · refine Or.inr ⟨ack, hepoch, hack, hn, hstate, hid, hdone, ?_⟩
      rw [hnot, hone, hd.epoch]

theorem accept_accepts (event : FirmwareEvent) (receiveEpoch : UInt64) :
    (accept event receiveEpoch).wp (fun log _ b' => Accepts T b event receiveEpoch log b') b := by
  simp only [accept, wp_get_bind, wp_ite, wp_pure]
  refine ⟨fun _ => (Quiet.refl b).accepts, fun hepoch => ⟨fun _ => ?_, fun _ => ?_⟩⟩
  · rw [wp_bind]
    refine wp_mono (fail_quiet (e := .receiver) (by rintro ⟨⟩)) fun log _ b' h => ?_
    rw [wp_pure, List.append_nil]
    exact h.2.1.accepts
  refine wp_check_guard (fun log b' h => h.accepts) fun hn now => ?_
  have hchecked := quiet_ticked b now
  cases hack : decodeAck event with
  | none =>
      simp only [wp_pure]
      exact hchecked.accepts
  | some ack =>
      simp only [wp_get_bind, wp_ite, wp_pure, wp_modify_bind, setRecord,
        Function.update_idem, List.append_nil]
      refine ⟨fun _ => hchecked.accepts, fun hmatch => ?_⟩
      have hstate : (b.records ack.sequence).state = .pending := not_not.1 (not_or.1 hmatch).1
      have hid : (b.records ack.sequence).id = ack.command :=
        (sameCommand_iff.1 (by simpa using (not_or.1 hmatch).2)).symm
      have hepoch' : receiveEpoch = b.epoch := not_not.1 hepoch
      refine ⟨fun hdone => ⟨fun _ => hchecked.accepts, fun hda => ?_⟩, fun hdone =>
        ⟨fun _ => hchecked.accepts, fun _ => ⟨fun hda => ?_, fun hda => ?_⟩⟩⟩
      · -- A DONE acknowledgement retires the record.
        have hdone' : ack.done = (b.records ack.sequence).doneAck := by
          rw [hdone, eq_comm]
          simpa using hda
        have hretired : Keeps T b ([.call .inGate true, .call .nowUs now] ++ [])
            ((b.ticked now).filed ack.sequence
              { b.records ack.sequence with state := .complete }) :=
          hchecked.keeps.trans (keeps_retired rfl)
        rw [List.append_nil] at hretired
        refine ⟨fun _ => ?_, fun _ => ?_⟩
        · rw [wp_bind]
          refine wp_mono (fail_quiet (b := (b.ticked now).filed ack.sequence
            { b.records ack.sequence with state := .complete }) (e := .firmwareRejected) (by rintro ⟨⟩))
            fun log _ d h => ?_
          have hfree : (d.records ack.sequence).busy = false := by
            rw [h.2.1.records, FirmwareCommands.filed_records, Function.update_self]
            rfl
          have hdeliver := deliver_accepts (hretired.trans h.2.1.keeps)
            (hchecked.unrelated.append h.2.1.unrelated) hfree hepoch' hack hn hstate hid hdone' true
          refine wp_mono hdeliver fun log' _ d' h' => ?_
          rw [← List.append_assoc]
          exact h'
        · refine deliver_accepts hretired hchecked.unrelated ?_ hepoch' hack hn hstate hid hdone' false
          rw [FirmwareCommands.filed_records, Function.update_self]
          rfl
      · -- Reception alone changes nothing that is booked.
        refine ⟨⟨rfl, fun hb => ?_, rfl⟩, hchecked.reservations, Or.inl hchecked.notifications⟩
        refine hb.update rfl (fun _ => ?_) (fun t _ => checked_quiet t now) id
        refine ((hb _ (by simp [CommandRecord.busy, hstate])).append (checked_quiet _ now) id).congr
          rfl rfl fun _ => ⟨hstate, rfl, rfl, rfl⟩
      · have hdone' : ack.done = (b.records ack.sequence).doneAck := by
          have h1 : ack.done = false := by simpa using hdone
          have h2 : (b.records ack.sequence).doneAck = false := by simpa using hda
          rw [h1, h2]
        have hretired : Keeps T b ([.call .inGate true, .call .nowUs now] ++ [])
            ((b.ticked now).filed ack.sequence
              { b.records ack.sequence with received := true, state := .complete }) :=
          hchecked.keeps.trans (keeps_retired rfl)
        rw [List.append_nil] at hretired
        refine deliver_accepts hretired hchecked.unrelated ?_ hepoch' hack hn hstate hid hdone' false
        rw [FirmwareCommands.filed_records, Function.update_self]
        rfl

theorem returned_quiet (ok : Bool) :
    (returned ok).wp (fun log _ b' => Quiet b log b') b := by
  simp only [returned, wp_get_bind]
  cases b.suspended with
  | none =>
      simp only [wp_pure]
      exact Quiet.refl b
  | some rejected =>
      simp only [wp_modify_bind]
      have hresumed : Quiet b [] { b with delivering := false, suspended := none } :=
        ⟨rfl, rfl, rfl, id, (by simp), rfl⟩
      rw [wp_ite, wp_bind, wp_bind]
      refine ⟨fun _ => ?_, fun _ => ?_⟩
      · refine wp_mono check_quiet fun log _ b' h => ?_
        rw [wp_pure, List.append_nil]
        exact hresumed.trans h.1
      · refine wp_mono (fail_quiet (e := .receiver) (by rintro ⟨⟩)) fun log _ b' h => ?_
        rw [wp_pure, List.append_nil]
        exact hresumed.trans h.2.1

/-! ## Every call -/

/-- What a call of the bus does. -/
structure Effect (T : Trace) (b : FirmwareCommands) (op : Op) (log : Trace) (result : Result)
    (b' : FirmwareCommands) : Prop where
  keeps : Keeps T b log b'
  fresh : ∀ s ∈ reservations log, (b.records s).busy = false
  handed : ∀ s ∈ reservations log, result = .sequence (some s) ∨ ∃ ok, result = .submitted (ok, s)
  notified : notifications log = [] ∨
    ∃ event receiveEpoch ack, op = .accept event receiveEpoch ∧
      Notified b event receiveEpoch ack log

theorem Keeps.effect {op : Op} {result : Result} (h : Keeps T b log b') (hu : Unrelated log) :
    Effect T b op log result b' :=
  ⟨h, by rw [hu.reservations]; nofun, by rw [hu.reservations]; nofun, Or.inl hu.notifications⟩

theorem Quiet.effect {op : Op} {result : Result} (h : Quiet b log b') :
    Effect T b op log result b' :=
  h.keeps.effect h.unrelated

theorem exec_effect (op : Op) :
    (exec op).wp (fun log result b' => Effect T b op log result b') b := by
  cases op with
  | reserve receiver token timeoutUs =>
      rw [exec, wp_bind]
      refine wp_reserve (fun log b' h => ?_) fun now hn hmax hfree => ?_
      · rw [wp_pure, List.append_nil]
        exact h.effect
      · rw [wp_pure, List.append_nil]
        refine ⟨keeps_booked hn hmax now, fun s hs => ?_, fun s hs => ?_, Or.inl rfl⟩
        · obtain rfl : s = b.next.toUInt8 := List.mem_singleton.1 hs
          exact hfree
        · obtain rfl : s = b.next.toUInt8 := List.mem_singleton.1 hs
          exact Or.inl rfl
  | publish buffer =>
      rw [exec, wp_bind]
      refine wp_mono (publish_keeps (T := T) buffer) fun log _ b' h => ?_
      rw [wp_pure, List.append_nil]
      exact h.1.effect h.2
  | submit id receiveAck doneAck payload receiver token timeoutUs =>
      rw [exec, wp_bind]
      refine wp_mono (submit_keeps (T := T) id receiveAck doneAck payload)
        fun log sent b' h => ?_
      rw [wp_pure, List.append_nil]
      refine ⟨h.1, fun s hs => (h.2.2 s hs).2, fun s hs => Or.inr ⟨sent.1, ?_⟩, Or.inl h.2.1⟩
      rw [(h.2.2 s hs).1]
  | accept event receiveEpoch =>
      refine wp_mono (accept_accepts (T := T) event receiveEpoch) fun log _ b' h => ?_
      refine ⟨h.keeps, by rw [h.reservations]; nofun, by rw [h.reservations]; nofun,
        h.notified.imp_right ?_⟩
      rintro ⟨ack, hack⟩
      exact ⟨event, receiveEpoch, ack, rfl, hack⟩
  | returned ok => exact wp_mono (returned_quiet ok) fun log _ b' h => h.effect
  | service =>
      rw [exec, wp_bind]
      refine wp_mono check_quiet fun log _ b' h => ?_
      rw [wp_pure, List.append_nil]
      exact h.1.effect
  | invalidate =>
      rw [exec, wp_bind]
      refine wp_mono (fail_quiet (e := .invalidated) nofun) fun log _ b' h => ?_
      rw [wp_pure, List.append_nil]
      exact h.2.1.effect

/-! ## Runs -/

variable {h : List Record} {epoch : UInt64}

def trace (h : List Record) : Trace := h.reverse.flatMap fun x => x.log

theorem trace_cons (x : Record) (h : List Record) : trace (x :: h) = trace h ++ x.log := by
  simp [trace]

/-- How often the receiver behind a sequence was notified since the sequence was last reserved. -/
def answered (s : UInt8) (n : ℕ) (T : Trace) : ℕ :=
  T.foldl (fun n x => if reserves s x then 0 else if notifies s x then n + 1 else n) n

theorem answered_append (n : ℕ) : answered s n (T ++ log) = answered s (answered s n T) log :=
  List.foldl_append

theorem answered_silent :
    ∀ {log : Trace} {n : ℕ}, (∀ x ∈ log, notifies s x = false) → answered s n log ≤ n := by
  intro log
  induction log with
  | nil =>
      intro n _
      exact le_rfl
  | cons x log ih =>
      intro n hlog
      have hx := hlog x List.mem_cons_self
      have hrest : ∀ y ∈ log, notifies s y = false := fun y hy => hlog y (List.mem_cons_of_mem _ hy)
      refine (ih hrest).trans ?_
      simp only [hx, Bool.false_eq_true, if_false]
      split
      · exact Nat.zero_le n
      · exact le_rfl

theorem answered_le :
    ∀ {log : Trace} {n : ℕ}, answered s n log ≤ n + (notifications log).length := by
  intro log
  induction log with
  | nil =>
      intro n
      exact le_rfl
  | cons x log ih =>
      intro n
      refine ih.trans ?_
      cases x with
      | note m =>
          have hnot : notifications (.note m :: log) = notifications log := rfl
          rw [hnot]
          dsimp only [notifies]
          split
          · omega
          · simp
      | call c r =>
          cases c with
          | event receiver ev ep tok =>
              have hnot : (notifications (.call (.event receiver ev ep tok) r :: log)).length =
                  (notifications log).length + 1 := rfl
              rw [hnot]
              simp only [reserves, Bool.false_eq_true, if_false]
              split <;> omega
          | _ =>
              dsimp only [reserves, notifies]
              exact le_rfl

theorem Open.unanswered (ho : Open s r e T) : answered s 0 T = 0 := by
  obtain ⟨earlier, later, rfl, hquiet, -⟩ := ho
  rw [answered_append]
  have hreset : ∀ n, answered s n (.note (.reserved s r.receiver r.token) :: later) =
      answered s 0 later := fun n => by
    show answered s (if reserves s _ then 0 else _) later = _
    simp [reserves]
  rw [hreset]
  exact Nat.le_zero.1 (answered_silent fun x hx => (hquiet x hx).2)

/-- The notification `accept` makes is for the sequence of its acknowledgement. -/
theorem Notified.silent (hn : Notified b event receiveEpoch ack log) (hs : ack.sequence ≠ s) :
    ∀ x ∈ log, notifies s x = false := by
  intro x hx
  cases x with
  | note m => rfl
  | call c r =>
      cases c with
      | event receiver ev ep tok =>
          have hmem : (receiver, ev, ep, tok) ∈ notifications log :=
            List.mem_filterMap.2 ⟨_, hx, rfl⟩
          rw [hn.once, List.mem_singleton] at hmem
          obtain rfl : ev = event := congrArg (fun p => p.2.1) hmem
          simp only [notifies, hn.decoded]
          simpa using hs
      | _ => rfl

/-- What holds of the bus and everything that happened on it. -/
structure Kept (epoch : UInt64) (h : List Record) (b : FirmwareCommands) : Prop where
  watched : (⟨.none, 0⟩ : Watch).follow (trace h) = some b.watch
  booked : Booked (trace h) b
  epoch : b.epoch = epoch
  once : ∀ s, answered s 0 (trace h) ≤ 1

theorem Effect.kept {x : Record} (hk : Kept epoch h x.before)
    (he : Effect (trace h) x.before x.op x.log x.result x.after) : Kept epoch (x :: h) x.after := by
  refine ⟨?_, ?_, he.keeps.epoch.trans hk.epoch, fun s => ?_⟩
  · rw [trace_cons, Watch.follow_append, hk.watched]
    exact he.keeps.watched
  · rw [trace_cons]
    exact he.keeps.booked hk.booked
  · rw [trace_cons, answered_append]
    rcases he.notified with hno | ⟨event, receiveEpoch, ack, -, hn⟩
    · have hle : answered s (answered s 0 (trace h)) x.log ≤
          answered s 0 (trace h) + (notifications x.log).length := answered_le
      rw [hno] at hle
      exact hle.trans (hk.once s)
    · by_cases hs : ack.sequence = s
      · subst hs
        have hopen := hk.booked ack.sequence (by simp [CommandRecord.busy, hn.state])
        have hle : answered ack.sequence 0 x.log ≤ 0 + (notifications x.log).length := answered_le
        rw [hopen.unanswered]
        rwa [hn.once] at hle
      · exact (answered_silent (hn.silent hs)).trans (hk.once s)

theorem Run.kept (hrun : Run epoch h b) : Kept epoch h b := by
  have hinitial : Kept epoch [] { epoch := epoch } :=
    ⟨rfl, nofun, rfl, fun s => Nat.zero_le 1⟩
  refine Interaction.Run.invariant hinitial ?_ hrun
  intro h b b' op log result hrun hk hout
  exact Effect.kept (x := ⟨b, op, log, result, b'⟩) hk
    (wp_outcome (exec_effect (T := trace h) op) hout)

theorem Run.effect_of_split {later earlier : List Record} {x : Record}
    (hrun : Run epoch (later ++ x :: earlier) b) :
    Kept epoch earlier x.before ∧ Effect (trace earlier) x.before x.op x.log x.result x.after := by
  obtain ⟨hbefore, -, hout⟩ := (Interaction.Run.drop hrun).tail
  exact ⟨Run.kept hbefore, wp_outcome (exec_effect (T := trace earlier) x.op) hout⟩

/-! ## The theorem -/

/-- The receiver that `x` enters: an acknowledgement of the bus's own epoch came in for a pending
record, which this receiver had reserved and whose packet had gone out; nobody was notified for it in
between; and it is the kind of acknowledgement the packet asked for. -/
def Delivered (epoch : UInt64) (x : Record) (earlier : List Record) : Prop :=
  ∃ event ack receiver token packet before after,
    x.op = .accept event epoch ∧ decodeAck event = some ack ∧
    notifications x.log = [(receiver, event, epoch, token)] ∧
    (x.before.records ack.sequence).state = .pending ∧
    (x.before.records ack.sequence).id = ack.command ∧
    trace earlier = before ++ .note (.reserved ack.sequence receiver token) :: after ∧
    (∀ y ∈ after, reserves ack.sequence y = false ∧ notifies ack.sequence y = false) ∧
    .call (.publish packet) true ∈ after ∧
    (header packet).sequence = ack.sequence ∧ (header packet).id = ack.command ∧
    (header packet).doneAck = ack.done

theorem Notified.delivered {x : Record} {earlier : List Record} (hk : Kept epoch earlier x.before)
    (hop : x.op = .accept event receiveEpoch) (hn : Notified x.before event receiveEpoch ack x.log) :
    Delivered epoch x earlier := by
  have hopen := hk.booked ack.sequence (by simp [CommandRecord.busy, hn.state])
  obtain ⟨before, after, htrace, hquiet, hpub⟩ := hopen
  obtain ⟨packet, hmem, hhead⟩ := hpub hn.state hn.error
  refine ⟨event, ack, _, _, packet, before, after, ?_, hn.decoded, ?_, hn.state, hn.id, htrace,
    hquiet, hmem, ?_, ?_, ?_⟩
  · rw [hop, hn.epoch, hk.epoch]
  · rw [hn.once, hk.epoch]
  · rw [hhead]
  · rw [hhead]
    exact hn.id
  · rw [hhead]
    exact hn.done.symm

/-- Over every order of calls, nested in receivers or not, and with every clock and transport: a
receiver is entered only as `Delivered` says, and at most once for each reservation; a reservation
never hits a record that is reserved or pending; the `k`-th reservation gets the sequence `k` modulo
256; and an error, once set, stays as it is and ends all publishing. -/
theorem command_bus_delivery (hrun : Run epoch h b) :
    (∀ later x earlier, h = later ++ x :: earlier → notifications x.log ≠ [] →
      Delivered epoch x earlier) ∧
    (∀ s, answered s 0 (trace h) ≤ 1) ∧
    (∀ x ∈ h, ∀ s ∈ reservations x.log,
      (x.before.records s).state ≠ .reserved ∧ (x.before.records s).state ≠ .pending) ∧
    (∀ x ∈ h, ∀ s ∈ reservations x.log,
      x.result = .sequence (some s) ∨ ∃ ok, x.result = .submitted (ok, s)) ∧
    reservations (trace h) =
      (List.range (reservations (trace h)).length).map (fun k => UInt8.ofNat (k % 256)) ∧
    (∀ x ∈ h, x.before.error ≠ .none →
      x.after.error = x.before.error ∧ ∀ y ∈ x.log, publishes y = false) ∧
    (∀ before e after, trace h = before ++ .note (.failed e) :: after →
      b.error = e ∧ ∀ y ∈ after, publishes y = false) := by
  have hk := Run.kept hrun
  refine ⟨?_, hk.once, ?_, ?_, ?_, ?_, ?_⟩
  · rintro later x earlier rfl hne
    obtain ⟨hkx, he⟩ := Run.effect_of_split hrun
    rcases he.notified with hno | ⟨event, receiveEpoch, ack, hop, hn⟩
    · exact absurd hno hne
    · exact hn.delivered hkx hop
  · intro x hx s hs
    obtain ⟨later, earlier, rfl⟩ := List.append_of_mem hx
    have hfree := (Run.effect_of_split hrun).2.fresh s hs
    simpa [CommandRecord.busy] using hfree
  · intro x hx
    obtain ⟨later, earlier, rfl⟩ := List.append_of_mem hx
    exact (Run.effect_of_split hrun).2.handed
  · have hlist := (Watch.follow_reservations hk.watched).1
    rw [← List.range_eq_range'] at hlist
    rw [hlist]
    simp only [List.length_map, List.length_range]
    refine List.map_congr_left fun k _ => ?_
    apply UInt8.toNat_inj.1
    simp
  · intro x hx hne
    obtain ⟨later, earlier, rfl⟩ := List.append_of_mem hx
    have hw := (Run.effect_of_split hrun).2.keeps.watched
    obtain ⟨hsame, hquiet⟩ := Watch.follow_latched (w := x.before.watch) hne hw
    exact ⟨congrArg Watch.error hsame, fun y hy => (hquiet y hy).1⟩
  · intro before e after htrace
    have hw := hk.watched
    rw [htrace, Watch.follow_append] at hw
    obtain ⟨w, -, hw⟩ := Option.bind_eq_some_iff.1 hw
    obtain ⟨w', hstep, hrest⟩ := Option.bind_eq_some_iff.1 hw
    by_cases hc : w.error = .none ∧ e ≠ .none
    · rw [Watch.step, if_pos hc] at hstep
      obtain rfl := Option.some.inj hstep
      obtain ⟨hsame, hquiet⟩ := Watch.follow_latched (w := { w with error := e }) hc.2 hrest
      exact ⟨congrArg Watch.error hsame, fun y hy => (hquiet y hy).1⟩
    · rw [Watch.step, if_neg hc] at hstep
      cases hstep

/-- A transport that takes every packet; its clock advances with every look. -/
def obliging : (call : Call) → UInt64 → Reply call × UInt64
  | .inGate, now => (true, now)
  | .nowUs, now => (now, now + 1)
  | .publish _, now => (true, now)
  | .event _ _ _ _, now => ((), now)

/-- A receiver that submits its next command when the first one is acknowledged. -/
def chained : List Op :=
  [.submit ⟨1, 8, 4⟩ false true (.bytes [1, 2, 3, 4]) ⟨some 1, some 1⟩ 100 2000,
    .accept ⟨⟨1, 0, 1⟩, some [33, 4, 0, 0]⟩ 42,
    .submit ⟨1, 8, 0⟩ false true (.bytes [9, 8, 7, 6]) ⟨some 1, some 1⟩ 101 2000, .returned true,
    .accept ⟨⟨1, 0, 1⟩, some [33, 0, 0, 1]⟩ 42]

def chainedHistory : List Record := (replay exec obliging chained { epoch := 42 } 100).1

set_option maxRecDepth 100000 in
theorem command_bus_delivery_chained :
    ∃ x earlier, chainedHistory = x :: earlier ∧ Delivered 42 x earlier ∧
      reservations (trace chainedHistory) = [0, 1] := by
  have hsplit : chainedHistory = [] ++ chainedHistory[0] :: chainedHistory.tail := rfl
  have hrun : Run 42 chainedHistory _ := replay_run exec obliging chained { epoch := 42 } 100
  exact ⟨_, _, hsplit, (command_bus_delivery hrun).1 _ _ _ hsplit (by decide +kernel),
    by decide +kernel⟩

end Commands
end Rtl8852be
