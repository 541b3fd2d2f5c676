import Rtl8852be.Commands.Codec

/-!
# Submission — a command is sent, or the bus fails, or nothing has happened

`submit` validates, reserves a record, encodes and publishes.  Everything that can be wrong with its
arguments is found before the reservation: the packet it encodes is one that `publish` takes.  What can
still go wrong is the bus, and then the bus has failed.

* `Quiet.refused` — a step that touches no record has failed the bus or changed nothing;
* `publish_prepared` — `publish` of a prepared packet sends it, or the bus fails;
* `submit_atomic` — the three ways in which `submit` ends.
-/

namespace Rtl8852be
namespace Commands

open Interaction Network

variable {b b' : FirmwareCommands} {log : Trace} {receiver : CommandReceiver} {token timeoutUs : UInt64}
variable {id : CommandId} {receiveAck doneAck : Bool} {payload : Buffer}

/-! ## The three endings -/

/-- The event does not report that the gate is open. -/
def gated : TraceEvent → Bool
  | .call .inGate held => held
  | _ => true

/-- The gate was held whenever the bus asked. -/
def Inside (log : Trace) : Prop := ∀ x ∈ log, gated x = true

theorem Inside.right {log' : Trace} (h : Inside (log ++ log')) : Inside log' := by
  intro x hx
  exact h x (List.mem_append_right _ hx)

theorem Inside.tail {x : TraceEvent} (h : Inside (x :: log)) : Inside log := by
  intro y hy
  exact h y (List.mem_cons_of_mem _ hy)

/-- The packet went out under this sequence.  Its record waits for an acknowledgement, if the header of
the packet asks for one. -/
structure Sent (b : FirmwareCommands) (log : Trace) (s : UInt8) (b' : FirmwareCommands)
    (packet : List UInt8) : Prop where
  published : .call (.publish packet) true ∈ log
  sequence : (header packet).sequence = s
  record : (b'.records s).state =
    if (header packet).receiveAck = false ∧ (header packet).doneAck = false then .complete else .pending
  others : ∀ t, t ≠ s → b'.records t = b.records t
  working : b'.error = .none

/-- Nothing went out, and the bus is as it was. -/
structure Untouched (b : FirmwareCommands) (log : Trace) (b' : FirmwareCommands) : Prop where
  records : b'.records = b.records
  next : b'.next = b.next
  error : b'.error = b.error
  silent : ∀ packet ok, .call (.publish packet) ok ∉ log

/-- How `submit` ends, when it returns `ok` and leaves `s` in its argument `sequence`. -/
inductive Ending (b : FirmwareCommands) (id : CommandId) (receiveAck doneAck : Bool)
    (payload : List UInt8) (log : Trace) (b' : FirmwareCommands) : Bool → UInt8 → Prop
  | sent {s : UInt8} (packet : List UInt8)
      (encoded : encodeH2c id s receiveAck doneAck payload packetCapacity = some packet)
      (sent : Sent b log s b' packet) : Ending b id receiveAck doneAck payload log b' true s
  | faulted {s : UInt8} (error : b'.error ≠ .none) :
      Ending b id receiveAck doneAck payload log b' false s
  | refused {s : UInt8} (untouched : Untouched b log b') :
      Ending b id receiveAck doneAck payload log b' false s

theorem Ending.reserved {payload : List UInt8} {ok : Bool} {s : UInt8}
    (h : Ending b id receiveAck doneAck payload log b' ok s) (hworking : b'.error = .none) {t : UInt8}
    (ht : (b'.records t).state = .reserved) : b'.records t = b.records t := by
  cases h with
  | sent packet encoded sent =>
      apply sent.others
      intro hsame
      rw [hsame, sent.record] at ht
      split at ht
      · exact absurd ht nofun
      · exact absurd ht nofun
  | faulted error => exact absurd hworking error
  | refused untouched => rw [untouched.records]

/-! ## Steps that touch no record -/

/-- Such a step has failed the bus, or changed nothing. -/
theorem Quiet.refused (h : Quiet b log b') : b'.error ≠ .none ∨ Untouched b log b' := by
  by_cases hworking : b'.error = .none
  · refine Or.inr ⟨h.records, h.next, hworking.trans (h.latched hworking).symm, ?_⟩
    intro packet ok hmem
    exact absurd (h.events _ hmem) nofun
  · exact Or.inl hworking

theorem Quiet.ending {payload : List UInt8} {s : UInt8} (h : Quiet b log b') :
    Ending b id receiveAck doneAck payload log b' false s := by
  rcases h.refused with herror | huntouched
  · exact Ending.faulted herror
  · exact Ending.refused huntouched

/-- Inside the gate a verified bus refuses only if it has failed. -/
theorem check_refuses :
    check.wp (fun log ok b' => (ok = true → b.epoch ≠ 0) ∧
      (ok = false → b.epoch ≠ 0 → Inside log → b'.error ≠ .none)) b := by
  simp only [check, wp_get_bind, wp_ite, wp_pure, wp_inGate, wp_nowUs,
    wp_modify_bind]
  refine ⟨?_, ?_⟩
  · intro hdown
    refine ⟨(by rintro ⟨⟩), fun _ hepoch _ => ?_⟩
    rcases hdown with h | h
    · exact absurd h hepoch
    · exact h
  intro hup gate
  have hepoch : b.epoch ≠ 0 := fun h => hup (Or.inl h)
  refine ⟨?_, ?_⟩
  · -- Outside the gate.
    intro hgate
    refine ⟨(by rintro ⟨⟩), fun _ _ hinside => ?_⟩
    have : gate = true := hinside _ List.mem_cons_self
    exact absurd this (by simpa using hgate)
  · intro _ now
    refine ⟨fun _ => ?_, fun _ => ⟨fun _ => ?_, fun _ => ⟨fun _ => hepoch, (by rintro ⟨⟩)⟩⟩⟩
    · apply wp_mono (fail_quiet (e := .clock) (by rintro ⟨⟩))
      intro log ok b' h
      exact ⟨fun _ => hepoch, fun _ _ _ => h.2.2⟩
    · apply wp_mono (fail_quiet (e := .timeout) (by rintro ⟨⟩))
      intro log ok b' h
      exact ⟨fun _ => hepoch, fun _ _ _ => h.2.2⟩

/-- `check` in front of the rest of a function, on a bus with an epoch, inside the gate. -/
theorem wp_check_failing {Q : Trace → Bool → FirmwareCommands → Prop} {rest : Gated Bool}
    (hepoch : b.epoch ≠ 0)
    (hstop : ∀ log b', (Inside log → b'.error ≠ .none) → Q log false b')
    (hrest : b.error = .none → ∀ now,
      rest.wp (fun log a b' => Q ([.call .inGate true, .call .nowUs now] ++ log) a b')
        (b.ticked now)) :
    (do if !(← check) then return false
        rest).wp Q b := by
  rw [wp_bind]
  apply wp_mono (wp_and check_quiet check_refuses)
  intro log ok b' hchecked
  rw [wp_ite]
  refine ⟨?_, ?_⟩
  · intro hok
    rw [wp_pure, List.append_nil]
    apply hstop
    exact hchecked.2.2 (by simpa using hok) hepoch
  · intro hok
    rcases hchecked.1.2 (by simpa using hok) with ⟨hworking, now, rfl, rfl⟩
    exact hrest hworking now

/-! ## `publish` -/

theorem FirmwareCommands.sent_self {hd : Header} :
    (b.sent hd).records hd.sequence =
      { (b.records hd.sequence).labelled hd with state := .pending } :=
  Function.update_self ..

theorem FirmwareCommands.sent_other {hd : Header} {t : UInt8} (ht : t ≠ hd.sequence) :
    (b.sent hd).records t = b.records t :=
  Function.update_of_ne ht ..

/-- What `publish` finds for a command that was encoded for a reserved record. -/
structure Prepared (b : FirmwareCommands) (packet : List UInt8) : Prop where
  verified : b.epoch ≠ 0
  free : b.publishing = false
  size : 8 ≤ packet.length ∧ packet.length ≤ packetCapacity
  formed : wellFormed packet = true
  awaited : Awaits (b.records (header packet).sequence) (header packet)

theorem publish_prepared {packet : List UInt8} (h : Prepared b packet) :
    (publish (.bytes packet)).wp (fun log ok b' =>
      (ok = true → Sent b log (header packet).sequence b' packet) ∧
        (ok = false → Inside log → b'.error ≠ .none)) b := by
  have hfree : ¬ b.publishing = true := by simp [h.free]
  have hvalid : ¬ ((Buffer.bytes packet).isNull = true ∨ (Buffer.bytes packet).length < 8 ∨
      (Buffer.bytes packet).length > packetCapacity) := by
    rintro (hnull | hshort | hlong)
    · exact absurd hnull (by rintro ⟨⟩)
    · exact absurd h.size.1 (Nat.not_le.2 hshort)
    · exact absurd h.size.2 (Nat.not_le.2 hlong)
  have hformed : ¬ (!wellFormed packet) = true := by simp [h.formed]
  have hdata : (Buffer.bytes packet).data = packet := rfl
  simp only [publish, wp_get_bind]
  rw [wp_ite]
  refine ⟨fun hbusy => absurd hbusy hfree, fun _ => ?_⟩
  apply wp_check_failing h.verified
  · intro log b' hfailed
    exact ⟨(by rintro ⟨⟩), fun _ => hfailed⟩
  intro _ now
  simp only [wp_get_bind, wp_ite, wp_pure, wp_modify_bind, setRecord,
    wp_transportPublish, hdata, Function.update_idem]
  refine ⟨fun hbad => absurd hbad hvalid, fun _ => ⟨fun hbad => absurd hbad hformed, fun _ =>
    ⟨fun hbad => absurd h.awaited.reserved hbad, fun _ => ⟨?_, ?_⟩⟩⟩⟩
  · -- The caller asked for no acknowledgement, and nor does the header.
    intro hsilent
    rcases h.awaited.acknowledged hsilent.1 with hack | hack
    · exact absurd hsilent.2.1 (by simp [hack])
    · exact absurd hsilent.2.2 (by simp [hack])
  intro _ taken
  refine ⟨?_, ?_⟩
  · intro _
    apply wp_mono (fail_quiet (b := (b.ticked now).sent (header packet)) (e := .transport) (by rintro ⟨⟩))
    intro log ok b' hfailed
    refine ⟨?_, fun _ _ => hfailed.2.2⟩
    intro hok
    exact absurd (hfailed.1.symm.trans hok) (by rintro ⟨⟩)
  · intro htaken
    have htaken' : taken = true := by simpa using htaken
    subst htaken'
    apply wp_check_failing (b := (b.ticked now).sent (header packet)) h.verified
    · intro log b' hfailed
      exact ⟨(by rintro ⟨⟩), fun _ hinside => hfailed hinside.right.tail⟩
    intro hworking now'
    simp only [wp_get_bind, wp_ite, wp_pure, wp_modify_bind]
    refine ⟨?_, ?_⟩
    · -- Nobody will acknowledge the command.
      intro hsilent
      refine ⟨fun _ => ⟨by simp, rfl, ?_, ?_, hworking⟩, (by rintro ⟨⟩)⟩
      · have hasks : (header packet).receiveAck = false ∧ (header packet).doneAck = false := by
          simpa [FirmwareCommands.sent_self, CommandRecord.labelled] using hsilent
        simp only [if_pos hasks, Function.update_self]
      · intro t ht
        exact (Function.update_of_ne ht _ _).trans (FirmwareCommands.sent_other ht)
    · intro hack
      refine ⟨fun _ => ⟨by simp, rfl, ?_, ?_, hworking⟩, (by rintro ⟨⟩)⟩
      · have hasks : ¬ ((header packet).receiveAck = false ∧ (header packet).doneAck = false) := by
          simpa [FirmwareCommands.sent_self, CommandRecord.labelled] using hack
        rw [if_neg hasks]
        exact congrArg CommandRecord.state FirmwareCommands.sent_self
      · intro t ht
        exact FirmwareCommands.sent_other ht

/-! ## `submit` -/

/-- A reservation is made by a verified bus that is not publishing. -/
theorem reserve_verified :
    (reserve receiver token timeoutUs).wp (fun _ reserved _ => reserved.isSome = true →
      b.epoch ≠ 0 ∧ b.publishing = false) b := by
  simp only [reserve, wp_get_bind, wp_ite, wp_pure]
  refine ⟨fun _ => (by rintro ⟨⟩), fun hfree => ?_⟩
  rw [wp_bind]
  apply wp_mono check_refuses
  intro log ok b' hchecked
  rw [wp_ite]
  refine ⟨fun _ => (wp_pure _).2 (by rintro ⟨⟩), fun hok => ?_⟩
  apply wp_of_outcome
  intro log' reserved b'' _ _
  exact ⟨hchecked.1 (by simpa using hok), by simpa using hfree⟩

theorem Buffer.length_data_le : ∀ payload : Buffer, payload.data.length ≤ payload.length
  | .null _ => Nat.zero_le _
  | .bytes _ => le_refl _

/-- The arguments that `submit` takes to the bus. -/
structure Valid (id : CommandId) (receiveAck doneAck : Bool) (payload : Buffer)
    (receiver : CommandReceiver) : Prop where
  category : id.category ≤ 3
  commandClass : id.commandClass ≤ 63
  size : payload.length ≤ 16375
  acknowledged : receiver.event.isSome = true → receiveAck = true ∨ doneAck = true

/-- The command of valid arguments is prepared as soon as its record is reserved. -/
theorem Valid.prepared (h : Valid id receiveAck doneAck payload receiver) {s : UInt8}
    (hepoch : b.epoch ≠ 0) (hfree : b.publishing = false)
    (hstate : (b.records s).state = .reserved) (hreceiver : (b.records s).receiver = receiver) :
    Prepared b (packet id s receiveAck doneAck payload.data) := by
  have hsize : payload.data.length ≤ 16375 := payload.length_data_le.trans h.size
  have hheader : header (packet id s receiveAck doneAck payload.data) =
      ⟨s, id, receiveAck || s % 4 == 0, doneAck⟩ := (header_packet h.category h.commandClass hsize).1
  have hformed : wellFormed (packet id s receiveAck doneAck payload.data) = true :=
    (header_packet h.category h.commandClass hsize).2
  refine ⟨hepoch, hfree, ?_, hformed, ?_⟩
  · rw [length_packet, packetCapacity]
    omega
  · rw [hheader]
    refine ⟨hstate, fun hevent => ?_⟩
    rw [hreceiver] at hevent
    rcases h.acknowledged hevent with hack | hack
    · exact Or.inl (by simp [hack])
    · exact Or.inr hack

theorem submit_ends :
    (submit id receiveAck doneAck payload receiver token timeoutUs).wp (fun log sent b' =>
      Inside log → Ending b id receiveAck doneAck payload.data log b' sent.1 sent.2) b := by
  have hnothing : Ending b id receiveAck doneAck payload.data [] b false 0 := (Quiet.refl b).ending
  simp only [submit, wp_get_bind, wp_ite, wp_pure]
  refine ⟨fun _ _ => hnothing, fun _ => ⟨fun _ _ => hnothing, fun hshape => ⟨fun _ _ => hnothing,
    fun hack => ?_⟩⟩⟩
  have hvalid : Valid id receiveAck doneAck payload receiver := by
    simp only [not_or, gt_iff_lt, UInt8.not_lt, not_lt] at hshape
    refine ⟨hshape.1, hshape.2.1, hshape.2.2.2, fun hevent => ?_⟩
    by_contra hsilent
    exact hack ⟨hevent, by simpa using hsilent⟩
  rw [wp_bind]
  apply wp_mono (wp_and (wp_reserve (Q := fun log reserved b' =>
    reserved.elim (Quiet b log b') fun s => s = b.next.toUInt8 ∧ ∃ now,
      log = [.call .inGate true, .call .nowUs now, .note (.reserved s receiver token)] ∧
        b' = (b.ticked now).booked receiver token timeoutUs) (fun log b' h => h)
    fun now _ _ _ => ⟨rfl, now, rfl, rfl⟩) reserve_verified)
  intro log reserved b' hreserved
  cases reserved with
  | none =>
      simp only [wp_pure, List.append_nil]
      exact fun _ => Quiet.ending hreserved.1
  | some s =>
      rcases hreserved.1 with ⟨rfl, now, rfl, rfl⟩
      rcases hreserved.2 rfl with ⟨hepoch, hfree⟩
      have hencode := @encodeH2c_eq _ b.next.toUInt8 receiveAck doneAck payload.data packetCapacity hvalid.category
        hvalid.commandClass (payload.length_data_le.trans hvalid.size) (by
          have hsize := payload.length_data_le.trans hvalid.size
          rw [packetCapacity]
          omega)
      simp only [hencode]
      have hrecord : ((b.ticked now).booked receiver token timeoutUs).records b.next.toUInt8 =
          (b.ticked now).booking receiver token timeoutUs := Function.update_self ..
      have hheader : (header (packet id b.next.toUInt8 receiveAck doneAck payload.data)).sequence =
          b.next.toUInt8 := congrArg Header.sequence
        (header_packet hvalid.category hvalid.commandClass (payload.length_data_le.trans hvalid.size)).1
      rw [wp_bind]
      apply wp_mono (publish_prepared (hvalid.prepared (b := (b.ticked now).booked receiver token timeoutUs) hepoch hfree
        (congrArg CommandRecord.state hrecord) (congrArg CommandRecord.receiver hrecord)))
      intro log ok b' hpublished
      rw [wp_pure, List.append_nil]
      intro hinside
      rw [hheader] at hpublished
      cases ok with
      | false => exact Ending.faulted (hpublished.2 rfl hinside.right)
      | true =>
          have hsent := hpublished.1 rfl
          refine Ending.sent _ hencode ⟨List.mem_append_right _ hsent.published, hheader, hsent.record,
            ?_, hsent.working⟩
          intro t ht
          exact (hsent.others t ht).trans (Function.update_of_ne ht _ _)

/-- A command that is submitted inside the gate is sent, or the bus has failed, or nothing has
happened; and no reservation is left behind on a bus that works. -/
theorem submit_atomic {log : Trace} {ok : Bool} {s : UInt8}
    (hout : (submit id receiveAck doneAck payload receiver token timeoutUs b).Outcome log ((ok, s), b'))
    (hgate : Inside log) :
    Ending b id receiveAck doneAck payload.data log b' ok s ∧
      (b'.error = .none → ∀ t, (b'.records t).state = .reserved → b'.records t = b.records t) := by
  have hending := wp_outcome submit_ends hout hgate
  exact ⟨hending, fun hworking t ht => hending.reserved hworking ht⟩

/-- A role command with a completion contract. -/
def submitRole : Gated (Bool × UInt8) :=
  submit ⟨1, 8, 4⟩ false true (.bytes [1, 2, 3, 4]) ⟨some 1, some 1⟩ 100 2000

theorem submit_atomic_role : ∃ log b', (submitRole { epoch := 42 }).Outcome log ((true, 0), b') ∧
    Ending { epoch := 42 } ⟨1, 8, 4⟩ false true [1, 2, 3, 4] log b' true 0 := by
  have hout := Prog.run_outcome obliging (submitRole { epoch := 42 }) 100
  have hresult : ((submitRole { epoch := 42 }).run obliging 100).2.1.1 = (true, 0) := by
    decide +kernel
  have hgate : Inside ((submitRole { epoch := 42 }).run obliging 100).1 := by
    unfold Inside
    decide +kernel
  generalize (submitRole { epoch := 42 }).run obliging 100 = sent at hout hresult hgate
  rcases sent with ⟨log, ⟨_, b'⟩, _⟩
  cases hresult
  exact ⟨log, b', hout, (submit_atomic hout hgate).1⟩

end Commands
end Rtl8852be
