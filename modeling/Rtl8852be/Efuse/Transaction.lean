import Rtl8852be.Efuse.EfuseReader

/-!
# Transaction — reading the DDV bank, with everything that can go wrong

The rail is raised only after its state has been read, and from then on a transaction ends with all steps
that put it back, whatever failed.

* `Moves` — what the parts of a transaction may do to registers and record;
* `transfer_spec` — how far a transfer gets, and what it has read;
* `restore_spec` — every step of a restoration is attempted once;
* `ddv_read_transaction` — the whole of `readDdv`.
-/

namespace Rtl8852be
namespace Efuse

open Interaction Code EfuseReader

/-! ## Events -/

/-- The step that an event marks the beginning of. -/
def Event.marks : Event Io Reply RestoreStep → Option RestoreStep
  | .note step => some step
  | _ => none

def Event.writes : Event Io Reply RestoreStep → Bool
  | .call (.write8 _ _) _ => true
  | .call (.write16 _ _) _ => true
  | .call (.write32 _ _) _ => true
  | _ => false

/-- The event writes to a register that holds a bit of the rail. -/
def Event.changesRail : Event Io Reply RestoreStep → Bool
  | .call (.write32 0x30 _) _ => false
  | e => Event.writes e

/-- The event asks for a byte, if it writes to the command register: only bits of the address are set. -/
def Event.Addressed : Event Io Reply RestoreStep → Prop
  | .call (.write32 a v) _ => a = 0x30 → v &&& ~~~0x07ff0000 = 0
  | _ => True

def Event.cost : Event Io Reply RestoreStep → ℕ
  | .call _ _ => 1
  | .note _ => 0

/-! ## What the parts do -/

/-- No step of a restoration is begun; registers are written only if `rail` says so, and the original
values only if `looks` says so. -/
structure Moves (rail looks : Bool) (s : EfuseReader) (log : Trace) (s' : EfuseReader) : Prop where
  unmarked : ∀ e ∈ log, Event.marks e = none
  addressed : ∀ e ∈ log, Event.Addressed e
  quiet : rail = false → ∀ e ∈ log, Event.writes e = false
  burst : s'.burst_ = s.burst_
  touched : s'.touched = s.touched
  out : s'.out = s.out
  bytesRead : s'.result.bytesRead = s.result.bytesRead
  validBytes : s'.result.validBytes = s.result.validBytes
  original : looks = false → s'.originalIso = s.originalIso ∧ s'.originalPmc = s.originalPmc ∧
    s'.originalBurst = s.originalBurst

section Moves

variable {rail looks : Bool} {s s' : EfuseReader} {log : Trace}

theorem moves_traced : Traced (Moves rail looks) where
  refl := by
    intro s
    exact ⟨by simp, by simp, by simp, rfl, rfl, rfl, rfl, rfl, fun _ => ⟨rfl, rfl, rfl⟩⟩
  trans := by
    intro s s' s'' log log' h h'
    refine ⟨?_, ?_, ?_, h'.burst.trans h.burst, h'.touched.trans h.touched, h'.out.trans h.out,
      h'.bytesRead.trans h.bytesRead, h'.validBytes.trans h.validBytes, ?_⟩
    · intro e he
      rcases List.mem_append.1 he with he | he
      · exact h.unmarked e he
      · exact h'.unmarked e he
    · intro e he
      rcases List.mem_append.1 he with he | he
      · exact h.addressed e he
      · exact h'.addressed e he
    · intro hrail e he
      rcases List.mem_append.1 he with he | he
      · exact h.quiet hrail e he
      · exact h'.quiet hrail e he
    · intro hlooks
      rcases h.original hlooks with ⟨hiso, hpmc, hburst⟩
      rcases h'.original hlooks with ⟨hiso', hpmc', hburst'⟩
      exact ⟨hiso'.trans hiso, hpmc'.trans hpmc, hburst'.trans hburst⟩

theorem moves_ask (c : Io) (hc : ∀ r : Reply c, Event.writes (.call c r) = false ∨ rail = true)
    (ha : ∀ r : Reply c, Event.Addressed (.call c r)) : ∀ s r, Moves rail looks s [.call c r] s := by
  intro s r
  refine ⟨?_, ?_, ?_, rfl, rfl, rfl, rfl, rfl, fun _ => ⟨rfl, rfl, rfl⟩⟩
  · intro e he
    rw [List.mem_singleton.1 he]
    rfl
  · intro e he
    rw [List.mem_singleton.1 he]
    exact ha r
  · intro hrail e he
    rw [List.mem_singleton.1 he]
    rcases hc r with hquiet | hloud
    · exact hquiet
    · rw [hrail] at hloud
      cases hloud

/-- A change of the record that concerns none of these. -/
theorem moves_modify {g : EfuseReader → EfuseReader}
    (h : ∀ s, (g s).burst_ = s.burst_ ∧ (g s).touched = s.touched ∧ (g s).out = s.out ∧
      (g s).result.bytesRead = s.result.bytesRead ∧ (g s).result.validBytes = s.result.validBytes)
    (ho : looks = false → ∀ s, (g s).originalIso = s.originalIso ∧ (g s).originalPmc = s.originalPmc ∧
      (g s).originalBurst = s.originalBurst) : ∀ s, Moves rail looks s [] (g s) := by
  intro s
  rcases h s with ⟨hburst, htouched, hout, hbytes, hvalid⟩
  exact ⟨by simp, by simp, by simp, hburst, htouched, hout, hbytes, hvalid, fun hlooks => ho hlooks s⟩

theorem stop_moves (status : EfuseReadStatus) : Keeps (Moves rail looks) (stop status) :=
  Keeps.modify_bind moves_traced (moves_modify (fun _ => ⟨rfl, rfl, rfl, rfl, rfl⟩) fun _ _ => ⟨rfl, rfl, rfl⟩)
    (Keeps.pure moves_traced false)

theorem orFailed_moves {m : Efused Bool} (hm : Keeps (Moves rail looks) m) :
    Keeps (Moves rail looks) (orFailed m) :=
  Keeps.bind moves_traced hm fun _ => Keeps.ite (Keeps.pure moves_traced true) (stop_moves _)

theorem whenBurst_moves {m : Efused Bool} (hm : Keeps (Moves rail looks) m) :
    Keeps (Moves rail looks) (whenBurst m) :=
  Keeps.get_bind fun _ => Keeps.ite hm (Keeps.pure moves_traced true)

theorem active_moves : Keeps (Moves rail looks) active := by
  apply Keeps.ask_bind moves_traced (moves_ask .cancelled (fun _ => Or.inl rfl) fun _ => trivial)
  intro cancelled
  apply Keeps.ite (stop_moves _)
  apply Keeps.ask_bind moves_traced (moves_ask .nowUs (fun _ => Or.inl rfl) fun _ => trivial)
  intro now
  apply Keeps.get_bind
  intro s
  apply Keeps.ite (stop_moves _)
  apply Keeps.modify_bind moves_traced
  · exact moves_modify (fun _ => ⟨rfl, rfl, rfl, rfl, rfl⟩) fun _ _ => ⟨rfl, rfl, rfl⟩
  · exact Keeps.ite (stop_moves _) (Keeps.pure moves_traced true)

theorem write_moves (c : Io) (ha : ∀ r : Reply c, Event.Addressed (.call c r)) :
    ∀ s r, Moves true looks s [.call c r] s :=
  moves_ask c (fun _ => Or.inr rfl) ha

theorem iso_moves (mask bits : UInt16) : Keeps (Moves true looks) (iso mask bits) := by
  apply Keeps.ask_bind moves_traced (moves_ask (.read16 0) (fun _ => Or.inl rfl) fun _ => trivial)
  intro read
  apply Keeps.ite (Keeps.pure moves_traced false)
  intro s
  rw [io, wp_ask]
  intro r
  apply write_moves
  intro _
  exact trivial

theorem pmc_moves (bits : UInt8) : Keeps (Moves true looks) (pmc bits) := by
  apply Keeps.ask_bind moves_traced (moves_ask (.read8 0xcc) (fun _ => Or.inl rfl) fun _ => trivial)
  intro read
  apply Keeps.ite (Keeps.pure moves_traced false)
  intro s
  rw [io, wp_ask]
  intro r
  apply write_moves
  intro _
  exact trivial

theorem burst_moves (bits : UInt32) : Keeps (Moves true looks) (burst bits) := by
  apply Keeps.ask_bind moves_traced (moves_ask (.read32 0x38) (fun _ => Or.inl rfl) fun _ => trivial)
  intro read
  apply Keeps.ite (Keeps.pure moves_traced false)
  intro s
  rw [io, wp_ask]
  intro r
  apply write_moves
  intro _ h
  exact absurd h (by decide)

theorem delay_moves (us : ℕ) : Keeps (Moves rail looks) (io (.delayUs us)) := by
  intro s
  rw [io, wp_ask]
  exact moves_ask (.delayUs us) (fun _ => Or.inl rfl) (fun _ => trivial) s

/-- `raise` changes the rail. -/
theorem raise_moves : ∀ m ∈ raise, Keeps (Moves true false) m := by
  unfold raise
  rw [List.forall_mem_cons, List.forall_mem_cons, List.forall_mem_cons, List.forall_mem_cons]
  refine ⟨?_, active_moves, ?_, ?_, by simp⟩
  · apply orFailed_moves
    apply Keeps.every moves_traced
    rw [List.forall_mem_cons, List.forall_mem_cons, List.forall_mem_cons]
    exact ⟨pmc_moves _, iso_moves _ _, delay_moves _, by simp⟩
  · exact orFailed_moves (Keeps.both moves_traced (iso_moves _ _) (iso_moves _ _))
  · exact orFailed_moves (whenBurst_moves (burst_moves _))

theorem readBack_moves {α : Type} (c : Io) (hc : ∀ r : Reply c, Event.writes (.call c r) = false)
    (ha : ∀ r : Reply c, Event.Addressed (.call c r)) (g : Reply c → EfuseReader → EfuseReader)
    (hg : ∀ r s, Moves rail true s [] (g r s)) (a : Reply c → α) :
    Keeps (Moves rail true) (do let r ← io c; modify (g r); return a r) := by
  apply Keeps.ask_bind moves_traced (moves_ask _ (fun r => Or.inl (hc r)) ha)
  intro r
  exact Keeps.modify_bind moves_traced (hg r) (Keeps.pure moves_traced _)

/-- `inspect` only looks. -/
theorem inspect_moves : ∀ m ∈ inspect, Keeps (Moves false true) m := by
  have hkept : ∀ g : EfuseReader → EfuseReader,
      (∀ s, (g s).burst_ = s.burst_ ∧ (g s).touched = s.touched ∧ (g s).out = s.out ∧
        (g s).result.bytesRead = s.result.bytesRead ∧
        (g s).result.validBytes = s.result.validBytes) → ∀ s, Moves false true s [] (g s) :=
    fun g hg => moves_modify hg fun hlooks => by cases hlooks
  have hiso : Keeps (Moves false true) readIso :=
    readBack_moves (.read16 0) (fun _ => rfl) (fun _ => trivial)
      (fun r s => { s with originalIso := r.2 }) (fun _ => hkept _ fun _ => ⟨rfl, rfl, rfl, rfl, rfl⟩) _
  have hpmc : Keeps (Moves false true) readPmc :=
    readBack_moves (.read8 0xcc) (fun _ => rfl) (fun _ => trivial)
      (fun r s => { s with originalPmc := r.2 }) (fun _ => hkept _ fun _ => ⟨rfl, rfl, rfl, rfl, rfl⟩) _
  have hburst : Keeps (Moves false true) readBurst :=
    readBack_moves (.read32 0x38) (fun _ => rfl) (fun _ => trivial)
      (fun r s => { s with originalBurst := r.2 }) (fun _ => hkept _ fun _ => ⟨rfl, rfl, rfl, rfl, rfl⟩) _
  have hquiescent : Keeps (Moves false true) quiescent :=
    Keeps.get_bind fun _ => Keeps.ite (stop_moves _) (Keeps.pure moves_traced true)
  unfold inspect
  rw [List.forall_mem_cons, List.forall_mem_cons, List.forall_mem_cons, List.forall_mem_cons,
    List.forall_mem_cons]
  exact ⟨active_moves, orFailed_moves (Keeps.both moves_traced hiso hpmc), hquiescent,
    orFailed_moves (whenBurst_moves hburst), active_moves, by simp⟩

theorem readLast_moves : Keeps (Moves false false) readLast := by
  apply Keeps.ask_bind moves_traced (moves_ask (.delayUs 1) (fun _ => Or.inl rfl) fun _ => trivial)
  intro delayed
  apply Keeps.ite (Keeps.pure moves_traced false)
  apply Keeps.ask_bind moves_traced (moves_ask (.read32 0x30) (fun _ => Or.inl rfl) fun _ => trivial)
  intro read
  apply Keeps.modify_bind moves_traced
  · exact moves_modify (fun _ => ⟨rfl, rfl, rfl, rfl, rfl⟩) fun _ _ => ⟨rfl, rfl, rfl⟩
  · exact Keeps.pure moves_traced _

theorem poll_moves (started attempts : ℕ) : Keeps (Moves false false) (poll started attempts) := by
  induction attempts with
  | zero => exact Keeps.pure moves_traced false
  | succ attempts ih =>
      apply Keeps.bind moves_traced (Keeps.both moves_traced active_moves (orFailed_moves readLast_moves))
      intro ok
      apply Keeps.ite
      · apply Keeps.modify_bind moves_traced
        · exact moves_modify (fun _ => ⟨rfl, rfl, rfl, rfl, rfl⟩) fun _ _ => ⟨rfl, rfl, rfl⟩
        · apply Keeps.get_bind
          intro s
          exact Keeps.ite (Keeps.pure moves_traced true) (Keeps.ite (stop_moves _) ih)
      · exact Keeps.pure moves_traced false

theorem waitByte_moves : Keeps (Moves false false) waitByte := by
  apply Keeps.get_bind
  intro s
  apply Keeps.bind moves_traced (poll_moves _ _)
  intro ready
  apply Keeps.ite (Keeps.pure moves_traced true)
  exact Keeps.get_bind fun _ => Keeps.ite (stop_moves _) (Keeps.pure moves_traced false)

end Moves

/-! ## How it ends -/

section Judged

variable {s : EfuseReader}

/-- A part that starts without an error returns true exactly if there still is none. -/
def Judged (m : Efused Bool) : Prop :=
  ∀ s, s.result.primary = .ok → m.wp (fun _ ok s' => ok = true ↔ s'.result.primary = .ok) s

theorem stop_judged {status : EfuseReadStatus} (h : status ≠ .ok) (s : EfuseReader) :
    (stop status).wp (fun _ ok s' => ok = true ↔ s'.result.primary = .ok) s := by
  unfold stop
  rw [wp_modify_bind, wp_pure]
  constructor
  · intro hok
    cases hok
  · intro hok
    exact absurd hok h

theorem Judged.both {m m' : Efused Bool} (hm : Judged m) (hm' : Judged m') : Judged (both m m') := by
  intro s hs
  rw [wp_both]
  refine wp_mono (hm s hs) fun _ ok s₁ hmid => ⟨fun hok => ?_, fun hok => ?_⟩
  · exact hm' s₁ (hmid.1 hok)
  · rw [hok] at hmid
    exact hmid

theorem Judged.every {ms : List (Efused Bool)} (h : ∀ m ∈ ms, Judged m) : Judged (every ms) := by
  induction ms with
  | nil =>
      intro s hs
      exact (wp_pure true).2 ⟨fun _ => hs, fun _ => rfl⟩
  | cons m ms ih =>
      exact (h m List.mem_cons_self).both (ih fun m' hm' => h m' (List.mem_cons_of_mem m hm'))

/-- A part that leaves errors alone, and a failure of which is one. -/
theorem orFailed_judged {m : Efused Bool}
    (hm : ∀ s, m.wp (fun _ _ s' => s'.result.primary = s.result.primary) s) : Judged (orFailed m) := by
  intro s hs
  unfold orFailed
  rw [wp_bind]
  refine wp_mono (hm s) fun _ ok s₁ hsame => ?_
  rw [wp_ite]
  constructor
  · intro _
    exact (wp_pure true).2 ⟨fun _ => hsame.trans hs, fun _ => rfl⟩
  · intro _
    exact stop_judged (by decide) s₁

theorem active_judged : Judged active := by
  intro s hs
  unfold active
  rw [io, wp_ask_bind]
  intro cancelled
  rw [wp_ite]
  refine ⟨fun _ => stop_judged (by decide) s, fun _ => ?_⟩
  rw [io, wp_ask_bind]
  intro now
  rw [wp_get_bind, wp_ite]
  refine ⟨fun _ => stop_judged (by decide) s, fun _ => ?_⟩
  rw [wp_modify_bind, wp_ite]
  refine ⟨fun _ => stop_judged (by decide) _, fun _ => ?_⟩
  exact (wp_pure true).2 ⟨fun _ => hs, fun _ => rfl⟩

/-! ### Parts that leave errors alone -/

abbrev Alone {α : Type} (m : Efused α) : Prop :=
  Keeps (fun (s : EfuseReader) (_ : Trace) (s' : EfuseReader) => s'.result.primary = s.result.primary) m

theorem alone_traced : Traced fun (s : EfuseReader) (_ : Trace) (s' : EfuseReader) =>
    s'.result.primary = s.result.primary where
  refl _ := rfl
  trans h h' := h'.trans h

theorem alone_io (c : Io) : Alone (io c) := by
  intro s
  rw [io, wp_ask]
  intro _
  rfl

theorem readIso_alone : Alone readIso :=
  Keeps.bind alone_traced (alone_io _) fun _ =>
    Keeps.modify_bind alone_traced (fun _ => rfl) (Keeps.pure alone_traced _)

theorem readPmc_alone : Alone readPmc :=
  Keeps.bind alone_traced (alone_io _) fun _ =>
    Keeps.modify_bind alone_traced (fun _ => rfl) (Keeps.pure alone_traced _)

theorem readBurst_alone : Alone readBurst :=
  Keeps.bind alone_traced (alone_io _) fun _ =>
    Keeps.modify_bind alone_traced (fun _ => rfl) (Keeps.pure alone_traced _)

theorem iso_alone (mask bits : UInt16) : Alone (iso mask bits) :=
  Keeps.bind alone_traced (alone_io _) fun _ => Keeps.ite (Keeps.pure alone_traced false) (alone_io _)

theorem pmc_alone (bits : UInt8) : Alone (pmc bits) :=
  Keeps.bind alone_traced (alone_io _) fun _ => Keeps.ite (Keeps.pure alone_traced false) (alone_io _)

theorem burst_alone (bits : UInt32) : Alone (burst bits) :=
  Keeps.bind alone_traced (alone_io _) fun _ => Keeps.ite (Keeps.pure alone_traced false) (alone_io _)

theorem whenBurst_alone {m : Efused Bool} (hm : Alone m) : Alone (whenBurst m) :=
  Keeps.get_bind fun _ => Keeps.ite hm (Keeps.pure alone_traced true)

theorem readLast_alone : Alone readLast := by
  apply Keeps.bind alone_traced (alone_io _)
  intro delayed
  apply Keeps.ite (Keeps.pure alone_traced false)
  apply Keeps.bind alone_traced (alone_io _)
  intro read
  exact Keeps.modify_bind alone_traced (fun _ => rfl) (Keeps.pure alone_traced _)

theorem enable_judged : Judged enable := by
  have hquiescent : Judged quiescent := by
    intro s hs
    unfold quiescent
    rw [wp_get_bind, wp_ite]
    exact ⟨fun _ => stop_judged (by decide) s, fun _ => (wp_pure true).2 ⟨fun _ => hs, fun _ => rfl⟩⟩
  have htouch : Judged touch := by
    intro s hs
    unfold touch
    rw [wp_modify_bind]
    exact (wp_pure true).2 ⟨fun _ => hs, fun _ => rfl⟩
  have hinspect : Judged (every inspect) := by
    apply Judged.every
    unfold inspect
    rw [List.forall_mem_cons, List.forall_mem_cons, List.forall_mem_cons, List.forall_mem_cons,
      List.forall_mem_cons]
    refine ⟨active_judged, ?_, hquiescent, ?_, active_judged, by simp⟩
    · exact orFailed_judged (Keeps.both alone_traced readIso_alone readPmc_alone)
    · exact orFailed_judged (whenBurst_alone readBurst_alone)
  have hraise : Judged (every raise) := by
    apply Judged.every
    unfold raise
    rw [List.forall_mem_cons, List.forall_mem_cons, List.forall_mem_cons, List.forall_mem_cons]
    refine ⟨?_, active_judged, ?_, ?_, by simp⟩
    · apply orFailed_judged
      apply Keeps.every alone_traced
      rw [List.forall_mem_cons, List.forall_mem_cons, List.forall_mem_cons]
      exact ⟨pmc_alone _, iso_alone _ _, alone_io _, by simp⟩
    · exact orFailed_judged (Keeps.both alone_traced (iso_alone _ _) (iso_alone _ _))
    · exact orFailed_judged (whenBurst_alone (burst_alone _))
  exact hinspect.both (htouch.both hraise)

end Judged

/-! ## A byte -/

section Bytes

variable {s : EfuseReader}

/-- The request for a byte, its address in the upper half, and the answer to it: nothing is written between them. -/
def ByteRead (address : ℕ) (b : UInt8) (log : Trace) : Prop :=
  ∃ front mid last, log = front ++ .call (.write32 0x30 (UInt32.ofNat address <<< 16)) true ::
      (mid ++ [.call (.read32 0x30) (true, last)]) ∧
    (∀ e ∈ front ++ mid, Event.writes e = false) ∧ last &&& 0x20000000 ≠ 0 ∧ last ≠ 0xffffffff ∧
    b = last.toUInt8

/-- A read of the command register that succeeded is the last event. -/
def Answered (log : Trace) (s' : EfuseReader) : Prop :=
  ∃ front, log = front ++ [.call (.read32 0x30) (true, s'.result.last)] ∧ s'.result.last ≠ 0xffffffff

theorem readLast_answered : readLast.wp (fun log ok s' => ok = true → Answered log s') s := by
  unfold readLast
  rw [io, wp_ask_bind]
  intro delayed
  rw [wp_ite]
  constructor
  · intro _
    rw [wp_pure]
    intro hok
    cases hok
  · intro _
    rw [io, wp_ask_bind]
    rintro ⟨read, v⟩
    rw [wp_modify_bind, wp_pure]
    intro hok
    rcases Bool.and_eq_true_iff.1 hok with ⟨hread, hv⟩
    have hread : read = true := hread
    subst hread
    exact ⟨[.call (.delayUs 1) delayed], rfl, by simpa using hv⟩

variable {log log' : Trace} {s s' : EfuseReader}

theorem Answered.prepend (h : Answered log s') :
    Answered (log' ++ log) s' := by
  rcases h with ⟨front, rfl, hne⟩
  exact ⟨log' ++ front, (List.append_assoc _ _ _).symm, hne⟩

theorem try_answered : (both active (orFailed readLast)).wp (fun log ok s' => ok = true → Answered log s') s := by
  rw [wp_both]
  refine wp_of_outcome fun log ok s₁ _ => ⟨fun _ => ?_, fun hok hfalse => ?_⟩
  · unfold orFailed
    rw [wp_bind]
    refine wp_mono readLast_answered fun log' ok' s₂ hlast => ?_
    rw [wp_ite]
    constructor
    · intro hok
      rw [wp_pure, List.append_nil]
      exact fun _ => (hlast hok).prepend
    · intro _
      unfold failed stop
      rw [wp_modify_bind, wp_pure]
      intro hno
      cases hno
  · cases hfalse

/-- A loop that ends with an answer has a ready one, and no error so far is one. -/
theorem poll_ready (started attempts : ℕ) (hs : s.result.primary = .ok) :
    (poll started attempts).wp (fun log ok s' => ok = true →
      s'.result.primary = .ok ∧ Answered log s' ∧ s'.result.last &&& 0x20000000 ≠ 0) s := by
  induction attempts generalizing s with
  | zero =>
      unfold poll
      rw [wp_pure]
      intro hno
      cases hno
  | succ attempts ih =>
      have htry : Judged (both active (orFailed readLast)) :=
        active_judged.both (orFailed_judged readLast_alone)
      unfold poll
      rw [wp_bind]
      refine wp_mono (wp_and (htry s hs) try_answered) fun log ok s₁ h => ?_
      rcases h with ⟨hjudged, hanswer⟩
      rw [wp_ite]
      constructor
      · intro hok
        rw [wp_modify_bind, wp_get_bind, wp_ite]
        constructor
        · intro hready
          rw [wp_pure, List.append_nil]
          intro _
          exact ⟨hjudged.1 hok, hanswer hok, hready⟩
        · intro _
          rw [wp_ite]
          constructor
          · intro _
            unfold stop
            rw [wp_modify_bind, wp_pure]
            intro hno
            cases hno
          · intro _
            have hnext : (countPoll s₁).result.primary = .ok := hjudged.1 hok
            refine wp_mono (ih hnext) fun log' ok' s₂ h hok' => ?_
            rcases h hok' with ⟨hprimary, hlast, hready⟩
            exact ⟨hprimary, hlast.prepend, hready⟩
      · intro _
        rw [wp_pure]
        intro hno
        cases hno

theorem waitByte_spec (hs : s.result.primary = .ok) : waitByte.wp (fun log ok s' =>
    (ok = true ↔ s'.result.primary = .ok) ∧
      (ok = true → Answered log s' ∧ s'.result.last &&& 0x20000000 ≠ 0)) s := by
  unfold waitByte orTimeout
  rw [wp_get_bind, wp_bind]
  refine wp_mono (poll_ready _ _ hs) fun log ok s₁ h => ?_
  rw [wp_ite]
  constructor
  · intro hok
    rcases h hok with ⟨hprimary, hlast, hready⟩
    rw [wp_pure, List.append_nil]
    exact ⟨⟨fun _ => hprimary, fun _ => rfl⟩, fun _ => ⟨hlast, hready⟩⟩
  · intro _
    rw [wp_get_bind, wp_ite]
    constructor
    · intro _
      unfold stop
      rw [wp_modify_bind, wp_pure]
      refine ⟨⟨fun hno => ?_, fun hno => ?_⟩, fun hno => ?_⟩
      · cases hno
      · cases hno
      · cases hno
    · intro hprimary
      rw [wp_pure]
      refine ⟨⟨fun hno => ?_, fun hno => absurd hno hprimary⟩, fun hno => ?_⟩
      · cases hno
      · cases hno

/-- The events of a part that asks for bytes. -/
def Asking (log : Trace) : Prop :=
  ∀ e ∈ log, Event.marks e = none ∧ Event.Addressed e ∧ Event.changesRail e = false

theorem Asking.append (h : Asking log) (h' : Asking log') : Asking (log ++ log') := by
  intro e he
  rcases List.mem_append.1 he with he | he
  · exact h e he
  · exact h' e he

theorem changesRail_of_writes {e : Event Io Reply RestoreStep} (h : Event.writes e = false) :
    Event.changesRail e = false := by
  unfold Event.changesRail
  split
  · rfl
  · exact h

/-- What a part that only reads keeps. -/
structure Sits (s s' : EfuseReader) : Prop where
  touched : s'.touched = s.touched
  validBytes : s'.result.validBytes = s.result.validBytes
  burst : s'.burst_ = s.burst_
  original : s'.originalIso = s.originalIso ∧ s'.originalPmc = s.originalPmc ∧
    s'.originalBurst = s.originalBurst

theorem Sits.trans {s'' : EfuseReader} (h : Sits s s') (h' : Sits s' s'') : Sits s s'' :=
  ⟨h'.touched.trans h.touched, h'.validBytes.trans h.validBytes, h'.burst.trans h.burst,
    h'.original.1.trans h.original.1,
    h'.original.2.1.trans h.original.2.1, h'.original.2.2.trans h.original.2.2⟩

theorem Moves.asking {looks : Bool} (h : Moves false looks s log s') :
    Asking log :=
  fun e he => ⟨h.unmarked e he, h.addressed e he, changesRail_of_writes (h.quiet rfl e he)⟩

theorem Moves.sits {rail : Bool} (h : Moves rail false s log s') :
    Sits s s' :=
  ⟨h.touched, h.validBytes, h.burst, h.original rfl⟩

theorem request_addressed {a : ℕ} (ha : a < 0x600) : request a &&& ~~~0x07ff0000 = 0 := by
  have hall : ∀ a < 0x600, UInt32.ofNat a <<< 16 &&& ~~~0x07ff0000 = 0 := by decide +kernel
  exact hall a ha

theorem request_asking {a : ℕ} (ha : a < 0x600) (ok : Bool) :
    Asking [.call (.write32 0x30 (request a)) ok] := by
  intro e he
  rw [List.mem_singleton.1 he]
  exact ⟨rfl, fun _ => request_addressed ha, rfl⟩

/-- How a round of the loop ends. -/
structure Round (address i : ℕ) (s : EfuseReader) (log : Trace) (ok : Bool) (s' : EfuseReader) : Prop where
  asking : Asking log
  sits : Sits s s'
  judged : ok = true ↔ s'.result.primary = .ok
  done : ok = true → s'.result.bytesRead = s.result.bytesRead + 1 ∧
    (∀ j ≠ i, s'.out j = s.out j) ∧ ByteRead (address + i) (s'.out i) log
  broken : ok = false → s'.result.bytesRead = s.result.bytesRead ∧ s'.out = s.out

theorem Round.of_broken {address i : ℕ} {ok : Bool} (hok : ok = false) (hasking : Asking log) (hsits : Sits s s')
    (hjudged : ok = true ↔ s'.result.primary = .ok) (hbytes : s'.result.bytesRead = s.result.bytesRead)
    (hout : s'.out = s.out) :
    Round address i s log ok s' :=
  ⟨hasking, hsits, hjudged, fun htrue => (by rw [hok] at htrue; cases htrue), fun _ => ⟨hbytes, hout⟩⟩

theorem readByte_spec {address i : ℕ} (ha : address + i < 0x600) (hs : s.result.primary = .ok) :
    (readByte address i).wp (fun log ok s' => Round address i s log ok s') s := by
  unfold readByte
  rw [every, wp_both]
  refine wp_mono (wp_and (@active_moves false false s) (active_judged s hs))
    fun front ok s₁ h => ⟨fun hok => ?_, fun hok => ?_⟩
  · rcases h with ⟨hfront, hjudged⟩
    rw [every, wp_both, orFailed, wp_bind, io, wp_ask]
    intro written
    cases written with
    | false =>
        rw [if_neg (by decide), failed, stop, wp_modify_bind, wp_pure]
        refine ⟨fun hno => (by cases hno), fun _ => ?_⟩
        refine Round.of_broken rfl (hfront.asking.append (request_asking ha false))
          ⟨hfront.touched, hfront.validBytes, hfront.burst, hfront.original rfl⟩ ?_
          hfront.bytesRead hfront.out
        constructor
        · intro hno
          cases hno
        · intro hno
          cases hno
    | true =>
        rw [if_pos rfl, wp_pure]
        refine ⟨fun _ => ?_, fun hno => by cases hno⟩
        rw [every, wp_both]
        refine wp_mono (wp_and (waitByte_moves s₁) (waitByte_spec (hjudged.1 hok)))
          fun wait ok' s₂ h => ⟨fun hok' => ?_, fun hok' => ?_⟩
        · rcases h with ⟨hwait, hjudged', hready⟩
          rcases hready hok' with ⟨⟨mid, rfl, hne⟩, hbit⟩
          rw [every, every, wp_both, store, wp_modify_bind, wp_pure]
          refine ⟨fun _ => ?_, fun hno => by cases hno⟩
          rw [wp_pure]
          simp only [List.append_nil]
          refine ⟨?_, hfront.sits.trans ⟨hwait.touched, hwait.validBytes, hwait.burst, hwait.original rfl⟩,
            ⟨fun _ => hjudged'.1 hok', fun _ => rfl⟩, fun _ => ⟨?_, ?_, ?_⟩, fun hno => by cases hno⟩
          · exact hfront.asking.append ((request_asking ha true).append hwait.asking)
          · show s₂.result.bytesRead + 1 = _
            rw [hwait.bytesRead, hfront.bytesRead]
          · intro j hj
            show Function.update s₂.out i _ j = _
            rw [Function.update_of_ne hj, hwait.out, hfront.out]
          · refine ⟨front, mid, s₂.result.last, rfl, ?_, hbit, hne, ?_⟩
            · intro e he
              rcases List.mem_append.1 he with he | he
              · exact hfront.quiet rfl e he
              · exact hwait.quiet rfl e (List.mem_append_left _ he)
            · show Function.update s₂.out i _ i = _
              rw [Function.update_self]
        · rcases h with ⟨hwait, hjudged', -⟩
          rw [hok'] at hjudged'
          exact Round.of_broken rfl (hfront.asking.append ((request_asking ha true).append hwait.asking))
            (hfront.sits.trans hwait.sits) hjudged' (hwait.bytesRead.trans hfront.bytesRead)
            (hwait.out.trans hfront.out)
  · rcases h with ⟨hfront, hjudged⟩
    rw [hok] at hjudged
    exact Round.of_broken rfl hfront.asking hfront.sits hjudged hfront.bytesRead hfront.out

/-- Before round `i`, all bytes below it have been read. -/
structure Reading (address : ℕ) (s₀ : EfuseReader) (i : ℕ) (t : Trace) (s : EfuseReader) : Prop where
  primary : s.result.primary = .ok
  bytesRead : s.result.bytesRead = i
  later : ∀ j ≥ i, s.out j = s₀.out j
  sits : Sits s₀ s
  asking : Asking t
  reads : Consecutive ((List.range i).map fun j => ByteRead (address + j) (s.out j)) t

/-- The loop was left: only bytes that were read have been stored. -/
structure Broken (s₀ : EfuseReader) (t : Trace) (s : EfuseReader) : Prop where
  primary : s.result.primary ≠ .ok
  later : ∀ j ≥ s.result.bytesRead, s.out j = s₀.out j
  sits : Sits s₀ s
  asking : Asking t

theorem consecutive_append {Ks Ks' : List (Trace → Prop)} (h : Consecutive Ks log) (h' : Consecutive Ks' log') :
    Consecutive (Ks ++ Ks') (log ++ log') := by
  induction h with
  | nil => exact h'
  | @cons K Ks l l' hK _ ih =>
      rw [List.append_assoc]
      exact Consecutive.cons hK ih

theorem readByte_stage {address i : ℕ} {s₀ : EfuseReader} (ha : address + i < 0x600) :
    Stage (Reading address s₀ i) (readByte address i) (Reading address s₀ (i + 1)) (Broken s₀) := by
  intro t s hpre
  refine wp_mono (readByte_spec ha hpre.primary) fun log ok s' h => ⟨fun hok => ?_, fun hok => ?_⟩
  · rcases h.done hok with ⟨hbytes, hout, hread⟩
    refine ⟨h.judged.1 hok, hbytes.trans (congrArg (· + 1) hpre.bytesRead), ?_, hpre.sits.trans h.sits,
      hpre.asking.append h.asking, ?_⟩
    · intro j hj
      rw [hout j (by omega), hpre.later j (by omega)]
    · rw [List.range_succ, List.map_append]
      apply consecutive_append
      · -- The bytes below are still there.
        have hsame : ((List.range i).map fun j => ByteRead (address + j) (s'.out j)) =
            (List.range i).map fun j => ByteRead (address + j) (s.out j) := by
          apply List.map_congr_left
          intro j hj
          rw [hout j (Nat.ne_of_lt (List.mem_range.1 hj))]
        rw [hsame]
        exact hpre.reads
      · have hlast := Consecutive.cons hread Consecutive.nil
        rwa [List.append_nil] at hlast
  · rcases h.broken hok with ⟨hbytes, hout⟩
    refine ⟨fun hprimary => ?_, ?_, hpre.sits.trans h.sits, hpre.asking.append h.asking⟩
    · rw [h.judged.2 hprimary] at hok
      cases hok
    · intro j hj
      rw [hbytes, hpre.bytesRead] at hj
      rw [hout, hpre.later j hj]

theorem readBytes_spec {address bytes : ℕ} (ha : address + bytes ≤ 0x600) (hs : s.result.primary = .ok)
    (hbytes : s.result.bytesRead = 0) : (every ((List.range bytes).map (readByte address))).wp
      (fun log ok s' => (ok = true → Reading address s bytes log s') ∧ (ok = false → Broken s log s')) s := by
  have hstages := Stages.range (I := Reading address s) (f := readByte address) (F := Broken s) (n := bytes)
    fun i hi => readByte_stage (by omega)
  have hstart : Reading address s 0 [] s := by
    refine ⟨hs, hbytes, fun _ _ => rfl, ⟨rfl, rfl, rfl, rfl, rfl, rfl⟩, ?_, Consecutive.nil⟩
    intro e he
    cases he
  exact hstages.every [] s hstart

end Bytes

/-! ## The rail -/

section Rail

variable {s : EfuseReader}

/-- The state of the rail was read, before anything else. -/
def Inspected (burst : Bool) (s' : EfuseReader) (log : Trace) : Prop :=
  ∃ now rest, log = [.call .cancelled false, .call .nowUs now, .call (.read16 0) (true, s'.originalIso),
      .call (.read8 0xcc) (true, s'.originalPmc)] ++
    (if burst then [.call (.read32 0x38) (true, s'.originalBurst)] else []) ++ rest

theorem active_ok : active.wp (fun log ok s' => ok = true →
    ∃ now, log = [.call .cancelled false, .call .nowUs now] ∧ s' = { s with previous := now }) s := by
  have hstop : ∀ (status : EfuseReadStatus) (s : EfuseReader) (Q : Trace → EfuseReader → Prop),
      (stop status).wp (fun log ok s' => ok = true → Q log s') s := by
    intro status s Q
    unfold stop
    rw [wp_modify_bind, wp_pure]
    intro hno
    cases hno
  unfold active
  rw [io, wp_ask_bind]
  intro cancelled
  rw [wp_ite]
  refine ⟨fun _ => hstop _ _ _, fun hcancelled => ?_⟩
  rw [io, wp_ask_bind]
  intro now
  rw [wp_get_bind, wp_ite]
  refine ⟨fun _ => hstop _ _ _, fun _ => ?_⟩
  rw [wp_modify_bind, wp_ite]
  refine ⟨fun _ => hstop _ _ _, fun _ => ?_⟩
  rw [wp_pure]
  intro _
  have hfalse : cancelled = false := Bool.eq_false_iff.2 hcancelled
  subst hfalse
  exact ⟨now, rfl, rfl⟩

theorem both_ok {m m' : Efused Bool} {P Q : Trace → EfuseReader → Prop}
    (hm : m.wp (fun log ok s' => ok = true → P log s') s)
    (hm' : ∀ log s', P log s' → m'.wp (fun log' ok s'' => ok = true → Q (log ++ log') s'') s') :
    (both m m').wp (fun log ok s' => ok = true → Q log s') s := by
  rw [wp_both]
  refine wp_mono hm fun log ok s' h => ⟨fun hok => hm' log s' (h hok), fun _ hno => ?_⟩
  cases hno

theorem orFailed_ok {m : Efused Bool} {Q : Trace → EfuseReader → Prop}
    (hm : m.wp (fun log ok s' => ok = true → Q log s') s) :
    (orFailed m).wp (fun log ok s' => ok = true → Q log s') s := by
  unfold orFailed
  rw [wp_bind]
  refine wp_mono hm fun log ok s' h => ?_
  rw [wp_ite]
  constructor
  · intro hok
    rw [wp_pure, List.append_nil]
    exact fun _ => h hok
  · intro _
    unfold failed stop
    rw [wp_modify_bind, wp_pure]
    intro hno
    cases hno

theorem readIso_ok : readIso.wp (fun log ok s' => ok = true →
    log = [.call (.read16 0) (true, s'.originalIso)] ∧ s' = { s with originalIso := s'.originalIso }) s := by
  unfold readIso
  rw [io, wp_ask_bind]
  rintro ⟨read, v⟩
  rw [wp_modify_bind, wp_pure]
  intro hok
  have hread : read = true := (Bool.and_eq_true_iff.1 hok).1
  subst hread
  exact ⟨rfl, rfl⟩

theorem readPmc_ok : readPmc.wp (fun log ok s' => ok = true →
    log = [.call (.read8 0xcc) (true, s'.originalPmc)] ∧ s' = { s with originalPmc := s'.originalPmc }) s := by
  unfold readPmc
  rw [io, wp_ask_bind]
  rintro ⟨read, v⟩
  rw [wp_modify_bind, wp_pure]
  intro hok
  have hread : read = true := (Bool.and_eq_true_iff.1 hok).1
  subst hread
  exact ⟨rfl, rfl⟩

theorem readBurst_ok : (whenBurst readBurst).wp (fun log ok s' => ok = true →
    log = (if s.burst_ then [.call (.read32 0x38) (true, s'.originalBurst)] else []) ∧
      s' = { s with originalBurst := s'.originalBurst }) s := by
  unfold whenBurst readBurst
  rw [wp_get_bind, wp_ite]
  constructor
  · intro hburst
    rw [io, wp_ask_bind]
    rintro ⟨read, v⟩
    rw [wp_modify_bind, wp_pure]
    intro hok
    have hread : read = true := (Bool.and_eq_true_iff.1 hok).1
    subst hread
    rw [if_pos hburst]
    exact ⟨rfl, rfl⟩
  · intro hburst
    rw [wp_pure]
    intro _
    rw [if_neg hburst]
    exact ⟨rfl, rfl⟩

theorem quiescent_ok : quiescent.wp (fun log ok s' => ok = true → log = [] ∧ s' = s) s := by
  unfold quiescent
  rw [wp_get_bind, wp_ite]
  constructor
  · intro _
    unfold stop
    rw [wp_modify_bind, wp_pure]
    intro hno
    cases hno
  · intro _
    rw [wp_pure]
    exact fun _ => ⟨rfl, rfl⟩

theorem readRail_ok : (orFailed (both readIso readPmc)).wp (fun log ok s' => ok = true → ∃ iso pmc,
    log = [.call (.read16 0) (true, iso), .call (.read8 0xcc) (true, pmc)] ∧
      s' = { s with originalIso := iso, originalPmc := pmc }) s := by
  apply orFailed_ok
  refine both_ok readIso_ok fun log s₁ h₁ => ?_
  rcases h₁ with ⟨rfl, hs₁⟩
  refine wp_mono readPmc_ok fun log ok s' h hok => ?_
  rcases h hok with ⟨rfl, hs'⟩
  refine ⟨s₁.originalIso, s'.originalPmc, rfl, ?_⟩
  rw [hs', hs₁]

/-- `inspect` begins with the state of the rail if it gets to its end. -/
theorem inspect_ok : (every inspect).wp (fun log ok s' => ok = true → Inspected s.burst_ s' log) s := by
  unfold inspect
  rw [every]
  refine both_ok active_ok fun log s₁ h₁ => ?_
  rcases h₁ with ⟨now, rfl, rfl⟩
  rw [every]
  refine both_ok readRail_ok fun log s₃ h₃ => ?_
  rcases h₃ with ⟨iso, pmc, rfl, rfl⟩
  rw [every]
  refine both_ok quiescent_ok fun log s₄ h₄ => ?_
  rcases h₄ with ⟨rfl, rfl⟩
  rw [every]
  refine both_ok (orFailed_ok readBurst_ok) fun log s₅ h₅ => ?_
  rcases h₅ with ⟨rfl, hs₅⟩
  rw [every, every]
  refine both_ok active_ok fun log s₆ h₆ => ?_
  rcases h₆ with ⟨now', rfl, rfl⟩
  rw [wp_pure]
  intro _
  refine ⟨now, [.call .cancelled false, .call .nowUs now'], ?_⟩
  rw [hs₅]
  simp only [List.append_nil, List.nil_append, List.cons_append]

/-! ## Transfers -/

/-- How far a transfer got. -/
structure Transferred (address bytes : ℕ) (s : EfuseReader) (log : Trace) (ok : Bool) (s' : EfuseReader) :
    Prop where
  burst : s'.burst_ = s.burst_
  validBytes : s'.result.validBytes = s.result.validBytes
  unmarked : ∀ e ∈ log, Event.marks e = none
  addressed : ∀ e ∈ log, Event.Addressed e
  untouched : s'.touched = false → ∀ e ∈ log, Event.changesRail e = false
  inspected : s'.touched = true → Inspected s.burst_ s' log
  later : ∀ j ≥ s'.result.bytesRead, s'.out j = s.out j
  judged : ok = true ↔ s'.result.primary = .ok
  done : ok = true → s'.touched = true ∧ s'.result.bytesRead = bytes ∧ ∃ acquire reads,
    log = acquire ++ reads ∧ Inspected s.burst_ s' acquire ∧
    Consecutive ((List.range bytes).map fun j => ByteRead (address + j) (s'.out j)) reads

theorem Inspected.append {burst : Bool} {s' s'' : EfuseReader} {log : Trace} (h : Inspected burst s' log)
    (hsame : s''.originalIso = s'.originalIso ∧ s''.originalPmc = s'.originalPmc ∧
      s''.originalBurst = s'.originalBurst) (log' : Trace) : Inspected burst s'' (log ++ log') := by
  rcases h with ⟨now, rest, rfl⟩
  rcases hsame with ⟨hiso, hpmc, hburst⟩
  refine ⟨now, rest ++ log', ?_⟩
  rw [hiso, hpmc, hburst, List.append_assoc]

/-- What `enable` has done. -/
structure Enabled (s : EfuseReader) (log : Trace) (ok : Bool) (s' : EfuseReader) : Prop where
  burst : s'.burst_ = s.burst_
  unmarked : ∀ e ∈ log, Event.marks e = none
  addressed : ∀ e ∈ log, Event.Addressed e
  untouched : s'.touched = false → ∀ e ∈ log, Event.changesRail e = false
  inspected : s'.touched = true → Inspected s.burst_ s' log
  out : s'.out = s.out
  bytesRead : s'.result.bytesRead = s.result.bytesRead
  validBytes : s'.result.validBytes = s.result.validBytes
  done : ok = true → s'.touched = true

theorem enable_spec (htouched : s.touched = false) :
    enable.wp (fun log ok s' => Enabled s log ok s') s := by
  have hinspect : Keeps (Moves false true) (every inspect) := Keeps.every moves_traced inspect_moves
  have hraise : Keeps (Moves true false) (every raise) := Keeps.every moves_traced raise_moves
  rw [enable, wp_both]
  refine wp_mono (wp_and (hinspect s) inspect_ok) fun look ok s₁ h => ⟨fun hok => ?_, fun hok => ?_⟩
  · rcases h with ⟨hlook, hinspected⟩
    rw [wp_both, touch, wp_modify_bind, wp_pure]
    refine ⟨fun _ => ?_, fun hno => by cases hno⟩
    refine wp_mono (hraise _) fun change ok' s₂ hchange => ?_
    rw [List.nil_append]
    refine ⟨hchange.burst.trans hlook.burst, ?_, ?_, ?_, ?_, hchange.out.trans hlook.out,
      hchange.bytesRead.trans hlook.bytesRead, hchange.validBytes.trans hlook.validBytes,
      fun _ => hchange.touched⟩
    · intro e he
      rcases List.mem_append.1 he with he | he
      · exact hlook.unmarked e he
      · exact hchange.unmarked e he
    · intro e he
      rcases List.mem_append.1 he with he | he
      · exact hlook.addressed e he
      · exact hchange.addressed e he
    · intro hno
      rw [hchange.touched] at hno
      cases hno
    · intro _
      have hlooked : Inspected s.burst_ s₁ look := hinspected hok
      exact hlooked.append (hchange.original rfl) change
  · rcases h with ⟨hlook, -⟩
    have huntouched : s₁.touched = false := hlook.touched.trans htouched
    refine ⟨hlook.burst, hlook.unmarked, hlook.addressed,
      fun _ e he => changesRail_of_writes (hlook.quiet rfl e he), fun htrue => ?_, hlook.out,
      hlook.bytesRead, hlook.validBytes, fun hno => ?_⟩
    · rw [huntouched] at htrue
      cases htrue
    · cases hno

theorem transfer_spec {address bytes : ℕ} (ha : address + bytes ≤ 0x600) (hs : s.result.primary = .ok)
    (hbytes : s.result.bytesRead = 0) (htouched : s.touched = false) :
    (transfer address bytes).wp (fun log ok s' => Transferred address bytes s log ok s') s := by
  rw [transfer, wp_both]
  refine wp_mono (wp_and (enable_spec htouched) (enable_judged s hs))
    fun acquire ok s₁ h => ⟨fun hok => ?_, fun hok => ?_⟩
  · rcases h with ⟨henable, hjudged⟩
    refine wp_mono (readBytes_spec ha (hjudged.1 hok) (henable.bytesRead.trans hbytes))
      fun reads ok' s₂ h => ?_
    have hreads : Asking reads ∧ Sits s₁ s₂ ∧ (∀ j ≥ s₂.result.bytesRead, s₂.out j = s₁.out j) ∧
        (ok' = true ↔ s₂.result.primary = .ok) := by
      cases ok' with
      | true =>
          have hread := h.1 rfl
          refine ⟨hread.asking, hread.sits, ?_, fun _ => hread.primary, fun _ => rfl⟩
          rw [hread.bytesRead]
          exact hread.later
      | false =>
          have hbroken := h.2 rfl
          refine ⟨hbroken.asking, hbroken.sits, hbroken.later, fun hno => ?_, fun hno => ?_⟩
          · cases hno
          · exact absurd hno hbroken.primary
    rcases hreads with ⟨hasking, hsits, hlater, hprimary⟩
    have htouched₂ : s₂.touched = true := hsits.touched.trans (henable.done hok)
    have hinspected : Inspected s.burst_ s₂ acquire := by
      have hacquire := (henable.inspected (henable.done hok)).append hsits.original []
      rwa [List.append_nil] at hacquire
    refine ⟨hsits.burst.trans henable.burst, hsits.validBytes.trans henable.validBytes, ?_, ?_, ?_,
      fun _ => ?_, ?_, hprimary, fun hok' => ?_⟩
    · intro e he
      rcases List.mem_append.1 he with he | he
      · exact henable.unmarked e he
      · exact (hasking e he).1
    · intro e he
      rcases List.mem_append.1 he with he | he
      · exact henable.addressed e he
      · exact (hasking e he).2.1
    · intro hno
      rw [htouched₂] at hno
      cases hno
    · exact hinspected.append ⟨rfl, rfl, rfl⟩ reads
    · intro j hj
      rw [hlater j hj, henable.out]
    · have hread := h.1 hok'
      exact ⟨htouched₂, hread.bytesRead, acquire, reads, rfl, hinspected, hread.reads⟩
  · rcases h with ⟨henable, hjudged⟩
    rw [hok] at hjudged
    refine ⟨henable.burst, henable.validBytes, henable.unmarked, henable.addressed, henable.untouched, henable.inspected,
      fun j _ => by rw [henable.out], hjudged, fun hno => by cases hno⟩

end Rail

/-! ## Restorations -/

section Restore

variable {s : EfuseReader}

def stepRead : RestoreStep → Io
  | .burst => .read32 0x38
  | .isolation => .read16 0
  | .cut => .read16 0
  | .settle => .delayUs 1000
  | .power => .read16 0
  | .management => .read8 0xcc

def isoWrite (mask bits : UInt16) (read : Bool × UInt16) : Option Io :=
  if read.1 = false ∨ read.2 = 0xffff then none
  else some (.write16 0 ((read.2 &&& ~~~mask) ||| (bits &&& mask)))

/-- The write that follows, if what was read is good. -/
def stepWrite (originalPmc : UInt8) (originalBurst : UInt32) :
    (step : RestoreStep) → Reply (stepRead step) → Option Io
  | .burst, read =>
      if read.1 = false ∨ read.2 = 0xffffffff then none
      else some (.write32 0x38 ((read.2 &&& ~~~0x80000) ||| (originalBurst &&& 0x80000)))
  | .isolation, read => isoWrite 0x100 0x100 read
  | .cut, read => isoWrite 0x8000 0 read
  | .settle, _ => none
  | .power, read => isoWrite 0x4000 0 read
  | .management, read =>
      if read.1 = false ∨ read.2 = 0xff then none
      else some (.write8 0xcc ((read.2 &&& ~~~4) ||| (originalPmc &&& 4)))

/-- A step was attempted: it is marked, and then its accesses follow. -/
def Attempted (originalPmc : UInt8) (originalBurst : UInt32) (step : RestoreStep) (log : Trace) : Prop :=
  ∃ read, (stepWrite originalPmc originalBurst step read = none ∧
      log = [.note step, .call (stepRead step) read]) ∨
    ∃ c ok, stepWrite originalPmc originalBurst step read = some c ∧
      log = [.note step, .call (stepRead step) read, .call c ok]

/-- Every step was attempted once, in this order. -/
def PutBack (burst : Bool) (originalPmc : UInt8) (originalBurst : UInt32) (log : Trace) : Prop :=
  Consecutive ((if burst then [Attempted originalPmc originalBurst .burst] else []) ++
    [Attempted originalPmc originalBurst .isolation, Attempted originalPmc originalBurst .cut,
      Attempted originalPmc originalBurst .settle, Attempted originalPmc originalBurst .power,
      Attempted originalPmc originalBurst .management]) log

theorem iso_attempt (mask bits : UInt16) : (iso mask bits).wp (fun log _ s' => s' = s ∧ ∃ read,
    (isoWrite mask bits read = none ∧ log = [.call (.read16 0) read]) ∨
      ∃ c ok, isoWrite mask bits read = some c ∧ log = [.call (.read16 0) read, .call c ok]) s := by
  unfold iso isoWrite
  rw [io, wp_ask_bind]
  intro read
  rw [wp_ite]
  constructor
  · intro hbad
    rw [wp_pure]
    exact ⟨rfl, read, Or.inl ⟨if_pos hbad, rfl⟩⟩
  · intro hgood
    rw [io, wp_ask]
    intro ok
    exact ⟨rfl, read, Or.inr ⟨_, ok, if_neg hgood, rfl⟩⟩

theorem step_accesses (s₀ : EfuseReader) (step : RestoreStep) : (restoreStep s₀ step).wp
    (fun log _ s' => s' = s ∧ ∃ read, (stepWrite s₀.originalPmc s₀.originalBurst step read = none ∧
        log = [.call (stepRead step) read]) ∨
      ∃ c ok, stepWrite s₀.originalPmc s₀.originalBurst step read = some c ∧
        log = [.call (stepRead step) read, .call c ok]) s := by
  cases step with
  | isolation => exact iso_attempt 0x100 0x100
  | cut => exact iso_attempt 0x8000 0
  | power => exact iso_attempt 0x4000 0
  | settle =>
      unfold restoreStep
      rw [io, wp_ask]
      intro ok
      exact ⟨rfl, ok, Or.inl ⟨rfl, rfl⟩⟩
  | burst =>
      unfold restoreStep burst
      rw [io, wp_ask_bind]
      intro read
      rw [wp_ite]
      constructor
      · intro hbad
        rw [wp_pure]
        exact ⟨rfl, read, Or.inl ⟨if_pos hbad, rfl⟩⟩
      · intro hgood
        rw [io, wp_ask]
        intro ok
        exact ⟨rfl, read, Or.inr ⟨_, ok, if_neg hgood, rfl⟩⟩
  | management =>
      show (pmc s₀.originalPmc).wp _ s
      unfold pmc
      rw [io, wp_ask_bind]
      intro read
      rw [wp_ite]
      constructor
      · intro hbad
        rw [wp_pure]
        exact ⟨rfl, read, Or.inl ⟨if_pos hbad, rfl⟩⟩
      · intro hgood
        rw [io, wp_ask]
        intro ok
        exact ⟨rfl, read, Or.inr ⟨_, ok, if_neg hgood, rfl⟩⟩

/-- Every step ends with its accesses, and leaves the record alone. -/
theorem attempt_spec (s₀ : EfuseReader) (step : RestoreStep) : (attempt s₀ step).wp
    (fun log _ s' => s' = s ∧ Attempted s₀.originalPmc s₀.originalBurst step log) s := by
  unfold attempt
  rw [wp_tell_bind]
  refine wp_mono (step_accesses s₀ step) fun log _ s' h => ?_
  rcases h with ⟨hsame, read, hlast | ⟨c, ok, hwrite, hlog⟩⟩
  · exact ⟨hsame, read, Or.inl ⟨hlast.1, congrArg _ hlast.2⟩⟩
  · exact ⟨hsame, read, Or.inr ⟨c, ok, hwrite, congrArg _ hlog⟩⟩

/-- All of them are attempted, whatever the others return. -/
theorem each_attempted (s₀ : EfuseReader) (steps : List RestoreStep) :
    (each (steps.map (attempt s₀))).wp (fun log _ s' => s' = s ∧
      Consecutive (steps.map (Attempted s₀.originalPmc s₀.originalBurst)) log) s := by
  induction steps with
  | nil => exact (wp_pure true).2 ⟨rfl, Consecutive.nil⟩
  | cons step steps ih =>
      rw [List.map_cons, each, wp_bind]
      refine wp_mono (attempt_spec s₀ step) fun log ok s₁ h => ?_
      rcases h with ⟨rfl, hstep⟩
      rw [wp_bind]
      refine wp_mono ih fun log' rest s₂ h => ?_
      rcases h with ⟨rfl, hsteps⟩
      rw [wp_pure, List.append_nil]
      exact ⟨rfl, Consecutive.cons hstep hsteps⟩

/-- The registers of the rail hold what they held at first. -/
def ReadBack (burst : Bool) (s : EfuseReader) (log : Trace) : Prop :=
  ∃ iso pmc b, log = [.call (.read16 0) (true, iso), .call (.read8 0xcc) (true, pmc)] ++
      (if burst then [.call (.read32 0x38) (true, b)] else []) ∧
    (iso ≠ 0xffff ∧ iso &&& 0xc100 = s.originalIso &&& 0xc100) ∧
    (pmc ≠ 0xff ∧ pmc &&& 4 = s.originalPmc &&& 4) ∧
    (burst = true → b ≠ 0xffffffff ∧ b &&& 0x80000 = s.originalBurst &&& 0x80000)

theorem isoBack_spec (s₀ : EfuseReader) : (isoBack s₀).wp (fun log ok s' => s' = s ∧ ∃ read : Bool × UInt16,
    log = [.call (.read16 0) read] ∧ (ok = true → read.1 = true ∧ read.2 ≠ 0xffff ∧
      read.2 &&& 0xc100 = s₀.originalIso &&& 0xc100)) s := by
  unfold isoBack
  rw [io, wp_ask_bind]
  intro read
  rw [wp_pure]
  refine ⟨rfl, read, rfl, fun hok => ?_⟩
  simpa [and_assoc] using hok

theorem pmcBack_spec (s₀ : EfuseReader) : (pmcBack s₀).wp (fun log ok s' => s' = s ∧ ∃ read : Bool × UInt8,
    log = [.call (.read8 0xcc) read] ∧ (ok = true → read.1 = true ∧ read.2 ≠ 0xff ∧
      read.2 &&& 4 = s₀.originalPmc &&& 4)) s := by
  unfold pmcBack
  rw [io, wp_ask_bind]
  intro read
  rw [wp_pure]
  refine ⟨rfl, read, rfl, fun hok => ?_⟩
  simpa [and_assoc] using hok

theorem burstBack_spec (s₀ : EfuseReader) : (burstBack s₀).wp (fun log ok s' => s' = s ∧
    ∃ read : Bool × UInt32, log = [.call (.read32 0x38) read] ∧ (ok = true → read.1 = true ∧
      read.2 ≠ 0xffffffff ∧ read.2 &&& 0x80000 = s₀.originalBurst &&& 0x80000)) s := by
  unfold burstBack
  rw [io, wp_ask_bind]
  intro read
  rw [wp_pure]
  refine ⟨rfl, read, rfl, fun hok => ?_⟩
  simpa [and_assoc] using hok

theorem each_cons {m : Efused Bool} {ms : List (Efused Bool)} {P : Trace → Bool → Prop}
    {Q : Trace → Bool → EfuseReader → Prop} (hm : m.wp (fun log ok s' => s' = s ∧ P log ok) s)
    (hms : ∀ log ok, P log ok → (each ms).wp (fun log' ok' s' => Q (log ++ log') (ok && ok') s') s) :
    (each (m :: ms)).wp Q s := by
  rw [each, wp_bind]
  refine wp_mono hm fun log ok s₁ h => ?_
  rcases h with ⟨rfl, h⟩
  rw [wp_bind]
  refine wp_mono (hms log ok h) fun log' ok' s₂ h' => ?_
  rwa [wp_pure, List.append_nil]

theorem readBacks_spec (s₀ : EfuseReader) : (each (readBacks s₀)).wp (fun log ok s' => s' = s ∧
    (∀ e ∈ log, Event.marks e = none ∧ Event.Addressed e) ∧
    (ok = true → ReadBack s₀.burst_ s₀ log)) s := by
  unfold readBacks
  rw [List.cons_append]
  refine each_cons (isoBack_spec s₀) fun log iok h₁ => ?_
  rcases h₁ with ⟨⟨iread, iso⟩, rfl, hiso⟩
  rw [List.cons_append, List.nil_append]
  refine each_cons (pmcBack_spec s₀) fun log pok h₂ => ?_
  rcases h₂ with ⟨⟨pread, pmc⟩, rfl, hpmc⟩
  cases hb : s₀.burst_ with
  | false =>
      rw [if_neg (by decide), each, wp_pure]
      refine ⟨rfl, by simp [Event.marks, Event.Addressed], fun hok => ?_⟩
      rcases Bool.and_eq_true_iff.1 hok with ⟨hiok, hok⟩
      rcases Bool.and_eq_true_iff.1 hok with ⟨hpok, -⟩
      rcases hiso hiok with ⟨hi, hiso⟩
      rcases hpmc hpok with ⟨hp, hpmc⟩
      have hi : iread = true := hi
      have hp : pread = true := hp
      subst hi hp
      exact ⟨iso, pmc, 0, rfl, hiso, hpmc, fun hno => by cases hno⟩
  | true =>
      rw [if_pos rfl]
      refine each_cons (burstBack_spec s₀) fun log bok h₃ => ?_
      rcases h₃ with ⟨⟨bread, b⟩, rfl, hburst⟩
      rw [each, wp_pure]
      refine ⟨rfl, by simp [Event.marks, Event.Addressed], fun hok => ?_⟩
      rcases Bool.and_eq_true_iff.1 hok with ⟨hiok, hok⟩
      rcases Bool.and_eq_true_iff.1 hok with ⟨hpok, hok⟩
      rcases Bool.and_eq_true_iff.1 hok with ⟨hbok, -⟩
      rcases hiso hiok with ⟨hi, hiso⟩
      rcases hpmc hpok with ⟨hp, hpmc⟩
      rcases hburst hbok with ⟨hb, hburst⟩
      have hi : iread = true := hi
      have hp : pread = true := hp
      have hb : bread = true := hb
      subst hi hp hb
      exact ⟨iso, pmc, b, rfl, hiso, hpmc, fun _ => hburst⟩

def afterRestore (s : EfuseReader) (ok : Bool) : EfuseReader :=
  { s with result := { s.result with cleanupAttempted := true, restored := ok } }

/-- All steps are attempted, and then the rail is read back. -/
structure Restoration (s : EfuseReader) (log : Trace) (ok : Bool) : Prop where
  parts : ∃ steps backs, log = steps ++ backs ∧
    PutBack s.burst_ s.originalPmc s.originalBurst steps ∧
    (∀ e ∈ backs, Event.marks e = none ∧ Event.Addressed e) ∧ (ok = true → ReadBack s.burst_ s backs)

theorem putBack_of_steps {burst : Bool} {originalPmc : UInt8} {originalBurst : UInt32} {log : Trace}
    (h : Consecutive ((restoreSteps burst).map (Attempted originalPmc originalBurst)) log) :
    PutBack burst originalPmc originalBurst log := by
  cases burst with
  | false => exact h
  | true => exact h

theorem restore_spec :
    restore.wp (fun log ok s' => Restoration s log ok ∧ s' = afterRestore s ok) s := by
  unfold restore
  rw [wp_modify_bind, wp_get_bind, wp_bind]
  refine wp_mono (each_attempted _ _) fun steps ok s₁ h => ?_
  rcases h with ⟨rfl, hsteps⟩
  rw [wp_bind]
  refine wp_mono (readBacks_spec _) fun backs back s₂ h => ?_
  rcases h with ⟨rfl, hquiet, hback⟩
  rw [wp_modify_bind, wp_pure, List.append_nil]
  refine ⟨⟨steps, backs, rfl, putBack_of_steps hsteps, hquiet, fun hok => ?_⟩, rfl⟩
  exact hback (Bool.and_eq_true_iff.1 hok).2

end Restore

/-! ## Costs -/

section Costs

theorem spends_io (c : Io) : Spends Event.cost 1 (io c) := by
  intro s
  rw [io, wp_ask]
  intro r
  exact le_rfl

theorem spends_stop (status : EfuseReadStatus) : Spends Event.cost 0 (stop status) :=
  Spends.modify_bind (Spends.pure false)

theorem spends_orFailed {m : Efused Bool} {n : ℕ} (hm : Spends Event.cost n m) :
    Spends Event.cost n (orFailed m) := by
  have hrest := Spends.bind hm fun ok => Spends.ite (p := ok = true) (Spends.pure true) (spends_stop .ioError)
  exact hrest

theorem spends_whenBurst {m : Efused Bool} {n : ℕ} (hm : Spends Event.cost n m) :
    Spends Event.cost n (whenBurst m) :=
  Spends.get_bind fun _ => Spends.ite hm (Spends.pure true)

theorem spends_every {ms : List (Efused Bool)} (n : ℕ) (h : ∀ m ∈ ms, Spends Event.cost n m) :
    Spends Event.cost (ms.length * n) (every ms) := by
  induction ms with
  | nil => exact Spends.pure true
  | cons m ms ih =>
      have hrest := ih fun m' hm' => h m' (List.mem_cons_of_mem m hm')
      rw [List.length_cons, Nat.succ_mul, Nat.add_comm]
      exact Spends.both (h m List.mem_cons_self) hrest

theorem spends_each {ms : List (Efused Bool)} (n : ℕ) (h : ∀ m ∈ ms, Spends Event.cost n m) :
    Spends Event.cost (ms.length * n) (each ms) := by
  induction ms with
  | nil => exact Spends.pure true
  | cons m ms ih =>
      have hrest := ih fun m' hm' => h m' (List.mem_cons_of_mem m hm')
      rw [List.length_cons, Nat.succ_mul, Nat.add_comm]
      refine Spends.bind (h m List.mem_cons_self) fun ok => ?_
      rw [← Nat.add_zero (ms.length * n)]
      exact Spends.bind hrest fun rest => Spends.pure _

theorem spends_active : Spends Event.cost 2 active := by
  show Spends Event.cost (1 + (1 + 0)) active
  refine Spends.bind (spends_io _) fun cancelled => ?_
  apply Spends.ite ((spends_stop _).mono (Nat.zero_le _))
  refine Spends.bind (spends_io _) fun now => ?_
  apply Spends.get_bind
  intro s
  apply Spends.ite (spends_stop _)
  exact Spends.modify_bind (Spends.ite (spends_stop _) (Spends.pure true))

theorem spends_iso (mask bits : UInt16) : Spends Event.cost 2 (iso mask bits) := by
  show Spends Event.cost (1 + 1) _
  exact Spends.bind (spends_io _) fun _ => Spends.ite (Spends.pure false) (spends_io _)

theorem spends_pmc (bits : UInt8) : Spends Event.cost 2 (pmc bits) := by
  show Spends Event.cost (1 + 1) _
  exact Spends.bind (spends_io _) fun _ => Spends.ite (Spends.pure false) (spends_io _)

theorem spends_burst (bits : UInt32) : Spends Event.cost 2 (burst bits) := by
  show Spends Event.cost (1 + 1) _
  exact Spends.bind (spends_io _) fun _ => Spends.ite (Spends.pure false) (spends_io _)

theorem spends_readLast : Spends Event.cost 2 readLast := by
  show Spends Event.cost (1 + (1 + 0)) _
  refine Spends.bind (spends_io _) fun delayed => ?_
  apply Spends.ite (Spends.pure false)
  exact Spends.bind (spends_io _) fun _ => Spends.modify_bind (Spends.pure _)

/-- The loop ends after its attempts, whatever the clock says. -/
theorem spends_poll (started attempts : ℕ) : Spends Event.cost (attempts * 4) (poll started attempts) := by
  induction attempts with
  | zero => exact Spends.pure false
  | succ attempts ih =>
      rw [Nat.succ_mul, Nat.add_comm]
      show Spends Event.cost ((2 + 2) + attempts * 4) _
      refine Spends.bind (Spends.both spends_active (spends_orFailed spends_readLast)) fun ok => ?_
      apply Spends.ite
      · apply Spends.modify_bind
        apply Spends.get_bind
        intro s
        apply Spends.ite (Spends.pure true)
        exact Spends.ite ((spends_stop _).mono (Nat.zero_le _)) ih
      · exact Spends.pure false

theorem spends_waitByte : Spends Event.cost 4000000 waitByte := by
  apply Spends.get_bind
  intro s
  have hpoll : Spends Event.cost (1000000 * 4) (poll s.previous 1000000) := spends_poll _ _
  have htotal : 4000000 = 1000000 * 4 + 0 := by norm_num
  rw [htotal]
  refine Spends.bind hpoll fun ready => ?_
  apply Spends.ite (Spends.pure true)
  exact Spends.get_bind fun _ => Spends.ite (spends_stop _) (Spends.pure false)

theorem spends_readByte (address i : ℕ) : Spends Event.cost 4000003 (readByte address i) := by
  have htotal : 4000003 = 2 + (1 + (4000000 + (0 + 0))) := by norm_num
  rw [htotal]
  refine Spends.both spends_active (Spends.both (spends_orFailed (spends_io _)) ?_)
  exact Spends.both spends_waitByte (Spends.both (Spends.modify_bind (Spends.pure true)) (Spends.pure true))

theorem spends_inspect : Spends Event.cost 10 (every inspect) := by
  apply spends_every 2
  unfold inspect
  have hlook : ∀ (c : Io) (g : Reply c → EfuseReader → EfuseReader) (a : Reply c → Bool),
      Spends Event.cost 1 (do let r ← io c; modify (g r); return a r : Efused Bool) := by
    intro c g a
    show Spends Event.cost (1 + 0) _
    exact Spends.bind (spends_io c) fun r => Spends.modify_bind (Spends.pure _)
  rw [List.forall_mem_cons, List.forall_mem_cons, List.forall_mem_cons, List.forall_mem_cons,
    List.forall_mem_cons]
  refine ⟨spends_active, ?_, ?_, ?_, spends_active, by simp⟩
  · apply spends_orFailed
    show Spends Event.cost (1 + 1) _
    exact Spends.both (hlook (.read16 0) _ _) (hlook (.read8 0xcc) _ _)
  · exact Spends.get_bind fun _ => Spends.ite ((spends_stop _).mono (Nat.zero_le 2)) (Spends.pure true)
  · apply spends_orFailed
    exact (spends_whenBurst (hlook (.read32 0x38) _ _)).mono (by decide)

theorem spends_raise : Spends Event.cost 24 (every raise) := by
  apply spends_every 6
  unfold raise
  rw [List.forall_mem_cons, List.forall_mem_cons, List.forall_mem_cons, List.forall_mem_cons]
  refine ⟨?_, spends_active.mono (by decide), ?_, ?_, by simp⟩
  · apply spends_orFailed
    apply spends_every 2
    rw [List.forall_mem_cons, List.forall_mem_cons, List.forall_mem_cons]
    exact ⟨spends_pmc _, spends_iso _ _, (spends_io _).mono (by decide), by simp⟩
  · apply spends_orFailed
    exact (Spends.both (spends_iso _ _) (spends_iso _ _)).mono (by decide)
  · exact (spends_orFailed (spends_whenBurst (spends_burst _))).mono (by decide)

theorem spends_transfer (address bytes : ℕ) :
    Spends Event.cost (34 + bytes * 4000003) (transfer address bytes) := by
  have henable : Spends Event.cost (10 + (0 + 24)) enable :=
    Spends.both spends_inspect (Spends.both (Spends.modify_bind (Spends.pure true)) spends_raise)
  have hbytes : Spends Event.cost (((List.range bytes).map (readByte address)).length * 4000003)
      (every ((List.range bytes).map (readByte address))) := by
    apply spends_every
    intro m hm
    rcases List.mem_map.1 hm with ⟨i, -, rfl⟩
    exact spends_readByte address i
  rw [List.length_map, List.length_range] at hbytes
  exact Spends.both henable hbytes

theorem spends_restore : Spends Event.cost 18 restore := by
  have hattempt : ∀ (s : EfuseReader) (step : RestoreStep), Spends Event.cost 2 (attempt s step) := by
    intro s step
    have hstep : Spends Event.cost 2 (restoreStep s step) := by
      cases step with
      | burst => exact spends_burst _
      | isolation => exact spends_iso _ _
      | cut => exact spends_iso _ _
      | settle => exact (spends_io _).mono (by decide)
      | power => exact spends_iso _ _
      | management => exact spends_pmc _
    intro s'
    rw [attempt, wp_tell_bind]
    exact wp_mono (hstep s') fun log _ _ hle => by simpa [Event.cost] using hle
  have hback : ∀ (c : Io) (a : Reply c → Bool),
      Spends Event.cost 2 (do let r ← io c; return a r : Efused Bool) := by
    intro c a
    show Spends Event.cost (1 + 1) _
    exact Spends.bind (spends_io c) fun r => Spends.pure _
  apply Spends.modify_bind
  apply Spends.get_bind
  intro s
  have hsteps : Spends Event.cost 12 (each ((restoreSteps s.burst_).map (attempt s))) := by
    refine (spends_each 2 fun m hm => ?_).mono ?_
    · rcases List.mem_map.1 hm with ⟨step, -, rfl⟩
      exact hattempt s step
    · rw [List.length_map]
      unfold restoreSteps
      cases s.burst_ <;> decide
  have hbacks : Spends Event.cost 6 (each (readBacks s)) := by
    refine (spends_each 2 fun m hm => ?_).mono ?_
    · unfold readBacks at hm
      rcases List.mem_append.1 hm with hm | hm
      · simp only [List.mem_cons, List.not_mem_nil, or_false] at hm
        rcases hm with rfl | rfl
        · exact hback _ _
        · exact hback _ _
      · cases hb : s.burst_ with
        | false =>
            rw [hb] at hm
            cases hm
        | true =>
            rw [hb, if_pos rfl] at hm
            rw [List.mem_singleton.1 hm]
            exact hback _ _
    · unfold readBacks
      cases s.burst_ with
      | false => exact (by decide : 2 * 2 ≤ 6)
      | true => exact le_rfl
  show Spends Event.cost (12 + (6 + 0)) _
  exact Spends.bind hsteps fun _ => Spends.bind hbacks fun _ => Spends.modify_bind (Spends.pure _)

/-- The number of accesses is bounded, also where the clock stands still. -/
theorem spends_readDdv (r : Request) : Spends Event.cost (53 + r.bytes * 4000003) (readDdv r) := by
  have hfinish : Spends Event.cost 18 finish := by
    apply Spends.modify_bind
    show Spends Event.cost (18 + 0) _
    have hsettle : Spends Event.cost (18 + 0) settleRail := by
      apply Spends.get_bind
      intro s
      apply Spends.ite
      · refine Spends.bind spends_restore fun ok => ?_
        exact Spends.ite (Spends.pure ()) (Spends.modify _)
      · exact Spends.pure ()
    exact Spends.bind hsettle fun _ => Spends.modify_bind (Spends.get_bind fun _ => Spends.pure _)
  apply Spends.modify_bind
  apply Spends.ite
  · exact Spends.get_bind fun _ => Spends.pure _
  · have htotal : 53 + r.bytes * 4000003 = 1 + ((34 + r.bytes * 4000003) + 18) := by ring
    rw [htotal]
    refine Spends.bind (spends_io _) fun now => ?_
    apply Spends.modify_bind
    exact Spends.bind (spends_transfer _ _) fun _ => hfinish

end Costs

/-! ## The whole of `readDdv` -/

section Whole

variable {s : EfuseReader}

/-- The end of a transaction that began with this record. -/
structure Finished (s : EfuseReader) (log : Trace) (result : EfuseReadResult) (s' : EfuseReader) : Prop where
  original : s'.originalIso = s.originalIso ∧ s'.originalPmc = s.originalPmc ∧
    s'.originalBurst = s.originalBurst
  restored : s.touched = true → ∃ ok, Restoration s log ok ∧ result.cleanupAttempted = true ∧
    (result.status = .ok → ok = true)
  idle : s.touched = false → log = []
  primary : result.status = .ok → s.result.primary = .ok
  valid : result.status = .ok → s'.out = s.out ∧ result.validBytes = s.result.bytesRead
  cleared : result.status ≠ .ok → result.validBytes = s.result.validBytes ∧
    s'.out = fun i => if i < result.bytesRead then 0 else s.out i
  bytesRead : result.bytesRead = s.result.bytesRead

/-- What is reported of a record that differs only in its status. -/
theorem finished_of {x : EfuseReader} {log : Trace}
    (hsame : x.originalIso = s.originalIso ∧ x.originalPmc = s.originalPmc ∧
      x.originalBurst = s.originalBurst ∧ x.out = s.out ∧ x.result.bytesRead = s.result.bytesRead ∧
      x.result.validBytes = s.result.validBytes)
    (hrestored : s.touched = true → ∃ ok, Restoration s log ok ∧ x.result.cleanupAttempted = true ∧
      (x.result.status = .ok → ok = true))
    (hidle : s.touched = false → log = []) (hprimary : x.result.status = .ok → s.result.primary = .ok) :
    Finished s log (report x).result (report x) := by
  rcases hsame with ⟨hiso, hpmc, hburst, hout, hbytes, hvalid⟩
  unfold report
  by_cases hstatus : x.result.status = .ok
  · rw [if_pos hstatus]
    exact ⟨⟨hiso, hpmc, hburst⟩, hrestored, hidle, fun _ => hprimary hstatus, fun _ => ⟨hout, hbytes⟩,
      fun hno => absurd hstatus hno, hbytes⟩
  · rw [if_neg hstatus]
    refine ⟨⟨hiso, hpmc, hburst⟩, hrestored, hidle, hprimary, fun hok => absurd hok hstatus,
      fun _ => ⟨hvalid, ?_⟩, hbytes⟩
    show (fun i => if i < x.result.bytesRead then 0 else x.out i) = _
    rw [hout]

theorem finish_spec : finish.wp (fun log result s' => Finished s log result s') s := by
  unfold finish settleRail
  rw [wp_modify_bind, wp_bind, wp_get_bind, wp_ite]
  constructor
  · intro htouched
    rw [wp_bind]
    refine wp_mono restore_spec fun log ok s₁ h => ?_
    rcases h with ⟨hrestored, rfl⟩
    have hrestored : Restoration s log ok := ⟨hrestored.parts⟩
    have hnone : s.touched = false → log = [] := by
      intro hno
      have htrue : s.touched = true := htouched
      rw [hno] at htrue
      cases htrue
    rw [wp_ite]
    constructor
    · intro hok
      rw [wp_pure, wp_modify_bind, wp_get_bind, wp_pure]
      simp only [List.append_nil]
      exact finished_of ⟨rfl, rfl, rfl, rfl, rfl, rfl⟩ (fun _ => ⟨ok, hrestored, rfl, fun _ => hok⟩) hnone
        fun hstatus => hstatus
    · intro _
      rw [wp_modify, wp_modify_bind, wp_get_bind, wp_pure]
      simp only [List.append_nil]
      refine finished_of ⟨rfl, rfl, rfl, rfl, rfl, rfl⟩ (fun _ => ⟨ok, hrestored, rfl, fun hno => ?_⟩) hnone
        fun hno => ?_
      · cases hno
      · cases hno
  · intro huntouched
    rw [wp_pure, wp_modify_bind, wp_get_bind, wp_pure]
    simp only [List.append_nil]
    exact finished_of ⟨rfl, rfl, rfl, rfl, rfl, rfl⟩ (fun htouched => absurd htouched huntouched)
      (fun _ => rfl) fun hstatus => hstatus

/-- A transaction begins with the clock and the state of the rail. -/
def Begins (burst : Bool) (s' : EfuseReader) (log : Trace) : Prop :=
  ∃ now log', log = .call .nowUs now :: log' ∧ Inspected burst s' log'

/-- What `readDdv` promises. -/
structure Transaction (r : Request) (s : EfuseReader) (log : Trace) (result : EfuseReadResult)
    (s' : EfuseReader) : Prop where
  done : result.status = .ok → result.validBytes = r.bytes ∧ (∀ i ≥ r.bytes, s'.out i = s.out i) ∧
    ∃ acquire reads steps backs, log = acquire ++ reads ++ steps ++ backs ∧
      Begins (r.cut == 0) s' acquire ∧
      Consecutive ((List.range r.bytes).map fun i => ByteRead (r.address + i) (s'.out i)) reads ∧
      ReadBack (r.cut == 0) s' backs
  restored : (∃ e ∈ log, Event.changesRail e = true) → result.cleanupAttempted = true ∧
    ∃ body steps backs, log = body ++ steps ++ backs ∧ (∀ e ∈ body ++ backs, Event.marks e = none) ∧
      Begins (r.cut == 0) s' body ∧ PutBack (r.cut == 0) s'.originalPmc s'.originalBurst steps
  cleared : result.status ≠ .ok → result.validBytes = 0 ∧
    s'.out = fun i => if i < result.bytesRead then 0 else s.out i
  addressed : ∀ e ∈ log, Event.Addressed e

theorem attempted_addressed {originalPmc : UInt8} {originalBurst : UInt32} {step : RestoreStep} {log : Trace}
    (h : Attempted originalPmc originalBurst step log) : ∀ e ∈ log, Event.Addressed e := by
  have hread : ∀ read, Event.Addressed (.call (stepRead step) read) := by
    intro read
    cases step <;> exact trivial
  have hiso : ∀ {mask bits : UInt16} {read : Bool × UInt16} {c : Io} {ok : Reply c},
      isoWrite mask bits read = some c → Event.Addressed (.call c ok) := by
    intro mask bits read c ok hc
    unfold isoWrite at hc
    split at hc
    · cases hc
    · cases hc
      exact trivial
  have hwrite : ∀ {read c} {ok : Reply c}, stepWrite originalPmc originalBurst step read = some c →
      Event.Addressed (.call c ok) := by
    intro read c ok hc
    cases step with
    | isolation => exact hiso hc
    | cut => exact hiso hc
    | power => exact hiso hc
    | settle => cases hc
    | burst =>
        simp only [stepWrite] at hc
        split at hc
        · cases hc
        · cases hc
          intro hno
          exact absurd hno (by decide)
    | management =>
        simp only [stepWrite] at hc
        split at hc
        · cases hc
        · cases hc
          exact trivial
  rcases h with ⟨read, ⟨-, rfl⟩ | ⟨c, ok, hc, rfl⟩⟩
  · rw [List.forall_mem_cons, List.forall_mem_cons]
    exact ⟨trivial, hread read, by simp⟩
  · rw [List.forall_mem_cons, List.forall_mem_cons, List.forall_mem_cons]
    exact ⟨trivial, hread read, hwrite hc, by simp⟩

theorem consecutive_forall {P : Event Io Reply RestoreStep → Prop} {Ks : List (Trace → Prop)} {log : Trace}
    (h : Consecutive Ks log) (hKs : ∀ K ∈ Ks, ∀ log, K log → ∀ e ∈ log, P e) : ∀ e ∈ log, P e := by
  induction h with
  | nil =>
      intro e he
      cases he
  | cons hK _ ih =>
      intro e he
      rcases List.mem_append.1 he with he | he
      · exact hKs _ List.mem_cons_self _ hK e he
      · exact ih (fun K hK' => hKs K (List.mem_cons_of_mem _ hK')) e he

theorem putBack_addressed {burst : Bool} {originalPmc : UInt8} {originalBurst : UInt32} {log : Trace}
    (h : PutBack burst originalPmc originalBurst log) : ∀ e ∈ log, Event.Addressed e := by
  refine consecutive_forall h fun K hK log hlog => ?_
  rcases List.mem_append.1 hK with hK | hK
  · cases burst with
    | false => exact absurd hK List.not_mem_nil
    | true =>
        rw [if_pos rfl] at hK
        rw [List.mem_singleton.1 hK] at hlog
        exact attempted_addressed hlog
  · simp only [List.mem_cons, List.not_mem_nil, or_false] at hK
    rcases hK with rfl | rfl | rfl | rfl | rfl <;> exact attempted_addressed hlog

theorem ReadBack.original {burst : Bool} {s' : EfuseReader} {log : Trace} (h : ReadBack burst s log)
    (hsame : s'.originalIso = s.originalIso ∧ s'.originalPmc = s.originalPmc ∧
      s'.originalBurst = s.originalBurst) : ReadBack burst s' log := by
  unfold ReadBack
  rw [hsame.1, hsame.2.1, hsame.2.2]
  exact h

theorem readDdv_spec (r : Request) : (readDdv r).wp (fun log result s' => Transaction r s log result s') s := by
  unfold readDdv
  rw [wp_modify_bind, wp_ite]
  constructor
  · -- Nothing is done with arguments that make no sense.
    intro _
    rw [wp_get_bind, wp_pure]
    refine ⟨fun hno => (by cases hno), ?_, fun _ => ⟨rfl, rfl⟩, by simp⟩
    rintro ⟨e, he, -⟩
    cases he
  · intro hvalid
    rcases not_not.1 hvalid with ⟨-, hbytes, -, haddress, hlength, -⟩
    rw [io, wp_ask_bind]
    intro now
    rw [wp_modify_bind, wp_bind]
    refine wp_mono (transfer_spec (by omega) rfl rfl rfl) fun log ok s₁ htransfer => ?_
    refine wp_mono finish_spec fun log' result s' hfinish => ?_
    have hburst : s₁.burst_ = (r.cut == 0) := htransfer.burst
    have hsame := hfinish.original
    have hbegins : s₁.touched = true → Begins (r.cut == 0) s' (.call .nowUs now :: log) := by
      intro htouched
      have hlooked := (htransfer.inspected htouched).append hsame []
      rw [List.append_nil] at hlooked
      exact ⟨now, log, rfl, hlooked⟩
    refine ⟨?_, ?_, ?_, ?_⟩
    · intro hok
      have htrue : ok = true := htransfer.judged.2 (hfinish.primary hok)
      rcases htransfer.done htrue with ⟨htouched, hread, acquire, reads, rfl, hacquire, hreads⟩
      rcases hfinish.valid hok with ⟨hout, hvalid⟩
      rcases hfinish.restored htouched with ⟨back, ⟨steps, backs, rfl, -, -, hback⟩, -, hgood⟩
      refine ⟨hvalid.trans hread, ?_, .call .nowUs now :: acquire, reads, steps, backs, ?_, ?_, ?_, ?_⟩
      · intro i hi
        rw [hout]
        exact htransfer.later i (by rw [hread]; exact hi)
      · simp only [List.cons_append, List.append_assoc]
      · have hlooked := hacquire.append hsame []
        rw [List.append_nil] at hlooked
        exact ⟨now, acquire, rfl, hlooked⟩
      · rw [hout]
        exact hreads
      · have hlast := (hback (hgood hok)).original hsame
        rwa [hburst] at hlast
    · rintro ⟨e, he, hrail⟩
      -- A change of the rail comes after it was touched.
      have htouched : s₁.touched = true := by
        by_contra hno
        have huntouched : s₁.touched = false := Bool.eq_false_iff.2 hno
        rw [hfinish.idle huntouched, List.append_nil] at he
        rcases List.mem_cons.1 he with rfl | he
        · cases hrail
        · rw [htransfer.untouched huntouched e he] at hrail
          cases hrail
      rcases hfinish.restored htouched with ⟨back, ⟨steps, backs, rfl, hsteps, hbacks, -⟩, hattempted, -⟩
      refine ⟨hattempted, .call .nowUs now :: log, steps, backs, ?_, ?_, hbegins htouched, ?_⟩
      · simp only [List.cons_append, List.append_assoc]
      · intro e he
        rcases List.mem_append.1 he with he | he
        · rcases List.mem_cons.1 he with rfl | he
          · rfl
          · exact htransfer.unmarked e he
        · exact (hbacks e he).1
      · rw [hsame.2.1, hsame.2.2, ← hburst]
        exact hsteps
    · intro hno
      rcases hfinish.cleared hno with ⟨hvalid, hout⟩
      refine ⟨hvalid.trans htransfer.validBytes, ?_⟩
      rw [hout]
      funext i
      by_cases hi : i < result.bytesRead
      · rw [if_pos hi, if_pos hi]
      · rw [if_neg hi, if_neg hi]
        apply htransfer.later
        rw [← hfinish.bytesRead]
        exact Nat.le_of_not_lt hi
    · intro e he
      rcases List.mem_cons.1 he with rfl | he
      · exact trivial
      · rcases List.mem_append.1 he with he | he
        · exact htransfer.addressed e he
        · cases htouched : s₁.touched with
          | false =>
              rw [hfinish.idle htouched] at he
              cases he
          | true =>
              rcases hfinish.restored htouched with ⟨back, ⟨steps, backs, rfl, hsteps, hbacks, -⟩, -⟩
              rcases List.mem_append.1 he with he | he
              · exact putBack_addressed hsteps e he
              · exact (hbacks e he).2

/-- Every call of `readDdv`: what it reads, how it leaves the rail, what it leaves in the buffer, and how
many accesses it makes. -/
theorem ddv_read_transaction (r : Request) {s s' : EfuseReader} {log : Trace} {result : EfuseReadResult}
    (hrun : (readDdv r s).Outcome log (result, s')) :
    Transaction r s log result s' ∧ (log.map Event.cost).sum ≤ 53 + r.bytes * 4000003 :=
  ⟨wp_outcome (readDdv_spec r) hrun, wp_outcome (spends_readDdv r s) hrun⟩

/-- A device whose rail is isolated at first, and whose bytes are all the same. -/
def device : (c : Io) → UInt16 × UInt8 → Reply c × (UInt16 × UInt8)
  | .cancelled, d => (false, d)
  | .nowUs, d => (0, d)
  | .delayUs _, d => (true, d)
  | .read8 _, d => ((true, d.2), d)
  | .read16 _, d => ((true, d.1), d)
  | .read32 _, d => ((true, 0x20000055), d)
  | .write8 _ v, d => (true, (d.1, v))
  | .write16 _ v, d => (true, (v, d.2))
  | .write32 _ _, d => (true, d)

theorem ddv_read_transaction_byte : ∃ log result s', Transaction ⟨1, 0, 1, true, 1⟩ {} log result s' ∧
    result.status = .ok ∧ s'.out 0 = 0x55 := by
  have hrun := Prog.run_outcome device (readDdv ⟨1, 0, 1, true, 1⟩ {}) (0x100, 0)
  have hstatus : ((readDdv ⟨1, 0, 1, true, 1⟩ {}).run device (0x100, 0)).2.1.1.status = .ok := by
    decide +kernel
  have hout : ((readDdv ⟨1, 0, 1, true, 1⟩ {}).run device (0x100, 0)).2.1.2.out 0 = 0x55 := by
    decide +kernel
  generalize (readDdv ⟨1, 0, 1, true, 1⟩ {}).run device (0x100, 0) = x at hrun hstatus hout
  rcases x with ⟨log, ⟨result, s'⟩, d⟩
  exact ⟨log, result, s', (ddv_read_transaction ⟨1, 0, 1, true, 1⟩ hrun).1, hstatus, hout⟩

end Whole

end Efuse
end Rtl8852be
