import Rtl8852be.Interaction.Updates
import Rtl8852be.Power.DevicePower

/-!
# Accesses — the latch of the power accessors

* `keeps_shim` — every accessor, every poll and every serial command keeps the latch;
* `access_updates` — a register keeps the bits outside the mask, and is written only right after a read that
  succeeded, unless all of it is written.
-/

namespace Rtl8852be
namespace Power

open Interaction
open Rfk (suspicious)

/-! ## The latch -/

/-- The first error, with what it was about. -/
def Device.fault (d : Device) : Option (Error × UInt32 × UInt32 × UInt32) :=
  if d.result.error = .none then none
  else some (d.result.error, d.result.address, d.result.expected, d.result.actual)

def Device.clock (d : Device) : Option (UInt64 × UInt64) :=
  if d.clockStarted then some (d.first, d.previous) else none

def isRegister : Event Call Reply Note → Bool
  | .call (.read _ _) _ | .call (.write _ _ _) _ => true
  | _ => false

def reaches : Event Call Reply Note → Bool
  | .call (.delayUs _) _ => true
  | e => isRegister e

def clockReading : Event Call Reply Note → Option UInt64
  | .call .nowUs now => some now
  | _ => none

/-- A read that failed, or whose word no register holds. -/
def badRead (w : Width) (r : Bool × UInt32) : Bool := !r.1 || unreadable w (w.narrow r.2)

/-- A poll fails when its condition holds too late, too. -/
def remarked : Note → Bool
  | .tried start now timeout ready =>
      decide (timeout < (now - start).toNat) || (!ready && decide (timeout ≤ (now - start).toNat))
  | n => n.failing fun _ => false

def failed : Event Call Reply Note → Bool
  | .call .inGate yes => !yes
  | .call .cancelled yes => yes
  | .call .command command => badCommand command
  | .call (.read w _) r => badRead w r
  | .call (.write _ _ _) ok => !ok
  | .call (.delayUs _) ok => !ok
  | .note n => remarked n
  | _ => false

def latch : Latch Device Call Reply Note (Error × UInt32 × UInt32 × UInt32) where
  fault := Device.fault
  spent d := d.result.reads + d.result.writes
  limit _ := 40000
  clock := Device.clock
  expired elapsed := decide (1000000 ≤ elapsed)
  reaches := reaches
  counted := isRegister
  reading := clockReading
  failing := failed

section Rules

variable {d : Device}

theorem remarks : latch.Remarks := ⟨fun _ => rfl, fun _ => rfl, fun _ => rfl⟩

theorem fault_none : latch.fault d = none ↔ d.result.error = .none := by
  have hiff : d.fault = none ↔ d.result.error = .none := by
    unfold Device.fault
    by_cases h : d.result.error = .none <;> simp [h]
  exact hiff

theorem records_failing {e : Error} (he : e ≠ .none) (a wanted actual : UInt32) :
    latch.Records fun d => d.failing e a wanted actual :=
  Latch.records_first (fun _ => fault_none) (fun _ => fault_none.not.2 he) (fun _ => rfl) fun _ => rfl

theorem wp_fail (e : Error) (a wanted actual : UInt32) {Q : Trace → Bool → Device → Prop} :
    (fail e a wanted actual).wp Q d ↔ Q [] false (d.failing e a wanted actual) := by
  unfold fail
  rw [wp_modify_bind, wp_pure]

theorem keeps_fail {e : Error} (he : e ≠ .none) (a wanted actual : UInt32) :
    (fail e a wanted actual).Keeps latch.Latched :=
  fun _ => (wp_fail e a wanted actual).2 (records_failing he a wanted actual).latched

theorem fail_records {e : Error} (he : e ≠ .none) (a wanted actual : UInt32) :
    ∃ g, latch.Records g ∧ fail e a wanted actual = (do modify g; return false) :=
  ⟨_, records_failing he a wanted actual, rfl⟩

theorem keeps_return {α : Type} (x : α) : (pure x : Gated α).Keeps latch.Latched :=
  Code.Keeps.pure latch.latched_traced x

/-! ## The check -/

theorem clocked_spec (d : Device) (now : UInt64) :
    latch.Timed d (d.clocked now) ∧ (d.clocked now).clockStarted = true ∧
      (d.clocked now).first = (d.clock.map Prod.fst).getD now ∧
      ∀ first last, d.clock = some (first, last) → (d.clocked now).previous = last := by
  unfold Device.clocked Device.clock
  cases hc : d.clockStarted with
  | true =>
      refine ⟨⟨rfl, rfl, rfl⟩, hc, rfl, fun first last hlast => ?_⟩
      exact (Prod.ext_iff.1 (Option.some_inj.1 hlast)).2
  | false => exact ⟨⟨rfl, rfl, rfl⟩, rfl, rfl, nofun⟩

theorem checkBus_checked (hfault : latch.fault d = none) : checkBus.wp (latch.Checked d) d := by
  unfold checkBus
  rw [wp_ask_bind]
  intro command
  by_cases hbad : badCommand command = true
  · rw [if_pos hbad]
    exact (records_failing (e := .precondition) (by decide) _ _ _).checked rfl rfl rfl
  rw [if_neg hbad]
  refine Latch.checked_next ?_ rfl rfl (Bool.not_eq_true _ ▸ hbad) rfl
  rw [wp_ask_bind]
  intro now
  rcases clocked_spec d now with ⟨htimed, hstarted, hfirst, hprevious⟩
  refine Latch.checked_reading hfault (records_failing (e := .clock) (by decide) 0 0 0)
    (records_failing (e := .timeout) (by decide) 0 0 0) rfl rfl rfl rfl htimed
    ⟨htimed.fault, htimed.spent, htimed.limit⟩ hprevious ?_ fun hlate => ?_
  · show (if (d.clocked now).clockStarted then some ((d.clocked now).first, now) else none) = _
    rw [if_pos hstarted, hfirst]
    rfl
  · rcases not_or.1 hlate with ⟨hintime, hroom⟩
    rw [show latch.clock d = d.clock from rfl, ← hfirst, ← htimed.spent, ← htimed.limit]
    exact ⟨decide_eq_false hintime, Nat.not_le.1 hroom⟩

theorem check_checks : latch.Checks check := by
  refine Latch.checks_get (fun d => fault_none.not.symm) fun d hfault => ?_
  have hbus := checkBus_checked hfault
  rw [wp_ask_bind]
  intro gate
  cases gate with
  | false =>
      rw [if_neg Bool.false_ne_true]
      exact (records_failing (e := .precondition) (by decide) 0 0 0).checked rfl rfl rfl
  | true =>
      rw [if_pos rfl]
      refine Latch.checked_next ?_ rfl rfl rfl rfl
      cases hcleanup : d.cleanup with
      | true =>
          rw [if_pos rfl]
          exact hbus
      | false =>
          rw [if_neg Bool.false_ne_true, wp_ask_bind]
          intro cancelled
          cases cancelled with
          | true =>
              rw [if_pos rfl]
              exact (records_failing (e := .cancelled) (by decide) 0 0 0).checked rfl rfl rfl
          | false =>
              rw [if_neg Bool.false_ne_true]
              exact Latch.checked_next hbus rfl rfl rfl rfl

theorem keeps_check {α : Type} {m m' : Gated α} (hm : m.Keeps latch.Latched) (hm' : m'.Keeps latch.Latched) :
    (do if ← check then m else m').Keeps latch.Latched :=
  Latch.keeps_checked check_checks (fun d _ => hm d) hm'

/-! ## Accessors -/

theorem counting_reading (d : Device) : latch.Counting d d.reading :=
  ⟨rfl, rfl, Nat.add_right_comm d.result.reads 1 d.result.writes, rfl⟩

theorem counting_writing (d : Device) (a v : UInt32) : latch.Counting d (d.writing a v) := ⟨rfl, rfl, rfl, rfl⟩

theorem keeps_checkedValue (v : UInt32) : (checkedValue v).Keeps latch.Latched :=
  Code.Keeps.bind latch.latched_traced check_checks.keeps fun _ => keeps_return v

theorem keeps_read (a : UInt32) (w : Width) : (read a w).Keeps latch.Latched := by
  have htraced := latch.latched_traced
  refine Latch.keeps_checked check_checks (fun d hopen => ?_) (keeps_return 0)
  rw [wp_modify_bind, wp_ask_bind]
  intro r
  have hcounting := counting_reading d
  by_cases hbad : (!r.1 || unreadable w (w.narrow r.2)) = true
  · rw [if_pos hbad, wp_bind, wp_fail]
    have hfailed := hcounting.failed (records_failing (e := .io) (by decide) a 0 (w.narrow r.2)) hopen
      (e := .call (.read w a) r) rfl
    exact wp_mono (keeps_checkedValue _ _) fun log _ d' h => htraced.trans hfailed h
  · rw [if_neg hbad]
    have haccess := hcounting.access hopen (e := .call (.read w a) r) rfl (Bool.not_eq_true _ ▸ hbad)
    exact wp_mono (keeps_checkedValue _ _) fun log _ d' h => htraced.trans haccess h

theorem keeps_verify (a v : UInt32) (w : Width) (mask : UInt32) : (verify a v w mask).Keeps latch.Latched := by
  refine Code.Keeps.ite (Code.Keeps.bind latch.latched_traced (keeps_read a w) fun got => ?_) (keeps_return true)
  exact keeps_check (Code.Keeps.ite (keeps_fail (by decide) _ _ _) (keeps_return true)) (keeps_return false)

theorem keeps_write (a v : UInt32) (w : Width) (mask : UInt32) : (write a v w mask).Keeps latch.Latched := by
  have htraced := latch.latched_traced
  refine Latch.keeps_checked check_checks (fun d hopen => ?_) (keeps_return false)
  rw [wp_modify_bind, wp_ask_bind]
  intro ok
  have hcounting := counting_writing d a v
  cases ok with
  | true =>
      rw [if_pos rfl]
      have hrest := keeps_check (keeps_verify a v w (verifyMask a mask)) (keeps_return false)
      exact wp_mono (hrest _) fun log _ d' h => htraced.trans (hcounting.access hopen rfl rfl) h
  | false =>
      rw [if_neg Bool.false_ne_true, wp_fail]
      exact hcounting.failed (records_failing (by decide) a v 0) hopen rfl

theorem keeps_writeAs (w : Width) (a v mask : UInt32) : (writeAs w a v mask).Keeps latch.Latched :=
  Code.Keeps.bind latch.latched_traced (keeps_write a v w mask) fun _ => keeps_return ()

theorem keeps_update (a m v : UInt32) (w : Width) : (update a m v w).Keeps latch.Latched :=
  Code.Keeps.bind latch.latched_traced (keeps_read a w) fun _ => keeps_writeAs w a _ m

theorem judges_delay (us : ℕ) : latch.Judges (delay us) := by
  have htraced := latch.latched_traced
  refine Latch.judges_checked check_checks fun d hopen => ?_
  rw [wp_modify_bind, wp_ask_bind]
  intro ok
  cases ok with
  | true =>
      rw [if_pos rfl]
      have hwait : latch.Latched d [.call (.delayUs us) true]
          { d with result := { d.result with delays := d.result.delays + 1 } } := by
        refine Latch.latched_event rfl (fun _ => hopen) nofun (fun _ => rfl) (fun _ => rfl) ?_
          (Nat.le_max_left _ _) rfl
        rw [if_neg nofun, Nat.zero_add]
        exact le_refl _
      exact wp_mono (check_checks _) fun log _ d' h => ⟨htraced.trans hwait h.latched, h.faults⟩
  | false =>
      rw [if_neg Bool.false_ne_true, wp_fail]
      have hrecords := records_failing (e := .io) (by decide) 0 0 0
      have hdelayed : latch.Latched d [] { d with result := { d.result with delays := d.result.delays + 1 } } :=
        Latch.latched_silent (fun _ => rfl) (fun _ => rfl) rfl rfl
      exact ⟨htraced.trans hdelayed (hrecords.event rfl (fun _ => ⟨hopen.fault, hopen.room⟩) rfl),
        fun _ => hrecords.faults _⟩

theorem keeps_delay (us : ℕ) : (delay us).Keeps latch.Latched := (judges_delay us).keeps

theorem judges_delayed {us : ℕ} {m : Gated Bool} (hm : latch.Judges m) :
    latch.Judges (do if ← delay us then m else return false) := by
  intro d
  rw [wp_bind]
  refine wp_mono (judges_delay us d) fun log ok d₁ h => ?_
  cases ok with
  | true =>
      rw [if_pos rfl]
      exact wp_mono (hm d₁) fun log' ok d₂ h' => Latch.judged_after h.1 h'
  | false =>
      rw [if_neg Bool.false_ne_true, wp_pure]
      exact Latch.judged_after h.1 ⟨latch.latched_traced.refl d₁, fun _ => h.2 rfl⟩

theorem keeps_access (x : Accessor) : (access x).Keeps latch.Latched := by
  cases x with
  | read8 a | read16 a | read32 a => exact keeps_read a _
  | write32 a v | write16 a v => exact keeps_writeAs _ a _ _
  | write32Set a m | write32Clr a m | write8Set a m | write8Clr a m => exact keeps_update a _ _ _
  | write32Mask a m v | write16Mask a m v => exact keeps_update a _ _ _
  | delay us => exact keeps_delay us

/-! ## Polls and serial commands -/

theorem judges_pollFrom (step timeout : ℕ) (start : UInt64) {predicate : Gated Bool}
    (hpredicate : predicate.Keeps latch.Latched) (n : ℕ) :
    latch.Judges (pollFrom step timeout start predicate n) := by
  induction n with
  | zero => exact fun d => (records_failing (e := .timeout) (by decide) 0 0 0).judged
  | succ n ih =>
      refine Latch.judges_checked check_checks fun d _ => ?_
      refine Latch.judges_bind hpredicate (fun ready => Latch.judges_bind ?_ fun _ => ?_) d
      · intro d
        rw [wp_modify]
        exact Latch.latched_silent (fun _ => rfl) (fun _ => rfl) rfl rfl
      refine Latch.judges_checked check_checks fun d _ => ?_
      rw [wp_get_bind]
      refine Latch.judged_told remarks (fun hbad => ?_) fun hgood => ?_
      · have hlate : timeout < (d.previous - start).toNat ∨ ready = false ∧ timeout ≤ (d.previous - start).toNat := by
          simpa [latch, failed, remarked] using hbad
        by_cases hpast : timeout < (d.previous - start).toNat
        · rw [if_pos hpast]
          exact fail_records (by decide) 0 0 0
        · have hnot := hlate.resolve_left hpast
          rw [if_neg hpast, if_neg (by rw [hnot.1]; exact Bool.false_ne_true), if_pos (Or.inl hnot.2)]
          exact fail_records (by decide) 0 0 0
      have hintime : ¬ timeout < (d.previous - start).toNat := by
        have hboth : (d.previous - start).toNat ≤ timeout ∧ (ready = false → (d.previous - start).toNat < timeout) := by
          simpa [latch, failed, remarked] using hgood
        exact Nat.not_lt.2 hboth.1
      rw [if_neg hintime]
      cases ready with
      | true =>
          rw [if_pos rfl]
          exact Latch.judges_true d
      | false =>
          rw [if_neg Bool.false_ne_true]
          by_cases hlast : timeout ≤ (d.previous - start).toNat ∨ n = 0
          · rw [if_pos hlast]
            exact (records_failing (e := .timeout) (by decide) 0 0 0).judged
          · rw [if_neg hlast]
            exact judges_delayed ih d

theorem keeps_poll (step timeout : ℕ) {predicate : Gated Bool} (hpredicate : predicate.Keeps latch.Latched) :
    (poll step timeout predicate).Keeps latch.Latched := by
  have hjudges : latch.Judges (polling step timeout predicate) := by
    refine Latch.judges_checked check_checks fun d _ => ?_
    rw [wp_get_bind]
    exact judges_pollFrom step timeout d.previous hpredicate _ d
  refine Latch.keeps_marked remarks hjudges.keeps fun d => ?_
  refine wp_mono (hjudges d) fun log ok d' h hfailing => h.2 ?_
  simpa [latch, failed, remarked, Mark.failing] using hfailing

theorem keeps_siIdle : siIdle.Keeps latch.Latched :=
  keeps_poll 50 50000 (Code.Keeps.bind latch.latched_traced (keeps_read xtalSiCtrl .word) fun _ => keeps_return _)

theorem keeps_siCommand (command : UInt32) : (siCommand command).Keeps latch.Latched :=
  Code.Keeps.bind latch.latched_traced (keeps_write _ _ _ _) fun _ => Code.Keeps.ite keeps_siIdle (keeps_return false)

theorem keeps_siVerify (offset value bits : UInt8) : (siVerify offset value bits).Keeps latch.Latched := by
  have htraced := latch.latched_traced
  refine Code.Keeps.bind htraced (keeps_siCommand _) fun ok => Code.Keeps.ite ?_ (keeps_return false)
  refine Code.Keeps.bind htraced (keeps_read _ _) fun got => ?_
  exact keeps_check (Code.Keeps.ite (keeps_return true) (keeps_fail (by decide) _ _ _)) (keeps_return false)

theorem keeps_writeXtalSi (offset value bits : UInt8) : (writeXtalSi offset value bits).Keeps latch.Latched := by
  have htraced := latch.latched_traced
  refine Code.Keeps.ite ?_ (keeps_return false)
  refine Code.Keeps.bind htraced keeps_siIdle fun _ => Code.Keeps.ite ?_ (keeps_return false)
  refine Code.Keeps.bind htraced (keeps_siCommand _) fun _ => Code.Keeps.ite ?_ (keeps_return false)
  exact keeps_siVerify offset value bits

theorem keeps_shim (x : Shim) : (shim x).Keeps latch.Latched := by
  cases x with
  | access x => exact keeps_access x
  | poll step timeout predicate =>
      exact keeps_poll step timeout (keeps_through latch.latched_traced keeps_access predicate)
  | writeXtalSi offset value bits => exact keeps_writeXtalSi offset value bits

theorem keeps_ignoring (x : Shim) : (ignoring x).Keeps latch.Latched :=
  Code.Keeps.bind latch.latched_traced (keeps_shim x) fun _ => keeps_return ()

/-! ## Read, change, write -/

abbrev Register := Width × UInt32

def wroteRegister : Event Call Reply Note → Option (Register × UInt32)
  | .call (.write w a v) _ => some ((w, a), v)
  | _ => none

def gotRegister : Event Call Reply Note → Option (Register × UInt32)
  | .call (.read w a) r => if badRead w r then none else some ((w, a), w.narrow r.2)
  | _ => none

def bus : Bus Call Reply Note Register UInt32 := ⟨wroteRegister, gotRegister, reaches⟩

/-- A whole register, or bits of the mask only. -/
def Masked (masks : List (Register × UInt32)) (k : Register) (old? : Option UInt32) (v : UInt32) : Prop :=
  ∃ m, (k, m) ∈ masks ∧
    match old? with
    | none => m = k.1.mask
    | some old => AgreeOutside m old v

theorem behind : Bus.Behind latch bus where
  still _ h := h
  silent e h := by
    cases e with
    | call c r => cases c <;> first | rfl | exact absurd h Bool.noConfusion
    | note n => rfl

theorem fail_writeless (e : Error) (a wanted actual : UInt32) : bus.Writeless (fail e a wanted actual) :=
  fun d => (wp_fail e a wanted actual).2 (bus.silent_traced.refl d)

theorem checkedValue_writeless (v : UInt32) : bus.Writeless (checkedValue v) :=
  Bus.writeless_bind (behind.writeless check_checks) fun _ => Bus.writeless_pure v

theorem read_writeless (a : UInt32) (w : Width) : bus.Writeless (read a w) := by
  refine behind.checked check_checks (Bus.writeless_modify_bind _ ?_) (Bus.writeless_pure 0)
  refine Bus.writeless_ask_bind (fun _ => rfl) fun r => Code.Keeps.ite ?_ (checkedValue_writeless _)
  exact Bus.writeless_bind (fail_writeless _ _ _ _) fun _ => checkedValue_writeless _

theorem checkedValue_spec (v : UInt32) (d : Device) :
    (checkedValue v).wp (fun log v' d' => v' = v ∧ (∀ e ∈ log, reaches e = false) ∧ latch.Latched d log d') d := by
  unfold checkedValue
  rw [wp_bind]
  refine wp_mono (check_checks d) fun log _ d' h => ?_
  rw [wp_pure, List.append_nil]
  exact ⟨rfl, h.still, h.latched⟩

theorem read_last (a : UInt32) (w : Width) (d : Device) : Bus.Reads latch bus (w, a) (read a w) d := by
  refine behind.reads check_checks fun d₁ => ?_
  rw [Bus.Reads, wp_modify_bind, wp_ask_bind]
  intro r
  have hsilent : ∀ log : Trace, (∀ e ∈ log, reaches e = false) → bus.Silent (.call (.read w a) r :: log) :=
    fun log hlog => List.forall_mem_cons.2 ⟨rfl, fun e he => behind.silent e (hlog e he)⟩
  by_cases hbad : (!r.1 || unreadable w (w.narrow r.2)) = true
  · rw [if_pos hbad, wp_bind, wp_fail]
    have hfaults := (records_failing (e := .io) (by decide) a 0 (w.narrow r.2)).faults d₁.reading
    refine wp_mono (checkedValue_spec _ _) fun log v d' h => ⟨hsilent log h.2.1, fun hnone => ?_⟩
    exact absurd ((h.2.2.first hfaults).symm.trans hnone) hfaults
  · rw [if_neg hbad]
    refine wp_mono (checkedValue_spec _ _) fun log v d' h => ⟨hsilent log h.2.1, fun _ => ⟨[], _, log, rfl, ?_, h.2.1⟩⟩
    rw [h.1]
    exact if_neg hbad

theorem verify_writeless (a v : UInt32) (w : Width) (mask : UInt32) : bus.Writeless (verify a v w mask) := by
  refine Code.Keeps.ite (Bus.writeless_bind (read_writeless a w) fun got => ?_) (Bus.writeless_pure true)
  exact behind.checked check_checks (Code.Keeps.ite (fail_writeless _ _ _ _) (Bus.writeless_pure true))
    (Bus.writeless_pure false)

theorem write_once (a v : UInt32) (w : Width) (mask : UInt32) (d : Device) :
    Bus.Writes latch bus (w, a) (w.narrow v) (write a v w mask) d := by
  refine behind.writes check_checks (fun d₁ => ?_) (Bus.writeless_pure false)
  rw [wp_modify_bind, wp_ask_bind]
  intro r
  have hrest : bus.Writeless (if r then do
      if ← check then verify a v w (verifyMask a mask) else return false
    else
      fail .io a v 0) := by
    refine Code.Keeps.ite ?_ (fail_writeless _ _ _ _)
    exact behind.checked check_checks (verify_writeless a v w (verifyMask a mask)) (Bus.writeless_pure false)
  refine wp_mono (hrest _) fun log _ d' hlog => .inr ⟨[], _, log, rfl, ?_, ?_, rfl, hlog⟩
  · exact fun _ he => absurd he List.not_mem_nil
  · exact fun _ he => absurd he List.not_mem_nil

theorem writeAs_once (w : Width) (a v mask : UInt32) (d : Device) :
    Bus.Writes latch bus (w, a) (w.narrow v) (writeAs w a v mask) d := by
  unfold writeAs
  rw [Bus.Writes, wp_bind]
  refine wp_mono (write_once a v w mask d) fun log _ d' h => ?_
  rw [wp_pure, List.append_nil]
  exact h

/-- What was read of a register has no bits outside of it. -/
theorem narrow_of_gotRegister {x : Event Call Reply Note} {k : Register} {old : UInt32}
    (h : gotRegister x = some (k, old)) : k.1.narrow old = old := by
  unfold gotRegister at h
  split at h
  · split at h
    · exact absurd h.symm (Option.some_ne_none _)
    · rw [Option.some_inj, Prod.mk.injEq] at h
      rw [← h.1, ← h.2]
      exact narrow_narrow _ _
  · exact absurd h.symm (Option.some_ne_none _)

theorem update_updates (a m v : UInt32) (w : Width) {masks : List (Register × UInt32)} (hmem : ((w, a), m) ∈ masks) :
    (update a m v w).Keeps fun _ log _ => bus.Updates (Masked masks) log := by
  refine Bus.updates_modified (read_last a w) (fun old => writeAs_once w a _ m) fun x old hgot => ⟨m, hmem, ?_⟩
  have hagree := (AgreeOutside.masked old v m).narrow w
  rw [narrow_of_gotRegister hgot] at hagree
  exact hagree

theorem writeAs_updates {w : Width} {a v mask : UInt32} {masks : List (Register × UInt32)}
    (hmem : ((w, a), w.mask) ∈ masks) : (writeAs w a v mask).Keeps fun _ log _ => bus.Updates (Masked masks) log :=
  fun d => wp_mono (writeAs_once w a v mask d) fun _ _ _ h => h.1.updates ⟨w.mask, hmem, rfl⟩

theorem delay_writeless (us : ℕ) : bus.Writeless (delay us) := by
  refine behind.checked check_checks (Bus.writeless_modify_bind _ ?_) (Bus.writeless_pure false)
  exact Bus.writeless_ask_bind (fun _ => rfl) fun _ => 
    Code.Keeps.ite (behind.writeless check_checks) (fail_writeless _ _ _ _)

/-- The registers an accessor may write, with their masks. -/
def Accessor.masks : Accessor → List (Register × UInt32)
  | .write32 a _ => [((.word, a), 0xffffffff)]
  | .write16 a _ => [((.half, a), 0xffff)]
  | .write32Set a m | .write32Clr a m | .write32Mask a m _ => [((.word, a), m)]
  | .write8Set a m | .write8Clr a m => [((.byte, a), m.toUInt32)]
  | .write16Mask a m _ => [((.half, a), m.toUInt32)]
  | _ => []

/-- Whatever went before, only bits of the mask are changed, and only right after they were read. -/
theorem access_updates (x : Accessor) : (access x).Keeps fun _ log _ => bus.Updates (Masked x.masks) log := by
  cases x with
  | read8 a | read16 a | read32 a => exact (read_writeless a _).updates
  | write32 a v | write16 a v => exact writeAs_updates List.mem_cons_self
  | write32Set a m | write32Clr a m | write8Set a m | write8Clr a m => exact update_updates a _ _ _ List.mem_cons_self
  | write32Mask a m v | write16Mask a m v => exact update_updates a _ _ _ List.mem_cons_self
  | delay us => exact (delay_writeless us).updates

end Rules

end Power
end Rtl8852be
