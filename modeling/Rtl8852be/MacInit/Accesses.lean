import Rtl8852be.Interaction.Updates
import Rtl8852be.MacInit.MacInitialization

/-!
# Accesses — the latch of the accessors

* `Accessor.refused` — the addresses and indices that are no good;
* `act_refused` — an accessor that is given one of them leaves an error;
* `keeps_access`, `keeps_poll` — every accessor and every poll keeps the latch;
* `access_updates` — a register keeps the bits outside the mask, and is written only right after a read that
  succeeded, unless all of it is written.
-/

namespace Rtl8852be
namespace MacInit

open Interaction

/-! ## The latch -/

def Context.fault (d : Context) : Option (InitError × UInt32 × UInt32 × UInt32) :=
  if d.error = .none then none else some (d.error, d.address, d.expected, d.actual)

def Context.clock (d : Context) : Option (UInt64 × UInt64) :=
  if d.clockStarted then some (d.begin_, d.previous) else none

def reaches : Event Call Reply (Mark Accessor) → Bool
  | .call (.read _ _) _ | .call (.write _ _ _) _ | .call (.delayUs _) _ => true
  | _ => false

def isRegister : Event Call Reply (Mark Accessor) → Bool
  | .call (.read _ _) _ | .call (.write _ _ _) _ => true
  | _ => false

def clockReading : Event Call Reply (Mark Accessor) → Option UInt64
  | .call .nowUs now => some now
  | _ => none

/-- The registers that may be read, or written, or changed. -/
def Accessor.refused : Accessor → Bool
  | .read8 a | .read16 a | .read32 a | .read32Mask a _ | .equals a _ _ => !initAddress a
  | .write8 a _ | .write16 a _ | .write32 a _ => !initWriteAddress a
  | .write32Mask a _ _ | .write16Mask a _ _ | .write8Mask a _ _ | .write32Set a _ | .write32Clr a _
  | .write16Set a _ | .write8Set a _ | .write8Clr a _ => !initAddress a || !initWriteAddress a
  | .regByIdx _ index => index != 0
  | .warn | .checkMacEn _ _ => false

def failed : Event Call Reply (Mark Accessor) → Bool
  | .call .cancelled yes => yes
  | .call (.read w a) r => !r.1 || unreadable w a (w.narrow r.2)
  | .call (.write _ _ _) ok => !ok
  | .call (.delayUs _) ok => !ok
  | .note n => n.failing Accessor.refused
  | _ => false

def latch : Latch Context Call Reply (Mark Accessor) (InitError × UInt32 × UInt32 × UInt32) where
  fault := Context.fault
  spent d := d.reads + d.writes
  limit _ := 100001
  clock := Context.clock
  expired elapsed := decide (500000 < elapsed)
  reaches := reaches
  counted := isRegister
  reading := clockReading
  failing := failed

section Rules

variable {d : Context}

theorem remarks : latch.Remarks := ⟨fun _ => rfl, fun _ => rfl, fun _ => rfl⟩

theorem fault_none : latch.fault d = none ↔ d.error = .none := by
  have hiff : d.fault = none ↔ d.error = .none := by
    unfold Context.fault
    by_cases h : d.error = .none <;> simp [h]
  exact hiff

theorem records_failing {e : InitError} (he : e ≠ .none) (a expected actual : UInt32) :
    latch.Records fun d => d.failing e a expected actual :=
  Latch.records_first (fun _ => fault_none) (fun _ => fault_none.not.2 he) (fun _ => rfl) fun _ => rfl

theorem wp_fail (e : InitError) (a expected actual : UInt32) {Q : Trace → Bool → Context → Prop} :
    (fail e a expected actual).wp Q d ↔ Q [] false (d.failing e a expected actual) := by
  unfold fail
  rw [wp_modify_bind, wp_pure]

theorem keeps_fail {e : InitError} (he : e ≠ .none) (a expected actual : UInt32) :
    (fail e a expected actual).Keeps latch.Latched :=
  fun _ => (wp_fail e a expected actual).2 (records_failing he a expected actual).latched

theorem fail_faults {e : InitError} (he : e ≠ .none) (a expected actual : UInt32) :
    latch.Faults (fail e a expected actual) :=
  fun d => (wp_fail e a expected actual).2 ((records_failing he a expected actual).faults d)

theorem fail_records {e : InitError} (he : e ≠ .none) (a expected actual : UInt32) :
    ∃ g, latch.Records g ∧ fail e a expected actual = (do modify g; return false) :=
  ⟨_, records_failing he a expected actual, rfl⟩

/-! ## The check -/

theorem started_spec (d : Context) (now : UInt64) :
    latch.Timed d (d.started now) ∧ (d.started now).clockStarted = true ∧
      (d.started now).begin_ = (d.clock.map Prod.fst).getD now ∧
      ∀ first last, d.clock = some (first, last) → (d.started now).previous = last := by
  unfold Context.started Context.clock
  cases hc : d.clockStarted with
  | true =>
      refine ⟨⟨rfl, rfl, rfl⟩, hc, rfl, fun first last hlast => ?_⟩
      exact (Prod.ext_iff.1 (Option.some_inj.1 hlast)).2
  | false => exact ⟨⟨rfl, rfl, rfl⟩, rfl, rfl, nofun⟩

theorem check_checks : latch.Checks check := by
  refine Latch.checks_get (fun d => fault_none.not.symm) fun d hfault => ?_
  rw [wp_ask_bind]
  intro cancelled
  cases cancelled with
  | true =>
      rw [if_pos rfl]
      exact (records_failing (e := .cancelled) (by decide) 0 0 0).checked rfl rfl rfl
  | false =>
      rw [if_neg Bool.false_ne_true]
      refine Latch.checked_next ?_ rfl rfl rfl rfl
      rw [wp_ask_bind]
      intro now
      rcases started_spec d now with ⟨htimed, hstarted, hfirst, hprevious⟩
      refine Latch.checked_reading hfault (records_failing (e := .clock) (by decide) 0 0 0)
        (records_failing (e := .timeout) (by decide) 0 0 0) rfl rfl rfl rfl htimed
        ⟨htimed.fault, htimed.spent, htimed.limit⟩ hprevious ?_ fun hlate => ?_
      · show (if (d.started now).clockStarted then some ((d.started now).begin_, now) else none) = _
        rw [if_pos hstarted, hfirst]
        rfl
      · rcases not_or.1 hlate with ⟨hintime, hroom⟩
        rw [show latch.clock d = d.clock from rfl, ← hfirst, ← htimed.spent, ← htimed.limit]
        exact ⟨decide_eq_false hintime, Nat.lt_succ_of_le (Nat.not_lt.1 hroom)⟩

/-! ## Accessors -/

theorem keeps_noted {g : Context → Context} {β : Type} {f : PUnit → Gated β}
    (hfault : ∀ d, (g d).fault = d.fault) (hclock : ∀ d, (g d).clock = d.clock)
    (hspent : ∀ d, (g d).reads + (g d).writes = d.reads + d.writes) (hf : (f ⟨⟩).Keeps latch.Latched) :
    (modify g >>= f).Keeps latch.Latched :=
  Code.Keeps.modify_bind latch.latched_traced
    (fun d => Latch.latched_silent (fun _ => hfault d) (fun _ => hclock d) (hspent d) rfl) hf

theorem keeps_return {α : Type} (x : α) : (pure x : Gated α).Keeps latch.Latched :=
  Code.Keeps.pure latch.latched_traced x

theorem keeps_reading (w : Width) (a : UInt32) : (reading w a).Keeps latch.Latched := by
  have htraced := latch.latched_traced
  refine Latch.keeps_checked check_checks (fun d hopen => ?_) (keeps_return 0)
  rw [wp_modify_bind]
  have hcounting : latch.Counting d { d with reads := d.reads + 1 } := ⟨rfl, rfl, Nat.add_right_comm _ _ _, rfl⟩
  by_cases ha : initAddress a = true
  · rw [if_pos ha, wp_ask_bind]
    intro r
    by_cases hbad : (!r.1 || unreadable w a (w.narrow r.2)) = true
    · rw [if_pos hbad, wp_bind, wp_fail, wp_modify_bind, wp_pure]
      have hfailed := hcounting.failed (records_failing (e := .read) nofun a 0 (if w = .word then w.narrow r.2 else 0))
        hopen (e := .call (.read w a) r) rfl
      exact htraced.trans hfailed (Latch.latched_silent (fun _ => rfl) (fun _ => rfl) rfl rfl)
    · rw [if_neg hbad, wp_modify_bind, wp_pure]
      have haccess := hcounting.access hopen (e := .call (.read w a) r) rfl (Bool.eq_false_iff.2 hbad)
      exact htraced.trans haccess (Latch.latched_silent (fun _ => rfl) (fun _ => rfl) rfl rfl)
  · rw [if_neg ha, wp_bind, wp_fail, wp_modify_bind, wp_pure]
    have hrecorded := (records_failing (e := .read) nofun a 0 0).latched (s := { d with reads := d.reads + 1 })
    exact htraced.trans (htraced.trans (hcounting.latched hopen) hrecorded)
      (Latch.latched_silent (fun _ => rfl) (fun _ => rfl) rfl rfl)

theorem keeps_writing (w : Width) (a v : UInt32) : (writing w a v).Keeps latch.Latched := by
  refine Latch.keeps_checked check_checks (fun d hopen => ?_) (keeps_return false)
  rw [wp_modify_bind]
  have hcounting : latch.Counting d { d with writes := d.writes + 1 } := ⟨rfl, rfl, rfl, rfl⟩
  by_cases ha : initWriteAddress a = true
  · rw [if_pos ha, wp_ask_bind]
    intro ok
    cases ok with
    | true =>
        rw [if_pos rfl, wp_pure]
        exact hcounting.access hopen rfl rfl
    | false =>
        rw [if_neg Bool.false_ne_true, wp_fail]
        exact hcounting.failed (records_failing (e := .write) nofun a v 0) hopen rfl
  · rw [if_neg ha, wp_fail]
    exact latch.latched_traced.trans (hcounting.latched hopen) (records_failing (e := .write) nofun a v 0).latched

theorem keeps_ignored {α : Type} {m : Gated α} (hm : m.Keeps latch.Latched) :
    (do let _ ← m; return () : Gated Unit).Keeps latch.Latched :=
  Code.Keeps.bind latch.latched_traced hm fun _ => keeps_return ()

theorem keeps_check {α : Type} {m m' : Gated α} (hm : m.Keeps latch.Latched) (hm' : m'.Keeps latch.Latched) :
    (do if ← check then m else m').Keeps latch.Latched :=
  Latch.keeps_checked check_checks (fun d _ => hm d) hm'

theorem keeps_write32 (a v : UInt32) : (write32 a v).Keeps latch.Latched := by
  have htraced := latch.latched_traced
  refine Code.Keeps.bind htraced (keeps_writing .word a v) fun ok => Code.Keeps.ite ?_ (keeps_return ())
  refine Code.Keeps.ite ?_ (keeps_return ())
  refine Code.Keeps.bind htraced (keeps_reading .word a) fun got => ?_
  exact keeps_check (Code.Keeps.ite (keeps_ignored (keeps_fail (by decide) _ _ _)) (keeps_return ())) (keeps_return ())

theorem keeps_writeAs (w : Width) (a v : UInt32) : (writeAs w a v).Keeps latch.Latched := by
  cases w with
  | byte => exact keeps_ignored (keeps_writing .byte a _)
  | half => exact keeps_ignored (keeps_writing .half a _)
  | word => exact keeps_write32 a v

theorem keeps_updating (w : Width) (a : UInt32) (f : UInt32 → UInt32) :
    (updating w a f).Keeps latch.Latched :=
  Code.Keeps.bind latch.latched_traced (keeps_reading w a) fun old => keeps_writeAs w a (f old)

theorem keeps_equals (a m wanted : UInt32) : (equals a m wanted).Keeps latch.Latched := by
  refine Code.Keeps.bind latch.latched_traced (keeps_reading .word a) fun v => ?_
  exact keeps_check (Code.Keeps.ite (keeps_return true) (keeps_fail (by decide) _ _ _)) (keeps_return false)

theorem keeps_act (x : Accessor) : (act x).Keeps latch.Latched := by
  have htraced := latch.latched_traced
  cases x with
  | read8 a => exact keeps_reading .byte a
  | read16 a => exact keeps_reading .half a
  | read32 a => exact keeps_reading .word a
  | read32Mask a m => exact Code.Keeps.bind htraced (keeps_reading .word a) fun v => keeps_return _
  | write8 a v => exact keeps_writeAs .byte a v
  | write16 a v => exact keeps_writeAs .half a v
  | write32 a v => exact keeps_write32 a v
  | write32Mask a m v => exact keeps_updating .word a _
  | write16Mask a m v => exact keeps_updating .half a _
  | write8Mask a m v => exact keeps_updating .byte a _
  | write32Set a m => exact keeps_updating .word a _
  | write32Clr a m => exact keeps_updating .word a _
  | write16Set a m => exact keeps_updating .half a _
  | write8Set a m => exact keeps_updating .byte a _
  | write8Clr a m => exact keeps_updating .byte a _
  | warn =>
      intro d
      unfold act warn
      rw [wp_modify]
      exact Latch.latched_silent (fun _ => rfl) (fun _ => rfl) rfl rfl
  | regByIdx a index =>
      refine Code.Keeps.ite ?_ (keeps_return a)
      exact Code.Keeps.bind htraced (keeps_fail (by decide) _ _ _) fun _ => keeps_return a
  | equals a m wanted => exact keeps_equals a m wanted
  | checkMacEn band dmac =>
      refine Code.Keeps.ite (keeps_return false) (keeps_check ?_ (keeps_return false))
      exact Code.Keeps.ite (keeps_equals _ _ _) (keeps_equals _ _ _)

/-! ### Refusals -/

theorem reading_refused (w : Width) {a : UInt32} (ha : initAddress a = false) : latch.Faults (reading w a) := by
  refine Latch.faults_checked check_checks (Latch.faults_modify_bind _ ?_) (keeps_return 0)
  rw [ha, if_neg Bool.false_ne_true]
  refine (fail_faults (by decide) a 0 0).bind fun _ => ?_
  exact keeps_noted (fun _ => rfl) (fun _ => rfl) (fun _ => rfl) (keeps_return 0)

theorem writing_refused (w : Width) {a v : UInt32} (ha : initWriteAddress a = false) : latch.Faults (writing w a v) := by
  refine Latch.faults_checked check_checks (Latch.faults_modify_bind _ ?_) (keeps_return false)
  rw [ha, if_neg Bool.false_ne_true]
  exact fail_faults (by decide) a v 0

theorem writeAs_refused (w : Width) {a v : UInt32} (ha : initWriteAddress a = false) :
    latch.Faults (writeAs w a v) := by
  cases w with
  | byte => exact (writing_refused .byte ha).bind fun _ => keeps_return ()
  | half => exact (writing_refused .half ha).bind fun _ => keeps_return ()
  | word =>
      refine (writing_refused .word ha).bind fun ok => Code.Keeps.ite (Code.Keeps.ite ?_ (keeps_return ())) (keeps_return ())
      refine Code.Keeps.bind latch.latched_traced (keeps_reading .word a) fun got => ?_
      exact keeps_check (Code.Keeps.ite (keeps_ignored (keeps_fail (by decide) _ _ _)) (keeps_return ()))
        (keeps_return ())

theorem updating_refused (w : Width) {a : UInt32} (f : UInt32 → UInt32)
    (ha : (!initAddress a || !initWriteAddress a) = true) : latch.Faults (updating w a f) := by
  rw [Bool.or_eq_true, Bool.not_eq_true', Bool.not_eq_true'] at ha
  rcases ha with ha | ha
  · exact (reading_refused w ha).bind fun old => keeps_writeAs w a _
  · exact Latch.faults_bind (keeps_reading w a) fun old => writeAs_refused w ha

/-- What is refused leaves an error, whatever the state. -/
theorem act_refused (x : Accessor) (hx : x.refused = true) : latch.Faults (act x) := by
  cases x with
  | read8 a | read16 a | read32 a => exact reading_refused _ (by simpa [Accessor.refused] using hx)
  | read32Mask a m =>
      exact (reading_refused .word (by simpa [Accessor.refused] using hx)).bind fun v => keeps_return _
  | write8 a v => exact writeAs_refused .byte (by simpa [Accessor.refused] using hx)
  | write16 a v => exact writeAs_refused .half (by simpa [Accessor.refused] using hx)
  | write32 a v => exact writeAs_refused .word (by simpa [Accessor.refused] using hx)
  | write32Mask a m v | write32Set a m | write32Clr a m => exact updating_refused .word _ hx
  | write16Mask a m v | write16Set a m => exact updating_refused .half _ hx
  | write8Mask a m v | write8Set a m | write8Clr a m => exact updating_refused .byte _ hx
  | warn => exact absurd hx Bool.false_ne_true
  | regByIdx a index =>
      have hindex : index ≠ 0 := by simpa [Accessor.refused] using hx
      show latch.Faults (regByIdx a index)
      unfold regByIdx
      rw [if_pos hindex]
      exact (fail_faults (by decide) a 0 index).bind fun _ => keeps_return a
  | equals a m wanted =>
      refine (reading_refused .word (by simpa [Accessor.refused] using hx)).bind fun v => ?_
      exact keeps_check (Code.Keeps.ite (keeps_return true) (keeps_fail (by decide) _ _ _)) (keeps_return false)
  | checkMacEn band dmac => exact absurd hx Bool.false_ne_true

theorem keeps_access (x : Accessor) : (access x).Keeps latch.Latched :=
  Latch.keeps_marked remarks (keeps_act x) fun d =>
    wp_of_outcome fun _ _ _ hout hx => wp_outcome (act_refused x hx d) hout

/-! ## Polls -/

theorem judges_pollFrom (delay timeout : ℕ) (start : UInt64) {ready : Gated Bool} (hready : ready.Keeps latch.Latched)
    (n : ℕ) : latch.Judges (pollFrom delay timeout start ready n) := by
  induction n with
  | zero =>
      intro d
      unfold pollFrom
      rw [wp_get_bind]
      exact (records_failing (e := .timeout) (by decide) _ _ _).judged
  | succ n ih =>
      refine Latch.judges_round remarks (fun _ => rfl) check_checks hready
        (fun d => Latch.latched_silent (fun _ => rfl) (fun _ => rfl) rfl rfl) (fail_records (by decide) 0 0 0)
        (fun _ => fail_records (by decide) _ _ _) fun d hopen => ?_
      -- The wait follows a check with nothing in between.
      rw [wp_ask_bind]
      intro ok
      cases ok with
      | true =>
          have hwait : latch.Latched d [.call (.delayUs delay) true] d :=
            Latch.latched_event rfl (fun _ => hopen) nofun (fun _ => rfl) (fun _ => rfl)
              (by rw [if_neg nofun, Nat.zero_add]) (Nat.le_max_left _ _) rfl
          rw [if_pos rfl]
          exact wp_mono (ih d) fun log ok d' h => Latch.judged_after hwait h
      | false =>
          have hrecords := records_failing (e := .write) (by decide) 0 0 0
          rw [if_neg Bool.false_ne_true, wp_fail]
          exact ⟨hrecords.event rfl (fun _ => hopen) rfl, fun _ => hrecords.faults d⟩

theorem keeps_poll (delay timeout : ℕ) (ready : Prog Accessor Value Empty Bool) :
    (poll delay timeout ready).Keeps latch.Latched := by
  have htraced := latch.latched_traced
  refine Code.Keeps.ask_bind htraced (fun d r => Latch.latched_neutral rfl rfl rfl rfl) fun start => ?_
  have hjudges := judges_pollFrom delay timeout start (keeps_through htraced keeps_access ready)
    (timeout / (if delay = 0 then 1 else delay) + 1)
  refine Latch.keeps_marked remarks hjudges.keeps fun d => ?_
  refine wp_mono (hjudges d) fun log ok d' h hfailing => h.2 ?_
  simpa [latch, failed, Mark.failing] using hfailing

theorem keeps_exec (op : Op) : (exec op).Keeps latch.Latched := by
  cases op with
  | access x => exact keeps_ignored (keeps_access x)
  | poll delay timeout ready => exact keeps_ignored (keeps_poll delay timeout ready)

/-! ## Read, change, write -/

abbrev Register := Width × UInt32

def wroteRegister : Event Call Reply (Mark Accessor) → Option (Register × UInt32)
  | .call (.write w a v) _ => some ((w, a), v)
  | _ => none

def gotRegister : Event Call Reply (Mark Accessor) → Option (Register × UInt32)
  | .call (.read w a) r => if !r.1 || unreadable w a (w.narrow r.2) then none else some ((w, a), w.narrow r.2)
  | _ => none

def bus : Bus Call Reply (Mark Accessor) Register UInt32 := ⟨wroteRegister, gotRegister, reaches⟩

/-- A whole register, or bits of the mask only. -/
def Masked (masks : List (Register × UInt32)) (k : Register) (old? : Option UInt32) (v : UInt32) : Prop :=
  ∃ m, (k, m) ∈ masks ∧
    match old? with
    | none => m = k.1.mask
    | some old => AgreeOutside m old v

theorem behind : Bus.Behind latch bus where
  still _ h := h
  silent e h := by
    cases e with
    | call c r => cases c <;> first | rfl | exact absurd h Bool.noConfusion
    | note n => rfl

theorem fail_writeless (e : InitError) (a expected actual : UInt32) : bus.Writeless (fail e a expected actual) :=
  fun d => (wp_fail e a expected actual).2 (bus.silent_traced.refl d)

theorem failing_writeless (e : InitError) (a expected actual : UInt32) :
    bus.Writeless (do let _ ← fail e a expected actual; return () : Gated Unit) :=
  Bus.writeless_bind (fail_writeless e a expected actual) fun _ => Bus.writeless_pure ()

theorem reading_writeless (w : Width) (a : UInt32) : bus.Writeless (reading w a) := by
  refine behind.checked check_checks (Bus.writeless_modify_bind _ (Code.Keeps.ite ?_ ?_)) (Bus.writeless_pure 0)
  · have hnote : ∀ v, bus.Writeless (do
        modify fun d : Context => { d with lastAddress := a, lastValue := v }
        return v : Gated UInt32) := fun v => Bus.writeless_modify_bind _ (Bus.writeless_pure v)
    refine Bus.writeless_ask_bind (fun _ => rfl) fun r => Code.Keeps.ite ?_ (hnote _)
    exact Bus.writeless_bind (fail_writeless _ _ _ _) fun _ => hnote _
  · refine Bus.writeless_bind (fail_writeless _ _ _ _) fun _ => ?_
    exact Bus.writeless_modify_bind _ (Bus.writeless_pure 0)

theorem reading_last (w : Width) (a : UInt32) (d : Context) : Bus.Reads latch bus (w, a) (reading w a) d := by
  refine behind.reads check_checks fun d₁ => ?_
  have hfaults := fun v => (records_failing (e := .read) (by decide) a 0 v).faults
  rw [Bus.Reads, wp_modify_bind]
  by_cases ha : initAddress a = true
  · rw [if_pos ha, wp_ask_bind]
    intro r
    by_cases hbad : (!r.1 || unreadable w a (w.narrow r.2)) = true
    · rw [if_pos hbad, wp_bind, wp_fail, wp_modify_bind, wp_pure]
      exact ⟨bus.silent_singleton rfl, fun hnone => absurd hnone (hfaults _ _)⟩
    · rw [if_neg hbad, wp_modify_bind, wp_pure]
      refine ⟨bus.silent_singleton rfl, fun _ => ⟨[], _, [], rfl, if_neg hbad, ?_⟩⟩
      exact fun _ he => absurd he List.not_mem_nil
  · rw [if_neg ha, wp_bind, wp_fail, wp_modify_bind, wp_pure]
    exact ⟨fun _ he => absurd he List.not_mem_nil, fun hnone => absurd hnone (hfaults _ _)⟩

theorem writing_once (w : Width) (a v : UInt32) (d : Context) : Bus.Writes latch bus (w, a) v (writing w a v) d := by
  refine behind.writes check_checks (fun d₁ => ?_) (Bus.writeless_pure false)
  have honce : ∀ r, bus.WritesOnce (w, a) v [.call (.write w a v) r] := fun r =>
    .inr ⟨[], _, [], rfl, fun _ he => absurd he List.not_mem_nil, fun _ he => absurd he List.not_mem_nil, rfl,
      fun _ he => absurd he List.not_mem_nil⟩
  rw [wp_modify_bind]
  by_cases ha : initWriteAddress a = true
  · rw [if_pos ha, wp_ask_bind]
    intro r
    cases r with
    | true =>
        rw [if_pos rfl, wp_pure]
        exact honce true
    | false =>
        rw [if_neg Bool.false_ne_true, wp_fail]
        exact honce false
  · rw [if_neg ha, wp_fail]
    exact .inl fun _ he => absurd he List.not_mem_nil

theorem writeAs_once (w : Width) (a v : UInt32) (d : Context) :
    Bus.Writes latch bus (w, a) (w.narrow v) (writeAs w a v) d := by
  have hnarrow : ∀ w : Width, Bus.Writes latch bus (w, a) (w.narrow v)
      (do let _ ← writing w a (w.narrow v); return () : Gated Unit) d := by
    intro w
    rw [Bus.Writes, wp_bind]
    refine wp_mono (writing_once w a (w.narrow v) d) fun log _ d' h => ?_
    rw [wp_pure, List.append_nil]
    exact h
  cases w with
  | byte => exact hnarrow .byte
  | half => exact hnarrow .half
  | word =>
      have hword : Width.word.narrow v = v := UInt32.and_neg_one
      -- An interrupt mask is read back after it was written.
      have hafter : ∀ ok : Bool, bus.Writeless (if ok then
          if reportImrMask a ≠ 0 then do
            let got ← read32 a
            if ← check then
              if (got ^^^ v) &&& reportImrMask a ≠ 0 then do
                let _ ← fail .precondition a (v &&& reportImrMask a) got
                return ()
              else
                return ()
            else
              return ()
          else
            return ()
        else
          return () : Gated Unit) := by
        intro ok
        refine Code.Keeps.ite (Code.Keeps.ite ?_ (Bus.writeless_pure ())) (Bus.writeless_pure ())
        refine Bus.writeless_bind (reading_writeless .word a) fun got => ?_
        exact behind.checked check_checks (Code.Keeps.ite (failing_writeless _ _ _ _) (Bus.writeless_pure ()))
          (Bus.writeless_pure ())
      rw [hword]
      show Bus.Writes latch bus (.word, a) v (write32 a v) d
      unfold write32
      rw [Bus.Writes, wp_bind]
      refine wp_mono (writing_once .word a v d) fun log ok d₁ h => ?_
      refine wp_mono (hafter ok d₁) fun log' _ d₂ hlog' => ?_
      by_cases hsilent : bus.Silent log
      · have hboth : bus.Silent (log ++ log') := hsilent.append hlog'
        exact ⟨.inl hboth, fun hnot => absurd hboth hnot⟩
      · rcases h.1 with hlog | ⟨checked, e, rest, rfl, hchecked, hstill, hwrote, hrest⟩
        · exact absurd hlog hsilent
        · refine ⟨.inr ⟨checked, e, rest ++ log', List.append_assoc _ _ _, hchecked, hstill, hwrote, ?_⟩,
            fun _ => h.2 hsilent⟩
          exact hrest.append hlog'

/-- What was read of a register has no bits outside of it. -/
theorem narrow_of_gotRegister {x : Event Call Reply (Mark Accessor)} {k : Register} {old : UInt32}
    (h : gotRegister x = some (k, old)) : k.1.narrow old = old := by
  unfold gotRegister at h
  split at h
  · split at h
    · exact absurd h.symm (Option.some_ne_none _)
    · rw [Option.some_inj, Prod.mk.injEq] at h
      rw [← h.1, ← h.2]
      exact narrow_narrow _ _
  · exact absurd h.symm (Option.some_ne_none _)

theorem updating_updates (w : Width) (a m : UInt32) {f : UInt32 → UInt32} {masks : List (Register × UInt32)}
    (hmem : ((w, a), m) ∈ masks) (hf : ∀ old, AgreeOutside m old (f old)) :
    (updating w a f).Keeps fun _ log _ => bus.Updates (Masked masks) log := by
  refine Bus.updates_modified (reading_last w a) (fun old => writeAs_once w a (f old)) fun x old hgot => ⟨m, hmem, ?_⟩
  have hagree := (hf old).narrow w
  rw [narrow_of_gotRegister hgot] at hagree
  exact hagree

theorem writeAs_updates {w : Width} {a v : UInt32} {masks : List (Register × UInt32)}
    (hmem : ((w, a), w.mask) ∈ masks) : (writeAs w a v).Keeps fun _ log _ => bus.Updates (Masked masks) log :=
  fun d => wp_mono (writeAs_once w a v d) fun _ _ _ h => h.1.updates ⟨w.mask, hmem, rfl⟩

theorem equals_writeless (a m wanted : UInt32) : bus.Writeless (equals a m wanted) := by
  refine Bus.writeless_bind (reading_writeless .word a) fun v => ?_
  exact behind.checked check_checks (Code.Keeps.ite (Bus.writeless_pure true) (fail_writeless _ _ _ _))
    (Bus.writeless_pure false)

/-- The registers an accessor may write, with their masks. -/
def Accessor.masks : Accessor → List (Register × UInt32)
  | .write8 a _ => [((.byte, a), 0xff)]
  | .write16 a _ => [((.half, a), 0xffff)]
  | .write32 a _ => [((.word, a), 0xffffffff)]
  | .write32Mask a m _ | .write32Set a m | .write32Clr a m => [((.word, a), m)]
  | .write16Mask a m _ | .write16Set a m => [((.half, a), m)]
  | .write8Mask a m _ | .write8Set a m | .write8Clr a m => [((.byte, a), m)]
  | _ => []

theorem act_updates (x : Accessor) : (act x).Keeps fun _ log _ => bus.Updates (Masked x.masks) log := by
  cases x with
  | read8 a | read16 a | read32 a => exact (reading_writeless _ a).updates
  | read32Mask a m =>
      have hread : bus.Writeless (read32Mask a m) :=
        Bus.writeless_bind (reading_writeless .word a) fun _ => Bus.writeless_pure _
      exact hread.updates
  | write8 a v => exact writeAs_updates (w := .byte) List.mem_cons_self
  | write16 a v => exact writeAs_updates (w := .half) List.mem_cons_self
  | write32 a v => exact writeAs_updates (w := .word) List.mem_cons_self
  | write32Mask a m v | write16Mask a m v | write8Mask a m v =>
      exact updating_updates _ a m List.mem_cons_self fun old => AgreeOutside.replace old v m
  | write32Set a m | write16Set a m | write8Set a m =>
      exact updating_updates _ a m List.mem_cons_self fun old => AgreeOutside.set old m
  | write32Clr a m | write8Clr a m =>
      exact updating_updates _ a m List.mem_cons_self fun old => AgreeOutside.clear old m
  | warn => exact (Bus.writeless_modify _).updates
  | regByIdx a index =>
      have hindex : bus.Writeless (regByIdx a index) := Code.Keeps.ite
        (Bus.writeless_bind (fail_writeless _ _ _ _) fun _ => Bus.writeless_pure a) (Bus.writeless_pure a)
      exact hindex.updates
  | equals a m wanted => exact (equals_writeless a m wanted).updates
  | checkMacEn band dmac =>
      have hcheck : bus.Writeless (checkMacEn band dmac) := Code.Keeps.ite (Bus.writeless_pure false)
        (behind.checked check_checks (Code.Keeps.ite (equals_writeless _ _ _) (equals_writeless _ _ _))
          (Bus.writeless_pure false))
      exact hcheck.updates

/-- Whatever went before, only bits of the mask are changed, and only right after they were read. -/
theorem access_updates (x : Accessor) : (access x).Keeps fun _ log _ => bus.Updates (Masked x.masks) log :=
  Bus.updates_marked (fun _ => rfl) (act_updates x)

end Rules

end MacInit
end Rtl8852be
