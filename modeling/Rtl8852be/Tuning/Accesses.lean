import Rtl8852be.Interaction.Updates
import Rtl8852be.Tuning.ChannelProgramming

/-!
# Accesses — the latch of the channel accessors

* `Accessor.refused` — the paths, masks, indices and delays that are no good;
* `act_refused` — an accessor that is given one of them leaves an error;
* `keeps_access`, `keeps_poll` — every accessor and every poll keeps the latch;
* `access_updates` — a register keeps the bits outside the mask, and is written only right after a read that
  succeeded, unless the mask is that of the whole register.
-/

namespace Rtl8852be
namespace Tuning

open Interaction
open Rfk (suspicious)

/-! ## The latch -/

def Programming.fault (d : Programming) : Option Error := if d.result.error = .none then none else some d.result.error

def Programming.clock (d : Programming) : Option (UInt64 × UInt64) :=
  if d.started then some (d.first, d.previous) else none

def isRegister : Event Call Reply Note → Bool
  | .call (.readRf _ _ _) _ | .call (.writeRf _ _ _ _) _ | .call (.read _ _) _ | .call (.write _ _ _) _ => true
  | _ => false

def reaches : Event Call Reply Note → Bool
  | .call (.delayUs _) _ => true
  | e => isRegister e

def clockReading : Event Call Reply Note → Option UInt64
  | .call .nowUs now => some now
  | _ => none

def goodRead (port : Port) (r : Bool × UInt32) : Option UInt32 :=
  match port with
  | .bb | .channelMac32 => if !r.1 || suspicious r.2 then none else some r.2
  | .channelMac8 => if !r.1 then none else some (Width.byte.narrow r.2)

/-- What an accessor does not take.  A warning is no argument, but it is an error. -/
def Accessor.refused : Accessor → Bool
  | .readRf path _ m | .writeRf path _ m _ => 1 < path || m == 0
  | .phyRead32Mask _ m | .phyWrite32Mask _ m _ | .phyWrite32Clr _ m | .write32Mask _ m _ | .write32Clr _ m => m == 0
  | .phyWrite32Idx _ m _ phy | .phyRead32Idx _ m phy => phy != 0 || m == 0
  | .write8Mask _ m _ | .write8Clr _ m | .write8Set _ m => m == 0 || m &&& 0xffffff00 != 0
  | .regByIdx _ index => index != 0
  | .checkMacEn index cmac => index != 0 || !cmac
  | .warn => true
  | .delay us => 50000 < us
  | .phyWrite32 _ _ | .readMac _ | .write32 _ _ | .readByte _ | .debug => false

def failed : Event Call Reply Note → Bool
  | .call .cancelled yes => yes
  | .call (.readRf _ _ _) r => !r.1
  | .call (.writeRf _ _ _ _) ok => !ok
  | .call (.read port _) r => (goodRead port r).isNone
  | .call (.write _ _ _) ok => !ok
  | .call (.delayUs _) ok => !ok
  | .note n => n.failing Accessor.refused
  | _ => false

def latch : Latch Programming Call Reply Note Error where
  fault := Programming.fault
  spent d := d.result.operations
  limit d := d.base + 20000
  clock := Programming.clock
  expired elapsed := decide (2000000 < elapsed)
  reaches := reaches
  counted := isRegister
  reading := clockReading
  failing := failed

section Rules

variable {d : Programming}

theorem remarks : latch.Remarks := ⟨fun _ => rfl, fun _ => rfl, fun _ => rfl⟩

theorem fault_none : latch.fault d = none ↔ d.result.error = .none := by
  have hiff : d.fault = none ↔ d.result.error = .none := by
    unfold Programming.fault
    by_cases h : d.result.error = .none <;> simp [h]
  exact hiff

theorem records_failing {e : Error} (he : e ≠ .none) : latch.Records fun d => d.failing e :=
  Latch.records_first (fun _ => fault_none) (fun _ => fault_none.not.2 he) (fun _ => rfl) fun _ => rfl

theorem wp_fail (e : Error) {Q : Trace → Bool → Programming → Prop} :
    (fail e).wp Q d ↔ Q [] false (d.failing e) := by
  unfold fail
  rw [wp_modify_bind, wp_pure]

theorem keeps_fail {e : Error} (he : e ≠ .none) : (fail e).Keeps latch.Latched :=
  fun _ => (wp_fail e).2 (records_failing he).latched

theorem fail_faults {e : Error} (he : e ≠ .none) : latch.Faults (fail e) :=
  fun d => (wp_fail e).2 ((records_failing he).faults d)

theorem fail_records {e : Error} (he : e ≠ .none) :
    ∃ g, latch.Records g ∧ fail e = (do modify g; return false) :=
  ⟨_, records_failing he, rfl⟩

theorem keeps_return {α : Type} (x : α) : (pure x : Gated α).Keeps latch.Latched :=
  Code.Keeps.pure latch.latched_traced x

/-! ## The check -/

theorem clocked_spec (d : Programming) (now : UInt64) :
    latch.Timed d (d.clocked now) ∧ (d.clocked now).started = true ∧
      (d.clocked now).first = (d.clock.map Prod.fst).getD now ∧
      ∀ first last, d.clock = some (first, last) → (d.clocked now).previous = last := by
  unfold Programming.clocked Programming.clock
  cases hc : d.started with
  | true =>
      refine ⟨⟨rfl, rfl, rfl⟩, hc, rfl, fun first last hlast => ?_⟩
      exact (Prod.ext_iff.1 (Option.some_inj.1 hlast)).2
  | false => exact ⟨⟨rfl, rfl, rfl⟩, rfl, rfl, nofun⟩

theorem check_checks : latch.Checks check := by
  refine Latch.checks_get (fun d => fault_none.not.symm) fun d hfault => ?_
  rw [wp_ask_bind]
  intro cancelled
  cases cancelled with
  | true =>
      rw [if_pos rfl]
      exact (records_failing (e := .cancelled) (by decide)).checked rfl rfl rfl
  | false =>
      rw [if_neg Bool.false_ne_true]
      refine Latch.checked_next ?_ rfl rfl rfl rfl
      rw [wp_ask_bind]
      intro now
      rcases clocked_spec d now with ⟨htimed, hstarted, hfirst, hprevious⟩
      refine Latch.checked_reading hfault (records_failing (e := .clock) (by decide))
        (records_failing (e := .timeout) (by decide)) rfl rfl rfl rfl htimed ⟨htimed.fault, htimed.spent, htimed.limit⟩
        hprevious ?_ fun hlate => ?_
      · show (if (d.clocked now).started then some ((d.clocked now).first, now) else none) = _
        rw [if_pos hstarted, hfirst]
        rfl
      · rcases not_or.1 hlate with ⟨hintime, hroom⟩
        rw [show latch.clock d = d.clock from rfl, ← hfirst, ← htimed.spent, ← htimed.limit]
        have hspent : (d.clocked now).result.operations - (d.clocked now).base < 20000 := Nat.not_le.1 hroom
        exact ⟨decide_eq_false hintime, show (d.clocked now).result.operations < (d.clocked now).base + 20000 by omega⟩

/-! ## Accessors -/

theorem counting_operating (d : Programming) (a m v : UInt32) (path : UInt8) :
    latch.Counting d (d.operating a m v path) := ⟨rfl, rfl, rfl, rfl⟩

theorem keeps_noting (v : UInt32) : (noting v).Keeps latch.Latched :=
  Code.Keeps.modify_bind latch.latched_traced
    (fun _ => Latch.latched_silent (fun _ => rfl) (fun _ => rfl) rfl rfl) (keeps_return v)

theorem keeps_refuse {e : Error} (he : e ≠ .none) : (refuse e).Keeps latch.Latched :=
  Code.Keeps.bind latch.latched_traced (keeps_fail he) fun _ => keeps_return ()

theorem refuse_latched {d d₁ : Programming} {e : Error} (he : e ≠ .none) (hcounting : latch.Counting d d₁)
    (hopen : latch.Open d) : (refuse e).wp (fun log _ d' => latch.Latched d log d') d₁ := by
  unfold refuse
  rw [wp_bind, wp_fail, wp_pure]
  exact latch.latched_traced.trans (hcounting.latched hopen) (records_failing he).latched

theorem finishRead_latched {d d₁ : Programming} {ok : Bool} {v : UInt32} {e : Event Call Reply Note}
    (hcounting : latch.Counting d d₁) (hopen : latch.Open d) (hreading : latch.reading e = none)
    (hfailing : latch.failing e = !ok) : (finishRead ok v).wp (fun log _ d' => latch.Latched d (e :: log) d') d₁ := by
  have htraced := latch.latched_traced
  unfold finishRead
  cases ok with
  | true =>
      rw [if_pos rfl]
      refine wp_mono (keeps_noting v d₁) fun log _ d' h => ?_
      exact htraced.trans (hcounting.access hopen hreading hfailing) h
  | false =>
      rw [if_neg Bool.false_ne_true, wp_bind, wp_fail]
      refine wp_mono (keeps_noting v _) fun log _ d' h => ?_
      exact htraced.trans (hcounting.failed (records_failing (by decide)) hopen hreading) h

theorem finishWrite_latched {d d₁ : Programming} {ok : Bool} {e : Event Call Reply Note}
    (hcounting : latch.Counting d d₁) (hopen : latch.Open d) (hreading : latch.reading e = none)
    (hfailing : latch.failing e = !ok) : (finishWrite ok).wp (fun log _ d' => latch.Latched d (e :: log) d') d₁ := by
  unfold finishWrite
  cases ok with
  | true =>
      rw [if_pos rfl, wp_pure]
      exact hcounting.access hopen hreading hfailing
  | false =>
      rw [if_neg Bool.false_ne_true, wp_bind, wp_fail, wp_pure]
      exact hcounting.failed (records_failing (by decide)) hopen hreading

theorem keeps_readRf (path : UInt8) (a m : UInt32) : (readRf path a m).Keeps latch.Latched := by
  refine Latch.keeps_checked check_checks (fun d hopen => ?_) (keeps_return 0)
  rw [wp_modify_bind]
  have hcounting := counting_operating d a m 0 path
  by_cases hbad : (1 < path || m == 0) = true
  · rw [if_pos hbad, wp_bind]
    refine wp_mono (refuse_latched (e := .io) (by decide) hcounting hopen) fun log _ d₁ h => ?_
    exact wp_mono (keeps_noting 0 d₁) fun log' _ d' h' => latch.latched_traced.trans h h'
  · rw [if_neg hbad, wp_ask_bind]
    exact fun r => finishRead_latched hcounting hopen rfl rfl

theorem keeps_writeRf (path : UInt8) (a m v : UInt32) : (writeRf path a m v).Keeps latch.Latched := by
  refine Latch.keeps_checked check_checks (fun d hopen => ?_) (keeps_return ())
  rw [wp_modify_bind]
  have hcounting := counting_operating d a m v path
  by_cases hbad : (1 < path || m == 0) = true
  · rw [if_pos hbad]
    exact refuse_latched (by decide) hcounting hopen
  · rw [if_neg hbad, wp_ask_bind]
    exact fun ok => finishWrite_latched hcounting hopen rfl rfl

theorem keeps_phyRead32Mask (a m : UInt32) : (phyRead32Mask a m).Keeps latch.Latched := by
  have htraced := latch.latched_traced
  refine Latch.keeps_checked check_checks (fun d hopen => ?_) (keeps_return 0)
  rw [wp_modify_bind]
  have hcounting := counting_operating d a m 0 0
  by_cases hm : m = 0
  · rw [if_pos hm, wp_bind]
    refine wp_mono (refuse_latched (e := .io) (by decide) hcounting hopen) fun log _ d₁ h => ?_
    rw [wp_pure, List.append_nil]
    exact h
  rw [if_neg hm, wp_ask_bind]
  intro r
  by_cases hbad : (!r.1 || suspicious r.2) = true
  · rw [if_pos hbad, wp_bind, wp_fail, wp_pure]
    exact hcounting.failed (records_failing (e := .io) nofun) hopen rfl
  · rw [if_neg hbad]
    have hgood : latch.failing (.call (.read .bb a) r) = false := by
      show (goodRead .bb r).isNone = false
      unfold goodRead
      rw [if_neg hbad]
      rfl
    refine wp_mono (keeps_noting _ _) fun log _ d' h => ?_
    exact htraced.trans (hcounting.access hopen rfl hgood) h

theorem keeps_writing (port : Port) (a m v word : UInt32) : (writing port a m v word).Keeps latch.Latched := by
  refine Latch.keeps_checked check_checks (fun d hopen => ?_) (keeps_return ())
  rw [wp_modify_bind, wp_ask_bind]
  exact fun ok => finishWrite_latched (counting_operating d a m v 0) hopen rfl rfl

theorem keeps_phyWrite32Mask (a m v : UInt32) : (phyWrite32Mask a m v).Keeps latch.Latched := by
  refine Code.Keeps.ite (keeps_refuse (by decide)) (Code.Keeps.ite (keeps_writing _ _ _ _ _) ?_)
  exact Code.Keeps.bind latch.latched_traced (keeps_phyRead32Mask a 0xffffffff) fun old => keeps_writing _ _ _ _ _

theorem keeps_readMac (a : UInt32) : (readMac a).Keeps latch.Latched := by
  refine Latch.keeps_checked check_checks (fun d hopen => ?_) (keeps_return 0)
  rw [wp_modify_bind, wp_ask_bind]
  intro r
  refine finishRead_latched (counting_operating d a 0xffffffff 0 0) hopen rfl ?_
  show (goodRead .channelMac32 r).isNone = _
  unfold goodRead
  cases r.1 <;> cases suspicious r.2 <;> rfl

theorem keeps_write32 (a v : UInt32) : (write32 a v).Keeps latch.Latched := keeps_writing _ _ _ _ _

theorem keeps_write32Mask (a m v : UInt32) : (write32Mask a m v).Keeps latch.Latched :=
  Code.Keeps.ite (keeps_refuse (by decide))
    (Code.Keeps.bind latch.latched_traced (keeps_readMac a) fun _ => keeps_write32 _ _)

theorem keeps_readByte (a : UInt32) : (readByte a).Keeps latch.Latched := by
  refine Latch.keeps_checked check_checks (fun d hopen => ?_) (keeps_return 0)
  rw [wp_modify_bind, wp_ask_bind]
  intro r
  refine finishRead_latched (counting_operating d a 255 0 0) hopen rfl ?_
  show (goodRead .channelMac8 r).isNone = _
  unfold goodRead
  cases r.1 <;> rfl

theorem keeps_write8Mask (a m v : UInt32) : (write8Mask a m v).Keeps latch.Latched :=
  Code.Keeps.ite (keeps_refuse (by decide))
    (Code.Keeps.bind latch.latched_traced (keeps_readByte a) fun _ => keeps_writing _ _ _ _ _)

theorem keeps_delay (us : ℕ) : (delay us).Keeps latch.Latched := by
  refine Latch.keeps_checked check_checks (fun d hopen => ?_) (keeps_return ())
  by_cases hlong : 50000 < us
  · rw [if_pos hlong]
    exact keeps_refuse (by decide) d
  rw [if_neg hlong, wp_ask_bind]
  intro ok
  unfold finishWrite
  cases ok with
  | true =>
      rw [if_pos rfl, wp_pure]
      refine Latch.latched_event rfl (fun _ => hopen) nofun (fun _ => rfl) (fun _ => rfl) ?_ (Nat.le_max_left _ _)
        rfl
      rw [if_neg nofun, Nat.zero_add]
  | false =>
      rw [if_neg Bool.false_ne_true, wp_bind, wp_fail, wp_pure]
      exact (records_failing (by decide)).event rfl (fun _ => hopen) rfl

theorem keeps_checkMacEn (index : UInt8) (cmac : Bool) : (checkMacEn index cmac).Keeps latch.Latched := by
  refine Code.Keeps.ite (keeps_fail (by decide)) ?_
  refine Code.Keeps.bind latch.latched_traced (keeps_readMac 0xC000) fun v => ?_
  exact Code.Keeps.ite (keeps_fail (by decide)) check_checks.keeps

theorem keeps_act (x : Accessor) : (act x).Keeps latch.Latched := by
  have htraced := latch.latched_traced
  cases x with
  | readRf path a m => exact keeps_readRf path a m
  | writeRf path a m v => exact keeps_writeRf path a m v
  | phyRead32Mask a m => exact keeps_phyRead32Mask a m
  | phyWrite32Mask a m v => exact keeps_phyWrite32Mask a m v
  | phyWrite32 a v => exact keeps_phyWrite32Mask a 0xffffffff v
  | phyWrite32Clr a m => exact keeps_phyWrite32Mask a m 0
  | phyWrite32Idx a m v phy => exact Code.Keeps.ite (keeps_refuse (by decide)) (keeps_phyWrite32Mask a m v)
  | phyRead32Idx a m phy =>
      refine Code.Keeps.ite ?_ (keeps_phyRead32Mask a m)
      exact Code.Keeps.bind htraced (keeps_refuse (by decide)) fun _ => keeps_return 0
  | readMac a => exact keeps_readMac a
  | write32 a v => exact keeps_write32 a v
  | write32Mask a m v => exact keeps_write32Mask a m v
  | write32Clr a m => exact keeps_write32Mask a m 0
  | readByte a => exact keeps_readByte a
  | write8Mask a m v => exact keeps_write8Mask a m v
  | write8Clr a m => exact keeps_write8Mask a m 0
  | write8Set a m => exact keeps_write8Mask a m _
  | regByIdx a index =>
      refine Code.Keeps.ite ?_ (keeps_return a)
      exact Code.Keeps.bind htraced (keeps_refuse (by decide)) fun _ => keeps_return a
  | checkMacEn index cmac => exact keeps_checkMacEn index cmac
  | debug => exact keeps_return ()
  | warn => exact keeps_refuse (by decide)
  | delay us => exact keeps_delay us

/-! ### Refusals -/

theorem refuse_faults {e : Error} (he : e ≠ .none) : latch.Faults (refuse e) :=
  (fail_faults he).bind fun _ => keeps_return ()

theorem readRf_refused {path : UInt8} {a m : UInt32} (h : (1 < path || m == 0) = true) :
    latch.Faults (readRf path a m) := by
  refine Latch.faults_checked check_checks (Latch.faults_modify_bind _ ?_) (keeps_return 0)
  rw [if_pos h]
  exact (refuse_faults (by decide)).bind fun _ => keeps_noting 0

theorem writeRf_refused {path : UInt8} {a m v : UInt32} (h : (1 < path || m == 0) = true) :
    latch.Faults (writeRf path a m v) := by
  refine Latch.faults_checked check_checks (Latch.faults_modify_bind _ ?_) (keeps_return ())
  rw [if_pos h]
  exact refuse_faults (by decide)

theorem phyRead32Mask_refused {a m : UInt32} (hm : m = 0) : latch.Faults (phyRead32Mask a m) := by
  refine Latch.faults_checked check_checks (Latch.faults_modify_bind _ ?_) (keeps_return 0)
  rw [if_pos hm]
  exact (refuse_faults (by decide)).bind fun _ => keeps_return 0

theorem phyWrite32Mask_refused {a m v : UInt32} (hm : m = 0) : latch.Faults (phyWrite32Mask a m v) := by
  unfold phyWrite32Mask
  rw [if_pos hm]
  exact refuse_faults (by decide)

theorem write32Mask_refused {a m v : UInt32} (hm : m = 0) : latch.Faults (write32Mask a m v) := by
  unfold write32Mask
  rw [if_pos hm]
  exact refuse_faults (by decide)

theorem write8Mask_refused {a m v : UInt32} (h : (m == 0 || m &&& 0xffffff00 != 0) = true) :
    latch.Faults (write8Mask a m v) := by
  have hbits : (~~~255 : UInt32) = 0xffffff00 := rfl
  have hor : m = 0 ∨ m &&& ~~~255 ≠ 0 := by
    rw [hbits]
    simpa using h
  unfold write8Mask
  rw [if_pos hor]
  exact refuse_faults (by decide)

theorem delay_refused {us : ℕ} (h : 50000 < us) : latch.Faults (delay us) := by
  refine Latch.faults_checked check_checks ?_ (keeps_return ())
  rw [if_pos h]
  exact refuse_faults (by decide)

/-- What is refused leaves an error, whatever the state. -/
theorem act_refused (x : Accessor) (hx : x.refused = true) : latch.Faults (act x) := by
  cases x with
  | readRf path a m => exact readRf_refused hx
  | writeRf path a m v => exact writeRf_refused hx
  | phyRead32Mask a m => exact phyRead32Mask_refused (eq_of_beq hx)
  | phyWrite32Mask a m v | phyWrite32Clr a m => exact phyWrite32Mask_refused (eq_of_beq hx)
  | write32Mask a m v | write32Clr a m => exact write32Mask_refused (eq_of_beq hx)
  | write8Mask a m v | write8Clr a m | write8Set a m => exact write8Mask_refused hx
  | phyWrite32Idx a m v phy =>
      have hor : phy ≠ 0 ∨ m = 0 := by simpa [Accessor.refused] using hx
      show latch.Faults (phyWrite32Idx a m v phy)
      unfold phyWrite32Idx
      by_cases hphy : phy ≠ 0
      · rw [if_pos hphy]
        exact refuse_faults (by decide)
      · rw [if_neg hphy]
        exact phyWrite32Mask_refused (hor.resolve_left hphy)
  | phyRead32Idx a m phy =>
      have hor : phy ≠ 0 ∨ m = 0 := by simpa [Accessor.refused] using hx
      show latch.Faults (phyRead32Idx a m phy)
      unfold phyRead32Idx
      by_cases hphy : phy ≠ 0
      · rw [if_pos hphy]
        exact (refuse_faults (by decide)).bind fun _ => keeps_return 0
      · rw [if_neg hphy]
        exact phyRead32Mask_refused (hor.resolve_left hphy)
  | regByIdx a index =>
      have hindex : index ≠ 0 := by simpa [Accessor.refused] using hx
      show latch.Faults (regByIdx a index)
      unfold regByIdx
      rw [if_pos hindex]
      exact (refuse_faults (by decide)).bind fun _ => keeps_return a
  | checkMacEn index cmac =>
      have hor : index ≠ 0 ∨ cmac = false := by simpa [Accessor.refused] using hx
      show latch.Faults (checkMacEn index cmac)
      unfold checkMacEn
      rw [if_pos hor]
      exact fail_faults (by decide)
  | warn => exact refuse_faults (by decide)
  | delay us => exact delay_refused (of_decide_eq_true hx)
  | phyWrite32 a v | readMac a | write32 a v | readByte a | debug => exact absurd hx Bool.false_ne_true

theorem keeps_access (x : Accessor) : (access x).Keeps latch.Latched :=
  Latch.keeps_marked remarks (keeps_act x) fun d =>
    wp_of_outcome fun _ _ _ hout hx => wp_outcome (act_refused x hx d) hout

/-! ## Polls -/

theorem judges_pollFrom (step timeout : ℕ) (start : UInt64) {ready : Gated Bool} (hready : ready.Keeps latch.Latched)
    (n : ℕ) : latch.Judges (pollFrom step timeout start ready n) := by
  induction n with
  | zero => exact fun d => (records_failing (e := .timeout) (by decide)).judged
  | succ n ih =>
      exact Latch.judges_round remarks (fun _ => rfl) check_checks hready
        (fun d => Latch.latched_silent (fun _ => rfl) (fun _ => rfl) rfl rfl) (fail_records (by decide))
        (fun _ => fail_records (by decide)) fun d _ => Latch.judges_bind (keeps_delay step) (fun _ => ih) d

theorem keeps_poll (step timeout : ℕ) (ready : Prog Accessor Value Empty Bool) :
    (poll step timeout ready).Keeps latch.Latched := by
  have htraced := latch.latched_traced
  refine Code.Keeps.ask_bind htraced (fun d r => Latch.latched_neutral rfl rfl rfl rfl) fun start => ?_
  have hjudges := judges_pollFrom step timeout start (keeps_through htraced keeps_access ready)
    (timeout / (if step = 0 then 1 else step) + 1)
  refine Latch.keeps_marked remarks hjudges.keeps fun d => ?_
  refine wp_mono (hjudges d) fun log ok d' h hfailing => h.2 ?_
  simpa [latch, failed, Mark.failing] using hfailing

theorem keeps_shim (x : Shim) : (shim x).Keeps latch.Latched := by
  cases x with
  | access x => exact keeps_access x
  | poll step timeout ready => exact keeps_poll step timeout ready

theorem keeps_ignoring (x : Shim) : (ignoring x).Keeps latch.Latched :=
  Code.Keeps.bind latch.latched_traced (keeps_shim x) fun _ => keeps_return ()

/-! ## Read, change, write -/

abbrev Register := Port × UInt32

def wroteRegister : Event Call Reply Note → Option (Register × UInt32)
  | .call (.write port a v) _ => some ((port, a), v)
  | _ => none

def gotRegister : Event Call Reply Note → Option (Register × UInt32)
  | .call (.read port a) r => (goodRead port r).map fun v => ((port, a), v)
  | _ => none

def bus : Bus Call Reply Note Register UInt32 := ⟨wroteRegister, gotRegister, reaches⟩

/-- A whole register, or bits of the mask only. -/
def Masked (masks : List (Register × UInt32)) (k : Register) (old? : Option UInt32) (v : UInt32) : Prop :=
  ∃ m, (k, m) ∈ masks ∧
    match old? with
    | none => m = 0xffffffff
    | some old => AgreeOutside m old v

theorem behind : Bus.Behind latch bus where
  still _ h := h
  silent e h := by
    cases e with
    | call c r => cases c <;> first | rfl | exact absurd h Bool.noConfusion
    | note n => rfl

theorem fail_writeless (e : Error) : bus.Writeless (fail e) := fun d => (wp_fail e).2 (bus.silent_traced.refl d)

theorem refuse_writeless (e : Error) : bus.Writeless (refuse e) :=
  Bus.writeless_bind (fail_writeless e) fun _ => Bus.writeless_pure ()

theorem noting_writeless (v : UInt32) : bus.Writeless (noting v) := Bus.writeless_modify_bind _ (Bus.writeless_pure v)

theorem finishRead_writeless (ok : Bool) (v : UInt32) : bus.Writeless (finishRead ok v) :=
  Code.Keeps.ite (noting_writeless v) (Bus.writeless_bind (fail_writeless .io) fun _ => noting_writeless v)

theorem finishWrite_writeless (ok : Bool) : bus.Writeless (finishWrite ok) :=
  Code.Keeps.ite (Bus.writeless_pure ()) (Bus.writeless_bind (fail_writeless .io) fun _ => Bus.writeless_pure ())

theorem finishRead_last {port : Port} {a : UInt32} {r : Bool × UInt32} {ok : Bool} {v : UInt32} {d : Programming}
    (hgood : ok = true → goodRead port r = some v) :
    (finishRead ok v).wp (fun log v' d' => bus.Silent (.call (.read port a) r :: log) ∧ (latch.fault d' = none →
      bus.ReadLast (port, a) v' (.call (.read port a) r :: log))) d := by
  unfold finishRead noting
  cases ok with
  | true =>
      rw [if_pos rfl, wp_modify_bind, wp_pure]
      refine ⟨bus.silent_singleton rfl, fun _ => ⟨[], _, [], rfl, ?_, fun _ he => absurd he List.not_mem_nil⟩⟩
      show (goodRead port r).map _ = _
      rw [hgood rfl]
      rfl
  | false =>
      rw [if_neg Bool.false_ne_true, wp_bind, wp_fail, wp_modify_bind, wp_pure]
      refine ⟨bus.silent_singleton rfl, fun hnone => ?_⟩
      exact absurd hnone ((records_failing (e := .io) (by decide)).faults d)

theorem readMac_last (a : UInt32) (d : Programming) :
    Bus.Reads latch bus (.channelMac32, a) (readMac a) d := by
  refine behind.reads check_checks fun d₁ => ?_
  rw [Bus.Reads, wp_modify_bind, wp_ask_bind]
  refine fun r => finishRead_last fun hok => ?_
  rw [Bool.and_eq_true, Bool.not_eq_true'] at hok
  unfold goodRead
  rw [hok.1, hok.2]
  rfl

theorem readByte_last (a : UInt32) (d : Programming) :
    Bus.Reads latch bus (.channelMac8, a) (readByte a) d := by
  refine behind.reads check_checks fun d₁ => ?_
  rw [Bus.Reads, wp_modify_bind, wp_ask_bind]
  refine fun r => finishRead_last fun hok => ?_
  unfold goodRead
  rw [hok]
  rfl

theorem phyRead32Mask_writeless (a m : UInt32) : bus.Writeless (phyRead32Mask a m) := by
  refine behind.checked check_checks (Bus.writeless_modify_bind _ (Code.Keeps.ite ?_ ?_)) (Bus.writeless_pure 0)
  · exact Bus.writeless_bind (refuse_writeless .io) fun _ => Bus.writeless_pure 0
  · refine Bus.writeless_ask_bind (fun _ => rfl) fun r => Code.Keeps.ite ?_ (noting_writeless _)
    exact Bus.writeless_bind (fail_writeless .io) fun _ => Bus.writeless_pure 0

/-- The read before a write to the baseband is one of the whole register. -/
theorem phyRead32_last (a : UInt32) (d : Programming) :
    Bus.Reads latch bus (.bb, a) (phyRead32Mask a 0xffffffff) d := by
  refine behind.reads check_checks fun d₁ => ?_
  rw [Bus.Reads, wp_modify_bind, if_neg (by decide), wp_ask_bind]
  intro r
  by_cases hbad : (!r.1 || suspicious r.2) = true
  · rw [if_pos hbad, wp_bind, wp_fail, wp_pure]
    refine ⟨bus.silent_singleton rfl, fun hnone => ?_⟩
    exact absurd hnone ((records_failing (e := .io) (by decide)).faults _)
  · unfold noting
    rw [if_neg hbad, wp_modify_bind, wp_pure, fieldGet_full]
    refine ⟨bus.silent_singleton rfl, fun _ => ⟨[], _, [], rfl, ?_, fun _ he => absurd he List.not_mem_nil⟩⟩
    show (goodRead .bb r).map _ = _
    unfold goodRead
    rw [if_neg hbad]
    rfl

theorem writing_once (port : Port) (a m v word : UInt32) (d : Programming) :
    Bus.Writes latch bus (port, a) word (writing port a m v word) d := by
  refine behind.writes check_checks (fun d₁ => ?_) (Bus.writeless_pure ())
  rw [wp_modify_bind, wp_ask_bind]
  intro r
  refine wp_mono (finishWrite_writeless r _) fun log _ d' hlog => .inr ⟨[], _, log, rfl, ?_, ?_, rfl, hlog⟩
  · exact fun _ he => absurd he List.not_mem_nil
  · exact fun _ he => absurd he List.not_mem_nil

theorem writing_updates {port : Port} {a v word : UInt32} {masks : List (Register × UInt32)}
    (hmem : ((port, a), 0xffffffff) ∈ masks) :
    (writing port a 0xffffffff v word).Keeps fun _ log _ => bus.Updates (Masked masks) log :=
  fun d => wp_mono (writing_once port a 0xffffffff v word d) fun _ _ _ h =>
    h.1.updates ⟨0xffffffff, hmem, rfl⟩

theorem updating_updates {port : Port} {a m n : UInt32} {f g : UInt32 → UInt32} {read : Gated UInt32}
    {masks : List (Register × UInt32)} (hmem : ((port, a), m) ∈ masks)
    (hread : ∀ d, Bus.Reads latch bus (port, a) read d)
    (hf : ∀ x old, gotRegister x = some ((port, a), old) → AgreeOutside m old (f old)) :
    (do
      let old ← read
      writing port a n (g old) (f old) : Gated Unit).Keeps fun _ log _ => bus.Updates (Masked masks) log :=
  Bus.updates_modified hread (fun old => writing_once port a n (g old) (f old)) fun x old hgot => ⟨m, hmem, hf x old hgot⟩

theorem phyWrite32Mask_updates (a m v : UInt32) {masks : List (Register × UInt32)} (hmem : ((.bb, a), m) ∈ masks) :
    (phyWrite32Mask a m v).Keeps fun _ log _ => bus.Updates (Masked masks) log := by
  refine Code.Keeps.ite (refuse_writeless .precondition).updates fun d => ?_
  by_cases hm : m = 0xffffffff
  · subst hm
    exact writing_updates hmem d
  · rw [if_neg hm]
    exact updating_updates hmem (phyRead32_last a) (fun x old _ => AgreeOutside.replace old v m) d

theorem write32Mask_updates (a m v : UInt32) {masks : List (Register × UInt32)}
    (hmem : ((.channelMac32, a), m) ∈ masks) :
    (write32Mask a m v).Keeps fun _ log _ => bus.Updates (Masked masks) log := by
  refine Code.Keeps.ite (refuse_writeless .precondition).updates ?_
  exact updating_updates hmem (readMac_last a) fun x old _ => AgreeOutside.replace old v m

theorem narrow_of_gotRegister {x : Event Call Reply Note} {a old : UInt32}
    (h : gotRegister x = some ((.channelMac8, a), old)) : Width.byte.narrow old = old := by
  unfold gotRegister at h
  split at h
  · rename_i port b r
    rw [Option.map_eq_some_iff] at h
    rcases h with ⟨v, hv, hpair⟩
    cases hpair
    have hbyte : (if !r.1 then none else some (Width.byte.narrow r.2)) = some old := hv
    split at hbyte
    · exact absurd hbyte.symm (Option.some_ne_none old)
    · rw [← Option.some_inj.1 hbyte]
      exact narrow_narrow .byte r.2
  · exact absurd h.symm (Option.some_ne_none _)

theorem write8Mask_updates (a m v : UInt32) {masks : List (Register × UInt32)}
    (hmem : ((.channelMac8, a), m) ∈ masks) :
    (write8Mask a m v).Keeps fun _ log _ => bus.Updates (Masked masks) log := by
  refine Code.Keeps.ite (refuse_writeless .precondition).updates ?_
  refine updating_updates hmem (readByte_last a) fun x old hgot => ?_
  have hagree := (AgreeOutside.replace old v m).narrow .byte
  rw [narrow_of_gotRegister hgot] at hagree
  exact hagree

theorem readRf_writeless (path : UInt8) (a m : UInt32) : bus.Writeless (readRf path a m) := by
  refine behind.checked check_checks (Bus.writeless_modify_bind _ (Code.Keeps.ite ?_ ?_)) (Bus.writeless_pure 0)
  · exact Bus.writeless_bind (refuse_writeless .io) fun _ => noting_writeless 0
  · exact Bus.writeless_ask_bind (fun _ => rfl) fun r => finishRead_writeless _ _

theorem writeRf_writeless (path : UInt8) (a m v : UInt32) : bus.Writeless (writeRf path a m v) := by
  refine behind.checked check_checks (Bus.writeless_modify_bind _ (Code.Keeps.ite ?_ ?_)) (Bus.writeless_pure ())
  · exact refuse_writeless .io
  · exact Bus.writeless_ask_bind (fun _ => rfl) finishWrite_writeless

theorem readMac_writeless (a : UInt32) : bus.Writeless (readMac a) :=
  fun d => wp_mono (readMac_last a d) fun _ _ _ h => h.1

theorem readByte_writeless (a : UInt32) : bus.Writeless (readByte a) :=
  fun d => wp_mono (readByte_last a d) fun _ _ _ h => h.1

theorem delay_writeless (us : ℕ) : bus.Writeless (delay us) := by
  refine behind.checked check_checks (Code.Keeps.ite (refuse_writeless .io) ?_) (Bus.writeless_pure ())
  exact Bus.writeless_ask_bind (fun _ => rfl) finishWrite_writeless

theorem checkMacEn_writeless (index : UInt8) (cmac : Bool) : bus.Writeless (checkMacEn index cmac) := by
  refine Code.Keeps.ite (fail_writeless .precondition) ?_
  refine Bus.writeless_bind (readMac_writeless 0xC000) fun v => ?_
  exact Code.Keeps.ite (fail_writeless .precondition) (behind.writeless check_checks)

/-- The registers an accessor may write, with their masks. -/
def Accessor.masks : Accessor → List (Register × UInt32)
  | .phyWrite32Mask a m _ | .phyWrite32Clr a m | .phyWrite32Idx a m _ _ => [((.bb, a), m)]
  | .phyWrite32 a _ => [((.bb, a), 0xffffffff)]
  | .write32 a _ => [((.channelMac32, a), 0xffffffff)]
  | .write32Mask a m _ | .write32Clr a m => [((.channelMac32, a), m)]
  | .write8Mask a m _ | .write8Clr a m | .write8Set a m => [((.channelMac8, a), m)]
  | _ => []

theorem act_updates (x : Accessor) : (act x).Keeps fun _ log _ => bus.Updates (Masked x.masks) log := by
  cases x with
  | readRf path a m => exact (readRf_writeless path a m).updates
  | writeRf path a m v => exact (writeRf_writeless path a m v).updates
  | phyRead32Mask a m => exact (phyRead32Mask_writeless a m).updates
  | phyWrite32Mask a m v => exact phyWrite32Mask_updates a m v List.mem_cons_self
  | phyWrite32 a v => exact phyWrite32Mask_updates a 0xffffffff v List.mem_cons_self
  | phyWrite32Clr a m => exact phyWrite32Mask_updates a m 0 List.mem_cons_self
  | phyWrite32Idx a m v phy =>
      exact Code.Keeps.ite (refuse_writeless _).updates (phyWrite32Mask_updates a m v List.mem_cons_self)
  | phyRead32Idx a m phy =>
      have hread : bus.Writeless (phyRead32Idx a m phy) := Code.Keeps.ite
        (Bus.writeless_bind (refuse_writeless _) fun _ => Bus.writeless_pure 0) (phyRead32Mask_writeless a m)
      exact hread.updates
  | readMac a => exact (readMac_writeless a).updates
  | write32 a v => exact writing_updates List.mem_cons_self
  | write32Mask a m v => exact write32Mask_updates a m v List.mem_cons_self
  | write32Clr a m => exact write32Mask_updates a m 0 List.mem_cons_self
  | readByte a => exact (readByte_writeless a).updates
  | write8Mask a m v => exact write8Mask_updates a m v List.mem_cons_self
  | write8Clr a m => exact write8Mask_updates a m 0 List.mem_cons_self
  | write8Set a m => exact write8Mask_updates a m _ List.mem_cons_self
  | regByIdx a index =>
      have hindex : bus.Writeless (regByIdx a index) := Code.Keeps.ite
        (Bus.writeless_bind (refuse_writeless _) fun _ => Bus.writeless_pure a) (Bus.writeless_pure a)
      exact hindex.updates
  | checkMacEn index cmac => exact (checkMacEn_writeless index cmac).updates
  | debug => exact (Bus.writeless_pure ()).updates
  | warn => exact (refuse_writeless _).updates
  | delay us => exact (delay_writeless us).updates

/-- Whatever went before, only bits of the mask are changed, and only right after they were read. -/
theorem access_updates (x : Accessor) : (access x).Keeps fun _ log _ => bus.Updates (Masked x.masks) log :=
  Bus.updates_marked (fun _ => rfl) (act_updates x)

end Rules

end Tuning
end Rtl8852be
