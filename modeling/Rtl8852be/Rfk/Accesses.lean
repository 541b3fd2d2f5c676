import Rtl8852be.Interaction.Updates
import Rtl8852be.Rfk.RfkInitialization

/-!
# Accesses — the latch of the calibration accessors

* `Accessor.refused`, `RegDef.refused` — the paths, masks and delays that are no good;
* `act_refused` — an accessor that is given one of them leaves an error;
* `keeps_access`, `keeps_poll` — every accessor and every poll keeps the latch;
* `access_updates` — a baseband register keeps the bits outside the mask, and is written only right after a
  read that succeeded, unless the mask is that of the whole register.
-/

namespace Rtl8852be
namespace Rfk

open Interaction

/-! ## The latch -/

/-- The first error, with what it was about. -/
def Initialization.fault (d : Initialization) : Option (Error × Space × UInt32 × UInt32 × UInt32 × UInt8) :=
  if d.result.error = .none then none
  else some (d.result.error, d.result.space, d.result.address, d.result.mask, d.result.value, d.result.path)

def Initialization.clock (d : Initialization) : Option (UInt64 × UInt64) :=
  if d.started then some (d.first, d.previous) else none

def isRegister : Event Call Reply Called → Bool
  | .call (.readRf _ _ _) _ | .call (.writeRf _ _ _ _) _ | .call (.readBb _) _ | .call (.writeBb _ _) _
  | .call (.writeMac _ _) _ => true
  | _ => false

def reaches : Event Call Reply Called → Bool
  | .call (.delayUs _) _ => true
  | e => isRegister e

def clockReading : Event Call Reply Called → Option UInt64
  | .call .nowUs now => some now
  | _ => none

/-- No path of the radio, or no bits of a register of it. -/
def refusedRf (path : UInt8) (m : UInt32) : Bool := 1 < path || m == 0 || m &&& 0xfff00000 != 0

def Accessor.refused : Accessor → Bool
  | .readRf path _ m | .writeRf path _ m _ => refusedRf path m
  | .phyRead32Mask _ m | .phyWrite32Mask _ m _ | .phyWrite32Set _ m | .phyWrite32Clr _ m => m == 0
  | .phyWrite32Idx _ m _ phy | .phyRead32Idx _ m phy => phy != 0 || m == 0
  | .delay us => 50000 < us
  | .chanGet entity => entity != 0
  | .btcPhymap phy paths => phy != 0 || paths != 3
  | .btcNtfyWlRfk _ type state => type != 0 || (state != 2 && state != 3)
  | .rfkParser none => true
  | .rfkParser (some defs) => 4096 < defs.length
  | .phyWrite32 _ _ | .write32 _ _ | .debug => false

/-- What an entry of a table may not ask for. -/
def RegDef.refused (r : RegDef) : Bool :=
  if r.flag = 0 then refusedRf r.path r.mask
  else if r.flag ≤ 3 then r.mask == 0
  else if r.flag = 4 then 50000 < r.data.toNat
  else true

def failed : Event Call Reply Called → Bool
  | .call .cancelled yes => yes
  | .call (.readRf _ _ _) r => !r.1
  | .call (.writeRf _ _ _ _) ok => !ok
  | .call (.readBb _) r => !r.1 || suspicious r.2
  | .call (.writeBb _ _) ok => !ok
  | .call (.writeMac _ _) ok => !ok
  | .call (.delayUs _) ok => !ok
  | .call (.oneshot _ _ _) ok => !ok
  | .note n => n.failing (Sum.elim Accessor.refused RegDef.refused)
  | _ => false

def latch : Latch Initialization Call Reply Called (Error × Space × UInt32 × UInt32 × UInt32 × UInt8) where
  fault := Initialization.fault
  spent d := d.result.operations
  limit d := d.operationBase + 200000
  clock := Initialization.clock
  expired elapsed := decide (2000000 < elapsed)
  reaches := reaches
  counted := isRegister
  reading := clockReading
  failing := failed

section Rules

variable {d : Initialization}

theorem remarks : latch.Remarks := ⟨fun _ => rfl, fun _ => rfl, fun _ => rfl⟩

theorem fault_none : latch.fault d = none ↔ d.result.error = .none := by
  have hiff : d.fault = none ↔ d.result.error = .none := by
    unfold Initialization.fault
    by_cases h : d.result.error = .none <;> simp [h]
  exact hiff

theorem records_failing {e : Error} (he : e ≠ .none) : latch.Records fun d => d.failing e :=
  Latch.records_first (fun _ => fault_none) (fun _ => fault_none.not.2 he) (fun _ => rfl) fun _ => rfl

theorem wp_fail (e : Error) {Q : Trace → Bool → Initialization → Prop} :
    (fail e).wp Q d ↔ Q [] false (d.failing e) := by
  unfold fail
  rw [wp_modify_bind, wp_pure]

theorem keeps_fail {e : Error} (he : e ≠ .none) : (fail e).Keeps latch.Latched :=
  fun _ => (wp_fail e).2 (records_failing he).latched

theorem fail_faults {e : Error} (he : e ≠ .none) : latch.Faults (fail e) :=
  fun d => (wp_fail e).2 ((records_failing he).faults d)

theorem fail_records {e : Error} (he : e ≠ .none) :
    ∃ g, latch.Records g ∧ fail e = (do modify g; return false) :=
  ⟨_, records_failing he, rfl⟩

theorem keeps_return {α : Type} (x : α) : (pure x : Gated α).Keeps latch.Latched :=
  Code.Keeps.pure latch.latched_traced x

/-! ## The check -/

theorem clocked_spec (d : Initialization) (now : UInt64) :
    latch.Timed d (d.clocked now) ∧ (d.clocked now).started = true ∧
      (d.clocked now).first = (d.clock.map Prod.fst).getD now ∧
      ∀ first last, d.clock = some (first, last) → (d.clocked now).previous = last := by
  unfold Initialization.clocked Initialization.clock
  cases hc : d.started with
  | true =>
      refine ⟨⟨rfl, rfl, rfl⟩, hc, rfl, fun first last hlast => ?_⟩
      exact (Prod.ext_iff.1 (Option.some_inj.1 hlast)).2
  | false => exact ⟨⟨rfl, rfl, rfl⟩, rfl, rfl, nofun⟩

theorem check_checks : latch.Checks check := by
  refine Latch.checks_get (fun d => fault_none.not.symm) fun d hfault => ?_
  rw [wp_ask_bind]
  intro cancelled
  cases cancelled with
  | true =>
      rw [if_pos rfl]
      exact (records_failing (e := .cancelled) (by decide)).checked rfl rfl rfl
  | false =>
      rw [if_neg Bool.false_ne_true]
      refine Latch.checked_next ?_ rfl rfl rfl rfl
      rw [wp_ask_bind]
      intro now
      rcases clocked_spec d now with ⟨htimed, hstarted, hfirst, hprevious⟩
      refine Latch.checked_reading hfault (records_failing (e := .clock) (by decide))
        (records_failing (e := .timeout) (by decide)) rfl rfl rfl rfl htimed ⟨htimed.fault, htimed.spent, htimed.limit⟩
        hprevious ?_ fun hlate => ?_
      · show (if (d.clocked now).started then some ((d.clocked now).first, now) else none) = _
        rw [if_pos hstarted, hfirst]
        rfl
      · rcases not_or.1 hlate with ⟨hintime, hroom⟩
        rw [show latch.clock d = d.clock from rfl, ← hfirst, ← htimed.spent, ← htimed.limit]
        have hspent : (d.clocked now).result.operations - (d.clocked now).operationBase < 200000 := Nat.not_le.1 hroom
        refine ⟨decide_eq_false hintime, ?_⟩
        show (d.clocked now).result.operations < (d.clocked now).operationBase + 200000
        omega

theorem keeps_check {α : Type} {m m' : Gated α} (hm : m.Keeps latch.Latched) (hm' : m'.Keeps latch.Latched) :
    (do if ← check then m else m').Keeps latch.Latched :=
  Latch.keeps_checked check_checks (fun d _ => hm d) hm'

/-! ## Accessors -/

theorem counting_operating (d : Initialization) (s : Space) (a m v : UInt32) (path : UInt8) :
    latch.Counting d (d.operating s a m v path) := ⟨rfl, rfl, rfl, rfl⟩

theorem latched_noted (d : Initialization) (v : UInt32) : latch.Latched d [] { d with lastValue := v } :=
  Latch.latched_silent (fun _ => rfl) (fun _ => rfl) rfl rfl

theorem keeps_refuse : refuse.Keeps latch.Latched :=
  Code.Keeps.bind latch.latched_traced (keeps_fail (by decide)) fun _ => keeps_return ()

theorem refuse_latched {d d₁ : Initialization} {e : Error} (he : e ≠ .none) (hcounting : latch.Counting d d₁)
    (hopen : latch.Open d) : latch.Latched d [] (d₁.failing e) :=
  latch.latched_traced.trans (hcounting.latched hopen) (records_failing he).latched

theorem keeps_readRf (path : UInt8) (a m : UInt32) : (readRf path a m).Keeps latch.Latched := by
  have htraced := latch.latched_traced
  refine Latch.keeps_checked check_checks (fun d hopen => ?_) (keeps_return 0)
  rw [wp_modify_bind]
  have hcounting := counting_operating d .radio a m 0 path
  unfold noting
  by_cases hbad : (1 < path || m == 0 || m &&& ~~~0xfffff != 0) = true
  · rw [if_pos hbad, wp_bind, wp_fail, wp_modify_bind, wp_pure]
    exact htraced.trans (refuse_latched (e := .io) (by decide) hcounting hopen) (latched_noted _ _)
  rw [if_neg hbad, wp_ask_bind]
  intro r
  by_cases hr : r.1 = true
  · rw [if_pos hr, wp_modify_bind, wp_pure]
    have haccess := hcounting.access hopen (e := .call (.readRf path a m) r) rfl (by
      show (!r.1) = false
      rw [hr]
      rfl)
    exact htraced.trans haccess (latched_noted _ _)
  · rw [if_neg hr, wp_bind, wp_fail, wp_modify_bind, wp_pure]
    have hfailed := hcounting.failed (records_failing (e := .io) nofun) hopen (e := .call (.readRf path a m) r) rfl
    exact htraced.trans hfailed (latched_noted _ _)

theorem finishWrite_latched {d d₁ : Initialization} {ok : Bool} {e : Event Call Reply Called}
    (hcounting : latch.Counting d d₁) (hopen : latch.Open d) (hreading : latch.reading e = none)
    (hfailing : latch.failing e = !ok) : (finishWrite ok).wp (fun log _ d' => latch.Latched d (e :: log) d') d₁ := by
  unfold finishWrite
  cases ok with
  | true =>
      rw [if_pos rfl, wp_pure]
      exact hcounting.access hopen hreading hfailing
  | false =>
      rw [if_neg Bool.false_ne_true, wp_bind, wp_fail, wp_pure]
      exact hcounting.failed (records_failing (by decide)) hopen hreading

theorem keeps_writeRf (path : UInt8) (a m v : UInt32) : (writeRf path a m v).Keeps latch.Latched := by
  refine Latch.keeps_checked check_checks (fun d hopen => ?_) (keeps_return ())
  rw [wp_modify_bind]
  have hcounting := counting_operating d .radio a m v path
  by_cases hbad : (1 < path || m == 0 || m &&& ~~~0xfffff != 0) = true
  · rw [if_pos hbad, wp_bind, wp_fail, wp_pure]
    exact refuse_latched (by decide) hcounting hopen
  · rw [if_neg hbad, wp_ask_bind]
    exact fun ok => finishWrite_latched hcounting hopen rfl rfl

theorem keeps_phyRead32Mask (a m : UInt32) : (phyRead32Mask a m).Keeps latch.Latched := by
  have htraced := latch.latched_traced
  refine Latch.keeps_checked check_checks (fun d hopen => ?_) (keeps_return 0)
  rw [wp_modify_bind]
  have hcounting := counting_operating d .baseband a m 0 0
  by_cases hm : m = 0
  · rw [if_pos hm, wp_bind, wp_fail, wp_pure]
    exact refuse_latched (by decide) hcounting hopen
  rw [if_neg hm, wp_ask_bind]
  intro r
  by_cases hbad : (!r.1 || suspicious r.2) = true
  · rw [if_pos hbad, wp_bind, wp_fail, wp_pure]
    exact hcounting.failed (records_failing (e := .io) nofun) hopen rfl
  · unfold noting
    rw [if_neg hbad, wp_modify_bind, wp_pure]
    have haccess := hcounting.access hopen (e := .call (.readBb a) r) rfl (Bool.not_eq_true _ ▸ hbad)
    exact htraced.trans haccess (latched_noted _ _)

theorem keeps_ignored {α : Type} {m : Gated α} (hm : m.Keeps latch.Latched) :
    (do let _ ← m; return () : Gated Unit).Keeps latch.Latched :=
  Code.Keeps.bind latch.latched_traced hm fun _ => keeps_return ()

/-- The write of `rtw89_phy_write32_mask`. -/
theorem keeps_replacing (a m v old : UInt32) :
    (do
      if ← check then do
        modify fun d => d.operating .baseband a m v 0
        let ok : Bool ← Code.ask (Call.writeBb a (replaceBits old v m))
        finishWrite ok
      else
        return () : Gated Unit).Keeps latch.Latched := by
  refine Latch.keeps_checked check_checks (fun d hopen => ?_) (keeps_return ())
  rw [wp_modify_bind, wp_ask_bind]
  exact fun ok => finishWrite_latched (counting_operating d .baseband a m v 0) hopen rfl rfl

theorem keeps_phyWrite32Mask (a m v : UInt32) : (phyWrite32Mask a m v).Keeps latch.Latched := by
  refine Code.Keeps.ite (keeps_ignored (keeps_fail (by decide))) (Code.Keeps.ite ?_ ?_)
  · exact keeps_replacing a m v 0
  · exact Code.Keeps.bind latch.latched_traced (keeps_phyRead32Mask a 0xffffffff) fun old => keeps_replacing a m v old

theorem keeps_write32 (a v : UInt32) : (write32 a v).Keeps latch.Latched := by
  refine Latch.keeps_checked check_checks (fun d hopen => ?_) (keeps_return ())
  rw [wp_modify_bind, wp_ask_bind]
  exact fun ok => finishWrite_latched (counting_operating d .mac a 0xffffffff v 0) hopen rfl rfl

theorem uncounted_latched {d d' : Initialization} (hopen : latch.Open d) {e : Event Call Reply Called}
    (hreading : latch.reading e = none) (hfailing : latch.failing e = false) (hcounted : latch.counted e = false)
    (hfault : latch.fault d' = latch.fault d) (hclock : latch.clock d' = latch.clock d)
    (hspent : latch.spent d' = latch.spent d) (hlimit : latch.limit d' = latch.limit d) : latch.Latched d [e] d' := by
  refine Latch.latched_event hreading (fun _ => hopen) ?_ (fun _ => hfault) (fun _ => hclock) ?_ ?_ hlimit
  · rw [hfailing]
    exact fun h => absurd h Bool.false_ne_true
  · rw [hcounted, if_neg Bool.false_ne_true, Nat.zero_add, hspent]
  · rw [hspent]
    exact Nat.le_max_left _ _

theorem keeps_delay (us : ℕ) : (delay us).Keeps latch.Latched := by
  refine Latch.keeps_checked check_checks (fun d hopen => ?_) (keeps_return ())
  have hrecords := records_failing (e := .io) (by decide)
  by_cases hlong : 50000 < us
  · rw [if_pos hlong, wp_bind, wp_fail, wp_pure]
    exact hrecords.latched
  rw [if_neg hlong, wp_ask_bind]
  intro ok
  unfold finishWrite
  cases ok with
  | true =>
      rw [if_pos rfl, wp_pure]
      exact uncounted_latched hopen rfl rfl rfl rfl rfl rfl rfl
  | false =>
      rw [if_neg Bool.false_ne_true, wp_bind, wp_fail, wp_pure]
      exact hrecords.event rfl (fun _ => hopen) rfl

theorem keeps_oneshot (kind : Kind) (phyMap : UInt8) (start : Bool) {d : Initialization} (hopen : latch.Open d) :
    (do
      if ← Code.ask (Call.oneshot kind phyMap start) then
        modify fun d => { d with oneshotActive := start }
      else
        finishWrite false : Gated Unit).wp (fun log _ d' => latch.Latched d log d') d := by
  rw [wp_ask_bind]
  intro ok
  cases ok with
  | true =>
      rw [if_pos rfl, wp_modify]
      exact uncounted_latched hopen rfl rfl rfl rfl rfl rfl rfl
  | false =>
      unfold finishWrite
      rw [if_neg Bool.false_ne_true, if_neg Bool.false_ne_true, wp_bind, wp_fail, wp_pure]
      exact (records_failing (by decide)).event rfl (fun _ => hopen) rfl

theorem keeps_btcNtfyWlRfk (phyMap : UInt8) (type state : ℕ) : (btcNtfyWlRfk phyMap type state).Keeps latch.Latched := by
  refine Code.Keeps.ite keeps_refuse (Code.Keeps.get_bind fun d => Code.Keeps.ite ?_ (Code.Keeps.ite ?_ (keeps_return ())))
  · refine Latch.keeps_checked check_checks (fun d' hopen => ?_) (keeps_return ())
    by_cases hactive : d.oneshotActive = true
    · rw [if_pos hactive]
      exact keeps_refuse d'
    · rw [if_neg hactive]
      exact keeps_oneshot _ phyMap true hopen
  · exact Latch.keeps_checked check_checks (fun d' hopen => keeps_oneshot _ phyMap false hopen) (keeps_return ())

theorem keeps_entry (r : RegDef) : (entry r).Keeps latch.Latched := by
  unfold entry
  split
  · exact keeps_writeRf r.path r.addr r.mask r.data
  · exact keeps_phyWrite32Mask r.addr r.mask r.data
  · exact keeps_phyWrite32Mask r.addr r.mask _
  · exact keeps_phyWrite32Mask r.addr r.mask 0
  · exact keeps_delay r.data.toNat
  · exact keeps_refuse

/-! ### Refusals -/

theorem refuse_faults : latch.Faults refuse := (fail_faults (by decide)).bind fun _ => keeps_return ()

/-- The bits of a register of the radio are the low twenty. -/
theorem refusedRf_iff (path : UInt8) (m : UInt32) :
    refusedRf path m = true ↔ (1 < path || m == 0 || m &&& ~~~0xfffff != 0) = true := Iff.rfl

theorem readRf_refused {path : UInt8} {a m : UInt32} (h : refusedRf path m = true) :
    latch.Faults (readRf path a m) := by
  refine Latch.faults_checked check_checks (Latch.faults_modify_bind _ ?_) (keeps_return 0)
  rw [if_pos ((refusedRf_iff path m).1 h)]
  refine (fail_faults (by decide)).bind fun _ => ?_
  exact Code.Keeps.modify_bind latch.latched_traced (fun d => latched_noted d 0) (keeps_return 0)

theorem writeRf_refused {path : UInt8} {a m v : UInt32} (h : refusedRf path m = true) :
    latch.Faults (writeRf path a m v) := by
  refine Latch.faults_checked check_checks (Latch.faults_modify_bind _ ?_) (keeps_return ())
  rw [if_pos ((refusedRf_iff path m).1 h)]
  exact (fail_faults (by decide)).bind fun _ => keeps_return ()

theorem phyRead32Mask_refused {a m : UInt32} (hm : m = 0) : latch.Faults (phyRead32Mask a m) := by
  refine Latch.faults_checked check_checks (Latch.faults_modify_bind _ ?_) (keeps_return 0)
  rw [if_pos hm]
  exact (fail_faults (by decide)).bind fun _ => keeps_return 0

theorem phyWrite32Mask_refused {a m v : UInt32} (hm : m = 0) : latch.Faults (phyWrite32Mask a m v) := by
  unfold phyWrite32Mask
  rw [if_pos hm]
  exact (fail_faults (by decide)).bind fun _ => keeps_return ()

theorem delay_refused {us : ℕ} (h : 50000 < us) : latch.Faults (delay us) := by
  refine Latch.faults_checked check_checks ?_ (keeps_return ())
  rw [if_pos h]
  exact (fail_faults (by decide)).bind fun _ => keeps_return ()

/-- What an entry may not ask for leaves an error, whatever the state. -/
theorem entry_refused (r : RegDef) (hr : r.refused = true) : latch.Faults (entry r) := by
  unfold RegDef.refused at hr
  unfold entry
  split <;> rename_i hflag
  · rw [hflag, if_pos rfl] at hr
    exact writeRf_refused hr
  · rw [hflag, if_neg (by decide), if_pos (by decide)] at hr
    exact phyWrite32Mask_refused (eq_of_beq hr)
  · rw [hflag, if_neg (by decide), if_pos (by decide)] at hr
    exact phyWrite32Mask_refused (eq_of_beq hr)
  · rw [hflag, if_neg (by decide), if_pos (by decide)] at hr
    exact phyWrite32Mask_refused (eq_of_beq hr)
  · rw [hflag, if_neg (by decide), if_neg (by decide), if_pos rfl] at hr
    exact delay_refused (of_decide_eq_true hr)
  · exact refuse_faults

theorem keeps_parseDef (r : RegDef) : (parseDef r).Keeps latch.Latched :=
  Latch.keeps_marked remarks (keeps_entry r) fun d =>
    wp_of_outcome fun _ _ _ hout hr => wp_outcome (entry_refused r hr d) hout

theorem keeps_parseDefs (defs : List RegDef) : (parseDefs defs).Keeps latch.Latched := by
  induction defs with
  | nil => exact keeps_return ()
  | cons r defs ih =>
      exact keeps_check (Code.Keeps.bind latch.latched_traced (keeps_parseDef r) fun _ => ih) (keeps_return ())

theorem keeps_rfkParser (table : Option (List RegDef)) : (rfkParser table).Keeps latch.Latched := by
  cases table with
  | none => exact keeps_refuse
  | some defs => exact Code.Keeps.ite keeps_refuse (keeps_parseDefs defs)

theorem keeps_act (x : Accessor) : (act x).Keeps latch.Latched := by
  have htraced := latch.latched_traced
  cases x with
  | readRf path a m => exact keeps_readRf path a m
  | writeRf path a m v => exact keeps_writeRf path a m v
  | phyRead32Mask a m => exact keeps_phyRead32Mask a m
  | phyWrite32Mask a m v => exact keeps_phyWrite32Mask a m v
  | phyWrite32 a v => exact keeps_phyWrite32Mask a 0xffffffff v
  | phyWrite32Set a m => exact keeps_phyWrite32Mask a m _
  | phyWrite32Clr a m => exact keeps_phyWrite32Mask a m 0
  | phyWrite32Idx a m v phy => exact Code.Keeps.ite keeps_refuse (keeps_phyWrite32Mask a m v)
  | phyRead32Idx a m phy =>
      exact Code.Keeps.ite (Code.Keeps.bind htraced keeps_refuse fun _ => keeps_return 0) (keeps_phyRead32Mask a m)
  | write32 a v => exact keeps_write32 a v
  | delay us => exact keeps_delay us
  | debug =>
      intro d
      unfold act debug
      rw [wp_modify]
      exact Latch.latched_silent (fun _ => rfl) (fun _ => rfl) rfl rfl
  | chanGet entity =>
      refine Code.Keeps.get_bind fun d => Code.Keeps.ite ?_ (keeps_return d.channel)
      exact Code.Keeps.bind htraced keeps_refuse fun _ => keeps_return d.channel
  | btcPhymap phy paths =>
      refine Code.Keeps.get_bind fun d => Code.Keeps.ite ?_ (keeps_return _)
      exact Code.Keeps.bind htraced keeps_refuse fun _ => keeps_return 0
  | btcNtfyWlRfk phyMap type state => exact keeps_btcNtfyWlRfk phyMap type state
  | rfkParser table => exact keeps_rfkParser table

/-- What is refused leaves an error, whatever the state. -/
theorem act_refused (x : Accessor) (hx : x.refused = true) : latch.Faults (act x) := by
  cases x with
  | readRf path a m => exact readRf_refused hx
  | writeRf path a m v => exact writeRf_refused hx
  | phyRead32Mask a m => exact phyRead32Mask_refused (eq_of_beq hx)
  | phyWrite32Mask a m v => exact phyWrite32Mask_refused (eq_of_beq hx)
  | phyWrite32Set a m | phyWrite32Clr a m => exact phyWrite32Mask_refused (eq_of_beq hx)
  | phyWrite32Idx a m v phy =>
      have hor : phy ≠ 0 ∨ m = 0 := by simpa [Accessor.refused] using hx
      show latch.Faults (phyWrite32Idx a m v phy)
      unfold phyWrite32Idx
      by_cases hphy : phy ≠ 0
      · rw [if_pos hphy]
        exact refuse_faults
      · rw [if_neg hphy]
        exact phyWrite32Mask_refused (hor.resolve_left hphy)
  | phyRead32Idx a m phy =>
      have hor : phy ≠ 0 ∨ m = 0 := by simpa [Accessor.refused] using hx
      show latch.Faults (phyRead32Idx a m phy)
      unfold phyRead32Idx
      by_cases hphy : phy ≠ 0
      · rw [if_pos hphy]
        exact refuse_faults.bind fun _ => keeps_return 0
      · rw [if_neg hphy]
        exact phyRead32Mask_refused (hor.resolve_left hphy)
  | delay us => exact delay_refused (of_decide_eq_true hx)
  | chanGet entity =>
      have hentity : entity ≠ 0 := by simpa [Accessor.refused] using hx
      refine Code.Keeps.get_bind fun d => ?_
      rw [if_pos hentity]
      exact refuse_faults.bind fun _ => keeps_return d.channel
  | btcPhymap phy paths =>
      have hor : phy ≠ 0 ∨ paths ≠ 3 := by simpa [Accessor.refused] using hx
      refine Code.Keeps.get_bind fun d => ?_
      rw [if_pos hor]
      exact refuse_faults.bind fun _ => keeps_return 0
  | btcNtfyWlRfk phyMap type state =>
      have hor : type ≠ 0 ∨ (state ≠ 2 ∧ state ≠ 3) := by simpa [Accessor.refused] using hx
      show latch.Faults (btcNtfyWlRfk phyMap type state)
      unfold btcNtfyWlRfk
      rw [if_pos hor]
      exact refuse_faults
  | rfkParser table =>
      cases table with
      | none => exact refuse_faults
      | some defs =>
          show latch.Faults (if 4096 < defs.length then refuse else parseDefs defs)
          rw [if_pos (of_decide_eq_true hx)]
          exact refuse_faults
  | phyWrite32 a v | write32 a v | debug => exact absurd hx Bool.false_ne_true

theorem keeps_access (x : Accessor) : (access x).Keeps latch.Latched :=
  Latch.keeps_marked remarks (keeps_act x) fun d =>
    wp_of_outcome fun _ _ _ hout hx => wp_outcome (act_refused x hx d) hout

/-! ## Polls -/

theorem judges_pollFrom (step timeout : ℕ) (start : UInt64) {ready : Gated Bool} (hready : ready.Keeps latch.Latched)
    (n : ℕ) : latch.Judges (pollFrom step timeout start ready n) := by
  induction n with
  | zero => exact fun d => (records_failing (e := .timeout) (by decide)).judged
  | succ n ih =>
      exact Latch.judges_round remarks (fun _ => rfl) check_checks hready
        (fun d => Latch.latched_silent (fun _ => rfl) (fun _ => rfl) rfl rfl) (fail_records (by decide))
        (fun _ => fail_records (by decide)) fun d _ => Latch.judges_bind (keeps_delay step) (fun _ => ih) d

theorem keeps_poll (step timeout : ℕ) (ready : Prog Accessor Value Empty Bool) :
    (poll step timeout ready).Keeps latch.Latched := by
  have htraced := latch.latched_traced
  refine Code.Keeps.ask_bind htraced (fun d r => Latch.latched_neutral rfl rfl rfl rfl) fun start => ?_
  have hjudges := judges_pollFrom step timeout start (keeps_through htraced keeps_access ready)
    (timeout / (if step = 0 then 1 else step) + 1)
  refine Latch.keeps_marked remarks hjudges.keeps fun d => ?_
  refine wp_mono (hjudges d) fun log ok d' h hfailing => h.2 ?_
  simpa [latch, failed, Mark.failing] using hfailing

theorem keeps_exec (op : Op) : (exec op).Keeps latch.Latched := by
  cases op with
  | access x => exact keeps_ignored (keeps_access x)
  | poll step timeout ready => exact keeps_ignored (keeps_poll step timeout ready)

/-! ## Read, change, write -/

def wroteBb : Event Call Reply Called → Option (UInt32 × UInt32)
  | .call (.writeBb a v) _ => some (a, v)
  | _ => none

def gotBb : Event Call Reply Called → Option (UInt32 × UInt32)
  | .call (.readBb a) r => if !r.1 || suspicious r.2 then none else some (a, r.2)
  | _ => none

def bus : Bus Call Reply Called UInt32 UInt32 := ⟨wroteBb, gotBb, reaches⟩

/-- A whole register, or bits of the mask only. -/
def Masked (masks : List (UInt32 × UInt32)) (a : UInt32) (old? : Option UInt32) (v : UInt32) : Prop :=
  ∃ m, (a, m) ∈ masks ∧
    match old? with
    | none => m = 0xffffffff
    | some old => AgreeOutside m old v

theorem behind : Bus.Behind latch bus where
  still _ h := h
  silent e h := by
    cases e with
    | call c r => cases c <;> first | rfl | exact absurd h Bool.noConfusion
    | note n => rfl

theorem fail_writeless (e : Error) : bus.Writeless (fail e) := fun d => (wp_fail e).2 (bus.silent_traced.refl d)

theorem refuse_writeless : bus.Writeless refuse :=
  Bus.writeless_bind (fail_writeless .precondition) fun _ => Bus.writeless_pure ()

/-- The read before a write is one of the whole register. -/
theorem phyRead32_last (a : UInt32) (d : Initialization) : Bus.Reads latch bus a (phyRead32Mask a 0xffffffff) d := by
  refine behind.reads check_checks fun d₁ => ?_
  rw [Bus.Reads, wp_modify_bind, if_neg (by decide), wp_ask_bind]
  intro r
  by_cases hbad : (!r.1 || suspicious r.2) = true
  · rw [if_pos hbad, wp_bind, wp_fail, wp_pure]
    refine ⟨bus.silent_singleton rfl, fun hnone => ?_⟩
    exact absurd hnone ((records_failing (e := .io) (by decide)).faults _)
  · unfold noting
    rw [if_neg hbad, wp_modify_bind, wp_pure, fieldGet_full]
    refine ⟨bus.silent_singleton rfl, fun _ => ⟨[], _, [], rfl, if_neg hbad, ?_⟩⟩
    exact fun _ he => absurd he List.not_mem_nil

theorem finishWrite_writeless (ok : Bool) : bus.Writeless (finishWrite ok) :=
  Code.Keeps.ite (Bus.writeless_pure ()) (Bus.writeless_bind (fail_writeless .io) fun _ => Bus.writeless_pure ())

/-- What the write of `rtw89_phy_write32_mask` does. -/
theorem replacing_once (a m v old : UInt32) (d : Initialization) :
    Bus.Writes latch bus a (replaceBits old v m) (do
      if ← check then do
        modify fun d => d.operating .baseband a m v 0
        let ok : Bool ← Code.ask (Call.writeBb a (replaceBits old v m))
        finishWrite ok
      else
        return () : Gated Unit) d := by
  refine behind.writes check_checks (fun d₁ => ?_) (Bus.writeless_pure ())
  rw [wp_modify_bind, wp_ask_bind]
  intro r
  refine wp_mono (finishWrite_writeless r _) fun log _ d' hlog => .inr ⟨[], _, log, rfl, ?_, ?_, rfl, hlog⟩
  · exact fun _ he => absurd he List.not_mem_nil
  · exact fun _ he => absurd he List.not_mem_nil

theorem phyWrite32Mask_updates (a m v : UInt32) {masks : List (UInt32 × UInt32)} (hmem : (a, m) ∈ masks) :
    (phyWrite32Mask a m v).Keeps fun _ log _ => bus.Updates (Masked masks) log := by
  have hfail : bus.Writeless (do let _ ← fail .precondition; return () : Gated Unit) :=
    Bus.writeless_bind (fail_writeless _) fun _ => Bus.writeless_pure ()
  refine Code.Keeps.ite hfail.updates fun d => ?_
  by_cases hm : m = 0xffffffff
  · -- Nothing of the old word is kept, so it is not read.
    rw [if_pos hm]
    exact wp_mono (replacing_once a m v 0 d) fun log _ d' h => h.1.updates ⟨m, hmem, hm⟩
  · rw [if_neg hm]
    refine Bus.updates_modified (phyRead32_last a) (replacing_once a m v) (fun x old _ => ?_) d
    exact ⟨m, hmem, AgreeOutside.replace old v m⟩

/-! ### Everything else writes nothing to the baseband -/

theorem readRf_writeless (path : UInt8) (a m : UInt32) : bus.Writeless (readRf path a m) := by
  have hnote : ∀ v, bus.Writeless (noting v) := fun v => Bus.writeless_modify_bind _ (Bus.writeless_pure v)
  refine behind.checked check_checks (Bus.writeless_modify_bind _ (Code.Keeps.ite ?_ ?_)) (Bus.writeless_pure 0)
  · exact Bus.writeless_bind (fail_writeless .io) fun _ => hnote 0
  · refine Bus.writeless_ask_bind (fun _ => rfl) fun r => Code.Keeps.ite (hnote _) ?_
    exact Bus.writeless_bind (fail_writeless .io) fun _ => hnote _

theorem phyRead32Mask_writeless (a m : UInt32) : bus.Writeless (phyRead32Mask a m) := by
  have hfail : bus.Writeless (do let _ ← fail .io; return 0 : Gated UInt32) :=
    Bus.writeless_bind (fail_writeless .io) fun _ => Bus.writeless_pure 0
  refine behind.checked check_checks (Bus.writeless_modify_bind _ (Code.Keeps.ite hfail ?_)) (Bus.writeless_pure 0)
  refine Bus.writeless_ask_bind (fun _ => rfl) fun r => Code.Keeps.ite hfail ?_
  exact Bus.writeless_modify_bind _ (Bus.writeless_pure _)

theorem writeRf_writeless (path : UInt8) (a m v : UInt32) : bus.Writeless (writeRf path a m v) := by
  refine behind.checked check_checks (Bus.writeless_modify_bind _ (Code.Keeps.ite ?_ ?_)) (Bus.writeless_pure ())
  · exact Bus.writeless_bind (fail_writeless .io) fun _ => Bus.writeless_pure ()
  · exact Bus.writeless_ask_bind (fun _ => rfl) finishWrite_writeless

theorem write32_writeless (a v : UInt32) : bus.Writeless (write32 a v) := by
  refine behind.checked check_checks (Bus.writeless_modify_bind _ ?_) (Bus.writeless_pure ())
  exact Bus.writeless_ask_bind (fun _ => rfl) finishWrite_writeless

theorem delay_writeless (us : ℕ) : bus.Writeless (delay us) := by
  refine behind.checked check_checks (Code.Keeps.ite ?_ ?_) (Bus.writeless_pure ())
  · exact Bus.writeless_bind (fail_writeless .io) fun _ => Bus.writeless_pure ()
  · exact Bus.writeless_ask_bind (fun _ => rfl) finishWrite_writeless

theorem btcNtfyWlRfk_writeless (phyMap : UInt8) (type state : ℕ) : bus.Writeless (btcNtfyWlRfk phyMap type state) := by
  have hengine : ∀ kind start, bus.Writeless (do
      if ← Code.ask (Call.oneshot kind phyMap start) then
        modify fun d => { d with oneshotActive := start }
      else
        finishWrite false : Gated Unit) := fun kind start =>
    Bus.writeless_ask_bind (fun _ => rfl) fun _ => Code.Keeps.ite (Bus.writeless_modify _) (finishWrite_writeless false)
  refine Code.Keeps.ite refuse_writeless (Code.Keeps.get_bind fun d => Code.Keeps.ite ?_ ?_)
  · exact behind.checked check_checks (Code.Keeps.ite refuse_writeless (hengine _ _)) (Bus.writeless_pure ())
  · exact Code.Keeps.ite (behind.checked check_checks (hengine _ _) (Bus.writeless_pure ())) (Bus.writeless_pure ())

/-! ### Masks -/

/-- The register that an entry of a table changes. -/
def RegDef.masks (r : RegDef) : List (UInt32 × UInt32) := if r.flag ∈ [1, 2, 3] then [(r.addr, r.mask)] else []

/-- The registers an accessor may write, with their masks. -/
def Accessor.masks : Accessor → List (UInt32 × UInt32)
  | .phyWrite32Mask a m _ | .phyWrite32Set a m | .phyWrite32Clr a m | .phyWrite32Idx a m _ _ => [(a, m)]
  | .phyWrite32 a _ => [(a, 0xffffffff)]
  | .rfkParser (some defs) => defs.flatMap RegDef.masks
  | _ => []

theorem entry_updates (r : RegDef) {masks : List (UInt32 × UInt32)} (hmasks : r.masks ⊆ masks) :
    (entry r).Keeps fun _ log _ => bus.Updates (Masked masks) log := by
  unfold RegDef.masks at hmasks
  unfold entry
  split <;> rename_i hflag
  · exact (writeRf_writeless _ _ _ _).updates
  · exact phyWrite32Mask_updates _ _ _ (hmasks (by rw [hflag]; exact List.mem_cons_self))
  · exact phyWrite32Mask_updates _ _ _ (hmasks (by rw [hflag]; exact List.mem_cons_self))
  · exact phyWrite32Mask_updates _ _ _ (hmasks (by rw [hflag]; exact List.mem_cons_self))
  · exact (delay_writeless _).updates
  · exact refuse_writeless.updates

theorem parseDefs_updates {defs : List RegDef} {masks : List (UInt32 × UInt32)}
    (hmasks : defs.flatMap RegDef.masks ⊆ masks) :
    (parseDefs defs).Keeps fun _ log _ => bus.Updates (Masked masks) log := by
  have htraced := bus.updates_traced (σ := Initialization) (Masked masks)
  induction defs with
  | nil => exact Code.Keeps.pure htraced ()
  | cons r defs ih =>
      rw [List.flatMap_cons, List.append_subset] at hmasks
      refine Code.Keeps.bind htraced (behind.writeless check_checks).updates fun ok => Code.Keeps.ite ?_ ?_
      · have hentry := Bus.updates_marked (n := fun _ => Mark.called (Sum.inr r)) (fun _ => rfl)
          (entry_updates r hmasks.1)
        exact Code.Keeps.bind htraced hentry fun _ => ih hmasks.2
      · exact Code.Keeps.pure htraced ()

theorem act_updates (x : Accessor) : (act x).Keeps fun _ log _ => bus.Updates (Masked x.masks) log := by
  cases x with
  | readRf path a m => exact (readRf_writeless path a m).updates
  | writeRf path a m v => exact (writeRf_writeless path a m v).updates
  | phyRead32Mask a m => exact (phyRead32Mask_writeless a m).updates
  | phyWrite32Mask a m v => exact phyWrite32Mask_updates a m v List.mem_cons_self
  | phyWrite32 a v => exact phyWrite32Mask_updates a 0xffffffff v List.mem_cons_self
  | phyWrite32Set a m => exact phyWrite32Mask_updates a m _ List.mem_cons_self
  | phyWrite32Clr a m => exact phyWrite32Mask_updates a m 0 List.mem_cons_self
  | phyWrite32Idx a m v phy =>
      exact Code.Keeps.ite refuse_writeless.updates (phyWrite32Mask_updates a m v List.mem_cons_self)
  | phyRead32Idx a m phy =>
      have hread : bus.Writeless (phyRead32Idx a m phy) := Code.Keeps.ite
        (Bus.writeless_bind refuse_writeless fun _ => Bus.writeless_pure 0) (phyRead32Mask_writeless a m)
      exact hread.updates
  | write32 a v => exact (write32_writeless a v).updates
  | delay us => exact (delay_writeless us).updates
  | debug => exact (Bus.writeless_modify _).updates
  | chanGet entity =>
      have hget : bus.Writeless (chanGet entity) := Code.Keeps.get_bind fun d => Code.Keeps.ite
        (Bus.writeless_bind refuse_writeless fun _ => Bus.writeless_pure d.channel) (Bus.writeless_pure d.channel)
      exact hget.updates
  | btcPhymap phy paths =>
      have hmap : bus.Writeless (btcPhymap phy paths) := Code.Keeps.get_bind fun d => Code.Keeps.ite
        (Bus.writeless_bind refuse_writeless fun _ => Bus.writeless_pure 0) (Bus.writeless_pure _)
      exact hmap.updates
  | btcNtfyWlRfk phyMap type state => exact (btcNtfyWlRfk_writeless phyMap type state).updates
  | rfkParser table =>
      cases table with
      | none => exact refuse_writeless.updates
      | some defs => exact Code.Keeps.ite refuse_writeless.updates (parseDefs_updates (List.Subset.refl _))

/-- Whatever went before, only bits of the mask are changed, and only right after they were read. -/
theorem access_updates (x : Accessor) : (access x).Keeps fun _ log _ => bus.Updates (Masked x.masks) log :=
  Bus.updates_marked (fun _ => rfl) (act_updates x)

end Rules

end Rfk
end Rtl8852be
