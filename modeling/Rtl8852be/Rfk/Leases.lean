import Rtl8852be.Rfk.Accesses
import Rtl8852be.Rfk.Steps

/-!
# Leases — what a calibration leaves alone, and what its lease looks like

* `Flags` — what lasts from step to step; imported calibrations keep it, and call for no lease (`Calm`);
* `Leased` — leases in order: one at a time, each given back as what it was taken for;
* `Led` — the lease of one step;
* `wp_leased` — the rule for a step: it is refused its lease, or it gives it back and does the rest.
-/

namespace Rtl8852be
namespace Rfk

open Interaction

/-! ## What lasts -/

/-- What calibrations are judged by. -/
structure Flags where
  stage : Stage
  rck : Bool
  dack : Bool
  rxDc : Bool
  iq : Bool
  tssi : Bool
  dpk : Bool
  scanActive : Bool
  scanReady : Bool
  prepared : Bool
  configured : Bool
  homeDpk : Bool
  channel : Channel
  iqChannel : Channel
  rxDcChannel : Channel
  scanHome : Channel
  scanChannel : Channel
  deriving DecidableEq

def Initialization.flags (d : Initialization) : Flags where
  stage := d.result.stage
  rck := d.result.rckReady
  dack := d.result.dackReady
  rxDc := d.result.rxDcReady
  iq := d.result.iqReady
  tssi := d.result.tssiReady
  dpk := d.result.dpkReady
  scanActive := d.result.scanActive
  scanReady := d.result.scanReady
  prepared := d.preparedRxDc
  configured := d.calibrationConfigured
  homeDpk := d.homeDpkReady
  channel := d.channel
  iqChannel := d.result.iqChannel
  rxDcChannel := d.rxDcChannel
  scanHome := d.result.scanHome
  scanChannel := d.result.scanChannel

/-- A lease is asked for, or given back. -/
def ofLease : Event Call Reply Called → Bool
  | .call (.begin_ _) _ | .call (.end_ _ _) _ => true
  | _ => false

/-- Nothing that lasts is changed, and no lease is touched. -/
structure Calm (d : Initialization) (log : Trace) (d' : Initialization) : Prop where
  flags : d'.flags = d.flags
  quiet : ∀ e ∈ log, ofLease e = false

theorem calm_traced : Traced Calm where
  refl _ := ⟨rfl, fun _ he => absurd he List.not_mem_nil⟩
  trans h h' := ⟨h'.flags.trans h.flags, fun e he => (List.mem_append.1 he).elim (h.quiet e) (h'.quiet e)⟩

section Calm

theorem Calm.silent {d d' : Initialization} (h : d'.flags = d.flags) : Calm d [] d' :=
  ⟨h, fun _ he => absurd he List.not_mem_nil⟩

theorem Calm.event {d : Initialization} {e : Event Call Reply Called} (h : ofLease e = false) : Calm d [e] d :=
  ⟨rfl, fun _ he => (List.mem_singleton.1 he) ▸ h⟩

theorem flags_failing (d : Initialization) (e : Error) : (d.failing e).flags = d.flags := by
  unfold Initialization.failing
  split
  · rfl
  · rfl

theorem flags_clocked (d : Initialization) (now : UInt64) : (d.clocked now).flags = d.flags := by
  unfold Initialization.clocked
  split
  · rfl
  · rfl

variable {α : Type}

theorem calm_return (x : α) : (pure x : Gated α).Keeps Calm := Code.Keeps.pure calm_traced x

theorem calm_fail (e : Error) : (fail e).Keeps Calm := fun d => (wp_fail e).2 (Calm.silent (flags_failing d e))

theorem calm_told {n : Called} {m : Gated α} (hm : m.Keeps Calm) :
    (do
      Code.tell n
      m).Keeps Calm := by
  intro d
  rw [wp_tell_bind]
  exact wp_mono (hm d) fun _ _ _ h => calm_traced.trans (Calm.event rfl) h

theorem calm_marked {m : Gated α} {n : α → Called} (hm : m.Keeps Calm) :
    (do
      let a ← m
      Code.tell (n a)
      return a).Keeps Calm :=
  Code.Keeps.bind calm_traced hm fun a => calm_told (calm_return a)

theorem calm_refuse : refuse.Keeps Calm :=
  Code.Keeps.bind calm_traced (calm_fail .precondition) fun _ => calm_return ()

theorem calm_noting (v : UInt32) : (noting v).Keeps Calm :=
  Code.Keeps.modify_bind calm_traced (fun _ => Calm.silent rfl) (calm_return v)

theorem calm_finishWrite (ok : Bool) : (finishWrite ok).Keeps Calm :=
  Code.Keeps.ite (calm_return ()) (Code.Keeps.bind calm_traced (calm_fail .io) fun _ => calm_return ())

theorem calm_check : check.Keeps Calm := by
  have htraced := calm_traced
  refine Code.Keeps.get_bind fun d => Code.Keeps.ite (calm_return false) ?_
  refine Code.Keeps.ask_bind htraced (fun _ _ => Calm.event rfl) fun cancelled => Code.Keeps.ite (calm_fail .cancelled) ?_
  refine Code.Keeps.ask_bind htraced (fun _ _ => Calm.event rfl) fun now => ?_
  refine Code.Keeps.modify_bind htraced (fun d => Calm.silent (flags_clocked d now)) (Code.Keeps.get_bind fun d => ?_)
  refine Code.Keeps.ite (calm_fail .clock) (Code.Keeps.modify_bind htraced (fun _ => Calm.silent rfl) ?_)
  exact Code.Keeps.get_bind fun d => Code.Keeps.ite (calm_fail .timeout) (calm_return true)

theorem calm_checked {m m' : Gated α} (hm : m.Keeps Calm) (hm' : m'.Keeps Calm) :
    (do if ← check then m else m').Keeps Calm :=
  Code.Keeps.bind calm_traced calm_check fun _ => Code.Keeps.ite hm hm'

theorem calm_operating {s : Space} {a m v : UInt32} {path : UInt8} {rest : Gated α} (hrest : rest.Keeps Calm) :
    (modify (fun d : Initialization => d.operating s a m v path) >>= fun _ => rest).Keeps Calm :=
  Code.Keeps.modify_bind calm_traced (fun _ => Calm.silent rfl) hrest

theorem calm_ignored {β : Type} {m : Gated α} {rest : Gated β} (hm : m.Keeps Calm) (hrest : rest.Keeps Calm) :
    (do let _ ← m; rest).Keeps Calm :=
  Code.Keeps.bind calm_traced hm fun _ => hrest

theorem calm_ask {c : Call} {f : Reply c → Gated α} (hc : ∀ r, ofLease (.call c r) = false)
    (hf : ∀ r, (f r).Keeps Calm) : (Code.ask c >>= f).Keeps Calm :=
  Code.Keeps.ask_bind calm_traced (fun _ r => Calm.event (hc r)) hf

theorem calm_readRf (path : UInt8) (a m : UInt32) : (readRf path a m).Keeps Calm := by
  refine calm_checked (calm_operating (Code.Keeps.ite ?_ ?_)) (calm_return 0)
  · exact calm_ignored (calm_fail _) (calm_noting 0)
  · refine calm_ask (fun _ => rfl) fun r => Code.Keeps.ite (calm_noting r.2) ?_
    exact calm_ignored (calm_fail .io) (calm_noting r.2)

theorem calm_writeRf (path : UInt8) (a m v : UInt32) : (writeRf path a m v).Keeps Calm := by
  refine calm_checked (calm_operating (Code.Keeps.ite ?_ ?_)) (calm_return ())
  · exact calm_ignored (calm_fail _) (calm_return ())
  · exact calm_ask (fun _ => rfl) calm_finishWrite

theorem calm_phyRead32Mask (a m : UInt32) : (phyRead32Mask a m).Keeps Calm := by
  refine calm_checked (calm_operating (Code.Keeps.ite ?_ ?_)) (calm_return 0)
  · exact calm_ignored (calm_fail _) (calm_return 0)
  · refine calm_ask (fun _ => rfl) fun r => Code.Keeps.ite ?_ (calm_noting _)
    exact calm_ignored (calm_fail .io) (calm_return 0)

/-- The write of `rtw89_phy_write32_mask`. -/
theorem calm_replacing (a m v old : UInt32) :
    (do
      if ← check then do
        modify fun d => d.operating .baseband a m v 0
        let ok : Bool ← Code.ask (Call.writeBb a (replaceBits old v m))
        finishWrite ok
      else
        return () : Gated Unit).Keeps Calm :=
  calm_checked (calm_operating (calm_ask (fun _ => rfl) calm_finishWrite)) (calm_return ())

theorem calm_phyWrite32Mask (a m v : UInt32) : (phyWrite32Mask a m v).Keeps Calm := by
  refine Code.Keeps.ite (calm_ignored (calm_fail _) (calm_return ())) (Code.Keeps.ite ?_ ?_)
  · exact calm_replacing a m v 0
  · exact Code.Keeps.bind calm_traced (calm_phyRead32Mask a 0xffffffff) fun old => calm_replacing a m v old

theorem calm_write32 (a v : UInt32) : (write32 a v).Keeps Calm :=
  calm_checked (calm_operating (calm_ask (fun _ => rfl) calm_finishWrite)) (calm_return ())

theorem calm_delay (us : ℕ) : (delay us).Keeps Calm := by
  refine calm_checked (Code.Keeps.ite (calm_ignored (calm_fail _) (calm_return ())) ?_) (calm_return ())
  exact calm_ask (fun _ => rfl) calm_finishWrite

theorem calm_oneshot (kind : Kind) (phyMap : UInt8) (start : Bool) :
    (do
      if ← Code.ask (Call.oneshot kind phyMap start) then
        modify fun d : Initialization => { d with oneshotActive := start }
      else
        finishWrite false : Gated Unit).Keeps Calm :=
  calm_ask (fun _ => rfl) fun _ => Code.Keeps.ite (fun _ => (wp_modify _).2 (Calm.silent rfl)) (calm_finishWrite false)

theorem calm_btcNtfyWlRfk (phyMap : UInt8) (type state : ℕ) : (btcNtfyWlRfk phyMap type state).Keeps Calm := by
  refine Code.Keeps.ite calm_refuse (Code.Keeps.get_bind fun d => Code.Keeps.ite ?_ (Code.Keeps.ite ?_ (calm_return ())))
  · exact calm_checked (Code.Keeps.ite calm_refuse (calm_oneshot _ phyMap true)) (calm_return ())
  · exact calm_checked (calm_oneshot _ phyMap false) (calm_return ())

theorem calm_entry (r : RegDef) : (entry r).Keeps Calm := by
  unfold entry
  split
  · exact calm_writeRf _ _ _ _
  · exact calm_phyWrite32Mask _ _ _
  · exact calm_phyWrite32Mask _ _ _
  · exact calm_phyWrite32Mask _ _ _
  · exact calm_delay _
  · exact calm_refuse

theorem calm_parseDefs : ∀ defs : List RegDef, (parseDefs defs).Keeps Calm
  | [] => calm_return ()
  | r :: defs => calm_checked (calm_ignored (calm_marked (calm_entry r)) (calm_parseDefs defs)) (calm_return ())

theorem calm_act (x : Accessor) : (act x).Keeps Calm := by
  cases x with
  | readRf path a m => exact calm_readRf path a m
  | writeRf path a m v => exact calm_writeRf path a m v
  | phyRead32Mask a m => exact calm_phyRead32Mask a m
  | phyWrite32Mask a m v => exact calm_phyWrite32Mask a m v
  | phyWrite32 a v => exact calm_phyWrite32Mask a 0xffffffff v
  | phyWrite32Set a m => exact calm_phyWrite32Mask a m (m >>> shift m)
  | phyWrite32Clr a m => exact calm_phyWrite32Mask a m 0
  | phyWrite32Idx a m v phy => exact Code.Keeps.ite calm_refuse (calm_phyWrite32Mask a m v)
  | phyRead32Idx a m phy =>
      exact Code.Keeps.ite (calm_ignored calm_refuse (calm_return 0)) (calm_phyRead32Mask a m)
  | write32 a v => exact calm_write32 a v
  | delay us => exact calm_delay us
  | debug => exact fun _ => (wp_modify _).2 (Calm.silent rfl)
  | chanGet entity =>
      exact Code.Keeps.get_bind fun d => Code.Keeps.ite (calm_ignored calm_refuse (calm_return _)) (calm_return _)
  | btcPhymap phy paths =>
      exact Code.Keeps.get_bind fun d => Code.Keeps.ite (calm_ignored calm_refuse (calm_return _)) (calm_return _)
  | btcNtfyWlRfk phyMap type state => exact calm_btcNtfyWlRfk phyMap type state
  | rfkParser table =>
      cases table with
      | none => exact calm_refuse
      | some defs => exact Code.Keeps.ite calm_refuse (calm_parseDefs defs)

theorem calm_access (x : Accessor) : (access x).Keeps Calm := calm_marked (calm_act x)

theorem calm_pollFrom (step timeout : ℕ) (start : UInt64) {ready : Gated Bool} (hready : ready.Keeps Calm) :
    ∀ n, (pollFrom step timeout start ready n).Keeps Calm
  | 0 => calm_fail _
  | n + 1 => by
      refine calm_checked (Code.Keeps.get_bind fun d => calm_told (Code.Keeps.ite (calm_fail _) ?_)) (calm_return false)
      refine Code.Keeps.bind calm_traced hready fun done => ?_
      refine Code.Keeps.modify_bind calm_traced (fun _ => Calm.silent rfl) (calm_checked ?_ (calm_return false))
      refine Code.Keeps.get_bind fun d => calm_told (Code.Keeps.ite (calm_return true) (Code.Keeps.ite (calm_fail _) ?_))
      exact calm_ignored (calm_delay step) (calm_pollFrom step timeout start hready n)

theorem calm_shim (x : Shim) : (shim x).Keeps Calm := by
  have hask : ∀ c : Call, (∀ r, ofLease (.call c r) = false) → (Code.ask c : Gated (Reply c)).Keeps Calm := by
    intro c hc d
    exact (wp_ask c).2 fun r => Calm.event (hc r)
  cases x with
  | access x => exact calm_access x
  | poll step timeout ready =>
      refine calm_ask (fun _ => rfl) fun start => calm_marked ?_
      exact calm_pollFrom _ _ _ (keeps_through calm_traced calm_access ready) _
  | check => exact calm_check
  | fail e => exact calm_fail e
  | armCalibrationTx => exact hask .armCalibrationTx fun _ => rfl
  | stopCalibrationTx => exact hask .stopCalibrationTx fun _ => rfl
  | nowUs => exact hask .startUs fun _ => rfl
  | measured => exact Code.Keeps.get_bind fun _ => calm_return _
  | measure g => exact fun _ => (wp_modify _).2 (Calm.silent rfl)

theorem calm_import (m : Body α) : (import_ m).Keeps Calm := keeps_through calm_traced calm_shim m

theorem calm_judge (bad : Initialization → Bool) : (judge bad).Keeps Calm :=
  Code.Keeps.get_bind fun _ => Code.Keeps.ite (calm_ignored (calm_fail _) (calm_return ())) (calm_return ())

theorem calm_judgeBoth (bad : Fin 2 → Initialization → Bool) : (judgeBoth bad).Keeps Calm :=
  calm_checked (calm_ignored (calm_judge _) (calm_judge _)) (calm_return ())

end Calm

/-! ## Leases -/

def Began (k : Kind) (log : Trace) : Prop := ∃ ok, .call (.begin_ k) ok ∈ log

/-- The step succeeded, and the lease was given back. -/
def Ended (k : Kind) (log : Trace) : Prop := ∃ pre, log = pre ++ [.call (.end_ k true) true]

/-- The lease that is held after an event, if the event is in order: one at a time, and each is given back as what it was
taken for. -/
def settle (held : Option Kind) : Event Call Reply Called → Option (Option Kind)
  | .call (.begin_ k) ok => if held = none then some (if ok then some k else none) else none
  | .call (.end_ k _) ok => if held = some k then some (if ok then none else some k) else none
  | _ => some held

def Leased (held : Option Kind) (log : Trace) (held' : Option Kind) : Prop := log.foldlM settle held = some held'

theorem Leased.trans {held held' held'' : Option Kind} {log log' : Trace} (h : Leased held log held')
    (h' : Leased held' log' held'') : Leased held (log ++ log') held'' := by
  have hlog : log.foldlM settle held = some held' := h
  unfold Leased
  rw [List.foldlM_append, hlog]
  exact h'

theorem settle_quiet (held : Option Kind) {e : Event Call Reply Called} (h : ofLease e = false) :
    settle held e = some held := by
  cases e with
  | note n => rfl
  | call c r =>
      cases c with
      | begin_ k => exact absurd h.symm Bool.false_ne_true
      | end_ k success => exact absurd h.symm Bool.false_ne_true
      | _ => rfl

theorem leased_quiet (held : Option Kind) : ∀ {log : Trace}, (∀ e ∈ log, ofLease e = false) → Leased held log held
  | [], _ => rfl
  | e :: log, h => by
      unfold Leased
      rw [List.foldlM_cons, settle_quiet held (h e List.mem_cons_self)]
      exact leased_quiet held fun e he => h e (List.mem_cons_of_mem _ he)

theorem leased_nil (held : Option Kind) : Leased held [] held := rfl

theorem began_append {k : Kind} {log log' : Trace} : Began k (log ++ log') ↔ Began k log ∨ Began k log' := by
  constructor
  · rintro ⟨ok, h⟩
    rcases List.mem_append.1 h with h | h
    · exact Or.inl ⟨ok, h⟩
    · exact Or.inr ⟨ok, h⟩
  · rintro (⟨ok, h⟩ | ⟨ok, h⟩)
    · exact ⟨ok, List.mem_append_left _ h⟩
    · exact ⟨ok, List.mem_append_right _ h⟩

theorem not_began_quiet {k : Kind} {log : Trace} (h : ∀ e ∈ log, ofLease e = false) : ¬ Began k log := by
  rintro ⟨ok, hmem⟩
  exact Bool.false_ne_true (h _ hmem).symm

/-- One lease of this kind, or none: what the trace of a step shows.  The lease is given back unless there is an error,
and `ok` says that it ended well. -/
structure Led (kind : Kind) (log : Trace) (ok : Bool) (d : Initialization) : Prop where
  ended : ok = true → Ended kind log ∧ d.result.error = .none
  begins : ∀ k, Began k log → k = kind
  leased : ∃ held, Leased none log held ∧ (d.result.error = .none → held = none)

variable {d : Initialization}

theorem failing_error (d : Initialization) {e : Error} (he : e ≠ .none) : (d.failing e).result.error ≠ .none := by
  unfold Initialization.failing
  by_cases h : d.result.error = .none
  · rw [if_pos h]
    exact he
  · rw [if_neg h]
    exact h

theorem check_result (d : Initialization) :
    check.wp (fun log ok d' => Calm d log d' ∧ (ok = true → d'.result.error = .none) ∧
      (ok = false → d'.result.error ≠ .none)) d := by
  refine wp_mono (wp_and (calm_check d) (check_checks d)) fun log ok d' h => ⟨h.1, fun hok => ?_, fun hok => ?_⟩
  · exact fault_none.1 (h.2.opens hok).fault
  · exact fun hnone => h.2.faults hok (fault_none.2 hnone)

/-- What a step is left with when it did not get its lease. -/
structure Refused (kind : Kind) (f : Flags) (log : Trace) (d' : Initialization) : Prop where
  led : Led kind log false d'
  flags : d'.flags = f
  error : d'.result.error ≠ .none

/-- What a step is left with when it gave its lease back. -/
structure Over (kind : Kind) (f : Flags) (log : Trace) (ok : Bool) (d' : Initialization) : Prop where
  led : Led kind log ok d'
  flags : d'.flags = f
  error : ok = false → d'.result.error ≠ .none

theorem flags_failHard (d : Initialization) (e : Error) : ((d.failing e).needingReset).flags = d.flags :=
  flags_failing d e

/-- The lease is granted, and there is no error; or there is one. -/
theorem begin_spec (kind : Kind) (stage : Stage) (d : Initialization) :
    (begin_ kind stage).wp (fun log ok d' => d'.flags = (d.entered stage).flags ∧
      (ok = true → ∃ pre, log = pre ++ [.call (.begin_ kind) true] ∧ (∀ e ∈ pre, ofLease e = false) ∧
        d'.result.error = .none) ∧
      (ok = false → Refused kind (d.entered stage).flags log d')) d := by
  unfold begin_
  rw [wp_modify_bind, wp_bind]
  refine wp_mono (check_result _) fun log ok d₁ h => ?_
  rcases h with ⟨hcalm, hnone, hsome⟩
  cases ok with
  | false =>
      rw [if_neg Bool.false_ne_true, wp_pure, List.append_nil]
      refine ⟨hcalm.flags, fun hno => absurd hno Bool.false_ne_true, fun _ => ⟨⟨?_, ?_, ?_⟩, hcalm.flags, hsome rfl⟩⟩
      · exact fun hno => absurd hno Bool.false_ne_true
      · exact fun k hk => absurd hk (not_began_quiet hcalm.quiet)
      · exact ⟨none, leased_quiet none hcalm.quiet, fun _ => rfl⟩
  | true =>
      rw [if_pos rfl, wp_modify_bind, wp_ask_bind]
      intro r
      cases r with
      | true =>
          rw [if_pos rfl, wp_pure]
          exact ⟨hcalm.flags, fun _ => ⟨log, rfl, hcalm.quiet, hnone rfl⟩, fun hno => absurd hno.symm Bool.false_ne_true⟩
      | false =>
          -- A request that is not granted: nothing is held, and there is an error.
          rw [if_neg Bool.false_ne_true]
          unfold failHard
          rw [wp_modify_bind, wp_pure]
          have hflags := (flags_failHard (d₁.leasing false) .precondition).trans hcalm.flags
          refine ⟨hflags, fun hno => absurd hno Bool.false_ne_true, fun _ => ⟨⟨?_, ?_, ?_⟩, hflags, ?_⟩⟩
          · exact fun hno => absurd hno Bool.false_ne_true
          · rintro k ⟨ok, hk⟩
            rcases List.mem_append.1 hk with hk | hk
            · exact absurd ⟨_, hk⟩ (not_began_quiet hcalm.quiet)
            · cases List.mem_singleton.1 hk
              rfl
          · exact ⟨none, (leased_quiet none hcalm.quiet).trans rfl, fun _ => rfl⟩
          · exact failing_error _ (by decide)

theorem drained_spec (d : Initialization) :
    drained.wp (fun log ok d' => Calm d log d' ∧ (ok = true → d'.result.error = .none) ∧
      (ok = false → d'.result.error ≠ .none)) d := by
  unfold drained
  rw [wp_bind]
  refine wp_mono (check_result d) fun log ok d₁ h => ?_
  rcases h with ⟨hcalm, hnone, hsome⟩
  cases ok with
  | false =>
      rw [if_neg Bool.false_ne_true, wp_pure, List.append_nil]
      exact ⟨hcalm, hnone, hsome⟩
  | true =>
      rw [if_pos rfl, wp_ask_bind]
      intro r
      cases r with
      | true =>
          rw [if_pos rfl, wp_pure]
          exact ⟨calm_traced.trans hcalm (Calm.event rfl), fun _ => hnone rfl, fun hno => absurd hno.symm Bool.false_ne_true⟩
      | false =>
          rw [if_neg Bool.false_ne_true, wp_fail]
          refine ⟨?_, fun hno => absurd hno Bool.false_ne_true, fun _ => failing_error _ (by decide)⟩
          exact calm_traced.trans hcalm ⟨flags_failing _ _, fun _ he => (List.mem_singleton.1 he) ▸ rfl⟩

/-- A lease that is held is given back as what it was taken for. -/
theorem end_spec (kind : Kind) (d : Initialization) :
    (end_ kind).wp (fun log ok d' => d'.flags = d.flags ∧ (∀ k, ¬ Began k log) ∧
      (ok = true → Ended kind log ∧ d'.result.error = .none) ∧ (ok = false → d'.result.error ≠ .none) ∧
      ∃ held, Leased (some kind) log held ∧ (d'.result.error = .none → held = none)) d := by
  unfold end_
  rw [wp_bind]
  refine wp_mono (drained_spec d) fun log ok d₁ h => ?_
  rcases h with ⟨hcalm, hnone, hsome⟩
  rw [wp_ask_bind]
  intro released
  rw [wp_modify_bind]
  have hbegan : ∀ k, ¬ Began k (log ++ [.call (.end_ kind ok) released]) := by
    rintro k ⟨r, hk⟩
    rcases List.mem_append.1 hk with hk | hk
    · exact absurd ⟨_, hk⟩ (not_began_quiet hcalm.quiet)
    · cases List.mem_singleton.1 hk
  have hleased : ∀ held, settle (some kind) (.call (.end_ kind ok) released) = some held →
      Leased (some kind) (log ++ [.call (.end_ kind ok) released]) held := by
    intro held hsettle
    refine (leased_quiet _ hcalm.quiet).trans ?_
    unfold Leased
    rw [List.foldlM_cons, hsettle]
    rfl
  cases released with
  | true =>
      rw [if_pos rfl, wp_modify_bind, wp_pure]
      refine ⟨hcalm.flags, hbegan, fun hok => ⟨?_, hnone hok⟩, hsome, none, hleased none (if_pos rfl), fun _ => rfl⟩
      rw [hok]
      exact ⟨log, rfl⟩
  | false =>
      -- The lease is not taken back: it stays held, and there is an error.
      rw [if_neg Bool.false_ne_true]
      unfold failHard
      rw [wp_modify_bind, wp_pure]
      have herror : ((d₁.leasing false).failing .io).needingReset.result.error ≠ .none := failing_error _ (by decide)
      exact ⟨(flags_failHard _ _).trans hcalm.flags, hbegan, fun hno => absurd hno Bool.false_ne_true, fun _ => herror,
        some kind, hleased _ (if_pos rfl), fun hno => absurd hno herror⟩

/-- A step is refused its lease, or gives it back and does the rest. -/
theorem wp_leased {kind : Kind} {stage : Stage} {body : Gated Unit} {done : Bool → Gated Bool}
    {Q : Trace → Bool → Initialization → Prop} (hbody : body.Keeps Calm)
    (hrefused : ∀ log d', Refused kind (d.entered stage).flags log d' → Q log false d')
    (hover : ∀ log ok d', Over kind (d.entered stage).flags log ok d' →
      (done ok).wp (fun log' r d'' => Q (log ++ log') r d'') d') :
    (leased kind stage body done).wp Q d := by
  unfold leased freshBudget
  rw [wp_modify_bind, wp_bind]
  refine wp_mono (begin_spec kind stage _) fun log ok d₁ h => ?_
  rcases h with ⟨hflags, hyes, hno⟩
  cases ok with
  | false =>
      rw [if_neg Bool.false_ne_true, wp_pure, List.append_nil]
      exact hrefused log d₁ (hno rfl)
  | true =>
      rw [if_pos rfl, wp_bind]
      rcases hyes rfl with ⟨pre, rfl, hpre, -⟩
      -- Only the first and the last part of the trace are about the lease.
      refine wp_mono (hbody d₁) fun log₁ _ d₂ hcalm => ?_
      rw [wp_bind]
      refine wp_mono (end_spec kind d₂) fun log₂ ok d₃ hend => ?_
      rcases hend with ⟨hflags', hnone, hok, herror, held, hheld, hfree⟩
      have hover' : Over kind (d.entered stage).flags (pre ++ [.call (.begin_ kind) true] ++ (log₁ ++ log₂)) ok d₃ := by
        refine ⟨⟨fun h => ⟨?_, (hok h).2⟩, ?_, held, ?_, hfree⟩, hflags'.trans (hcalm.flags.trans hflags), herror⟩
        · rcases (hok h).1 with ⟨last, rfl⟩
          exact ⟨pre ++ [.call (.begin_ kind) true] ++ (log₁ ++ last), by simp only [List.append_assoc]⟩
        · intro k hk
          rcases began_append.1 hk with hk | hk
          · rcases began_append.1 hk with hk | ⟨r, hk⟩
            · exact absurd hk (not_began_quiet hpre)
            · cases List.mem_singleton.1 hk
              rfl
          · rcases began_append.1 hk with hk | hk
            · exact absurd hk (not_began_quiet hcalm.quiet)
            · exact absurd hk (hnone k)
        · have hbegin : Leased none (pre ++ [.call (.begin_ kind) true]) (some kind) := (leased_quiet none hpre).trans rfl
          exact hbegin.trans ((leased_quiet _ hcalm.quiet).trans hheld)
      have hdone := hover _ ok d₃ hover'
      refine wp_mono hdone fun log₃ r d₄ hQ => ?_
      simpa only [List.append_assoc] using hQ

end Rfk
end Rtl8852be
