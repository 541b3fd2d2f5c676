import Rtl8852be.Interaction.History
import Rtl8852be.Interaction.Latch
import Rtl8852be.RfkIo.MacRfkIo

/-!
# Lease — what the calibration lease protects

* `Sane` — an armed emitter needs a running engine, and an engine needs the lease;
* `Safe` — registers are written, and writes are handed on, only while the lease is held and not lost;
* `Released` — what was done before the lease was given back;
* `calibration_lease` — all of this for every run.
-/

namespace Rtl8852be
namespace RfkIo

open Interaction
open Rfk (Kind suspicious)

/-! ## What is protected -/

structure Sane (d : MacRfkIo) : Prop where
  armed : d.txArmed = true → d.active = true ∧ d.kind = .tssi ∧ d.oneshotActive = true
  engine : d.oneshotActive = true → d.active = true
  lost : d.leaseLost = true → d.active = true
  modified : d.modified = true → d.active = true
  complete : d.active = true → d.control.complete = true

/-- The lease as a trace shows it: whether it is held, and whether a check failed since. -/
abbrev Held := Bool × Bool

def hold (m : Held) : Event Call Reply Note → Held
  | .note .acquired => (true, false)
  | .note .released => (false, m.2)
  | .call (.check _) ok => (m.1, m.2 || !ok)
  | .call (.recover _) ok => (m.1, m.2 && !ok)
  | _ => m

/-- A register is written, or a write is handed to `RadioAccess`. -/
def writes : Event Call Reply Note → Bool
  | .call (.write32 _ _) _ | .call (.write8 _ _) _ | .note .handed => true
  | _ => false

def Safe : Held → Trace → Prop
  | _, [] => True
  | m, e :: log => (writes e = true → m = (true, false)) ∧ Safe (hold m e) log

theorem safe_append {m : Held} {log log' : Trace} :
    Safe m (log ++ log') ↔ Safe m log ∧ Safe (log.foldl hold m) log' := by
  induction log generalizing m with
  | nil => exact ⟨fun h => ⟨trivial, h⟩, fun h => h.2⟩
  | cons e log ih => rw [List.cons_append, Safe, Safe, ih, List.foldl_cons, and_assoc]

def MacRfkIo.held (d : MacRfkIo) : Held := (d.active, d.leaseLost)

/-- The lease is kept as it should be. -/
structure Leases (d : MacRfkIo) (log : Trace) (d' : MacRfkIo) : Prop where
  control : d'.control = d.control
  sane : Sane d → Sane d'
  held : Sane d → log.foldl hold d.held = d'.held
  safe : Sane d → Safe d.held log

theorem leases_traced : Traced Leases where
  refl d := ⟨rfl, id, fun _ => rfl, fun _ => trivial⟩
  trans h h' := by
    refine ⟨h'.control.trans h.control, fun hs => h'.sane (h.sane hs), fun hs => ?_, fun hs => ?_⟩
    · rw [List.foldl_append, h.held hs, h'.held (h.sane hs)]
    · rw [safe_append, h.held hs]
      exact ⟨h.safe hs, h'.safe (h.sane hs)⟩

def Retains (log : Trace) : Prop := ∀ e ∈ log, e ≠ .note .released

def Lossless (log : Trace) : Prop := ∀ k, .call (.check k) false ∉ log

/-- Code that does not give the lease back. -/
structure Under (d : MacRfkIo) (log : Trace) (d' : MacRfkIo) : Prop extends Leases d log d' where
  retains : Retains log

theorem under_traced : Traced Under where
  refl d := ⟨leases_traced.refl d, fun _ he => absurd he List.not_mem_nil⟩
  trans h h' := ⟨leases_traced.trans h.toLeases h'.toLeases,
    fun e he => (List.mem_append.1 he).elim (h.retains e) (h'.retains e)⟩

section Rules

variable {d d' : MacRfkIo} {e : Event Call Reply Note}

theorem retains_singleton (he : e ≠ .note .released) : Retains [e] :=
  fun _ he' => (List.mem_singleton.1 he') ▸ he

/-- A call that is no write and shows nothing of the lease. -/
theorem under_neutral (hhold : ∀ m, hold m e = m) (hwrites : writes e = false) (he : e ≠ .note .released) :
    Under d [e] d := by
  refine ⟨⟨rfl, id, fun _ => hhold d.held, fun _ => ⟨fun h => ?_, trivial⟩⟩, retains_singleton he⟩
  rw [hwrites] at h
  exact absurd h Bool.false_ne_true

theorem under_silent (hcontrol : d'.control = d.control) (hheld : d'.held = d.held) (hsane : Sane d → Sane d') :
    Under d [] d' :=
  ⟨⟨hcontrol, hsane, fun _ => hheld.symm, fun _ => trivial⟩, fun _ he => absurd he List.not_mem_nil⟩

theorem under_write (hhold : ∀ m, hold m e = m) (he : e ≠ .note .released) (hheld : d.held = (true, false)) :
    Under d [e] d :=
  ⟨⟨rfl, id, fun _ => hhold d.held, fun _ => ⟨fun _ => hheld, trivial⟩⟩, retains_singleton he⟩

theorem keeps_return {α : Type} (x : α) : (pure x : Gated α).Keeps Under := Code.Keeps.pure under_traced x

/-! ## Looking at the lease -/

/-- Code that only looks: if it says yes, nothing has changed and the lease was not found lost. -/
structure Looks (needs : Bool) (d : MacRfkIo) (log : Trace) (ok : Bool) (d' : MacRfkIo) : Prop where
  under : Under d log d'
  active : d'.active = d.active
  same : ok = true → d' = d
  lossless : ok = true → Lossless log
  held : ok = true → needs = true → d.active = true → d.held = (true, false)

theorem lossless_nil : Lossless [] := fun _ h => absurd h List.not_mem_nil

variable {log log' : Trace}

theorem Lossless.append (h : Lossless log) (h' : Lossless log') : Lossless (log ++ log') :=
  fun k hk => (List.mem_append.1 hk).elim (h k) (h' k)

theorem Lossless.cons (he : ∀ k, .call (.check k) false ≠ e) (h : Lossless log) : Lossless (e :: log) :=
  fun k hk => (List.mem_cons.1 hk).elim (he k) (h k)

theorem check_ne (k' k : Kind) : (.call (.check k) false : Event Call Reply Note) ≠ .call (.check k') true := by
  intro h
  cases h

variable {needs ok : Bool}

theorem looks_no (h : Under d log d') (hactive : d'.active = d.active) :
    Looks needs d log false d' :=
  ⟨h, hactive, fun h => absurd h Bool.false_ne_true, fun h => absurd h Bool.false_ne_true,
    fun h => absurd h Bool.false_ne_true⟩

theorem under_lose (k : Kind) (hactive : d.active = true) :
    Under d [.call (.check k) false] { d with leaseLost := true } := by
  refine ⟨⟨rfl, fun hs => ?_, fun _ => ?_, fun _ => ⟨fun h => absurd h Bool.false_ne_true, trivial⟩⟩,
    retains_singleton nofun⟩
  · exact ⟨hs.armed, hs.engine, fun _ => hactive, hs.modified, hs.complete⟩
  · show (d.active, d.leaseLost || true) = (d.active, true)
    rw [Bool.or_true]

theorem under_lose_silent (hactive : d.active = true) (hcheck : d.control.check = false) :
    Under d [] { d with leaseLost := true } := by
  -- A lease is only taken with all of the control, so this does not happen.
  have hnot : ¬ Sane d := by
    intro hs
    have hcomplete := hs.complete hactive
    unfold CalibrationControl.complete at hcomplete
    rw [hcheck, Bool.and_false] at hcomplete
    exact absurd hcomplete Bool.false_ne_true
  exact ⟨⟨rfl, fun hs => absurd hs hnot, fun hs => absurd hs hnot, fun hs => absurd hs hnot⟩,
    fun _ he => absurd he List.not_mem_nil⟩

theorem checkLease_looks (d : MacRfkIo) :
    checkLease.wp (fun log ok d' => Looks true d log ok d' ∧ (ok = true → d.active = true)) d := by
  unfold checkLease lose
  rw [wp_get_bind]
  by_cases hgone : (!d.active || d.leaseLost) = true
  · rw [if_pos hgone, wp_pure]
    exact ⟨looks_no (under_traced.refl d) rfl, fun h => absurd h Bool.false_ne_true⟩
  rw [if_neg hgone]
  simp only [Bool.or_eq_true, Bool.not_eq_true', not_or, Bool.not_eq_false, Bool.not_eq_true] at hgone
  rcases hgone with ⟨hactive, hlost⟩
  cases hcheck : d.control.check with
  | false =>
      rw [if_pos (show (!false) = true from rfl), wp_modify_bind, wp_pure]
      exact ⟨looks_no (under_lose_silent hactive hcheck) rfl, fun h => absurd h Bool.false_ne_true⟩
  | true =>
      rw [if_neg (by decide), wp_ask_bind]
      intro ok
      cases ok with
      | true =>
          rw [if_pos rfl, wp_pure]
          refine ⟨⟨?_, rfl, fun _ => rfl, fun _ => lossless_nil.cons (check_ne d.kind), fun _ _ _ => ?_⟩, fun _ => hactive⟩
          · refine under_neutral (fun m => ?_) rfl nofun
            show (m.1, m.2 || false) = m
            rw [Bool.or_false]
          · unfold MacRfkIo.held
            rw [hactive, hlost]
      | false =>
          rw [if_neg Bool.false_ne_true, wp_modify_bind, wp_pure]
          exact ⟨looks_no (under_lose d.kind hactive) rfl, fun h => absurd h Bool.false_ne_true⟩

theorem Looks.trans (h : Looks needs d log true d) (h' : Looks needs d log' ok d') :
    Looks needs d (log ++ log') ok d' :=
  ⟨under_traced.trans h.under h'.under, h'.active, h'.same, fun hok => (h.lossless rfl).append (h'.lossless hok), h'.held⟩

theorem Looks.after (h : Looks needs d log ok d') (hhold : ∀ m, hold m e = m) (hwrites : writes e = false)
    (he : e ≠ .note .released) (hcheck : ∀ k, .call (.check k) false ≠ e) : Looks needs d (e :: log) ok d' :=
  ⟨under_traced.trans (under_neutral hhold hwrites he) h.under, h.active, h.same,
    fun hok => (h.lossless hok).cons hcheck, h.held⟩

theorem accessible_looks (needs : Bool) (d : MacRfkIo) :
    (accessible needs).wp (fun log ok d' => Looks needs d log ok d') d := by
  unfold accessible
  rw [wp_get_bind]
  by_cases hgone : (!d.valid || d.stopped) = true
  · rw [if_pos hgone, wp_pure]
    exact looks_no (under_traced.refl d) rfl
  rw [if_neg hgone, wp_ask_bind]
  intro command
  by_cases hpresent : (!presentCommand command) = true
  · rw [if_pos hpresent, wp_pure]
    exact (looks_no (under_traced.refl d) rfl).after (fun _ => rfl) rfl nofun nofun
  rw [if_neg hpresent, wp_get_bind]
  by_cases hfree : (!needs || !d.active) = true
  · rw [if_pos hfree, wp_pure]
    refine Looks.after ⟨under_traced.refl d, rfl, fun _ => rfl, fun _ => lossless_nil, fun _ hneeds hactive => ?_⟩
      (fun _ => rfl) rfl nofun nofun
    rw [hneeds, hactive] at hfree
    exact absurd hfree (by decide)
  · rw [if_neg hfree]
    refine wp_mono (checkLease_looks d) fun log ok d' h => ?_
    have hlook : Looks needs d log ok d' :=
      ⟨h.1.under, h.1.active, h.1.same, h.1.lossless, fun hok _ hactive => h.1.held hok rfl hactive⟩
    exact hlook.after (fun _ => rfl) rfl nofun nofun

theorem macRead_looks (a : UInt32) (needs : Bool) (d : MacRfkIo) :
    (macRead a needs).wp (fun log r d' => Looks needs d log r.1 d') d := by
  unfold macRead
  rw [wp_bind]
  refine wp_mono (accessible_looks needs d) fun log ok d₁ hfirst => ?_
  cases ok with
  | false =>
      rw [if_neg Bool.false_ne_true, wp_pure, List.append_nil]
      exact hfirst
  | true =>
      have hsame := hfirst.same rfl
      subst hsame
      have hno : Looks needs d₁ (log ++ []) false d₁ := hfirst.trans (looks_no (under_traced.refl d₁) rfl)
      rw [if_pos rfl]
      by_cases haddress : a &&& 3 ≠ 0 ∨ 0x10000 ≤ a
      · rw [if_pos haddress, wp_pure]
        exact hno
      rw [if_neg haddress, wp_ask_bind]
      intro v
      by_cases hbad : suspicious v = true
      · rw [if_pos hbad, wp_pure]
        exact hfirst.trans ((looks_no (under_traced.refl d₁) rfl).after (fun _ => rfl) rfl nofun nofun)
      · rw [if_neg hbad, wp_bind]
        refine wp_mono (accessible_looks needs d₁) fun log' ok d' h => ?_
        rw [wp_pure, List.append_nil]
        exact hfirst.trans (h.after (fun _ => rfl) rfl nofun nofun)

theorem macMatches_looks (a : UInt32) (wanted : UInt32 → Bool) (needs : Bool) (d : MacRfkIo) :
    (macMatches a wanted needs).wp (fun log ok d' => Looks needs d log ok d') d := by
  unfold macMatches
  rw [wp_bind]
  refine wp_mono (macRead_looks a needs d) fun log r d' h => ?_
  rw [wp_pure, List.append_nil]
  cases hr : r.1 with
  | false => exact looks_no h.under h.active
  | true =>
      rw [hr] at h
      cases hw : wanted r.2 with
      | false => exact looks_no h.under h.active
      | true => exact h

theorem every_looks {ms : List (Gated Bool)} (hms : ∀ m ∈ ms, ∀ d, m.wp (fun log ok d' => Looks needs d log ok d') d)
    (hne : ms ≠ []) (d : MacRfkIo) :
    (Code.every ms).wp (fun log ok d' => Looks needs d log ok d') d := by
  induction ms generalizing d with
  | nil => exact absurd rfl hne
  | cons m ms ih =>
      rw [Code.every, Code.wp_both]
      refine wp_mono (hms m List.mem_cons_self d) fun log ok d₁ h => ⟨fun hok => ?_, fun hok => ?_⟩
      · subst hok
        have hsame := h.same rfl
        subst hsame
        cases ms with
        | nil =>
            rw [Code.every, wp_pure, List.append_nil]
            exact h
        | cons m' ms' =>
            refine wp_mono (ih (fun m hm => hms m (List.mem_cons_of_mem _ hm)) (List.cons_ne_nil _ _) d₁) ?_
            exact fun log' ok d' h' => h.trans h'
      · subst hok
        exact h

/-! ## Emission and engine -/

/-- The enables of the emission were cleared, and read back as clear. -/
def EmissionStopped (log : Trace) : Prop :=
  ∃ pre old readback post, log = pre ++ .call (.stopTx (old &&& ~~~emissionEnables)) () ::
    .call (.read32 pmacTxPrd) readback :: post ∧ suspicious readback = false ∧ readback &&& emissionEnables = 0

theorem EmissionStopped.append (h : EmissionStopped log) (log' : Trace) :
    EmissionStopped (log ++ log') := by
  rcases h with ⟨pre, old, readback, post, rfl, hgood⟩
  refine ⟨pre, old, readback, post ++ log', ?_, hgood⟩
  rw [List.append_assoc, List.cons_append, List.cons_append]

theorem under_call (h : Under d log d') (hhold : ∀ m, hold m e = m) (hwrites : writes e = false)
    (he : e ≠ .note .released) : Under d (e :: log) d' :=
  under_traced.trans (under_neutral hhold hwrites he) h

def MacRfkIo.disarmed (d : MacRfkIo) : MacRfkIo := { d with txArmed := false }

theorem under_disarm : Under d [] d.disarmed :=
  under_silent rfl rfl fun hs => ⟨fun h => absurd h Bool.false_ne_true, hs.engine, hs.lost, hs.modified, hs.complete⟩

theorem stopCalibrationTx_spec (d : MacRfkIo) :
    stopCalibrationTx.wp (fun log ok d' => Under d log d' ∧ (ok = true → d' = d.disarmed ∧ Lossless log ∧
      (d.txArmed = true → EmissionStopped log))) d := by
  have hno : ∀ {P : Prop}, false = true → P := fun h => absurd h Bool.false_ne_true
  have hrefl := under_traced.refl d
  unfold stopCalibrationTx
  rw [wp_get_bind]
  by_cases harmed : (!d.txArmed) = true
  · rw [if_pos harmed, wp_pure]
    have hfalse : d.txArmed = false := by rw [← Bool.not_eq_true']; exact harmed
    refine ⟨hrefl, fun _ => ⟨?_, lossless_nil, fun h => absurd (hfalse.symm.trans h) Bool.false_ne_true⟩⟩
    unfold MacRfkIo.disarmed
    rw [← hfalse]
  rw [if_neg harmed]
  by_cases hwrong : (!d.active || d.kind != .tssi || !d.valid) = true
  · rw [if_pos hwrong, wp_pure]
    exact ⟨hrefl, hno⟩
  rw [if_neg hwrong, wp_ask_bind]
  intro command
  by_cases hpresent : (!presentCommand command) = true
  · rw [if_pos hpresent, wp_pure]
    exact ⟨under_call hrefl (fun _ => rfl) rfl nofun, hno⟩
  rw [if_neg hpresent, wp_ask_bind]
  intro old
  have hread : Under d [.call .command command, .call (.read32 pmacTxPrd) old] d :=
    under_call (under_call hrefl (fun _ => rfl) rfl nofun) (fun _ => rfl) rfl nofun
  by_cases hold : suspicious old = true
  · rw [if_pos hold, wp_pure]
    exact ⟨hread, hno⟩
  rw [if_neg hold, wp_ask_bind]
  intro u
  rw [wp_ask_bind]
  intro readback
  have hafter : Under d [.call (.stopTx (old &&& ~~~emissionEnables)) u, .call (.read32 pmacTxPrd) readback] d :=
    under_call (under_call hrefl (fun _ => rfl) rfl nofun) (fun _ => rfl) rfl nofun
  have hall := under_traced.trans hread hafter
  by_cases hbad : (suspicious readback || readback &&& emissionEnables != 0) = true
  · rw [if_pos hbad, wp_pure]
    exact ⟨hall, hno⟩
  · rw [if_neg hbad, wp_modify_bind, wp_pure]
    simp only [Bool.or_eq_true, not_or, Bool.not_eq_true, bne_eq_false_iff_eq] at hbad
    refine ⟨under_traced.trans hall under_disarm, fun _ => ⟨rfl, ?_, fun _ => ?_⟩⟩
    · refine Lossless.cons ?_ (Lossless.cons ?_ (Lossless.cons ?_ (Lossless.cons ?_ lossless_nil))) <;> exact nofun
    · exact ⟨[.call .command command, .call (.read32 pmacTxPrd) old], old, readback, [], rfl, hbad.1, hbad.2⟩

theorem under_accessible {α : Type} {m m' : Gated α}
    (hm : (d.active = true → d.held = (true, false)) → m.wp (fun log _ d' => Under d log d') d)
    (hm' : m'.Keeps Under) :
    (do if ← accessible true then m else m').wp (fun log _ d' => Under d log d') d := by
  rw [wp_bind]
  refine wp_mono (accessible_looks true d) fun log ok d₁ h => ?_
  cases ok with
  | true =>
      have hsame := h.same rfl
      subst hsame
      rw [if_pos rfl]
      exact wp_mono (hm fun hactive => h.held rfl rfl hactive) fun log' _ d' h' => under_traced.trans h.under h'
  | false =>
      rw [if_neg Bool.false_ne_true]
      exact wp_mono (hm' d₁) fun log' _ d' h' => under_traced.trans h.under h'

theorem keeps_armCalibrationTx : armCalibrationTx.Keeps Under := by
  intro d
  unfold armCalibrationTx
  rw [wp_get_bind]
  by_cases hwrong : (!d.active || d.kind != .tssi || d.txArmed || !d.oneshotActive) = true
  · rw [if_pos hwrong, wp_pure]
    exact under_traced.refl d
  rw [if_neg hwrong]
  simp only [Bool.or_eq_true, not_or, Bool.not_eq_true', Bool.not_eq_true, Bool.not_eq_false, bne_eq_false_iff_eq]
    at hwrong
  rcases hwrong with ⟨⟨⟨hactive, hkind⟩, -⟩, hengine⟩
  refine under_accessible (fun _ => ?_) (keeps_return false)
  rw [wp_modify_bind, wp_pure]
  exact under_silent rfl rfl fun hs => ⟨fun _ => ⟨hactive, hkind, hengine⟩, hs.engine, hs.lost, hs.modified, hs.complete⟩

theorem keeps_startOneshot (kind : Kind) (phyMap : UInt8) {d : MacRfkIo} (hactive : d.active = true) :
    (startOneshot kind phyMap).wp (fun log _ d' => Under d log d') d := by
  unfold startOneshot
  rw [wp_get_bind]
  by_cases hrunning : d.oneshotActive = true
  · rw [if_pos hrunning, wp_pure]
    exact under_traced.refl d
  rw [if_neg hrunning]
  refine under_accessible (fun _ => ?_) (keeps_return false)
  rw [wp_ask_bind]
  intro ok
  refine wp_mono (Q := fun log _ d' => Under d log d') ?_
    fun log _ d' h => under_call h (fun _ => rfl) rfl nofun
  cases ok with
  | true =>
      rw [if_pos rfl, wp_modify_bind, wp_pure]
      refine under_silent rfl rfl fun hs => ⟨fun harmed => ?_, fun _ => hactive, hs.lost, hs.modified, hs.complete⟩
      exact absurd (hs.armed harmed).2.2 hrunning
  | false =>
      rw [if_neg Bool.false_ne_true, wp_pure]
      exact under_traced.refl d

def MacRfkIo.idled (d : MacRfkIo) : MacRfkIo := { d with oneshotActive := false }

theorem stopOneshot_spec (kind : Kind) (phyMap : UInt8) (d : MacRfkIo) :
    (stopOneshot kind phyMap).wp (fun log ok d' => Under d log d' ∧ (ok = true → d' = d.idled ∧ Lossless log ∧
      .call (.oneshot kind phyMap false) true ∈ log)) d := by
  have hno : ∀ {P : Prop}, false = true → P := fun h => absurd h Bool.false_ne_true
  unfold stopOneshot
  rw [wp_get_bind]
  by_cases hwrong : (d.txArmed || !d.oneshotActive || phyMap != d.oneshotMap) = true
  · rw [if_pos hwrong, wp_pure]
    exact ⟨under_traced.refl d, hno⟩
  rw [if_neg hwrong, wp_ask_bind]
  intro ok
  cases ok with
  | true =>
      simp only [Bool.or_eq_true, not_or, Bool.not_eq_true', Bool.not_eq_true, Bool.not_eq_false] at hwrong
      have hquiet : Under d [] d.idled := under_silent rfl rfl fun hs =>
        ⟨fun harmed => absurd (hwrong.1.1.symm.trans harmed) Bool.false_ne_true,
          fun h => absurd h Bool.false_ne_true, hs.lost, hs.modified, hs.complete⟩
      rw [if_pos rfl, wp_modify_bind, wp_pure]
      refine ⟨under_call hquiet (fun _ => rfl) rfl nofun, fun _ => ⟨rfl, lossless_nil.cons nofun, ?_⟩⟩
      exact List.mem_cons_self
  | false =>
      rw [if_neg Bool.false_ne_true, wp_pure]
      exact ⟨under_call (under_traced.refl d) (fun _ => rfl) rfl nofun, hno⟩

theorem keeps_oneshot (kind : Kind) (phyMap : UInt8) (start : Bool) : (oneshot kind phyMap start).Keeps Under := by
  intro d
  unfold oneshot
  rw [wp_get_bind]
  by_cases hwrong : (!d.active || kind != d.kind || !d.control.oneshot) = true
  · rw [if_pos hwrong, wp_pure]
    exact under_traced.refl d
  rw [if_neg hwrong]
  simp only [Bool.or_eq_true, not_or, Bool.not_eq_true', Bool.not_eq_false] at hwrong
  cases start with
  | true =>
      rw [if_pos rfl]
      exact keeps_startOneshot kind phyMap hwrong.1.1
  | false =>
      rw [if_neg Bool.false_ne_true]
      exact wp_mono (stopOneshot_spec kind phyMap d) fun _ _ _ h => h.1

/-! ## Giving the lease back -/

/-- What was done before the lease was given back, which is the last thing done. -/
structure Released (d : MacRfkIo) (kind : Kind) (success : Bool) (log : Trace) : Prop where
  active : d.active = true
  its : kind = d.kind
  stopped : d.txArmed = true → EmissionStopped log
  idle : d.oneshotActive = true → .call (.oneshot kind d.oneshotMap false) true ∈ log
  recovered : success = false → d.modified = true ∨ d.leaseLost = true → .call (.recover kind) true ∈ log
  ended : .call (.end_ kind success) true ∈ log
  confirmed : success = true → .call (.check kind) true ∈ log ∧ Lossless log
  last : ∃ before, log = before ++ [.note .released] ∧ Retains before

/-- The result of giving the lease back, if `K` is what is known then. -/
structure Ends (K : Trace → Prop) (d : MacRfkIo) (log : Trace) (ok : Bool) (d' : MacRfkIo) : Prop where
  leases : Leases d log d'
  known : ok = true → K log
  retained : ok = false → Retains log

/-- One statement of `end`, and the rest. -/
theorem ends_step {K : Trace → Prop} {m : Gated Bool} {ms : List (Gated Bool)} {F : Trace → MacRfkIo → Prop}
    (hm : m.wp (fun log ok d' => Under d log d' ∧ (ok = true → F log d')) d)
    (hms : ∀ log d', Retains log → F log d' → (Code.every ms).wp (fun log' ok d'' => Ends (fun l => K (log ++ l)) d' log' ok d'') d') :
    (Code.every (m :: ms)).wp (fun log ok d' => Ends K d log ok d') d := by
  rw [Code.every, Code.wp_both]
  refine wp_mono hm fun log ok d₁ h => ⟨fun hok => ?_, fun _ => ?_⟩
  · refine wp_mono (hms log d₁ h.1.retains (h.2 hok)) fun log' ok' d' h' => ⟨?_, h'.known, fun hno => ?_⟩
    · exact leases_traced.trans h.1.toLeases h'.leases
    · exact fun e he => (List.mem_append.1 he).elim (h.1.retains e) (h'.retained hno e)
  · exact ⟨h.1.toLeases, fun hyes => absurd hyes Bool.false_ne_true, fun _ => h.1.retains⟩

theorem stopEmission_spec (d : MacRfkIo) :
    stopEmission.wp (fun log ok d' => Under d log d' ∧ (ok = true → d' = d.disarmed ∧ Lossless log ∧
      (d.txArmed = true → EmissionStopped log))) d := by
  unfold stopEmission
  rw [wp_get_bind]
  cases harmed : d.txArmed with
  | true =>
      rw [if_pos rfl]
      refine wp_mono (stopCalibrationTx_spec d) fun log ok d' h => ⟨h.1, fun hok => ?_⟩
      exact ⟨(h.2 hok).1, (h.2 hok).2.1, fun _ => (h.2 hok).2.2 harmed⟩
  | false =>
      rw [if_neg Bool.false_ne_true, wp_pure]
      refine ⟨under_traced.refl d, fun _ => ⟨?_, lossless_nil, fun h => absurd h Bool.false_ne_true⟩⟩
      unfold MacRfkIo.disarmed
      rw [← harmed]

theorem checkLease_asks (d : MacRfkIo) :
    checkLease.wp (fun log ok _ => ok = true → .call (.check d.kind) true ∈ log ∧ d.leaseLost = false) d := by
  have hno : ∀ {P : Prop}, false = true → P := fun h => absurd h Bool.false_ne_true
  unfold checkLease lose
  rw [wp_get_bind]
  by_cases hgone : (!d.active || d.leaseLost) = true
  · rw [if_pos hgone, wp_pure]
    exact hno
  rw [if_neg hgone]
  by_cases hcheck : (!d.control.check) = true
  · rw [if_pos hcheck, wp_modify_bind, wp_pure]
    exact hno
  rw [if_neg hcheck, wp_ask_bind]
  intro ok
  cases ok with
  | true =>
      simp only [Bool.or_eq_true, not_or, Bool.not_eq_true] at hgone
      rw [if_pos rfl, wp_pure]
      exact fun _ => ⟨List.mem_cons_self, hgone.2⟩
  | false =>
      rw [if_neg Bool.false_ne_true, wp_modify_bind, wp_pure]
      exact hno

theorem confirmLease_spec (success : Bool) (d : MacRfkIo) :
    (confirmLease success).wp (fun log ok d' => Under d log d' ∧ (ok = true → d' = d ∧ Lossless log ∧
      (success = true → .call (.check d.kind) true ∈ log ∧ d.leaseLost = false))) d := by
  unfold confirmLease
  cases success with
  | true =>
      rw [if_pos rfl]
      refine wp_mono (wp_and (checkLease_looks d) (checkLease_asks d)) fun log ok d' h => ?_
      exact ⟨h.1.1.under, fun hok => ⟨h.1.1.same hok, h.1.1.lossless hok, fun _ => h.2 hok⟩⟩
  | false =>
      rw [if_neg Bool.false_ne_true, wp_pure]
      exact ⟨under_traced.refl d, fun _ => ⟨rfl, lossless_nil, fun h => absurd h Bool.false_ne_true⟩⟩

def MacRfkIo.recovered (d : MacRfkIo) : MacRfkIo := { d with modified := false, leaseLost := false }

theorem under_recover (kind : Kind) : Under d [.call (.recover kind) true] d.recovered := by
  refine ⟨⟨rfl, fun hs => ?_, fun _ => ?_, fun _ => ⟨fun h => absurd h Bool.false_ne_true, trivial⟩⟩,
    retains_singleton nofun⟩
  · exact ⟨hs.armed, hs.engine, fun h => absurd h Bool.false_ne_true, fun h => absurd h Bool.false_ne_true, hs.complete⟩
  · show (d.active, d.leaseLost && false) = (d.active, false)
    rw [Bool.and_false]

theorem recoverEngine_spec (kind : Kind) (success : Bool) (d : MacRfkIo) :
    (recoverEngine kind success).wp (fun log ok d' => Under d log d' ∧ (ok = true → Lossless log ∧
      (d' = d ∧ (success = false → d.leaseLost = false ∧ d.modified = false) ∨
        d' = d.recovered ∧ .call (.recover kind) true ∈ log))) d := by
  unfold recoverEngine
  rw [wp_get_bind]
  by_cases hneeds : (!success && (d.modified || d.leaseLost)) = true
  · rw [if_pos hneeds, wp_ask_bind]
    intro ok
    cases ok with
    | true =>
        rw [if_pos rfl, wp_modify_bind, wp_pure]
        exact ⟨under_recover kind, fun _ => ⟨lossless_nil.cons nofun, .inr ⟨rfl, List.mem_cons_self⟩⟩⟩
    | false =>
        rw [if_neg Bool.false_ne_true, wp_pure]
        refine ⟨under_neutral (fun m => ?_) rfl nofun, fun h => absurd h Bool.false_ne_true⟩
        show (m.1, m.2 && true) = m
        rw [Bool.and_true]
  · rw [if_neg hneeds, wp_pure]
    refine ⟨under_traced.refl d, fun _ => ⟨lossless_nil, .inl ⟨rfl, fun hno => ?_⟩⟩⟩
    subst hno
    simp only [Bool.not_false, Bool.true_and, Bool.or_eq_true, not_or, Bool.not_eq_true] at hneeds
    exact ⟨hneeds.2, hneeds.1⟩

theorem stopEngine_spec (kind : Kind) (d : MacRfkIo) :
    (stopEngine kind).wp (fun log ok d' => Under d log d' ∧ (ok = true → d' = d.idled ∧ Lossless log ∧
      (d.oneshotActive = true → .call (.oneshot kind d.oneshotMap false) true ∈ log))) d := by
  unfold stopEngine
  rw [wp_get_bind]
  cases hrunning : d.oneshotActive with
  | true =>
      unfold oneshot
      rw [if_pos rfl, wp_get_bind]
      by_cases hwrong : (!d.active || kind != d.kind || !d.control.oneshot) = true
      · rw [if_pos hwrong, wp_pure]
        exact ⟨under_traced.refl d, fun h => absurd h Bool.false_ne_true⟩
      · rw [if_neg hwrong, if_neg Bool.false_ne_true]
        refine wp_mono (stopOneshot_spec kind d.oneshotMap d) fun log ok d' h => ⟨h.1, fun hok => ?_⟩
        exact ⟨(h.2 hok).1, (h.2 hok).2.1, fun _ => (h.2 hok).2.2⟩
  | false =>
      rw [if_neg Bool.false_ne_true, wp_pure]
      refine ⟨under_traced.refl d, fun _ => ⟨?_, lossless_nil, fun h => absurd h Bool.false_ne_true⟩⟩
      unfold MacRfkIo.idled
      rw [← hrunning]

/-- Under the lease, the engine may have to be recovered. -/
theorem under_taint (hactive : d.active = true) : Under d [] { d with modified := true } :=
  under_silent rfl rfl fun hs => ⟨hs.armed, hs.engine, hs.lost, fun _ => hactive, hs.complete⟩

theorem stayPaused_spec (kind : Kind) (success needs : Bool) (hactive : d.active = true) :
    (stayPaused kind success needs).wp (fun log ok d' => Under d log d' ∧ (ok = true → d' = d ∧ Lossless log)) d := by
  unfold stayPaused taint
  by_cases hchannel : kind = .channel ∧ success = true
  · rw [if_pos hchannel, wp_bind]
    refine wp_mono (macMatches_looks 0xC348 _ needs d) fun log ok d₁ h => ?_
    cases ok with
    | true =>
        have hsame := h.same rfl
        subst hsame
        rw [if_pos rfl, wp_pure, List.append_nil]
        exact ⟨h.under, fun _ => ⟨rfl, h.lossless rfl⟩⟩
    | false =>
        rw [if_neg Bool.false_ne_true, wp_modify_bind, wp_pure]
        refine ⟨?_, fun hno => absurd hno Bool.false_ne_true⟩
        -- The lease is still held: only its loss may have been noticed.
        exact under_traced.trans h.under (under_taint (h.active.trans hactive))
  · rw [if_neg hchannel, wp_pure]
    exact ⟨under_traced.refl d, fun _ => ⟨rfl, lossless_nil⟩⟩

/-- The lease is given back: nothing runs any more, and it is not lost. -/
theorem release_ends {K : Trace → Prop} (harmed : d.txArmed = false) (hrunning : d.oneshotActive = false)
    (hlost : d.leaseLost = false) (hK : K [.note .released]) :
    (Code.every [release]).wp (fun log ok d' => Ends K d log ok d') d := by
  unfold release
  rw [Code.every, Code.wp_both, wp_modify_bind, wp_tell_bind, wp_pure]
  refine ⟨fun _ => ?_, fun hno => absurd hno.symm Bool.false_ne_true⟩
  rw [Code.every, wp_pure, List.append_nil]
  refine ⟨⟨rfl, fun hs => ?_, fun _ => rfl, fun _ => ⟨fun h => absurd h Bool.false_ne_true, trivial⟩⟩, fun _ => hK,
    fun hno => absurd hno.symm Bool.false_ne_true⟩
  refine ⟨fun h => ?_, fun h => ?_, fun h => ?_, fun h => absurd h Bool.false_ne_true,
    fun h => absurd h Bool.false_ne_true⟩
  · exact absurd (harmed.symm.trans h) Bool.false_ne_true
  · exact absurd (hrunning.symm.trans h) Bool.false_ne_true
  · exact absurd (hlost.symm.trans h) Bool.false_ne_true

theorem end_spec (kind : Kind) (success : Bool) (d : MacRfkIo) :
    (end_ kind success).wp (fun log ok d' => Ends (Released d kind success) d log ok d') d := by
  unfold end_
  rw [wp_get_bind]
  by_cases hwrong : (!d.active || kind != d.kind) = true
  · rw [if_pos hwrong, wp_pure]
    exact ⟨leases_traced.refl d, fun h => absurd h Bool.false_ne_true, fun _ _ he => absurd he List.not_mem_nil⟩
  rw [if_neg hwrong]
  simp only [Bool.or_eq_true, not_or, Bool.not_eq_true', Bool.not_eq_false, Bool.not_eq_true, bne_eq_false_iff_eq]
    at hwrong
  rcases hwrong with ⟨hactive, hkind⟩
  refine ends_step (stopEmission_spec d) fun l₁ d₁ hr₁ h₁ => ?_
  rcases h₁ with ⟨rfl, hl₁, hstop⟩
  refine ends_step (confirmLease_spec success d.disarmed) fun l₂ d₂ hr₂ h₂ => ?_
  rcases h₂ with ⟨rfl, hl₂, hconfirm⟩
  refine ends_step (recoverEngine_spec kind success d.disarmed) fun l₃ d₃ hr₃ h₃ => ?_
  rcases h₃ with ⟨hl₃, hrecover⟩
  -- Whether the engine was recovered or not, the rest of the state is the same.
  have hsame : d₃.txArmed = false ∧ d₃.active = true ∧ d₃.oneshotActive = d.oneshotActive ∧
      d₃.oneshotMap = d.oneshotMap := by
    rcases hrecover with ⟨rfl, -⟩ | ⟨rfl, -⟩ <;> exact ⟨rfl, hactive, rfl, rfl⟩
  have hlost : d₃.leaseLost = false := by
    rcases hrecover with ⟨rfl, hclean⟩ | ⟨rfl, -⟩
    · cases success with
      | true => exact (hconfirm rfl).2
      | false => exact (hclean rfl).1
    · rfl
  have hrecovered : success = false → d.modified = true ∨ d.leaseLost = true → .call (.recover kind) true ∈ l₃ := by
    intro hno hneeds
    rcases hrecover with ⟨rfl, hclean⟩ | ⟨rfl, hmem⟩
    · rcases hneeds with hmodified | hgone
      · exact absurd ((hclean hno).2.symm.trans hmodified) Bool.false_ne_true
      · exact absurd ((hclean hno).1.symm.trans hgone) Bool.false_ne_true
    · exact hmem
  refine ends_step (stopEngine_spec kind d₃) fun l₄ d₄ hr₄ h₄ => ?_
  rcases h₄ with ⟨rfl, hl₄, hidle⟩
  refine ends_step (stayPaused_spec kind success true (d := d₃.idled) hsame.2.1) fun l₅ d₅ hr₅ h₅ => ?_
  rcases h₅ with ⟨rfl, hl₅⟩
  have hask : (Code.ask (Call.end_ kind success) : Gated Bool).wp (fun log ok d' => Under d₃.idled log d' ∧
      (ok = true → d' = d₃.idled ∧ log = [.call (.end_ kind success) true])) d₃.idled := by
    rw [wp_ask]
    intro ok
    refine ⟨under_neutral (fun _ => rfl) rfl nofun, fun hok => ⟨rfl, ?_⟩⟩
    subst hok
    rfl
  refine ends_step hask fun l₆ d₆ hr₆ h₆ => ?_
  rcases h₆ with ⟨rfl, rfl⟩
  refine ends_step (stayPaused_spec kind success false (d := d₃.idled) hsame.2.1) fun l₇ d₇ hr₇ h₇ => ?_
  rcases h₇ with ⟨rfl, hl₇⟩
  refine release_ends hsame.1 rfl hlost ?_
  have hjoin : l₁ ++ (l₂ ++ (l₃ ++ (l₄ ++ (l₅ ++ ([.call (.end_ kind success) true] ++ (l₇ ++ [.note .released])))))) =
      l₁ ++ l₂ ++ l₃ ++ l₄ ++ l₅ ++ [.call (.end_ kind success) true] ++ l₇ ++ [.note .released] := by
    simp only [List.append_assoc]
  have hlossless : Lossless (l₁ ++ l₂ ++ l₃ ++ l₄ ++ l₅ ++ [.call (.end_ kind success) true] ++ l₇ ++
      [.note .released]) := by
    refine Lossless.append (Lossless.append (Lossless.append ?_ (lossless_nil.cons nofun)) hl₇) (lossless_nil.cons nofun)
    exact (((hl₁.append hl₂).append hl₃).append hl₄).append hl₅
  rw [hjoin]
  refine ⟨hactive, hkind, fun harmed => ?_, fun hrunning => ?_, fun hno hneeds => ?_, ?_, fun hyes => ⟨?_, hlossless⟩,
    ⟨_, rfl, ?_⟩⟩
  · simp only [List.append_assoc]
    exact (hstop harmed).append _
  · have hmem := hidle (hsame.2.2.1.trans hrunning)
    rw [hsame.2.2.2] at hmem
    simp only [List.mem_append, hmem, true_or, or_true]
  · have hmem := hrecovered hno hneeds
    simp only [List.mem_append, hmem, true_or, or_true]
  · simp only [List.mem_append, List.mem_singleton, true_or, or_true]
  · have hmem := (hconfirm hyes).1
    rw [hkind]
    simp only [List.mem_append]
    exact .inl (.inl (.inl (.inl (.inl (.inl (.inr hmem))))))
  · intro e he
    simp only [List.mem_append, List.mem_singleton, or_assoc] at he
    rcases he with he | he | he | he | he | he | he
    · exact hr₁ e he
    · exact hr₂ e he
    · exact hr₃ e he
    · exact hr₄ e he
    · exact hr₅ e he
    · rw [he]
      exact nofun
    · exact hr₇ e he

/-! ## Taking the lease -/

/-- The lease is given back by the last part of a call. -/
def GivenBack (d : MacRfkIo) (kind : Kind) (success : Bool) (log : Trace) : Prop :=
  ∃ before d₁ last, log = before ++ last ∧ before.foldl hold d.held = d₁.held ∧ Released d₁ kind success last

/-- What taking the lease may do: it may have to be given back at once. -/
structure Enters (kind : Kind) (d : MacRfkIo) (log : Trace) (d' : MacRfkIo) : Prop where
  leases : Leases d log d'
  back : Sane d → .note .released ∈ log → GivenBack d kind false log

theorem Retains.not_mem (h : Retains log) : .note .released ∉ log := fun he => h _ he rfl

theorem under_enters {kind : Kind} (h : Under d log d') : Enters kind d log d' :=
  ⟨h.toLeases, fun _ hmem => absurd hmem h.retains.not_mem⟩

theorem Enters.after {kind : Kind} {d₁ : MacRfkIo} (h : Leases d log d₁) (hr : Retains log)
    (h' : Enters kind d₁ log' d') : Enters kind d (log ++ log') d' := by
  refine ⟨leases_traced.trans h h'.leases, fun hs hmem => ?_⟩
  have hlate : .note .released ∈ log' := (List.mem_append.1 hmem).resolve_left hr.not_mem
  rcases h'.back (h.sane hs) hlate with ⟨before, d₂, last, rfl, hheld, hreleased⟩
  refine ⟨log ++ before, d₂, last, (List.append_assoc _ _ _).symm, ?_, hreleased⟩
  rw [List.foldl_append, h.held hs, hheld]

theorem preflight_looks (d : MacRfkIo) : preflight.wp (fun log ok d' => Looks true d log ok d') d := by
  refine every_looks (fun m hm d => ?_) (List.cons_ne_nil _ _) d
  simp only [List.mem_cons, List.not_mem_nil, or_false] at hm
  rcases hm with rfl | rfl | rfl | rfl <;> exact macMatches_looks _ _ true d

theorem leases_acquire (kind : Kind) (hfree : d.active = false) (hcomplete : d.control.complete = true) :
    Leases d [.note .acquired] { d with active := true, leaseLost := false, kind := kind } := by
  refine ⟨rfl, fun hs => ?_, fun _ => rfl, fun _ => ⟨fun h => absurd h Bool.false_ne_true, trivial⟩⟩
  have hno : d.active = true → False := fun h => Bool.false_ne_true (hfree.symm.trans h)
  exact ⟨fun h => (hno (hs.armed h).1).elim, fun h => (hno (hs.engine h)).elim, fun _ => rfl, fun _ => rfl,
    fun _ => hcomplete⟩

theorem wp_acquire (kind : Kind) {Q : Trace → Unit → MacRfkIo → Prop} :
    (acquire kind).wp Q d ↔ Q [.note .acquired] () { d with active := true, leaseLost := false, kind := kind } := by
  have htell : (Code.tell Note.acquired : Gated Unit) = Code.tell Note.acquired >>= pure := rfl
  unfold acquire
  rw [wp_modify_bind, htell, wp_tell_bind, wp_pure]

theorem enters_back {kind : Kind} {d₁ d₂ : MacRfkIo} (h : Leases d log d₁) (hr : Retains log)
    (h' : Ends (Released d₁ kind false) d₁ log' ok d₂) : Enters kind d (log ++ log') d₂ := by
  refine ⟨leases_traced.trans h h'.leases, fun hs hmem => ?_⟩
  cases ok with
  | true => exact ⟨log, d₁, log', rfl, h.held hs, h'.known rfl⟩
  | false =>
      have hlate : .note .released ∈ log' := (List.mem_append.1 hmem).resolve_left hr.not_mem
      exact absurd hlate (Retains.not_mem (h'.retained rfl))

theorem enter_spec (kind : Kind) (hfree : d.active = false) (hcomplete : d.control.complete = true) :
    (enter kind).wp (fun log _ d' => Enters kind d log d') d := by
  have hacquired := leases_acquire kind hfree hcomplete
  have hretains : Retains [.note .acquired] := retains_singleton nofun
  unfold enter
  rw [wp_bind, wp_acquire]
  generalize ({ d with active := true, leaseLost := false, kind := kind } : MacRfkIo) = d₁ at hacquired ⊢
  rw [wp_bind]
  refine wp_mono (preflight_looks d₁) fun log ok d₂ h => ?_
  have hready := leases_traced.trans hacquired h.under.toLeases
  have hstill : Retains ([.note .acquired] ++ log) :=
    fun e he => (List.mem_append.1 he).elim (hretains e) (h.under.retains e)
  cases ok with
  | true =>
      rw [if_pos rfl, wp_pure, List.append_nil]
      exact ⟨hready, fun _ hmem => absurd hmem hstill.not_mem⟩
  | false =>
      rw [if_neg Bool.false_ne_true, wp_bind]
      refine wp_mono (end_spec kind false d₂) fun log' ok d' h' => ?_
      rw [wp_pure, List.append_nil, ← List.append_assoc]
      exact enters_back hready hstill h'

theorem begin_spec (kind : Kind) (d : MacRfkIo) : (begin_ kind).wp (fun log _ d' => Enters kind d log d') d := by
  unfold begin_
  rw [wp_get_bind]
  by_cases hbusy : d.active = true
  · rw [if_pos hbusy, wp_pure]
    exact under_enters (under_traced.refl d)
  rw [if_neg hbusy, wp_bind]
  refine wp_mono (accessible_looks true d) fun log ok d₁ h => ?_
  cases ok with
  | false =>
      rw [if_neg Bool.false_ne_true, wp_pure, List.append_nil]
      exact under_enters h.under
  | true =>
      have hsame := h.same rfl
      subst hsame
      rw [if_pos rfl]
      refine wp_mono (Q := fun log' _ d' => Enters kind d₁ log' d') ?_
        fun log' _ d' h' => Enters.after h.under.toLeases h.under.retains h'
      by_cases hcomplete : (!d₁.control.complete) = true
      · rw [if_pos hcomplete, wp_pure]
        exact under_enters (under_traced.refl d₁)
      rw [if_neg hcomplete]
      by_cases hneeds : (kind = .iqk ∨ kind = .tssi) ∧ d₁.control.oneshot = false
      · rw [if_pos hneeds, wp_pure]
        exact under_enters (under_traced.refl d₁)
      rw [if_neg hneeds, wp_ask_bind]
      intro taken
      have hask : Under d₁ [.call (.begin_ kind) taken] d₁ := under_neutral (fun _ => rfl) rfl nofun
      cases taken with
      | true =>
          rw [if_pos rfl]
          rw [Bool.not_eq_true', Bool.not_eq_false] at hcomplete
          refine wp_mono (enter_spec kind (Bool.eq_false_of_not_eq_true hbusy) hcomplete) fun log' _ d' h' => ?_
          exact Enters.after hask.toLeases hask.retains h'
      | false =>
          rw [if_neg Bool.false_ne_true, wp_pure]
          exact under_enters hask

/-! ## Accessors -/

theorem radioAccessible_looks (offset : UInt32) (d : MacRfkIo) :
    (radioAccessible offset).wp (fun log ok d' => Looks true d log ok d' ∧ (ok = true → d.active = true)) d := by
  have hno : Looks true d [] false d ∧ (false = true → d.active = true) :=
    ⟨looks_no (under_traced.refl d) rfl, fun h => absurd h Bool.false_ne_true⟩
  unfold radioAccessible
  rw [wp_get_bind]
  split
  · rw [wp_pure]
    exact hno
  rw [wp_ask_bind]
  intro command
  by_cases hpresent : (!presentCommand command) = true
  · rw [if_pos hpresent, wp_pure]
    exact ⟨hno.1.after (fun _ => rfl) rfl nofun nofun, hno.2⟩
  · rw [if_neg hpresent]
    exact wp_mono (checkLease_looks d) fun log ok d' h => ⟨h.1.after (fun _ => rfl) rfl nofun nofun, h.2⟩

theorem keeps_radioAccessible (offset : UInt32) : (radioAccessible offset).Keeps Under :=
  fun d => wp_mono (radioAccessible_looks offset d) fun _ _ _ h => h.1.under

/-- What follows a look of `MacRadioIo`. -/
theorem keeps_radioGuarded {α : Type} {offset : UInt32} {m m' : Gated α}
    (hm : ∀ d : MacRfkIo, d.held = (true, false) → m.wp (fun log _ d' => Under d log d') d) (hm' : m'.Keeps Under) :
    (do if ← radioAccessible offset then m else m').Keeps Under := by
  intro d
  rw [wp_bind]
  refine wp_mono (radioAccessible_looks offset d) fun log ok d₁ h => ?_
  cases ok with
  | true =>
      have hsame := h.1.same rfl
      subst hsame
      rw [if_pos rfl]
      refine wp_mono (hm d₁ (h.1.held rfl rfl (h.2 rfl))) fun log' _ d' h' => ?_
      exact under_traced.trans h.1.under h'
  | false =>
      rw [if_neg Bool.false_ne_true]
      exact wp_mono (hm' d₁) fun log' _ d' h' => under_traced.trans h.1.under h'

theorem keeps_radioRead32 (offset : UInt32) : (radioRead32 offset).Keeps Under := by
  refine keeps_radioGuarded (fun d _ => ?_) (keeps_return _)
  have hrest : (do
      let v : UInt32 ← Code.ask (Call.read32 offset)
      if v = 0xffffffff then
        return (false, 0)
      else if ← radioAccessible offset then
        return (true, v)
      else
        return (false, 0) : Gated (Bool × UInt32)).Keeps Under := by
    refine Code.Keeps.ask_bind under_traced (fun d r => under_neutral (fun _ => rfl) rfl nofun) fun v => ?_
    refine Code.Keeps.ite (keeps_return _) ?_
    exact keeps_radioGuarded (fun d _ => keeps_return _ d) (keeps_return _)
  exact hrest d

theorem keeps_radioWrite32 (offset v : UInt32) : (radioWrite32 offset v).Keeps Under := by
  refine keeps_radioGuarded (fun d hheld => ?_) (keeps_return _)
  rw [wp_ask_bind]
  intro u
  have hwrite : Under d [.call (.write32 offset v) u] d := under_write (fun _ => rfl) nofun hheld
  exact wp_mono (keeps_radioAccessible offset d) fun log _ d' h => under_traced.trans hwrite h

theorem keeps_radioWait (ms us : ℕ) : (radioWait ms us).Keeps Under := by
  have hwait : ∀ t, ∀ d : MacRfkIo, ∀ r, Under d [.call (.wait t) r] d :=
    fun t d r => under_neutral (fun _ => rfl) rfl nofun
  induction ms with
  | zero =>
      refine Code.Keeps.ite ?_ (keeps_radioAccessible _)
      exact Code.Keeps.ask_bind under_traced (hwait us) fun _ => keeps_radioAccessible _
  | succ ms ih =>
      refine Code.Keeps.ask_bind under_traced (hwait 1000) fun _ => ?_
      exact keeps_radioGuarded (fun d _ => ih d) (keeps_return _)

theorem keeps_radioDelayUs (us : ℕ) : (radioDelayUs us).Keeps Under :=
  Code.Keeps.ite (keeps_return _) (keeps_radioGuarded (fun d _ => keeps_radioWait _ _ d) (keeps_return _))

theorem keeps_radioIo (c : RadioCall) : (radioIo c).Keeps Under := by
  cases c with
  | cancelled => exact Code.Keeps.get_bind fun d => keeps_return d.stopped
  | read32 offset => exact keeps_radioRead32 offset
  | write32 offset v => exact keeps_radioWrite32 offset v
  | delayUs us => exact keeps_radioDelayUs us

/-- Any code of `RadioAccess`. -/
theorem keeps_radio (radio : Radio) : (radio.through radioIo).Keeps Under :=
  keeps_through under_traced keeps_radioIo radio

theorem keeps_radioReading (radio : Radio) : (radioReading radio).Keeps Under := by
  refine Code.Keeps.get_bind fun d => Code.Keeps.ite (keeps_return _) fun d' => ?_
  exact under_accessible (fun _ => keeps_radio radio d') (keeps_return _)

theorem under_modified (hheld : d.held = (true, false)) : Under d [] { d with modified := true } :=
  under_taint (congrArg Prod.fst hheld)

theorem keeps_radioWriting (radio : Radio) : (radioWriting radio).Keeps Under := by
  intro d
  unfold radioWriting
  rw [wp_get_bind]
  cases hactive : d.active with
  | false =>
      rw [if_pos (show (!false) = true from rfl), wp_pure]
      exact under_traced.refl d
  | true =>
      rw [if_neg (show ¬ (!true) = true from nofun)]
      refine under_accessible (fun hheld => ?_) (keeps_return _)
      rw [wp_modify_bind, wp_tell_bind]
      refine wp_mono (keeps_radio radio _) fun log _ d' h => ?_
      have hhanded : Under { d with modified := true } [.note .handed] { d with modified := true } :=
        under_write (fun _ => rfl) nofun (hheld hactive)
      exact under_traced.trans (under_modified (hheld hactive)) (under_traced.trans hhanded h)

/-- A word or a byte is written while the lease is held. -/
theorem storing_under {c : Call} (hhold : ∀ m r, hold m (.call c r) = m) (hheld : d.held = (true, false)) :
    (storing c).wp (fun log _ d' => Under d log d') d := by
  unfold storing
  rw [wp_modify_bind, wp_ask_bind]
  intro r
  refine wp_mono (accessible_looks true _) fun log _ d' h => ?_
  have hwrite : Under { d with modified := true } [.call c r] { d with modified := true } :=
    under_write (fun m => hhold m r) nofun hheld
  exact under_traced.trans (under_modified hheld) (under_traced.trans hwrite h.under)

theorem keeps_macRead (a : UInt32) (needs : Bool) : (macRead a needs).Keeps Under :=
  fun d => wp_mono (macRead_looks a needs d) fun _ _ _ h => h.under

theorem keeps_accessible (needs : Bool) : (accessible needs).Keeps Under :=
  fun d => wp_mono (accessible_looks needs d) fun _ _ _ h => h.under

theorem keeps_writeMac (a v : UInt32) : (writeMac a v).Keeps Under := by
  intro d
  unfold writeMac
  rw [wp_get_bind]
  cases hactive : d.active with
  | false =>
      rw [if_pos (show (!false) = true from rfl), wp_pure]
      exact under_traced.refl d
  | true =>
      rw [if_neg (show ¬ (!true) = true from nofun)]
      refine under_accessible (fun hheld => ?_) (keeps_return _)
      by_cases hwrong : a ≠ 0x8040 ∨ v ≠ 0xf
      · rw [if_pos hwrong, wp_pure]
        exact under_traced.refl d
      · rw [if_neg hwrong]
        exact storing_under (fun _ _ => rfl) (hheld hactive)

theorem keeps_channelWrite {c : Call} {allowed : Bool} (hhold : ∀ m r, hold m (.call c r) = m) :
    (do
      let d ← get
      if !d.active || d.kind != .channel then
        return false
      else if ← accessible true then
        if !allowed then return false else storing c
      else
        return false : Gated Bool).Keeps Under := by
  intro d
  rw [wp_get_bind]
  by_cases hwrong : (!d.active || d.kind != .channel) = true
  · rw [if_pos hwrong, wp_pure]
    exact under_traced.refl d
  rw [if_neg hwrong]
  simp only [Bool.or_eq_true, not_or, Bool.not_eq_true', Bool.not_eq_false] at hwrong
  refine under_accessible (fun hheld => ?_) (keeps_return false)
  cases allowed with
  | true =>
      rw [if_neg (show ¬ (!true) = true from nofun)]
      exact storing_under hhold (hheld hwrong.1)
  | false =>
      rw [if_pos (show (!false) = true from rfl), wp_pure]
      exact under_traced.refl d

theorem keeps_readChannelMac8 (a : UInt32) : (readChannelMac8 a).Keeps Under := by
  refine Code.Keeps.get_bind fun d => Code.Keeps.ite (keeps_return _) ?_
  refine Code.Keeps.bind under_traced (keeps_accessible true) fun ok => Code.Keeps.ite ?_ (keeps_return _)
  refine Code.Keeps.ite (keeps_return _) ?_
  refine Code.Keeps.ask_bind under_traced (fun d r => under_neutral (fun _ => rfl) rfl nofun) fun v => ?_
  exact Code.Keeps.bind under_traced (keeps_accessible true) fun _ => keeps_return _

theorem keeps_readChannelMac32 (a : UInt32) : (readChannelMac32 a).Keeps Under :=
  Code.Keeps.get_bind fun _ => Code.Keeps.ite (keeps_return _) (keeps_macRead a true)

theorem quiet_looks (d : MacRfkIo) :
    (Code.every [cmacEnabled, txPaused true]).wp (fun log ok d' => Looks true d log ok d') d := by
  refine every_looks (fun m hm d => ?_) (List.cons_ne_nil _ _) d
  simp only [List.mem_cons, List.not_mem_nil, or_false] at hm
  rcases hm with rfl | rfl <;> exact macMatches_looks _ _ true d

/-- A read of a power register that succeeds leaves the lease held. -/
theorem readPowerMac32_spec (a : UInt32) (d : MacRfkIo) :
    (readPowerMac32 a).wp (fun log r d' => Under d log d' ∧ (r.1 = true → d'.held = (true, false))) d := by
  have hno : ∀ {P : Prop}, false = true → P := fun h => absurd h Bool.false_ne_true
  unfold readPowerMac32
  rw [wp_get_bind]
  by_cases hwrong : (!d.active || d.kind != .channel || !powerMacAddress a) = true
  · rw [if_pos hwrong, wp_pure]
    exact ⟨under_traced.refl d, hno⟩
  rw [if_neg hwrong, wp_bind]
  simp only [Bool.or_eq_true, not_or, Bool.not_eq_true', Bool.not_eq_false] at hwrong
  refine wp_mono (quiet_looks d) fun log ok d₁ h => ?_
  cases ok with
  | false =>
      rw [if_neg Bool.false_ne_true, wp_pure, List.append_nil]
      exact ⟨h.under, hno⟩
  | true =>
      have hsame := h.same rfl
      subst hsame
      rw [if_pos rfl, wp_ask_bind]
      intro v
      rw [wp_bind]
      refine wp_mono (quiet_looks d₁) fun log' ok' d₂ h' => ?_
      rw [wp_pure, List.append_nil]
      refine ⟨under_traced.trans h.under (under_call h'.under (fun _ => rfl) rfl nofun), fun hok => ?_⟩
      rw [h'.same hok]
      exact h'.held hok rfl hwrong.1.1

theorem keeps_writePowerMac32 (a v : UInt32) : (writePowerMac32 a v).Keeps Under := by
  intro d
  unfold writePowerMac32
  rw [wp_bind]
  refine wp_mono (readPowerMac32_spec a d) fun log r d₁ h => ?_
  cases hr : r.1 with
  | true =>
      rw [if_pos rfl]
      refine wp_mono (storing_under (fun _ _ => rfl) (h.2 hr)) fun log' _ d' h' => under_traced.trans h.1 h'
  | false =>
      rw [if_neg Bool.false_ne_true, wp_pure, List.append_nil]
      exact h.1

/-! ## Runs -/

/-- The lease is given back by `end`, or by a `begin` whose device is not ready. -/
def GivenBackBy (op : Op) (d : MacRfkIo) (log : Trace) : Prop :=
  match op with
  | .end_ kind success => Released d kind success log
  | .begin_ kind => GivenBack d kind false log
  | _ => False

/-- What one call does. -/
structure Calls (op : Op) (d : MacRfkIo) (log : Trace) (d' : MacRfkIo) : Prop where
  leases : Leases d log d'
  back : Sane d → .note .released ∈ log → GivenBackBy op d log

theorem under_calls {op : Op} (h : Under d log d') : Calls op d log d' :=
  ⟨h.toLeases, fun _ hmem => absurd hmem h.retains.not_mem⟩

theorem calls_of_keeps {op : Op} {α : Type} {m : Gated α} (hm : m.Keeps Under) (d : MacRfkIo) :
    m.wp (fun log _ d' => Calls op d log d') d :=
  wp_mono (hm d) fun _ _ _ h => under_calls h

theorem keeps_reading {α : Type} {m : Gated (Bool × α)} (hm : m.Keeps Under) : (reading m).Keeps Under :=
  Code.Keeps.bind under_traced hm fun _ => keeps_return _

theorem keeps_cancel : cancel.Keeps Under :=
  Code.Keeps.modify_bind under_traced
    (fun _ => under_silent rfl rfl fun hs => ⟨hs.armed, hs.engine, hs.lost, hs.modified, hs.complete⟩) (keeps_return true)

theorem keeps_delayUs (us : ℕ) : (delayUs us).Keeps Under := by
  refine Code.Keeps.get_bind fun d => Code.Keeps.ite (keeps_return _) fun d' => ?_
  exact under_accessible (fun _ => keeps_radioDelayUs us d') (keeps_return _)

theorem exec_calls (op : Op) (d : MacRfkIo) : (exec op).wp (fun log _ d' => Calls op d log d') d := by
  cases op with
  | cancel => exact calls_of_keeps keeps_cancel d
  | begin_ kind => exact wp_mono (begin_spec kind d) fun _ _ _ h => ⟨h.leases, h.back⟩
  | end_ kind success =>
      refine wp_mono (end_spec kind success d) fun log ok d' h => ⟨h.leases, fun _ hmem => ?_⟩
      cases ok with
      | true => exact h.known rfl
      | false => exact absurd hmem (Retains.not_mem (h.retained rfl))
  | oneshot kind phyMap start => exact calls_of_keeps (keeps_oneshot kind phyMap start) d
  | armCalibrationTx => exact calls_of_keeps keeps_armCalibrationTx d
  | stopCalibrationTx => exact wp_mono (stopCalibrationTx_spec d) fun _ _ _ h => under_calls h.1
  | readRf radio | readBb radio | drain radio => exact calls_of_keeps (keeps_reading (keeps_radioReading radio)) d
  | writeRf radio | writeBb radio => exact calls_of_keeps (keeps_reading (keeps_radioWriting radio)) d
  | writeMac a v => exact calls_of_keeps (keeps_writeMac a v) d
  | readChannelMac8 a => exact calls_of_keeps (keeps_reading (keeps_readChannelMac8 a)) d
  | writeChannelMac8 a v | writeChannelMac32 a v => exact calls_of_keeps (keeps_channelWrite fun _ _ => rfl) d
  | readChannelMac32 a => exact calls_of_keeps (keeps_reading (keeps_readChannelMac32 a)) d
  | readPowerMac32 a =>
      have hread : (readPowerMac32 a).Keeps Under := fun d => wp_mono (readPowerMac32_spec a d) fun _ _ _ h => h.1
      exact calls_of_keeps (keeps_reading hread) d
  | writePowerMac32 a v => exact calls_of_keeps (keeps_writePowerMac32 a v) d
  | delayUs us => exact calls_of_keeps (keeps_delayUs us) d

theorem active_retained {m : Held} (hlog : Retains log) (hm : m.1 = true) :
    (log.foldl hold m).1 = true := by
  induction log generalizing m with
  | nil => exact hm
  | cons e log ih =>
      have he := hlog e List.mem_cons_self
      refine ih (fun x hx => hlog x (List.mem_cons_of_mem e hx)) ?_
      cases e with
      | note n =>
          cases n with
          | acquired => rfl
          | released => exact absurd rfl he
          | handed => exact hm
      | call c r => cases c <;> exact hm

theorem sane_create (valid : Bool) (control : CalibrationControl) : Sane (create valid control) := by
  refine ⟨?_, ?_, ?_, ?_, ?_⟩ <;> exact fun h => absurd h Bool.false_ne_true

/-- What holds of every run from a new object. -/
structure Leased (h : List Record) (d : MacRfkIo) : Prop where
  sane : Sane d
  /-- The lease ends by being given back, and by nothing else. -/
  ends : ∀ x ∈ h, x.before.active = true → x.after.active = false → .note .released ∈ x.log
  back : ∀ x ∈ h, .note .released ∈ x.log → GivenBackBy x.op x.before x.log
  /-- A check that fails keeps a successful calibration from giving the lease back. -/
  kept : ∀ x ∈ h, ∀ kind k, x.op = .end_ kind true → .call (.check k) false ∈ x.log → .note .released ∉ x.log
  safe : Safe (false, false) (eventsOf h)
  held : (eventsOf h).foldl hold (false, false) = d.held

theorem run_leases {valid : Bool} {control : CalibrationControl} {h : List Record}
    (hrun : Run (create valid control) h d) : Leases (create valid control) (eventsOf h) d :=
  hrun.keeps leases_traced fun op d => wp_mono (exec_calls op d) fun _ _ _ h => h.leases

theorem run_sane {valid : Bool} {control : CalibrationControl} {h : List Record}
    (hrun : Run (create valid control) h d) : Sane d ∧ ∀ x ∈ h, Sane x.before := by
  refine hrun.invariant (P := fun h s => Sane s ∧ ∀ x ∈ h, Sane x.before) ?_ ?_
  · exact ⟨sane_create valid control, fun _ hx => absurd hx List.not_mem_nil⟩
  · intro h s s' op log r _ hs hout
    have hcalls := wp_outcome (exec_calls op s) hout
    refine ⟨hcalls.leases.sane hs.1, fun x hx => ?_⟩
    rcases List.mem_cons.1 hx with rfl | hx
    · exact hs.1
    · exact hs.2 x hx

theorem calibration_lease {valid : Bool} {control : CalibrationControl} {h : List Record} {d : MacRfkIo}
    (hrun : Run (create valid control) h d) : Leased h d := by
  have hcalls : ∀ x ∈ h, Calls x.op x.before x.log x.after := fun x hx =>
    wp_outcome (exec_calls x.op x.before) (hrun.outcome hx)
  have hall := run_leases hrun
  have hsane := run_sane hrun
  have hback : ∀ x ∈ h, .note .released ∈ x.log → GivenBackBy x.op x.before x.log :=
    fun x hx => (hcalls x hx).back (hsane.2 x hx)
  refine ⟨hsane.1, fun x hx hbefore hafter => ?_, hback, fun x hx kind k hop hmem hreleased => ?_,
    hall.safe (sane_create valid control), hall.held (sane_create valid control)⟩
  · by_contra hno
    have hretains : Retains x.log := fun e he heq => hno (heq ▸ he)
    have hheld := (hcalls x hx).leases.held (hsane.2 x hx)
    have hactive : (x.log.foldl hold x.before.held).1 = true := active_retained hretains hbefore
    rw [hheld] at hactive
    exact absurd (hafter.symm.trans hactive) Bool.false_ne_true
  · have hby := hback x hx hreleased
    rw [hop] at hby
    exact (hby.confirmed rfl).2 k hmem

/-! ## A calibration -/

/-- A device that is ready, and an owner that grants everything. -/
def granting (c : Call) : Unit → Reply c × Unit := fun _ =>
  match c with
  | .command => (2, ())
  | .read32 a => (if a = 0x1e0 then 0xe0 else if a = 0xC000 then 0x40000000 else if a = 0 then 0x30000 else 0, ())
  | .read8 _ => (0, ())
  | .write32 _ _ | .write8 _ _ | .stopTx _ | .wait _ => ((), ())
  | .check _ | .begin_ _ | .end_ _ _ | .oneshot _ _ _ | .recover _ => (true, ())

/-- An emission is armed, and the calibration fails. -/
def failedTssi : List Op :=
  [.begin_ .tssi, .oneshot .tssi 3 true, .armCalibrationTx, .writeMac 0x8040 0xf, .end_ .tssi false]

def completeControl : CalibrationControl := ⟨true, true, true, true, true, true⟩

theorem calibration_lease_tssi :
    (replay exec granting failedTssi (create true completeControl) ()).1.map (·.result) =
        [true, true, true, true, true] ∧
      (replay exec granting failedTssi (create true completeControl) ()).2.1.active = false ∧
      Leased (replay exec granting failedTssi (create true completeControl) ()).1
        (replay exec granting failedTssi (create true completeControl) ()).2.1 :=
  ⟨by decide +kernel, by decide +kernel, calibration_lease (replay_run exec granting failedTssi _ ())⟩

end Rules

end RfkIo
end Rtl8852be
