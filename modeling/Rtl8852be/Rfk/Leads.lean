import Rtl8852be.Rfk.Leases

/-!
# Leads — what a calibration does to the flags

* `Step.Guard`, `Step.leave` — what a step needs, and what it leaves;
* `Leads` — everything a step can do;
* `Chained` — which flags go together, and with which channel;
* `take_took` — every call is refused, or goes through its steps.
-/

namespace Rtl8852be
namespace Rfk

open Interaction

variable {d d' : Initialization} {log : Trace} {r : Bool}

/-! ## Steps -/

@[grind] def Step.Guard (f : Flags) : Step → Prop
  | .configureCalibration _ _ => False
  | .initializeRck => f.stage = .idle
  | .initializeDack => f.stage = .rck ∧ f.rck = true
  | .initializeRxDc => f.stage = .dack ∧ f.dack = true
  | .calibrateRxDc channel =>
      f.stage = .complete ∧ f.scanActive = false ∧ f.rxDc = true ∧ validChannel channel = true
  | .calibrateIqOnly channel =>
      f.stage = .complete ∧ f.scanActive = false ∧ f.prepared = true ∧ f.rxDc = true ∧ channel = f.rxDcChannel
  | .calibrateTssi => f.stage = .complete ∧ f.scanActive = false ∧ f.iq = true
  | .calibrateDpk => f.stage = .complete ∧ f.scanActive = false ∧ f.iq = true ∧ f.tssi = true
  | .trackDpk => f.stage = .complete ∧ f.scanActive = false ∧ f.dpk = true
  | .beginScan => f.stage = .complete ∧ f.scanActive = false ∧ f.iq = true ∧ f.tssi = true
  | .prepareScanChannel _ => f.stage = .complete ∧ f.scanActive = true
  | .finishScan restored => f.stage = .complete ∧ f.scanActive = true ∧ restored = f.scanHome

def Step.kind : Step → Kind
  | .configureCalibration _ _ => .channel
  | .initializeRck => .rck
  | .initializeDack => .dack
  | .initializeRxDc | .calibrateRxDc _ => .rxDc
  | .calibrateIqOnly _ => .iqk
  | .calibrateTssi => .tssi
  | .calibrateDpk => .dpk
  | .trackDpk => .track
  | .beginScan | .prepareScanChannel _ | .finishScan _ => .scan

def Flags.uncalibrated (f : Flags) : Flags := { f with iq := false, tssi := false, dpk := false }

/-- What a step leaves, depending on whether it ended well. -/
@[grind] def Step.leave (f : Flags) : Step → Bool → Flags
  | .configureCalibration _ _, _ => f
  | .initializeRck, ok => { f with stage := .rck, rck := ok }
  | .initializeDack, ok => { f with stage := .dack, dack := ok }
  | .initializeRxDc, true => { f with stage := .complete, rxDc := true }
  | .initializeRxDc, false => { f with stage := .rxDc, rxDc := false }
  | .calibrateRxDc channel, true =>
      { f.uncalibrated with
        stage := .complete, rxDc := true, prepared := true, rxDcChannel := channel, channel := channel }
  | .calibrateRxDc channel, false =>
      { f.uncalibrated with stage := .rxDc, rxDc := false, prepared := false, channel := channel }
  | .calibrateIqOnly channel, true => { f with stage := .complete, prepared := false, iq := true, iqChannel := channel }
  | .calibrateIqOnly _, false => { f with stage := .iqk, prepared := false }
  | .calibrateTssi, true => { f with stage := .complete, tssi := true, dpk := false }
  | .calibrateTssi, false => { f with stage := .tssi, tssi := false, dpk := false }
  | .calibrateDpk, true => { f with stage := .complete, dpk := true }
  | .calibrateDpk, false => { f with stage := .dpk, dpk := false }
  | .trackDpk, true => { f with stage := .complete, dpk := true }
  | .trackDpk, false => { f with stage := .track, dpk := false }
  | .beginScan, true =>
      { f.uncalibrated with
        stage := .complete, homeDpk := f.dpk, scanHome := f.iqChannel, scanChannel := f.iqChannel, scanActive := true
        scanReady := true }
  | .beginScan, false =>
      { f.uncalibrated with
        stage := .scan, homeDpk := f.dpk, scanHome := f.iqChannel, scanChannel := f.iqChannel, scanReady := false }
  | .prepareScanChannel channel, true =>
      { f with stage := .complete, channel := channel, scanChannel := channel, scanReady := true }
  | .prepareScanChannel channel, false => { f with stage := .scan, channel := channel, scanReady := false }
  | .finishScan restored, true =>
      { f with
        stage := .complete, scanActive := false, channel := restored, scanChannel := restored, iqChannel := restored
        iq := true, tssi := true, dpk := f.homeDpk, scanReady := false }
  | .finishScan restored, false => { f with stage := .scan, channel := restored, scanReady := false }

/-- A step, but for the calibration that a scan may start with: nothing happens, or everything under its lease. -/
inductive Leads (s : Step) (d : Initialization) : Trace → Bool → Initialization → Prop
  | refused : Leads s d [] false d
  | led {log : Trace} {r : Bool} {d' : Initialization} : d.result.error = .none → s.Guard d.flags →
      Led s.kind log r d' → (r = false → d'.result.error = .none → s = .initializeDack) →
        d'.flags = s.leave d.flags r → Leads s d log r d'

/-! ## Chains -/

/-- Which flags go together. -/
structure Chained (f : Flags) : Prop where
  dpk : f.dpk = true → f.tssi = true
  tssi : f.tssi = true → f.iq = true
  iq : f.iq = true → f.channel = f.iqChannel
  scan : f.scanActive = true → f.iq = false
  prepared : f.prepared = true → f.channel = f.rxDcChannel ∧ f.iq = false ∧ f.scanActive = false
  idle : f.stage = .idle → f.rck = false
  first : f.stage = .idle ∨ f.stage = .rck → f.dack = false
  early : f.stage = .idle ∨ f.stage = .rck ∨ f.stage = .dack →
    f.rxDc = false ∧ f.iq = false ∧ f.scanActive = false ∧ f.prepared = false
  dacked : f.stage = .dack → f.rck = true
  initialized : f.rxDc = true → f.rck = true ∧ f.dack = true
  live : f.iq = true ∨ f.scanActive = true ∨ f.prepared = true → f.rxDc = true
  measured : f.prepared = true → validChannel f.rxDcChannel = true
  tuned : f.iq = true → validChannel f.iqChannel = true
  away : f.scanActive = true → validChannel f.scanHome = true

-- One lemma for each step that ends well: every field follows from the guard and the fields before.
section Leave

variable {f : Flags}

theorem Chained.initializeRck (h : Chained f) (hguard : Step.initializeRck.Guard f) :
    Chained (Step.initializeRck.leave f true) := by
  rcases h with ⟨hdpk, htssi, hiq, hscan, hprepared, hidle, hfirst, hearly, hdacked, hinitialized, hlive, hmeasured,
    htuned, haway⟩
  constructor <;> grind

theorem Chained.initializeDack (h : Chained f) (r : Bool) (hguard : Step.initializeDack.Guard f) :
    Chained (Step.initializeDack.leave f r) := by
  rcases h with ⟨hdpk, htssi, hiq, hscan, hprepared, hidle, hfirst, hearly, hdacked, hinitialized, hlive, hmeasured,
    htuned, haway⟩
  constructor <;> grind

theorem Chained.initializeRxDc (h : Chained f) (hguard : Step.initializeRxDc.Guard f) :
    Chained (Step.initializeRxDc.leave f true) := by
  rcases h with ⟨hdpk, htssi, hiq, hscan, hprepared, hidle, hfirst, hearly, hdacked, hinitialized, hlive, hmeasured,
    htuned, haway⟩
  constructor <;> grind

theorem Chained.calibrateRxDc {channel : Channel} (h : Chained f) (hguard : (Step.calibrateRxDc channel).Guard f) :
    Chained ((Step.calibrateRxDc channel).leave f true) := by
  rcases h with ⟨hdpk, htssi, hiq, hscan, hprepared, hidle, hfirst, hearly, hdacked, hinitialized, hlive, hmeasured,
    htuned, haway⟩
  constructor <;> grind [Flags.uncalibrated]

theorem Chained.calibrateIqOnly {channel : Channel} (h : Chained f) (hguard : (Step.calibrateIqOnly channel).Guard f) :
    Chained ((Step.calibrateIqOnly channel).leave f true) := by
  rcases h with ⟨hdpk, htssi, hiq, hscan, hprepared, hidle, hfirst, hearly, hdacked, hinitialized, hlive, hmeasured,
    htuned, haway⟩
  constructor <;> grind

theorem Chained.calibrateTssi (h : Chained f) (hguard : Step.calibrateTssi.Guard f) :
    Chained (Step.calibrateTssi.leave f true) := by
  rcases h with ⟨hdpk, htssi, hiq, hscan, hprepared, hidle, hfirst, hearly, hdacked, hinitialized, hlive, hmeasured,
    htuned, haway⟩
  constructor <;> grind

theorem Chained.calibrateDpk (h : Chained f) (hguard : Step.calibrateDpk.Guard f) :
    Chained (Step.calibrateDpk.leave f true) := by
  rcases h with ⟨hdpk, htssi, hiq, hscan, hprepared, hidle, hfirst, hearly, hdacked, hinitialized, hlive, hmeasured,
    htuned, haway⟩
  constructor <;> grind

theorem Chained.trackDpk (h : Chained f) (hguard : Step.trackDpk.Guard f) :
    Chained (Step.trackDpk.leave f true) := by
  rcases h with ⟨hdpk, htssi, hiq, hscan, hprepared, hidle, hfirst, hearly, hdacked, hinitialized, hlive, hmeasured,
    htuned, haway⟩
  constructor <;> grind

theorem Chained.beginScan (h : Chained f) (hguard : Step.beginScan.Guard f) :
    Chained (Step.beginScan.leave f true) := by
  rcases h with ⟨hdpk, htssi, hiq, hscan, hprepared, hidle, hfirst, hearly, hdacked, hinitialized, hlive, hmeasured,
    htuned, haway⟩
  constructor <;> grind [Flags.uncalibrated]

theorem Chained.prepareScanChannel {channel : Channel} (h : Chained f) (hguard : (Step.prepareScanChannel channel).Guard f) :
    Chained ((Step.prepareScanChannel channel).leave f true) := by
  rcases h with ⟨hdpk, htssi, hiq, hscan, hprepared, hidle, hfirst, hearly, hdacked, hinitialized, hlive, hmeasured,
    htuned, haway⟩
  constructor <;> grind

theorem Chained.finishScan {restored : Channel} (h : Chained f) (hguard : (Step.finishScan restored).Guard f) :
    Chained ((Step.finishScan restored).leave f true) := by
  rcases h with ⟨hdpk, htssi, hiq, hscan, hprepared, hidle, hfirst, hearly, hdacked, hinitialized, hlive, hmeasured,
    htuned, haway⟩
  constructor <;> grind

end Leave

theorem Chained.leave {s : Step} {f : Flags} (h : Chained f) (hguard : s.Guard f) (hr : r = false → s = .initializeDack) :
    Chained (s.leave f r) := by
  cases r with
  | false =>
      -- Only a DACK that was not done fails without an error.
      cases hr rfl
      exact h.initializeDack false hguard
  | true =>
      cases s with
      | configureCalibration identityValid antennaRx => exact hguard.elim
      | initializeRck => exact h.initializeRck hguard
      | initializeDack => exact h.initializeDack true hguard
      | initializeRxDc => exact h.initializeRxDc hguard
      | calibrateRxDc channel => exact h.calibrateRxDc hguard
      | calibrateIqOnly channel => exact h.calibrateIqOnly hguard
      | calibrateTssi => exact h.calibrateTssi hguard
      | calibrateDpk => exact h.calibrateDpk hguard
      | trackDpk => exact h.trackDpk hguard
      | beginScan => exact h.beginScan hguard
      | prepareScanChannel channel => exact h.prepareScanChannel hguard
      | finishScan restored => exact h.finishScan hguard

/-! ## What the steps do -/

section Leads

variable (I : Imported) {s : Step}

/-- What is done after a lease: no more than to change the flags. -/
def Settles (s : Step) (f₀ f : Flags) (done : Bool → Gated Bool) : Prop :=
  ∀ ok d₁, d₁.flags = f → (done ok).wp (fun log r d₂ => log = [] ∧ d₂.result.error = d₁.result.error ∧
    (r = true → ok = true) ∧ (r = false → ok = false ∨ s = .initializeDack) ∧ d₂.flags = s.leave f₀ r) d₁

theorem wp_leads (s : Step) {stage : Stage} {body : Gated Unit} {done : Bool → Gated Bool} {d₀ : Initialization}
    (herror : d.result.error = .none) (hguard : s.Guard d.flags) (hbody : body.Keeps Calm)
    (hrefused : (d₀.entered stage).flags = s.leave d.flags false) (hdone : Settles s d.flags (d₀.entered stage).flags done) :
    (leased s.kind stage body done).wp (fun log r d' => Leads s d log r d') d₀ := by
  refine wp_leased hbody (fun log d' h => ?_) fun log ok d₁ h => ?_
  · exact Leads.led herror hguard h.led (fun _ hnone => absurd hnone h.error) (h.flags.trans hrefused)
  · -- What is done after the lease leaves the error, so that the account of the lease stands.
    refine wp_mono (hdone ok d₁ h.flags) fun log' r d₂ h' => ?_
    rcases h' with ⟨rfl, hsame, hyes, hno, hflags⟩
    rw [List.append_nil]
    refine Leads.led herror hguard ⟨fun hr => ?_, h.led.begins, ?_⟩ (fun hr hnone => ?_) hflags
    · rw [hsame]
      exact h.led.ended (hyes hr)
    · rw [hsame]
      exact h.led.leased
    · rw [hsame] at hnone
      exact (hno hr).resolve_left fun hok => h.error hok hnone

theorem settles_finishing {f₀ f : Flags} {g : Initialization → Initialization}
    (herror : ∀ d, (g d).result.error = d.result.error) (hyes : ∀ d, d.flags = f → (g d).flags = s.leave f₀ true)
    (hno : f = s.leave f₀ false) : Settles s f₀ f (finishing g) := by
  intro ok d₁ hd₁
  unfold finishing
  cases ok with
  | true =>
      rw [if_pos rfl, wp_modify_bind, wp_pure]
      exact ⟨rfl, herror d₁, fun _ => rfl, fun hno => absurd hno.symm Bool.false_ne_true, hyes d₁ hd₁⟩
  | false =>
      rw [if_neg Bool.false_ne_true, wp_pure]
      exact ⟨rfl, rfl, fun hno => absurd hno Bool.false_ne_true, fun _ => Or.inl rfl, hd₁.trans hno⟩

theorem idle_iff {r : Result} {stage : Stage} : r.idle stage = true ↔ r.stage = stage ∧ r.error = .none := by
  unfold Result.idle
  rw [Bool.and_eq_true, beq_iff_eq, beq_iff_eq]

theorem settled_iff {r : Result} :
    r.settled = true ↔ r.stage = .complete ∧ r.scanActive = false ∧ r.error = .none := by
  unfold Result.settled
  rw [Bool.and_eq_true, idle_iff, Bool.not_eq_true', and_assoc, and_comm (b := r.scanActive = false)]

theorem leads_guarded {p : Bool} {m : Gated Bool}
    (h : p = false → m.wp (fun log r d' => Leads s d log r d') d) :
    (if p then return false else m).wp (fun log r d' => Leads s d log r d') d := by
  cases p with
  | true => exact (wp_pure _).2 Leads.refused
  | false => exact h rfl

theorem calm_both {m m' : Gated Unit} (hm : m.Keeps Calm) (hm' : m'.Keeps Calm) : (do m; m').Keeps Calm :=
  Code.Keeps.bind calm_traced hm fun _ => hm'

theorem initializeRck_leads (h : d.result.error = .none → Chained d.flags) :
    (initializeRck I).wp (fun log r d' => Leads .initializeRck d log r d') d := by
  unfold initializeRck
  rw [wp_get_bind]
  refine leads_guarded fun hguard => ?_
  rw [Bool.not_eq_false', idle_iff] at hguard
  have hrck : d.flags.rck = false := (h hguard.2).idle hguard.1
  have hbody : (rckBody I).Keeps Calm := calm_both (calm_import _) (calm_checked
    (calm_both (calm_import _) (calm_checked (calm_import _) (calm_return ()))) (calm_return ()))
  -- The flag was not set before: a lease that is refused leaves it as a step does that fails.
  refine wp_leads .initializeRck hguard.2 hguard.1 hbody ?_ fun ok d₁ hd₁ => ?_
  · show { d.flags with stage := .rck } = { d.flags with stage := .rck, rck := false }
    rw [← hrck]
  · unfold rckDone
    rw [wp_modify_bind, wp_pure]
    exact ⟨rfl, rfl, id, Or.inl, congrArg (fun f : Flags => { f with rck := ok }) hd₁⟩

theorem initializeDack_leads (h : d.result.error = .none → Chained d.flags) :
    (initializeDack I).wp (fun log r d' => Leads .initializeDack d log r d') d := by
  unfold initializeDack
  rw [wp_get_bind]
  refine leads_guarded fun hguard => ?_
  rw [Bool.or_eq_false_iff, Bool.not_eq_false', Bool.not_eq_false', idle_iff] at hguard
  have hdack : d.flags.dack = false := (h hguard.1.2).first (Or.inr hguard.1.1)
  refine wp_leads .initializeDack hguard.1.2 ⟨hguard.1.1, hguard.2⟩ (calm_import _) ?_ fun ok d₁ hd₁ => ?_
  · show { d.flags with stage := .dack } = { d.flags with stage := .dack, dack := false }
    rw [← hdack]
  · unfold dackDone
    rw [wp_get_bind]
    by_cases hdone : (ok && d₁.measured.dackDone) = true
    · rw [if_pos hdone, wp_modify_bind, wp_pure]
      exact ⟨rfl, rfl, fun _ => (Bool.and_eq_true _ _ ▸ hdone).1, fun _ => Or.inr rfl,
        congrArg (fun f : Flags => { f with dack := true }) hd₁⟩
    · rw [if_neg hdone, wp_modify_bind, wp_pure]
      exact ⟨rfl, rfl, fun hno => absurd hno Bool.false_ne_true, fun _ => Or.inr rfl,
        congrArg (fun f : Flags => { f with dack := false }) hd₁⟩

theorem calm_rxDcBody : (rxDcBody I).Keeps Calm := calm_both (calm_import _) (calm_import _)

theorem settles_rxDcDone {f₀ f : Flags} {g : Initialization → Initialization}
    (herror : ∀ d, (g d).result.error = d.result.error)
    (hyes : ∀ d, d.flags = { f with rxDc := true } → (g d).flags = s.leave f₀ true)
    (hno : { f with rxDc := false } = s.leave f₀ false) : Settles s f₀ f (rxDcDone g) := by
  intro ok d₁ hd₁
  unfold rxDcDone finishing
  rw [wp_modify_bind]
  cases ok with
  | true =>
      rw [if_pos rfl, wp_modify_bind, wp_pure]
      have hready := congrArg (fun f : Flags => { f with rxDc := true }) hd₁
      exact ⟨rfl, herror _, fun _ => rfl, fun hno => absurd hno.symm Bool.false_ne_true, hyes _ hready⟩
  | false =>
      rw [if_neg Bool.false_ne_true, wp_pure]
      have hready := congrArg (fun f : Flags => { f with rxDc := false }) hd₁
      exact ⟨rfl, rfl, fun hno => absurd hno Bool.false_ne_true, fun _ => Or.inl rfl, hready.trans hno⟩

theorem initializeRxDc_leads (h : d.result.error = .none → Chained d.flags) :
    (initializeRxDc I).wp (fun log r d' => Leads .initializeRxDc d log r d') d := by
  unfold initializeRxDc
  rw [wp_get_bind]
  refine leads_guarded fun hguard => ?_
  rw [Bool.or_eq_false_iff, Bool.not_eq_false', Bool.not_eq_false', idle_iff] at hguard
  have hrxDc : d.flags.rxDc = false := ((h hguard.1.2).early (Or.inr (Or.inr hguard.1.1))).1
  refine wp_leads .initializeRxDc hguard.1.2 ⟨hguard.1.1, hguard.2⟩ (calm_rxDcBody I) ?_
    (settles_rxDcDone (fun _ => rfl) ?_ rfl)
  · show { d.flags with stage := .rxDc } = { d.flags with stage := .rxDc, rxDc := false }
    rw [← hrxDc]
  · exact fun _ hd => congrArg (fun f : Flags => { f with stage := .complete }) hd

theorem calibrateRxDc_leads (channel : Channel) :
    (calibrateRxDc I channel).wp (fun log r d' => Leads (.calibrateRxDc channel) d log r d') d := by
  unfold calibrateRxDc
  rw [wp_get_bind]
  refine leads_guarded fun hguard => ?_
  simp only [Bool.or_eq_false_iff, Bool.not_eq_false', settled_iff] at hguard
  rcases hguard with ⟨⟨⟨hstage, hscan, herror⟩, hrxDc⟩, hvalid⟩
  rw [wp_modify_bind]
  refine wp_leads (.calibrateRxDc channel) herror ⟨hstage, hscan, hrxDc, hvalid⟩ (calm_rxDcBody I)
    rfl (settles_rxDcDone (fun _ => rfl) ?_ rfl)
  exact fun _ hd => congrArg
    (fun f : Flags => { f with stage := .complete, rxDcChannel := channel, prepared := true }) hd

theorem calibrateIqOnly_leads (channel : Channel) :
    (calibrateIqOnly I channel).wp (fun log r d' => Leads (.calibrateIqOnly channel) d log r d') d := by
  unfold calibrateIqOnly
  rw [wp_get_bind]
  refine leads_guarded fun hguard => ?_
  simp only [Bool.or_eq_false_iff, Bool.not_eq_false', settled_iff, bne_eq_false_iff_eq] at hguard
  rcases hguard with ⟨⟨⟨⟨hstage, hscan, herror⟩, hprepared⟩, hrxDc⟩, hchannel⟩
  have hbody : (iqBody I).Keeps Calm :=
    calm_both (calm_import _) (calm_both (calm_import _) (calm_both (calm_import _) (calm_judgeBoth _)))
  rw [wp_modify_bind]
  refine wp_leads (.calibrateIqOnly channel) herror ⟨hstage, hscan, hprepared, hrxDc, hchannel⟩ hbody
    rfl (settles_finishing (fun _ => rfl) ?_ rfl)
  exact fun _ hd => congrArg (fun f : Flags => { f with iqChannel := channel, iq := true, stage := .complete }) hd

theorem calibrateTssi_leads : (calibrateTssi I).wp (fun log r d' => Leads .calibrateTssi d log r d') d := by
  unfold calibrateTssi
  rw [wp_get_bind]
  refine leads_guarded fun hguard => ?_
  simp only [Bool.or_eq_false_iff, Bool.not_eq_false', settled_iff] at hguard
  rcases hguard with ⟨⟨⟨hstage, hscan, herror⟩, hiq⟩, hconfigured⟩
  rw [wp_modify_bind]
  refine wp_leads .calibrateTssi herror ⟨hstage, hscan, hiq⟩ (calm_import _)
    rfl (settles_finishing (fun _ => rfl) ?_ rfl)
  exact fun _ hd => congrArg (fun f : Flags => { f with tssi := true, stage := .complete }) hd

theorem calibrateDpk_leads : (calibrateDpk I).wp (fun log r d' => Leads .calibrateDpk d log r d') d := by
  unfold calibrateDpk
  rw [wp_get_bind]
  refine leads_guarded fun hguard => ?_
  simp only [Bool.or_eq_false_iff, Bool.not_eq_false', settled_iff] at hguard
  rcases hguard with ⟨⟨⟨hstage, hscan, herror⟩, hiq⟩, htssi⟩
  have hbody : (dpkBody I).Keeps Calm :=
    Code.Keeps.modify_bind calm_traced (fun _ => Calm.silent rfl)
      (calm_both (calm_import _) (calm_both (calm_import _) (calm_judgeBoth _)))
  rw [wp_modify_bind]
  refine wp_leads .calibrateDpk herror ⟨hstage, hscan, hiq, htssi⟩ hbody rfl (settles_finishing (fun _ => rfl) ?_ rfl)
  exact fun _ hd => congrArg (fun f : Flags => { f with dpk := true, stage := .complete }) hd

theorem calm_sampleThermal : ∀ ps : List (Fin 2), (sampleThermal I ps).Keeps Calm
  | [] => calm_return ()
  | p :: ps => by
      have hadd : (addSample I p).Keeps Calm := Code.Keeps.bind calm_traced (calm_import _) fun sample =>
        calm_checked (fun _ => (wp_modify _).2 (Calm.silent rfl)) (calm_return ())
      exact calm_checked (calm_both hadd (calm_sampleThermal ps)) (calm_return ())

theorem trackDpk_leads : (trackDpk I).wp (fun log r d' => Leads .trackDpk d log r d') d := by
  unfold trackDpk
  rw [wp_get_bind]
  refine leads_guarded fun hguard => ?_
  simp only [Bool.or_eq_false_iff, Bool.not_eq_false', settled_iff] at hguard
  rcases hguard with ⟨⟨hstage, hscan, herror⟩, hdpk⟩
  rw [wp_modify_bind]
  refine wp_leads .trackDpk herror ⟨hstage, hscan, hdpk⟩ (calm_both (calm_sampleThermal I _) (calm_import _)) rfl
    (settles_finishing (fun _ => rfl) ?_ rfl)
  exact fun _ hd => congrArg (fun f : Flags => { f with dpk := true, stage := .complete }) hd

theorem startScan_leads (hsettled : d.result.settled = true) (hiq : d.result.iqReady = true)
    (htssi : d.result.tssiReady = true) : (startScan I).wp (fun log r d' => Leads .beginScan d log r d') d := by
  unfold startScan
  rw [wp_get_bind]
  refine leads_guarded fun _ => ?_
  rcases settled_iff.1 hsettled with ⟨hstage, hscan, herror⟩
  rw [wp_modify_bind]
  refine wp_leads .beginScan herror ⟨hstage, hscan, hiq, htssi⟩ (calm_import _)
    rfl (settles_finishing (fun _ => rfl) ?_ rfl)
  exact fun _ hd => congrArg (fun f : Flags => { f with scanActive := true, scanReady := true, stage := .complete }) hd

theorem prepareScanChannel_leads (channel : Channel) :
    (prepareScanChannel I channel).wp (fun log r d' => Leads (.prepareScanChannel channel) d log r d') d := by
  unfold prepareScanChannel
  rw [wp_get_bind]
  refine leads_guarded fun hguard => ?_
  simp only [Bool.or_eq_false_iff, Bool.not_eq_false', idle_iff] at hguard
  rcases hguard with ⟨⟨⟨hstage, herror⟩, hscan⟩, hvalid⟩
  rw [wp_modify_bind]
  refine wp_leads (.prepareScanChannel channel) herror ⟨hstage, hscan⟩ (calm_import _)
    rfl (settles_finishing (fun _ => rfl) ?_ rfl)
  exact fun _ hd => congrArg (fun f : Flags => { f with scanChannel := channel, scanReady := true, stage := .complete }) hd

theorem finishScan_leads (restored : Channel) :
    (finishScan I restored).wp (fun log r d' => Leads (.finishScan restored) d log r d') d := by
  unfold finishScan
  rw [wp_get_bind]
  refine leads_guarded fun hguard => ?_
  simp only [Bool.or_eq_false_iff, Bool.not_eq_false', idle_iff, bne_eq_false_iff_eq] at hguard
  rcases hguard with ⟨⟨⟨hstage, herror⟩, hscan⟩, hhome⟩
  rw [wp_modify_bind]
  refine wp_leads (.finishScan restored) herror ⟨hstage, hscan, hhome⟩ (calm_both (calm_import _) (calm_import _)) rfl
    (settles_finishing (fun _ => rfl) ?_ rfl)
  exact fun _ hd => congrArg (fun f : Flags =>
    { f with
      scanActive := false, scanChannel := restored, iqChannel := restored, iq := true, tssi := true, dpk := f.homeDpk
      stage := .complete }) hd

/-- Everything a call can do. -/
inductive Took (s : Step) (d : Initialization) : Trace → Bool → Initialization → Prop
  | alone {log : Trace} {r : Bool} {d' : Initialization} : Leads s d log r d' → Took s d log r d'
  | configured {identityValid : Bool} {antennaRx : UInt8} : s = .configureCalibration identityValid antennaRx →
      Took s d [] true { d with calibrationConfigured := true }
  /-- A scan that starts with a calibration, and ends there. -/
  | failed {log : Trace} {r : Bool} {d' : Initialization} : s = .beginScan → Leads .calibrateTssi d log r d' →
      Took s d log false d'
  /-- A scan that starts with a calibration. -/
  | both {log log' : Trace} {r : Bool} {d₁ d' : Initialization} : s = .beginScan → Leads .calibrateTssi d log true d₁ →
      Leads .beginScan d₁ log' r d' → Took s d (log ++ log') r d'

theorem configureCalibration_took (identityValid : Bool) (antennaRx : UInt8) :
    (configureCalibration identityValid antennaRx).wp
      (fun log r d' => Took (.configureCalibration identityValid antennaRx) d log r d') d := by
  unfold configureCalibration
  rw [wp_get_bind, wp_ite]
  refine ⟨fun _ => (wp_pure _).2 (Took.alone Leads.refused), fun _ => ?_⟩
  rw [wp_modify_bind, wp_pure]
  exact Took.configured rfl

/-- After a calibration that ended well a scan may start. -/
theorem Leads.calibrated {d₁ : Initialization} (h : Leads .calibrateTssi d log true d₁) :
    d₁.result.settled = true ∧ d₁.result.iqReady = true ∧ d₁.result.tssiReady = true := by
  cases h with
  | led herror hguard hled _ hflags =>
      rcases hguard with ⟨-, hscan, hiq⟩
      have hstage : d₁.result.stage = .complete := congrArg Flags.stage hflags
      have hscan' : d₁.result.scanActive = false := (congrArg Flags.scanActive hflags).trans hscan
      exact ⟨settled_iff.2 ⟨hstage, hscan', (hled.ended rfl).2⟩, (congrArg Flags.iq hflags).trans hiq,
        congrArg Flags.tssi hflags⟩

theorem beginScan_took : (beginScan I).wp (fun log r d' => Took .beginScan d log r d') d := by
  unfold beginScan
  rw [wp_get_bind, wp_ite]
  refine ⟨fun _ => (wp_pure _).2 (Took.alone Leads.refused), fun hguard => ?_⟩
  rw [Bool.not_eq_true] at hguard
  simp only [Bool.or_eq_false_iff, Bool.not_eq_false'] at hguard
  rcases hguard with ⟨⟨hsettled, hiq⟩, -⟩
  unfold tssiReady
  rw [Code.wp_both, wp_get_bind]
  by_cases htssi : d.result.tssiReady = true
  · rw [if_pos htssi, wp_pure]
    refine ⟨fun _ => ?_, fun hno => absurd hno.symm Bool.false_ne_true⟩
    exact wp_mono (startScan_leads I hsettled hiq htssi) fun log r d' h => Took.alone h
  · rw [if_neg htssi]
    refine wp_mono (calibrateTssi_leads I) fun log ok d₁ h => ⟨fun hok => ?_, fun _ => Took.failed rfl h⟩
    rw [hok] at h
    rcases h.calibrated with ⟨hsettled', hiq', htssi'⟩
    exact wp_mono (startScan_leads I hsettled' hiq' htssi') fun log' r d' h' => Took.both rfl h h'

theorem take_took (s : Step) (h : d.result.error = .none → Chained d.flags) :
    (take I s).wp (fun log r d' => Took s d log r d') d := by
  have halone : ∀ {m : Gated Bool}, m.wp (fun log r d' => Leads s d log r d') d →
      m.wp (fun log r d' => Took s d log r d') d := fun hm => wp_mono hm fun _ _ _ => Took.alone
  cases s with
  | configureCalibration identityValid antennaRx => exact configureCalibration_took identityValid antennaRx
  | initializeRck => exact halone (initializeRck_leads I h)
  | initializeDack => exact halone (initializeDack_leads I h)
  | initializeRxDc => exact halone (initializeRxDc_leads I h)
  | calibrateRxDc channel => exact halone (calibrateRxDc_leads I channel)
  | calibrateIqOnly channel => exact halone (calibrateIqOnly_leads I channel)
  | calibrateTssi => exact halone (calibrateTssi_leads I)
  | calibrateDpk => exact halone (calibrateDpk_leads I)
  | trackDpk => exact halone (trackDpk_leads I)
  | beginScan => exact beginScan_took I
  | prepareScanChannel channel => exact halone (prepareScanChannel_leads I channel)
  | finishScan restored => exact halone (finishScan_leads I restored)

end Leads

end Rfk
end Rtl8852be
