import Rtl8852be.Rfk.Leads

/-!
# Readiness — what the flags of a calibration stand for

* `Flag` — what is ready, the steps that set it and those that it does not survive;
* `Moved` — where the channel of a calibration comes from;
* `readiness` — runs: every flag was set by a step that ended well, with everything it rests on.
-/

namespace Rtl8852be
namespace Rfk

open Interaction

variable {d d' : Initialization} {log log' : Trace} {r : Bool} {s : Step}

/-! ## What a call keeps -/

theorem Leads.chained (h : Leads s d log r d') (hd : d.result.error = .none → Chained d.flags) :
    d'.result.error = .none → Chained d'.flags := by
  intro hnone
  cases h with
  | refused => exact hd hnone
  | led herror hguard _ hbad hflags =>
      rw [hflags]
      exact (hd herror).leave hguard fun hr => hbad hr hnone

theorem Leads.leased (h : Leads s d log r d') :
    ∃ held, Leased none log held ∧ (d'.result.error = .none → held = none) := by
  cases h with
  | refused => exact ⟨none, leased_nil none, fun _ => rfl⟩
  | led _ _ hled _ _ => exact hled.leased

theorem Leads.still (h : Leads s d log r d') (hd : d.result.error ≠ .none) : log = [] ∧ d' = d := by
  cases h with
  | refused => exact ⟨rfl, rfl⟩
  | led herror _ _ _ _ => exact absurd herror hd

theorem Leads.sound (h : Leads s d log r d') (hnone : d'.result.error = .none) : d.result.error = .none := by
  by_contra herror
  rw [(h.still herror).2] at hnone
  exact herror hnone

theorem Leads.ended (h : Leads s d log true d') : d'.result.error = .none := by
  cases h with
  | led _ _ hled _ _ => exact (hled.ended rfl).2

section Took

theorem Took.sound (h : Took s d log r d') (hnone : d'.result.error = .none) : d.result.error = .none := by
  cases h with
  | alone h => exact h.sound hnone
  | configured => exact hnone
  | failed _ h => exact h.sound hnone
  | both _ h h' => exact h.sound (h'.sound hnone)

theorem Took.still (h : Took s d log r d') (hd : d.result.error ≠ .none) : log = [] := by
  cases h with
  | alone h => exact (h.still hd).1
  | configured => rfl
  | failed _ h => exact (h.still hd).1
  | both _ h _ =>
      -- The calibration ended well, so that it was begun without an error.
      exact absurd (h.sound h.ended) hd

theorem Took.chained (h : Took s d log r d') (hd : d.result.error = .none → Chained d.flags) :
    d'.result.error = .none → Chained d'.flags := by
  cases h with
  | alone h => exact h.chained hd
  | configured =>
      intro hnone
      rcases hd hnone with ⟨hdpk, htssi, hiq, hscan, hprepared, hidle, hfirst, hearly, hdacked, hinitialized, hlive,
        hmeasured, htuned, haway⟩
      exact ⟨hdpk, htssi, hiq, hscan, hprepared, hidle, hfirst, hearly, hdacked, hinitialized, hlive, hmeasured, htuned,
        haway⟩
  | failed _ h => exact h.chained hd
  | both _ h h' => exact h'.chained (h.chained hd)

theorem Took.leased (h : Took s d log r d') :
    ∃ held, Leased none log held ∧ (d'.result.error = .none → held = none) := by
  cases h with
  | alone h => exact h.leased
  | configured => exact ⟨none, leased_nil none, fun _ => rfl⟩
  | failed _ h => exact h.leased
  | both _ h h' =>
      -- The calibration gave its lease back, and the scan takes one of its own.
      rcases h.leased with ⟨held, hheld, hnone⟩
      rw [hnone h.ended] at hheld
      rcases h'.leased with ⟨held', hheld', hnone'⟩
      exact ⟨held', hheld.trans hheld', hnone'⟩

end Took

/-! ## Flags -/

def Free (ks : List Kind) (log : Trace) : Prop := ∀ k ∈ ks, ¬ Began k log

theorem free_nil {ks : List Kind} : Free ks [] := by
  rintro k - ⟨ok, hmem⟩
  exact absurd hmem List.not_mem_nil

theorem Free.append {ks : List Kind} (h : Free ks log) (h' : Free ks log') : Free ks (log ++ log') := by
  intro k hk hbegan
  rcases began_append.1 hbegan with hbegan | hbegan
  · exact h k hk hbegan
  · exact h' k hk hbegan

theorem Led.free {kind : Kind} {ks : List Kind} (h : Led kind log r d') (hkind : kind ∉ ks) : Free ks log :=
  fun k hk hbegan => hkind (h.begins k hbegan ▸ hk)

/-- What is ready. -/
inductive Flag
  | rck
  | dack
  | rxDc
  | iq
  | tssi
  | dpk
  | scan
  deriving DecidableEq

def Flag.of : Flag → Flags → Bool
  | .rck, f => f.rck
  | .dack, f => f.dack
  | .rxDc, f => f.rxDc
  | .iq, f => f.iq
  | .tssi, f => f.tssi
  | .dpk, f => f.dpk
  | .scan, f => f.scanReady

def Flag.sets : Flag → List Kind
  | .rck => [.rck]
  | .dack => [.dack]
  | .rxDc => [.rxDc]
  | .iq => [.iqk, .scan]
  | .tssi => [.tssi, .scan]
  | .dpk => [.dpk, .track, .scan]
  | .scan => [.scan]

/-- The steps that it does not survive, unless they set it. -/
def Flag.drops : Flag → List Kind
  | .rck => [.rck]
  | .dack => [.dack]
  | .rxDc => [.rxDc]
  | .iq => [.rxDc, .iqk, .scan]
  | .tssi => [.rxDc, .iqk, .tssi, .scan]
  | .dpk => [.rxDc, .iqk, .tssi, .dpk, .track, .scan]
  | .scan => [.scan]

/-- A step that sets the flag ended well, and none was begun since that the flag does not survive. -/
def Made (x : Flag) (log : Trace) : Prop :=
  ∃ k ∈ x.sets, ∃ pre post, log = pre ++ .call (.end_ k true) true :: post ∧ Free x.drops post

theorem Made.append {x : Flag} (h : Made x log') : Made x (log ++ log') := by
  rcases h with ⟨k, hk, pre, post, rfl, hpost⟩
  exact ⟨k, hk, log ++ pre, post, (List.append_assoc log pre _).symm, hpost⟩

theorem Made.survive {x : Flag} (h : Made x log) (hfree : Free x.drops log') : Made x (log ++ log') := by
  rcases h with ⟨k, hk, pre, post, rfl, hpost⟩
  exact ⟨k, hk, pre, post ++ log', List.append_assoc pre _ log', hpost.append hfree⟩

/-- A flag that is set was set before and survived, or is made. -/
def Gained (x : Flag) (f : Flags) (log : Trace) (f' : Flags) : Prop :=
  x.of f' = true → (x.of f = true ∧ Free x.drops log) ∨ Made x log

theorem Gained.trans {x : Flag} {f f' f'' : Flags} (h : Gained x f log f') (h' : Gained x f' log' f'') :
    Gained x f (log ++ log') f'' := by
  intro hx
  rcases h' hx with ⟨hx', hfree'⟩ | hmade
  · rcases h hx' with ⟨hx'', hfree⟩ | hmade
    · exact Or.inl ⟨hx'', hfree.append hfree'⟩
    · exact Or.inr (hmade.survive hfree')
  · exact Or.inr hmade.append

theorem Flag.leave {f : Flags} (x : Flag) (h : Chained f) (hguard : s.Guard f) (hx : x.of (s.leave f r) = true) :
    x.of f = true ∧ s.kind ∉ x.drops ∨ r = true ∧ s.kind ∈ x.sets := by
  rcases h with ⟨hdpk, htssi, -, hscan, hprepared, hidle, hfirst, hearly, -, -, -, -, -, -⟩
  cases s with
  | configureCalibration identityValid antennaRx => exact hguard.elim
  | _ =>
      -- The step leaves the flag alone, or it sets it; else the flag is not set.
      cases x <;> cases r <;>
        first
        | refine Or.inl ⟨hx, ?_⟩; simp [Step.kind, Flag.drops]; done
        | refine Or.inr ⟨rfl, ?_⟩; simp [Step.kind, Flag.sets]; done
        | grind [Flag.of, Flag.drops, Step.kind, Flags.uncalibrated]

theorem Leads.gained (h : Leads s d log r d') (hd : d.result.error = .none → Chained d.flags) (x : Flag) :
    Gained x d.flags log d'.flags := by
  intro hx
  cases h with
  | refused => exact Or.inl ⟨hx, free_nil⟩
  | led herror hguard hled _ hflags =>
      rw [hflags] at hx
      rcases Flag.leave x (hd herror) hguard hx with ⟨hx', hkind⟩ | ⟨hr, hkind⟩
      · exact Or.inl ⟨hx', hled.free hkind⟩
      · -- The return of the lease is the last that is seen of the step.
        rcases (hled.ended hr).1 with ⟨pre, rfl⟩
        exact Or.inr ⟨s.kind, hkind, pre, [], rfl, free_nil⟩

theorem Took.gained (h : Took s d log r d') (hd : d.result.error = .none → Chained d.flags) (x : Flag) :
    Gained x d.flags log d'.flags := by
  cases h with
  | alone h => exact h.gained hd x
  | configured =>
      intro hx
      refine Or.inl ⟨?_, free_nil⟩
      cases x <;> exact hx
  | failed _ h => exact h.gained hd x
  | both _ h h' => exact (h.gained hd x).trans (h'.gained (h.chained hd) x)

/-! ## Channels -/

/-- The coefficients of IQ are those of this channel: now, or when the scan is over. -/
def Flags.calibrated (f : Flags) (c : Channel) : Prop :=
  f.iq = true ∧ f.iqChannel = c ∨ f.scanActive = true ∧ f.scanHome = c

/-- The distortion is corrected: now, or when the scan is over. -/
def Flags.corrected (f : Flags) : Prop := f.dpk = true ∨ f.scanActive = true ∧ f.homeDpk = true

section Leave

variable {f : Flags}

theorem Step.leave_prepared (h : Chained f) (hguard : s.Guard f) (hp : (s.leave f r).prepared = true) :
    s = .calibrateRxDc (s.leave f r).rxDcChannel ∧ r = true := by
  rcases h with ⟨hdpk, htssi, -, hscan, hprepared, -, -, hearly, -, -, -, -, -, -⟩
  cases s with
  | configureCalibration identityValid antennaRx => exact hguard.elim
  | _ =>
      -- Every other step clears the mark, or needs what goes with it being cleared.
      cases r <;> grind [Flags.uncalibrated]

theorem Step.leave_calibrated {c : Channel} (h : Chained f) (hguard : s.Guard f) (hc : (s.leave f r).calibrated c) :
    s = .calibrateIqOnly c ∧ r = true ∧ f.prepared = true ∧ f.rxDcChannel = c ∨
      s.kind ∉ [Kind.rxDc, .iqk] ∧ f.calibrated c := by
  rcases h with ⟨-, -, -, hscan, hprepared, -, -, hearly, -, -, -, -, -, -⟩
  unfold Flags.calibrated at hc ⊢
  cases s with
  | configureCalibration identityValid antennaRx => exact hguard.elim
  | _ =>
      -- A scan saves the calibrated channel, and its end brings it back; RX DC leaves none.
      cases r <;> grind [Step.kind, Flags.uncalibrated]

theorem Step.leave_corrected (h : Chained f) (hguard : s.Guard f) (hc : (s.leave f r).corrected) :
    s = .calibrateDpk ∧ r = true ∨ s.kind ∉ [Kind.rxDc, .iqk, .tssi] ∧ f.corrected := by
  rcases h with ⟨hdpk, htssi, -, hscan, hprepared, -, -, hearly, -, -, -, -, -, -⟩
  unfold Flags.corrected at hc ⊢
  cases s with
  | configureCalibration identityValid antennaRx => exact hguard.elim
  | _ =>
      -- TSSI clears the flag, so that a scan after it has nothing to keep.
      cases r <;> grind [Step.kind, Flags.uncalibrated]

end Leave

/-- Where calibrations come from: this step, or one before it. -/
structure Moved (s : Step) (r : Bool) (f : Flags) (log : Trace) (f' : Flags) : Prop where
  prepared : f'.prepared = true → s = .calibrateRxDc f'.rxDcChannel ∧ r = true ∨
    f.prepared = true ∧ f'.rxDcChannel = f.rxDcChannel ∧ log = []
  calibrated : ∀ c, f'.calibrated c →
    s = .calibrateIqOnly c ∧ r = true ∧ f.prepared = true ∧ f.rxDcChannel = c ∨ Free [.rxDc, .iqk] log ∧ f.calibrated c
  corrected : f'.corrected → s = .calibrateDpk ∧ r = true ∨ Free [.rxDc, .iqk, .tssi] log ∧ f.corrected

theorem moved_nothing {f : Flags} : Moved s r f [] f where
  prepared hp := Or.inr ⟨hp, rfl, rfl⟩
  calibrated _ hc := Or.inr ⟨free_nil, hc⟩
  corrected hc := Or.inr ⟨free_nil, hc⟩

theorem Leads.moved (h : Leads s d log r d') (hd : d.result.error = .none → Chained d.flags) :
    Moved s r d.flags log d'.flags := by
  cases h with
  | refused => exact moved_nothing
  | led herror hguard hled _ hflags =>
      rw [hflags]
      have hchained := hd herror
      refine ⟨fun hp => Or.inl (Step.leave_prepared hchained hguard hp), fun c hc => ?_, fun hc => ?_⟩
      · exact (Step.leave_calibrated hchained hguard hc).imp_right fun h => ⟨hled.free h.1, h.2⟩
      · exact (Step.leave_corrected hchained hguard hc).imp_right fun h => ⟨hled.free h.1, h.2⟩

theorem Moved.scan {f f' : Flags} {r' : Bool} (h : Moved .calibrateTssi r f log f') : Moved .beginScan r' f log f' where
  prepared hp := Or.inr ((h.prepared hp).resolve_left fun hs => Step.noConfusion hs.1)
  calibrated c hc := Or.inr ((h.calibrated c hc).resolve_left fun hs => Step.noConfusion hs.1)
  corrected hc := Or.inr ((h.corrected hc).resolve_left fun hs => Step.noConfusion hs.1)

theorem Moved.trans {f f' f'' : Flags} {r' : Bool} (h : Moved .beginScan r f log f')
    (h' : Moved .beginScan r' f' log' f'') : Moved .beginScan r' f (log ++ log') f'' := by
  refine ⟨fun hp => ?_, fun c hc => ?_, fun hc => ?_⟩
  · rcases (h'.prepared hp).resolve_left fun hs => Step.noConfusion hs.1 with ⟨hp', hsame', rfl⟩
    rcases (h.prepared hp').resolve_left fun hs => Step.noConfusion hs.1 with ⟨hp'', hsame, rfl⟩
    exact Or.inr ⟨hp'', hsame'.trans hsame, rfl⟩
  · rcases (h'.calibrated c hc).resolve_left fun hs => Step.noConfusion hs.1 with ⟨hfree', hc'⟩
    rcases (h.calibrated c hc').resolve_left fun hs => Step.noConfusion hs.1 with ⟨hfree, hc''⟩
    exact Or.inr ⟨hfree.append hfree', hc''⟩
  · rcases (h'.corrected hc).resolve_left fun hs => Step.noConfusion hs.1 with ⟨hfree', hc'⟩
    rcases (h.corrected hc').resolve_left fun hs => Step.noConfusion hs.1 with ⟨hfree, hc''⟩
    exact Or.inr ⟨hfree.append hfree', hc''⟩

theorem Took.moved (h : Took s d log r d') (hd : d.result.error = .none → Chained d.flags) :
    Moved s r d.flags log d'.flags := by
  cases h with
  | alone h => exact h.moved hd
  | configured => exact ⟨moved_nothing.prepared, moved_nothing.calibrated, moved_nothing.corrected⟩
  | failed hs h =>
      rw [hs]
      exact (h.moved hd).scan
  | both hs h h' =>
      rw [hs]
      have hscan : Moved .beginScan true d.flags _ _ := (h.moved hd).scan
      exact hscan.trans (h'.moved (h.chained hd))

/-! ## Runs -/

/-- RX DC was calibrated on this channel, and nothing was done since. -/
def PreparedFor (c : Channel) : List Taken → Prop :=
  Since (fun y => y.log = []) fun y _ => y.op = .calibrateRxDc c ∧ y.result = true

/-- IQ was calibrated on this channel, RX DC right before it, and neither since. -/
def CalibratedFor (c : Channel) : List Taken → Prop :=
  Since (fun y => Free [.rxDc, .iqk] y.log) fun y earlier =>
    y.op = .calibrateIqOnly c ∧ y.result = true ∧ PreparedFor c earlier

/-- The distortion was corrected, and what this rests on was not calibrated again. -/
def Corrected : List Taken → Prop :=
  Since (fun y => Free [.rxDc, .iqk, .tssi] y.log) fun y _ => y.op = .calibrateDpk ∧ y.result = true

/-- What the flags stand for. -/
structure Readiness (h : List Taken) (d : Initialization) : Prop where
  chained : d.result.error = .none → Chained d.flags
  leased : ∃ held, Leased none (eventsOf h) held ∧ (d.result.error = .none → held = none)
  still : ∀ x ∈ h, x.before.result.error ≠ .none → x.log = []
  made : ∀ x : Flag, x.of d.flags = true → Made x (eventsOf h)
  prepared : d.preparedRxDc = true → PreparedFor d.rxDcChannel h
  calibrated : ∀ c, d.flags.calibrated c → CalibratedFor c h
  corrected : d.flags.corrected → Corrected h

theorem readiness_init : Readiness [] {} where
  chained _ := by constructor <;> decide
  leased := ⟨none, leased_nil none, fun _ => rfl⟩
  still x hx := absurd hx List.not_mem_nil
  made x hx := by cases x <;> exact absurd hx Bool.false_ne_true
  prepared hp := absurd hp Bool.false_ne_true
  calibrated c hc := by
    rcases hc with ⟨hiq, -⟩ | ⟨hscan, -⟩
    · exact absurd hiq Bool.false_ne_true
    · exact absurd hscan Bool.false_ne_true
  corrected hc := by
    rcases hc with hdpk | ⟨hscan, -⟩
    · exact absurd hdpk Bool.false_ne_true
    · exact absurd hscan Bool.false_ne_true

theorem Took.keeps {h : List Taken} (htook : Took s d log r d') (ih : Readiness h d) :
    Readiness (⟨d, s, log, r, d'⟩ :: h) d' := by
  have hmoved := htook.moved ih.chained
  refine ⟨htook.chained ih.chained, ?_, ?_, fun x hx => ?_, fun hp => ?_, fun c hc => ?_, fun hc => ?_⟩
  · rcases ih.leased with ⟨held, hheld, hnone⟩
    by_cases herror : d.result.error = .none
    · -- Nothing is held before the call, so that its own leases are in order after what was before.
      rcases htook.leased with ⟨held', hheld', hnone'⟩
      rw [hnone herror] at hheld
      exact ⟨held', hheld.trans hheld', hnone'⟩
    · -- After an error nothing is asked for, and what is held stays so.
      refine ⟨held, hheld.trans ?_, fun hno => absurd (htook.sound hno) herror⟩
      rw [htook.still herror]
      exact leased_nil held
  · exact List.forall_mem_cons.2 ⟨fun herror => htook.still herror, ih.still⟩
  · rcases htook.gained ih.chained x hx with ⟨hx', hfree⟩ | hmade
    · exact (ih.made x hx').survive hfree
    · exact hmade.append
  · rcases hmoved.prepared hp with ⟨hs, hr⟩ | ⟨hp', hsame, hlog⟩
    · exact Since.here ⟨hs, hr⟩
    · have hprepared : PreparedFor d.rxDcChannel h := ih.prepared hp'
      rw [← show d'.rxDcChannel = d.rxDcChannel from hsame] at hprepared
      exact Since.cons hlog hprepared
  · rcases hmoved.calibrated c hc with ⟨hs, hr, hp, hchannel⟩ | ⟨hfree, hc'⟩
    · -- What was prepared is for this very channel.
      have hprepared : PreparedFor d.rxDcChannel h := ih.prepared hp
      rw [show d.rxDcChannel = c from hchannel] at hprepared
      exact Since.here ⟨hs, hr, hprepared⟩
    · exact Since.cons hfree (ih.calibrated c hc')
  · rcases hmoved.corrected hc with ⟨hs, hr⟩ | ⟨hfree, hc'⟩
    · exact Since.here ⟨hs, hr⟩
    · exact Since.cons hfree (ih.corrected hc')

theorem readiness {I : Imported} {h : List Taken} {d : Initialization} (hrun : Steps I h d) : Readiness h d := by
  refine Run.invariant readiness_init (fun _ ih hout => ?_) hrun
  exact (wp_outcome (take_took I _ ih.chained) hout).keeps ih

/-! ## From one channel to another and back -/

section Example

/-- Calibrations that measure what they should. -/
def measuring (g : Measured → Measured) : Body Unit := .ask (.measure g) fun _ => .done ()

def channel36 : Channel := ⟨1, 0, 36⟩

def backup36 : DpkBackup := { pathOk := true, therDpk := 30, ch := 36, band := 1, bw := 0 }

def wellBehaved : Imported where
  setDpdBackoff := .done ()
  rck _ := .done ()
  dacCal := measuring fun m => { m with dackDone := true }
  waitRxMode := .done ()
  rxDck := .done ()
  iqkInit := .done ()
  iqk := .done ()
  tssi := measuring fun m => { m with isTssiMode := fun _ => true }
  dpk := measuring fun m => { m with bp := fun _ _ => backup36 }
  getThermal _ := .done 30
  dpkTrack := .done ()
  wifiScanNotify _ := .done ()
  tssiScan := .done ()

def granting (c : Call) : Unit → Reply c × Unit := fun _ =>
  match c with
  | .nowUs | .startUs => ((0 : UInt64), ())
  | .readRf _ _ _ | .readBb _ => ((true, (0 : UInt32)), ())
  | .cancelled => (false, ())
  | .writeRf _ _ _ _ | .writeBb _ _ | .writeMac _ _ | .delayUs _ | .oneshot _ _ _ | .armCalibrationTx
  | .stopCalibrationTx | .begin_ _ | .end_ _ _ | .drain => (true, ())

/-- All calibrations, and a scan of another channel. -/
def roundTrip : List Step :=
  [.configureCalibration true 3, .initializeRck, .initializeDack, .initializeRxDc, .calibrateRxDc channel36,
    .calibrateIqOnly channel36, .calibrateTssi, .calibrateDpk, .beginScan, .prepareScanChannel ⟨1, 0, 40⟩,
    .finishScan channel36]

theorem readiness_roundTrip :
    (replay (take wellBehaved) granting roundTrip {} ()).1.all (·.result) = true ∧
      (replay (take wellBehaved) granting roundTrip {} ()).2.1.result.dpkReady = true ∧
      Readiness (replay (take wellBehaved) granting roundTrip {} ()).1
        (replay (take wellBehaved) granting roundTrip {} ()).2.1 :=
  ⟨by decide +kernel, by decide +kernel, readiness (replay_run (take wellBehaved) granting roundTrip {} ())⟩

end Example

end Rfk
end Rtl8852be
