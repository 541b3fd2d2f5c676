import Rtl8852be.Firmware.FirmwareBoot

/-!
# BootCleanup — what a probe leaves behind

* `Underway` — what every step of the sequence does to the record;
* `Booted` — the processor was fresh, and its ROM has said that it is ready;
* `Series` — steps that are all made, with the word whether all went well;
* `probe_cleans_up` — every block that was entered is undone step by step, whatever fails, and a good report is
  one on registers that were read back.
-/

namespace Rtl8852be
namespace Boot

open Interaction Code

/-! ## The first mismatch -/

def noted : Event Io Reply Mismatch → Option Mismatch
  | .note x => some x
  | _ => none

def mismatches (log : Trace) : List Mismatch := log.filterMap noted

def Probe.mismatch (d : Probe) : Option Mismatch :=
  if d.r.failureRecorded then some (d.r.failureAddress, d.r.failureMask, d.r.failureExpected, d.r.failureActual) else none

theorem mismatched_mismatch (d : Probe) (x : Mismatch) : (d.mismatched x).mismatch = d.mismatch.or (some x) := by
  unfold Probe.mismatched Probe.mismatch
  by_cases h : d.r.failureRecorded = true
  · simp only [h, if_true]
    rfl
  · simp only [h]
    rfl

def isAction : Event Io Reply Mismatch → Bool
  | .call .action _ => true
  | _ => false

/-- The registers of the processor and of its boot. -/
def processor : List UInt32 := [0x88, 0x1e0, 8, 0x1f4, 0x1f8, 0x160, 0x164, 0x168, 0x16c, 0xc00]

def registerLevel (a : UInt32) : ℕ :=
  if a ∈ processor then 5 else if a = 0x8a00 ∨ a = 0x8a04 then 4 else if a = 0x1000 ∨ a = 0x1010 then 1 else 0

/-- The phase to which what is written belongs. -/
def level : Event Io Reply Mismatch → ℕ
  | .call (.bootWrite32 a _) _ => registerLevel a
  | .call (.bootWrite16 _ _) _ => 5
  | _ => 0

/-! ## The sequence -/

section Underway

variable {V : Type} (view : Probe → V) (n : ℕ)

/-- A step of the sequence: only the first mismatch is kept, nothing is ready yet, the action is not run, and nothing
above `n` is written. -/
structure Underway (d : Probe) (log : Trace) (d' : Probe) : Prop where
  mismatch : d'.mismatch = d.mismatch.or (mismatches log).head?
  same : view d' = view d
  pending : d.r.status ≠ .ready → d'.r.status ≠ .ready
  quiet : ∀ e ∈ log, isAction e = false ∧ level e ≤ n

theorem underway_traced : Traced (Underway view n) where
  refl d := ⟨Option.or_none.symm, rfl, id, fun _ he => absurd he List.not_mem_nil⟩
  trans := by
    intro d d' d'' log log' h h'
    refine ⟨?_, h'.same.trans h.same, fun hs => h'.pending (h.pending hs), fun e he => ?_⟩
    · rw [h'.mismatch, h.mismatch, mismatches, mismatches, mismatches, List.filterMap_append, List.head?_append,
        Option.or_assoc]
    · exact (List.mem_append.1 he).elim (h.quiet e) (h'.quiet e)

variable {view n}

theorem underway_silent {d d' : Probe} (hmismatch : d'.mismatch = d.mismatch) (hsame : view d' = view d)
    (hpending : d.r.status ≠ .ready → d'.r.status ≠ .ready) : Underway view n d [] d' :=
  ⟨hmismatch.trans Option.or_none.symm, hsame, hpending, fun _ he => absurd he List.not_mem_nil⟩

theorem underway_call {d : Probe} {c : Io} {r : Reply c} (hc : isAction (.call c r) = false ∧ level (.call c r) ≤ n) :
    Underway view n d [.call c r] d := by
  refine ⟨Option.or_none.symm, rfl, id, fun e he => ?_⟩
  rw [List.mem_singleton.1 he]
  exact hc

variable {α : Type}

theorem keeps_ask {c : Io} {f : Reply c → Probing α} (hc : ∀ r, isAction (.call c r) = false ∧ level (.call c r) ≤ n)
    (hf : ∀ r, (f r).Keeps (Underway view n)) :
    (ask c >>= f).Keeps (Underway view n) :=
  Keeps.ask_bind (underway_traced view n) (fun _ r => underway_call (hc r)) hf

theorem keeps_read {c : Io} {f : Reply c → Probing α} (hf : ∀ r, (f r).Keeps (Underway view n))
    (hc : ∀ r, isAction (.call c r) = false ∧ level (.call c r) = 0 := by exact fun _ => ⟨rfl, rfl⟩) :
    (ask c >>= f).Keeps (Underway view n) :=
  keeps_ask (fun r => ⟨(hc r).1, (hc r).2 ▸ Nat.zero_le n⟩) hf

theorem keeps_modify {g : Probe → Probe} {f : PUnit → Probing α} (hmismatch : ∀ d, (g d).mismatch = d.mismatch)
    (hsame : ∀ d, view (g d) = view d) (hstatus : ∀ d, d.r.status ≠ .ready → (g d).r.status ≠ .ready)
    (hf : (f ⟨⟩).Keeps (Underway view n)) : (modify g >>= f).Keeps (Underway view n) :=
  Keeps.modify_bind (underway_traced view n) (fun d => underway_silent (hmismatch d) (hsame d) (hstatus d)) hf

theorem keeps_return (a : α) : (pure a : Probing α).Keeps (Underway view n) := Keeps.pure (underway_traced view n) a

theorem keeps_both {m m' : Probing Bool} (hm : m.Keeps (Underway view n)) (hm' : m'.Keeps (Underway view n)) :
    (both m m').Keeps (Underway view n) :=
  Keeps.both (underway_traced view n) hm hm'

theorem keeps_every {ms : List (Probing Bool)} (h : ∀ m ∈ ms, m.Keeps (Underway view n)) :
    (every ms).Keeps (Underway view n) :=
  Keeps.every (underway_traced view n) h

/-- What the steps of a stage do not touch: the account of the cleanup, what was captured, and the phase. -/
def Probe.steady (d : Probe) : UInt32 × (Bool × Bool) × Bool × UInt32 × UInt32 × ℕ :=
  (d.r.cleanupFailures, (d.r.attempted, d.r.accessAttempted), d.r.hciCaptured, d.hci, d.stop, d.r.phase)

theorem mismatched_steady (d : Probe) (x : Mismatch) : (d.mismatched x).steady = d.steady := by
  unfold Probe.mismatched
  split <;> rfl

theorem mismatched_status (d : Probe) (x : Mismatch) : (d.mismatched x).r.status = d.r.status := by
  unfold Probe.mismatched
  split <;> rfl

theorem valueMatches_keeps (address value mask expected : UInt32) :
    (valueMatches address value mask expected).Keeps (Underway Probe.steady n) := by
  refine Keeps.ite (keeps_return true) fun d => ?_
  rw [wp_tell_bind, wp_modify_bind, wp_pure]
  refine ⟨mismatched_mismatch d _, mismatched_steady d _, fun hs => ?_, fun e he => ?_⟩
  · rw [mismatched_status]
    exact hs
  · rw [List.mem_singleton.1 he]
    exact ⟨rfl, Nat.zero_le n⟩

theorem stopWith_keeps {s : Status} (hs : s ≠ .ready) : (stopWith s).Keeps (Underway Probe.steady n) :=
  keeps_modify (fun _ => rfl) (fun _ => rfl) (fun _ _ => hs) (keeps_return false)

theorem wr_keeps {a : UInt32} (ha : registerLevel a ≤ n) (v : UInt32) : (wr a v).Keeps (Underway Probe.steady n) := by
  refine keeps_modify (fun _ => rfl) (fun _ => rfl) (fun _ h => h) (keeps_ask (fun _ => ⟨rfl, ha⟩) fun ok => ?_)
  exact Keeps.ite (keeps_return true) (stopWith_keeps (by decide))

theorem rm_keeps {a : UInt32} (ha : registerLevel a ≤ n) (mask value : UInt32) :
    (rm a mask value).Keeps (Underway Probe.steady n) :=
  keeps_read fun _ => Keeps.ite (stopWith_keeps (by decide)) (wr_keeps ha _)

/-- `set` only fills in a value. -/
structure Fills (set : Result → UInt32 → Result) : Prop where
  mismatch : ∀ (d : Probe) v, ({ d with r := set d.r v } : Probe).mismatch = d.mismatch
  steady : ∀ (d : Probe) v, ({ d with r := set d.r v } : Probe).steady = d.steady
  status : ∀ r v, (set r v).status = r.status

variable {set : Result → UInt32 → Result}

theorem pollFrom_keeps (a mask wanted : UInt32) (timeout : UInt64) (hset : Fills set) (start : UInt64) (rounds : ℕ) :
    (pollFrom a mask wanted timeout set start rounds).Keeps (Underway Probe.steady n) := by
  induction rounds with
  | zero => exact stopWith_keeps (by decide)
  | succ rounds ih =>
      refine keeps_read fun now => Keeps.ite (stopWith_keeps (by decide)) (keeps_read fun last => ?_)
      refine keeps_modify (fun d => hset.mismatch d last) (fun d => hset.steady d last) (fun d hs => ?_) ?_
      · show (set d.r last).status ≠ .ready
        rw [hset.status]
        exact hs
      · refine Keeps.ite (stopWith_keeps (by decide)) (Keeps.ite (keeps_return true) ?_)
        exact keeps_read fun _ => ih

theorem poll_keeps (a mask wanted : UInt32) (timeout : UInt64) (hset : Fills set) :
    (poll a mask wanted timeout set).Keeps (Underway Probe.steady n) :=
  keeps_read fun start => pollFrom_keeps a mask wanted timeout hset start _

theorem orStop_keeps {m : Probing Bool} (hm : m.Keeps (Underway Probe.steady n)) {s : Status} (hs : s ≠ .ready) :
    (orStop m s).Keeps (Underway Probe.steady n) :=
  Keeps.bind (underway_traced _ n) hm fun _ => Keeps.ite (keeps_return true) (stopWith_keeps hs)

theorem readBack_keeps (a mask expected : UInt32) (hset : Fills set) {s : Status} (hs : s ≠ .ready) :
    (readBack a mask expected set s).Keeps (Underway Probe.steady n) := by
  refine keeps_read fun v => keeps_modify (fun d => hset.mismatch d v) (fun d => hset.steady d v) (fun d h => ?_) ?_
  · show (set d.r v).status ≠ .ready
    rw [hset.status]
    exact h
  · exact orStop_keeps (valueMatches_keeps _ _ _ _) hs

end Underway

/-! ## The stages -/

def Probe.captured (d : Probe) : UInt32 × (Bool × Bool) × Bool × UInt32 × UInt32 :=
  (d.r.cleanupFailures, (d.r.attempted, d.r.accessAttempted), d.r.hciCaptured, d.hci, d.stop)

variable {d d' : Probe}

theorem Underway.raise {V : Type} {view : Probe → V} {n k : ℕ} {log : Trace} (h : Underway view n d log d')
    (hk : n ≤ k) : Underway view k d log d' :=
  ⟨h.mismatch, h.same, h.pending, fun e he => ⟨(h.quiet e he).1, (h.quiet e he).2.trans hk⟩⟩

theorem Underway.captured {n : ℕ} {log : Trace} (h : Underway Probe.steady n d log d') :
    Underway Probe.captured n d log d' :=
  ⟨h.mismatch, congrArg (fun x => (x.1, x.2.1, x.2.2.1, x.2.2.2.1, x.2.2.2.2.1)) h.same, h.pending, h.quiet⟩

theorem Underway.phase {n : ℕ} {log : Trace} (h : Underway Probe.steady n d log d') :
    d'.r.phase = d.r.phase :=
  congrArg (·.2.2.2.2.2) h.same

/-- From phase `n` to phase `k`: nothing is written that does not belong to the phase that was reached. -/
structure Passed (n k : ℕ) (d : Probe) (log : Trace) (ok : Bool) (d' : Probe) : Prop where
  under : Underway Probe.captured d'.r.phase d log d'
  later : n ≤ d'.r.phase
  reached : ok = true → d'.r.phase = k

def Passes (n k : ℕ) (m : Probing Bool) : Prop :=
  ∀ d, d.r.phase = n → m.wp (fun log ok d' => Passed n k d log ok d') d

section Passes

variable {n k : ℕ}

theorem passes_within {m : Probing Bool} (hm : m.Keeps (Underway Probe.steady n)) : Passes n n m := by
  intro d hd
  refine wp_mono (hm d) fun log ok d' h => ?_
  have hphase : d'.r.phase = n := h.phase.trans hd
  exact ⟨h.captured.raise hphase.ge, hphase.ge, fun _ => hphase⟩

theorem Passes.both {j : ℕ} {m m' : Probing Bool} (hm : Passes n k m) (hm' : Passes k j m') :
    Passes n j (both m m') := by
  intro d hd
  rw [wp_both]
  refine wp_mono (hm d hd) fun log ok d₁ h => ⟨fun hok => ?_, fun _ => ⟨h.under, h.later, nofun⟩⟩
  refine wp_mono (hm' d₁ (h.reached hok)) fun log' ok' d₂ h' => ?_
  have hlater : d₁.r.phase ≤ d₂.r.phase := (h.reached hok).le.trans h'.later
  exact ⟨(underway_traced _ _).trans (h.under.raise hlater) h'.under, h.later.trans hlater, h'.reached⟩

theorem passes_enter (hk : n ≤ k) : Passes n k (both (enterPhase k) (return true)) := by
  intro d hd
  unfold enterPhase
  rw [wp_both, wp_modify_bind, wp_pure]
  refine ⟨fun _ => ?_, nofun⟩
  rw [wp_pure]
  exact ⟨underway_silent rfl rfl id, hk, fun _ => rfl⟩

theorem passes_stage {l : List (Probing Bool)} (hl : ∀ m ∈ l, m.Keeps (Underway Probe.steady n)) (hk : n ≤ k) :
    Passes n k (every (l ++ [enterPhase k])) := by
  induction l with
  | nil => exact passes_enter hk
  | cons m l ih =>
      refine Passes.both (passes_within (hl m List.mem_cons_self)) ?_
      exact ih fun m' hm' => hl m' (List.mem_cons_of_mem _ hm')

end Passes

theorem pauseDma_passes : Passes 1 2 pauseDma := by
  intro d hd
  unfold pauseDma
  rw [wp_get_bind]
  refine passes_stage (l := [wr 0x1000 (d.hci &&& ~~~0x2800), wr 0x1010 (d.stop ||| stopChannels),
    poll 0x101c busyChannels 0 2000 (fun r _ => r), paused]) (fun m hm => ?_) (by decide) d hd
  simp only [List.mem_cons, List.not_mem_nil, or_false] at hm
  rcases hm with rfl | rfl | rfl | rfl
  · exact wr_keeps (by decide) _
  · exact wr_keeps (by decide) _
  · exact poll_keeps _ _ _ _ ⟨fun _ _ => rfl, fun _ _ => rfl, fun _ _ => rfl⟩
  · refine keeps_read fun hci => keeps_read fun stop => ?_
    refine keeps_modify (fun _ => rfl) (fun _ => rfl) (fun _ h => h) (orStop_keeps ?_ (by decide))
    exact keeps_both (valueMatches_keeps _ _ _ _) (valueMatches_keeps _ _ _ _)

theorem quota_level : ∀ i ∈ List.range 11, registerLevel (0x9040 + 4 * UInt32.ofNat i) = 0 := by
  decide

theorem layout_passes : Passes 2 3 layout := by
  refine passes_stage (l := [rm 0x8400 0x04800000 0, rm 0x8404 0x04800000 0x04800000, rm 0x8c08 0x1fff3f03 0,
    rm 0x9008 0x1fff3f03 0x00400801, wr 0x8c40 0, wr 0x8c44 48, wr 0x8c4c 0, wr 0x8c50 0] ++
      (List.range 11).map quota ++ [rm 0x8400 0x04800000 0x04800000]) (fun m hm => ?_) (by decide)
  rcases List.mem_append.1 hm with hm | hm
  · rcases List.mem_append.1 hm with hm | hm
    · simp only [List.mem_cons, List.not_mem_nil, or_false] at hm
      rcases hm with rfl | rfl | rfl | rfl | rfl | rfl | rfl | rfl
      · exact rm_keeps (by decide) _ _
      · exact rm_keeps (by decide) _ _
      · exact rm_keeps (by decide) _ _
      · exact rm_keeps (by decide) _ _
      · exact wr_keeps (by decide) _
      · exact wr_keeps (by decide) _
      · exact wr_keeps (by decide) _
      · exact wr_keeps (by decide) _
    · rcases List.mem_map.1 hm with ⟨i, hi, rfl⟩
      exact wr_keeps ((quota_level i hi).le.trans (Nat.zero_le 2)) _
  · rw [List.mem_singleton.1 hm]
    exact rm_keeps (by decide) _ _

theorem buffersReady_passes : Passes 3 4 buffersReady := by
  refine passes_stage (l := [poll 0x8d00 3 3 2000 (fun r v => { r with wde := v }),
    poll 0x9100 3 3 2000 (fun r v => { r with ple := v })]) (fun m hm => ?_) (by decide)
  simp only [List.mem_cons, List.not_mem_nil, or_false] at hm
  rcases hm with rfl | rfl
  · exact poll_keeps _ _ _ _ ⟨fun _ _ => rfl, fun _ _ => rfl, fun _ _ => rfl⟩
  · exact poll_keeps _ _ _ _ ⟨fun _ _ => rfl, fun _ _ => rfl, fun _ _ => rfl⟩

theorem configured_keeps {n : ℕ} : configured.Keeps (Underway Probe.steady n) := by
  refine keeps_read fun wde => keeps_read fun ple => keeps_read fun control => keeps_read fun pages => ?_
  refine keeps_modify (fun _ => rfl) (fun _ => rfl) (fun _ h => h) (orStop_keeps (keeps_every fun m hm => ?_) (by decide))
  simp only [List.mem_cons, List.not_mem_nil, or_false] at hm
  rcases hm with rfl | rfl | rfl | rfl <;> exact valueMatches_keeps _ _ _ _

theorem flowControl_passes : Passes 4 5 flowControl := by
  refine passes_stage (l := [rm 0x8a00 9 0, wr 0x8a04 ((40 : UInt32) <<< 16), rm 0x8a00 0xc00 0, rm 0x8a00 9 8,
    configured]) (fun m hm => ?_) (by decide)
  simp only [List.mem_cons, List.not_mem_nil, or_false] at hm
  rcases hm with rfl | rfl | rfl | rfl | rfl
  · exact rm_keeps (by decide) _ _
  · exact wr_keeps (by decide) _
  · exact rm_keeps (by decide) _ _
  · exact rm_keeps (by decide) _ _
  · exact configured_keeps

theorem resetProcessor_passes (reason : UInt16) : Passes 5 5 (resetProcessor reason) := by
  have hreason : (writeReason reason).Keeps (Underway Probe.steady 5) := by
    refine keeps_modify (fun _ => rfl) (fun _ => rfl) (fun _ h => h) (keeps_ask (fun _ => ⟨rfl, le_rfl⟩) fun ok => ?_)
    exact Keeps.ite (keeps_return true) (stopWith_keeps (by decide))
  refine passes_within (keeps_every fun m hm => ?_)
  simp only [List.mem_cons, List.not_mem_nil, or_false] at hm
  rcases hm with rfl | rfl | rfl | rfl | rfl | rfl | rfl | rfl | rfl | rfl | rfl | rfl | rfl | rfl | rfl | rfl | rfl
  · exact rm_keeps (by decide) _ _
  · exact rm_keeps (by decide) _ _
  · exact rm_keeps (by decide) _ _
  · exact rm_keeps (by decide) _ _
  · exact rm_keeps (by decide) _ _
  · exact rm_keeps (by decide) _ _
  · exact rm_keeps (by decide) _ _
  · exact wr_keeps (by decide) _
  · exact wr_keeps (by decide) _
  · exact wr_keeps (by decide) _
  · exact wr_keeps (by decide) _
  · exact wr_keeps (by decide) _
  · exact wr_keeps (by decide) _
  · exact rm_keeps (by decide) _ _
  · exact rm_keeps (by decide) _ _
  · exact rm_keeps (by decide) _ _
  · exact hreason

theorem freshState_passes : Passes 5 5 freshState :=
  passes_within (keeps_read fun _ => orStop_keeps (valueMatches_keeps _ _ _ _) (by decide))

theorem release_passes : Passes 5 6 release :=
  Passes.both (passes_within (rm_keeps (by decide) _ _)) (passes_enter (by decide))

theorem romReady_passes : Passes 6 6 romReady := by
  refine passes_within (keeps_both (poll_keeps _ _ _ _ ⟨fun _ _ => rfl, fun _ _ => rfl, fun _ _ => rfl⟩) ?_)
  exact Keeps.get_bind fun _ =>
    Keeps.ite (stopWith_keeps (by decide)) (Keeps.ite (stopWith_keeps (by decide)) (keeps_return true))

theorem clocked_passes : Passes 6 6 clocked := by
  refine passes_within (keeps_read fun dmac => keeps_read fun clock => ?_)
  refine keeps_modify (fun _ => rfl) (fun _ => rfl) (fun _ h => h) (orStop_keeps ?_ (by decide))
  exact keeps_both (valueMatches_keeps _ _ _ _) (valueMatches_keeps _ _ _ _)

theorem afterAccess_passes (reason : UInt16) :
    Passes 1 6 (both (every [pauseDma, layout, buffersReady, flowControl, resetProcessor reason]) <|
      both freshState <| both release <| both romReady clocked) := by
  have hstages : Passes 1 5 (every [pauseDma, layout, buffersReady, flowControl, resetProcessor reason]) :=
    pauseDma_passes.both <| layout_passes.both <| buffersReady_passes.both <| flowControl_passes.both <|
      (resetProcessor_passes reason).both (passes_within (keeps_return true))
  exact hstages.both (freshState_passes.both (release_passes.both (romReady_passes.both clocked_passes)))

/-! ## What was captured -/

/-- What is captured was read, one register directly after the other. -/
def Captures (d : Probe) (log : Trace) : Prop :=
  d.r.hciCaptured = true →
    ∃ pre post, log = pre ++ [.call (.read32 0x1000) d.hci, .call (.read32 0x1010) d.stop] ++ post

def Probe.account (d : Probe) : UInt32 × Bool × Bool := (d.r.cleanupFailures, d.r.attempted, d.r.accessAttempted)

theorem Underway.account {n : ℕ} {log : Trace} (h : Underway Probe.captured n d log d') :
    Underway Probe.account n d log d' :=
  ⟨h.mismatch, congrArg (fun x => (x.1, x.2.1)) h.same, h.pending, h.quiet⟩

/-- The window is open, and the HCI registers are captured; or phase 1 is not reached. -/
structure Opened (d : Probe) (log : Trace) (ok : Bool) (d' : Probe) : Prop where
  under : Underway Probe.account 0 d log d'
  captures : Captures d' log
  failed : ok = false → d'.r.phase = 0
  reached : ok = true → d'.r.phase = 1 ∧ d'.r.hciCaptured = true

def Opens (m : Probing Bool) : Prop :=
  ∀ d, d.r.phase = 0 → d.r.hciCaptured = false → m.wp (fun log ok d' => Opened d log ok d') d

theorem opens_before {m m' : Probing Bool} (hm : m.Keeps (Underway Probe.steady 0)) (hm' : Opens m') :
    Opens (both m m') := by
  intro d hphase hcaptured
  rw [wp_both]
  refine wp_mono (hm d) fun log ok d₁ h => ?_
  have hphase₁ : d₁.r.phase = 0 := h.phase.trans hphase
  have hsame : d₁.r.hciCaptured = d.r.hciCaptured := congrArg (·.2.2.1) h.same
  have hcaptured₁ : d₁.r.hciCaptured = false := hsame.trans hcaptured
  refine ⟨fun _ => ?_, fun _ => ⟨h.captured.account, fun hno => ?_, fun _ => hphase₁, nofun⟩⟩
  · refine wp_mono (hm' d₁ hphase₁ hcaptured₁) fun log' ok' d₂ h' => ?_
    refine ⟨(underway_traced _ _).trans h.captured.account h'.under, fun hyes => ?_, h'.failed, h'.reached⟩
    rcases h'.captures hyes with ⟨pre, post, rfl⟩
    refine ⟨log ++ pre, post, ?_⟩
    simp only [List.append_assoc]
  · exact absurd (hcaptured₁.symm.trans hno) Bool.false_ne_true

theorem capture_opens : Opens (both capture (both (enterPhase 1) (return true))) := by
  intro d hphase hcaptured
  unfold capture enterPhase
  rw [wp_both, wp_modify_bind, wp_ask_bind]
  intro hci
  rw [wp_ask_bind]
  intro stop
  have hquiet : ∀ e ∈ [Event.call (Io.read32 0x1000) hci, Event.call (Io.read32 0x1010) stop],
      isAction e = false ∧ level e ≤ 0 := by
    intro e he
    simp only [List.mem_cons, List.not_mem_nil, or_false] at he
    rcases he with rfl | rfl <;> exact ⟨rfl, le_rfl⟩
  rw [wp_modify_bind]
  by_cases hbad : (invalid hci || invalid stop) = true
  · rw [if_pos hbad, stopWith, wp_modify_bind, wp_pure]
    have hinvalid : Status.invalidRead ≠ Status.ready := by decide
    refine ⟨nofun, fun _ => ⟨⟨Option.or_none.symm, rfl, fun _ => hinvalid, hquiet⟩, fun hno => ?_, fun _ => hphase, nofun⟩⟩
    exact absurd (hcaptured.symm.trans hno) Bool.false_ne_true
  · rw [if_neg hbad, wp_modify_bind, wp_pure]
    refine ⟨fun _ => ?_, nofun⟩
    rw [wp_both, wp_modify_bind, wp_pure]
    refine ⟨fun _ => ?_, nofun⟩
    rw [wp_pure]
    exact ⟨⟨Option.or_none.symm, rfl, id, hquiet⟩, fun _ => ⟨[], [], rfl⟩, nofun, fun _ => ⟨rfl, rfl⟩⟩

theorem fills_dmac : Fills fun r v => { r with accessDmac := v } :=
  ⟨fun _ _ => rfl, fun _ _ => rfl, fun _ _ => rfl⟩

theorem fills_clock : Fills fun r v => { r with accessClock := v } :=
  ⟨fun _ _ => rfl, fun _ _ => rfl, fun _ _ => rfl⟩

theorem access_opens : Opens access :=
  opens_before (wr_keeps (by decide) _) <|
    opens_before (readBack_keeps (s := .writeFailed) _ _ _ fills_dmac (by decide)) <|
      opens_before (wr_keeps (by decide) _) <|
        opens_before (readBack_keeps (s := .writeFailed) _ _ _ fills_clock (by decide)) capture_opens

/-! ## What is ready -/

/-- The state in the control register is not that of a reset, and no error. -/
def Started (control : UInt32) : Prop :=
  control &&& 0xe0 ≠ 0xe0 ∧ ¬ ((2 : UInt32) ≤ (control >>> 5) &&& 7 ∧ (control >>> 5) &&& 7 ≤ (4 : UInt32))

/-- The processor was fresh, and then its ROM said that it is ready. -/
def Booted (log : Trace) : Prop :=
  ∃ pre reset mid control post,
    log = pre ++ .call (.read32 0x1e0) reset :: mid ++ .call (.read32 0x1e0) control :: post ∧
      holds reset 0xe7 1 = true ∧ holds control 2 2 = true ∧ Started control

theorem valueMatches_confirms (address value mask expected : UInt32) :
    Confirms (fun log => log = [] ∧ holds value mask expected = true) (valueMatches address value mask expected) := by
  intro d
  unfold valueMatches
  by_cases h : holds value mask expected = true
  · rw [if_pos h, wp_pure]
    exact fun _ => ⟨rfl, h⟩
  · rw [if_neg h, wp_tell_bind, wp_modify_bind, wp_pure]
    exact fun hno => absurd hno Bool.false_ne_true

theorem orStop_confirms {K : Trace → Prop} {m : Probing Bool} (hm : Confirms K m) (s : Status) :
    Confirms K (orStop m s) := by
  intro d
  unfold orStop
  rw [wp_bind]
  refine wp_mono (hm d) fun log ok d' h => ?_
  cases ok with
  | true =>
      rw [if_pos rfl, wp_pure, List.append_nil]
      exact h
  | false =>
      rw [if_neg Bool.false_ne_true, stopWith, wp_modify_bind, wp_pure]
      exact fun hno => absurd hno Bool.false_ne_true

theorem freshState_confirms :
    Confirms (fun log => ∃ reset, log = [.call (.read32 0x1e0) reset] ∧ holds reset 0xe7 1 = true) freshState := by
  intro d
  unfold freshState
  rw [wp_ask_bind]
  intro reset
  refine wp_mono (orStop_confirms (valueMatches_confirms 0x1e0 reset 0xe7 1) .staleReady d) fun log ok d' h hok => ?_
  rcases h hok with ⟨rfl, hholds⟩
  exact ⟨reset, rfl, hholds⟩

/-- A wait that succeeds ends with the value that was waited for. -/
theorem pollFrom_ends {a mask wanted : UInt32} {timeout : UInt64} {set : Result → UInt32 → Result}
    {value : Result → UInt32} (hvalue : ∀ r v n, value { set r v with polls := n } = v) (start : UInt64) (rounds : ℕ) :
    ∀ d, (pollFrom a mask wanted timeout set start rounds).wp (fun log ok d' => ok = true →
      ∃ pre, log = pre ++ [.call (.read32 a) (value d'.r)] ∧ holds (value d'.r) mask wanted = true) d := by
  have hstop : ∀ s d, (stopWith s).wp (fun _ ok _ => ok = false) d := by
    intro s d
    unfold stopWith
    rw [wp_modify_bind, wp_pure]
  induction rounds with
  | zero =>
      intro d
      refine wp_mono (hstop .timeout d) fun log ok d' hno hok => ?_
      rw [hno] at hok
      exact absurd hok Bool.false_ne_true
  | succ rounds ih =>
      intro d
      unfold pollFrom
      rw [wp_ask_bind]
      intro now
      by_cases hlate : now < start ∨ timeout ≤ now - start
      · rw [if_pos hlate]
        refine wp_mono (hstop .timeout d) fun log ok d' hno hok => ?_
        rw [hno] at hok
        exact absurd hok Bool.false_ne_true
      rw [if_neg hlate, wp_ask_bind]
      intro last
      rw [wp_modify_bind]
      by_cases hbad : invalid last = true
      · rw [if_pos hbad]
        refine wp_mono (hstop .invalidRead _) fun log ok d' hno hok => ?_
        rw [hno] at hok
        exact absurd hok Bool.false_ne_true
      rw [if_neg hbad]
      by_cases hwanted : last &&& mask = wanted
      · rw [if_pos hwanted, wp_pure]
        intro _
        rw [hvalue]
        refine ⟨[.call .nowUs now], rfl, ?_⟩
        unfold holds
        rw [Bool.eq_false_iff.2 hbad, hwanted, beq_self_eq_true]
        rfl
      · rw [if_neg hwanted, wp_ask_bind]
        intro _
        refine wp_mono (ih _) fun log ok d' h hok => ?_
        rcases h hok with ⟨pre, rfl, hholds⟩
        exact ⟨_ :: _ :: _ :: pre, rfl, hholds⟩

theorem romReady_confirms : Confirms (fun log => ∃ pre control, log = pre ++ [.call (.read32 0x1e0) control] ∧
    holds control 2 2 = true ∧ Started control) romReady := by
  intro d
  unfold romReady poll
  rw [wp_both, wp_ask_bind]
  intro start
  have hpoll := @pollFrom_ends 0x1e0 2 2 400000 (fun r v => { r with control := v }) (fun r => r.control)
    (fun _ _ _ => rfl) start
  refine wp_mono (hpoll _ d) fun log ok d' h => ⟨fun hok => ?_, fun _ => nofun⟩
  rcases h hok with ⟨pre, rfl, hholds⟩
  unfold romState
  rw [wp_get_bind]
  dsimp only
  by_cases hstale : d'.r.control &&& 0xe0 = 0xe0
  · rw [if_pos hstale, stopWith, wp_modify_bind, wp_pure]
    exact nofun
  by_cases herror : (2 : UInt32) ≤ (d'.r.control >>> 5) &&& 7 ∧ (d'.r.control >>> 5) &&& 7 ≤ (4 : UInt32)
  · rw [if_neg hstale, if_pos herror, stopWith, wp_modify_bind, wp_pure]
    exact nofun
  · rw [if_neg hstale, if_neg herror, wp_pure, List.append_nil]
    exact fun _ => ⟨_ :: pre, d'.r.control, rfl, hholds, hstale, herror⟩

theorem untilReady_booted (reason : UInt16) : Confirms Booted (untilReady reason) := by
  have hany : ∀ m : Probing Bool, Confirms (fun _ => True) m := fun m d => wp_of_outcome fun _ _ _ _ _ => trivial
  have hall := Confirms.both (hany access) (Confirms.both
    (hany (every [pauseDma, layout, buffersReady, flowControl, resetProcessor reason]))
    (Confirms.both freshState_confirms (Confirms.both (hany release) (Confirms.both romReady_confirms (hany clocked)))))
  refine hall.mono ?_
  rintro log ⟨l₁, _, rfl, -, l₂, _, rfl, -, _, _, rfl, ⟨reset, rfl, hfresh⟩, l₄, _, rfl, -, _, l₆, rfl,
    ⟨pre, control, rfl, hready⟩, -⟩
  refine ⟨l₁ ++ l₂, reset, l₄ ++ pre, control, l₆, ?_, hfresh, hready⟩
  simp only [List.append_assoc, List.cons_append, List.nil_append]

/-- What the sequence leaves. -/
structure Sequenced (d : Probe) (log : Trace) (d' : Probe) : Prop where
  mismatch : d'.mismatch = d.mismatch.or (mismatches log).head?
  same : d'.account = d.account
  quiet : ∀ e ∈ log, isAction e = false ∧ level e ≤ d'.r.phase
  hci : 1 ≤ d'.r.phase → d'.r.hciCaptured = true
  captures : Captures d' log
  booted : d'.r.status = .ready → Booted log

theorem sequenced_of_under {log : Trace} (hunder : Underway Probe.account d'.r.phase d log d')
    (hcaptures : Captures d' log) (hhci : 1 ≤ d'.r.phase → d'.r.hciCaptured = true) (hstatus : d.r.status ≠ .ready) :
    Sequenced d log d' :=
  ⟨hunder.mismatch, hunder.same, hunder.quiet, hhci, hcaptures, fun hno => absurd hno (hunder.pending hstatus)⟩

theorem untilReady_sequences (reason : UInt16) (d : Probe) (hstatus : d.r.status ≠ .ready) (hphase : d.r.phase = 0)
    (hcaptured : d.r.hciCaptured = false) : (untilReady reason).wp (fun log _ d' => Sequenced d log d') d := by
  unfold untilReady
  rw [wp_both]
  refine wp_mono (access_opens d hphase hcaptured) fun log ok d₁ h => ⟨fun hok => ?_, fun hok => ?_⟩
  · rcases h.reached hok with ⟨hphase₁, hcaptured₁⟩
    refine wp_mono (afterAccess_passes reason d₁ hphase₁) fun log' _ d₂ h' => ?_
    have hunder := (underway_traced _ _).trans (h.under.raise (Nat.zero_le _)) h'.under.account
    have hsame : d₂.r.hciCaptured = d₁.r.hciCaptured := congrArg (·.2.2.1) h'.under.same
    have hhci : d₂.hci = d₁.hci := congrArg (·.2.2.2.1) h'.under.same
    have hstop : d₂.stop = d₁.stop := congrArg (·.2.2.2.2) h'.under.same
    refine sequenced_of_under hunder (fun _ => ?_) (fun _ => hsame.trans hcaptured₁) hstatus
    rcases h.captures hcaptured₁ with ⟨pre, post, rfl⟩
    refine ⟨pre, post ++ log', ?_⟩
    rw [hhci, hstop]
    simp only [List.append_assoc]
  · refine sequenced_of_under (h.under.raise (Nat.zero_le _)) h.captures (fun hno => ?_) hstatus
    rw [h.failed hok] at hno
    exact absurd hno (by decide)

theorem sequence_spec (reason : UInt16) (d : Probe) (hstatus : d.r.status ≠ .ready) (hphase : d.r.phase = 0)
    (hcaptured : d.r.hciCaptured = false) : (sequence reason).wp (fun log _ d' => Sequenced d log d') d := by
  unfold sequence
  rw [wp_bind]
  have hseq := untilReady_sequences reason d hstatus hphase hcaptured
  refine wp_mono (wp_and hseq (untilReady_booted reason d)) fun log ok d' h => ?_
  rcases h with ⟨h, hbooted⟩
  cases ok with
  | true =>
      rw [if_pos rfl, wp_modify, List.append_nil]
      exact ⟨h.mismatch, h.same, h.quiet, h.hci, h.captures, fun _ => hbooted rfl⟩
  | false =>
      rw [if_neg Bool.false_ne_true, wp_pure, List.append_nil]
      exact h

/-! ## The steps of the cleanup -/

/-- A read-modify-write step: what was read cannot be used, or it was written back. -/
def Cleaned (a mask v : UInt32) (log : Trace) (good : Bool) : Prop :=
  ∃ old, invalid old = true ∧ log = [.call (.read32 a) old] ∧ good = false ∨
    invalid old = false ∧ ∃ ok, log = [.call (.read32 a) old, .call (.bootWrite32 a ((old &&& ~~~mask) ||| v)) ok] ∧ good = ok

/-- The annotation of a comparison, if it fails. -/
def verdict (a value mask expected : UInt32) : Trace :=
  if holds value mask expected then [] else [.note (a, mask, expected, value)]

/-- Steps that are all made, with the word whether all went well. -/
inductive Series : List (Trace → Bool → Prop) → Trace → Bool → Prop
  | nil : Series [] [] true
  | cons {K : Trace → Bool → Prop} {Ks : List (Trace → Bool → Prop)} {log log' : Trace} {good good' : Bool} :
      K log good → Series Ks log' good' → Series (K :: Ks) (log ++ log') (good && good')

/-- Steps that are left out if their block was not entered. -/
def Whenever (entered : Bool) (K : Trace → Bool → Prop) (log : Trace) (good : Bool) : Prop :=
  if entered then K log good else log = [] ∧ good = true

def CpuCleaned : Trace → Bool → Prop :=
  Series
    [Cleaned 0x88 2 0, Cleaned 0x1e0 7 0, Cleaned 8 0x4000 0, Cleaned 0x88 4 0, Cleaned 0x88 4 4, Cleaned 0x88 1 0,
      Cleaned 0x88 1 1]

def HfcCleaned (log : Trace) (good : Bool) : Prop :=
  ∃ step ok v, Cleaned 0x8a00 9 0 step ok ∧ log = step ++ .call (.read32 0x8a00) v :: verdict 0x8a00 v 9 0 ∧
    good = (ok && holds v 9 0)

/-- Both registers are written, and read back what was captured. -/
def HciRestored (hci stop : UInt32) (log : Trace) (good : Bool) : Prop :=
  ∃ s h v w,
    log = [.call (.bootWrite32 0x1010 stop) s, .call (.bootWrite32 0x1000 hci) h, .call (.read32 0x1000) v,
      .call (.read32 0x1010) w] ++ verdict 0x1000 v allBits hci ++ verdict 0x1010 w allBits stop ∧
    good = (s && h && holds v allBits hci && holds w allBits stop)

def isOpen (function : UInt32) : Bool := !invalid function && function &&& 0x40000000 != 0

def ClockClosed (function : UInt32) (log : Trace) (good : Bool) : Prop :=
  if isOpen function then
    ∃ ok v, log = [.call (.bootWrite32 0x8404 0) ok, .call (.read32 0x8404) v] ++ verdict 0x8404 v allBits 0 ∧
      good = (ok && holds v allBits 0)
  else
    log = [] ∧ good = false

/-- Clocks are closed first, while the window is open, and then the window. -/
def AccessClosed (log : Trace) (good : Bool) : Prop :=
  ∃ function clock c f v, ClockClosed function clock c ∧
    log = .call (.read32 0x8400) function :: clock ++ [.call (.bootWrite32 0x8400 0) f, .call (.read32 0x8400) v] ++
      verdict 0x8400 v allBits 0 ∧
    good = (c && f && holds v allBits 0)

def BootRestored (sec : UInt32) (reason : UInt16) (log : Trace) (good : Bool) : Prop :=
  ∃ s b, log = [.call (.bootWrite32 0xc00 sec) s, .call (.bootWrite16 0x1e6 reason) b] ∧ good = (s && b)

/-- What the cleanup depends on. -/
structure Entered where
  phase : ℕ
  captured : Bool
  access : Bool
  hci : UInt32
  stop : UInt32

def Probe.entered (d : Probe) : Entered := ⟨d.r.phase, d.r.hciCaptured, d.r.accessAttempted, d.hci, d.stop⟩

/-- The steps of every block that was entered, and no others. -/
def blocks (sec : UInt32) (reason : UInt16) (x : Entered) : List (Trace → Bool → Prop) :=
  [Whenever (decide (5 ≤ x.phase)) CpuCleaned, Whenever (decide (4 ≤ x.phase)) HfcCleaned,
    Whenever x.captured (HciRestored x.hci x.stop), Whenever x.access AccessClosed,
    Whenever (decide (5 ≤ x.phase)) (BootRestored sec reason)]

/-- Both boot registers read as they did before. -/
def BootBack (sec : UInt32) (reason : UInt16) (log : Trace) (back : Bool) : Prop :=
  ∃ s, s ≠ sec ∧ log = [.call (.read32 0xc00) s] ∧ back = false ∨
    s = sec ∧ ∃ b : UInt16, log = [.call (.read32 0xc00) s, .call (.read16 0x1e6) b] ∧ back = (b == reason)

/-- The reads at the end: the processor is stopped, the boot registers are as before, the bus is off. -/
def Verified (sec : UInt32) (reason : UInt16) (x : Entered) (log : Trace) (good : Bool) : Prop :=
  ∃ platform clock control boot back command,
    Whenever (decide (5 ≤ x.phase)) (BootBack sec reason) boot back ∧
    log = [.call (.read32 0x88) platform, .call (.read32 8) clock, .call (.read32 0x1e0) control] ++ boot ++
      [.call .command command] ∧
    good = (cpuStopped platform clock control && back && command &&& 6 == (2 : UInt16))

/-! ## What a step does to the record -/

def Probe.operation (d : Probe) : Status × Bool := (d.r.operationStatus, d.r.attempted)

/-- What a step of the cleanup does to the record; `matched` says that its comparisons held. -/
structure Accounted (d : Probe) (log : Trace) (d' : Probe) (matched : Bool) : Prop where
  mismatch : d'.mismatch = d.mismatch.or (mismatches log).head?
  entered : d'.entered = d.entered
  operation : d'.operation = d.operation
  quiet : ∀ e ∈ log, isAction e = false
  failures : d'.r.cleanupFailures = 0 ↔ d.r.cleanupFailures = 0 ∧ matched = true

theorem Accounted.refl (d : Probe) : Accounted d [] d true :=
  ⟨Option.or_none.symm, rfl, rfl, fun _ he => absurd he List.not_mem_nil, (and_iff_left rfl).symm⟩

theorem Accounted.trans {d'' : Probe} {log log' : Trace} {matched matched' : Bool} (h : Accounted d log d' matched)
    (h' : Accounted d' log' d'' matched') :
    Accounted d (log ++ log') d'' (matched && matched') where
  mismatch := by
    rw [h'.mismatch, h.mismatch, mismatches, mismatches, mismatches, List.filterMap_append, List.head?_append,
      Option.or_assoc]
  entered := h'.entered.trans h.entered
  operation := h'.operation.trans h.operation
  quiet e he := (List.mem_append.1 he).elim (h.quiet e) (h'.quiet e)
  failures := by rw [h'.failures, h.failures, Bool.and_eq_true, and_assoc]

theorem accounted_silent (hmismatch : d'.mismatch = d.mismatch) (hentered : d'.entered = d.entered)
    (hoperation : d'.operation = d.operation) (hfailures : d'.r.cleanupFailures = d.r.cleanupFailures) :
    Accounted d [] d' true where
  mismatch := hmismatch.trans Option.or_none.symm
  entered := hentered
  operation := hoperation
  quiet _ he := absurd he List.not_mem_nil
  failures := by rw [hfailures, and_iff_left rfl]

theorem accounted_failed (d : Probe) {bit : UInt32} (hbit : bit ≠ 0) : Accounted d [] (d.failed bit) false where
  mismatch := Option.or_none.symm
  entered := rfl
  operation := rfl
  quiet _ he := absurd he List.not_mem_nil
  failures := by
    show d.r.cleanupFailures ||| bit = 0 ↔ _
    rw [UInt32.or_eq_zero_iff]
    exact ⟨fun h => absurd h.2 hbit, fun h => absurd h.2 Bool.false_ne_true⟩

theorem accounted_call (d : Probe) {c : Io} {r : Reply c} (hc : isAction (.call c r) = false) :
    Accounted d [.call c r] d true := by
  refine ⟨Option.or_none.symm, rfl, rfl, fun e he => ?_, (and_iff_left rfl).symm⟩
  rw [List.mem_singleton.1 he]
  exact hc

section Settles

variable {α β : Type} {x : Entered}

/-- Where the cleanup depends on `x`, some code logs, returns and finds what `P` says. -/
def Settles (x : Entered) (m : Probing α) (P : Trace → α → Bool → Prop) : Prop :=
  ∀ d, d.entered = x → m.wp (fun log a d' => ∃ matched, P log a matched ∧ Accounted d log d' matched) d

variable {P : Trace → α → Bool → Prop}

theorem Settles.mono {m : Probing α} {P' : Trace → α → Bool → Prop} (hm : Settles x m P)
    (h : ∀ log a matched, P log a matched → P' log a matched) : Settles x m P' := by
  intro d hd
  refine wp_mono (hm d hd) fun log a d' h' => ?_
  rcases h' with ⟨matched, hP, haccount⟩
  exact ⟨matched, h log a matched hP, haccount⟩

theorem Settles.pure {a : α} (h : P [] a true) : Settles x (Pure.pure a) P := by
  intro d _
  rw [wp_pure]
  exact ⟨true, h, Accounted.refl d⟩

theorem Settles.bind {m : Probing α} {f : α → Probing β} {Q : Trace → β → Bool → Prop} (hm : Settles x m P)
    (hf : ∀ log a matched, P log a matched →
      Settles x (f a) fun log' b matched' => Q (log ++ log') b (matched && matched')) :
    Settles x (m >>= f) Q := by
  intro d hd
  rw [wp_bind]
  refine wp_mono (hm d hd) fun log a d₁ h => ?_
  rcases h with ⟨matched, hP, haccount⟩
  refine wp_mono (hf log a matched hP d₁ (haccount.entered.trans hd)) fun log' b d₂ h' => ?_
  rcases h' with ⟨matched', hQ, haccount'⟩
  exact ⟨matched && matched', hQ, haccount.trans haccount'⟩

theorem Settles.ask {c : Io} {f : Reply c → Probing α} (hc : ∀ r, isAction (.call c r) = false)
    (hf : ∀ r, Settles x (f r) fun log a matched => P (.call c r :: log) a matched) : Settles x (ask c >>= f) P := by
  intro d hd
  rw [wp_ask_bind]
  intro r
  refine wp_mono (hf r d hd) fun log a d' h => ?_
  rcases h with ⟨matched, hP, haccount⟩
  exact ⟨matched, hP, (accounted_call d (hc r)).trans haccount⟩

theorem Settles.modify {g : Probe → Probe} {f : PUnit → Probing α} {found : Bool}
    (hg : ∀ d, Accounted d [] (g d) found) (hf : Settles x (f ⟨⟩) fun log a matched => P log a (found && matched)) :
    Settles x (modify g >>= f) P := by
  intro d hd
  rw [wp_modify_bind]
  refine wp_mono (hf (g d) ((hg d).entered.trans hd)) fun log a d' h => ?_
  rcases h with ⟨matched, hP, haccount⟩
  exact ⟨found && matched, hP, (hg d).trans haccount⟩

theorem Settles.get {f : Probe → Probing α} (hf : ∀ d, d.entered = x → Settles x (f d) P) :
    Settles x (get >>= f) P := by
  intro d hd
  rw [wp_get_bind]
  exact hf d hd d hd

theorem wr_settles (a v : UInt32) :
    Settles x (wr a v) fun log ok matched => log = [.call (.bootWrite32 a v) ok] ∧ matched = true := by
  refine Settles.modify (fun d => accounted_silent rfl rfl rfl rfl) (Settles.ask (fun _ => rfl) fun ok => ?_)
  cases ok with
  | true =>
      rw [if_pos rfl]
      exact Settles.pure ⟨rfl, rfl⟩
  | false =>
      rw [if_neg Bool.false_ne_true]
      exact Settles.modify (fun d => accounted_silent rfl rfl rfl rfl) (Settles.pure ⟨rfl, rfl⟩)

theorem rm_settles (a mask value : UInt32) :
    Settles x (rm a mask value) fun log ok matched => Cleaned a mask value log ok ∧ matched = true := by
  refine Settles.ask (fun _ => rfl) fun old => ?_
  cases hold : invalid old with
  | true =>
      rw [if_pos rfl]
      exact Settles.modify (fun d => accounted_silent rfl rfl rfl rfl)
        (Settles.pure ⟨⟨old, Or.inl ⟨hold, rfl, rfl⟩⟩, rfl⟩)
  | false =>
      rw [if_neg Bool.false_ne_true]
      refine (wr_settles a _).mono fun log ok matched h => ?_
      rcases h with ⟨rfl, rfl⟩
      exact ⟨⟨old, Or.inr ⟨hold, ok, rfl, rfl⟩⟩, rfl⟩

theorem accounted_mismatched (d : Probe) (m : Mismatch) : Accounted d [.note m] (d.mismatched m) true where
  mismatch := mismatched_mismatch d m
  entered := by
    unfold Probe.mismatched
    split <;> rfl
  operation := by
    unfold Probe.mismatched
    split <;> rfl
  quiet e he := by
    rw [List.mem_singleton.1 he]
    rfl
  failures := by
    have hsame : (d.mismatched m).r.cleanupFailures = d.r.cleanupFailures := congrArg (·.1) (mismatched_steady d m)
    rw [hsame, and_iff_left rfl]

theorem valueMatches_settles (a value mask expected : UInt32) :
    Settles x (valueMatches a value mask expected) fun log ok matched =>
      log = verdict a value mask expected ∧ ok = holds value mask expected ∧ matched = true := by
  intro d _
  unfold valueMatches verdict
  cases holds value mask expected with
  | true =>
      rw [if_pos rfl, wp_pure]
      exact ⟨true, ⟨rfl, rfl, rfl⟩, Accounted.refl d⟩
  | false =>
      rw [if_neg Bool.false_ne_true, wp_tell_bind, wp_modify_bind, wp_pure]
      exact ⟨true, ⟨rfl, rfl, rfl⟩, accounted_mismatched d _⟩

theorem orFail_settles {m : Probing Bool} {P : Trace → Bool → Prop} {c : UInt32} (hc : c ≠ 0)
    (hm : Settles x m fun log ok matched => P log ok ∧ matched = true) :
    Settles x (orFail m c) fun log _ matched => P log matched := by
  refine Settles.bind hm fun log ok matched h => ?_
  rcases h with ⟨hP, rfl⟩
  cases ok with
  | true =>
      rw [if_pos rfl]
      refine Settles.pure (show P (log ++ []) true from ?_)
      rw [List.append_nil]
      exact hP
  | false =>
      rw [if_neg Bool.false_ne_true]
      intro d _
      rw [wp_modify]
      refine ⟨false, show P (log ++ []) false from ?_, accounted_failed d hc⟩
      rw [List.append_nil]
      exact hP

theorem compares (a value mask expected : UInt32) {bit : UInt32} (hbit : bit ≠ 0) :
    Settles x (orFail (valueMatches a value mask expected) bit) fun log _ matched =>
      log = verdict a value mask expected ∧ matched = holds value mask expected :=
  orFail_settles hbit ((valueMatches_settles a value mask expected).mono fun _ _ _ h => ⟨⟨h.1, h.2.1⟩, h.2.2⟩)

/-! ## The blocks -/

theorem series_settles {l : List (Probing Bool × (Trace → Bool → Prop))}
    (h : ∀ s ∈ l, Settles x s.1 fun log ok matched => s.2 log (ok && matched)) :
    Settles x (each (l.map (·.1))) fun log ok matched => Series (l.map (·.2)) log (ok && matched) := by
  induction l with
  | nil => exact Settles.pure Series.nil
  | cons s l ih =>
      refine Settles.bind (h s List.mem_cons_self) fun log ok matched hfirst => ?_
      refine Settles.bind (ih fun s' hs' => h s' (List.mem_cons_of_mem _ hs')) fun log' rest matched' hrest => ?_
      refine Settles.pure ?_
      have hboth := Series.cons hfirst hrest
      have hcomm : (ok && matched && (rest && matched')) = (ok && rest && (matched && (matched' && true))) := by
        rw [Bool.and_true]
        ac_rfl
      rw [List.append_nil, ← hcomm]
      exact hboth

theorem wr_written (a v : UInt32) :
    Settles x (wr a v) fun log ok matched => log = [.call (.bootWrite32 a v) (ok && matched)] := by
  refine (wr_settles a v).mono fun log ok matched h => ?_
  rcases h with ⟨rfl, rfl⟩
  rw [Bool.and_true]

theorem written_twice {a v a' v' : UInt32} {log : Trace} {good : Bool}
    (h : Series [fun log good => log = [.call (.bootWrite32 a v) good],
      fun log good => log = [.call (.bootWrite32 a' v') good]] log good) :
    ∃ s w, log = [.call (.bootWrite32 a v) s, .call (.bootWrite32 a' v') w] ∧ good = (s && w) := by
  rcases h with _ | ⟨rfl, _ | ⟨rfl, _ | _⟩⟩
  exact ⟨_, _, rfl, by rw [Bool.and_true]⟩

theorem rm_cleans (a mask value : UInt32) :
    Settles x (rm a mask value) fun log ok matched => Cleaned a mask value log (ok && matched) := by
  refine (rm_settles a mask value).mono fun log ok matched h => ?_
  rcases h with ⟨hclean, rfl⟩
  rw [Bool.and_true]
  exact hclean

theorem cleanCpu_settles : Settles x cleanCpu fun log ok matched => CpuCleaned log (ok && matched) := by
  let step (a mask v : UInt32) : Probing Bool × (Trace → Bool → Prop) := (rm a mask v, Cleaned a mask v)
  refine series_settles (l := [step 0x88 2 0, step 0x1e0 7 0, step 8 0x4000 0, step 0x88 4 0, step 0x88 4 4,
    step 0x88 1 0, step 0x88 1 1]) fun s hs => ?_
  simp only [List.mem_cons, List.not_mem_nil, or_false] at hs
  rcases hs with rfl | rfl | rfl | rfl | rfl | rfl | rfl
  · exact rm_cleans _ _ _
  · exact rm_cleans _ _ _
  · exact rm_cleans _ _ _
  · exact rm_cleans _ _ _
  · exact rm_cleans _ _ _
  · exact rm_cleans _ _ _
  · exact rm_cleans _ _ _

theorem cleanHfc_settles : Settles x cleanHfc fun log ok matched => HfcCleaned log (ok && matched) := by
  refine Settles.bind (rm_settles 0x8a00 9 0) fun step ok matched h => ?_
  rcases h with ⟨hclean, rfl⟩
  refine Settles.ask (fun _ => rfl) fun v => Settles.bind (compares 0x8a00 v 9 0 (by decide)) fun log _ matched h => ?_
  rcases h with ⟨rfl, rfl⟩
  refine Settles.pure ⟨step, ok, v, hclean, ?_, ?_⟩
  · rw [List.append_nil]
  · rw [Bool.and_true, Bool.true_and]

theorem restoreHci_settles :
    Settles x restoreHci fun log ok matched => HciRestored x.hci x.stop log (ok && matched) := by
  refine Settles.get fun d hd => ?_
  have hhci : d.hci = x.hci := congrArg Entered.hci hd
  have hstop : d.stop = x.stop := congrArg Entered.stop hd
  rw [hhci, hstop]
  let step (a v : UInt32) : Probing Bool × (Trace → Bool → Prop) :=
    (wr a v, fun log good => log = [.call (.bootWrite32 a v) good])
  have hwrites := series_settles (x := x) (l := [step 0x1010 x.stop, step 0x1000 x.hci]) fun s hs => by
    simp only [List.mem_cons, List.not_mem_nil, or_false] at hs
    rcases hs with rfl | rfl <;> exact wr_written _ _
  refine Settles.bind hwrites fun log ok matched h => ?_
  rcases written_twice h with ⟨s, w, rfl, hgood⟩
  refine Settles.ask (fun _ => rfl) fun hci => Settles.ask (fun _ => rfl) fun stop => ?_
  refine Settles.modify (fun d => accounted_silent rfl rfl rfl rfl) ?_
  refine Settles.bind (compares 0x1000 hci allBits x.hci (by decide)) fun log _ matched₁ h => ?_
  rcases h with ⟨rfl, rfl⟩
  refine Settles.bind (compares 0x1010 stop allBits x.stop (by decide)) fun log _ matched₂ h => ?_
  rcases h with ⟨rfl, rfl⟩
  refine Settles.pure ⟨s, w, hci, stop, ?_, ?_⟩
  · simp only [List.cons_append, List.nil_append, List.append_nil]
  · rw [← hgood, Bool.and_true, Bool.true_and]
    simp only [Bool.and_assoc]

theorem closeClock_settles (function : UInt32) :
    Settles x (closeClock function) fun log ok matched => ClockClosed function log (ok && matched) := by
  unfold closeClock ClockClosed isOpen
  cases !invalid function && function &&& 0x40000000 != 0 with
  | true =>
      rw [if_pos rfl]
      refine Settles.bind (wr_settles 0x8404 0) fun log ok matched h => ?_
      rcases h with ⟨rfl, rfl⟩
      refine Settles.ask (fun _ => rfl) fun clock => Settles.modify (fun d => accounted_silent rfl rfl rfl rfl) ?_
      refine Settles.bind (compares 0x8404 clock allBits 0 (by decide)) fun log _ matched h => ?_
      rcases h with ⟨rfl, rfl⟩
      refine Settles.pure ?_
      rw [if_pos rfl]
      refine ⟨ok, clock, ?_, ?_⟩
      · simp only [List.cons_append, List.nil_append, List.append_nil]
      · rw [Bool.and_true, Bool.true_and, Bool.true_and]
  | false =>
      rw [if_neg Bool.false_ne_true]
      refine Settles.modify (fun d => accounted_failed d (by decide)) (Settles.pure ?_)
      rw [if_neg Bool.false_ne_true]
      exact ⟨rfl, rfl⟩

theorem closeAccess_settles : Settles x closeAccess fun log ok matched => AccessClosed log (ok && matched) := by
  refine Settles.ask (fun _ => rfl) fun function => Settles.bind (closeClock_settles function) fun clock c matched h => ?_
  refine Settles.bind (wr_settles 0x8400 0) fun log f matched' h' => ?_
  rcases h' with ⟨rfl, rfl⟩
  refine Settles.ask (fun _ => rfl) fun dmac => Settles.modify (fun d => accounted_silent rfl rfl rfl rfl) ?_
  refine Settles.bind (compares 0x8400 dmac allBits 0 (by decide)) fun log _ matched'' h'' => ?_
  rcases h'' with ⟨rfl, rfl⟩
  refine Settles.pure ⟨function, clock, _, f, dmac, h, ?_, ?_⟩
  · simp only [List.cons_append, List.append_assoc, List.nil_append, List.append_nil]
  · simp only [Bool.and_true, Bool.true_and]
    ac_rfl

theorem restoreBoot_settles (sec : UInt32) (reason : UInt16) :
    Settles x (restoreBoot sec reason) fun log ok matched => BootRestored sec reason log (ok && matched) := by
  refine Settles.bind (wr_settles 0xc00 sec) fun log s matched h => ?_
  rcases h with ⟨rfl, rfl⟩
  refine Settles.modify (fun d => accounted_silent rfl rfl rfl rfl) (Settles.ask (fun _ => rfl) fun b => ?_)
  exact Settles.pure ⟨s, b, rfl, by rw [Bool.true_and, Bool.true_and, Bool.and_true]⟩

theorem whenever_settles {entered : Bool} {m : Probing Bool} {K : Trace → Bool → Prop}
    (hm : Settles x m fun log ok matched => K log (ok && matched)) :
    Settles x (whenever entered m) fun log ok matched => Whenever entered K log (ok && matched) := by
  cases entered with
  | true => exact hm
  | false => exact Settles.pure ⟨rfl, rfl⟩

theorem settles_modify_get {g : Probe → Probe} {f : Probe → Probing α} (hg : ∀ d, Accounted d [] (g d) true)
    (hf : ∀ d, d.entered = x → Settles x (f (g d)) P) :
    Settles x (modify g >>= fun _ => get >>= f) P := by
  intro d hd
  have hentered := (hg d).entered.trans hd
  rw [wp_modify_bind, wp_get_bind]
  refine wp_mono (hf d hd (g d) hentered) fun log a d' h => ?_
  rcases h with ⟨matched, hP, haccount⟩
  have hall := (hg d).trans haccount
  rw [Bool.true_and] at hall
  exact ⟨matched, hP, hall⟩

theorem bootBack_settles (sec : UInt32) (reason : UInt16) :
    Settles x (bootBack sec reason) fun log back matched => BootBack sec reason log back ∧ matched = true := by
  refine Settles.ask (fun _ => rfl) fun s => ?_
  by_cases hs : s = sec
  · rw [if_pos hs]
    refine Settles.ask (fun _ => rfl) fun b => Settles.pure ⟨⟨s, Or.inr ⟨hs, b, rfl, rfl⟩⟩, rfl⟩
  · rw [if_neg hs]
    exact Settles.pure ⟨⟨s, Or.inl ⟨hs, rfl, rfl⟩⟩, rfl⟩

theorem whenever_bootBack (sec : UInt32) (reason : UInt16) (entered : Bool) :
    Settles x (whenever entered (bootBack sec reason)) fun log back matched =>
      Whenever entered (BootBack sec reason) log back ∧ matched = true := by
  cases entered with
  | true => exact bootBack_settles sec reason
  | false => exact Settles.pure ⟨⟨rfl, rfl⟩, rfl⟩

theorem orFail_return (b : Bool) {c : UInt32} (hc : c ≠ 0) :
    Settles x (orFail (return b) c) fun log _ matched => log = [] ∧ matched = b :=
  orFail_settles (P := fun log good => log = [] ∧ good = b) hc (Settles.pure ⟨⟨rfl, rfl⟩, rfl⟩)

theorem busOff_settles : Settles x (orFail busOff 256) fun log _ matched =>
    ∃ command : UInt16, log = [.call .command command] ∧ matched = (command &&& 6 == (2 : UInt16)) :=
  orFail_settles (P := fun log good => ∃ command : UInt16, log = [.call .command command] ∧
      good = (command &&& 6 == (2 : UInt16))) (by decide)
    (Settles.ask (fun _ => rfl) fun command => Settles.pure ⟨⟨command, rfl, rfl⟩, rfl⟩)

theorem verify_settles (sec : UInt32) (reason : UInt16) (ok : Bool) :
    Settles x (verify sec reason ok) fun log _ matched =>
      ∃ sound, Verified sec reason x log sound ∧ matched = (ok && sound) := by
  refine Settles.ask (fun _ => rfl) fun platform => Settles.ask (fun _ => rfl) fun clock => ?_
  refine Settles.ask (fun _ => rfl) fun control => ?_
  refine settles_modify_get (fun d => accounted_silent rfl rfl rfl rfl) fun d hd => ?_
  have hphase : d.r.phase = x.phase := congrArg Entered.phase hd
  dsimp only
  rw [hphase]
  refine Settles.bind (orFail_settles (c := 8) (by decide) (whenever_bootBack sec reason _)) fun boot _ back hback => ?_
  refine Settles.bind (orFail_return ok (c := 64) (by decide)) fun log _ matched h => ?_
  rcases h with ⟨rfl, rfl⟩
  refine Settles.bind (orFail_return _ (c := 128) (by decide)) fun log _ matched h => ?_
  rcases h with ⟨rfl, rfl⟩
  refine busOff_settles.mono fun log _ matched h => ?_
  rcases h with ⟨command, rfl, rfl⟩
  refine ⟨_, ⟨platform, clock, control, boot, back, command, hback, ?_, rfl⟩, ?_⟩
  · simp only [List.cons_append, List.nil_append]
  · ac_rfl

/-- Every block that was entered, whatever an earlier one left. -/
theorem undo_settles (sec : UInt32) (reason : UInt16) :
    Settles x (each [whenever (decide (5 ≤ x.phase)) cleanCpu, whenever (decide (4 ≤ x.phase)) cleanHfc,
      whenever x.captured restoreHci, whenever x.access closeAccess,
      whenever (decide (5 ≤ x.phase)) (restoreBoot sec reason)])
      fun log ok matched => Series (blocks sec reason x) log (ok && matched) := by
  let block (entered : Bool) (m : Probing Bool) (K : Trace → Bool → Prop) : Probing Bool × (Trace → Bool → Prop) :=
    (whenever entered m, Whenever entered K)
  refine series_settles (l := [block (decide (5 ≤ x.phase)) cleanCpu CpuCleaned,
    block (decide (4 ≤ x.phase)) cleanHfc HfcCleaned, block x.captured restoreHci (HciRestored x.hci x.stop),
    block x.access closeAccess AccessClosed,
    block (decide (5 ≤ x.phase)) (restoreBoot sec reason) (BootRestored sec reason)]) fun s hs => ?_
  simp only [List.mem_cons, List.not_mem_nil, or_false] at hs
  rcases hs with rfl | rfl | rfl | rfl | rfl
  · exact whenever_settles cleanCpu_settles
  · exact whenever_settles cleanHfc_settles
  · exact whenever_settles restoreHci_settles
  · exact whenever_settles closeAccess_settles
  · exact whenever_settles (restoreBoot_settles sec reason)

end Settles

/-- What the whole cleanup leaves. -/
structure Cleanup (sec : UInt32) (reason : UInt16) (d : Probe) (log : Trace) (d' : Probe) (good sound : Bool) : Prop where
  steps : ∃ undo check, log = undo ++ check ∧ Series (blocks sec reason d.entered) undo good ∧
    Verified sec reason d.entered check sound
  mismatch : d'.mismatch = d.mismatch.or (mismatches log).head?
  quiet : ∀ e ∈ log, isAction e = false
  cleanupOK : d'.r.cleanupOK = (good && sound)
  status : d'.r.status = if d'.r.cleanupOK then d'.r.operationStatus else .cleanupFailed
  operation : d'.operation = d.operation
  entered : d'.entered = d.entered

theorem cleanup_spec (sec : UInt32) (reason : UInt16) (d : Probe) (hd : d.r.cleanupFailures = 0) :
    (cleanup sec reason).wp (fun log _ d' => ∃ good sound, Cleanup sec reason d log d' good sound) d := by
  unfold cleanup
  rw [wp_get_bind, wp_bind]
  refine wp_mono (undo_settles sec reason d rfl) fun undo ok d₁ h => ?_
  rcases h with ⟨matched, hundo, haccount⟩
  rw [wp_bind]
  refine wp_mono (verify_settles (x := d.entered) sec reason ok d₁ haccount.entered) fun check _ d₂ h => ?_
  rcases h with ⟨_, ⟨sound, hcheck, rfl⟩, haccount'⟩
  have hall := haccount.trans haccount'
  rw [wp_modify, List.append_nil]
  have hok : (d₂.r.cleanupFailures == 0) = (ok && matched && sound) := by
    rw [Bool.eq_iff_iff, beq_iff_eq, hall.failures, and_iff_right hd]
    have hcomm : (matched && (ok && sound)) = (ok && matched && sound) := by ac_rfl
    rw [hcomm]
  exact ⟨ok && matched, sound, ⟨undo, check, rfl, hundo, hcheck⟩, hall.mismatch, hall.quiet, hok, rfl, hall.operation,
    hall.entered⟩

/-! ## A whole probe -/

def isWrite : Event Io Reply Mismatch → Bool
  | .call (.bootWrite32 _ _) _ => true
  | .call (.bootWrite16 _ _) _ => true
  | _ => false

/-- Nothing was begun. -/
structure Refused (log : Trace) (d : Probe) : Prop where
  quiet : ∀ e ∈ log, isAction e = false ∧ isWrite e = false
  status : d.r.status = .unsafeCommand ∨ d.r.status = .invalidRead
  attempted : d.r.attempted = false
  cleanupOK : d.r.cleanupOK = false

/-- What is read before anything is written. -/
def opening (command : UInt16) (sec : UInt32) (reason : UInt16) (dmac hci : UInt32) : Trace :=
  [.call .command command, .call (.read32 0xc00) sec, .call (.read16 0x1e6) reason, .call (.read32 0x8400) dmac,
    .call (.read32 0x1000) hci]

/-- The sequence `seq`, the action if the operation ended well, and the cleanup: the steps `undo` of the blocks that
were entered, and the reads `check`. -/
structure Attempted (sec : UInt32) (reason : UInt16) (seq act undo check : Trace) (d : Probe) : Prop where
  attempted : d.r.attempted = true
  access : d.r.accessAttempted = true
  quiet : ∀ e ∈ seq ++ undo ++ check, isAction e = false
  act : act = if d.r.operationStatus = .ready then [.call .action ()] else []
  booted : d.r.operationStatus = .ready → Booted seq
  scope : ∀ e ∈ seq, level e ≤ d.r.phase
  hci : 1 ≤ d.r.phase → d.r.hciCaptured = true
  captures : Captures d seq
  cleanup : ∃ good sound, Series (blocks sec reason d.entered) undo good ∧ Verified sec reason d.entered check sound ∧
    d.r.cleanupOK = (good && sound)
  status : d.r.status = if d.r.cleanupOK then d.r.operationStatus else .cleanupFailed

theorem act_spec (d : Probe) :
    act.wp (fun log _ d' => log = (if d.r.status = .ready then [.call .action ()] else []) ∧ d' = d) d := by
  unfold act
  rw [wp_get_bind]
  by_cases hready : d.r.status = .ready
  · rw [if_pos hready, if_pos hready, wp_ask]
    exact fun _ => ⟨rfl, rfl⟩
  · rw [if_neg hready, if_neg hready, wp_pure]
    exact ⟨rfl, rfl⟩

/-- Nothing has happened yet. -/
structure Fresh (d : Probe) : Prop where
  status : d.r.status ≠ .ready
  phase : d.r.phase = 0
  captured : d.r.hciCaptured = false
  failures : d.r.cleanupFailures = 0
  mismatch : d.mismatch = none

theorem mismatches_act {act : Trace} {s : Status} (hact : act = if s = .ready then [.call .action ()] else []) :
    mismatches act = [] := by
  rw [hact]
  split <;> rfl

theorem attempt_spec (sec : UInt32) (reason : UInt16) (d : Probe) (hd : Fresh d) :
    (attempt sec reason).wp (fun log _ d' => d'.mismatch = (mismatches log).head? ∧
      ∃ seq act undo check, log = seq ++ act ++ undo ++ check ∧ Attempted sec reason seq act undo check d') d := by
  unfold attempt
  rw [wp_modify_bind, wp_bind]
  refine wp_mono (sequence_spec reason d.begun hd.status hd.phase hd.captured) fun seq _ d₁ hseq => ?_
  rw [wp_bind]
  refine wp_mono (act_spec d₁) fun act _ d₂ hact => ?_
  rcases hact with ⟨hact, rfl⟩
  rw [wp_modify_bind]
  have hfailures : d₂.ended.r.cleanupFailures = 0 := (congrArg (·.1) hseq.same).trans hd.failures
  refine wp_mono (cleanup_spec sec reason d₂.ended hfailures) fun log _ d₃ h => ?_
  rcases h with ⟨good, sound, h⟩
  rcases h.steps with ⟨undo, check, rfl, hundo, hcheck⟩
  have hentered : d₃.entered = d₂.ended.entered := h.entered
  have hstatus : d₃.r.operationStatus = d₂.r.status := congrArg (·.1) h.operation
  have hphase : d₃.r.phase = d₂.r.phase := congrArg Entered.phase hentered
  have hcaptured : d₃.r.hciCaptured = d₂.r.hciCaptured := congrArg Entered.captured hentered
  refine ⟨?_, seq, act, undo, check, ?_, ?_⟩
  · have hfirst : d₂.ended.mismatch = (mismatches seq).head? := by
      have hmismatch := hseq.mismatch
      rw [show d.begun.mismatch = none from hd.mismatch, Option.none_or] at hmismatch
      exact hmismatch
    rw [h.mismatch, hfirst, ← List.head?_append]
    congr 1
    simp only [mismatches, List.filterMap_append]
    have hnone : List.filterMap noted act = [] := mismatches_act hact
    rw [hnone, List.nil_append]
  · simp only [List.append_assoc]
  · rw [← hstatus] at hact
    refine ⟨?_, ?_, fun e he => ?_, hact, fun hready => ?_, fun e he => ?_, fun hone => ?_, fun hyes => ?_, ?_, h.status⟩
    · exact (congrArg (·.2) h.operation).trans (congrArg (·.2.1) hseq.same)
    · exact (congrArg Entered.access hentered).trans (congrArg (·.2.2) hseq.same)
    · rw [List.append_assoc] at he
      exact (List.mem_append.1 he).elim (fun he => (hseq.quiet e he).1) (h.quiet e)
    · exact hseq.booted (hstatus.symm.trans hready)
    · rw [hphase]
      exact (hseq.quiet e he).2
    · rw [hphase] at hone
      exact hcaptured.trans (hseq.hci hone)
    · rw [show d₃.hci = d₂.hci from congrArg Entered.hci hentered,
        show d₃.stop = d₂.stop from congrArg Entered.stop hentered]
      exact hseq.captures (hcaptured.symm.trans hyes)
    · rw [hentered]
      exact ⟨good, sound, hundo, hcheck, h.cleanupOK⟩

end Boot
end Rtl8852be
