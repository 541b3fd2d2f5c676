import Rtl8852be.Firmware.FirmwareTransfer

/-!
# TransferOrder — what a firmware transfer does in which order

`Allowed` says what must have happened before a packet is published or the buffers are released.  It is
carried through the steps of the transfer together with what is known of the trace between them: `Live`
while the transfer goes on, `Failed` after it has given up.
-/

namespace Rtl8852be
namespace Transport

open Interaction Code

variable {count : ℕ} {t log : Trace} {s s' : Transfer} {x : TraceEvent}

/-! ## Traces -/

/-- Asking the clock or a register, or waiting. -/
def polling : TraceEvent → Bool
  | .call (.nowUs _) _ => true
  | .call .cancelled _ => true
  | .call .readControl _ => true
  | .call .readIndex _ => true
  | .call .delayUs _ => true
  | _ => false

def Quiet (log : Trace) : Prop := ∀ x ∈ log, polling x = true

/-- The packets handed to the device, and whether that succeeded. -/
def published (t : Trace) : List (ℕ × Bool) :=
  t.filterMap fun x =>
    match x with
    | .call (.publish k) ok => some (k, ok)
    | _ => none

def clocks (t : Trace) : List (Sample × UInt64) :=
  t.filterMap fun x =>
    match x with
    | .call (.nowUs site) now => some (site, now)
    | _ => none

/-- The clock has not gone back, except perhaps to the value with which a loop begins. -/
def Checked (a b : Sample × UInt64) : Prop := b.1 = .begin ∨ a.2 ≤ b.2

/-- The download path is ready: a control byte with bit 1 after a successful start. -/
def H2cReady (t : Trace) : Prop :=
  ∃ before after, t = before ++ after ∧ .call .startDownload true ∈ before ∧
    ∃ control, .call .readControl control ∈ after ∧ control &&& 2 ≠ 0

/-- The firmware takes sections: a control byte with bit 2 after the header, and the halt controls
cleared. -/
def DownloadReady (t : Trace) : Prop :=
  ∃ before after, t = before ++ after ∧ .call (.publish 1) true ∈ before ∧
    (∃ control, .call .readControl control ∈ after ∧ control &&& 4 ≠ 0) ∧
    .call .clearHaltControls true ∈ t

def NoError (t : Trace) : Prop := ∀ control, .call .readControl control ∈ t → controlError control = .notRun

def Allowed (count : ℕ) (before : Trace) : TraceEvent → Prop
  | .call (.publish k) _ =>
      k = (published before).length + 1 ∧ k ≤ count ∧ (k = 1 → H2cReady before) ∧
        (2 ≤ k → DownloadReady before) ∧ NoError before ∧ (clocks before).IsChain Checked
  | .call .releaseAll _ =>
      (∀ ok, .call .startDownload ok ∉ before) ∨ .call .quiesceAndProveIdle true ∈ before
  | _ => True

/-- The first `n` packets, in order. -/
def Sent (n : ℕ) (t : Trace) : Prop := published t = (List.range' 1 n).map fun k => (k, true)

@[simp] theorem published_append : published (t ++ log) = published t ++ published log :=
  List.filterMap_append

@[simp] theorem clocks_append : clocks (t ++ log) = clocks t ++ clocks log :=
  List.filterMap_append

theorem Quiet.published (hq : Quiet log) : published log = [] := by
  rw [Transport.published, List.filterMap_eq_nil_iff]
  intro x hx
  have hpolling := hq x hx
  split
  · cases hpolling
  · rfl

theorem Quiet.append {log' : Trace} (hq : Quiet log) (hq' : Quiet log') : Quiet (log ++ log') := by
  intro x hx
  rcases List.mem_append.1 hx with hx | hx
  · exact hq x hx
  · exact hq' x hx

theorem Quiet.mem_append (hq : Quiet log) (hx : polling x = false) : x ∈ t ++ log ↔ x ∈ t := by
  rw [List.mem_append]
  refine ⟨fun h => h.resolve_right fun hlog => ?_, Or.inl⟩
  exact absurd ((hq x hlog).symm.trans hx) nofun

theorem allowed_of_polling (hx : polling x = true) : Allowed count t x := by
  unfold polling at hx
  split at hx
  · trivial
  · trivial
  · trivial
  · trivial
  · trivial
  · cases hx

theorem Quiet.always (hq : Quiet log) (h : Always (Allowed count) t) :
    Always (Allowed count) (t ++ log) := by
  induction log using List.reverseRecOn with
  | nil => simpa using h
  | append_singleton log x ih =>
      rw [← List.append_assoc, always_concat]
      refine ⟨ih fun y hy => hq y (List.mem_append_left _ hy), allowed_of_polling ?_⟩
      exact hq x (List.mem_append_right _ (List.mem_singleton_self x))

/-! ## What is known between two steps -/

/-- The locals say what has been done. -/
structure Base (count : ℕ) (t : Trace) (s : Transfer) : Prop where
  allowed : Always (Allowed count) t
  prepared : s.prepared = true ↔ ∃ ok, .call .prepare ok ∈ t
  started : s.startAttempted = true ↔ ∃ ok, .call .startDownload ok ∈ t
  kept : ∀ ok, .call .releaseAll ok ∉ t
  retained : s.result.retainBuffers = false

/-- The same flags. -/
structure Steady (s s' : Transfer) : Prop where
  prepared : s'.prepared = s.prepared
  startAttempted : s'.startAttempted = s.startAttempted
  retainBuffers : s'.result.retainBuffers = s.result.retainBuffers

theorem Base.quiet (hb : Base count t s) (hq : Quiet log) (hs : Steady s s') :
    Base count (t ++ log) s' where
  allowed := hq.always hb.allowed
  prepared := by
    rw [hs.prepared, hb.prepared]
    exact exists_congr fun ok => (hq.mem_append rfl).symm
  started := by
    rw [hs.startAttempted, hb.started]
    exact exists_congr fun ok => (hq.mem_append rfl).symm
  kept := by
    intro ok hin
    exact hb.kept ok ((hq.mem_append rfl).1 hin)
  retained := hs.retainBuffers.trans hb.retained

/-- The transfer goes on.  A control byte that has not been looked at yet may show an error. -/
structure Live (count : ℕ) (fresh : Option UInt8) (t : Trace) (s : Transfer) : Prop
    extends Base count t s where
  status : s.result.status = .notRun
  noError : ∀ c, .call .readControl c ∈ t → fresh = some c ∨ controlError c = .notRun

/-- It has given up. -/
structure Failed (count : ℕ) (t : Trace) (s : Transfer) : Prop extends Base count t s where
  status : s.result.status ≠ .complete

def Ticks (t : Trace) (now : UInt64) : Prop :=
  (clocks t).IsChain Checked ∧ ∃ a, (clocks t).getLast? = some a ∧ a.2 = now

def Going (count : ℕ) (fresh : Option UInt8) (t : Trace) (s : Transfer) : Prop :=
  Live count fresh t s ∧ Ticks t s.previous

/-- In a loop that began at `begin`, which may be the last reading of the clock. -/
def Waiting (count : ℕ) (fresh : Option UInt8) (begin : UInt64) (t : Trace) (s : Transfer) : Prop :=
  Live count fresh t s ∧ (clocks t).IsChain Checked ∧
    ∃ a, (clocks t).getLast? = some a ∧ (a.2 = s.previous ∨ a.2 = begin)

/-- After `check`, before the time is compared with the beginning of the loop. -/
def Sampled (count : ℕ) (fresh : Option UInt8) (begin : UInt64) (t : Trace) (s : Transfer) : Prop :=
  Live count fresh t s ∧ (begin ≤ s.previous → Ticks t s.previous)

variable {fresh : Option UInt8} {begin : UInt64}

theorem Going.waiting (hg : Going count fresh t s) :
    Waiting count fresh begin t s := by
  rcases hg with ⟨hlive, hchain, a, ha, hnow⟩
  exact ⟨hlive, hchain, a, ha, Or.inl hnow⟩

theorem Sampled.going (hs : Sampled count fresh 0 t s) :
    Going count fresh t s :=
  ⟨hs.1, hs.2 (UInt64.zero_le)⟩

theorem isChain_clock {a b : Sample × UInt64} {l : List (Sample × UInt64)} (hl : l.IsChain Checked)
    (ha : l.getLast? = some a) (hab : Checked a b) : (l ++ [b]).IsChain Checked := by
  rw [List.isChain_append]
  refine ⟨hl, List.isChain_singleton b, ?_⟩
  intro x hx y hy
  rw [ha] at hx
  rcases Option.some.inj hx with rfl
  rcases Option.some.inj hy with rfl
  exact hab

/-! ## The steps -/

def Stable (K : Trace → Prop) : Prop := ∀ {t log : Trace}, Quiet log → K t → K (t ++ log)

theorem stable_sent {n : ℕ} : Stable (Sent n) := by
  intro t log hq ht
  rw [Sent, published_append, hq.published, List.append_nil]
  exact ht

/-- A failed step has set a status of its own. -/
structure Gave (s s' : Transfer) : Prop extends Steady s s' where
  notRun : s'.result.status ≠ .notRun
  notComplete : s'.result.status ≠ .complete

theorem give_wp {status : TransferStatus} (hrun : status ≠ .notRun) (hcomplete : status ≠ .complete)
    (s : Transfer) : (give status).wp (fun log ok s' => log = [] ∧ ok = false ∧ Gave s s') s := by
  simp only [give, setStatus, wp_modify_bind, wp_pure]
  exact ⟨trivial, trivial, ⟨rfl, rfl, rfl⟩, hrun, hcomplete⟩

theorem Live.failed (hl : Live count fresh t s) (hq : Quiet log) (hg : Gave s s') : Failed count (t ++ log) s' where
  toBase := hl.toBase.quiet hq hg.toSteady
  status := hg.notComplete

theorem stage_give {P S : Trace → Transfer → Prop} {status : TransferStatus}
    (hrun : status ≠ .notRun) (hcomplete : status ≠ .complete)
    (hP : ∀ t s, P t s → ∃ fresh, Live count fresh t s) :
    Stage P (give status) S (Failed count) := by
  intro t s hpre
  refine wp_mono (give_wp hrun hcomplete s) ?_
  rintro log ok s' ⟨rfl, rfl, hg⟩
  refine ⟨nofun, fun _ => ?_⟩
  rcases hP t s hpre with ⟨fresh, hl⟩
  exact hl.failed (by simp [Quiet]) hg

theorem check_wp (s : Transfer) :
    check.wp (fun log ok s' =>
      (ok = true → ∃ now, log = [.call (.nowUs .check) now, .call .cancelled false] ∧
        s.previous ≤ now ∧
        s' = { s with previous := now, result := { s.result with elapsedUs := now - s.start } }) ∧
      (ok = false → Quiet log ∧ Gave s s')) s := by
  simp only [check, nowUs, give, setStatus, wp_ask_bind, wp_get_bind, wp_ite, wp_modify_bind, wp_pure]
  intro now
  refine ⟨fun _ => ⟨(by rintro ⟨⟩), fun _ => ⟨?_, ⟨rfl, rfl, rfl⟩, (by rintro ⟨⟩), (by rintro ⟨⟩)⟩⟩, fun hclock cancelled => ?_⟩
  · simp [Quiet, polling]
  have hquiet : Quiet [.call (.nowUs .check) now, .call .cancelled cancelled] := by
    simp [Quiet, polling]
  refine ⟨fun _ => ⟨(by rintro ⟨⟩), fun _ => ⟨hquiet, ⟨rfl, rfl, rfl⟩, (by rintro ⟨⟩), (by rintro ⟨⟩)⟩⟩, fun hgo => ⟨?_, ?_⟩⟩
  · exact fun _ => ⟨(by rintro ⟨⟩), fun _ => ⟨hquiet, ⟨rfl, rfl, rfl⟩, (by rintro ⟨⟩), (by rintro ⟨⟩)⟩⟩
  · intro _
    refine ⟨fun _ => ⟨now, ?_, UInt64.not_lt.1 hclock, rfl⟩, (by rintro ⟨⟩)⟩
    simp only [Bool.not_eq_true] at hgo
    rw [hgo]

theorem Live.quiet (hl : Live count fresh t s) (hq : Quiet log) (hs : Steady s s')
    (hstatus : s'.result.status = s.result.status) (hcontrol : ∀ c, .call .readControl c ∉ log) :
    Live count fresh (t ++ log) s' where
  toBase := hl.toBase.quiet hq hs
  status := hstatus.trans hl.status
  noError := by
    intro c hc
    exact hl.noError c ((List.mem_append.1 hc).resolve_right (hcontrol c))

variable {K : Trace → Prop}

theorem stage_check (begin : UInt64) (hK : Stable K) :
    Stage (fun t s => Waiting count fresh begin t s ∧ K t) check
      (fun t s => Sampled count fresh begin t s ∧ K t) (Failed count) := by
  rintro t s ⟨⟨hl, hchain, a, ha, hlast⟩, hk⟩
  refine wp_mono (check_wp s) fun log ok s' hcheck => ⟨fun hok => ?_, fun hok => ?_⟩
  · rcases hcheck.1 hok with ⟨now, rfl, hnow, rfl⟩
    have hquiet : Quiet [.call (.nowUs .check) now, .call .cancelled false] := by
      simp [Quiet, polling]
    refine ⟨⟨hl.quiet hquiet ⟨rfl, rfl, rfl⟩ rfl (by simp), fun hbegin => ?_⟩, hK hquiet hk⟩
    have hclocks : clocks (t ++ [.call (.nowUs .check) now, .call .cancelled false]) =
        clocks t ++ [(.check, now)] := clocks_append
    rw [Ticks, hclocks]
    refine ⟨isChain_clock hchain ha (Or.inr ?_), (.check, now), by simp, rfl⟩
    rcases hlast with hlast | hlast
    · exact hlast ▸ hnow
    · exact hlast ▸ hbegin
  · rcases hcheck.2 hok with ⟨hquiet, hg⟩
    exact hl.failed hquiet hg

/-- `check` outside a loop. -/
theorem stage_check_going (hK : Stable K) :
    Stage (fun t s => Going count none t s ∧ K t) check (fun t s => Going count none t s ∧ K t)
      (Failed count) :=
  Triple.mono (stage_check 0 hK) (fun _ _ h => ⟨h.1.waiting, h.2⟩)
    fun _ _ _ h => ⟨fun hok => ⟨(h.1 hok).1.going, (h.1 hok).2⟩, h.2⟩

theorem stage_inTime :
    Stage (fun t s => Sampled count fresh begin t s ∧ K t) (inTime begin)
      (fun t s => Going count fresh t s ∧ K t) (Failed count) := by
  refine Triple.get_bind fun x => Triple.ite (fun _ => ?_) fun hlate => ?_
  · exact stage_give nofun nofun fun t s h => ⟨fresh, h.2.1.1⟩
  · refine Triple.pure ?_
    rintro t s ⟨rfl, hs, hk⟩
    rw [not_or, UInt64.not_lt] at hlate
    exact ⟨fun _ => ⟨⟨hs.1, hs.2 hlate.1⟩, hk⟩, nofun⟩

/-- The time is asked for and compared with the beginning of the loop. -/
theorem stage_tick (begin : UInt64) (hK : Stable K) {m : Gated Bool} {S : Trace → Transfer → Prop}
    (hm : Stage (fun t s => Going count fresh t s ∧ K t) m S (Failed count)) :
    Stage (fun t s => Waiting count fresh begin t s ∧ K t)
      (Code.both check (Code.both (inTime begin) m)) S (Failed count) :=
  (stage_check begin hK).both (stage_inTime.both hm)

/-- `K` held once, and some control byte was read since. -/
def Read (K : Trace → Prop) (good : UInt8 → Prop) (t : Trace) : Prop :=
  ∃ before after, t = before ++ after ∧ K before ∧ Quiet after ∧
    ∃ control, .call .readControl control ∈ after ∧ good control

theorem stable_read {good : UInt8 → Prop} : Stable (Read K good) := by
  rintro t log hq ⟨before, after, rfl, hk, hafter, control, hin, hgood⟩
  exact ⟨before, after ++ log, List.append_assoc _ _ _, hk, hafter.append hq, control,
    List.mem_append_left _ hin, hgood⟩

theorem Read.weaken (hK : Stable K) {good : UInt8 → Prop} (hr : Read K good t) :
    K t := by
  rcases hr with ⟨before, after, rfl, hk, hafter, -⟩
  exact hK hafter hk

theorem Read.imp {good good' : UInt8 → Prop} (hr : Read K good t) (h : ∀ c, good c → good' c) : Read K good' t := by
  rcases hr with ⟨before, after, rfl, hk, hafter, control, hin, hgood⟩
  exact ⟨before, after, rfl, hk, hafter, control, hin, h control hgood⟩

theorem controlError_ne_complete (c : UInt8) : controlError c ≠ .complete := by
  unfold controlError
  split
  · nofun
  split
  · nofun
  split
  · nofun
  split
  · nofun
  · nofun

theorem Going.seen {c : UInt8} (hg : Going count (some c) t s) (hc : controlError c = .notRun) :
    Going count none t s := by
  refine ⟨⟨hg.1.toBase, hg.1.status, fun c' hin => Or.inr ?_⟩, hg.2⟩
  rcases hg.1.noError c' hin with hsame | hok
  · rcases Option.some.inj hsame with rfl
    exact hc
  · exact hok

theorem quiet_delay {r : Unit} : Quiet [.call .delayUs r] := by
  simp [Quiet, polling]

theorem Waiting.delayed {r : Unit} (h : Waiting count fresh begin t s ∧ K t) (hK : Stable K) :
    Waiting count fresh begin (t ++ [.call .delayUs r]) s ∧ K (t ++ [.call .delayUs r]) := by
  rcases h with ⟨⟨hl, hchain, a, ha, hlast⟩, hk⟩
  have hclocks : clocks (t ++ [.call .delayUs r]) = clocks t := by
    rw [clocks_append]
    exact List.append_nil _
  refine ⟨⟨hl.quiet quiet_delay ⟨rfl, rfl, rfl⟩ rfl (by simp), ?_⟩, hK quiet_delay hk⟩
  rw [hclocks]
  exact ⟨hchain, a, ha, hlast⟩

theorem stage_waitFrom {path : Bool} {bit : UInt8} (hK : Stable K) : ∀ rounds : ℕ,
    Stage (fun t s => Waiting count none begin t s ∧ K t) (waitFrom path bit begin rounds)
      (fun t s => Going count none t s ∧ Read K (fun c => awaited path bit c = true) t)
      (Failed count) := by
  intro rounds
  induction rounds with
  | zero => exact stage_give (by rintro ⟨⟩) (by rintro ⟨⟩) fun t s h => ⟨none, h.1.1⟩
  | succ rounds ih =>
      refine stage_tick begin hK (Triple.bind (M := fun t control s =>
        Going count (some control) t s ∧ Read K (· = control) t) ?_ fun control => ?_)
      · rintro t s ⟨⟨hl, hticks⟩, hk⟩
        simp only [pollControl, readControl, wp_ask_bind, wp_modify_bind, wp_pure]
        intro control
        have hquiet : Quiet [.call .readControl control] := by simp [Quiet, polling]
        refine ⟨⟨⟨hl.toBase.quiet hquiet ⟨rfl, rfl, rfl⟩, hl.status, fun c hc => ?_⟩, ?_⟩, ?_⟩
        · rcases List.mem_append.1 hc with hc | hc
          · exact Or.inr ((hl.noError c hc).resolve_left (by rintro ⟨⟩))
          · simp only [List.mem_singleton, Event.call.injEq, heq_eq_eq, true_and] at hc
            exact Or.inl (congrArg some hc.symm)
        · have hclocks : clocks (t ++ [.call .readControl control]) = clocks t := by
            rw [clocks_append]
            exact List.append_nil _
          rw [Ticks, hclocks]
          exact hticks
        · exact ⟨t, _, rfl, hk, hquiet, control, List.mem_singleton_self _, rfl⟩
      · refine Triple.mono (stage_tick begin stable_read (Triple.ite (fun hbad => ?_)
          fun hok => Triple.ite (fun _ => ?_) fun _ => Triple.ite (fun hfound => ?_) fun _ => ?_))
          (fun _ _ h => ⟨h.1.waiting, h.2⟩) fun _ _ _ h => h
        · exact stage_give hbad (controlError_ne_complete control) fun t s h => ⟨_, h.1.1⟩
        · exact stage_give (by rintro ⟨⟩) (by rintro ⟨⟩) fun t s h => ⟨_, h.1.1⟩
        · refine Triple.pure fun t s h => ⟨fun _ => ⟨h.1.seen (not_not.1 hok), ?_⟩, (by rintro ⟨⟩)⟩
          exact h.2.imp fun c hc => hc ▸ hfound
        · -- The byte shows no error, and the next round begins where this one did.
          have hnext : ∀ {t : Trace} {s : Transfer},
              Going count (some control) t s ∧ Read K (· = control) t →
                Waiting count none begin t s ∧ K t := by
            intro t s h
            exact ⟨(h.1.seen (not_not.1 hok)).waiting, h.2.weaken hK⟩
          refine Triple.ite (fun _ => ?_) fun _ => Triple.mono ih (fun _ _ => hnext) fun _ _ _ h => h
          refine Triple.ask_bind fun r => Triple.mono ih ?_ fun _ _ _ h => h
          rintro _ s ⟨t, rfl, h⟩
          exact Waiting.delayed (hnext h) hK

theorem Going.begins (hK : Stable K) (h : Going count none t s ∧ K t) :
    Waiting count none begin (t ++ [.call (.nowUs .begin) begin]) s ∧
      K (t ++ [.call (.nowUs .begin) begin]) := by
  rcases h with ⟨⟨hl, hchain, a, ha, -⟩, hk⟩
  have hquiet : Quiet [.call (.nowUs .begin) begin] := by simp [Quiet, polling]
  have hclocks : clocks (t ++ [.call (.nowUs .begin) begin]) = clocks t ++ [(.begin, begin)] :=
    clocks_append
  refine ⟨⟨hl.quiet hquiet ⟨rfl, rfl, rfl⟩ rfl (by simp), ?_⟩, hK hquiet hk⟩
  rw [hclocks]
  exact ⟨isChain_clock hchain ha (Or.inl rfl), (.begin, begin), by simp, Or.inr rfl⟩

theorem stage_wait {path : Bool} {bit : UInt8} (hK : Stable K) :
    Stage (fun t s => Going count none t s ∧ K t) (wait path bit)
      (fun t s => Going count none t s ∧ Read K (fun c => awaited path bit c = true) t)
      (Failed count) := by
  refine Triple.ask_bind fun begin => Triple.mono (stage_waitFrom hK 8001) ?_ fun _ _ _ h => h
  rintro _ s ⟨t, rfl, h⟩
  exact Going.begins hK h

/-- `K` held once, and since then the index register showed that the batch is consumed. -/
def Drained (count : ℕ) (K : Trace → Prop) (t : Trace) : Prop :=
  ∃ before after, t = before ++ after ∧ K before ∧ ∃ index, .call .readIndex index ∈ after ∧
    (hostIndex index).toNat = count ∧ (hardwareIndex index).toNat = count

theorem stage_drainFrom (hK : Stable K) : ∀ rounds : ℕ,
    Stage (fun t s => Waiting count none begin t s ∧ K t) (drainFrom count begin rounds)
      (fun t s => Going count none t s ∧ Drained count K t) (Failed count) := by
  intro rounds
  induction rounds with
  | zero => exact stage_give (by rintro ⟨⟩) (by rintro ⟨⟩) fun t s h => ⟨none, h.1.1⟩
  | succ rounds ih =>
      -- What is known after the register was read.
      let Seen := fun (index : UInt32) (t : Trace) => ∃ before after, t = before ++ after ∧ K before ∧
        Quiet after ∧ .call .readIndex index ∈ after
      have hseen : ∀ {index : UInt32}, Stable (Seen index) := by
        rintro index t log hq ⟨before, after, rfl, hk, hafter, hin⟩
        exact ⟨before, after ++ log, List.append_assoc _ _ _, hk, hafter.append hq,
          List.mem_append_left _ hin⟩
      refine stage_tick begin hK (Triple.bind (M := fun t index s =>
        Going count none t s ∧ Seen index t) ?_ fun index => ?_)
      · rintro t s ⟨⟨hl, hticks⟩, hk⟩
        simp only [pollIndex, readIndex, wp_ask_bind, wp_modify_bind, wp_pure]
        intro index
        have hquiet : Quiet [.call .readIndex index] := by simp [Quiet, polling]
        refine ⟨⟨hl.quiet hquiet ⟨rfl, rfl, rfl⟩ rfl (by simp), ?_⟩,
          t, _, rfl, hk, hquiet, List.mem_singleton_self _⟩
        have hclocks : clocks (t ++ [.call .readIndex index]) = clocks t := by
          rw [clocks_append]
          exact List.append_nil _
        rw [Ticks, hclocks]
        exact hticks
      · refine Triple.mono (stage_tick begin hseen (Triple.ite (fun _ => ?_)
          fun hgood => Triple.ite (fun hall => ?_) fun _ => ?_))
          (fun _ _ h => ⟨h.1.waiting, h.2⟩) fun _ _ _ h => h
        · exact stage_give (by rintro ⟨⟩) (by rintro ⟨⟩) fun t s h => ⟨_, h.1.1⟩
        · refine Triple.pure fun t s h => ⟨fun _ => ⟨h.1, ?_⟩, (by rintro ⟨⟩)⟩
          rcases h.2 with ⟨before, after, rfl, hk, hafter, hin⟩
          simp only [badIndex, Bool.or_eq_true, not_or, bne_iff_ne, ne_eq, not_not] at hgood
          exact ⟨before, after, rfl, hk, index, hin, hgood.1.2, hall⟩
        · have hnext : ∀ {t : Trace} {s : Transfer}, Going count none t s ∧ Seen index t →
              Waiting count none begin t s ∧ K t := by
            rintro t s ⟨hg, before, after, rfl, hk, hafter, -⟩
            exact ⟨hg.waiting, hK hafter hk⟩
          refine Triple.ite (fun _ => ?_) fun _ => Triple.mono ih (fun _ _ => hnext) fun _ _ _ h => h
          refine Triple.ask_bind fun r => Triple.mono ih ?_ fun _ _ _ h => h
          rintro _ s ⟨t, rfl, h⟩
          exact Waiting.delayed (hnext h) hK

theorem stage_drain (hK : Stable K) :
    Stage (fun t s => Going count none t s ∧ K t) (drain count)
      (fun t s => Going count none t s ∧ Drained count K t) (Failed count) := by
  refine Triple.ask_bind fun begin => Triple.mono (stage_drainFrom hK 8001) ?_ fun _ _ _ h => h
  rintro _ s ⟨t, rfl, h⟩
  exact Going.begins hK h

theorem stage_settle (hK : Stable K) : ∀ n : ℕ,
    Stage (fun t s => Going count none t s ∧ K t) (settle n) (fun t s => Going count none t s ∧ K t)
      (Failed count) := by
  intro n
  induction n with
  | zero => exact Triple.pure fun t s h => ⟨fun _ => h, nofun⟩
  | succ n ih =>
      refine (stage_check_going hK).both (Triple.ask_bind fun r => Triple.mono ih ?_ fun _ _ _ h => h)
      rintro _ s ⟨t, rfl, ⟨hl, hticks⟩, hk⟩
      have hclocks : clocks (t ++ [.call .delayUs r]) = clocks t := by
        rw [clocks_append]
        exact List.append_nil _
      refine ⟨⟨hl.quiet quiet_delay ⟨rfl, rfl, rfl⟩ rfl (by simp), ?_⟩, hK quiet_delay hk⟩
      rw [Ticks, hclocks]
      exact hticks

/-- A call that is not polling: the flags record it, and it was allowed. -/
structure Acted (count : ℕ) (t : Trace) (s : Transfer) (x : TraceEvent) (s' : Transfer) : Prop where
  allowed : Allowed count t x
  prepared : s'.prepared = true ↔ s.prepared = true ∨ ∃ ok, x = .call .prepare ok
  started : s'.startAttempted = true ↔ s.startAttempted = true ∨ ∃ ok, x = .call .startDownload ok
  kept : ∀ ok, x ≠ .call .releaseAll ok
  control : ∀ c, x ≠ .call .readControl c
  clock : ∀ site now, x ≠ .call (.nowUs site) now
  retained : s'.result.retainBuffers = s.result.retainBuffers

theorem Acted.base (ha : Acted count t s x s') (hb : Base count t s) : Base count (t ++ [x]) s' where
  allowed := always_concat.2 ⟨hb.allowed, ha.allowed⟩
  prepared := by
    rw [ha.prepared, hb.prepared]
    simp only [List.mem_append, List.mem_singleton, exists_or, eq_comm]
  started := by
    rw [ha.started, hb.started]
    simp only [List.mem_append, List.mem_singleton, exists_or, eq_comm]
  kept := by
    intro ok hin
    rcases List.mem_append.1 hin with hin | hin
    · exact hb.kept ok hin
    · exact ha.kept ok (List.mem_singleton.1 hin).symm
  retained := ha.retained.trans hb.retained

theorem Acted.clocks (ha : Acted count t s x s') : clocks (t ++ [x]) = clocks t := by
  have hnone : Transport.clocks [x] = [] := by
    rw [Transport.clocks, List.filterMap_eq_nil_iff]
    intro y hy
    rcases List.mem_singleton.1 hy with rfl
    split
    · exact absurd rfl (ha.clock _ _)
    · rfl
  rw [clocks_append, hnone, List.append_nil]

theorem Acted.going (ha : Acted count t s x s') (hg : Going count none t s)
    (hstatus : s'.result.status = s.result.status) (hprevious : s'.previous = s.previous) :
    Going count none (t ++ [x]) s' := by
  refine ⟨⟨ha.base hg.1.toBase, hstatus.trans hg.1.status, fun c hc => ?_⟩, ?_⟩
  · rcases List.mem_append.1 hc with hc | hc
    · exact hg.1.noError c hc
    · exact absurd (List.mem_singleton.1 hc).symm (ha.control c)
  · rw [Ticks, ha.clocks, hprevious]
    exact hg.2

theorem Acted.failed (ha : Acted count t s x s') (hg : Going count none t s)
    (hstatus : s'.result.status ≠ .complete) : Failed count (t ++ [x]) s' :=
  ⟨ha.base hg.1.toBase, hstatus⟩

def Unstarted (t : Trace) : Prop := published t = []

theorem stage_prepare : Stage (fun t s => Going count none t s ∧ Unstarted t) prepare
    (fun t s => Going count none t s ∧ Unstarted t) (Failed count) := by
  rintro t s ⟨hg, hk⟩
  simp only [prepare, give, setStatus, wp_modify_bind, wp_ask_bind, wp_ite, wp_pure]
  intro ok
  have hacted : ∀ s' : Transfer, s'.prepared = true → s'.startAttempted = s.startAttempted →
      s'.result.retainBuffers = s.result.retainBuffers → Acted count t s (.call .prepare ok) s' := by
    intro s' hprepared hstart hretained
    refine ⟨trivial, ⟨fun _ => Or.inr ⟨ok, rfl⟩, fun _ => hprepared⟩, ?_, (by simp), (by simp), (by simp),
      hretained⟩
    rw [hstart]
    exact ⟨Or.inl, fun h => h.resolve_right (by simp)⟩
  have hpublished : published (t ++ [.call .prepare ok]) = published t := by
    rw [published_append]
    exact List.append_nil _
  refine ⟨fun _ => ⟨fun _ => ⟨Acted.going (hacted _ rfl rfl rfl) hg rfl rfl, hpublished.trans hk⟩, (by rintro ⟨⟩)⟩,
    fun _ => ⟨(by rintro ⟨⟩), fun _ => Acted.failed (hacted _ rfl rfl rfl) hg (by rintro ⟨⟩)⟩⟩

def Started (t : Trace) : Prop := published t = [] ∧ .call .startDownload true ∈ t

theorem stage_startDownload : Stage (fun t s => Going count none t s ∧ Unstarted t) startDownload
    (fun t s => Going count none t s ∧ Started t) (Failed count) := by
  rintro t s ⟨hg, hk⟩
  simp only [startDownload, give, setStatus, wp_modify_bind, wp_ask_bind, wp_ite, wp_pure]
  intro ok
  have hacted : ∀ s' : Transfer, s'.prepared = s.prepared → s'.startAttempted = true →
      s'.result.retainBuffers = s.result.retainBuffers →
      Acted count t s (.call .startDownload ok) s' := by
    intro s' hprepared hstart hretained
    refine ⟨trivial, ?_, ⟨fun _ => Or.inr ⟨ok, rfl⟩, fun _ => hstart⟩, (by simp), (by simp), (by simp),
      hretained⟩
    rw [hprepared]
    exact ⟨Or.inl, fun h => h.resolve_right (by simp)⟩
  have hpublished : published (t ++ [.call .startDownload ok]) = published t := by
    rw [published_append]
    exact List.append_nil _
  refine ⟨fun hok => ⟨fun _ => ⟨Acted.going (hacted _ rfl rfl rfl) hg rfl rfl, hpublished.trans hk, ?_⟩,
    (by rintro ⟨⟩)⟩, fun _ => ⟨(by rintro ⟨⟩), fun _ => Acted.failed (hacted _ rfl rfl rfl) hg (by rintro ⟨⟩)⟩⟩
  rw [hok]
  exact List.mem_append_right _ (List.mem_singleton_self _)

/-- Calls that are neither `prepare` nor `startDownload`. -/
theorem acted_of_steady {c : Call} {r : Reply c} (hallowed : Allowed count t (.call c r))
    (hprepare : c ≠ .prepare) (hstart : c ≠ .startDownload) (hrelease : c ≠ .releaseAll)
    (hcontrol : c ≠ .readControl) (hclock : ∀ site, c ≠ .nowUs site) (hs : Steady s s') :
    Acted count t s (.call c r) s' := by
  refine ⟨hallowed, ?_, ?_, ?_, ?_, ?_, hs.retainBuffers⟩
  · rw [hs.prepared]
    refine ⟨Or.inl, fun h => h.resolve_right ?_⟩
    rintro ⟨ok, heq⟩
    cases heq
    exact hprepare rfl
  · rw [hs.startAttempted]
    refine ⟨Or.inl, fun h => h.resolve_right ?_⟩
    rintro ⟨ok, heq⟩
    cases heq
    exact hstart rfl
  · rintro ok heq
    cases heq
    exact hrelease rfl
  · rintro c' heq
    cases heq
    exact hcontrol rfl
  · rintro site now heq
    cases heq
    exact hclock site rfl

/-- A packet is published when everything before it was. -/
theorem stage_publish {n : ℕ} (hn : n + 1 ≤ count) (hsent : ∀ t, K t → Sent n t)
    (hfirst : ∀ t, K t → n = 0 → H2cReady t) (hlater : ∀ t, K t → n ≠ 0 → DownloadReady t) :
    Stage (fun t s => Going count none t s ∧ K t) (publish (n + 1))
      (fun t s => Going count none t s ∧ Sent (n + 1) t ∧
        ∃ before, t = before ++ [.call (.publish (n + 1)) true] ∧ K before) (Failed count) := by
  rintro t s ⟨hg, hk⟩
  simp only [publish, give, setStatus, wp_modify_bind, wp_ask_bind, wp_ite, wp_pure]
  intro ok
  have hlength : (published t).length = n := by
    rw [hsent t hk]
    simp
  have hallowed : Allowed count t (.call (.publish (n + 1)) ok) := by
    refine ⟨by rw [hlength], hn, fun hone => hfirst t hk (by omega), fun htwo => ?_, ?_, hg.2.1⟩
    · exact hlater t hk (by omega)
    · intro c hc
      exact (hg.1.noError c hc).resolve_left (by rintro ⟨⟩)
  have hacted : ∀ s' : Transfer, Steady s s' →
      Acted count t s (.call (.publish (n + 1)) ok) s' := by
    intro s' hs
    exact acted_of_steady hallowed (by rintro ⟨⟩) (by rintro ⟨⟩) (by rintro ⟨⟩) (by rintro ⟨⟩) (by simp) hs
  refine ⟨fun hok => ⟨fun _ => ⟨Acted.going (hacted _ ⟨rfl, rfl, rfl⟩) hg rfl rfl, ?_, ?_⟩, (by rintro ⟨⟩)⟩,
    fun _ => ⟨(by rintro ⟨⟩), fun _ => Acted.failed (hacted _ ⟨rfl, rfl, rfl⟩) hg (by rintro ⟨⟩)⟩⟩
  · rw [hok, Sent, published_append, hsent t hk, List.range'_concat, List.map_append, Nat.one_mul,
      Nat.add_comm n 1]
    rfl
  · rw [hok]
    exact ⟨t, rfl, hk⟩

theorem stage_clearHalt (hK : ∀ t ok, K t → K (t ++ [.call .clearHaltControls ok])) :
    Stage (fun t s => Going count none t s ∧ K t) clearHalt
      (fun t s => Going count none t s ∧ K t ∧ .call .clearHaltControls true ∈ t)
      (Failed count) := by
  rintro t s ⟨hg, hk⟩
  simp only [clearHalt, give, setStatus, wp_modify_bind, wp_ask_bind, wp_ite, wp_pure]
  intro ok
  have hacted : ∀ s' : Transfer, Steady s s' →
      Acted count t s (.call .clearHaltControls ok) s' := by
    intro s' hs
    exact acted_of_steady trivial (by rintro ⟨⟩) (by rintro ⟨⟩) (by rintro ⟨⟩) (by rintro ⟨⟩) (by simp) hs
  refine ⟨fun hok => ⟨fun _ => ⟨Acted.going (hacted _ ⟨rfl, rfl, rfl⟩) hg rfl rfl, hK t ok hk, ?_⟩, (by rintro ⟨⟩)⟩,
    fun _ => ⟨(by rintro ⟨⟩), fun _ => Acted.failed (hacted _ ⟨rfl, rfl, rfl⟩) hg (by rintro ⟨⟩)⟩⟩
  rw [hok]
  exact List.mem_append_right _ (List.mem_singleton_self _)

theorem stage_inPhase {phase : Phase} {m : Gated Bool} {S : Trace → Transfer → Prop}
    (hm : Stage (fun t s => Going count none t s ∧ K t) m S (Failed count)) :
    Stage (fun t s => Going count none t s ∧ K t) (inPhase phase m) S (Failed count) := by
  intro t s h
  simp only [inPhase, setPhase, wp_modify_bind]
  refine hm t _ ⟨⟨⟨?_, h.1.1.status, h.1.1.noError⟩, h.1.2⟩, h.2⟩
  have hbase := h.1.1.toBase
  exact ⟨hbase.allowed, hbase.prepared, hbase.started, hbase.kept, hbase.retained⟩

theorem DownloadReady.append (h : DownloadReady t) : DownloadReady (t ++ log) := by
  rcases h with ⟨before, after, rfl, hheader, ⟨control, hin, hbit⟩, hclear⟩
  exact ⟨before, after ++ log, List.append_assoc _ _ _, hheader,
    ⟨control, List.mem_append_left _ hin, hbit⟩, List.mem_append_left _ hclear⟩

theorem stage_sectionsFrom : ∀ n i : ℕ, i ≠ 0 → i + n ≤ count →
    Stage (fun t s => Going count none t s ∧ Sent i t ∧ DownloadReady t) (sectionsFrom n (i + 1))
      (fun t s => Going count none t s ∧ Sent (i + n) t) (Failed count) := by
  intro n
  induction n with
  | zero =>
      intro i hi hle
      exact Triple.pure fun t s h => ⟨fun _ => ⟨h.1, h.2.1⟩, nofun⟩
  | succ n ih =>
      intro i hi hle
      have hstable : Stable fun t => Sent i t ∧ DownloadReady t := fun hq h =>
        ⟨stable_sent hq h.1, h.2.append⟩
      have hlt : i + 1 ≤ count := by omega
      have hpublish := stage_publish hlt (fun t h => h.1)
        (fun t _ hzero => absurd hzero hi) fun t (h : Sent i t ∧ DownloadReady t) _ => h.2
      have hrest := ih (i + 1) (Nat.succ_ne_zero i) (by omega)
      refine (stage_check_going hstable).both (hpublish.both (hrest.mono ?_ ?_))
      · rintro t s ⟨hg, hsent, before, rfl, -, hready⟩
        exact ⟨hg, hsent, hready.append⟩
      · rintro t s ⟨hg, hsent⟩
        refine ⟨hg, ?_⟩
        rwa [show i + (n + 1) = i + 1 + n by omega]

/-! ## The whole transfer -/

def HeaderSent (t : Trace) : Prop := Sent 1 t ∧ .call (.publish 1) true ∈ t

/-- The firmware has asked for sections since. -/
def Asked (t : Trace) : Prop :=
  Sent 1 t ∧ ∃ before after, t = before ++ after ∧ .call (.publish 1) true ∈ before ∧
    ∃ control, .call .readControl control ∈ after ∧ control &&& 4 ≠ 0

/-- Everything a complete transfer has seen. -/
def Story (count : ℕ) (t : Trace) : Prop :=
  ∃ before between after, t = before ++ between ++ after ∧ Sent count before ∧
    (∃ control, .call .readControl control ∈ between ∧ firmwareState control = 7) ∧
    ∃ index, .call .readIndex index ∈ after ∧ (hostIndex index).toNat = count ∧
      (hardwareIndex index).toNat = count

theorem stable_unstarted : Stable Unstarted := by
  intro t log hq ht
  rw [Unstarted, published_append, hq.published, List.append_nil]
  exact ht

theorem stable_started : Stable Started := fun hq ht =>
  ⟨stable_unstarted hq ht.1, List.mem_append_left _ ht.2⟩

theorem stable_headerSent : Stable HeaderSent := fun hq ht =>
  ⟨stable_sent hq ht.1, List.mem_append_left _ ht.2⟩

theorem h2cReady_of_read (h : Read Started (fun c => awaited true 2 c = true) t) : H2cReady t := by
  rcases h with ⟨before, after, rfl, hstarted, -, control, hin, hbit⟩
  exact ⟨before, after, rfl, hstarted.2, control, hin, by simpa [awaited] using hbit⟩

theorem asked_of_read (h : Read HeaderSent (fun c => awaited true 4 c = true) t) : Asked t := by
  refine ⟨(h.weaken stable_headerSent).1, ?_⟩
  rcases h with ⟨before, after, rfl, hheader, -, control, hin, hbit⟩
  exact ⟨before, after, rfl, hheader.2, control, hin, by simpa [awaited] using hbit⟩

theorem asked_clearHalt {ok : Bool} (h : Asked t) : Asked (t ++ [.call .clearHaltControls ok]) := by
  rcases h with ⟨hsent, before, after, rfl, hheader, control, hin, hbit⟩
  refine ⟨?_, before, after ++ [.call .clearHaltControls ok], List.append_assoc _ _ _, hheader,
    control, List.mem_append_left _ hin, hbit⟩
  rw [Sent, published_append]
  exact (List.append_nil _).trans hsent

theorem downloadReady_of_asked (h : Asked t) (hclear : .call .clearHaltControls true ∈ t) :
    DownloadReady t := by
  rcases h with ⟨-, before, after, rfl, hheader, hcontrol⟩
  exact ⟨before, after, rfl, hheader, hcontrol, hclear⟩

theorem story_of_drained
    (h : Drained count (Read (Sent count) fun c => awaited false 0 c = true) t) : Story count t := by
  rcases h with ⟨_, after, rfl, ⟨before, between, rfl, hsent, -, control, hin, hready⟩, hindex⟩
  exact ⟨before, between, after, rfl, hsent, ⟨control, hin, by simpa [awaited] using hready⟩, hindex⟩

/-- The transfer is complete. -/
structure Completed (count : ℕ) (t : Trace) (s : Transfer) : Prop extends Base count t s where
  status : s.result.status = .complete
  story : Story count t

/-- Between two steps, with what is known of the trace. -/
abbrev At (count : ℕ) (K : Trace → Prop) (t : Trace) (s : Transfer) : Prop := Going count none t s ∧ K t

theorem stages_steps (hcount : count ≠ 0) :
    Stages (Failed count) (fun t s => Going count none t s ∧ Unstarted t) (steps count)
      (Completed count) := by
  have hpos : 0 + 1 ≤ count := by omega
  have hall : 1 + (count - 1) = count := by omega
  have hcheck : Stage (At count Unstarted) check (At count Unstarted) (Failed count) :=
    stage_check_going stable_unstarted
  have hwaitH2c : Stage (At count Started) (wait true 2)
      (At count (Read Started fun c => awaited true 2 c = true)) (Failed count) :=
    stage_wait stable_started
  have hheader := stage_publish (K := Read Started fun c => awaited true 2 c = true) hpos
    (fun t h => (h.weaken stable_started).1) (fun t h _ => h2cReady_of_read h)
    fun t _ hne => absurd rfl hne
  have hwaitDownload : Stage (At count HeaderSent) (wait true 4)
      (At count (Read HeaderSent fun c => awaited true 4 c = true)) (Failed count) :=
    stage_wait stable_headerSent
  have hclearCheck : Stage (At count (Read HeaderSent fun c => awaited true 4 c = true)) check
      (At count (Read HeaderSent fun c => awaited true 4 c = true)) (Failed count) :=
    stage_check_going stable_read
  have hclear : Stage (At count Asked) clearHalt
      (At count fun t => Asked t ∧ .call .clearHaltControls true ∈ t) (Failed count) :=
    stage_clearHalt fun t ok => asked_clearHalt
  have hsections := stage_sectionsFrom (count - 1) 1 one_ne_zero hall.le
  have hsettle : Stage (At count (Sent count)) (settle 100) (At count (Sent count)) (Failed count) :=
    stage_settle stable_sent 100
  have hwaitReady : Stage (At count (Sent count)) (wait false 0)
      (At count (Read (Sent count) fun c => awaited false 0 c = true)) (Failed count) :=
    stage_wait stable_sent
  have hdrain : Stage (At count (Read (Sent count) fun c => awaited false 0 c = true)) (drain count)
      (At count (Drained count (Read (Sent count) fun c => awaited false 0 c = true)))
      (Failed count) := stage_drain stable_read
  have hcomplete : Stage
      (At count (Drained count (Read (Sent count) fun c => awaited false 0 c = true))) complete
      (Completed count) (Failed count) := by
    rintro t s ⟨hg, hdrained⟩
    simp only [complete, setStatus, wp_modify_bind, wp_pure, List.append_nil]
    have hbase := hg.1.toBase
    exact ⟨fun _ => ⟨⟨hbase.allowed, hbase.prepared, hbase.started, hbase.kept, hbase.retained⟩, rfl,
      story_of_drained hdrained⟩, (by rintro ⟨⟩)⟩
  refine .cons hcheck <| .cons stage_prepare <| .cons hcheck <| .cons stage_startDownload <|
    .cons (stage_inPhase hwaitH2c) <| .cons (stage_inPhase (hheader.mono (fun _ _ h => h) ?_)) <|
    .cons (stage_inPhase hwaitDownload) <| .cons (stage_inPhase hclearCheck) <|
    .cons (hclear.mono (fun _ _ h => ⟨h.1, asked_of_read h.2⟩) ?_) <|
    .cons (stage_inPhase (hsections.mono (fun _ _ h => h) ?_)) <| .cons (stage_inPhase hsettle) <|
    .cons hwaitReady <| .cons (stage_inPhase hdrain) <| .cons hcomplete .nil
  · rintro t s ⟨hg, hsent, before, rfl, -⟩
    exact ⟨hg, hsent, List.mem_append_right _ (List.mem_singleton_self _)⟩
  · rintro t s ⟨hg, hasked, hclear⟩
    exact ⟨hg, hasked.1, downloadReady_of_asked hasked hclear⟩
  · rintro t s ⟨hg, hsent⟩
    refine ⟨hg, ?_⟩
    rwa [hall] at hsent

end Transport
end Rtl8852be
