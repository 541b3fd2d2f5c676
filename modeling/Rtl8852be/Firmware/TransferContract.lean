import Rtl8852be.Firmware.TransferOrder

/-!
# TransferContract — every outcome of a firmware transfer

The steps of the transfer, the release of the buffers that follows them, and how much of the device's
time all of it takes.
-/

namespace Rtl8852be
namespace Transport

open Interaction Code

variable {count : ℕ} {t log : Trace} {s s' : Transfer} {r : TransferResult}

/-! ## After the steps -/

/-- The steps are over. -/
structure Ended (count : ℕ) (t : Trace) (s : Transfer) : Prop extends Base count t s where
  story : s.result.status = .complete → Story count t

theorem Completed.ended (h : Completed count t s) : Ended count t s :=
  ⟨h.toBase, fun _ => h.story⟩

theorem Failed.ended (h : Failed count t s) : Ended count t s :=
  ⟨h.toBase, fun hstatus => absurd hstatus h.status⟩

/-- The buffers have been let go or are kept. -/
structure Settled (count : ℕ) (t : Trace) (r : TransferResult) : Prop where
  allowed : Always (Allowed count) t
  story : r.operationStatus = .complete → Story count t
  retained : r.retainBuffers = true ↔
    (∃ ok, .call .prepare ok ∈ t) ∧ .call .releaseAll true ∉ t

theorem Story.append (h : Story count t) : Story count (t ++ log) := by
  rcases h with ⟨before, between, after, rfl, hsent, hcontrol, index, hin, hindex⟩
  exact ⟨before, between, after ++ log, List.append_assoc _ _ _, hsent, hcontrol, index,
    List.mem_append_left _ hin, hindex⟩

/-- What is known when the buffers may be let go. -/
structure Closing (count : ℕ) (t : Trace) (s : Transfer) : Prop where
  allowed : Always (Allowed count) t
  story : s.result.operationStatus = .complete → Story count t
  prepared : ∃ ok, .call .prepare ok ∈ t
  kept : ∀ ok, .call .releaseAll ok ∉ t
  retained : s.result.retainBuffers = false

theorem Closing.settled (hc : Closing count t s) (hop : r.operationStatus = s.result.operationStatus)
    (hretain : r.retainBuffers = true) : Settled count t r where
  allowed := hc.allowed
  story := fun h => hc.story (hop.symm.trans h)
  retained := ⟨fun _ => ⟨hc.prepared, hc.kept true⟩, fun _ => hretain⟩

/-- The device does not use the buffers, which are released. -/
theorem Closing.released {released : Bool} (hc : Closing count t s)
    (hop : r.operationStatus = s.result.operationStatus)
    (hidle : (∀ ok, .call .startDownload ok ∉ t) ∨ .call .quiesceAndProveIdle true ∈ t)
    (hretain : r.retainBuffers = !released) :
    Settled count (t ++ [.call .releaseAll released]) r where
  allowed := always_concat.2 ⟨hc.allowed, hidle⟩
  story := fun h => (hc.story (hop.symm.trans h)).append
  retained := by
    rw [hretain]
    simp only [List.mem_append, List.mem_singleton, Event.call.injEq, heq_eq_eq, true_and, hc.kept,
      false_or, Bool.not_eq_true', exists_or]
    constructor
    · rintro rfl
      exact ⟨Or.inl hc.prepared, nofun⟩
    · rintro ⟨-, hno⟩
      cases released with
      | false => rfl
      | true => exact absurd rfl hno

theorem Closing.quiesce {ok : Bool} (hc : Closing count t s) :
    Closing count (t ++ [.call .quiesceAndProveIdle ok]) s where
  allowed := always_concat.2 ⟨hc.allowed, trivial⟩
  story := fun h => (hc.story h).append
  prepared := by
    rcases hc.prepared with ⟨ok, hin⟩
    exact ⟨ok, List.mem_append_left _ hin⟩
  kept := by
    intro ok hin
    rcases List.mem_append.1 hin with hin | hin
    · exact hc.kept ok hin
    · cases List.mem_singleton.1 hin
  retained := hc.retained

theorem releaseBuffers_triple (count : ℕ) {quiesced : Bool} :
    Triple (fun t s => Closing count t s ∧ (quiesced = true →
        (∀ ok, .call .startDownload ok ∉ t) ∨ .call .quiesceAndProveIdle true ∈ t))
      (releaseBuffers quiesced) fun t _ s => Settled count t s.result := by
  rintro t s ⟨hc, hidle⟩
  simp only [releaseBuffers, wp_modify_bind, wp_ite, wp_ask_bind, wp_pure, wp_modify, List.append_nil]
  refine ⟨fun hquiesced released => ⟨fun hreleased => ?_, fun hreleased => ?_⟩, fun _ => ?_⟩
  · refine hc.released rfl (hidle hquiesced) ?_
    rw [hreleased]
    exact hc.retained
  · refine hc.released rfl (hidle hquiesced) ?_
    rw [Bool.not_eq_true] at hreleased
    rw [hreleased]
    rfl
  · exact hc.settled rfl rfl

theorem cleanup_triple :
    Triple (fun t s => Ended count t s ∧ s.prepared = true ∧
        s.result.operationStatus = s.result.status) cleanup
      fun t _ s => Settled count t s.result := by
  rintro t s ⟨he, hprepared, hop⟩
  have hclosing : ∀ {s' : Transfer}, s'.result.operationStatus = s.result.operationStatus →
      s'.result.retainBuffers = s.result.retainBuffers → Closing count t s' := by
    intro s' hsame hretain
    refine ⟨he.allowed, fun h => he.story ?_, he.prepared.1 hprepared, he.kept,
      hretain.trans he.retained⟩
    rw [← hop, ← hsame, h]
  simp only [cleanup, wp_modify_bind, wp_get_bind, wp_ite, wp_ask_bind]
  refine ⟨fun hstart quiesced => ?_, fun hstart => ?_⟩
  · refine wp_mono (releaseBuffers_triple count (t ++ [.call .quiesceAndProveIdle quiesced]) _
      ⟨Closing.quiesce (hclosing ?_ ?_), fun hok => Or.inr ?_⟩) fun log _ s' hsettled => ?_
    · rfl
    · rfl
    · rw [hok]
      exact List.mem_append_right _ (List.mem_singleton_self _)
    · rwa [List.append_cons]
  · refine releaseBuffers_triple count t _ ⟨hclosing rfl rfl, fun _ => Or.inl ?_⟩
    intro ok hin
    exact hstart (he.started.2 ⟨ok, hin⟩)

theorem transfer_settled :
    Triple (fun t s => t = [] ∧ s = {}) (transfer count) fun t r _ => Settled count t r := by
  refine Triple.ite (fun _ => ?_) fun hplan => ?_
  · rintro _ _ ⟨rfl, rfl⟩
    simp only [setStatus, wp_modify_bind, wp_get_bind, wp_pure, List.append_nil]
    exact ⟨always_nil, (by rintro ⟨⟩), by simp⟩
  rw [not_or] at hplan
  refine Triple.ask_bind fun start => Triple.modify_bind ?_
  refine Triple.bind (M := fun t _ s => Ended count t s) ?_ fun _ => ?_
  · refine Triple.mono (stages_steps hplan.1).every ?_ ?_
    · rintro _ _ ⟨_, rfl, _, rfl, rfl, rfl⟩
      refine ⟨⟨⟨⟨?_, by simp, by simp, by simp, rfl⟩, rfl, by simp⟩, ?_⟩, rfl⟩
      · exact always_concat.2 ⟨always_nil, trivial⟩
      · exact ⟨List.isChain_singleton _, _, rfl, rfl⟩
    · rintro t ok s h
      cases ok with
      | true => exact (h.1 rfl).ended
      | false => exact (h.2 rfl).ended
  · intro t s he
    simp only [operationDone, setPhase, wp_modify_bind, wp_get_bind]
    rw [wp_ite]
    refine ⟨fun hprepared => ?_, fun hprepared => ?_⟩
    · simp only [wp_bind (m := cleanup), wp_modify_bind, wp_get_bind, wp_pure, List.append_nil]
      refine wp_mono (cleanup_triple t _ ⟨⟨⟨he.allowed, he.prepared, he.started, he.kept,
        he.retained⟩, he.story⟩, hprepared, rfl⟩) ?_
      rintro log _ s' ⟨hallowed, hstory, hretained⟩
      exact ⟨hallowed, hstory, hretained⟩
    · simp only [wp_modify_bind, wp_get_bind, wp_pure, List.append_nil]
      refine ⟨he.allowed, he.story, ?_⟩
      -- Nothing was prepared, so there is nothing to keep.
      rw [he.retained]
      refine ⟨(by rintro ⟨⟩), fun h => absurd (he.prepared.2 h.1) hprepared⟩

/-! ## How much a transfer asks of its backend -/

def poll : TraceEvent → Bool
  | .call .readControl _ => true
  | .call .readIndex _ => true
  | _ => false

/-- One price for reading a register and one for every other call. -/
def price (read other : ℕ) (x : TraceEvent) : ℕ := if poll x then read else other

theorem sum_price_polls (log : Trace) : (log.map (price 1 0)).sum = log.countP poll := by
  induction log with
  | nil => rfl
  | cons x log ih => rw [List.map_cons, List.sum_cons, List.countP_cons, ih, price, Nat.add_comm]

theorem sum_price_calls (log : Trace) : (log.map (price 1 1)).sum = log.length := by
  induction log with
  | nil => rfl
  | cons x log ih => rw [List.map_cons, List.sum_cons, List.length_cons, ih, price, ite_self, Nat.add_comm]

variable {read other : ℕ}

theorem spends_give (n : ℕ) (status : TransferStatus) :
    Spends (price read other) n (give status) :=
  Spends.modify_bind (Spends.pure false)

theorem spends_check : Spends (price read other) (other + (other + 0)) check := by
  refine Spends.ask_bind (fun _ => le_rfl) fun now => Spends.get_bind fun s => ?_
  refine Spends.ite (spends_give _ _) (Spends.modify_bind ?_)
  refine Spends.ask_bind (fun _ => le_rfl) fun cancelled => ?_
  exact Spends.ite (spends_give _ _) (Spends.ite (spends_give _ _) (Spends.pure true))

theorem spends_inTime (begin : UInt64) : Spends (price read other) 0 (inTime begin) :=
  Spends.get_bind fun _ => Spends.ite (spends_give _ _) (Spends.pure true)

theorem spends_tick {n : ℕ} {begin : UInt64} {m : Gated Bool} (hm : Spends (price read other) n m) :
    Spends (price read other) (2 * other + n) (both check (both (inTime begin) m)) :=
  (spends_check.both ((spends_inTime begin).both hm)).mono (by omega)

theorem spends_pollControl : Spends (price read other) (read + 0) pollControl :=
  Spends.ask_bind (fun _ => le_rfl) fun control => Spends.modify_bind (Spends.pure control)

theorem spends_pollIndex : Spends (price read other) (read + 0) pollIndex :=
  Spends.ask_bind (fun _ => le_rfl) fun index => Spends.modify_bind (Spends.pure index)

theorem spends_waitFrom (path : Bool) (bit : UInt8) (begin : UInt64) : ∀ rounds : ℕ,
    Spends (price read other) (rounds * (read + 5 * other)) (waitFrom path bit begin rounds) := by
  intro rounds
  induction rounds with
  | zero => exact spends_give _ _
  | succ rounds ih =>
      have hnext : Spends (price read other) (other + rounds * (read + 5 * other))
          (waitFrom path bit begin rounds) := ih.mono (Nat.le_add_left _ _)
      have hround : Spends (price read other)
          (2 * other + (read + 0 + (2 * other + (other + rounds * (read + 5 * other)))))
          (waitFrom path bit begin (rounds + 1)) := by
        refine spends_tick (spends_pollControl.bind fun control => spends_tick ?_)
        refine Spends.ite (spends_give _ _) (Spends.ite (spends_give _ _)
          (Spends.ite (Spends.pure true) (Spends.ite ?_ hnext)))
        exact Spends.ask_bind (fun _ => le_rfl) fun _ => ih
      exact hround.mono (by ring_nf; omega)

theorem spends_drainFrom (begin : UInt64) : ∀ rounds : ℕ,
    Spends (price read other) (rounds * (read + 5 * other)) (drainFrom count begin rounds) := by
  intro rounds
  induction rounds with
  | zero => exact spends_give _ _
  | succ rounds ih =>
      have hnext : Spends (price read other) (other + rounds * (read + 5 * other))
          (drainFrom count begin rounds) := ih.mono (Nat.le_add_left _ _)
      have hround : Spends (price read other)
          (2 * other + (read + 0 + (2 * other + (other + rounds * (read + 5 * other)))))
          (drainFrom count begin (rounds + 1)) := by
        refine spends_tick (spends_pollIndex.bind fun index => spends_tick ?_)
        refine Spends.ite (spends_give _ _) (Spends.ite (Spends.pure true) (Spends.ite ?_ hnext))
        exact Spends.ask_bind (fun _ => le_rfl) fun _ => ih
      exact hround.mono (by ring_nf; omega)

theorem spends_wait (path : Bool) (bit : UInt8) :
    Spends (price read other) (other + 8001 * (read + 5 * other)) (wait path bit) :=
  Spends.ask_bind (fun _ => le_rfl) fun begin => spends_waitFrom path bit begin 8001

theorem spends_drain :
    Spends (price read other) (other + 8001 * (read + 5 * other)) (drain count) :=
  Spends.ask_bind (fun _ => le_rfl) fun begin => spends_drainFrom begin 8001

theorem spends_prepare : Spends (price read other) (other + 0) prepare :=
  Spends.modify_bind <| Spends.ask_bind (fun _ => le_rfl) fun _ =>
    Spends.ite (Spends.pure true) (spends_give _ _)

theorem spends_startDownload : Spends (price read other) (other + 0) startDownload :=
  Spends.modify_bind <| Spends.ask_bind (fun _ => le_rfl) fun _ =>
    Spends.ite (Spends.pure true) (spends_give _ _)

theorem spends_clearHalt : Spends (price read other) (other + 0) clearHalt :=
  Spends.ask_bind (fun _ => le_rfl) fun _ => Spends.ite (Spends.pure true) (spends_give _ _)

theorem spends_publish (index : ℕ) : Spends (price read other) (other + 0) (publish index) :=
  Spends.modify_bind <| Spends.ask_bind (fun _ => le_rfl) fun _ =>
    Spends.ite (Spends.modify_bind (Spends.pure true)) (spends_give _ _)

theorem spends_sectionsFrom : ∀ n index : ℕ,
    Spends (price read other) (n * (3 * other)) (sectionsFrom n index) := by
  intro n
  induction n with
  | zero => exact fun index => Spends.pure true
  | succ n ih =>
      intro index
      exact (spends_check.both ((spends_publish index).both (ih (index + 1)))).mono (by ring_nf; omega)

theorem spends_settle : ∀ n : ℕ, Spends (price read other) (n * (3 * other)) (settle n) := by
  intro n
  induction n with
  | zero => exact Spends.pure true
  | succ n ih =>
      exact (spends_check.both (Spends.ask_bind (fun _ => le_rfl) fun _ => ih)).mono (by ring_nf; omega)

theorem spends_releaseBuffers (quiesced : Bool) :
    Spends (price read other) (other + 0) (releaseBuffers quiesced) := by
  refine Spends.modify_bind (Spends.ite ?_ (Spends.modify _))
  refine Spends.ask_bind (fun _ => le_rfl) fun released => Spends.modify_bind ?_
  exact Spends.ite (Spends.pure ()) (Spends.modify _)

theorem spends_cleanup : Spends (price read other) (other + (other + 0)) cleanup := by
  refine Spends.modify_bind (Spends.get_bind fun s => Spends.ite ?_ ?_)
  · exact Spends.ask_bind (fun _ => le_rfl) fun quiesced => spends_releaseBuffers quiesced
  · exact (spends_releaseBuffers true).mono (Nat.le_add_left _ _)

theorem spends_inPhase {n : ℕ} {phase : Phase} {m : Gated Bool}
    (hm : Spends (price read other) n m) : Spends (price read other) n (inPhase phase m) :=
  Spends.modify_bind hm

theorem spends_complete : Spends (price read other) 0 complete :=
  Spends.modify_bind (Spends.pure true)

theorem spends_steps : Spends (price read other) (32004 * read + (160334 + 3 * count) * other)
    (Code.every (steps count)) := by
  refine Spends.mono (Spends.both spends_check <| Spends.both spends_prepare <|
    Spends.both spends_check <| Spends.both spends_startDownload <|
    Spends.both (spends_inPhase (spends_wait true 2)) <|
    Spends.both (spends_inPhase (spends_publish 1)) <|
    Spends.both (spends_inPhase (spends_wait true 4)) <| Spends.both (spends_inPhase spends_check) <|
    Spends.both spends_clearHalt <| Spends.both (spends_inPhase (spends_sectionsFrom (count - 1) 2)) <|
    Spends.both (spends_inPhase (spends_settle 100)) <| Spends.both (spends_wait false 0) <|
    Spends.both (spends_inPhase spends_drain) <| Spends.both spends_complete (Spends.pure (n := 0) true)) ?_
  have hsections : (count - 1) * (3 * other) ≤ 3 * count * other := by
    calc
      (count - 1) * (3 * other) ≤ count * (3 * other) := Nat.mul_le_mul_right _ (Nat.sub_le count 1)
      _ = 3 * count * other := by ring
  rw [Nat.add_mul]
  omega

theorem spends_transfer (read other count : ℕ) :
    Spends (price read other) (32004 * read + (160337 + 3 * count) * other) (transfer count) := by
  refine Spends.ite (Spends.modify_bind (Spends.get_bind fun _ => Spends.pure _)) ?_
  refine Spends.mono (Spends.ask_bind (fun _ => le_rfl) fun start => Spends.modify_bind
    (Spends.bind spends_steps fun _ => Spends.modify_bind (Spends.get_bind fun s => Spends.ite
      (Spends.bind spends_cleanup fun _ => Spends.modify_bind (n := 0)
        (Spends.get_bind fun _ => Spends.pure _)) ?_))) ?_
  · exact Spends.modify_bind (Spends.get_bind fun _ => Spends.pure _)
  · ring_nf
    omega

/-! ## The contract -/

/-- What a transfer promises about the calls it made and the result it returned. -/
structure Contract (count : ℕ) (log : Trace) (r : TransferResult) : Prop where
  consecutive : ∃ n ≤ count, (published log).map Prod.fst = List.range' 1 n
  header : ∀ before ok after, log = before ++ .call (.publish 1) ok :: after → H2cReady before
  sections : ∀ before k ok after, log = before ++ .call (.publish k) ok :: after → 2 ≤ k →
    DownloadReady before
  complete : r.operationStatus = .complete → Story count log
  noError : ∀ before k ok after, log = before ++ .call (.publish k) ok :: after → NoError before
  forward : ∀ before k ok after, log = before ++ .call (.publish k) ok :: after →
    (clocks before).IsChain fun a b => a.2 ≤ b.2
  release : ∀ before ok after, log = before ++ .call .releaseAll ok :: after →
    (∀ ok, .call .startDownload ok ∉ before) ∨ .call .quiesceAndProveIdle true ∈ before
  retained : r.retainBuffers = true ↔
    (∃ ok, .call .prepare ok ∈ log) ∧ .call .releaseAll true ∉ log
  polls : log.countP poll ≤ 32004
  calls : log.length ≤ 192341 + 3 * count

/-- The reading that opens a wait is not before the reading in front of it. -/
def OpensForward (before : Trace) : Prop :=
  (clocks before).IsChain fun a b => b.1 = .begin → a.2 ≤ b.2

theorem published_consecutive (h : Always (Allowed count) t) :
    ∃ n ≤ count, (published t).map Prod.fst = List.range' 1 n := by
  induction t using List.reverseRecOn with
  | nil => exact ⟨0, Nat.zero_le count, rfl⟩
  | append_singleton t x ih =>
      rcases always_concat.1 h with ⟨ht, hx⟩
      rcases ih ht with ⟨n, hn, hsame⟩
      rw [published_append]
      rcases x with ⟨c, reply⟩ | note
      · cases c with
        | publish k =>
            have hlength : n = (published t).length := by
              rw [← List.length_map (f := Prod.fst), hsame, List.length_range']
            rcases hx with ⟨hk, hle, -⟩
            refine ⟨n + 1, by omega, ?_⟩
            rw [List.map_append, hsame, List.range'_concat, Nat.one_mul, Nat.add_comm 1 n, hlength, ← hk]
            rfl
        | _ => exact ⟨n, hn, (congrArg _ (List.append_nil _)).trans hsame⟩
      · exact note.elim

/-- Every other reading is compared with the one before it. -/
theorem forward_of_opens {l : List (Sample × UInt64)} (hchecked : l.IsChain Checked)
    (hopens : l.IsChain fun a b => b.1 = .begin → a.2 ≤ b.2) : l.IsChain fun a b => a.2 ≤ b.2 := by
  rw [List.isChain_iff_forall_rel_of_append_cons_cons] at *
  intro a b earlier later hl
  rcases hchecked hl with hbegin | hle
  · exact hopens hl hbegin
  · exact hle

theorem transfer_contract (hout : (transfer count {}).Outcome log (r, s')) :
    Contract count log r ↔
      ∀ before k ok after, log = before ++ .call (.publish k) ok :: after → OpensForward before := by
  have hsettled : Settled count log r := transfer_settled.outcome ⟨rfl, rfl⟩ hout
  have hpolls := wp_outcome (spends_transfer 1 0 count {}) hout
  have hcalls := wp_outcome (spends_transfer 1 1 count {}) hout
  rw [sum_price_polls] at hpolls
  rw [sum_price_calls] at hcalls
  have hpublish : ∀ before k ok after, log = before ++ .call (.publish k) ok :: after →
      Allowed count before (.call (.publish k) ok) := by
    intro before k ok after h
    exact hsettled.allowed before _ after h
  constructor
  · intro hc before k ok after h
    exact (hc.forward before k ok after h).imp fun a b hab _ => hab
  · intro hforward
    refine ⟨published_consecutive hsettled.allowed, ?_, ?_, hsettled.story, ?_, ?_, ?_,
      hsettled.retained, by omega, by omega⟩
    · intro before ok after h
      exact (hpublish before 1 ok after h).2.2.1 rfl
    · intro before k ok after h hk
      exact (hpublish before k ok after h).2.2.2.1 hk
    · intro before k ok after h
      exact (hpublish before k ok after h).2.2.2.2.1
    · intro before k ok after h
      exact forward_of_opens (hpublish before k ok after h).2.2.2.2.2 (hforward before k ok after h)
    · intro before ok after h
      exact hsettled.allowed before _ after h

/-- A device that is ready at once, and a clock given by how often it has been asked before. -/
def responsive (clock : ℕ → UInt64) : (c : Call) → ℕ × ℕ → Reply c × ℕ × ℕ
  | .nowUs _, (asked, sent) => (clock asked, asked + 1, sent)
  | .cancelled, s => (false, s)
  | .prepare, s => (true, s)
  | .startDownload, s => (true, s)
  | .readControl, (asked, sent) => (if sent = 0 then 2 else if sent = 1 then 4 else 0xe0, asked, sent)
  | .readIndex, (asked, sent) => (UInt32.ofNat sent * 0x10001, asked, sent)
  | .delayUs, s => ((), s)
  | .publish _, (asked, sent) => (true, asked, sent + 1)
  | .clearHaltControls, s => (true, s)
  | .quiesceAndProveIdle, s => (true, s)
  | .releaseAll, s => (true, s)

def responsiveRun (count : ℕ) (clock : ℕ → UInt64) : Trace × (TransferResult × Transfer) × ℕ × ℕ :=
  (transfer count {}).run (responsive clock) (0, 0)

theorem responsiveRun_outcome (count : ℕ) (clock : ℕ → UInt64) :
    (transfer count {}).Outcome (responsiveRun count clock).1
      ((responsiveRun count clock).2.1.1, (responsiveRun count clock).2.1.2) :=
  Prog.run_outcome (responsive clock) (transfer count {}) (0, 0)

theorem transfer_contract_twoPackets :
    (responsiveRun 2 fun _ => 100).2.1.1.operationStatus = .complete ∧
      Contract 2 (responsiveRun 2 fun _ => 100).1 (responsiveRun 2 fun _ => 100).2.1.1 := by
  refine ⟨by decide +kernel, (transfer_contract (responsiveRun_outcome 2 fun _ => 100)).2 ?_⟩
  intro before k ok after hlog
  have hsame : ((clocks (responsiveRun 2 fun _ => 100).1).all fun a => a.2 == 100) = true := by
    decide +kernel
  rw [List.all_eq_true] at hsame
  rw [OpensForward, List.isChain_iff_forall_rel_of_append_cons_cons]
  intro a b earlier later hclocks _
  have hmem : ∀ x ∈ clocks before, x.2 = 100 := by
    intro x hx
    rw [← beq_iff_eq]
    apply hsame
    rw [hlog, clocks_append]
    exact List.mem_append_left _ hx
  rw [hmem a (by simp [hclocks]), hmem b (by simp [hclocks])]
  exact UInt64.le_refl _

def isHeader : TraceEvent → Bool
  | .call (.publish 1) true => true
  | _ => false

theorem eq_of_isHeader {x : TraceEvent} (hx : isHeader x = true) : x = .call (.publish 1) true := by
  unfold isHeader at hx
  split at hx
  · rfl
  · cases hx

/-- A clock that goes back once, when the wait for the download path begins. -/
def backOnce (asked : ℕ) : UInt64 := if asked = 3 then 50 else 100

theorem transfer_contract_clockBack :
    ¬ Contract 2 (responsiveRun 2 backOnce).1 (responsiveRun 2 backOnce).2.1.1 := by
  intro hc
  have hsent : ((responsiveRun 2 backOnce).1[13]?).any isHeader = true := by decide +kernel
  have hback : ¬ (clocks ((responsiveRun 2 backOnce).1.take 13)).IsChain fun a b => a.2 ≤ b.2 := by
    decide +kernel
  rcases (Option.any_eq_true _ _).1 hsent with ⟨x, hx, hheader⟩
  rcases List.getElem?_eq_some_iff.1 hx with ⟨hlt, hget⟩
  apply hback
  apply hc.forward _ 1 true ((responsiveRun 2 backOnce).1.drop 14)
  rw [← eq_of_isHeader hheader, ← hget, ← List.drop_eq_getElem_cons, List.take_append_drop]

end Transport
end Rtl8852be
