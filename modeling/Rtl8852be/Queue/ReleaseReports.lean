import Rtl8852be.Queue.Net80211PciQueue
import Rtl8852be.Queue.PciRxAssembly

/-!
# ReleaseReports — the frames that give pages back

`receiveRpq`.  The device reports the pages it is done with in frames of four-byte words.  A frame is
looked through before any of its words is applied, so that a broken one releases nothing.

* `applyReports_applied` — the second loop makes one call for each word, in order;
* `accepted_iff` — the checks before it find every fault;
* `release_report_atomicity` — a frame is applied as a whole, or not at all.
-/

namespace Rtl8852be
namespace Queue

open Network

/-! ## The wire -/

/-- `decodeRelease`; `data = none` is the null pointer, otherwise these are the bytes it points to. -/
def decodeRelease (data : Option (List UInt8)) : Option ReleaseReport :=
  match data with
  | none => none
  | some bytes =>
      if bytes.length < 4 then
        none
      else
        let word := little32 bytes
        let r : ReleaseReport :=
          { page := ((word >>> 16) &&& 0x7fff).toUInt16
            qsel := ((word >>> 8) &&& 31).toUInt8
            macid := word.toUInt8
            status := ((word >>> 13) &&& 7).toUInt8
            polluted := (word >>> 31) != 0 }
        if dataChannel r.qsel < 0 ∨ r.status > 3 then none else some r

/-- The four bytes at this offset of the payload. -/
def wordAt (packet : RxPacket) (i : ℕ) : Option (List UInt8) :=
  packet.payload.map fun bytes => (bytes.drop i).take 4

/-- The offsets `0`, `4`, … below this length. -/
def offsets (length : ℕ) : List ℕ := (List.range ((length + 3) / 4)).map fun i => 4 * i

def words (packet : RxPacket) : List (Option (List UInt8)) :=
  (offsets packet.length).map (wordAt packet)

/-! ## `receiveRpq` -/

/-- The pointer `queues[dataChannel(qsel)]`. -/
def select (queues : Fin 13 → Option ℕ) (qsel : UInt8) : Option ℕ :=
  match dataChannel qsel with
  | .ofNat channel => if h : channel < 13 then queues ⟨channel, h⟩ else none
  | .negSucc _ => none

def applicable (queues : Fin 13 → Option ℕ) (word : Option (List UInt8)) : Bool :=
  match decodeRelease word with
  | none => false
  | some report => decide (report.page.toNat < pciRing.count) && (select queues report.qsel).isSome

/-- A call of `releaseReport`: the queue, what it returned, and the lease slots handed to `releaseTx`. -/
structure ReportCall where
  queue : ℕ
  report : ReleaseReport
  error : Option Errno
  released : List ℕ
  deriving DecidableEq

/-- The second loop, with the errors so far. -/
def applyReports (queues : Fin 13 → Option ℕ) :
    List (Option (List UInt8)) → Option Errno → (ℕ → Net80211PciQueue) →
      Option Errno × List ReportCall × (ℕ → Net80211PciQueue)
  | [], result, heap => (result, [], heap)
  | word :: words, result, heap =>
      let report := (decodeRelease word).getD {}
      match select queues report.qsel with
      -- A frame with such a word does not come here.
      | none => (result, [], heap)
      | some queue =>
          let (error, released, q) := (heap queue).releaseReport report
          let result := if error.isSome then error else result
          let (result, calls, heap) := applyReports queues words result (Function.update heap queue q)
          (result, ⟨queue, report, error, released⟩ :: calls, heap)

/-- What `receiveRpq` returns and leaves behind; queues are numbered by their addresses. -/
structure Received where
  error : Option Errno
  calls : List ReportCall
  assembly : PciRxAssembly
  queues : ℕ → Net80211PciQueue

/-- `receiveRpq`.  Two of the pointers may be the same queue. -/
def receiveRpq (queues : Fin 13 → Option ℕ) (dma : Option (List UInt8)) (assembly : PciRxAssembly)
    (heap : ℕ → Net80211PciQueue) : Received :=
  match dma with
  | none => ⟨some .einval, [], assembly.reset, heap⟩
  | some segment =>
      if segment.length < 4 ∨ little32 segment &&& 0xc000 ≠ 0xc000 then
        ⟨some .einval, [], assembly.reset, heap⟩
      else
        let (fed, assembly) := assembly.feed (some segment)
        let packet := fed.out.packet
        if fed.status ≠ .complete ∨ packet.info.pktType ≠ 7 ∨ packet.length % 4 ≠ 0 then
          ⟨some .einval, [], assembly, heap⟩
        else if !(words packet).all (applicable queues) then
          ⟨some .einval, [], assembly, heap⟩
        else
          let (error, calls, heap) := applyReports queues (words packet) none heap
          ⟨error, calls, assembly, heap⟩

/-! ## The words of a frame -/

theorem decodeRx_payload {data : List UInt8} {n : ℕ} {packet : RxPacket}
    (h : decodeRx data n = .ok packet) :
    ∃ bytes, packet.payload = some bytes ∧ bytes.length = packet.length := by
  unfold decodeRx at h
  split at h
  · exact absurd h nofun
  · rename_i out _
    split at h
    · exact absurd h nofun
    · rename_i hfits
      cases h
      refine ⟨_, rfl, ?_⟩
      rw [List.length_take, List.length_drop]
      exact Nat.min_eq_left (Nat.le_of_not_lt hfits)

namespace PciRxAssembly

variable {s : PciRxAssembly} {stores : List (ℕ × ℕ)} {segment : List UInt8} {start : ℕ}

/-- A packet that is complete has a payload of its length. -/
def Whole (r : Fed × PciRxAssembly) : Prop :=
  r.1.status = .complete →
    ∃ bytes, r.1.out.packet.payload = some bytes ∧ bytes.length = r.1.out.packet.length

theorem whole_reject (why : Rejection) : Whole (reject why stores s) := fun h => absurd h nofun

theorem whole_conclude : Whole (conclude stores s) := by
  unfold conclude
  split
  · exact whole_reject .short
  · split
    · exact whole_reject .undecodable
    · rename_i packet hpacket
      exact fun _ => decodeRx_payload hpacket

theorem whole_extend : Whole (extend segment start stores s) := by
  simp only [extend]
  split
  · exact whole_reject .overrun
  · split
    · exact whole_reject .misplaced
    · split
      · exact fun h => absurd h (by rintro ⟨⟩)
      · exact whole_conclude

theorem whole_feed (dma : Option (List UInt8)) : Whole (feed dma s) := by
  unfold feed
  split
  · exact whole_reject .missing
  split
  · exact whole_reject .missing
  split
  · exact whole_reject .badLength
  split
  · split
    · exact whole_reject .repeatedFirst
    split
    · exact whole_reject .badHeader
    split
    · exact whole_reject .tooLarge
    · exact whole_extend
  · split
    · exact whole_reject .noFirst
    · exact whole_extend

end PciRxAssembly

theorem flatten_words (bytes : List UInt8) : ∀ n, bytes.length = 4 * n →
    ((List.range n).map fun i => (bytes.drop (4 * i)).take 4).flatten = bytes := by
  intro n
  induction n generalizing bytes with
  | zero =>
      intro hlength
      have hnil : bytes = [] := List.length_eq_zero_iff.1 hlength
      rw [hnil]
      rfl
  | succ n ih =>
      intro hlength
      have hrest : (bytes.drop 4).length = 4 * n := by
        rw [List.length_drop]
        omega
      rw [List.range_succ_eq_map, List.map_cons, List.map_map, List.flatten_cons]
      have hshift : (fun i => (bytes.drop (4 * i)).take 4) ∘ Nat.succ =
          fun i => ((bytes.drop 4).drop (4 * i)).take 4 := by
        funext i
        rw [Function.comp_apply, List.drop_drop, Nat.mul_succ, Nat.add_comm]
      rw [hshift, ih (bytes.drop 4) hrest]
      exact List.take_append_drop 4 bytes

/-- The words are the payload, cut every four bytes. -/
def Tiled (packet : RxPacket) : Prop :=
  ∃ pieces : List (List UInt8), words packet = pieces.map some ∧
    packet.payload = some pieces.flatten ∧ ∀ piece ∈ pieces, piece.length = 4

theorem tiled_words {packet : RxPacket} {bytes : List UInt8} (hpayload : packet.payload = some bytes)
    (hlength : bytes.length = packet.length) (hwhole : packet.length % 4 = 0) : Tiled packet := by
  have hcount : (packet.length + 3) / 4 = packet.length / 4 := by omega
  refine ⟨(List.range (packet.length / 4)).map fun i => (bytes.drop (4 * i)).take 4, ?_, ?_, ?_⟩
  · rw [words, offsets, hcount, List.map_map, List.map_map]
    apply List.map_congr_left
    intro i _
    rw [Function.comp_apply, Function.comp_apply, wordAt, hpayload, Option.map_some]
  · rw [hpayload, flatten_words bytes]
    omega
  · intro piece hpiece
    rcases List.mem_map.1 hpiece with ⟨i, hi, rfl⟩
    have hlow : i < packet.length / 4 := List.mem_range.1 hi
    rw [List.length_take, List.length_drop]
    omega

/-! ## The second loop -/

variable {queues : Fin 13 → Option ℕ} {heap heap' : ℕ → Net80211PciQueue} {calls : List ReportCall}

/-- The call is made for this word, on the queue it selects. -/
def Reports (queues : Fin 13 → Option ℕ) (word : Option (List UInt8)) (call : ReportCall) : Prop :=
  decodeRelease word = some call.report ∧ ∃ channel : Fin 13,
    dataChannel call.report.qsel = (channel : ℕ) ∧ queues channel = some call.queue

theorem select_eq_some {qsel : UInt8} {queue : ℕ} (h : select queues qsel = some queue) :
    ∃ channel : Fin 13, dataChannel qsel = (channel : ℕ) ∧ queues channel = some queue := by
  unfold select at h
  split at h
  · rename_i channel hchannel
    split at h
    · rename_i hlow
      exact ⟨⟨channel, hlow⟩, hchannel, h⟩
    · exact absurd h nofun
  · exact absurd h nofun

/-- The calls are made one after the other, and each one returns what its queue answers. -/
inductive Serves : (ℕ → Net80211PciQueue) → List ReportCall → (ℕ → Net80211PciQueue) → Prop
  | nil (heap : ℕ → Net80211PciQueue) : Serves heap [] heap
  | cons {heap heap' : ℕ → Net80211PciQueue} {q : Net80211PciQueue} {call : ReportCall}
      {calls : List ReportCall}
      (answer : (heap call.queue).releaseReport call.report = (call.error, call.released, q))
      (rest : Serves (Function.update heap call.queue q) calls heap') :
      Serves heap (call :: calls) heap'

/-- One call for each word, in order. -/
structure Applied (queues : Fin 13 → Option ℕ) (words : List (Option (List UInt8)))
    (heap : ℕ → Net80211PciQueue) (error : Option Errno) (calls : List ReportCall)
    (heap' : ℕ → Net80211PciQueue) : Prop where
  each : List.Forall₂ (Reports queues) words calls
  served : Serves heap calls heap'
  accepted : error = none ↔ ∀ call ∈ calls, call.error = none

theorem applyReports_applied (ws : List (Option (List UInt8))) :
    ∀ (result : Option Errno) (heap : ℕ → Net80211PciQueue),
      (∀ word ∈ ws, applicable queues word = true) →
      ∃ error calls heap', applyReports queues ws result heap = (error, calls, heap') ∧
        List.Forall₂ (Reports queues) ws calls ∧ Serves heap calls heap' ∧
        (error = none ↔ result = none ∧ ∀ call ∈ calls, call.error = none) := by
  induction ws with
  | nil =>
      intro result heap _
      exact ⟨result, [], heap, rfl, List.Forall₂.nil, Serves.nil heap, by simp⟩
  | cons word ws ih =>
      intro result heap happlicable
      have hword := happlicable word List.mem_cons_self
      have hrest : ∀ w ∈ ws, applicable queues w = true := fun w hw =>
        happlicable w (List.mem_cons_of_mem word hw)
      unfold applicable at hword
      cases hreport : decodeRelease word with
      | none => simp [hreport] at hword
      | some report =>
          simp only [hreport, Bool.and_eq_true, Option.isSome_iff_exists] at hword
          rcases hword with ⟨-, queue, hqueue⟩
          rcases hanswer : (heap queue).releaseReport report with ⟨error, released, q⟩
          rcases ih (if error.isSome then error else result) (Function.update heap queue q) hrest with
            ⟨final, calls, heap', heq, hcalls, hserves, haccepted⟩
          refine ⟨final, ⟨queue, report, error, released⟩ :: calls, heap', ?_,
            List.Forall₂.cons ⟨hreport, select_eq_some hqueue⟩ hcalls, Serves.cons hanswer hserves, ?_⟩
          · simp only [applyReports, hreport, Option.getD_some, hqueue, hanswer, heq]
          · rw [haccepted]
            cases error with
            | none => simp
            | some e => simp

/-! ## The first loop -/

/-- What is wrong with a frame. -/
inductive Malformed (queues : Fin 13 → Option ℕ) (dma : Option (List UInt8)) (s : PciRxAssembly) : Prop
  | segment (h : ∀ segment, dma = some segment → segment.length < 4 ∨
      PciRxAssembly.isFirst segment = false ∨ PciRxAssembly.isLast segment = false)
  | unassembled (h : (s.feed dma).1.status ≠ .complete)
  | kind (h : (s.feed dma).1.out.packet.info.pktType ≠ 7)
  | length (h : (s.feed dma).1.out.packet.length % 4 ≠ 0)
  | word (word : Option (List UInt8)) (hword : word ∈ words (s.feed dma).1.out.packet)
      (h : decodeRelease word = none)
  | page (word : Option (List UInt8)) (hword : word ∈ words (s.feed dma).1.out.packet)
      (report : ReleaseReport) (hreport : decodeRelease word = some report)
      (h : 64 ≤ report.page.toNat)
  | queue (word : Option (List UInt8)) (hword : word ∈ words (s.feed dma).1.out.packet)
      (report : ReleaseReport) (hreport : decodeRelease word = some report)
      (h : select queues report.qsel = none)

theorem flags_iff (segment : List UInt8) : little32 segment &&& 0xc000 = 0xc000 ↔
    PciRxAssembly.isFirst segment = true ∧ PciRxAssembly.isLast segment = true := by
  have hfirst := Bits.and_bit_ne_zero (w := little32 segment) (m := 0x8000) (k := 15) rfl
  have hlast := Bits.and_bit_ne_zero (w := little32 segment) (m := 0x4000) (k := 14) rfl
  have hboth : (little32 segment &&& 0xc000).toNat =
      ((little32 segment).toNat / 2 ^ 14 % 2 ^ 2) <<< 14 := by
    rw [UInt32.toNat_and]
    exact Bits.and_field _ 2 14
  rw [PciRxAssembly.isFirst, PciRxAssembly.isLast, bne_iff_ne, bne_iff_ne, hfirst, hlast,
    ← UInt32.toNat_inj, hboth, Nat.shiftLeft_eq]
  show _ = 49152 ↔ _
  omega

/-- A word of a frame that can be applied, in the terms of what is wrong with others. -/
theorem applicable_iff (word : Option (List UInt8)) : applicable queues word = true ↔
    ∃ report, decodeRelease word = some report ∧ report.page.toNat < 64 ∧
      select queues report.qsel ≠ none := by
  unfold applicable
  cases decodeRelease word with
  | none => simp
  | some report =>
      simp only [Bool.and_eq_true, decide_eq_true_eq, Option.isSome_iff_ne_none, Option.some.injEq,
        exists_eq_left']
      rfl

/-- The checks of `receiveRpq`. -/
structure Accepted (queues : Fin 13 → Option ℕ) (segment : List UInt8) (s : PciRxAssembly) : Prop where
  long : 4 ≤ segment.length
  flags : little32 segment &&& 0xc000 = 0xc000
  complete : (s.feed (some segment)).1.status = .complete
  kind : (s.feed (some segment)).1.out.packet.info.pktType = 7
  length : (s.feed (some segment)).1.out.packet.length % 4 = 0
  applicable : ∀ word ∈ words (s.feed (some segment)).1.out.packet, applicable queues word = true

/-- The checks leave nothing to complain about, and find nothing else. -/
theorem accepted_iff (segment : List UInt8) (s : PciRxAssembly) :
    Accepted queues segment s ↔ ¬ Malformed queues (some segment) s := by
  constructor
  · intro h hbad
    cases hbad with
    | segment hsegment =>
        rcases hsegment segment rfl with hshort | hfirst | hlast
        · exact absurd h.long (Nat.not_le.2 hshort)
        · exact absurd (((flags_iff segment).1 h.flags).1.symm.trans hfirst) nofun
        · exact absurd (((flags_iff segment).1 h.flags).2.symm.trans hlast) nofun
    | unassembled hstatus => exact hstatus h.complete
    | kind hkind => exact hkind h.kind
    | length hlength => exact hlength h.length
    | word word hword hnone =>
        rcases (applicable_iff word).1 (h.applicable word hword) with ⟨report, hreport, -⟩
        exact absurd (hnone.symm.trans hreport) nofun
    | page word hword report hreport hpage =>
        rcases (applicable_iff word).1 (h.applicable word hword) with ⟨report', hreport', hlow, -⟩
        cases hreport.symm.trans hreport'
        omega
    | queue word hword report hreport hnone =>
        rcases (applicable_iff word).1 (h.applicable word hword) with ⟨report', hreport', -, hsome⟩
        cases hreport.symm.trans hreport'
        exact hsome hnone
  · intro h
    have hsegment : ¬ (segment.length < 4 ∨ PciRxAssembly.isFirst segment = false ∨
        PciRxAssembly.isLast segment = false) := by
      intro hbad
      apply h
      apply Malformed.segment
      intro segment' heq
      cases heq
      exact hbad
    simp only [not_or, Bool.not_eq_false] at hsegment
    refine ⟨Nat.le_of_not_lt hsegment.1, (flags_iff segment).2 hsegment.2, ?_, ?_, ?_, ?_⟩
    · by_contra hstatus
      exact h (Malformed.unassembled hstatus)
    · by_contra hkind
      exact h (Malformed.kind hkind)
    · by_contra hlength
      exact h (Malformed.length hlength)
    · intro word hword
      rw [applicable_iff]
      cases hreport : decodeRelease word with
      | none => exact absurd (Malformed.word word hword hreport) h
      | some report =>
          refine ⟨report, rfl, ?_, ?_⟩
          · by_contra hpage
            exact h (Malformed.page word hword report hreport (Nat.le_of_not_lt hpage))
          · intro hnone
            exact h (Malformed.queue word hword report hreport hnone)

/-! ## `receiveRpq` -/

theorem receiveRpq_refused (segment : List UInt8) (s : PciRxAssembly)
    (h : ¬ Accepted queues segment s) :
    ∃ s', receiveRpq queues (some segment) s heap = ⟨some .einval, [], s', heap⟩ := by
  simp only [receiveRpq]
  split
  · exact ⟨_, rfl⟩
  rename_i hsegment
  split
  · exact ⟨_, rfl⟩
  rename_i hframe
  split
  · exact ⟨_, rfl⟩
  rename_i hwords
  simp only [not_or, not_lt, not_not, ne_eq] at hsegment hframe
  refine absurd ⟨hsegment.1, hsegment.2, hframe.1, hframe.2.1, hframe.2.2, ?_⟩ h
  simpa using hwords

theorem receiveRpq_applied (segment : List UInt8) (s : PciRxAssembly)
    (h : Accepted queues segment s) :
    Applied queues (words (s.feed (some segment)).1.out.packet) heap
      (receiveRpq queues (some segment) s heap).error (receiveRpq queues (some segment) s heap).calls
      (receiveRpq queues (some segment) s heap).queues := by
  have hsegment : ¬ (segment.length < 4 ∨ little32 segment &&& 0xc000 ≠ 0xc000) := by
    simp [h.long, h.flags]
  have hframe : ¬ ((s.feed (some segment)).1.status ≠ .complete ∨
      (s.feed (some segment)).1.out.packet.info.pktType ≠ 7 ∨
      (s.feed (some segment)).1.out.packet.length % 4 ≠ 0) := by
    simp [h.complete, h.kind, h.length]
  have hwords : ¬ (!(words (s.feed (some segment)).1.out.packet).all (applicable queues)) = true := by
    simpa using h.applicable
  rcases applyReports_applied (words (s.feed (some segment)).1.out.packet) none heap h.applicable with
    ⟨error, calls, heap', heq, hcalls, hserves, haccepted⟩
  have hresult : receiveRpq queues (some segment) s heap =
      ⟨error, calls, (s.feed (some segment)).2, heap'⟩ := by
    simp only [receiveRpq]
    rw [if_neg hsegment, if_neg hframe, if_neg hwords, heq]
  rw [hresult]
  exact ⟨hcalls, hserves, by simpa using haccepted⟩

/-- A frame is applied as a whole, one call for each of its words and in their order, or not at all. -/
theorem release_report_atomicity (queues : Fin 13 → Option ℕ) (dma : Option (List UInt8))
    (s : PciRxAssembly) (heap : ℕ → Net80211PciQueue) :
    let r := receiveRpq queues dma s heap
    let packet := (s.feed dma).1.out.packet
    (Malformed queues dma s ∧ r.error = some .einval ∧ r.calls = [] ∧ r.queues = heap) ∨
      (¬ Malformed queues dma s ∧ Tiled packet ∧
        Applied queues (words packet) heap r.error r.calls r.queues) := by
  intro r packet
  cases dma with
  | none => exact Or.inl ⟨Malformed.segment nofun, rfl, rfl, rfl⟩
  | some segment =>
      by_cases h : Accepted queues segment s
      · right
        rcases PciRxAssembly.whole_feed (s := s) (some segment) h.complete with ⟨bytes, hpayload, hlength⟩
        exact ⟨(accepted_iff segment s).1 h, tiled_words hpayload hlength h.length,
          receiveRpq_applied segment s h⟩
      · left
        rcases @receiveRpq_refused _ heap segment s h with ⟨s', heq⟩
        have hr : r = ⟨some .einval, [], s', heap⟩ := heq
        rw [hr]
        exact ⟨not_not.1 (mt (accepted_iff segment s).2 h), rfl, rfl, rfl⟩

def twoReports : List UInt8 :=
  [28, 0xc0, 0, 0, 8, 0, 0, 7, 0, 0, 0, 0, 0, 0, 0, 0, 0, 0, 0, 0, 0, 0, 5, 0, 0, 0, 6, 0]

/-- Both are applied, in order. -/
theorem release_report_atomicity_two :
    let r := receiveRpq (fun _ => some 3) (some twoReports) {} fun _ => {}
    let packet := (PciRxAssembly.feed (some twoReports) {}).1.out.packet
    r.calls.map (fun call => (call.queue, call.report.page)) = [(3, 5), (3, 6)] ∧ Tiled packet ∧
      Applied (fun _ => some 3) (words packet) (fun _ => {}) r.error r.calls r.queues := by
  intro r packet
  have hcalls : r.calls.map (fun call => (call.queue, call.report.page)) = [(3, 5), (3, 6)] := by
    decide +kernel
  rcases release_report_atomicity (fun _ => some 3) (some twoReports) {} fun _ => {} with
    ⟨-, -, hnone, -⟩ | ⟨-, htiled, happlied⟩
  · have hnil : r.calls = [] := hnone
    rw [hnil] at hcalls
    cases hcalls
  · exact ⟨hcalls, htiled, happlied⟩

end Queue
end Rtl8852be
