import Rtl8852be.Wire.Descriptors

/-!
# PciRxAssembly — putting received packets together

`PciRxAssembly::feed`.  The device writes a packet into one or more buffers.  Each of them begins with a
word that holds the number of bytes written and two flags, for the first and the last segment of a
packet; the first one goes on with the header of the packet.

* `feed_sound` — what a segment can do to an assembly in progress;
* `feed_split` — every way to cut a packet is put together again;
* `rx_reassembly` — both, over any sequence of segments.
-/

namespace Rtl8852be
namespace Queue

open Network

/-! ## The class -/

/-- The places where `feed` returns `invalid`. -/
inductive Rejection
  | missing
  | badLength
  | repeatedFirst
  | badHeader
  | tooLarge
  | noFirst
  | overrun
  | misplaced
  | short
  | undecodable
  deriving DecidableEq, Repr

inductive AssemblyStatus
  | incomplete
  | complete
  | invalid (why : Rejection)
  deriving DecidableEq, Repr

/-- `data = none` is the null pointer; otherwise these are the bytes it points to. -/
structure AssembledRx where
  data : Option (List UInt8) := none
  bytes : ℕ := 0
  packet : RxPacket := {}
  deriving DecidableEq

/-- What `feed` returns, and the ranges of `bytes_` that it wrote, as start and length. -/
structure Fed where
  status : AssemblyStatus
  out : AssembledRx := {}
  stores : List (ℕ × ℕ) := []
  deriving DecidableEq

structure PciRxAssembly where
  bytes : Bits.Memory := fun _ => 0
  used : ℕ := 0
  target : ℕ := 0
  active : Bool := false

namespace PciRxAssembly

/-- `sizeof(bytes_)`. -/
def sizeofBytes : ℕ := 4 + 32 + 6 + 56 + 16383

/-- The bytes the device has written to a segment. -/
def written (segment : List UInt8) : ℕ := (little32 segment &&& 0x3fff).toNat

def isFirst (segment : List UInt8) : Bool := little32 segment &&& 0x8000 != 0

def isLast (segment : List UInt8) : Bool := little32 segment &&& 0x4000 != 0

def reset (s : PciRxAssembly) : PciRxAssembly := { s with used := 0, target := 0, active := false }

def reject (why : Rejection) (stores : List (ℕ × ℕ)) (s : PciRxAssembly) : Fed × PciRxAssembly :=
  (⟨.invalid why, {}, stores⟩, s.reset)

/-- The end of `feed`: the packet is complete if it has the length that its header says. -/
def conclude (stores : List (ℕ × ℕ)) (s : PciRxAssembly) : Fed × PciRxAssembly :=
  if s.used ≠ s.target then
    reject .short stores s
  else
    match decodeRx (s.bytes.load 0 s.used) 4 with
    | .error _ => reject .undecodable stores s
    | .ok packet => (⟨.complete, ⟨some (s.bytes.load 0 s.used), s.used, packet⟩, stores⟩, s.reset)

/-- The second half of `feed`: copy what the segment holds from `start` on. -/
def extend (segment : List UInt8) (start : ℕ) (stores : List (ℕ × ℕ)) (s : PciRxAssembly) :
    Fed × PciRxAssembly :=
  let room := s.target - s.used
  if room < written segment - start ∧ ¬ (isFirst segment ∧ isLast segment) then
    reject .overrun stores s
  else
    -- Only a packet in a single segment may have bytes behind it.
    let copy := min (written segment - start) room
    if copy = 0 ∨ (!isLast segment ∧ copy = room) then
      reject .misplaced stores s
    else
      let s' := { s with
        bytes := s.bytes.store s.used ((segment.drop start).take copy)
        used := s.used + copy }
      if !isLast segment then
        (⟨.incomplete, {}, stores ++ [(s.used, copy)]⟩, s')
      else
        conclude (stores ++ [(s.used, copy)]) s'

/-- The assembly after the header of the first segment. -/
def begun (segment : List UInt8) (header : RxPacket) (s : PciRxAssembly) : PciRxAssembly :=
  { bytes := s.bytes.store 0 (segment.take header.offset)
    used := header.offset
    target := header.offset + header.length
    active := true }

/-- `feed`; `none` is the null pointer, and the length of a segment is the capacity of its buffer. -/
def feed (dma : Option (List UInt8)) (s : PciRxAssembly) : Fed × PciRxAssembly :=
  match dma with
  | none => reject .missing [] s
  | some segment =>
      if segment.length < 4 then
        reject .missing [] s
      else if written segment < 4 ∨ segment.length < written segment then
        reject .badLength [] s
      else if isFirst segment then
        if s.active then
          reject .repeatedFirst [] s
        else
          match decodeRxHeader (segment.take (written segment)) 4 with
          | .error _ => reject .badHeader [] s
          | .ok header =>
              if sizeofBytes < header.offset + header.length then
                reject .tooLarge [] s
              else
                extend segment header.offset [(0, header.offset)] (begun segment header s)
      else if !s.active then
        reject .noFirst [] s
      else
        extend segment 4 [] s

/-! ## Segments -/

/-- The prefix of a segment makes sense. -/
structure Valid (segment : List UInt8) : Prop where
  long : 4 ≤ segment.length
  least : 4 ≤ written segment
  most : written segment ≤ segment.length

/-- What a segment holds from `start` on. -/
def payload (start : ℕ) (segment : List UInt8) : List UInt8 :=
  (segment.take (written segment)).drop start

@[simp] theorem length_payload {segment : List UInt8} {start : ℕ} (h : Valid segment) :
    (payload start segment).length = written segment - start := by
  have hmost := h.most
  simp [payload]
  omega

theorem take_payload {segment : List UInt8} {start copy : ℕ} (hcopy : copy ≤ written segment - start) :
    (segment.drop start).take copy = (payload start segment).take copy := by
  rw [payload, List.drop_take, List.take_take, Nat.min_eq_left hcopy]

/-- An assembly in progress: the header, and the bytes so far. -/
structure Open (header : RxPacket) (sofar : List UInt8) (s : PciRxAssembly) : Prop where
  decoded : decodeRxHeader sofar 4 = .ok header
  target : s.target = header.offset + header.length
  used : s.used = sofar.length
  room : s.used < s.target
  bytes : s.bytes.load 0 s.used = sofar
  active : s.active = true

variable {s : PciRxAssembly} {header : RxPacket} {sofar segment : List UInt8} {start : ℕ}
  {stores : List (ℕ × ℕ)}

theorem Open.target_le (h : Open header sofar s) : s.target ≤ sizeofBytes := by
  have hbounds := decodeRxHeader_bounds h.decoded
  have hsize : sizeofBytes = 16481 := rfl
  rw [h.target]
  omega

/-- A complete packet decodes to its header and what follows it. -/
theorem decodeRx_complete (hd : decodeRxHeader sofar 4 = .ok header)
    (hlen : sofar.length = header.offset + header.length) :
    decodeRx sofar 4 = .ok { header with payload := some (sofar.drop header.offset) } := by
  have hfits : ¬ sofar.length - header.offset < header.length := by omega
  rw [decodeRx, hd]
  simp only
  rw [if_neg hfits]
  congr 2
  rw [List.take_of_length_le]
  rw [List.length_drop]
  omega

/-! ## One segment of an assembly -/

/-- The writes stay inside `bytes_`. -/
def Contained (stores : List (ℕ × ℕ)) : Prop := ∀ x ∈ stores, x.1 + x.2 ≤ sizeofBytes

theorem contained_nil : Contained [] := by
  intro x hx
  exact absurd hx (List.not_mem_nil)

theorem Contained.append (h : Contained stores) {a n : ℕ} (ha : a + n ≤ sizeofBytes) :
    Contained (stores ++ [(a, n)]) := by
  intro x hx
  rcases List.mem_append.1 hx with hx | hx
  · exact h x hx
  · rw [List.mem_singleton.1 hx]
    exact ha

/-- No assembly is pending. -/
structure Idle (s : PciRxAssembly) : Prop where
  active : s.active = false
  used : s.used = 0
  target : s.target = 0

theorem reset_idle (s : PciRxAssembly) : Idle s.reset := ⟨rfl, rfl, rfl⟩

/-- The assembly after `copy` more bytes. -/
def grown (segment : List UInt8) (start copy : ℕ) (s : PciRxAssembly) : PciRxAssembly :=
  { s with
    bytes := s.bytes.store s.used ((segment.drop start).take copy)
    used := s.used + copy }

theorem Open.load_grown (ho : Open header sofar s) (hv : Valid segment) {copy : ℕ}
    (hcopy : copy ≤ written segment - start) :
    (grown segment start copy s).bytes.load 0 (s.used + copy) =
      sofar ++ (payload start segment).take copy := by
  have hlen : ((payload start segment).take copy).length = copy := by
    rw [List.length_take, length_payload hv]
    omega
  have hload := Bits.Memory.load_store_append s.bytes 0 s.used ((payload start segment).take copy)
  rw [hlen, Nat.zero_add, ho.bytes] at hload
  rw [grown, take_payload hcopy]
  exact hload

theorem Open.decoded_append (ho : Open header sofar s) (more : List UInt8) :
    decodeRxHeader (sofar ++ more) 4 = .ok header := by
  have hbounds := decodeRxHeader_bounds ho.decoded
  apply decodeRxHeader_congr ho.decoded
  · rw [List.length_append]
    omega
  · rw [List.take_append_of_le_length hbounds.2.2.1]

theorem extend_eq (copy : ℕ) (hcopy : copy = min (written segment - start) (s.target - s.used))
    (hfits : s.target - s.used < written segment - start → isFirst segment = true ∧ isLast segment = true)
    (hzero : copy ≠ 0) (hmid : isLast segment = false → copy ≠ s.target - s.used) :
    extend segment start stores s =
      if !isLast segment then
        (⟨.incomplete, {}, stores ++ [(s.used, copy)]⟩, grown segment start copy s)
      else
        conclude (stores ++ [(s.used, copy)]) (grown segment start copy s) := by
  have hover : ¬ (s.target - s.used < written segment - start ∧
      ¬ (isFirst segment = true ∧ isLast segment = true)) := fun h => h.2 (hfits h.1)
  have hplace : ¬ (min (written segment - start) (s.target - s.used) = 0 ∨
      ((!isLast segment) = true ∧
        min (written segment - start) (s.target - s.used) = s.target - s.used)) := by
    rw [← hcopy]
    rintro (h | ⟨h, hroom⟩)
    · exact hzero h
    · exact hmid (by simpa using h) hroom
  subst hcopy
  rw [extend, if_neg hover, if_neg hplace]
  rfl

theorem extend_incomplete (stores : List (ℕ × ℕ)) (ho : Open header sofar s)
    (hv : Valid segment) (hlast : isLast segment = false)
    (hsome : start < written segment) (hroom : s.used + (written segment - start) < s.target) :
    ∃ s', extend segment start stores s =
        (⟨.incomplete, {}, stores ++ [(s.used, written segment - start)]⟩, s') ∧
      Open header (sofar ++ payload start segment) s' := by
  refine ⟨grown segment start (written segment - start) s, ?_, ?_⟩
  · rw [extend_eq (written segment - start) (by omega) (by omega) (by omega) (by omega),
      if_pos (by simp [hlast])]
  · have hload := ho.load_grown hv (le_refl (written segment - start))
    have hall : (payload start segment).take (written segment - start) = payload start segment := by
      rw [List.take_of_length_le (length_payload hv).le]
    rw [hall] at hload
    refine ⟨ho.decoded_append _, ho.target, ?_, hroom, hload, ho.active⟩
    show s.used + (written segment - start) = _
    rw [List.length_append, length_payload hv, ho.used]

theorem extend_complete (stores : List (ℕ × ℕ)) (ho : Open header sofar s)
    (hv : Valid segment) (hlast : isLast segment = true)
    (hroom : s.used + (written segment - start) = s.target ∨
      (isFirst segment = true ∧ s.target < s.used + (written segment - start))) :
    let data := sofar ++ (payload start segment).take (s.target - s.used)
    data.length = s.target ∧
    ∃ s', extend segment start stores s =
        (⟨.complete,
          ⟨some data, s.target, { header with payload := some (data.drop header.offset) }⟩,
          stores ++ [(s.used, s.target - s.used)]⟩, s') ∧ Idle s' := by
  have hopen := ho.room
  have hfits : s.target - s.used < written segment - start →
      isFirst segment = true ∧ isLast segment = true := by
    intro hover
    rcases hroom with hroom | ⟨hfirst, -⟩
    · omega
    · exact ⟨hfirst, hlast⟩
  have hload := ho.load_grown hv (show s.target - s.used ≤ written segment - start by omega)
  have hend : s.used + (s.target - s.used) = s.target := by omega
  rw [hend] at hload
  have hlen : (sofar ++ (payload start segment).take (s.target - s.used)).length = s.target := by
    rw [← hload, Bits.Memory.length_load]
  have hdecode := decodeRx_complete (ho.decoded_append _) (hlen.trans ho.target)
  have hused : (grown segment start (s.target - s.used) s).used = s.target := hend
  have htarget : (grown segment start (s.target - s.used) s).target = s.target := rfl
  refine ⟨hlen, (grown segment start (s.target - s.used) s).reset, ?_, reset_idle _⟩
  rw [extend_eq (s.target - s.used) (by omega) hfits (by omega) (fun hno => absurd (hno.symm.trans hlast) nofun),
    if_neg (by simp [hlast]), conclude, hused, htarget, if_neg (fun h => h rfl), hload, hdecode]

theorem extend_rejected (stores : List (ℕ × ℕ)) (ho : Open header sofar s)
    (hmid : ¬ (isLast segment = false ∧ start < written segment ∧
      s.used + (written segment - start) < s.target))
    (hend : ¬ (isLast segment = true ∧ (s.used + (written segment - start) = s.target ∨
      (isFirst segment = true ∧ s.target < s.used + (written segment - start))))) :
    ∃ why more, (why = .overrun ∨ why = .misplaced ∨ why = .short) ∧
      (more = [] ∨ ∃ n, more = [(s.used, n)] ∧ s.used + n ≤ s.target) ∧
      ∃ s', extend segment start stores s = (⟨.invalid why, {}, stores ++ more⟩, s') ∧ Idle s' := by
  have hopen := ho.room
  by_cases hover : s.target - s.used < written segment - start ∧
      ¬ (isFirst segment = true ∧ isLast segment = true)
  · refine ⟨.overrun, [], Or.inl rfl, Or.inl rfl, s.reset, ?_, reset_idle _⟩
    rw [extend, if_pos hover, List.append_nil]
    rfl
  by_cases hplace : min (written segment - start) (s.target - s.used) = 0 ∨
      ((!isLast segment) = true ∧
        min (written segment - start) (s.target - s.used) = s.target - s.used)
  · refine ⟨.misplaced, [], Or.inr (Or.inl rfl), Or.inl rfl, s.reset, ?_, reset_idle _⟩
    rw [extend, if_neg hover, if_pos hplace, List.append_nil]
    rfl
  -- What is left is a last segment that comes too early.
  rw [not_or] at hplace
  cases hlast : isLast segment with
  | false =>
      have hroom : min (written segment - start) (s.target - s.used) ≠ s.target - s.used := by
        intro h
        exact hplace.2 ⟨by simp [hlast], h⟩
      exact absurd ⟨hlast, by omega, by omega⟩ hmid
  | true =>
      have hearly : s.used + (written segment - start) < s.target := by
        by_contra hnot
        apply hend
        refine ⟨hlast, ?_⟩
        rcases Nat.eq_or_lt_of_not_lt hnot with h | h
        · exact Or.inl h
        · right
          refine ⟨?_, h⟩
          by_contra hfirst
          exact hover ⟨by omega, fun hboth => hfirst hboth.1⟩
      have hused : (grown segment start (written segment - start) s).used ≠
          (grown segment start (written segment - start) s).target := by
        show s.used + (written segment - start) ≠ s.target
        omega
      refine ⟨.short, [(s.used, written segment - start)], Or.inr (Or.inr rfl),
        Or.inr ⟨_, rfl, by omega⟩, (grown segment start (written segment - start) s).reset, ?_,
        reset_idle _⟩
      rw [extend_eq (written segment - start) (by omega) (by omega) (by omega) (by omega),
        if_neg (by simp [hlast]), conclude, if_pos hused]
      rfl

/-! ## Packets cut into segments -/

/-- Segments that belong together: the first one has the header, the others hold something. -/
structure Chain (header : RxPacket) (f : List UInt8) (rest : List (List UInt8)) : Prop where
  valid : Valid f
  first : isFirst f = true
  decoded : decodeRxHeader (f.take (written f)) 4 = .ok header
  rest : ∀ x ∈ rest, Valid x ∧ isFirst x = false ∧ 4 < written x

/-- The header followed by what the segments hold. -/
def gathered (header : RxPacket) (f : List UInt8) (rest : List (List UInt8)) : List UInt8 :=
  f.take header.offset ++ (payload header.offset f ++ (rest.map (payload 4)).flatten)

theorem gathered_concat (header : RxPacket) (f segment : List UInt8) (rest : List (List UInt8)) :
    gathered header f (rest ++ [segment]) = gathered header f rest ++ payload 4 segment := by
  simp [gathered]

/-- The segments since the last first one, and the bytes they make. -/
def Pending (fed : List (Option (List UInt8))) (s : PciRxAssembly) : Prop :=
  ∃ earlier header f rest, fed = earlier ++ (f :: rest).map some ∧ Chain header f rest ∧
    (∀ x ∈ f :: rest, isLast x = false) ∧ Open header (gathered header f rest) s

/-- A packet that was delivered: one run of segments from a first to a last one.  Only a packet in a
single segment can have bytes behind it, which are cut off. -/
def Delivers (fed : List (Option (List UInt8))) (out : AssembledRx) : Prop :=
  ∃ earlier header f rest, fed = earlier ++ (f :: rest).map some ∧ Chain header f rest ∧
    (∀ x ∈ (f :: rest).dropLast, isLast x = false) ∧
    isLast ((f :: rest).getLast (List.cons_ne_nil f rest)) = true ∧
    out.bytes = header.offset + header.length ∧ out.bytes ≤ (gathered header f rest).length ∧
    (rest ≠ [] → (gathered header f rest).length = out.bytes) ∧
    out.data = some ((gathered header f rest).take out.bytes) ∧
    out.packet = { header with
      payload := some (((gathered header f rest).take out.bytes).drop header.offset) }

/-- What is claimed of one call, given the segments up to and including this one. -/
structure Sound (fed : List (Option (List UInt8))) (r : Fed × PciRxAssembly) : Prop where
  pending : Idle r.2 ∨ Pending fed r.2
  complete : r.1.status = .complete → Delivers fed r.1.out
  settled : r.1.status ≠ .incomplete → Idle r.2
  contained : Contained r.1.stores
  sized : r.1.status ≠ .invalid .tooLarge
  decodes : r.1.status ≠ .invalid .undecodable

variable {fed : List (Option (List UInt8))}

theorem sound_invalid {why : Rejection} (hidle : Idle s) (hc : Contained stores)
    (hsized : why ≠ .tooLarge) (hdecodes : why ≠ .undecodable) :
    Sound fed (⟨.invalid why, {}, stores⟩, s) where
  pending := Or.inl hidle
  complete := nofun
  settled := fun _ => hidle
  contained := hc
  sized := by
    intro h
    exact hsized (AssemblyStatus.invalid.inj h)
  decodes := by
    intro h
    exact hdecodes (AssemblyStatus.invalid.inj h)

theorem open_begun (hv : Valid segment)
    (hd : decodeRxHeader (segment.take (written segment)) 4 = .ok header) (s : PciRxAssembly) :
    Open header (segment.take header.offset) (begun segment header s) := by
  have hbounds := decodeRxHeader_bounds hd
  have hmost := hv.most
  have hwritten : header.offset ≤ written segment := by
    have hlen := hbounds.2.2.1
    rw [List.length_take] at hlen
    omega
  have htake : (segment.take header.offset).length = header.offset := by
    rw [List.length_take]
    omega
  refine ⟨?_, rfl, htake.symm, ?_, ?_, rfl⟩
  · apply decodeRxHeader_congr hd
    · omega
    · rw [List.take_take, List.take_take, Nat.min_self, Nat.min_eq_left hwritten]
  · show header.offset < header.offset + header.length
    omega
  · have hload := Bits.Memory.load_store_append s.bytes 0 0 (segment.take header.offset)
    rw [htake, Nat.zero_add, Nat.zero_add] at hload
    exact hload

/-- A segment of an assembly in progress, given what it means that it is one of the middle or the last
one. -/
theorem extend_sound (ho : Open header sofar s) (hv : Valid segment) (hstores : Contained stores)
    (hmiddle : isLast segment = false → start < written segment →
      ∀ s', Open header (sofar ++ payload start segment) s' → Pending fed s')
    (hlast : isLast segment = true →
      s.used + (written segment - start) = s.target ∨
        (isFirst segment = true ∧ s.target < s.used + (written segment - start)) →
      ∀ data, data = (sofar ++ payload start segment).take s.target → data.length = s.target →
        Delivers fed ⟨some data, s.target, { header with payload := some (data.drop header.offset) }⟩) :
    Sound fed (extend segment start stores s) := by
  have htarget := ho.target_le
  have hopen := ho.room
  by_cases hm : isLast segment = false ∧ start < written segment ∧
      s.used + (written segment - start) < s.target
  · rcases extend_incomplete stores ho hv hm.1 hm.2.1 hm.2.2 with ⟨s', heq, hopen'⟩
    rw [heq]
    exact ⟨Or.inr (hmiddle hm.1 hm.2.1 s' hopen'), nofun, fun h => absurd rfl h,
      hstores.append (by omega), nofun, nofun⟩
  by_cases he : isLast segment = true ∧ (s.used + (written segment - start) = s.target ∨
      (isFirst segment = true ∧ s.target < s.used + (written segment - start)))
  · rcases extend_complete stores ho hv he.1 he.2 with ⟨hlen, s', heq, hidle⟩
    rw [heq]
    have hdata : sofar ++ (payload start segment).take (s.target - s.used) =
        (sofar ++ payload start segment).take s.target := by
      have hused := ho.used
      have hall : sofar.take s.target = sofar := List.take_of_length_le (by omega)
      rw [List.take_append, hall, ← ho.used]
    exact ⟨Or.inl hidle, fun _ => hlast he.1 he.2 _ hdata hlen, fun _ => hidle,
      hstores.append (by omega), nofun, nofun⟩
  · rcases extend_rejected stores ho hm he with ⟨why, more, hwhy, hmore, s', heq, hidle⟩
    rw [heq]
    have hcontained : Contained (stores ++ more) := by
      rcases hmore with rfl | ⟨n, rfl, hn⟩
      · rw [List.append_nil]
        exact hstores
      · exact hstores.append (by omega)
    rcases hwhy with rfl | rfl | rfl
    · exact sound_invalid hidle hcontained nofun nofun
    · exact sound_invalid hidle hcontained nofun nofun
    · exact sound_invalid hidle hcontained nofun nofun

theorem begin_sound (hv : Valid segment) (hfirst : isFirst segment = true)
    (hd : decodeRxHeader (segment.take (written segment)) 4 = .ok header) (s : PciRxAssembly) :
    Sound (fed ++ [some segment])
      (extend segment header.offset [(0, header.offset)] (begun segment header s)) := by
  have hbounds := decodeRxHeader_bounds hd
  have ho := open_begun hv hd s
  have hchain : Chain header segment [] := ⟨hv, hfirst, hd, nofun⟩
  have hgathered : gathered header segment [] =
      segment.take header.offset ++ payload header.offset segment := by
    simp [gathered]
  have hstored : Contained [(0, header.offset)] := by
    have hsize : sizeofBytes = 16481 := rfl
    intro x hx
    rw [List.mem_singleton.1 hx]
    show 0 + header.offset ≤ sizeofBytes
    omega
  apply extend_sound ho hv hstored
  · intro hlast _ s' hopen
    refine ⟨fed, header, segment, [], rfl, hchain, ?_, ?_⟩
    · intro x hx
      rw [List.mem_singleton.1 hx]
      exact hlast
    · rw [hgathered]
      exact hopen
  · intro hlast _ data hdata hlen
    rw [← hgathered] at hdata
    refine ⟨fed, header, segment, [], rfl, hchain, nofun, hlast, ho.target, ?_, fun h => absurd rfl h,
      congrArg some hdata, ?_⟩
    · have := congrArg List.length hdata
      rw [hlen, List.length_take] at this
      show (begun segment header s).target ≤ _
      omega
    · rw [hdata]

theorem continue_sound (hp : Pending fed s) (hv : Valid segment) (hfirst : isFirst segment = false) :
    Sound (fed ++ [some segment]) (extend segment 4 [] s) := by
  rcases hp with ⟨earlier, header, f, rest, hfed, hchain, hnone, ho⟩
  have hfed' : fed ++ [some segment] = earlier ++ (f :: (rest ++ [segment])).map some := by
    simp [hfed]
  have hopen := ho.room
  have hchain' : 4 < written segment → Chain header f (rest ++ [segment]) := by
    intro hsome
    refine ⟨hchain.valid, hchain.first, hchain.decoded, ?_⟩
    intro x hx
    rcases List.mem_append.1 hx with hx | hx
    · exact hchain.rest x hx
    · rw [List.mem_singleton.1 hx]
      exact ⟨hv, hfirst, hsome⟩
  apply extend_sound ho hv contained_nil
  · intro hlast hsome s' hopen'
    refine ⟨earlier, header, f, rest ++ [segment], hfed', hchain' hsome, ?_, ?_⟩
    · intro x hx
      rcases List.mem_append.1 (by simpa using hx : x ∈ (f :: rest) ++ [segment]) with hx | hx
      · exact hnone x hx
      · rw [List.mem_singleton.1 hx]
        exact hlast
    · rw [gathered_concat]
      exact hopen'
  · intro hlast hroom data hdata hlen
    have hexact : s.used + (written segment - 4) = s.target := by
      rcases hroom with h | ⟨h, -⟩
      · exact h
      · exact absurd (hfirst.symm.trans h) nofun
    have hall : (gathered header f (rest ++ [segment])).length = s.target := by
      rw [gathered_concat, List.length_append, length_payload hv, ← ho.used, hexact]
    rw [← gathered_concat] at hdata
    refine ⟨earlier, header, f, rest ++ [segment], hfed', hchain' (by omega), ?_, ?_, ho.target,
      hall.ge, fun _ => hall, congrArg some hdata, ?_⟩
    · intro x hx
      have hdrop : (f :: (rest ++ [segment])).dropLast = f :: rest := by
        rw [← List.cons_append, List.dropLast_concat]
      rw [hdrop] at hx
      exact hnone x hx
    · simpa using hlast
    · rw [hdata]

/-- What a call of `feed` does. -/
theorem feed_sound (h : Idle s ∨ Pending fed s) (dma : Option (List UInt8)) :
    Sound (fed ++ [dma]) (feed dma s) := by
  have hreject : ∀ {why : Rejection}, why ≠ .tooLarge → why ≠ .undecodable →
      Sound (fed ++ [dma]) (reject why [] s) := by
    intro why hsized hdecodes
    exact sound_invalid (reset_idle s) contained_nil hsized hdecodes
  cases dma with
  | none => exact hreject nofun nofun
  | some segment =>
      rw [feed]
      split
      · exact hreject nofun nofun
      rename_i hlong
      split
      · exact hreject nofun nofun
      rename_i hlength
      have hv : Valid segment := ⟨by omega, by omega, by omega⟩
      split
      · rename_i hfirst
        split
        · exact hreject nofun nofun
        · split
          · exact hreject nofun nofun
          · rename_i header hd
            have hbounds := decodeRxHeader_bounds hd
            have hsize : sizeofBytes = 16481 := rfl
            -- The header is at most 98 bytes long, so this packet fits.
            rw [if_neg (by omega)]
            exact begin_sound hv hfirst hd s
      · rename_i hfirst
        split
        · exact hreject nofun nofun
        · rename_i hactive
          have hpending : Pending fed s := by
            rcases h with hidle | hpending
            · exact absurd hidle.active (by simpa using hactive)
            · exact hpending
          exact continue_sound hpending hv (by simpa using hfirst)

/-! ## Every way to cut a packet -/

theorem feed_begin (hv : Valid segment) (hfirst : isFirst segment = true) (hidle : s.active = false)
    (hd : decodeRxHeader (segment.take (written segment)) 4 = .ok header) :
    feed (some segment) s =
      extend segment header.offset [(0, header.offset)] (begun segment header s) := by
  have hlong := hv.long
  have hleast := hv.least
  have hmost := hv.most
  have hbounds := decodeRxHeader_bounds hd
  have hsize : sizeofBytes = 16481 := rfl
  rw [feed, if_neg (by omega), if_neg (by omega), if_pos hfirst, if_neg (by simp [hidle]), hd]
  simp only
  rw [if_neg (by omega)]

theorem feed_continue (hv : Valid segment) (hfirst : isFirst segment = false) (hactive : s.active = true) :
    feed (some segment) s = extend segment 4 [] s := by
  have hlong := hv.long
  have hleast := hv.least
  have hmost := hv.most
  rw [feed, if_neg (by omega), if_neg (by omega), if_neg (by simp [hfirst]), if_neg (by simp [hactive])]

/-- Feed these segments: all results, and the assembly afterwards. -/
def feedAll : List (List UInt8) → PciRxAssembly → List Fed × PciRxAssembly
  | [], s => ([], s)
  | segment :: segments, s =>
      let rest := feedAll segments (feed (some segment) s).2
      ((feed (some segment) s).1 :: rest.1, rest.2)

/-- The segments after the first one: each holds something, and the last one is marked. -/
def Tail : List (List UInt8) → Prop
  | [] => False
  | [x] => Valid x ∧ isFirst x = false ∧ 4 < written x ∧ isLast x = true
  | x :: xs => (Valid x ∧ isFirst x = false ∧ 4 < written x ∧ isLast x = false) ∧ Tail xs

theorem Tail.length_pos : ∀ {rest : List (List UInt8)}, Tail rest →
    0 < ((rest.map (payload 4)).flatten).length
  | [], h => h.elim
  | [x], h => by
      have hsome := h.2.2.1
      simp [length_payload h.1]
      omega
  | x :: y :: ys, h => by
      have hmore := h.2.length_pos
      rw [List.map_cons, List.flatten_cons, List.length_append]
      omega

/-- The results for a packet: it is incomplete until its last segment, and then has these bytes. -/
structure Reassembled (header : RxPacket) (data : List UInt8) (r : List Fed × PciRxAssembly) :
    Prop where
  waiting : ∀ x ∈ r.1.dropLast, x.status = .incomplete
  complete : ∃ x, r.1.getLast? = some x ∧ x.status = .complete ∧
    x.out = ⟨some data, data.length, { header with payload := some (data.drop header.offset) }⟩
  idle : Idle r.2

theorem Reassembled.cons {data : List UInt8} {r : List Fed × PciRxAssembly} {x : Fed}
    (h : Reassembled header data r) (hx : x.status = .incomplete) :
    Reassembled header data (x :: r.1, r.2) := by
  rcases h.complete with ⟨y, hlast, hy⟩
  have hne : r.1 ≠ [] := by
    intro hnil
    rw [hnil] at hlast
    exact absurd hlast nofun
  refine ⟨?_, ⟨y, ?_, hy⟩, h.idle⟩
  · intro z hz
    rw [List.dropLast_cons_of_ne_nil hne] at hz
    rcases List.mem_cons.1 hz with rfl | hz
    · exact hx
    · exact h.waiting z hz
  · rw [List.getLast?_cons, hlast]
    rfl

theorem reassembled_last (ho : Open header sofar s) (hv : Valid segment)
    (hlast : isLast segment = true) (hend : s.used + (written segment - start) = s.target) :
    Reassembled header (sofar ++ payload start segment)
      ([(extend segment start stores s).1], (extend segment start stores s).2) := by
  rcases extend_complete stores ho hv hlast (Or.inl hend) with ⟨hlen, s', heq, hidle⟩
  have hall : (payload start segment).take (s.target - s.used) = payload start segment := by
    apply List.take_of_length_le
    rw [length_payload hv]
    omega
  rw [hall] at hlen heq
  rw [heq]
  refine ⟨?_, ⟨_, rfl, rfl, ?_⟩, hidle⟩
  · intro x hx
    simp at hx
  · rw [hlen]
    rfl

theorem tail_reassembled (rest : List (List UInt8)) :
    ∀ {sofar : List UInt8} {s : PciRxAssembly}, Open header sofar s → Tail rest →
      sofar.length + ((rest.map (payload 4)).flatten).length = s.target →
      Reassembled header (sofar ++ (rest.map (payload 4)).flatten) (feedAll rest s) := by
  induction rest with
  | nil =>
      intro sofar s _ htail
      exact htail.elim
  | cons x xs ih =>
      intro sofar s ho htail hsum
      have hused := ho.used
      rw [List.map_cons, List.flatten_cons] at hsum ⊢
      rw [List.length_append] at hsum
      cases xs with
      | nil =>
          rcases htail with ⟨hv, hfirst, hsome, hlast⟩
          rw [length_payload hv] at hsum
          simp only [List.map_nil, List.flatten_nil, List.length_nil] at hsum
          rw [List.map_nil, List.flatten_nil, List.append_nil, feedAll,
            feed_continue hv hfirst ho.active]
          exact reassembled_last ho hv hlast (by omega)
      | cons y ys =>
          rcases htail with ⟨⟨hv, hfirst, hsome, hlast⟩, htail⟩
          have hmore := htail.length_pos
          rw [length_payload hv] at hsum
          rcases extend_incomplete [] ho hv hlast hsome (by omega) with ⟨s', heq, hopen⟩
          rw [feedAll, feed_continue hv hfirst ho.active, heq, ← List.append_assoc]
          refine Reassembled.cons (ih hopen htail ?_) rfl
          rw [List.length_append, length_payload hv, hopen.target, ← ho.target]
          omega

theorem decodeRxHeader_word {word body : List UInt8} (word' : List UInt8) (hword : word.length = 4)
    (hword' : word'.length = 4) (hd : decodeRxHeader (word ++ body) 4 = .ok header) :
    decodeRxHeader (word' ++ body) 4 = .ok header := by
  have hdrop : (word ++ body).drop 4 = body := by
    rw [← hword]
    exact List.drop_left
  have hdrop' : (word' ++ body).drop 4 = body := by
    rw [← hword']
    exact List.drop_left
  have hlen : (word ++ body).length = (word' ++ body).length := by
    rw [List.length_append, List.length_append, hword, hword']
  unfold decodeRxHeader at hd ⊢
  rw [hdrop', ← hlen]
  rwa [hdrop] at hd

/-- A packet cut into a first segment with the whole header and more, and others. -/
theorem feed_split {word body f : List UInt8} {rest : List (List UInt8)} (hword : word.length = 4)
    (hd : decodeRxHeader (word ++ body) 4 = .ok header)
    (hlen : 4 + body.length = header.offset + header.length) (hv : Valid f)
    (hfirst : isFirst f = true) (hheader : header.offset < written f)
    (hflags : rest = [] ∧ isLast f = true ∨ isLast f = false ∧ Tail rest)
    (hbody : payload 4 f ++ (rest.map (payload 4)).flatten = body) (hidle : Idle s) :
    Reassembled header (f.take 4 ++ body) (feedAll (f :: rest) s) := by
  have hlong := hv.long
  have hleast := hv.least
  have hmost := hv.most
  have hbounds := decodeRxHeader_bounds hd
  -- The first segment, as far as it was written.
  have hf : f.take (written f) = f.take 4 ++ payload 4 f := by
    conv_lhs => rw [← List.take_append_drop 4 (f.take (written f)), List.take_take,
      Nat.min_eq_left hleast]
    rfl
  have hpacket : f.take 4 ++ body = f.take (written f) ++ (rest.map (payload 4)).flatten := by
    rw [← hbody, ← List.append_assoc, ← hf]
  have hd' : decodeRxHeader (f.take (written f)) 4 = .ok header := by
    have hwhole := decodeRxHeader_word (f.take 4) hword (by simp; omega) hd
    have hfl : header.offset ≤ (f.take (written f)).length := by
      rw [List.length_take]
      omega
    apply decodeRxHeader_congr hwhole hfl
    rw [hpacket, List.take_append_of_le_length hfl]
  have ho := open_begun hv hd' s
  have hgathered : f.take header.offset ++ payload header.offset f = f.take (written f) := by
    conv_rhs => rw [← List.take_append_drop header.offset (f.take (written f)), List.take_take,
      Nat.min_eq_left (show header.offset ≤ written f by omega)]
    rfl
  have hbodyLen : 4 + body.length = written f + ((rest.map (payload 4)).flatten).length := by
    rw [← hbody, List.length_append, length_payload hv]
    omega
  have htarget : (begun f header s).target = written f + ((rest.map (payload 4)).flatten).length := by
    rw [ho.target, ← hlen, hbodyLen]
  have hused : (begun f header s).used = header.offset := rfl
  rw [hpacket, feedAll, feed_begin hv hfirst hidle.active hd']
  rcases hflags with ⟨rfl, hlast⟩ | ⟨hlast, htail⟩
  · simp only [List.map_nil, List.flatten_nil, List.append_nil, List.length_nil] at htarget ⊢
    rw [← hgathered]
    exact reassembled_last ho hv hlast (by omega)
  · have hmore := htail.length_pos
    rcases extend_incomplete [(0, header.offset)] ho hv hlast hheader (by omega) with ⟨s', heq, hopen⟩
    rw [heq]
    rw [hgathered] at hopen
    refine Reassembled.cons (tail_reassembled rest hopen htail ?_) rfl
    have htarget' : s'.target = (begun f header s).target := hopen.target.trans ho.target.symm
    rw [htarget', htarget, List.length_take, Nat.min_eq_left hmost]

/-! ## The theorem -/

def run (fed : List (Option (List UInt8))) : PciRxAssembly :=
  fed.foldl (fun s dma => (feed dma s).2) {}

theorem run_pending (fed : List (Option (List UInt8))) : Idle (run fed) ∨ Pending fed (run fed) := by
  induction fed using List.reverseRecOn with
  | nil => exact Or.inl ⟨rfl, rfl, rfl⟩
  | append_singleton fed dma ih =>
      rw [run, List.foldl_append]
      exact (feed_sound ih dma).pending

/-- Reassembly.  After any segments the next one does only what `Sound` says, and every packet that
arrives in one piece is put together from any cut of it. -/
theorem rx_reassembly :
    (∀ (fed : List (Option (List UInt8))) (dma : Option (List UInt8)),
      Sound (fed ++ [dma]) (feed dma (run fed))) ∧
    (∀ (word body : List UInt8) (header : RxPacket) (f : List UInt8) (rest : List (List UInt8))
      (s : PciRxAssembly), word.length = 4 → decodeRxHeader (word ++ body) 4 = .ok header →
      4 + body.length = header.offset + header.length →
      Valid f → isFirst f = true → header.offset < written f →
      (rest = [] ∧ isLast f = true ∨ isLast f = false ∧ Tail rest) →
      payload 4 f ++ (rest.map (payload 4)).flatten = body → Idle s →
      Reassembled header (f.take 4 ++ body) (feedAll (f :: rest) s)) := by
  constructor
  · intro fed dma
    exact feed_sound (run_pending fed) dma
  · intro word body header f rest s hword hd hlen hv hfirst hheader hflags hbody hidle
    exact feed_split hword hd hlen hv hfirst hheader hflags hbody hidle

/-- A packet of four bytes behind a short header, in two segments. -/
theorem rx_reassembly_twoSegments :
    ∃ header, header.offset = 20 ∧ header.length = 4 ∧
      Reassembled header
        [22, 0x80, 0, 0, 4, 0, 0, 0, 0, 0, 0, 0, 0, 0, 0, 0, 0, 0, 0, 0, 1, 2, 3, 4]
        (feedAll [[22, 0x80, 0, 0, 4, 0, 0, 0, 0, 0, 0, 0, 0, 0, 0, 0, 0, 0, 0, 0, 1, 2],
          [6, 0x40, 0, 0, 3, 4]] {}) := by
  have hsizes : (decodeRxHeader
      ([22, 0x80, 0, 0] ++ [4, 0, 0, 0, 0, 0, 0, 0, 0, 0, 0, 0, 0, 0, 0, 0, 1, 2, 3, 4]) 4).toOption.map
      (fun h => (h.offset, h.length)) = some (20, 4) := by
    decide
  rcases hd : decodeRxHeader
      ([22, 0x80, 0, 0] ++ [4, 0, 0, 0, 0, 0, 0, 0, 0, 0, 0, 0, 0, 0, 0, 0, 1, 2, 3, 4]) 4 with e | header
  · rw [hd] at hsizes
    cases hsizes
  rw [hd] at hsizes
  rcases Prod.mk.inj (Option.some.inj hsizes) with ⟨hoffset, hlength⟩
  refine ⟨header, hoffset, hlength, ?_⟩
  exact rx_reassembly.2 [22, 0x80, 0, 0] _ header
    [22, 0x80, 0, 0, 4, 0, 0, 0, 0, 0, 0, 0, 0, 0, 0, 0, 0, 0, 0, 0, 1, 2] [[6, 0x40, 0, 0, 3, 4]] {} rfl hd
    (by rw [hoffset, hlength]; rfl) ⟨by decide, by decide, by decide⟩ rfl (by rw [hoffset]; decide)
    (Or.inr ⟨rfl, ⟨by decide, by decide, by decide⟩, rfl, by decide, rfl⟩) rfl ⟨rfl, rfl, rfl⟩

end PciRxAssembly

end Queue
end Rtl8852be
