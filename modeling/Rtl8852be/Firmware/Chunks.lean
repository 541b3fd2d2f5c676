import Rtl8852be.Firmware.Layout

/-!
# Chunks — the payloads of the section packets

A section of a parsed plan is cut into chunks of `packetBytes`, the last one with what is left.  `chunkAt`
finds each of them, and put together they are the bytes of the sections.
-/

namespace Rtl8852be
namespace Firmware

open Checked Sequence

variable {data : List UInt8} {cut : UInt8} {plan : Plan} {k i : ℕ}

/-- The chunks of section number `i`. -/
def sectionChunks (s : Section) (i : ℕ) : List Chunk :=
  (List.range (pieceCount packetBytes s.transferBytes)).map fun k =>
    { offset := s.offset + k * packetBytes
      bytes := pieceSize packetBytes s.transferBytes k
      sectionOffset := k * packetBytes
      sectionIndex := i }

/-- The chunks of the sections from number `i` on. -/
def chunksFrom : List Section → ℕ → List Chunk
  | [], _ => []
  | s :: sections, i => sectionChunks s i ++ chunksFrom sections (i + 1)

theorem length_sectionChunks (s : Section) (i : ℕ) :
    (sectionChunks s i).length = pieceCount packetBytes s.transferBytes := by
  rw [sectionChunks, List.length_map, List.length_range]

theorem length_chunksFrom (sections : List Section) (i : ℕ) :
    (chunksFrom sections i).length = packets sections := by
  induction sections generalizing i with
  | nil => rfl
  | cons s sections ih =>
      rw [chunksFrom, List.length_append, length_sectionChunks, ih, packets, packets, List.map_cons,
        List.sum_cons]

variable {sections : List Section}

/-- The search for a chunk does not wrap, and finds it. -/
theorem chunkFrom_eq (h : ∀ s ∈ sections, s.transferBytes ≤ maxTransfer ∧ s.offset + s.transferBytes < 2 ^ sizeBits)
    (i index : ℕ) : chunkFrom sections i index = .ok (chunksFrom sections i)[index]? := by
  induction sections generalizing i index with
  | nil => rfl
  | cons s sections ih =>
      have hcount : s.transferBytes / packetBytes + (if s.transferBytes % packetBytes ≠ 0 then 1 else 0) =
          pieceCount packetBytes s.transferBytes := rfl
      have hlength := length_sectionChunks s i
      rw [chunkFrom, chunksFrom, hcount]
      by_cases hlater : pieceCount packetBytes s.transferBytes ≤ index
      · have hrest := ih (fun x hx => h x (List.mem_cons_of_mem s hx)) (i + 1)
          (index - pieceCount packetBytes s.transferBytes)
        rw [if_pos hlater, List.getElem?_append_right (by rwa [hlength]), hlength, ← hrest,
          sub_eq hlater, pure_bind]
      · rcases h s List.mem_cons_self with ⟨hsmall, hend⟩
        have hindex : index < pieceCount packetBytes s.transferBytes := not_le.1 hlater
        have hlt : index * packetBytes < s.transferBytes := (lt_pieceCount (by decide)).1 hindex
        have hmul : index * packetBytes < 2 ^ 32 := by
          rw [maxTransfer] at hsmall
          omega
        have hadd : s.offset + index * packetBytes < 2 ^ sizeBits := by omega
        rw [if_neg hlater, List.getElem?_append_left (by rwa [hlength]), sectionChunks, List.getElem?_map,
          List.getElem?_range hindex, mul_eq hmul, pure_bind, sub_eq hlt.le, pure_bind, add_eq hadd,
          pure_bind]
        rfl

def chunks (plan : Plan) : List Chunk := chunksFrom plan.sections 0

theorem tiles_mem {a b : ℕ} (h : Tiles a sections b) :
    a ≤ b ∧ ∀ s ∈ sections, a ≤ s.offset ∧ s.offset + s.transferBytes ≤ b := by
  induction sections generalizing a with
  | nil =>
      have hab : a = b := h
      exact ⟨hab.le, by simp⟩
  | cons x sections ih =>
      rcases h with ⟨hx, hpos, hrest⟩
      rcases ih hrest with ⟨hle, hall⟩
      refine ⟨by omega, fun s hs => ?_⟩
      rcases List.mem_cons.1 hs with rfl | hs
      · omega
      · have hs' := hall s hs
        omega

theorem chunkAt_eq (hp : Parsed data cut i plan) (hsize : data.length < 2 ^ sizeBits) (k : ℕ) :
    chunkAt plan k = .ok (chunks plan)[k]? := by
  have hcount := hp.sectionCount.2
  have hinside := hp.inside
  rw [chunkAt]
  by_cases hk : plan.packetCount ≤ k
  · rw [if_pos (Or.inr (Or.inr hk)), List.getElem?_eq_none]
    · rfl
    · rw [chunks, length_chunksFrom, ← hp.packetCount]
      exact hk
  · rw [if_neg]
    · apply chunkFrom_eq
      intro s hs
      have htile := (tiles_mem hp.tiles).2 s hs
      exact ⟨hp.small s hs, by omega⟩
    · rintro (hvalid | hsections | hlater)
      · exact hvalid hp.valid
      · omega
      · exact hk hlater

theorem mem_chunksFrom {c : Chunk} (hc : c ∈ chunksFrom sections i) :
    1 ≤ c.bytes ∧ c.bytes ≤ packetBytes ∧ i ≤ c.sectionIndex ∧
      ∃ s, sections[c.sectionIndex - i]? = some s ∧ s.offset ≤ c.offset ∧
        c.offset + c.bytes ≤ s.offset + s.transferBytes := by
  induction sections generalizing i with
  | nil => cases hc
  | cons s sections ih =>
      rcases List.mem_append.1 hc with hc | hc
      · rcases List.mem_map.1 hc with ⟨k, hk, rfl⟩
        rcases pieceSize_bounds (by decide) (List.mem_range.1 hk) with ⟨hpos, hle, hfits⟩
        refine ⟨hpos, hle, le_rfl, s, ?_, Nat.le_add_right _ _, ?_⟩
        · simp
        · show s.offset + k * packetBytes + pieceSize packetBytes s.transferBytes k ≤ _
          omega
      · rcases ih hc with ⟨hpos, hle, hindex, x, hx, hinside⟩
        refine ⟨hpos, hle, by omega, x, ?_, hinside⟩
        rw [← hx, show c.sectionIndex - i = c.sectionIndex - (i + 1) + 1 by omega,
          List.getElem?_cons_succ]

/-- The bytes of the chunks are those that the sections tile. -/
theorem flatMap_chunksFrom {a b : ℕ} (h : Tiles a sections b) (i : ℕ) :
    (chunksFrom sections i).flatMap (fun c => slice data c.offset c.bytes) = slice data a (b - a) := by
  induction sections generalizing a i with
  | nil =>
      have hab : a = b := h
      rw [hab, Nat.sub_self, slice_zero]
      rfl
  | cons s sections ih =>
      rcases h with ⟨hs, -, hrest⟩
      have hle := (tiles_mem hrest).1
      rw [chunksFrom, List.flatMap_append, ih hrest, sectionChunks, List.flatMap_map]
      simp only
      rw [flatMap_slice (by decide), hs, slice_append]
      congr 1
      omega

/-! ## What `parse` promises -/

/-- The bytes that `chunkAt` finds. -/
def chunkBytes (data : List UInt8) (plan : Plan) (k : ℕ) : List UInt8 :=
  match chunkAt plan k with
  | .ok (some c) => slice data c.offset c.bytes
  | _ => []

/-- The image of a plan, its sections and their chunks. -/
structure Layout (data : List UInt8) (cut : UInt8) (plan : Plan) : Prop where
  selected : ∃ k, Selected data cut k ∧ plan.imageOffset = (image data k).offset ∧
    plan.imageBytes = (image data k).bytes
  header : plan.headerBytes ≤ plan.imageBytes
  tiles : Tiles (plan.imageOffset + plan.headerBytes) plan.sections
    (plan.imageOffset + plan.imageBytes)
  sectionCount : plan.sections.length = plan.sectionCount
  chunkAt : ∀ k, ∃ found, chunkAt plan k = .ok found ∧ (found.isSome ↔ k < plan.packetCount) ∧
    ∀ c, found = some c → 1 ≤ c.bytes ∧ c.bytes ≤ packetBytes ∧
      ∃ s, plan.sections[c.sectionIndex]? = some s ∧ s.offset ≤ c.offset ∧
        c.offset + c.bytes ≤ s.offset + s.transferBytes
  contents : (List.range plan.packetCount).flatMap (chunkBytes data plan) =
    slice data (plan.imageOffset + plan.headerBytes) (plan.imageBytes - plan.headerBytes)

theorem Parsed.layout (hp : Parsed data cut i plan) (hsize : data.length < 2 ^ sizeBits) :
    Layout data cut plan where
  selected := ⟨i, hp.selected, hp.imageOffset, hp.imageBytes⟩
  header := hp.header_le
  tiles := hp.tiles
  sectionCount := hp.read
  chunkAt := by
    intro k
    refine ⟨_, chunkAt_eq hp hsize k, ?_, fun c hc => ?_⟩
    · rw [isSome_getElem?, chunks, length_chunksFrom, hp.packetCount]
    · rcases mem_chunksFrom (List.mem_of_getElem? hc) with ⟨hpos, hle, -, hs⟩
      exact ⟨hpos, hle, hs⟩
  contents := by
    have hlength : plan.packetCount = (chunks plan).length := by
      rw [chunks, length_chunksFrom, hp.packetCount]
    have hbytes : (List.range plan.packetCount).flatMap (chunkBytes data plan) =
        (chunks plan).flatMap fun c => slice data c.offset c.bytes := by
      rw [hlength, List.flatMap, List.flatMap]
      congr 1
      apply List.ext_getElem
      · simp
      · intro k hk hk'
        rw [List.length_map, List.length_range] at hk
        rw [List.getElem_map, List.getElem_map, List.getElem_range, chunkBytes, chunkAt_eq hp hsize,
          List.getElem?_eq_getElem hk]
    rw [hbytes, chunks, flatMap_chunksFrom hp.tiles]
    congr 1
    omega

theorem parse_layout (data : Option Container) (cut : UInt8) :
    ∃ status plan, parse data cut = .ok (status, plan) ∧ (status ≠ .ok → plan = {}) ∧
      (status = .ok → ∃ c, data = some c ∧ Layout c.bytes cut plan) := by
  rcases parse_cases data cut with ⟨status, hstatus, hparse⟩ | ⟨c, plan, hc, hparse, k, hp⟩
  · exact ⟨status, {}, hparse, fun _ => rfl, fun hok => absurd hok hstatus⟩
  · exact ⟨.ok, plan, hparse, fun hne => absurd rfl hne, fun _ => ⟨c, hc, hp.layout c.addressable⟩⟩

/-- One image of one section, whose four bytes make one packet. -/
def soleContainer : Container where
  bytes :=
    [0xff, 1, 0, 0, 0, 0, 0, 0, 0, 0, 0, 0, 0, 0, 0, 0,
      1, 5, 0, 0, 32, 0, 0, 0, 52, 0, 0, 0, 0, 0, 0, 0,
      0, 0, 0x52, 0x88, 0, 0, 0, 0, 0, 0, 0, 0, 0, 0, 0, 0,
      0, 0, 0, 0, 0, 0, 0, 0, 0, 1, 0, 0, 0, 0, 0, 0,
      0, 0, 0, 0, 4, 0, 0, 1, 0, 0, 0, 0, 0, 0, 0, 0,
      1, 2, 3, 4]
  addressable := by decide

theorem parse_layout_sole :
    ∃ plan, parse (some soleContainer) 1 = .ok (.ok, plan) ∧ Layout soleContainer.bytes 1 plan ∧
      (List.range plan.packetCount).flatMap (chunkBytes soleContainer.bytes plan) = [1, 2, 3, 4] := by
  have hstatus : (parse (some soleContainer) 1).toOption.map
      (fun x => (x.1, slice soleContainer.bytes (x.2.imageOffset + x.2.headerBytes)
        (x.2.imageBytes - x.2.headerBytes))) = some (.ok, [1, 2, 3, 4]) := by
    decide +kernel
  rcases parse_layout (some soleContainer) 1 with ⟨status, plan, hparse, -, hok⟩
  rw [hparse] at hstatus
  rcases Prod.mk.inj (Option.some.inj hstatus) with ⟨rfl, hbytes⟩
  rcases hok rfl with ⟨c, hc, hlayout⟩
  cases hc
  exact ⟨plan, hparse, hlayout, hlayout.contents.trans hbytes⟩

end Firmware
end Rtl8852be
