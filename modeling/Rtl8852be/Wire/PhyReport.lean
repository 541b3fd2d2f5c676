import Rtl8852be.Wire.Channel
import Rtl8852be.Wire.Descriptors

/-!
# PhyReport — the receiver's report about a packet

`phySample` of `StationIoCore.hpp`.  The report is a block of information elements behind a header of
eight bytes; where the hardware says so, a block with information from the MAC comes first.

* `elements_iff` — the loop accepts exactly the chains that end with the block;
* `elements_reads` — it stays inside the block;
* `phySample_parses` — which reports are accepted, and what they say about the channel.
-/

namespace Rtl8852be
namespace StationIo

open Network

/-! ## The parser -/

/-- `stationio::PhySample`. -/
structure PhySample where
  dbm : ℤ := 0
  normalized : ℤ := 0
  rawA : UInt8 := 0
  rawB : UInt8 := 0
  ppduCount : UInt8 := 0
  channel : UInt8 := 0
  band : UInt8 := 0
  channelKnown : Bool := false
  deriving DecidableEq

/-- What `phySample` returns, `out` after it, and the bytes of the payload that it read. -/
structure PhyRead where
  ok : Bool := false
  out : PhySample := {}
  reads : List ℕ := []

/-- The bytes that `little32` reads. -/
def positions (start : ℕ) : List ℕ := [start, start + 1, start + 2, start + 3]

/-- `little32` at this byte of the payload. -/
def wordFrom (payload : List UInt8) (start : ℕ) : UInt32 := little32 (payload.drop start)

/-- The sizes of the information elements; 255 where the element has its size in it. -/
def sizes : List ℕ :=
  [16, 32, 24, 24, 8, 8, 8, 8, 255, 8, 255, 176, 255, 255, 255, 255, 255, 255, 16, 24, 255, 255, 255, 0, 24,
    24, 24, 24, 32, 32, 32, 32]

def elementKind (word : UInt32) : ℕ := (word &&& 31).toNat

def elementSize (word : UInt32) : ℕ :=
  if sizes.getD (elementKind word) 0 = 255 then ((word >>> 5) &&& 127).toNat * 8
  else sizes.getD (elementKind word) 0

/-- The channel code of an element of kind 1. -/
def channelCode (word : UInt32) : ℕ := ((word >>> 16) &&& 255).toNat

/-- The band and the channel of a code; the RTL8852B has no 6 GHz radio. -/
def decodeCode (encoded : ℕ) : Option (UInt8 × UInt8) :=
  let index := encoded >>> 4
  let delta := encoded &&& 15
  if index = 0 then some (0, UInt8.ofNat delta)
  else if 2 ≤ index ∧ index ≤ 5 then
    some (1, UInt8.ofNat ([36, 100, 132, 149].getD (index - 2) 0 + 2 * delta))
  else none

/-- What an element does to the result; `none` where its channel is not valid. -/
def takeElement (word : UInt32) (result : PhySample) : Option PhySample :=
  if elementKind word = 1 then
    if channelCode word ≠ 0 then
      match decodeCode (channelCode word) with
      | none => none
      | some (band, channel) =>
          if Channel.validChannel ⟨band, 0, channel, channel⟩ then
            some { result with band := band, channel := channel, channelKnown := true }
          else
            none
    else
      some result
  else
    some result

/-- The loop over the information elements, from `offset` of the block on. -/
def elements (payload : List UInt8) (start length offset : ℕ) (result : PhySample) :
    Option PhySample × List ℕ :=
  if offset < length then
    if length - offset < 4 then
      (none, [])
    else if elementSize (wordFrom payload (start + offset)) = 0 ∨
        elementSize (wordFrom payload (start + offset)) > length - offset then
      (none, positions (start + offset))
    else
      match takeElement (wordFrom payload (start + offset)) result with
      | none => (none, positions (start + offset))
      | some result =>
          let (out, reads) := elements payload start length
            (offset + elementSize (wordFrom payload (start + offset))) result
          (out, positions (start + offset) ++ reads)
  else
    (some result, [])
termination_by length - offset
decreasing_by omega

/-- The part of `phySample` behind the MAC information. -/
def phyBlock (info : RxInfo) (payload : List UInt8) (start length : ℕ) : PhyRead :=
  if length < 8 then
    {}
  else
    let a := wordFrom payload start
    let b := wordFrom payload (start + 4)
    let reads := positions start ++ positions (start + 4)
    if a &&& 0x80 = 0 ∨ ((a >>> 8) &&& 255).toNat * 8 ≠ length ∨ a &&& 31 < 11 then
      { reads := reads }
    else
      let rawA := b.toUInt8
      let rawB := (b >>> 8).toUInt8
      let dbm : ℤ := ((if rawA > rawB then rawA else rawB).toNat >>> 1 : ℕ) - 110
      let result : PhySample :=
        { rawA := rawA
          rawB := rawB
          dbm := dbm
          normalized := min (max (dbm + 100) 0) 100
          ppduCount := info.ppduCnt }
      let (out, more) := elements payload start length 8 result
      match out with
      | none => { reads := reads ++ more }
      | some out => ⟨true, out, reads ++ more⟩

/-- The users that the MAC information lists. -/
def macUsers (payload : List UInt8) : ℕ := (wordFrom payload 0 &&& 15).toNat

def macInfoSize (payload : List UInt8) : ℕ :=
  8 + ((macUsers payload + 1) &&& 0xfffffffe) * 4 +
    (if wordFrom payload 0 &&& 0x20000000 ≠ 0 then 96 else 0) +
    ((wordFrom payload 4 >>> 16) &&& 255).toNat * 8

/-- `phySample`. -/
def phySample (packet : RxPacket) : PhyRead :=
  if packet.info.pktType ≠ 1 ∨ packet.info.bbSel then
    {}
  else
    match packet.payload with
    | none => {}
    | some payload =>
        if packet.info.macInfoValid then
          if packet.length < 8 then
            {}
          else
            let reads := positions 0 ++ positions 4
            if macUsers payload > 4 then
              { reads := reads }
            else
              let offset := macInfoSize payload
              if offset > packet.length then
                { reads := reads }
              else
                let block := phyBlock packet.info payload offset (packet.length - offset)
                { block with reads := reads ++ block.reads }
        else
          phyBlock packet.info payload 0 packet.length

/-! ## What the words say -/

/-- The size of an element of this kind; `none` where the element has its size in it. -/
def fixedSize (kind : ℕ) : Option ℕ :=
  if kind ∈ [8, 10, 12, 13, 14, 15, 16, 17, 20, 21, 22] then none
  else if kind = 11 then some 176
  else if kind = 23 then some 0
  else if kind ∈ [1, 28, 29, 30, 31] then some 32
  else if kind ∈ [2, 3, 19, 24, 25, 26, 27] then some 24
  else if kind ∈ [0, 18] then some 16
  else some 8

/-- The kind is in the low five bits, and the size, in units of eight bytes, in the seven above them. -/
def extent (word : UInt32) : ℕ := (fixedSize (word.toNat % 32)).getD (word.toNat / 32 % 128 * 8)

/-- The third byte is the code of a channel. -/
def codeOf (word : UInt32) : ℕ := word.toNat / 65536 % 256

/-- A code stands for a channel of 2.4 GHz, or for one of 5 GHz: so many steps above the first of its group. -/
inductive Stands : ℕ → UInt8 → UInt8 → Prop
  | low {delta : ℕ} (hdelta : delta < 16) : Stands delta 0 (UInt8.ofNat delta)
  | high {group base delta : ℕ} (hgroup : (group, base) ∈ [(2, 36), (3, 100), (4, 132), (5, 149)])
      (hdelta : delta < 16) : Stands (16 * group + delta) 1 (UInt8.ofNat (base + 2 * delta))

def usersOf (payload : List UInt8) : ℕ := (wordFrom payload 0).toNat % 16

/-- Eight bytes, eight for each pair of users, 96 if bit 29 says so, and a part whose size is in the second
word. -/
def infoSize (payload : List UInt8) : ℕ :=
  8 + (usersOf payload + 1) / 2 * 8 + (if (wordFrom payload 0).toNat / 2 ^ 29 % 2 = 1 then 96 else 0) +
    (wordFrom payload 4).toNat / 65536 % 256 * 8

theorem elementKind_eq (word : UInt32) : elementKind word = word.toNat % 32 := Bits.toNat_and_low (n := 5) rfl

theorem sizes_cases : ∀ kind < 32, (sizes.getD kind 0 = 255 ∧ fixedSize kind = none) ∨
    (sizes.getD kind 0 ≠ 255 ∧ fixedSize kind = some (sizes.getD kind 0)) := by
  decide

theorem elementSize_eq (word : UInt32) : elementSize word = extent word := by
  have hown : ((word >>> 5) &&& 127).toNat = word.toNat / 32 % 128 := by
    rw [Bits.toNat_and_low (n := 7) rfl, Bits.toNat_shiftRight (by decide)]
    rfl
  rw [elementSize, extent, elementKind_eq, hown]
  rcases sizes_cases (word.toNat % 32) (Nat.mod_lt _ (by decide)) with ⟨hsize, hfixed⟩ | ⟨hsize, hfixed⟩
  · rw [if_pos hsize, hfixed]
    rfl
  · rw [if_neg hsize, hfixed]
    rfl

theorem channelCode_eq (word : UInt32) : channelCode word = codeOf word := by
  rw [channelCode, Bits.toNat_and_low (n := 8) rfl, Bits.toNat_shiftRight (by decide)]
  rfl

theorem decodeCode_iff {encoded : ℕ} {band channel : UInt8} :
    decodeCode encoded = some (band, channel) ↔ Stands encoded band channel := by
  have hindex : encoded >>> 4 = encoded / 16 := Nat.shiftRight_eq_div_pow encoded 4
  have hdelta : encoded &&& 15 = encoded % 16 := Nat.and_two_pow_sub_one_eq_mod encoded 4
  simp only [decodeCode, hindex, hdelta]
  constructor
  · intro h
    split at h
    · rename_i hzero
      cases h
      rw [show encoded % 16 = encoded by omega]
      exact .low (by omega)
    · split at h
      · rename_i hgroup
        cases h
        have hsplit : encoded = 16 * (encoded / 16) + encoded % 16 := by omega
        have hdelta : encoded % 16 < 16 := Nat.mod_lt _ (by decide)
        generalize encoded / 16 = group at hgroup hsplit ⊢
        generalize encoded % 16 = delta at hsplit hdelta ⊢
        rw [hsplit]
        rcases (show group = 2 ∨ group = 3 ∨ group = 4 ∨ group = 5 by omega) with rfl | rfl | rfl | rfl
        · exact .high (by decide) hdelta
        · exact .high (by decide) hdelta
        · exact .high (by decide) hdelta
        · exact .high (by decide) hdelta
      · cases h
  · intro h
    cases h with
    | low hlow => rw [if_pos (by omega), Nat.mod_eq_of_lt hlow]
    | @high group base delta hgroup hlow =>
        have hdiv : (16 * group + delta) / 16 = group := by omega
        have hmod : (16 * group + delta) % 16 = delta := by omega
        rw [hdiv, hmod]
        simp only [List.mem_cons, Prod.mk.injEq, List.not_mem_nil, or_false] at hgroup
        rcases hgroup with ⟨rfl, rfl⟩ | ⟨rfl, rfl⟩ | ⟨rfl, rfl⟩ | ⟨rfl, rfl⟩
        · rfl
        · rfl
        · rfl
        · rfl

theorem macUsers_eq (payload : List UInt8) : macUsers payload = usersOf payload := Bits.toNat_and_low (n := 4) rfl

theorem macInfoSize_eq (payload : List UInt8) : macInfoSize payload = infoSize payload := by
  have hpairs : ∀ users < 16, (users + 1) &&& 0xfffffffe = (users + 1) / 2 * 2 := by decide
  have husers : usersOf payload < 16 := Nat.mod_lt _ (by decide)
  have hflag : wordFrom payload 0 &&& 0x20000000 ≠ 0 ↔ (wordFrom payload 0).toNat / 2 ^ 29 % 2 = 1 :=
    Bits.and_bit_ne_zero rfl
  have hmore : ((wordFrom payload 4 >>> 16) &&& 255).toNat = (wordFrom payload 4).toNat / 65536 % 256 := by
    rw [Bits.toNat_and_low (n := 8) rfl, Bits.toNat_shiftRight (by decide)]
    rfl
  rw [macInfoSize, infoSize, macUsers_eq, hpairs _ husers, hmore, Nat.mul_assoc]
  simp only [hflag]

/-! ## Chains of elements -/

section Chains

variable {payload : List UInt8} {start length offset : ℕ} {result out : PhySample} {ws : List UInt32}

/-- These elements follow each other from `offset` on and end with the block. -/
inductive Tiled (payload : List UInt8) (start length : ℕ) : ℕ → List UInt32 → Prop
  | done : Tiled payload start length length []
  | element {offset : ℕ} {ws : List UInt32}
      (pos : extent (wordFrom payload (start + offset)) ≠ 0)
      (fits : extent (wordFrom payload (start + offset)) ≤ length - offset)
      (rest : Tiled payload start length (offset + extent (wordFrom payload (start + offset))) ws) :
      Tiled payload start length offset (wordFrom payload (start + offset) :: ws)

def Coded (word : UInt32) : Prop := word.toNat % 32 = 1 ∧ codeOf word ≠ 0

instance (word : UInt32) : Decidable (Coded word) := inferInstanceAs (Decidable (_ ∧ _))

/-- The channel the element names is one of the bands, and it is valid. -/
def Names (word : UInt32) (band channel : UInt8) : Prop :=
  Stands (codeOf word) band channel ∧ Channel.validChannel ⟨band, 0, channel, channel⟩ = true

theorem extent_dvd (word : UInt32) : 8 ∣ extent word := by
  have htable : ∀ kind < 32, ∀ size ∈ fixedSize kind, 8 ∣ size := by decide
  unfold extent
  cases hfixed : fixedSize (word.toNat % 32) with
  | none => exact Nat.dvd_mul_left 8 _
  | some size => exact htable _ (Nat.mod_lt _ (by decide)) size hfixed

theorem Tiled.offset_le (h : Tiled payload start length offset ws) : offset ≤ length := by
  induction h with
  | done => exact le_rfl
  | element _ _ _ ih => exact (Nat.le_add_right _ _).trans ih

theorem Tiled.unique {ws' : List UInt32} (h : Tiled payload start length offset ws)
    (h' : Tiled payload start length offset ws') : ws = ws' := by
  induction h generalizing ws' with
  | done =>
      cases h' with
      | done => rfl
      | element pos fits _ =>
          exfalso
          apply pos
          rw [Nat.sub_self] at fits
          exact Nat.le_zero.1 fits
  | element pos fits _ ih =>
      cases h' with
      | done =>
          exfalso
          apply pos
          rw [Nat.sub_self] at fits
          exact Nat.le_zero.1 fits
      | element _ _ rest => rw [ih rest]

/-- What the chain leaves in the result, if all its channels are valid. -/
def takeAll (ws : List UInt32) (result : PhySample) : Option PhySample :=
  ws.foldlM (fun result word => takeElement word result) result

theorem takeAll_cons (word : UInt32) (ws : List UInt32) (result : PhySample) :
    takeAll (word :: ws) result = (takeElement word result).bind (takeAll ws) := rfl

/-- The loop accepts exactly the chains that end with the block and name valid channels. -/
theorem elements_iff (haligned : 8 ∣ length - offset) (hoffset : offset ≤ length) :
    (elements payload start length offset result).1 = some out ↔
      ∃ ws, Tiled payload start length offset ws ∧ takeAll ws result = some out := by
  induction offset, result using elements.induct payload start length with
  | case1 offset result hlt hshort =>
      -- What is left is a multiple of 8, so it is never shorter than a word.
      exfalso
      have hle := Nat.le_of_dvd (by omega) haligned
      omega
  | case2 offset result hlt hlong hsize =>
      rw [elements, if_pos hlt, if_neg hlong, if_pos hsize]
      rw [elementSize_eq] at hsize
      constructor
      · intro h
        cases h
      · rintro ⟨ws, htiled, -⟩
        exfalso
        cases htiled with
        | done => exact lt_irrefl _ hlt
        | element pos fits _ =>
            rcases hsize with hzero | hover
            · exact pos hzero
            · exact absurd fits (Nat.not_le_of_lt hover)
  | case3 offset result hlt hlong hsize htake =>
      rw [elements, if_pos hlt, if_neg hlong, if_neg hsize, htake]
      constructor
      · intro h
        cases h
      · rintro ⟨ws, htiled, htakeAll⟩
        exfalso
        cases htiled with
        | done => exact lt_irrefl _ hlt
        | element _ _ _ =>
            rw [takeAll_cons, htake] at htakeAll
            cases htakeAll
  | case4 offset result hlt hlong hsize result' htake _ _ _ ih =>
      rw [elements, if_pos hlt, if_neg hlong, if_neg hsize, htake]
      rw [elementSize_eq] at hsize ih ⊢
      rcases not_or.1 hsize with ⟨hpos, hfits⟩
      have hnext : offset + extent (wordFrom payload (start + offset)) ≤ length := by omega
      have haligned' : 8 ∣ length - (offset + extent (wordFrom payload (start + offset))) := by
        rw [← Nat.sub_sub]
        exact Nat.dvd_sub haligned (extent_dvd _)
      apply (ih haligned' hnext).trans
      constructor
      · rintro ⟨ws, htiled, htakeAll⟩
        refine ⟨_ :: ws, Tiled.element hpos (Nat.le_of_not_lt hfits) htiled, ?_⟩
        rw [takeAll_cons, htake]
        exact htakeAll
      · rintro ⟨ws, htiled, htakeAll⟩
        cases htiled with
        | done => exact absurd hlt (lt_irrefl _)
        | element _ _ rest =>
            rw [takeAll_cons, htake] at htakeAll
            exact ⟨_, rest, htakeAll⟩
  | case5 offset result hge =>
      rw [elements, if_neg hge]
      have hend : offset = length := le_antisymm hoffset (Nat.le_of_not_lt hge)
      subst hend
      constructor
      · intro h
        exact ⟨[], Tiled.done, h⟩
      · rintro ⟨ws, htiled, htakeAll⟩
        rw [htiled.unique Tiled.done] at htakeAll
        exact htakeAll

theorem positions_lt {a bound : ℕ} (ha : a ∈ positions start) (h : start + 4 ≤ bound) : a < bound := by
  simp only [positions, List.mem_cons, List.not_mem_nil, or_false] at ha
  omega

theorem elements_reads :
    ∀ a ∈ (elements payload start length offset result).2, a < start + length := by
  induction offset, result using elements.induct payload start length with
  | case1 offset result hlt hshort =>
      rw [elements, if_pos hlt, if_pos hshort]
      intro a ha
      cases ha
  | case2 offset result hlt hlong hsize =>
      rw [elements, if_pos hlt, if_neg hlong, if_pos hsize]
      intro a ha
      exact positions_lt ha (by omega)
  | case3 offset result hlt hlong hsize htake =>
      rw [elements, if_pos hlt, if_neg hlong, if_neg hsize, htake]
      intro a ha
      exact positions_lt ha (by omega)
  | case4 offset result hlt hlong hsize result' htake _ _ _ ih =>
      rw [elements, if_pos hlt, if_neg hlong, if_neg hsize, htake]
      intro a ha
      rcases List.mem_append.1 ha with hword | hrest
      · exact positions_lt hword (by omega)
      · exact ih a hrest
  | case5 offset result hge =>
      rw [elements, if_neg hge]
      intro a ha
      cases ha

/-! ### Channels -/

theorem takeElement_uncoded {word : UInt32} (h : ¬ Coded word) : takeElement word result = some result := by
  unfold takeElement
  rw [elementKind_eq, channelCode_eq]
  by_cases hkind : word.toNat % 32 = 1
  · have hcode : ¬ codeOf word ≠ 0 := fun hne => h ⟨hkind, hne⟩
    rw [if_pos hkind, if_neg hcode]
  · rw [if_neg hkind]

theorem takeElement_coded {word : UInt32} (h : Coded word) : takeElement word result = some out ↔
    ∃ band channel, Names word band channel ∧
      out = { result with band := band, channel := channel, channelKnown := true } := by
  unfold takeElement
  rw [elementKind_eq, channelCode_eq, if_pos h.1, if_pos h.2]
  cases hcode : decodeCode (codeOf word) with
  | none =>
      constructor
      · intro hno
        cases hno
      · rintro ⟨band, channel, hnames, -⟩
        rw [decodeCode_iff.2 hnames.1] at hcode
        cases hcode
  | some named =>
      rcases named with ⟨band, channel⟩
      dsimp only
      constructor
      · intro htake
        split at htake
        · rename_i hvalid
          exact ⟨band, channel, ⟨decodeCode_iff.1 hcode, hvalid⟩, (Option.some.inj htake).symm⟩
        · cases htake
      · rintro ⟨band', channel', ⟨hcode', hvalid⟩, hout⟩
        rw [decodeCode_iff.2 hcode'] at hcode
        cases hcode
        rw [if_pos hvalid, hout]

theorem takeAll_isSome : (∃ out, takeAll ws result = some out) ↔
    ∀ word ∈ ws, Coded word → ∃ band channel, Names word band channel := by
  induction ws generalizing result with
  | nil =>
      constructor
      · intro _ word hword
        cases hword
      · intro _
        exact ⟨result, rfl⟩
  | cons word ws ih =>
      by_cases hcoded : Coded word
      · constructor
        · rintro ⟨out, hout⟩
          rw [takeAll_cons] at hout
          rcases Option.bind_eq_some_iff.1 hout with ⟨next, hnext, hrest⟩
          rcases (takeElement_coded hcoded).1 hnext with ⟨band, channel, hnames, -⟩
          rw [List.forall_mem_cons]
          exact ⟨fun _ => ⟨band, channel, hnames⟩, ih.1 ⟨out, hrest⟩⟩
        · intro hall
          rw [List.forall_mem_cons] at hall
          rcases hall.1 hcoded with ⟨band, channel, hnames⟩
          rw [takeAll_cons, (takeElement_coded hcoded).2 ⟨band, channel, hnames, rfl⟩]
          exact ih.2 hall.2
      · rw [takeAll_cons, takeElement_uncoded hcoded, List.forall_mem_cons]
        apply ih.trans
        constructor
        · intro hrest
          exact ⟨fun h => absurd h hcoded, hrest⟩
        · intro hall
          exact hall.2

/-- The elements of a chain that name a channel. -/
def coded (ws : List UInt32) : List UInt32 := ws.filter fun word => Coded word

/-- The result has the channel of the last element that names one. -/
theorem takeAll_last (h : takeAll ws result = some out) :
    (coded ws = [] ∧ out = result) ∨
      ∃ word, (coded ws).getLast? = some word ∧ Names word out.band out.channel ∧
        out.channelKnown = true := by
  induction ws generalizing result with
  | nil => exact Or.inl ⟨rfl, (Option.some.inj h).symm⟩
  | cons word ws ih =>
      rw [takeAll_cons] at h
      rcases Option.bind_eq_some_iff.1 h with ⟨next, hnext, hrest⟩
      by_cases hcoded : Coded word
      · have hcons : coded (word :: ws) = word :: coded ws := List.filter_cons_of_pos (by simpa using hcoded)
        rcases (takeElement_coded hcoded).1 hnext with ⟨band, channel, hnames, rfl⟩
        right
        rcases ih hrest with ⟨hnone, rfl⟩ | ⟨last, hlast, hout⟩
        · refine ⟨word, ?_, hnames, rfl⟩
          rw [hcons, hnone]
          rfl
        · refine ⟨last, ?_, hout⟩
          rw [hcons, List.getLast?_cons, hlast]
          rfl
      · have hcons : coded (word :: ws) = coded ws := List.filter_cons_of_neg (by simpa using hcoded)
        rw [takeElement_uncoded hcoded] at hnext
        cases hnext
        rw [hcons]
        exact ih hrest

end Chains

/-! ## Reports -/

section Blocks

variable {info : RxInfo} {payload : List UInt8} {start length : ℕ}

theorem phyBlock_reads : ∀ a ∈ (phyBlock info payload start length).reads, a < start + length := by
  have hheader : ∀ a ∈ positions start ++ positions (start + 4), 8 ≤ length → a < start + length := by
    intro a ha hlength
    rcases List.mem_append.1 ha with hfirst | hsecond
    · exact positions_lt hfirst (by omega)
    · exact positions_lt hsecond (by omega)
  unfold phyBlock
  split
  · intro a ha
    cases ha
  · rename_i hlength
    dsimp only
    split
    · intro a ha
      exact hheader a ha (Nat.le_of_not_lt hlength)
    · generalize hloop : elements payload start length 8 _ = loop
      have hreads : ∀ a ∈ loop.2, a < start + length := by
        rw [← hloop]
        exact elements_reads
      rcases loop with ⟨_ | out, more⟩
      all_goals
        intro a ha
        rcases List.mem_append.1 ha with hhead | hmore
        · exact hheader a hhead (Nat.le_of_not_lt hlength)
        · exact hreads a hmore

/-- The checks of the header. -/
structure Header (payload : List UInt8) (start length : ℕ) : Prop where
  valid : wordFrom payload start &&& 0x80 ≠ 0
  length : ((wordFrom payload start >>> 8) &&& 255).toNat * 8 = length
  header : 11 ≤ (wordFrom payload start &&& 31).toNat

/-- What a block says about the channel. -/
structure ChannelSaid (ws : List UInt32) (out : PhySample) : Prop where
  known : out.channelKnown = true ↔ coded ws ≠ []
  last : out.channelKnown = true → ∃ word, (coded ws).getLast? = some word ∧
    Names word out.band out.channel

theorem takeAll_said {ws : List UInt32} {result out : PhySample} (hstart : result.channelKnown = false)
    (h : takeAll ws result = some out) : ChannelSaid ws out := by
  rcases takeAll_last h with ⟨hnone, rfl⟩ | ⟨word, hlast, hnames, hknown⟩
  · constructor
    · rw [hstart, hnone]
      simp
    · intro hknown
      rw [hstart] at hknown
      cases hknown
  · have hsome : coded ws ≠ [] := by
      intro hnone
      rw [hnone] at hlast
      cases hlast
    exact ⟨⟨fun _ => hsome, fun _ => hknown⟩, fun _ => ⟨word, hlast, hnames⟩⟩

/-- The channels that the elements name are valid. -/
def AllNamed (ws : List UInt32) : Prop :=
  ∀ word ∈ ws, Coded word → ∃ band channel, Names word band channel

/-- A block is accepted if its header is right and a chain of elements fills the rest of it. -/
theorem phyBlock_cases :
    ((phyBlock info payload start length).ok = true ∧ Header payload start length ∧
        ∃ ws, Tiled payload start length 8 ws ∧ AllNamed ws ∧
          ChannelSaid ws (phyBlock info payload start length).out) ∨
      ((phyBlock info payload start length).ok = false ∧
        (phyBlock info payload start length).out = {} ∧
        ¬ (Header payload start length ∧ ∃ ws, Tiled payload start length 8 ws ∧ AllNamed ws)) := by
  unfold phyBlock
  split
  · rename_i hshort
    refine Or.inr ⟨rfl, rfl, ?_⟩
    rintro ⟨-, ws, htiled, -⟩
    exact absurd htiled.offset_le (Nat.not_le_of_lt hshort)
  · rename_i hlong
    dsimp only
    split
    · rename_i hbad
      refine Or.inr ⟨rfl, rfl, ?_⟩
      rintro ⟨hheader, -⟩
      rcases hbad with hvalid | hlength | hsize
      · exact hheader.valid hvalid
      · exact hlength hheader.length
      · exact absurd (UInt32.lt_iff_toNat_lt.1 hsize) (Nat.not_lt_of_le hheader.header)
    · rename_i hgood
      simp only [not_or, not_not, UInt32.lt_iff_toNat_lt, not_lt] at hgood
      have hheader : Header payload start length := ⟨hgood.1, hgood.2.1, hgood.2.2⟩
      have haligned : 8 ∣ length - 8 := by
        rw [← hheader.length]
        exact Nat.dvd_sub (Nat.dvd_mul_left 8 _) (dvd_refl 8)
      generalize hresult : ({ rawA := _, rawB := _, dbm := _, normalized := _, ppduCount := _ } : PhySample) =
        result
      have hstart : result.channelKnown = false := by
        rw [← hresult]
      have hiff := fun out => @elements_iff payload start _ _ result out haligned (Nat.le_of_not_lt hlong)
      generalize elements payload start length 8 result = loop at hiff
      rcases loop with ⟨_ | out, more⟩
      · refine Or.inr ⟨rfl, rfl, ?_⟩
        rintro ⟨-, ws, htiled, hnamed⟩
        rcases takeAll_isSome.2 hnamed with ⟨out, hout⟩
        have hsome := (hiff out).2 ⟨ws, htiled, hout⟩
        cases hsome
      · rcases (hiff out).1 rfl with ⟨ws, htiled, hout⟩
        exact Or.inl ⟨rfl, hheader, ws, htiled, takeAll_isSome.1 ⟨out, hout⟩, takeAll_said hstart hout⟩

end Blocks

section Packets

variable {packet : RxPacket} {payload : List UInt8} {ws : List UInt32}

def blockStart (packet : RxPacket) (payload : List UInt8) : ℕ :=
  if packet.info.macInfoValid then infoSize payload else 0

/-- The report is well formed, and these are the elements of its block. -/
structure Report (packet : RxPacket) (payload : List UInt8) (ws : List UInt32) : Prop where
  present : packet.payload = some payload
  kind : packet.info.pktType = 1
  bbSel : packet.info.bbSel = false
  users : packet.info.macInfoValid = true → usersOf payload ≤ 4
  macInfo : blockStart packet payload ≤ packet.length
  header : Header payload (blockStart packet payload) (packet.length - blockStart packet payload)
  tiled : Tiled payload (blockStart packet payload) (packet.length - blockStart packet payload) 8 ws
  named : AllNamed ws

theorem Report.unique {payload' : List UInt8} {ws' : List UInt32} (h : Report packet payload ws)
    (h' : Report packet payload' ws') : ws = ws' := by
  have hpayload : payload = payload' := Option.some.inj (h.present.symm.trans h'.present)
  subst hpayload
  exact h.tiled.unique h'.tiled

/-- The block decides about a packet whose MAC information is there. -/
theorem report_of_block (hpayload : packet.payload = some payload) (hkind : packet.info.pktType = 1)
    (hbb : packet.info.bbSel = false) (husers : packet.info.macInfoValid = true → usersOf payload ≤ 4)
    {start : ℕ} (hstart : blockStart packet payload = start) (hfits : start ≤ packet.length) {block : PhyRead}
    (hblock : phyBlock packet.info payload start (packet.length - start) = block) :
    (block.ok = true ∧ ∃ payload ws, Report packet payload ws ∧ ChannelSaid ws block.out) ∨
      (block.ok = false ∧ block.out = {} ∧ ¬ ∃ payload ws, Report packet payload ws) := by
  subst hstart
  have hcases := @phyBlock_cases packet.info payload (blockStart packet payload)
    (packet.length - blockStart packet payload)
  rw [hblock] at hcases
  rcases hcases with ⟨hok, hheader, ws, htiled, hnamed, hsaid⟩ | ⟨hok, hout, hno⟩
  · exact Or.inl ⟨hok, payload, ws,
      ⟨hpayload, hkind, hbb, husers, hfits, hheader, htiled, hnamed⟩, hsaid⟩
  · refine Or.inr ⟨hok, hout, ?_⟩
    rintro ⟨payload', ws, hreport⟩
    have hsame : payload' = payload := Option.some.inj (hreport.present.symm.trans hpayload)
    subst hsame
    exact hno ⟨hreport.header, ws, hreport.tiled, hreport.named⟩

/-- A packet is accepted if it is a well-formed report. -/
theorem phySample_cases (packet : RxPacket) :
    ((phySample packet).ok = true ∧ ∃ payload ws, Report packet payload ws ∧
        ChannelSaid ws (phySample packet).out) ∨
      ((phySample packet).ok = false ∧ (phySample packet).out = {} ∧
        ¬ ∃ payload ws, Report packet payload ws) := by
  unfold phySample
  split
  · rename_i hother
    refine Or.inr ⟨rfl, rfl, ?_⟩
    rintro ⟨payload, ws, hreport⟩
    rcases hother with hkind | hbb
    · exact hkind hreport.kind
    · rw [hreport.bbSel] at hbb
      cases hbb
  · rename_i hreport
    rcases not_or.1 hreport with ⟨hkind, hbb⟩
    have hkind := not_not.1 hkind
    have hbb := Bool.eq_false_iff.2 hbb
    cases hpayload : packet.payload with
    | none =>
        refine Or.inr ⟨rfl, rfl, ?_⟩
        rintro ⟨payload, ws, hreport⟩
        rw [hreport.present] at hpayload
        cases hpayload
    | some payload =>
        have hsame : ∀ {payload' ws}, Report packet payload' ws → payload' = payload := by
          intro payload' ws hreport
          exact Option.some.inj (hreport.present.symm.trans hpayload)
        dsimp only
        split
        · rename_i hinfo
          have hstart : blockStart packet payload = infoSize payload := if_pos hinfo
          rw [macInfoSize_eq, macUsers_eq]
          split
          · -- The MAC information alone has eight bytes.
            rename_i hshort
            refine Or.inr ⟨rfl, rfl, ?_⟩
            rintro ⟨payload', ws, hreport⟩
            rw [hsame hreport] at hreport
            have hfits := hreport.macInfo
            rw [hstart, infoSize] at hfits
            omega
          · split
            · rename_i husers
              refine Or.inr ⟨rfl, rfl, ?_⟩
              rintro ⟨payload', ws, hreport⟩
              rw [hsame hreport] at hreport
              exact absurd (hreport.users hinfo) (Nat.not_le_of_lt husers)
            · rename_i husers
              split
              · rename_i hover
                refine Or.inr ⟨rfl, rfl, ?_⟩
                rintro ⟨payload', ws, hreport⟩
                rw [hsame hreport] at hreport
                have hfits := hreport.macInfo
                rw [hstart] at hfits
                exact absurd hfits (Nat.not_le_of_lt hover)
              · rename_i hover
                have hblock := report_of_block hpayload hkind hbb (fun _ => Nat.le_of_not_lt husers) hstart
                  (Nat.le_of_not_lt hover) rfl
                exact hblock
        · rename_i hinfo
          have hstart : blockStart packet payload = 0 := if_neg hinfo
          exact report_of_block hpayload hkind hbb (fun h => absurd h hinfo) hstart (Nat.zero_le _) rfl

theorem phySample_reads (packet : RxPacket) : ∀ a ∈ (phySample packet).reads, a < packet.length := by
  have hnone : ∀ a ∈ ([] : List ℕ), a < packet.length := by
    intro a ha
    cases ha
  unfold phySample
  split
  · exact hnone
  · split
    · exact hnone
    · split
      · split
        · exact hnone
        · rename_i hlong
          have hinfo : ∀ a ∈ positions 0 ++ positions 4, a < packet.length := by
            intro a ha
            rcases List.mem_append.1 ha with hfirst | hsecond
            · exact positions_lt hfirst (by omega)
            · exact positions_lt hsecond (by omega)
          dsimp only
          split
          · exact hinfo
          · split
            · exact hinfo
            · rename_i hfits
              intro a ha
              rcases List.mem_append.1 ha with hhead | hblock
              · exact hinfo a hhead
              · have hlt := phyBlock_reads a hblock
                omega
      · intro a ha
        have hlt := phyBlock_reads a ha
        rwa [Nat.zero_add] at hlt

/-- Every packet is parsed inside its payload; it is accepted exactly if it is a well-formed report; a
known channel is valid and that of the last element that names one; and what is rejected leaves nothing. -/
theorem phySample_parses (packet : RxPacket) :
    (∀ a ∈ (phySample packet).reads, a < packet.length) ∧
      ((phySample packet).ok = true ↔ ∃ payload ws, Report packet payload ws) ∧
      (∀ payload ws, Report packet payload ws →
        ((phySample packet).out.channelKnown = true ↔ coded ws ≠ []) ∧
        ((phySample packet).out.channelKnown = true → ∃ word, (coded ws).getLast? = some word ∧
          Stands (codeOf word) (phySample packet).out.band (phySample packet).out.channel ∧
          Channel.validChannel ⟨(phySample packet).out.band, 0, (phySample packet).out.channel,
            (phySample packet).out.channel⟩ = true)) ∧
      ((phySample packet).ok = false → (phySample packet).out = {}) := by
  refine ⟨phySample_reads packet, ?_⟩
  rcases phySample_cases packet with ⟨hok, payload, ws, hreport, hsaid⟩ | ⟨hok, hout, hno⟩
  · refine ⟨⟨fun _ => ⟨payload, ws, hreport⟩, fun _ => hok⟩, ?_, ?_⟩
    · intro payload' ws' hreport'
      rw [hreport'.unique hreport]
      exact ⟨hsaid.known, hsaid.last⟩
    · intro hfalse
      rw [hok] at hfalse
      cases hfalse
  · refine ⟨⟨?_, fun h => absurd h hno⟩, ?_, fun _ => hout⟩
    · intro h
      rw [hok] at h
      cases h
    · intro payload ws hreport
      exact absurd ⟨payload, ws, hreport⟩ hno

/-- A report of one element, which names a channel. -/
def channelReport : RxPacket where
  info := { pktType := 1 }
  length := 40
  payload := some ([0x8b, 5, 0, 0, 120, 100, 0, 0, 1, 0, 0x24, 0] ++ List.replicate 28 0)

/-- The fourth step above channel 36. -/
theorem phySample_parses_channel :
    (∃ payload ws, Report channelReport payload ws) ∧ (phySample channelReport).out.channelKnown = true ∧
      (phySample channelReport).out.band = 1 ∧ (phySample channelReport).out.channel = 44 := by
  have hread : (phySample channelReport).ok = true ∧ (phySample channelReport).out.channelKnown = true ∧
      (phySample channelReport).out.band = 1 ∧ (phySample channelReport).out.channel = 44 := by
    decide +kernel
  exact ⟨(phySample_parses channelReport).2.1.1 hread.1, hread.2⟩

end Packets

end StationIo
end Rtl8852be
