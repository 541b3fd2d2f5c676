import Rtl8852be.Firmware.Layout

/-!
# TableOrder — the order of the image table does not matter

`parse` goes through the table once, with early exits.  What it looks for is a property of the set of the
entries: all of them placed, any two of them apart, no type for the cut twice.  So a container whose table
is permuted is accepted with the same plan, or refused with a fault of the table as before.
-/

namespace Rtl8852be
namespace Firmware

open Checked

variable {data data' : List UInt8} {cut : UInt8} {f g : ℕ → ℕ} {i j k : ℕ}

/-! ## Two containers with the same entries -/

/-- Entry `i` of `data'` is entry `f i` of `data`; everything around the table is the same. -/
structure Reordered (data data' : List UInt8) (f g : ℕ → ℕ) : Prop where
  length_eq : data'.length = data.length
  head : ∀ p < 16, data'.getD p 0 = data.getD p 0
  behind : ∀ p, tableEnd data ≤ p → data'.getD p 0 = data.getD p 0
  image_eq : ∀ i < imageCount data, image data' i = image data (f i)
  maps : ∀ i < imageCount data, f i < imageCount data ∧ g i < imageCount data
  inverse : ∀ i < imageCount data, g (f i) = i ∧ f (g i) = i

namespace Reordered

theorem count_eq (h : Reordered data data' f g) : imageCount data' = imageCount data := by
  rw [imageCount, imageCount, h.head 1 (by decide)]

theorem tableEnd_eq (h : Reordered data data' f g) : tableEnd data' = tableEnd data := by
  rw [tableEnd, tableEnd, h.count_eq]

theorem symm (h : Reordered data data' f g) : Reordered data' data g f where
  length_eq := h.length_eq.symm
  head := fun p hp => (h.head p hp).symm
  behind := fun p hp => (h.behind p (h.tableEnd_eq ▸ hp)).symm
  image_eq := by
    intro i hi
    rw [h.count_eq] at hi
    rw [h.image_eq (g i) (h.maps i hi).2, (h.inverse i hi).2]
  maps := by
    intro i hi
    rw [h.count_eq] at hi ⊢
    exact (h.maps i hi).symm
  inverse := by
    intro i hi
    rw [h.count_eq] at hi
    exact (h.inverse i hi).symm

theorem table (h : Reordered data data' f g) (ht : Table data) : Table data' where
  count_le := h.count_eq ▸ ht.count_le
  inside := by
    rw [h.tableEnd_eq, h.length_eq]
    exact ht.inside

theorem opened (h : Reordered data data' f g) (ho : Opened data) : Opened data' where
  toTable := h.table ho.toTable
  magic := (h.head 0 (by decide)).trans ho.magic
  some_image := by
    rw [h.head 1 (by decide)]
    exact ho.some_image

theorem matches_iff (h : Reordered data data' f g) {type : UInt8} (hi : i < imageCount data) :
    Matches data' cut type i ↔ Matches data cut type (f i) := by
  rw [Matches, Matches, h.image_eq i hi]

/-- Two entries are the same if they come from the same one. -/
theorem injective (h : Reordered data data' f g) (hi : i < imageCount data) (hj : j < imageCount data)
    (heq : f i = f j) : i = j := by
  rw [← (h.inverse i hi).1, heq, (h.inverse j hj).1]

theorem unique (h : Reordered data data' f g) {type : UInt8} (hi : i < imageCount data)
    (hunique : ∀ j < imageCount data, Matches data cut type j → j = f i) :
    ∀ j < imageCount data, Matches data' cut type j → j = i := by
  intro j hj hm
  exact h.injective hj hi (hunique (f j) (h.maps j hj).1 ((h.matches_iff hj).1 hm))

theorem elected (h : Reordered data data' f g) (hi : i < imageCount data) (he : Elected data cut (f i)) :
    Elected data' cut i where
  table := h.table he.table
  mem := h.count_eq ▸ hi
  unique := by
    rw [h.count_eq]
    rcases he.unique with ⟨hm, hunique⟩ | ⟨hnone, hm, hunique⟩
    · exact Or.inl ⟨(h.matches_iff hi).2 hm, h.unique hi hunique⟩
    · refine Or.inr ⟨?_, (h.matches_iff hi).2 hm, h.unique hi hunique⟩
      intro j hj hmj
      exact hnone (f j) (h.maps j hj).1 ((h.matches_iff hj).1 hmj)
  placed := by
    intro j hj
    rw [h.count_eq] at hj
    rw [h.image_eq j hj, h.tableEnd_eq, h.length_eq]
    exact he.placed (f j) (h.maps j hj).1
  apart := by
    intro j hj k hk hne
    rw [h.count_eq] at hj hk
    rw [h.image_eq j hj, h.image_eq k hk]
    exact he.apart (f j) (h.maps j hj).1 (f k) (h.maps k hk).1 fun heq => hne (h.injective hj hk heq)
  unambiguous := by
    intro j hj k hk type htype hmj hmk
    rw [h.count_eq] at hj hk
    apply h.injective hj hk
    exact he.unambiguous (f j) (h.maps j hj).1 (f k) (h.maps k hk).1 type htype
      ((h.matches_iff hj).1 hmj) ((h.matches_iff hk).1 hmk)

end Reordered

theorem Elected.eq (hj : Elected data cut j) (hk : Elected data cut k) : j = k := by
  rcases hj.unique with ⟨hm, -⟩ | ⟨hnone, hm, -⟩
  · rcases hk.unique with ⟨-, hunique⟩ | ⟨hnone, -⟩
    · exact hunique j hj.mem hm
    · exact absurd hm (hnone j hj.mem)
  · rcases hk.unique with ⟨hm', -⟩ | ⟨-, -, hunique⟩
    · exact absurd hm' (hnone k hk.mem)
    · exact hunique j hj.mem hm

/-! ## The image is read behind the table -/

theorem le32_eq {ε : Type} {p : ℕ} (hp : p + 4 ≤ data.length) :
    (le32 data p : Reader ε UInt32) = pure (word data p) := by
  rw [le32, byteAt_eq (by omega), byteAt_eq (by omega), byteAt_eq (by omega), byteAt_eq (by omega)]
  rfl

theorem entryAt_eq (ht : Table data) (hi : i < imageCount data) : entryAt i = pure (16 + i * 16) := by
  have hcount := ht.count_le
  rw [maxImages] at hcount
  rw [entryAt, mul_eq (by omega), pure_bind, add_eq (by rw [sizeBits]; omega)]

theorem getD_drop (l : List UInt8) (p n : ℕ) : (l.drop p).getD n 0 = l.getD (p + n) 0 := by
  rw [List.getD_eq_getElem?_getD, List.getElem?_drop, ← List.getD_eq_getElem?_getD]

section Behind

variable (h : Reordered data data' f g)

include h

theorem byteAt_behind {ε : Type} {p : ℕ} (hp : tableEnd data ≤ p) :
    (byteAt data' p : Reader ε UInt8) = byteAt data p := by
  by_cases hlt : p < data.length
  · rw [byteAt_eq hlt, byteAt_eq (h.length_eq.symm ▸ hlt), h.behind p hp]
  · rw [byteAt, byteAt, dif_neg (h.length_eq.symm ▸ hlt), dif_neg hlt]

theorem little32_behind {p : ℕ} (hp : tableEnd data ≤ p) :
    Network.little32 (data'.drop p) = Network.little32 (data.drop p) := by
  have hbyte : ∀ n, (data'.drop p).getD n 0 = (data.drop p).getD n 0 := by
    intro n
    rw [getD_drop, getD_drop]
    exact h.behind (p + n) (by omega)
  rw [Network.little32, Network.little32, hbyte, hbyte, hbyte, hbyte]

theorem le32_behind {ε : Type} {p : ℕ} (hp : tableEnd data ≤ p) :
    (le32 data' p : Reader ε UInt32) = le32 data p := by
  rw [le32, le32, byteAt_behind h hp, byteAt_behind h (p := p + 1) (by omega),
    byteAt_behind h (p := p + 2) (by omega), byteAt_behind h (p := p + 3) (by omega), little32_behind h hp]

theorem readHeader_reordered (hi : i < imageCount data) (he : Elected data cut (f i)) :
    readHeader data' cut i = readHeader data cut (f i) := by
  have hmaps := (h.maps i hi).1
  have ht := he.table
  have ht' := h.table ht
  have hi' : i < imageCount data' := h.count_eq.symm ▸ hi
  have hentry := ht.entry hmaps
  have hentry' := ht'.entry hi'
  have hsame := h.image_eq i hi
  have htype : data'.getD (16 + i * 16 + 1) 0 = data.getD (16 + f i * 16 + 1) 0 := congrArg Image.type hsame
  have hoffset : (word data' (16 + i * 16 + 4)).toNat = (word data (16 + f i * 16 + 4)).toNat :=
    congrArg Image.offset hsame
  have hbytes : (word data' (16 + i * 16 + 8)).toNat = (word data (16 + f i * 16 + 8)).toNat :=
    congrArg Image.bytes hsame
  have hplaced : tableEnd data ≤ (word data (16 + f i * 16 + 4)).toNat := (he.placed (f i) hmaps).2.1
  rw [readHeader, readHeader, entryAt_eq ht hmaps, entryAt_eq ht' hi', pure_bind, pure_bind,
    byteAt_eq (by omega), byteAt_eq (by omega), le32_eq (by omega), le32_eq (by omega),
    le32_eq (by omega), le32_eq (by omega)]
  simp only [pure_bind, htype, hoffset, hbytes]
  -- What is left is read from the image.
  simp (disch := omega) only [byteAt_behind h, le32_behind h]

theorem readDynamic_behind {plan : Plan} (hp : tableEnd data ≤ plan.imageOffset) :
    readDynamic data' plan = readDynamic data plan := by
  simp (disch := omega) only [readDynamic, le32_behind h, byteAt_behind h]

theorem readSection_behind {plan : Plan} {cursor : ℕ} (hp : tableEnd data ≤ plan.imageOffset) :
    readSection data' plan cursor i = readSection data plan cursor i := by
  simp (disch := omega) only [readSection, isMultiSigned, le32_behind h]

theorem readSections_behind : ∀ (n i cursor : ℕ) (plan : Plan), tableEnd data ≤ plan.imageOffset →
    readSections data' n i cursor plan = readSections data n i cursor plan := by
  intro n
  induction n with
  | zero => exact fun _ _ _ _ => rfl
  | succ n ih =>
      intro i cursor plan hp
      simp only [readSections, readSection_behind h hp]
      -- The next plan is for the same image.
      refine bind_congr fun s => bind_congr fun cursor => bind_congr fun total => bind_congr fun last => ?_
      exact bind_congr fun count => ih _ _ _ hp

theorem readImage_reordered (hi : i < imageCount data) (he : Elected data cut (f i)) :
    readImage data' cut i = readImage data cut (f i) := by
  rw [readImage, readImage, readHeader_reordered h hi he]
  rcases (safe_readHeader he.toSelected).ends with ⟨status, -, heq⟩ | ⟨plan, hplan, heq⟩
  · rw [heq, error_bind, error_bind]
  have hp : tableEnd data ≤ plan.imageOffset := by
    rw [hplan.imageOffset]
    exact (he.placed (f i) he.mem).2.1
  rw [heq, ok_bind, ok_bind, readDynamic_behind h hp]
  rcases (safe_readDynamic hplan).ends with ⟨status, -, heq⟩ | ⟨plan', hplan', heq⟩
  · rw [heq, error_bind, error_bind]
  have hp' : tableEnd data ≤ plan'.imageOffset := by
    rw [hplan'.imageOffset]
    exact (he.placed (f i) he.mem).2.1
  rw [heq, ok_bind, ok_bind, readSections_behind h _ _ _ _ hp']

/-- Either both searches find the same image, or neither container has one and both end with a fault of
the same kind. -/
theorem readPlan_reordered :
    readPlan data' cut = readPlan data cut ∨
      ∃ status status', status ≠ .ok ∧ tableFault status = tableFault status' ∧
        readPlan data cut = .error (.early status) ∧ readPlan data' cut = .error (.early status') := by
  rw [readPlan_eq, readPlan_eq]
  rcases (@safe_select data cut).ends with ⟨status, hjudged, heq⟩ | ⟨k, ⟨ho, he⟩, heq⟩
  · rcases (@safe_select data' cut).ends with ⟨status', hjudged', heq'⟩ | ⟨i, ⟨ho', he'⟩, heq'⟩
    · refine Or.inr ⟨status, status', hjudged.1, ?_, by rw [heq, error_bind], by rw [heq', error_bind]⟩
      have hiff : tableFault status = true ↔ tableFault status' = true := by
        rw [hjudged.2.1, hjudged'.2.1]
        exact ⟨h.opened, h.symm.opened⟩
      exact Bool.eq_iff_iff.2 hiff
    · -- An image of the other container is one of this.
      have hi : i < imageCount data := h.count_eq ▸ he'.mem
      have hmaps := h.maps i hi
      have he : Elected data cut (f i) := by
        refine h.symm.elected (h.count_eq.symm ▸ hmaps.1) ?_
        rw [(h.inverse i hi).1]
        exact he'
      exact absurd he (hjudged.2.2 (h.symm.opened ho') (f i))
  · have hg := (h.maps k he.mem).2
    have hback : f (g k) = k := (h.inverse k he.mem).2
    have he' : Elected data' cut (g k) := h.elected hg (hback.symm ▸ he)
    rcases (@safe_select data' cut).ends with ⟨status', hjudged', heq'⟩ | ⟨i, ⟨-, hi⟩, heq'⟩
    · exact absurd he' (hjudged'.2.2 (h.opened ho) (g k))
    · refine Or.inl ?_
      rw [heq, heq', hi.eq he']
      show readImage data' cut (g k) = readImage data cut k
      rw [readImage_reordered h hg (hback.symm ▸ he), hback]

end Behind

/-! ## Every permutation of the table -/

variable {n : ℕ}

/-- The entry that comes to place `i`. -/
def entryOf (σ : Equiv.Perm (Fin n)) (i : ℕ) : ℕ := if h : i < n then σ ⟨i, h⟩ else i

/-- Where byte `p` of the permuted container comes from. -/
def origin (σ : Equiv.Perm (Fin n)) (p : ℕ) : ℕ :=
  if 16 ≤ p ∧ p < 16 + n * 16 then 16 + entryOf σ ((p - 16) / 16) * 16 + (p - 16) % 16 else p

def reorder (σ : Equiv.Perm (Fin n)) (data : List UInt8) : List UInt8 :=
  List.ofFn fun p : Fin data.length => data.getD (origin σ p) 0

/-- The container with its table entries permuted. -/
def Container.reorder (data : Container) (σ : Equiv.Perm (Fin n)) : Container where
  bytes := Firmware.reorder σ data.bytes
  addressable := by
    rw [Firmware.reorder, List.length_ofFn]
    exact data.addressable

variable {σ : Equiv.Perm (Fin n)}

theorem entryOf_lt (hi : i < n) : entryOf σ i < n := by
  rw [entryOf, dif_pos hi]
  exact (σ ⟨i, hi⟩).isLt

theorem entryOf_symm (hi : i < n) : entryOf σ.symm (entryOf σ i) = i := by
  rw [entryOf, dif_pos (entryOf_lt hi)]
  simp only [entryOf, dif_pos hi, Fin.eta, Equiv.symm_apply_apply]

theorem length_reorder : (reorder σ data).length = data.length := List.length_ofFn

theorem getD_reorder {p : ℕ} (hp : p < data.length) :
    (reorder σ data).getD p 0 = data.getD (origin σ p) 0 := by
  have hp' : p < (reorder σ data).length := length_reorder.symm ▸ hp
  have helem : (reorder σ data)[p] = data.getD (origin σ p) 0 := List.getElem_ofFn hp'
  rw [List.getD_eq_getElem?_getD, List.getElem?_eq_getElem hp', Option.getD_some, helem]

/-- Outside the table nothing moves, and neither does what is not there. -/
theorem getD_reorder_outside {p : ℕ} (hp : p < 16 ∨ 16 + n * 16 ≤ p) :
    (reorder σ data).getD p 0 = data.getD p 0 := by
  by_cases hlt : p < data.length
  · rw [getD_reorder hlt, origin, if_neg (by omega)]
  · have hlt' : (reorder σ data).length ≤ p := length_reorder.symm ▸ not_lt.1 hlt
    rw [List.getD_eq_getElem?_getD, List.getElem?_eq_none hlt', List.getD_eq_getElem?_getD,
      List.getElem?_eq_none (not_lt.1 hlt)]

theorem getD_reorder_entry (hinside : 16 + n * 16 ≤ data.length) (hi : i < n) (hk : k < 16) :
    (reorder σ data).getD (16 + i * 16 + k) 0 = data.getD (16 + entryOf σ i * 16 + k) 0 := by
  have hdiv : (16 + i * 16 + k - 16) / 16 = i := by omega
  have hmod : (16 + i * 16 + k - 16) % 16 = k := by omega
  rw [getD_reorder (by omega), origin, if_pos (by omega), hdiv, hmod]

theorem word_reorder (hinside : 16 + n * 16 ≤ data.length) (hi : i < n) (hk : k + 4 ≤ 16) :
    word (reorder σ data) (16 + i * 16 + k) = word data (16 + entryOf σ i * 16 + k) := by
  have hbyte : ∀ b < 4, ((reorder σ data).drop (16 + i * 16 + k)).getD b 0 =
      (data.drop (16 + entryOf σ i * 16 + k)).getD b 0 := by
    intro b hb
    rw [getD_drop, getD_drop, Nat.add_assoc (16 + i * 16), Nat.add_assoc (16 + entryOf σ i * 16)]
    exact getD_reorder_entry hinside hi (by omega)
  rw [word, word, Network.little32, Network.little32, hbyte 0 (by decide), hbyte 1 (by decide),
    hbyte 2 (by decide), hbyte 3 (by decide)]

theorem reordered_reorder (ht : Table data) (hn : n = imageCount data) :
    Reordered data (reorder σ data) (entryOf σ) (entryOf σ.symm) where
  length_eq := length_reorder
  head := fun p hp => getD_reorder_outside (Or.inl hp)
  behind := by
    intro p hp
    rw [tableEnd, ← hn] at hp
    exact getD_reorder_outside (Or.inr hp)
  image_eq := by
    intro i hi
    have hinside := ht.inside
    rw [tableEnd, ← hn] at hinside
    rw [← hn] at hi
    have hfirst := getD_reorder_entry (σ := σ) (k := 0) hinside hi (by decide)
    rw [image, image, word_reorder hinside hi (by decide), word_reorder hinside hi (by decide),
      getD_reorder_entry hinside hi (by decide), getD_reorder_entry hinside hi (by decide)]
    rw [Nat.add_zero, Nat.add_zero] at hfirst
    rw [hfirst]
  maps := by
    intro i hi
    rw [← hn] at hi ⊢
    exact ⟨entryOf_lt hi, entryOf_lt hi⟩
  inverse := by
    intro i hi
    rw [← hn] at hi
    exact ⟨entryOf_symm hi, entryOf_symm (σ := σ.symm) hi⟩

/-- What `parse` makes of a container with a table is the same in every order of its entries, but for the
name of the fault. -/
theorem parse_reorder (data : Container) (cut : UInt8) (σ : Equiv.Perm (Fin (imageCount data.bytes))) :
    (∀ plan, parse (some data) cut = .ok (.ok, plan) →
      parse (some (data.reorder σ)) cut = .ok (.ok, plan)) ∧
    ∀ status plan, parse (some data) cut = .ok (status, plan) → tableFault status = true →
      ∃ status', tableFault status' = true ∧ parse (some (data.reorder σ)) cut = .ok (status', {}) := by
  have hsame : Opened data.bytes → readPlan (data.reorder σ).bytes cut = readPlan data.bytes cut ∨
      ∃ status status', status ≠ .ok ∧ tableFault status = tableFault status' ∧
        readPlan data.bytes cut = .error (.early status) ∧
        readPlan (data.reorder σ).bytes cut = .error (.early status') :=
    fun ho => readPlan_reordered (reordered_reorder ho.toTable rfl)
  have hopen : ∀ status plan, parse (some data) cut = .ok (status, plan) →
      status = .ok ∨ tableFault status = true → Opened data.bytes := by
    intro status plan hparse hstatus
    rcases (@safe_select data.bytes cut).ends with ⟨early, hjudged, heq⟩ | ⟨k, ⟨ho, -⟩, -⟩
    · have hread : parse (some data) cut = .ok (early, {}) := by
        rw [parse, readPlan_eq, heq]
        rfl
      rw [hread] at hparse
      cases hparse
      rcases hstatus with hok | hfault
      · exact absurd hok hjudged.1
      · exact hjudged.2.1.1 hfault
    · exact ho
  refine ⟨fun plan hparse => ?_, fun status plan hparse hfault => ?_⟩
  · rcases hsame (hopen _ _ hparse (Or.inl rfl)) with heq | ⟨status, status', hne, -, heq, -⟩
    · rw [parse] at hparse ⊢
      rw [heq]
      exact hparse
    · rw [parse, heq] at hparse
      cases hparse
      exact absurd rfl hne
  · rcases hsame (hopen _ _ hparse (Or.inr hfault)) with heq | ⟨early, early', -, hboth, heq, heq'⟩
    · refine ⟨status, hfault, ?_⟩
      rcases parse_cases (some data) cut with ⟨status', -, hempty⟩ | ⟨c, plan', -, hok, -⟩
      · rw [parse] at hparse hempty ⊢
        rw [heq, hempty]
        rw [hempty] at hparse
        cases hparse
        rfl
      · rw [hok] at hparse
        cases hparse
        cases hfault
    · rw [parse, heq] at hparse
      cases hparse
      refine ⟨early', hboth.symm.trans hfault, ?_⟩
      rw [parse, heq']
      rfl

/-- Two images, the first for cut 2 and the second for cut 1. -/
def pairContainer : Container where
  bytes :=
    [0xff, 2, 0, 0, 0, 0, 0, 0, 0, 0, 0, 0, 0, 0, 0, 0,
      2, 5, 0, 0, 100, 0, 0, 0, 4, 0, 0, 0, 0, 0, 0, 0,
      1, 5, 0, 0, 48, 0, 0, 0, 52, 0, 0, 0, 0, 0, 0, 0,
      0, 0, 0x52, 0x88, 0, 0, 0, 0, 0, 0, 0, 0, 0, 0, 0, 0,
      0, 0, 0, 0, 0, 0, 0, 0, 0, 1, 0, 0, 0, 0, 0, 0,
      0, 0, 0, 0, 4, 0, 0, 1, 0, 0, 0, 0, 0, 0, 0, 0,
      1, 2, 3, 4, 5, 6, 7, 8]
  addressable := by decide

def pairPlan : Plan where
  imageOffset := 48
  imageBytes := 52
  headerBytes := 48
  baseHeaderBytes := 48
  packetCount := 1
  cut := 1
  type := 5
  sectionCount := 1
  sections := [{ offset := 96, payloadBytes := 4, transferBytes := 4, metadata := 0x1000004, type := 1 }]
  valid := true

/-- The other way round the table begins with the image for cut 1, and the plan is the same. -/
theorem parse_reorder_pair :
    parse (some (pairContainer.reorder (finRotate (imageCount pairContainer.bytes)))) 1 = .ok (.ok, pairPlan) ∧
      (pairContainer.reorder (finRotate (imageCount pairContainer.bytes))).bytes.getD 16 0 = 1 := by
  refine ⟨(parse_reorder pairContainer 1 _).1 pairPlan ?_, ?_⟩
  · decide +kernel
  · decide +kernel

end Firmware
end Rtl8852be
