import Rtl8852be.Firmware.FirmwarePlan
import Rtl8852be.Sequence.Pieces

/-!
# Layout — what a firmware plan says about its container

`parse` never reads outside the container and its arithmetic never wraps.  An accepted container has one
image for the cut, apart from everything else in it, and the sections of the plan tile that image behind
its header.
-/

namespace Rtl8852be
namespace Firmware

open Checked Sequence

variable {data : List UInt8} {cut : UInt8} {i j : ℕ}

/-! ## Reading -/

/-- The word at `p`. -/
def word (data : List UInt8) (p : ℕ) : UInt32 := Network.little32 (data.drop p)

theorem safe_le32 {ε : Type} {F : ε → Prop} {p : ℕ} (h : p + 4 ≤ data.length) :
    Safe F (fun w => w = word data p) (le32 data p) := by
  refine (Safe.byteAt (by omega)).bind fun _ _ => (Safe.byteAt (by omega)).bind fun _ _ => ?_
  refine (Safe.byteAt (by omega)).bind fun _ _ => (Safe.byteAt (by omega)).bind fun _ _ => ?_
  exact Safe.pure rfl

/-- Statuses with which `parse` leaves no plan. -/
def Refused (status : Status) : Prop := status ≠ .ok

/-- The statuses of the search through the table. -/
def tableFault : Status → Bool
  | .imageBounds | .imageOverlap | .ambiguousImage | .noMatchingImage => true
  | _ => false

def Malformed (status : Status) : Prop := status ≠ .ok ∧ tableFault status = false

variable {F : Status → Prop}

theorem safe_fits {offset bytes total : ℕ} :
    Safe F (fun b => b = decide (offset + bytes ≤ total)) (fits offset bytes total) := by
  refine Safe.ite (fun hle => ?_) fun hlt => ?_
  · refine (Safe.sub hle).bind fun left hleft => Safe.pure ?_
    rw [hleft, decide_eq_decide]
    omega
  · refine Safe.pure ?_
    rw [eq_comm, decide_eq_false_iff_not]
    omega

/-! ## The table -/

/-- An entry of the table. -/
structure Image where
  cut : UInt8
  type : UInt8
  flags : UInt8
  offset : ℕ
  bytes : ℕ

def image (data : List UInt8) (i : ℕ) : Image where
  cut := data.getD (16 + i * 16) 0
  type := data.getD (16 + i * 16 + 1) 0
  flags := data.getD (16 + i * 16 + 2) 0
  offset := (word data (16 + i * 16 + 4)).toNat
  bytes := (word data (16 + i * 16 + 8)).toNat

def Apart (a b : Image) : Prop := a.offset + a.bytes ≤ b.offset ∨ b.offset + b.bytes ≤ a.offset

def imageCount (data : List UInt8) : ℕ := (data.getD 1 0).toNat

def tableEnd (data : List UInt8) : ℕ := 16 + imageCount data * 16

def Matches (data : List UInt8) (cut type : UInt8) (i : ℕ) : Prop :=
  (image data i).cut = cut ∧ (image data i).flags = 0 ∧ (image data i).type = type

/-- The table lies inside the container, and its entries can be counted. -/
structure Table (data : List UInt8) : Prop where
  count_le : imageCount data ≤ maxImages
  inside : tableEnd data ≤ data.length

theorem safe_entryAt (ht : Table data) (hi : i < imageCount data) :
    Safe F (fun entry => entry = 16 + i * 16) (entryAt i) := by
  have hcount := ht.count_le
  rw [maxImages] at hcount
  refine (Safe.mul (by omega)).bind fun skip hskip => ?_
  rw [hskip]
  exact Safe.add (by rw [sizeBits]; omega)

theorem Table.entry (ht : Table data) (hi : i < imageCount data) : 16 + i * 16 + 16 ≤ data.length := by
  have hinside := ht.inside
  rw [tableEnd] at hinside
  omega

/-- What the search through the table may report, and when. -/
structure Reports (data : List UInt8) (cut : UInt8) (F : Status → Prop) : Prop where
  bounds : ∀ k < imageCount data,
    ¬ ((image data k).bytes ≠ 0 ∧ tableEnd data ≤ (image data k).offset ∧
      (image data k).offset + (image data k).bytes ≤ data.length) → F .imageBounds
  overlap : ∀ k < imageCount data, ∀ j < k, ¬ Apart (image data k) (image data j) → F .imageOverlap
  ambiguous : ∀ k < imageCount data, ∀ j < k, ∀ type : UInt8, type = 5 ∨ type = 1 →
    Matches data cut type j → Matches data cut type k → F .ambiguousImage

theorem safe_checkOverlap (ht : Table data) (hj : j < imageCount data) (hsome : (image data i).bytes ≠ 0)
    (hF : ¬ Apart (image data i) (image data j) → F .imageOverlap) :
    Safe F (fun _ => Apart (image data i) (image data j))
      (checkOverlap data (image data i).offset (image data i).bytes j) := by
  have hentry := ht.entry hj
  refine (safe_entryAt ht hj).bind fun prior hprior => ?_
  rw [hprior]
  refine (safe_le32 (by omega)).bind fun p hp => (safe_le32 (by omega)).bind fun n hn => ?_
  rw [hp, hn]
  -- In either order the gap decides whether the two are apart.
  have hiff : Apart (image data i) (image data j) ↔
      (image data i).offset + (image data i).bytes ≤ (image data j).offset ∨
        (image data j).offset + (image data j).bytes ≤ (image data i).offset := Iff.rfl
  simp only [image] at hiff hsome
  refine Safe.ite (fun hle => ?_) fun hlt => ?_
  · refine (Safe.sub hle).bind fun gap hgap => Safe.ite (fun hnear => ?_) fun hfar => ?_
    · refine Safe.early (hF fun hapart => ?_)
      have hboth := hiff.1 hapart
      simp only [image] at hle hgap hnear
      omega
    · refine Safe.pure (hiff.2 (Or.inr ?_))
      simp only [image] at hle hgap hfar
      omega
  · refine (Safe.sub (by omega)).bind fun gap hgap => Safe.ite (fun hnear => ?_) fun hfar => ?_
    · refine Safe.early (hF fun hapart => ?_)
      have hboth := hiff.1 hapart
      simp only [image] at hlt hgap hnear
      omega
    · refine Safe.pure (hiff.2 (Or.inl ?_))
      simp only [image] at hlt hgap hfar
      omega

theorem safe_checkOverlaps (ht : Table data) (hsome : (image data i).bytes ≠ 0)
    (hF : ∀ j < i, ¬ Apart (image data i) (image data j) → F .imageOverlap) (hi : i < imageCount data) :
    ∀ n j : ℕ, j + n ≤ i →
    Safe F (fun _ => ∀ k, j ≤ k → k < j + n → Apart (image data i) (image data k))
      (checkOverlaps data (image data i).offset (image data i).bytes n j) := by
  intro n
  induction n with
  | zero =>
      intro j _
      refine Safe.pure fun k hjk hk => ?_
      omega
  | succ n ih =>
      intro j hle
      refine (safe_checkOverlap ht (by omega) hsome (hF j (by omega))).bind fun _ hj => ?_
      refine (ih (j + 1) (by omega)).mono fun _ hrest k hjk hk => ?_
      rcases Nat.eq_or_lt_of_le hjk with rfl | hlt
      · exact hj
      · exact hrest k hlt (by omega)

/-- The one entry before `i` that satisfies `p`, if there is one. -/
def Chosen (p : ℕ → Prop) (i : ℕ) : Option ℕ → Prop
  | some k => k < i ∧ p k ∧ ∀ j < i, p j → j = k
  | none => ∀ j < i, ¬ p j

theorem Chosen.skip {p : ℕ → Prop} {o : Option ℕ} (h : Chosen p i o) (hi : ¬ p i) :
    Chosen p (i + 1) o := by
  cases o with
  | none =>
      intro j hj hp
      rcases Nat.lt_succ_iff_lt_or_eq.1 hj with hlt | rfl
      · exact h j hlt hp
      · exact hi hp
  | some k =>
      refine ⟨h.1.trans (Nat.lt_succ_self i), h.2.1, fun j hj hp => ?_⟩
      rcases Nat.lt_succ_iff_lt_or_eq.1 hj with hlt | rfl
      · exact h.2.2 j hlt hp
      · exact absurd hp hi

theorem Chosen.first {p : ℕ → Prop} (h : Chosen p i none) (hi : p i) : Chosen p (i + 1) (some i) := by
  refine ⟨Nat.lt_succ_self i, hi, fun j hj hp => ?_⟩
  rcases Nat.lt_succ_iff_lt_or_eq.1 hj with hlt | rfl
  · exact absurd hp (h j hlt)
  · rfl

/-- The choice among the first `i` entries. -/
structure Choosing (data : List UInt8) (cut : UInt8) (i : ℕ) (c : Choice) : Prop where
  ce : Chosen (Matches data cut 5) i c.ce
  normal : Chosen (Matches data cut 1) i c.normal

theorem safe_choose {c : Choice} (ht : Table data) (hF : Reports data cut F) (hi : i < imageCount data)
    (hc : Choosing data cut i c) :
    Safe F (Choosing data cut (i + 1)) (choose data cut (16 + i * 16) i c) := by
  have hentry := ht.entry hi
  have hbyte : ∀ k < 16, Safe F (fun b => b = data.getD (16 + i * 16 + k) 0)
      (byteAt data (16 + i * 16 + k)) := by
    intro k hk
    exact Safe.byteAt (by omega)
  refine (hbyte 0 (by decide)).bind fun b hb => Safe.ite (fun hcut => ?_) fun hcut => ?_
  · refine Safe.pure ⟨hc.ce.skip ?_, hc.normal.skip ?_⟩
    · exact fun hm => hcut (hb.trans hm.1)
    · exact fun hm => hcut (hb.trans hm.1)
  refine (hbyte 2 (by decide)).bind fun f hf => Safe.ite (fun hflags => ?_) fun hflags => ?_
  · refine Safe.pure ⟨hc.ce.skip ?_, hc.normal.skip ?_⟩
    · exact fun hm => hflags (hf.trans hm.2.1)
    · exact fun hm => hflags (hf.trans hm.2.1)
  -- The entry is for the cut: what remains is its type.
  have hmatches : ∀ {type : UInt8}, Matches data cut type i ↔ data.getD (16 + i * 16 + 1) 0 = type := by
    intro type
    exact ⟨fun hm => hm.2.2, fun htype => ⟨hb.symm.trans (not_not.1 hcut),
      hf.symm.trans (not_not.1 hflags), htype⟩⟩
  refine (hbyte 1 (by decide)).bind fun type htype => Safe.ite (fun hce => ?_) fun hce => ?_
  · rw [htype] at hce
    refine Safe.ite (fun htwo => ?_) fun hnone => Safe.pure ⟨?_, hc.normal.skip ?_⟩
    · rcases Option.isSome_iff_exists.1 htwo with ⟨j, hj⟩
      have hfirst := hc.ce
      rw [hj] at hfirst
      exact Safe.early (hF.ambiguous i hi j hfirst.1 5 (Or.inl rfl) hfirst.2.1 (hmatches.2 hce))
    · rw [Bool.not_eq_true, Option.isSome_eq_false_iff, Option.isNone_iff_eq_none] at hnone
      have hfirst := hc.ce
      rw [hnone] at hfirst
      exact hfirst.first (hmatches.2 hce)
    · rw [hmatches, hce]
      decide
  refine (hbyte 1 (by decide)).bind fun type' htype' => Safe.ite (fun hnormal => ?_) fun hnormal => ?_
  · rw [htype'] at hnormal
    refine Safe.ite (fun htwo => ?_) fun hnone => Safe.pure ⟨hc.ce.skip ?_, ?_⟩
    · rcases Option.isSome_iff_exists.1 htwo with ⟨j, hj⟩
      have hfirst := hc.normal
      rw [hj] at hfirst
      exact Safe.early (hF.ambiguous i hi j hfirst.1 1 (Or.inr rfl) hfirst.2.1 (hmatches.2 hnormal))
    · rw [hmatches, hnormal]
      decide
    · rw [Bool.not_eq_true, Option.isSome_eq_false_iff, Option.isNone_iff_eq_none] at hnone
      have hfirst := hc.normal
      rw [hnone] at hfirst
      exact hfirst.first (hmatches.2 hnormal)
  · refine Safe.pure ⟨hc.ce.skip ?_, hc.normal.skip ?_⟩
    · rw [hmatches, ← htype]
      exact hce
    · rw [hmatches, ← htype']
      exact hnormal

/-- The first `i` entries have been looked at. -/
structure Scanned (data : List UInt8) (cut : UInt8) (i : ℕ) (c : Choice) : Prop
    extends Choosing data cut i c where
  placed : ∀ k < i, (image data k).bytes ≠ 0 ∧ tableEnd data ≤ (image data k).offset ∧
    (image data k).offset + (image data k).bytes ≤ data.length
  apart : ∀ k < i, ∀ j < k, Apart (image data k) (image data j)

theorem safe_scanEntry {c : Choice} (ht : Table data) (hF : Reports data cut F) (hi : i < imageCount data)
    (hc : Scanned data cut i c) :
    Safe F (Scanned data cut (i + 1)) (scanEntry data cut (tableEnd data) i c) := by
  have hentry := ht.entry hi
  refine (safe_entryAt ht hi).bind fun entry hentry' => ?_
  rw [hentry']
  refine (safe_le32 (by omega)).bind fun start hstart => (safe_le32 (by omega)).bind fun length hlength => ?_
  have hoffset : start.toNat = (image data i).offset := congrArg UInt32.toNat hstart
  have hbytes : length.toNat = (image data i).bytes := congrArg UInt32.toNat hlength
  rw [hoffset, hbytes]
  refine Safe.ite (fun hbad => ?_) fun hplace => ?_
  · refine Safe.early (hF.bounds i hi fun hgood => ?_)
    rcases hbad with hzero | hlow
    · exact hgood.1 hzero
    · omega
  rw [not_or, not_lt] at hplace
  refine safe_fits.bind fun fit hfit => Safe.ite (fun hyes => ?_) fun hno => ?_
  swap
  · rw [hfit, decide_eq_true_iff] at hno
    exact Safe.early (hF.bounds i hi fun hgood => hno hgood.2.2)
  rw [hfit, decide_eq_true_iff] at hyes
  refine (safe_checkOverlaps ht hplace.1 (hF.overlap i hi) hi i 0 (by omega)).bind fun _ hapart => ?_
  refine (safe_choose ht hF hi hc.toChoosing).mono fun c' hc' => ⟨hc', fun k hk => ?_, fun k hk j hj => ?_⟩
  · rcases Nat.lt_succ_iff_lt_or_eq.1 hk with hlt | rfl
    · exact hc.placed k hlt
    · exact ⟨hplace.1, hplace.2, hyes⟩
  · rcases Nat.lt_succ_iff_lt_or_eq.1 hk with hlt | rfl
    · exact hc.apart k hlt j hj
    · exact hapart j (Nat.zero_le j) (by omega)

theorem safe_scan (ht : Table data) (hF : Reports data cut F) : ∀ (n i : ℕ) (c : Choice), i + n ≤ imageCount data →
    Scanned data cut i c →
    Safe F (Scanned data cut (i + n)) (scan data cut (tableEnd data) n i c) := by
  intro n
  induction n with
  | zero =>
      intro i c _ hc
      exact Safe.pure hc
  | succ n ih =>
      intro i c hle hc
      refine (safe_scanEntry ht hF (by omega) hc).bind fun c' hc' => ?_
      rw [show i + (n + 1) = i + 1 + n by omega]
      exact ih (i + 1) c' (by omega) hc'

theorem Apart.symm {a b : Image} (h : Apart a b) : Apart b a := Or.symm h

/-- The table is well formed, and this is the image for the cut: the only CE image or, where there is no
such image, the only normal one. -/
structure Selected (data : List UInt8) (cut : UInt8) (k : ℕ) : Prop where
  table : Table data
  mem : k < imageCount data
  unique : (Matches data cut 5 k ∧ ∀ j < imageCount data, Matches data cut 5 j → j = k) ∨
    ((∀ j < imageCount data, ¬ Matches data cut 5 j) ∧
      Matches data cut 1 k ∧ ∀ j < imageCount data, Matches data cut 1 j → j = k)
  placed : ∀ j < imageCount data, (image data j).bytes ≠ 0 ∧ tableEnd data ≤ (image data j).offset ∧
    (image data j).offset + (image data j).bytes ≤ data.length
  apart : ∀ i < imageCount data, ∀ j < imageCount data, i ≠ j → Apart (image data i) (image data j)

/-- The search finds this image: besides, no type it looks for occurs twice. -/
structure Elected (data : List UInt8) (cut : UInt8) (k : ℕ) : Prop extends Selected data cut k where
  unambiguous : ∀ i < imageCount data, ∀ j < imageCount data, ∀ type : UInt8, type = 5 ∨ type = 1 →
    Matches data cut type i → Matches data cut type j → i = j

theorem Chosen.eq {p : ℕ → Prop} {o : Option ℕ} (h : Chosen p i o) {j k : ℕ} (hj : j < i) (hk : k < i)
    (hpj : p j) (hpk : p k) : j = k := by
  cases o with
  | none => exact absurd hpj (h j hj)
  | some n => exact (h.2.2 j hj hpj).trans (h.2.2 k hk hpk).symm

theorem Scanned.elected {c : Choice} {k : ℕ} (hs : Scanned data cut (imageCount data) c)
    (ht : Table data) (hk : c.ce = some k ∨ c.ce = none ∧ c.normal = some k) :
    Elected data cut k := by
  have hapart : ∀ i < imageCount data, ∀ j < imageCount data, i ≠ j →
      Apart (image data i) (image data j) := by
    intro i hi j hj hne
    rcases Nat.lt_or_gt_of_ne hne with hlt | hlt
    · exact (hs.apart j hj i hlt).symm
    · exact hs.apart i hi j hlt
  have honce : ∀ i < imageCount data, ∀ j < imageCount data, ∀ type : UInt8, type = 5 ∨ type = 1 →
      Matches data cut type i → Matches data cut type j → i = j := by
    intro i hi j hj type htype hmi hmj
    rcases htype with rfl | rfl
    · exact hs.ce.eq hi hj hmi hmj
    · exact hs.normal.eq hi hj hmi hmj
  have hce := hs.ce
  have hnormal := hs.normal
  rcases hk with hk | ⟨hnone, hk⟩
  · rw [hk] at hce
    exact ⟨⟨ht, hce.1, Or.inl hce.2, hs.placed, hapart⟩, honce⟩
  · rw [hnone] at hce
    rw [hk] at hnormal
    exact ⟨⟨ht, hnormal.1, Or.inr ⟨hce, hnormal.2⟩, hs.placed, hapart⟩, honce⟩

/-- The table can be searched. -/
structure Opened (data : List UInt8) : Prop extends Table data where
  magic : data.getD 0 0 = 0xff
  some_image : data.getD 1 0 ≠ 0

/-- A refusal is a fault of the table exactly if the table can be searched, and then no image is found. -/
def Judged (data : List UInt8) (cut : UInt8) (status : Status) : Prop :=
  status ≠ .ok ∧ (tableFault status = true ↔ Opened data) ∧ (Opened data → ∀ k, ¬ Elected data cut k)

theorem Judged.unopened {status : Status} (hok : status ≠ .ok) (hfault : tableFault status = false)
    (h : ¬ Opened data) : Judged data cut status := by
  refine ⟨hok, ⟨fun htrue => ?_, fun ho => absurd ho h⟩, fun ho => absurd ho h⟩
  rw [hfault] at htrue
  cases htrue

theorem Judged.opened {status : Status} (hok : status ≠ .ok) (hfault : tableFault status = true)
    (h : Opened data) (hnone : ∀ k, ¬ Elected data cut k) : Judged data cut status :=
  ⟨hok, ⟨fun _ => h, fun _ => hfault⟩, fun _ => hnone⟩

theorem reports_judged (ho : Opened data) : Reports data cut (Judged data cut) where
  bounds := fun k hk hbad => Judged.opened nofun rfl ho fun _ hs => hbad (hs.placed k hk)
  overlap := fun k hk j hj hbad => Judged.opened nofun rfl ho fun _ hs =>
    hbad (hs.apart k hk j (hj.trans hk) (Nat.ne_of_gt hj))
  ambiguous := fun k hk j hj type htype hmj hmk => Judged.opened nofun rfl ho fun _ hs =>
    absurd (hs.unambiguous j (hj.trans hk) k hk type htype hmj hmk) (Nat.ne_of_lt hj)

theorem Scanned.none_elected {c : Choice} (hs : Scanned data cut (imageCount data) c) (hce : c.ce = none)
    (hnormal : c.normal = none) (k : ℕ) : ¬ Elected data cut k := by
  intro hk
  have hno5 := hs.ce
  have hno1 := hs.normal
  rw [hce] at hno5
  rw [hnormal] at hno1
  rcases hk.unique with ⟨hm, -⟩ | ⟨-, hm, -⟩
  · exact hno5 k hk.mem hm
  · exact hno1 k hk.mem hm

theorem safe_select :
    Safe (Judged data cut) (fun k => Opened data ∧ Elected data cut k) (select data cut) := by
  refine Safe.ite (fun hshort => ?_) fun hlength => ?_
  · refine Safe.early (Judged.unopened nofun rfl fun ho => ?_)
    have hinside := ho.inside
    rw [tableEnd] at hinside
    omega
  refine (Safe.byteAt (by omega)).bind fun b hb => Safe.ite (fun hmagic => ?_) fun hmagic => ?_
  · exact Safe.early (Judged.unopened nofun rfl fun ho => hmagic (hb.trans ho.magic))
  refine (Safe.byteAt (by omega)).bind fun n hn => Safe.ite (fun hzero => ?_) fun hsome => ?_
  · exact Safe.early (Judged.unopened nofun rfl fun ho => ho.some_image (hn.symm.trans hzero))
  refine (Safe.byteAt (by omega)).bind fun count hcount => ?_
  have hcount' : count.toNat = imageCount data := congrArg UInt8.toNat hcount
  rw [hcount']
  refine Safe.ite (fun hmany => ?_) fun hmax => ?_
  · exact Safe.early (Judged.unopened nofun rfl fun ho => absurd ho.count_le (Nat.not_le_of_lt hmany))
  rw [not_lt] at hmax
  have hsmall : imageCount data ≤ 64 := hmax
  refine (Safe.mul (by rw [sizeBits]; omega)).bind fun skip hskip => ?_
  refine (Safe.add (by rw [hskip, sizeBits]; omega)).bind fun fin hfin => ?_
  have hend : fin = tableEnd data := by rw [hfin, hskip, tableEnd]
  rw [hend]
  refine safe_fits.bind fun fit hfit => Safe.ite (fun hyes => ?_) fun hno => ?_
  swap
  · rw [hfit, decide_eq_true_iff, Nat.zero_add] at hno
    exact Safe.early (Judged.unopened nofun rfl fun ho => hno ho.inside)
  rw [hfit, decide_eq_true_iff, Nat.zero_add] at hyes
  have ht : Table data := ⟨hmax, hyes⟩
  have ho : Opened data := ⟨ht, hb.symm.trans (not_not.1 hmagic), fun h => hsome (hn.trans h)⟩
  refine (safe_scan ht (reports_judged ho) (imageCount data) 0 {} (by omega)
    ⟨⟨nofun, nofun⟩, nofun, nofun⟩).bind fun c hc => ?_
  rw [Nat.zero_add] at hc
  cases hce : c.ce with
  | some k => exact Safe.pure ⟨ho, hc.elected ht (Or.inl hce)⟩
  | none =>
      cases hnormal : c.normal with
      | some k => exact Safe.pure ⟨ho, hc.elected ht (Or.inr ⟨hce, hnormal⟩)⟩
      | none => exact Safe.early (Judged.opened nofun rfl ho (hc.none_elected hce hnormal))

/-! ## The header -/

/-- The plan is for the selected image, and knows its header. -/
structure Framed (data : List UInt8) (cut : UInt8) (k : ℕ) (plan : Plan) : Prop where
  selected : Selected data cut k
  imageOffset : plan.imageOffset = (image data k).offset
  imageBytes : plan.imageBytes = (image data k).bytes
  base : plan.baseHeaderBytes = 32 + plan.sectionCount * 16
  sectionCount : 0 < plan.sectionCount ∧ plan.sectionCount ≤ maxSections
  base_le : plan.baseHeaderBytes ≤ plan.headerBytes
  header_le : plan.headerBytes ≤ plan.imageBytes

/-- No section has been read. -/
structure Headed (data : List UInt8) (cut : UInt8) (k : ℕ) (plan : Plan) : Prop
    extends Framed data cut k plan where
  unread : plan.sections = [] ∧ plan.packetCount = 0

theorem Framed.inside {k : ℕ} {plan : Plan} (hh : Framed data cut k plan) :
    plan.imageOffset + plan.imageBytes ≤ data.length := by
  rw [hh.imageOffset, hh.imageBytes]
  exact (hh.selected.placed k hh.selected.mem).2.2

theorem safe_readHeader {k : ℕ} (hs : Selected data cut k) :
    Safe Malformed (Headed data cut k) (readHeader data cut k) := by
  have hentry := hs.table.entry hs.mem
  refine (safe_entryAt hs.table hs.mem).bind fun entry hentry' => ?_
  rw [hentry']
  refine (Safe.byteAt (by omega)).bind fun type _ => ?_
  refine (safe_le32 (by omega)).bind fun fw hfw => (safe_le32 (by omega)).bind fun bytes hbytes => ?_
  have hoffset : fw.toNat = (image data k).offset := congrArg UInt32.toNat hfw
  have hsize : bytes.toNat = (image data k).bytes := congrArg UInt32.toNat hbytes
  have hinside := (hs.placed k hs.mem).2.2
  rw [hoffset, hsize]
  refine Safe.ite (fun _ => Safe.early ⟨nofun, rfl⟩) fun hlong => ?_
  refine (Safe.byteAt (by omega)).bind fun _ _ => Safe.ite (fun _ => Safe.early ⟨nofun, rfl⟩) fun _ => ?_
  refine (safe_le32 (by omega)).bind fun _ _ => Safe.ite (fun _ => Safe.early ⟨nofun, rfl⟩) fun _ => ?_
  refine (safe_le32 (by omega)).bind fun version _ => (safe_le32 (by omega)).bind fun commit _ => ?_
  refine (Safe.byteAt (by omega)).bind fun sections _ => ?_
  refine Safe.ite (fun _ => Safe.early ⟨nofun, rfl⟩) fun hcount => ?_
  rw [not_or, not_lt, maxSections] at hcount
  refine (Safe.mul (by rw [sizeBits]; omega)).bind fun skip hskip => ?_
  refine (Safe.add (by rw [hskip, sizeBits]; omega)).bind fun base hbase => ?_
  refine safe_fits.bind fun fit hfit => Safe.ite (fun hyes => ?_) fun _ => Safe.early ⟨nofun, rfl⟩
  rw [hfit, decide_eq_true_iff, Nat.zero_add] at hyes
  rw [hskip] at hbase
  exact Safe.pure ⟨⟨hs, rfl, rfl, hbase, ⟨Nat.pos_of_ne_zero hcount.1, hcount.2⟩, le_rfl, hyes⟩, rfl, rfl⟩

theorem safe_readDynamic {k : ℕ} {plan : Plan} (hh : Headed data cut k plan) :
    Safe Malformed (Headed data cut k) (readDynamic data plan) := by
  have hinside := hh.inside
  have hbase := hh.base
  have hcount := hh.sectionCount
  have hbaseLe := hh.base_le
  have hheaderLe := hh.header_le
  rw [maxSections] at hcount
  refine (safe_le32 (by omega)).bind fun _ _ => Safe.ite (fun _ => ?_) fun _ => Safe.pure hh
  refine (Safe.byteAt (by omega)).bind fun header _ => ?_
  refine (Safe.add (by rw [sizeBits]; omega)).bind fun least hleast => ?_
  refine Safe.ite (fun _ => Safe.early ⟨nofun, rfl⟩) fun hlong => ?_
  rw [hleast, not_lt] at hlong
  refine safe_fits.bind fun fit hfit => Safe.ite (fun hyes => ?_) fun _ => Safe.early ⟨nofun, rfl⟩
  rw [hfit, decide_eq_true_iff, Nat.zero_add] at hyes
  refine (safe_le32 (by omega)).bind fun _ _ => (Safe.sub (by omega)).bind fun _ _ => ?_
  refine Safe.ite (fun _ => Safe.early ⟨nofun, rfl⟩) fun _ => Safe.pure ?_
  have hle : plan.baseHeaderBytes ≤ header.toNat := by omega
  exact ⟨⟨hh.selected, hh.imageOffset, hh.imageBytes, hh.base, hh.sectionCount, hle, hyes⟩, hh.unread⟩

/-! ## The sections -/

/-- The sections lie one behind the other, from `a` to `b`. -/
def Tiles : ℕ → List Section → ℕ → Prop
  | a, [], b => a = b
  | a, s :: sections, b => s.offset = a ∧ 0 < s.transferBytes ∧ Tiles (a + s.transferBytes) sections b

theorem Tiles.concat {a b : ℕ} {sections : List Section} {s : Section} (h : Tiles a sections b)
    (hoffset : s.offset = b) (hpos : 0 < s.transferBytes) :
    Tiles a (sections ++ [s]) (b + s.transferBytes) := by
  induction sections generalizing a with
  | nil =>
      have hab : a = b := h
      exact ⟨hoffset.trans hab.symm, hpos, by rw [hab]; exact rfl⟩
  | cons x sections ih => exact ⟨h.1, h.2.1, ih h.2.2⟩

def packets (sections : List Section) : ℕ :=
  (sections.map fun s => pieceCount packetBytes s.transferBytes).sum

/-- The largest section, with its checksum. -/
def maxTransfer : ℕ := 2 ^ 24 + 7

/-- The first sections have been read, up to `cursor` bytes into the image. -/
structure Reading (data : List UInt8) (cut : UInt8) (k i cursor : ℕ) (plan : Plan) : Prop
    extends Framed data cut k plan where
  cursor_le : cursor ≤ plan.imageBytes
  tiles : Tiles (plan.imageOffset + plan.headerBytes) plan.sections (plan.imageOffset + cursor)
  small : ∀ s ∈ plan.sections, s.transferBytes ≤ maxTransfer
  read : plan.sections.length = i
  packetCount : plan.packetCount = packets plan.sections

theorem Headed.reading {k : ℕ} {plan : Plan} (hh : Headed data cut k plan) :
    Reading data cut k 0 plan.headerBytes plan where
  toFramed := hh.toFramed
  cursor_le := hh.header_le
  tiles := by
    rw [hh.unread.1]
    exact rfl
  small := by simp [hh.unread.1]
  read := by rw [hh.unread.1]; rfl
  packetCount := by
    rw [hh.unread.1, hh.unread.2]
    rfl

theorem describe_payloadBytes (metadata : UInt32) : (describe metadata).payloadBytes < 2 ^ 24 := by
  have hlow : (metadata &&& 0xffffff).toNat = metadata.toNat % 2 ^ 24 := Bits.toNat_and_low rfl
  rw [describe, hlow]
  exact Nat.mod_lt _ (by decide)

theorem safe_isMultiSigned {type h : ℕ} (hlength : h + 12 ≤ data.length) :
    Safe Malformed (fun _ => True) (isMultiSigned data type h) := by
  refine Safe.ite (fun _ => ?_) fun _ => Safe.pure trivial
  exact (safe_le32 (by omega)).bind fun _ _ => Safe.pure trivial

theorem safe_readSection {k cursor : ℕ} {plan : Plan} (hsize : data.length < 2 ^ sizeBits)
    (hr : Reading data cut k i cursor plan) (hi : i < plan.sectionCount) :
    Safe Malformed (fun s => s.offset = plan.imageOffset + cursor ∧ 0 < s.transferBytes ∧
        s.transferBytes ≤ maxTransfer ∧ cursor + s.transferBytes ≤ plan.imageBytes)
      (readSection data plan cursor i) := by
  have hinside := hr.inside
  have hbase := hr.base
  have hcount := hr.sectionCount
  have hbaseLe := hr.base_le
  have hheaderLe := hr.header_le
  have hcursor := hr.cursor_le
  rw [maxSections] at hcount
  refine (Safe.mul (by omega)).bind fun skip hskip => ?_
  rw [hskip]
  refine (safe_le32 (by omega)).bind fun metadata _ => ?_
  refine Safe.ite (fun _ => Safe.early ⟨nofun, rfl⟩) fun _ => ?_
  refine (safe_isMultiSigned (by omega)).bind fun _ _ => Safe.ite (fun _ => Safe.early ⟨nofun, rfl⟩) fun _ => ?_
  refine Safe.ite (fun _ => Safe.early ⟨nofun, rfl⟩) fun hpayload => ?_
  have hsmall := describe_payloadBytes metadata
  have htrailer : (if (describe metadata).checksumTrailer = true then 8 else 0) ≤ 8 := by
    split
    · decide
    · decide
  refine (Safe.add (by omega)).bind fun transfer htransfer => ?_
  refine (safe_le32 (by omega)).bind fun address _ => ?_
  have haddress : (address &&& 0x1fffffff).toNat = address.toNat % 2 ^ 29 := Bits.toNat_and_low rfl
  have hmod := Nat.mod_lt address.toNat (show 0 < 2 ^ 29 by decide)
  refine (Safe.sub (by rw [haddress]; omega)).bind fun room _ => Safe.ite (fun _ => Safe.early ⟨nofun, rfl⟩) fun _ => ?_
  refine safe_fits.bind fun fit hfit => Safe.ite (fun hyes => ?_) fun _ => Safe.early ⟨nofun, rfl⟩
  rw [hfit, decide_eq_true_iff] at hyes
  refine (Safe.add (by omega)).bind fun offset hoffset => Safe.pure ⟨hoffset, ?_, ?_, hyes⟩
  · show 0 < transfer
    omega
  · show transfer ≤ maxTransfer
    rw [maxTransfer]
    omega

theorem pieceCount_le {s : Section} (hs : s.transferBytes ≤ maxTransfer) :
    pieceCount packetBytes s.transferBytes ≤ 8306 := by
  rw [maxTransfer] at hs
  rw [pieceCount, packetBytes]
  split
  · omega
  · omega

theorem packets_le {sections : List Section} (h : ∀ s ∈ sections, s.transferBytes ≤ maxTransfer) :
    packets sections ≤ sections.length * 8306 := by
  refine (List.sum_le_card_nsmul _ 8306 ?_).trans ?_
  · intro n hn
    rcases List.mem_map.1 hn with ⟨s, hs, rfl⟩
    exact pieceCount_le (h s hs)
  · rw [List.length_map, smul_eq_mul]

/-- A plan that `parse` returns. -/
structure Parsed (data : List UInt8) (cut : UInt8) (k : ℕ) (plan : Plan) : Prop
    extends Framed data cut k plan where
  tiles : Tiles (plan.imageOffset + plan.headerBytes) plan.sections
    (plan.imageOffset + plan.imageBytes)
  small : ∀ s ∈ plan.sections, s.transferBytes ≤ maxTransfer
  read : plan.sections.length = plan.sectionCount
  packetCount : plan.packetCount = packets plan.sections
  valid : plan.valid = true

theorem safe_readSections {k : ℕ} (hsize : data.length < 2 ^ sizeBits) : ∀ (n i cursor : ℕ) (plan : Plan),
    i + n = plan.sectionCount → Reading data cut k i cursor plan →
    Safe Malformed (Parsed data cut k) (readSections data n i cursor plan) := by
  intro n
  induction n with
  | zero =>
      intro i cursor plan hn hr
      refine Safe.ite (fun _ => Safe.early ⟨nofun, rfl⟩) fun hend => Safe.pure ?_
      have htiles := hr.tiles
      rw [not_not.1 hend] at htiles
      exact ⟨⟨hr.selected, hr.imageOffset, hr.imageBytes, hr.base, hr.sectionCount, hr.base_le,
        hr.header_le⟩, htiles, hr.small, hr.read.trans hn, hr.packetCount, rfl⟩
  | succ n ih =>
      intro i cursor plan hn hr
      have hinside := hr.inside
      have hcount := hr.sectionCount
      have hpackets := packets_le hr.small
      rw [maxSections] at hcount
      rw [hr.read] at hpackets
      refine (safe_readSection hsize hr (by omega)).bind fun s hs => ?_
      rcases hs with ⟨hoffset, hpos, hle, hfits⟩
      have hpiece := pieceCount_le hle
      refine (Safe.add (by omega)).bind fun cursor' hcursor => ?_
      have hround : s.transferBytes + packetBytes < 2 ^ 32 := by
        rw [maxTransfer] at hle
        rw [packetBytes]
        omega
      refine Safe.bind (Safe.add (a := s.transferBytes) (b := packetBytes) hround) fun sum hsum => ?_
      have hone : 1 ≤ sum := by
        rw [hsum, packetBytes]
        omega
      refine Safe.bind (Safe.sub hone) fun rounded hrounded => ?_
      have hpieces : rounded / packetBytes = pieceCount packetBytes s.transferBytes := by
        rw [hrounded, hsum]
        exact pieceCount_eq (by decide)
      rw [hpieces]
      refine (Safe.add (by rw [hr.packetCount]; omega)).bind fun total htotal => ?_
      apply ih (i + 1) cursor'
      · show i + 1 + n = plan.sectionCount
        omega
      · refine ⟨⟨hr.selected, hr.imageOffset, hr.imageBytes, hr.base, hr.sectionCount, hr.base_le,
          hr.header_le⟩, ?_, ?_, ?_, ?_, ?_⟩
        · rw [hcursor]
          exact hfits
        · rw [hcursor, ← Nat.add_assoc]
          exact hr.tiles.concat hoffset hpos
        · intro x hx
          rcases List.mem_append.1 hx with hx | hx
          · exact hr.small x hx
          · rw [List.mem_singleton.1 hx]
            exact hle
        · rw [List.length_append, hr.read]
          rfl
        · rw [htotal, hr.packetCount, packets, packets, List.map_append, List.sum_append]
          rfl

/-- What follows the selection of an image. -/
def readImage (data : List UInt8) (cut : UInt8) (selected : ℕ) : Parsing Plan := do
  let plan ← readHeader data cut selected
  let plan ← readDynamic data plan
  readSections data plan.sectionCount 0 plan.headerBytes plan

theorem readPlan_eq : readPlan data cut = select data cut >>= readImage data cut := rfl

theorem safe_readImage {k : ℕ} (hsize : data.length < 2 ^ sizeBits) (hs : Selected data cut k) :
    Safe Malformed (Parsed data cut k) (readImage data cut k) := by
  refine (safe_readHeader hs).bind fun plan hp => (safe_readDynamic hp).bind fun plan' hp' => ?_
  exact safe_readSections hsize _ 0 _ plan' (Nat.zero_add _) hp'.reading

theorem safe_readPlan (hsize : data.length < 2 ^ sizeBits) :
    Safe Refused (fun plan => ∃ k, Parsed data cut k plan) (readPlan data cut) := by
  rw [readPlan_eq]
  refine (safe_select.weaken fun _ h => h.1).bind fun k hs => ?_
  exact ((safe_readImage hsize hs.2.toSelected).weaken fun _ h => h.1).mono fun plan hp => ⟨k, hp⟩

theorem parse_cases (data : Option Container) (cut : UInt8) :
    (∃ status, status ≠ .ok ∧ parse data cut = .ok (status, {})) ∨
      ∃ c plan, data = some c ∧ parse data cut = .ok (.ok, plan) ∧ ∃ k, Parsed c.bytes cut k plan := by
  cases data with
  | none => exact Or.inl ⟨.truncated, nofun, rfl⟩
  | some c =>
      rcases (safe_readPlan c.addressable).returned with ⟨status, hstatus, hparse⟩ | ⟨plan, hplan, hparse⟩
      · exact Or.inl ⟨status, hstatus, hparse⟩
      · exact Or.inr ⟨c, plan, rfl, hparse, hplan⟩

end Firmware
end Rtl8852be
