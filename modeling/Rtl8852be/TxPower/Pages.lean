import Rtl8852be.TxPower.Ceilings
import Rtl8852be.Wire.FirmwareProtocol

/-!
# Pages — whose limit each byte of a page obeys

What the bytes of a page are for is told from the width of the channel alone: a byte has its place by its
bandwidth, its rate section or kind of RU, and the sub-channel, counted from the lowest of that bandwidth.

* `subChannel` — the number of a sub-channel;
* `Holds` — where the bytes of a limit page are;
* `Obeys` — a byte is at most half its entry in the table, and at most what the policy gave;
* `LimitPage`, `RuPage` — the whole pages, and `Written`, what is written of them.
-/

namespace Rtl8852be
namespace TxPower

open Interaction Code

/-! ## The layout -/

/-- The number of the `i`-th sub-channel of bandwidth `bw`, which lies within the channel. -/
def subChannel (ch : Channel) (bw i : ℕ) : ℤ :=
  ch.center.toNat - 2 * (2 ^ ch.width.toNat - 2 ^ bw) + 4 * 2 ^ bw * i

/-- Two bytes of the limit page, without and with beamforming, are for a bandwidth, a rate section and a
sub-channel.  The CCK limits are those of the lowest 20 MHz and of 40 MHz around the center. -/
inductive Holds (ch : Channel) : ℕ → ℕ → ℕ → ℤ → Prop
  | cck20m (hw : ch.width.toNat < 2) : Holds ch 0 0 0 (subChannel ch 0 0)
  | cck40m (hw : ch.width.toNat < 2) : Holds ch 2 1 0 ch.center.toNat
  | ofdm : Holds ch 4 0 1 ch.primary.toNat
  | mcs20m (i : ℕ) (hi : i < 2 ^ ch.width.toNat) : Holds ch (6 + 2 * i) 0 2 (subChannel ch 0 i)
  | mcs40m (i : ℕ) (hi : 2 * i + 1 < 2 ^ ch.width.toNat) : Holds ch (22 + 2 * i) 1 2 (subChannel ch 1 i)
  | mcs80m (hw : ch.width.toNat = 2) : Holds ch 30 2 2 ch.center.toNat
  | half (i : ℕ) (hi : i < 2) (hw : ch.width.toNat = 2) : Holds ch 36 1 2 (subChannel ch 1 i)

/-- The entry of a domain in a row of a table, or that of the world where the domain has none. -/
def tableEntry (table : ℕ → Int8) (channels row domain i : ℕ) : Int8 :=
  if table ((row * 16 + domain) * channels + i) = 0 then
    table (row * 16 * channels + i)
  else
    table ((row * 16 + domain) * channels + i)

/-- A byte for the channel of this number: at most half its entry in the table, and at most what the policy gave. -/
def Obeys (t : Trace) (band : UInt8) (table : ℕ → Int8) (row domain : ℕ) (number : ℤ) (b : Int8) : Prop :=
  ∃ i < channels band, (indexChannel band i).toNat = number ∧
    2 * b.toInt ≤ (tableEntry table (channels band) row domain i).toInt ∧ Permits t band (indexChannel band i) b

/-- The limit page of a plan. -/
structure LimitPage (T : Tables) (domain : UInt8) (ch : Channel) (ntx : UInt8) (t : Trace) (page : Page) : Prop where
  obeys : ∀ place bw rs number, Holds ch place bw rs number → ∀ bf < 2,
    Obeys t ch.band (T.limit ch.band) (((bw * 2 + ntx.toNat) * 3 + rs) * 2 + bf) domain.toNat number
      (page (place + bf))
  other : ∀ i < 40, (∀ place bw rs number, Holds ch place bw rs number → i ≠ place ∧ i ≠ place + 1) → page i = 0

/-- The RU page of a plan: eight bytes for each kind of RU, of which the first are for the sub-channels. -/
structure RuPage (T : Tables) (domain : UInt8) (ch : Channel) (ntx : UInt8) (t : Trace) (page : Page) : Prop where
  obeys : ∀ ru < 3, ∀ i < 2 ^ ch.width.toNat,
    Obeys t ch.band (T.limitRu ch.band) (ru * 2 + ntx.toNat) domain.toNat (subChannel ch 0 i) (page (8 * ru + i))
  other : ∀ i, 24 ≤ i ∨ 2 ^ ch.width.toNat ≤ i % 8 → page i = 0

def Written (address : UInt32) (size : ℕ) (P : Page → Prop) (ws : List Write) : Prop :=
  ∃ page, P page ∧ ws = (List.range (size / 4)).map fun k =>
    ⟨false, address + UInt32.ofNat (4 * k), 0xffffffff,
      Network.little32 ((List.range 4).map fun j => (page (4 * k + j)).toUInt8)⟩

/-! ## Entries -/

theorem toInt_rfToMac (v : Int8) : (rfToMac v).toInt = v.toInt / 2 := by
  have hlow := v.le_toInt
  have hhigh := v.toInt_lt
  have hhalf : (if 0 ≤ v.toInt then v.toInt / 2 else -((-v.toInt + 1) / 2)) = v.toInt / 2 := by
    by_cases h : 0 ≤ v.toInt
    · rw [if_pos h]
    · rw [if_neg h]
      omega
  unfold rfToMac
  rw [hhalf]
  exact Int8.toInt_ofInt_of_le (by omega) (by omega)

variable {band domain : UInt8}

theorem entry_eq (value : ℕ → Int8) {base row i : ℕ} (hbase : base = row * 16 * channels band + i) :
    entry domain value band base = tableEntry value (channels band) row domain.toNat i := by
  have hown : base + domain.toNat * channels band = (row * 16 + domain.toNat) * channels band + i := by
    rw [hbase, Nat.add_mul]
    omega
  unfold entry tableEntry
  rw [hown, hbase]

theorem obeys_of_under {t : Trace} {sub : UInt8} {i row base : ℕ} {number : ℤ} {value : ℕ → Int8} {b : Int8}
    (hband : band = 0 ∨ band = 1) (hi : channelIndex band sub = some i) (hnumber : (sub.toNat : ℤ) = number)
    (hbase : base = row * 16 * channels band + i)
    (h : Under t band sub (rfToMac (entry domain value band base)) b) :
    Obeys t band value row domain.toNat number b := by
  rcases channelIndex_spec hband sub i hi with ⟨hlt, hsub⟩
  have htable := h.table
  rw [toInt_rfToMac, entry_eq value hbase] at htable
  refine ⟨i, hlt, ?_, by omega, ?_⟩
  · rw [hsub]
    exact hnumber
  · rw [hsub]
    exact h.policy

/-! ## Places -/

variable {ch : Channel}

/-- No distance to the center leaves the numbers of a byte. -/
theorem center_bounds (h : ch.validChannel = true) :
    (ch.width = 1 → 3 ≤ ch.center.toNat ∧ ch.center.toNat ≤ 175) ∧
      (ch.width = 2 → 42 ≤ ch.center.toNat ∧ ch.center.toNat ≤ 171) := by
  have hall : ([(0 : UInt8), 1].all fun band => (List.range 256).all fun n =>
      (!Rfk.validChannel ⟨band, 1, UInt8.ofNat n⟩ || (decide (3 ≤ n) && decide (n ≤ 175))) &&
        (!Rfk.validChannel ⟨band, 2, UInt8.ofNat n⟩ || (decide (42 ≤ n) && decide (n ≤ 171)))) = true := by
    decide +kernel
  have hone := List.all_eq_true.1 (List.all_eq_true.1 hall ch.band (near_primary h).1) ch.center.toNat
    (List.mem_range.2 ch.center.toNat_lt)
  rw [UInt8.ofNat_toNat, Bool.and_eq_true] at hone
  have hcenter := center_of_valid h
  refine ⟨fun hw => ?_, fun hw => ?_⟩
  · rw [hw] at hcenter
    have hboth := hone.1
    rw [hcenter] at hboth
    simpa using hboth
  · rw [hw] at hcenter
    have hboth := hone.2
    rw [hcenter] at hboth
    simpa using hboth

theorem width_cases (h : ch.validChannel = true) : ch.width = 0 ∨ ch.width = 1 ∨ ch.width = 2 := by
  simpa using (near_primary h).2.1

theorem primary_eq (h : ch.validChannel = true) (hw : ch.width = 0) : ch.primary = ch.center := by
  unfold Channel.validChannel at h
  split at h
  · exact absurd h Bool.false_ne_true
  · have hzero := beq_iff_eq.1 h
    exact UInt8.toNat_inj.1 (by omega)

/-- The fill for two bytes. -/
structure Fills (ch : Channel) (place bw rs : ℕ) (number : ℤ) (f : Fill) : Prop where
  mem : f ∈ limitFills ch
  place : f.place = place
  bw : f.bw.toNat = bw
  rs : f.rs.toNat = rs
  number : (f.ch.toNat : ℤ) = number

theorem toNat_below {a d : UInt8} {k : ℕ} (hd : d.toNat = k) (h : k ≤ a.toNat) :
    ((a - d).toNat : ℤ) = a.toNat - k := by
  have hsub : (a - d).toNat = a.toNat - d.toNat :=
    UInt8.toNat_sub_of_le _ _ (UInt8.le_iff_toNat_le.2 (hd.trans_le h))
  omega

theorem toNat_above {a d : UInt8} {k : ℕ} (hd : d.toNat = k) (h : a.toNat + k < 256) :
    ((a + d).toNat : ℤ) = a.toNat + k := by
  rw [UInt8.toNat_add]
  omega

theorem limitFills_20m (hw : ch.width = 0) : limitFills ch = fillTxpwrLimit20m ch.center := by
  rw [limitFills, if_pos hw]

theorem limitFills_40m (hw : ch.width = 1) : limitFills ch = fillTxpwrLimit40m ch.center ch.primary := by
  rw [limitFills, if_neg (by rw [hw]; decide), if_pos hw]

theorem limitFills_80m (hw : ch.width = 2) : limitFills ch = fillTxpwrLimit80m ch.center ch.primary := by
  rw [limitFills, if_neg (by rw [hw]; decide), if_neg (by rw [hw]; decide)]

section Widths

variable {place bw rs : ℕ} {number : ℤ}

theorem fills_of_holds_20m (hch : ch.validChannel = true) (hw : ch.width = 0) (h : Holds ch place bw rs number) :
    ∃ f, Fills ch place bw rs number f := by
  have hwidth : ch.width.toNat = 0 := by
    rw [hw]
    rfl
  have hmem : ∀ {f}, f ∈ fillTxpwrLimit20m ch.center → f ∈ limitFills ch := by
    rw [limitFills_20m hw]
    exact id
  cases h with
  | cck20m _ => exact ⟨⟨cck20m, 0, 0, ch.center⟩, hmem (by simp [fillTxpwrLimit20m]), rfl, rfl, rfl,
      by simp [subChannel, hwidth]⟩
  | cck40m _ => exact ⟨⟨cck40m, 1, 0, ch.center⟩, hmem (by simp [fillTxpwrLimit20m]), rfl, rfl, rfl, rfl⟩
  | ofdm => exact ⟨⟨ofdm, 0, 1, ch.center⟩, hmem (by simp [fillTxpwrLimit20m]), rfl, rfl, rfl,
      by rw [primary_eq hch hw]⟩
  | mcs20m i hi =>
      rw [hwidth] at hi
      have hzero : i = 0 := by omega
      subst hzero
      exact ⟨⟨mcs20m 0, 0, 2, ch.center⟩, hmem (by simp [fillTxpwrLimit20m]), rfl, rfl, rfl,
        by simp [subChannel, hwidth]⟩
  | mcs40m i hi =>
      rw [hwidth] at hi
      omega
  | mcs80m hw' => omega
  | half i _ hw' => omega

theorem fills_of_holds_40m (hch : ch.validChannel = true) (hw : ch.width = 1) (h : Holds ch place bw rs number) :
    ∃ f, Fills ch place bw rs number f := by
  have hwidth : ch.width.toNat = 1 := by
    rw [hw]
    rfl
  have hmem : ∀ {f}, f ∈ fillTxpwrLimit40m ch.center ch.primary → f ∈ limitFills ch := by
    rw [limitFills_40m hw]
    exact id
  rcases (center_bounds hch).1 hw with ⟨hlow, hhigh⟩
  have hbelow : ((ch.center - 2).toNat : ℤ) = subChannel ch 0 0 := by
    rw [toNat_below (k := 2) rfl (by omega), subChannel, hwidth]
    norm_num
  have habove : ((ch.center + 2).toNat : ℤ) = subChannel ch 0 1 := by
    rw [toNat_above (k := 2) rfl (by omega), subChannel, hwidth]
    norm_num
    omega
  cases h with
  | cck20m _ => exact ⟨⟨cck20m, 0, 0, ch.center - 2⟩, hmem (by simp [fillTxpwrLimit40m]), rfl, rfl, rfl, hbelow⟩
  | cck40m _ => exact ⟨⟨cck40m, 1, 0, ch.center⟩, hmem (by simp [fillTxpwrLimit40m]), rfl, rfl, rfl, rfl⟩
  | ofdm => exact ⟨⟨ofdm, 0, 1, ch.primary⟩, hmem (by simp [fillTxpwrLimit40m]), rfl, rfl, rfl, rfl⟩
  | mcs20m i hi =>
      rw [hwidth] at hi
      interval_cases i
      · exact ⟨⟨mcs20m 0, 0, 2, ch.center - 2⟩, hmem (by simp [fillTxpwrLimit40m]), rfl, rfl, rfl, hbelow⟩
      · exact ⟨⟨mcs20m 1, 0, 2, ch.center + 2⟩, hmem (by simp [fillTxpwrLimit40m]), rfl, rfl, rfl, habove⟩
  | mcs40m i hi =>
      rw [hwidth] at hi
      have hzero : i = 0 := by omega
      subst hzero
      exact ⟨⟨mcs40m 0, 1, 2, ch.center⟩, hmem (by simp [fillTxpwrLimit40m]), rfl, rfl, rfl,
        by simp [subChannel, hwidth]⟩
  | mcs80m hw' => omega
  | half i _ hw' => omega

theorem fills_of_holds_80m (hch : ch.validChannel = true) (hw : ch.width = 2) (h : Holds ch place bw rs number) :
    ∃ f, Fills ch place bw rs number f := by
  have hwidth : ch.width.toNat = 2 := by
    rw [hw]
    rfl
  have hmem : ∀ {f}, f ∈ fillTxpwrLimit80m ch.center ch.primary → f ∈ limitFills ch := by
    rw [limitFills_80m hw]
    exact id
  rcases (center_bounds hch).2 hw with ⟨hlow, hhigh⟩
  have hbelow : ∀ (d : UInt8) {k : ℕ}, d.toNat = k → k ≤ 6 → ((ch.center - d).toNat : ℤ) = ch.center.toNat - k :=
    fun d k hd hk => toNat_below hd (by omega)
  have habove : ∀ (d : UInt8) {k : ℕ}, d.toNat = k → k ≤ 6 → ((ch.center + d).toNat : ℤ) = ch.center.toNat + k :=
    fun d k hd hk => toNat_above hd (by omega)
  have hnumber : ∀ bw i : ℕ, subChannel ch bw i = ch.center.toNat - 2 * (4 - 2 ^ bw) + 4 * 2 ^ bw * i := by
    intro bw i
    rw [subChannel, hwidth]
    norm_num
  cases h with
  | cck20m hw' => omega
  | cck40m hw' => omega
  | ofdm => exact ⟨⟨ofdm, 0, 1, ch.primary⟩, hmem (by simp [fillTxpwrLimit80m]), rfl, rfl, rfl, rfl⟩
  | mcs20m i hi =>
      rw [hwidth] at hi
      rw [hnumber]
      interval_cases i
      · exact ⟨⟨mcs20m 0, 0, 2, ch.center - 6⟩, hmem (by simp [fillTxpwrLimit80m]), rfl, rfl, rfl,
          (hbelow 6 (k := 6) rfl (by decide)).trans (by norm_num)⟩
      · exact ⟨⟨mcs20m 1, 0, 2, ch.center - 2⟩, hmem (by simp [fillTxpwrLimit80m]), rfl, rfl, rfl,
          (hbelow 2 (k := 2) rfl (by decide)).trans (by norm_num; omega)⟩
      · exact ⟨⟨mcs20m 2, 0, 2, ch.center + 2⟩, hmem (by simp [fillTxpwrLimit80m]), rfl, rfl, rfl,
          (habove 2 (k := 2) rfl (by decide)).trans (by norm_num; omega)⟩
      · exact ⟨⟨mcs20m 3, 0, 2, ch.center + 6⟩, hmem (by simp [fillTxpwrLimit80m]), rfl, rfl, rfl,
          (habove 6 (k := 6) rfl (by decide)).trans (by norm_num; omega)⟩
  | mcs40m i hi =>
      rw [hwidth] at hi
      rw [hnumber]
      have htwo : i < 2 := by omega
      interval_cases i
      · exact ⟨⟨mcs40m 0, 1, 2, ch.center - 4⟩, hmem (by simp [fillTxpwrLimit80m]), rfl, rfl, rfl,
          (hbelow 4 (k := 4) rfl (by decide)).trans (by norm_num)⟩
      · exact ⟨⟨mcs40m 1, 1, 2, ch.center + 4⟩, hmem (by simp [fillTxpwrLimit80m]), rfl, rfl, rfl,
          (habove 4 (k := 4) rfl (by decide)).trans (by norm_num; omega)⟩
  | mcs80m _ => exact ⟨⟨mcs80m 0, 2, 2, ch.center⟩, hmem (by simp [fillTxpwrLimit80m]), rfl, rfl, rfl, rfl⟩
  | half i hi _ =>
      rw [hnumber]
      interval_cases i
      · exact ⟨⟨val0p5n, 1, 2, ch.center - 4⟩, hmem (by simp [fillTxpwrLimit80m]), rfl, rfl, rfl,
          (hbelow 4 (k := 4) rfl (by decide)).trans (by norm_num)⟩
      · exact ⟨⟨val0p5p, 1, 2, ch.center + 4⟩, hmem (by simp [fillTxpwrLimit80m]), rfl, rfl, rfl,
          (habove 4 (k := 4) rfl (by decide)).trans (by norm_num; omega)⟩

theorem fills_of_holds (hch : ch.validChannel = true) (h : Holds ch place bw rs number) :
    ∃ f, Fills ch place bw rs number f := by
  rcases width_cases hch with hw | hw | hw
  · exact fills_of_holds_20m hch hw h
  · exact fills_of_holds_40m hch hw h
  · exact fills_of_holds_80m hch hw h

end Widths

theorem holds_of_mem (hch : ch.validChannel = true) {f : Fill} (hf : f ∈ limitFills ch) :
    ∃ bw rs number, Holds ch f.place bw rs number := by
  rcases width_cases hch with hw | hw | hw
  · have hwidth : ch.width.toNat = 0 := by
      rw [hw]
      rfl
    rw [limitFills_20m hw] at hf
    simp only [fillTxpwrLimit20m, List.mem_cons, List.not_mem_nil, or_false] at hf
    rcases hf with rfl | rfl | rfl | rfl
    · exact ⟨_, _, _, Holds.cck20m (by omega)⟩
    · exact ⟨_, _, _, Holds.cck40m (by omega)⟩
    · exact ⟨_, _, _, Holds.ofdm⟩
    · exact ⟨_, _, _, Holds.mcs20m 0 (by rw [hwidth]; decide)⟩
  · have hwidth : ch.width.toNat = 1 := by
      rw [hw]
      rfl
    rw [limitFills_40m hw] at hf
    simp only [fillTxpwrLimit40m, List.mem_cons, List.not_mem_nil, or_false] at hf
    rcases hf with rfl | rfl | rfl | rfl | rfl | rfl
    · exact ⟨_, _, _, Holds.cck20m (by omega)⟩
    · exact ⟨_, _, _, Holds.cck40m (by omega)⟩
    · exact ⟨_, _, _, Holds.ofdm⟩
    · exact ⟨_, _, _, Holds.mcs20m 0 (by rw [hwidth]; decide)⟩
    · exact ⟨_, _, _, Holds.mcs20m 1 (by rw [hwidth]; decide)⟩
    · exact ⟨_, _, _, Holds.mcs40m 0 (by rw [hwidth]; decide)⟩
  · have hwidth : ch.width.toNat = 2 := by
      rw [hw]
      rfl
    rw [limitFills_80m hw] at hf
    simp only [fillTxpwrLimit80m, List.mem_cons, List.not_mem_nil, or_false] at hf
    rcases hf with rfl | rfl | rfl | rfl | rfl | rfl | rfl | rfl | rfl | rfl
    · exact ⟨_, _, _, Holds.ofdm⟩
    · exact ⟨_, _, _, Holds.mcs20m 0 (by rw [hwidth]; decide)⟩
    · exact ⟨_, _, _, Holds.mcs20m 1 (by rw [hwidth]; decide)⟩
    · exact ⟨_, _, _, Holds.mcs20m 2 (by rw [hwidth]; decide)⟩
    · exact ⟨_, _, _, Holds.mcs20m 3 (by rw [hwidth]; decide)⟩
    · exact ⟨_, _, _, Holds.mcs40m 0 (by rw [hwidth]; decide)⟩
    · exact ⟨_, _, _, Holds.mcs40m 1 (by rw [hwidth]; decide)⟩
    · exact ⟨_, _, _, Holds.mcs80m hwidth⟩
    · exact ⟨_, _, _, Holds.half 0 (by decide) hwidth⟩
    · exact ⟨_, _, _, Holds.half 1 (by decide) hwidth⟩

/-! ## The RU page -/

theorem mem_ruFills {chs : List UInt8} {f : RuFill} :
    f ∈ ruFills chs ↔ ∃ ru < 3, ∃ i sub, chs[i]? = some sub ∧ f = ⟨8 * ru + i, UInt8.ofNat ru, sub⟩ := by
  have hkinds : ∀ ru : ℕ, ru ∈ [0, 1, 2] ↔ ru < 3 := by
    intro ru
    simp only [List.mem_cons, List.not_mem_nil, or_false]
    omega
  simp only [ruFills, List.mem_flatMap, List.mem_mapIdx, hkinds]
  refine exists_congr fun ru => and_congr_right fun _ => exists_congr fun i => ?_
  constructor
  · rintro ⟨hi, rfl⟩
    exact ⟨chs[i], List.getElem?_eq_getElem hi, rfl⟩
  · rintro ⟨sub, hsub, rfl⟩
    rcases List.getElem?_eq_some_iff.1 hsub with ⟨hi, rfl⟩
    exact ⟨hi, rfl⟩

theorem subChannels_spec (hch : ch.validChannel = true) :
    (subChannels ch).length = 2 ^ ch.width.toNat ∧
      ∀ i sub, (subChannels ch)[i]? = some sub → (sub.toNat : ℤ) = subChannel ch 0 i := by
  rcases width_cases hch with hw | hw | hw
  · have hsubs : subChannels ch = [ch.center] := by rw [subChannels, if_pos hw]
    have hwidth : ch.width.toNat = 0 := by
      rw [hw]
      rfl
    rw [hsubs, hwidth]
    refine ⟨rfl, fun i sub hi => ?_⟩
    rcases List.getElem?_eq_some_iff.1 hi with ⟨hlt, rfl⟩
    have hzero : i = 0 := by simpa using hlt
    subst hzero
    rw [subChannel, hwidth]
    simp
  · rcases (center_bounds hch).1 hw with ⟨hlow, hhigh⟩
    have hsubs : subChannels ch = [ch.center - 2, ch.center + 2] := by
      rw [subChannels, if_neg (by rw [hw]; decide), if_pos hw]
    have hwidth : ch.width.toNat = 1 := by
      rw [hw]
      rfl
    rw [hsubs, hwidth]
    refine ⟨rfl, fun i sub hi => ?_⟩
    rcases List.getElem?_eq_some_iff.1 hi with ⟨hlt, rfl⟩
    have htwo : i < 2 := by simpa using hlt
    have hbelow := toNat_below (a := ch.center) (d := 2) (k := 2) rfl (by omega)
    have habove := toNat_above (a := ch.center) (d := 2) (k := 2) rfl (by omega)
    rw [subChannel, hwidth]
    interval_cases i
    · exact hbelow.trans (by norm_num)
    · exact habove.trans (by norm_num; omega)
  · rcases (center_bounds hch).2 hw with ⟨hlow, hhigh⟩
    have hsubs : subChannels ch = [ch.center - 6, ch.center - 2, ch.center + 2, ch.center + 6] := by
      rw [subChannels, if_neg (by rw [hw]; decide), if_neg (by rw [hw]; decide)]
    have hwidth : ch.width.toNat = 2 := by
      rw [hw]
      rfl
    rw [hsubs, hwidth]
    refine ⟨rfl, fun i sub hi => ?_⟩
    rcases List.getElem?_eq_some_iff.1 hi with ⟨hlt, rfl⟩
    have hfour : i < 4 := by simpa using hlt
    rw [subChannel, hwidth]
    interval_cases i
    · exact (toNat_below (k := 6) rfl (by omega)).trans (by norm_num)
    · exact (toNat_below (k := 2) rfl (by omega)).trans (by norm_num; omega)
    · exact (toNat_above (k := 2) rfl (by omega)).trans (by norm_num; omega)
    · exact (toNat_above (k := 6) rfl (by omega)).trans (by norm_num; omega)

/-! ## Whole pages -/

variable (T : Tables) {ntx : UInt8} {t t' : Trace} {page : Page}

theorem LimitFilled.limitPage (hch : ch.validChannel = true) (h : LimitFilled T domain ch ntx t page) :
    LimitPage T domain ch ntx t page := by
  refine ⟨fun place bw rs number hholds bf hbf => ?_, fun i hi hother => ?_⟩
  · rcases fills_of_holds hch hholds with ⟨f, hf⟩
    rcases Option.isSome_iff_exists.1 ((fills_valid hch).1 f hf.mem).channel with ⟨i, hi⟩
    rcases h.capped f hf.mem with ⟨hfirst, hsecond⟩
    have hobeys : ∀ b : UInt8, ∀ v, Under t ch.band f.ch (f.limit T domain ch.band ntx b) v →
        Obeys t ch.band (T.limit ch.band) (((bw * 2 + ntx.toNat) * 3 + rs) * 2 + b.toNat) domain.toNat number v := by
      intro b v hv
      unfold Fill.limit at hv
      rw [hi, Option.getD_some] at hv
      refine obeys_of_under (band_of_valid hch) hi hf.number ?_ hv
      rw [limitBase, hf.bw, hf.rs]
    rw [hf.place] at hfirst hsecond
    have hcases : bf = 0 ∨ bf = 1 := by omega
    rcases hcases with rfl | rfl
    · exact hobeys 0 _ hfirst
    · exact hobeys 1 _ hsecond
  · refine h.other i hi fun f hf => ?_
    rcases holds_of_mem hch hf with ⟨bw, rs, number, hholds⟩
    exact hother _ bw rs number hholds

theorem RuFilled.ruPage (hch : ch.validChannel = true) (h : RuFilled T domain ch ntx t page) :
    RuPage T domain ch ntx t page := by
  rcases subChannels_spec hch with ⟨hlength, hnumber⟩
  have hwidth : 2 ^ ch.width.toNat ≤ 4 := by
    rcases width_cases hch with hw | hw | hw
    · rw [hw]
      decide
    · rw [hw]
      decide
    · rw [hw]
      decide
  refine ⟨fun ru hru i hi => ?_, fun k hk => ?_⟩
  · have hlt : i < (subChannels ch).length := by
      rw [hlength]
      exact hi
    have hsub := List.getElem?_eq_getElem hlt
    generalize (subChannels ch)[i] = sub at hsub
    have hmem : (⟨8 * ru + i, UInt8.ofNat ru, sub⟩ : RuFill) ∈ ruFills (subChannels ch) :=
      mem_ruFills.2 ⟨ru, hru, i, sub, hsub, rfl⟩
    rcases Option.isSome_iff_exists.1 ((fills_valid hch).2 _ hmem).channel with ⟨index, hindex⟩
    have hv := h.capped _ hmem
    unfold RuFill.limit at hv
    rw [hindex, Option.getD_some] at hv
    refine obeys_of_under (band_of_valid hch) hindex (hnumber i sub hsub) ?_ hv
    have hkind : (UInt8.ofNat ru).toNat = ru := by
      rw [UInt8.toNat_ofNat']
      omega
    rw [limitRuBase, hkind]
  · refine h.other k fun f hf => ?_
    rcases mem_ruFills.1 hf with ⟨ru, hru, i, sub, hsub, rfl⟩
    have hi := (List.getElem?_eq_some_iff.1 hsub).1
    rw [hlength] at hi
    show k ≠ 8 * ru + i
    omega

theorem Obeys.later {band : UInt8} {table : ℕ → Int8} {row domain : ℕ} {number : ℤ} {b : Int8}
    (h : Obeys t band table row domain number b) (ht : t <+: t') : Obeys t' band table row domain number b := by
  rcases h with ⟨i, hi, hnumber, htable, hpolicy⟩
  exact ⟨i, hi, hnumber, htable, hpolicy.later ht⟩

theorem LimitPage.later (h : LimitPage T domain ch ntx t page) (ht : t <+: t') : LimitPage T domain ch ntx t' page :=
  ⟨fun place bw rs number hholds bf hbf => (h.obeys place bw rs number hholds bf hbf).later ht, h.other⟩

theorem RuPage.later (h : RuPage T domain ch ntx t page) (ht : t <+: t') : RuPage T domain ch ntx t' page :=
  ⟨fun ru hru i hi => (h.obeys ru hru i hi).later ht, h.other⟩

/-! ## Writes -/

theorem written_pageWrites (address : UInt32) (size : ℕ) {P : Page → Prop} (hpage : P page) :
    Written address size P (pageWrites address size page) := ⟨page, hpage, rfl⟩

end TxPower
end Rtl8852be
