import Rtl8852be.NativeScan.Snapshots
import Rtl8852be.Sequence.Champion

/-!
# Contents — what a published scan contains

`journal` reads the calls of the current scan off a history: its plan, the channels reported finished
and the usable observations.  `Recorded` connects it with the working bank, and `sortIndices` puts the
entries into the order in which a consumer reads them.

* `Entry.rank` — band, channel and address as a list of numbers, compared lexicographically;
* `Input.key`, `Input.time` — what makes two observations compete, and what decides between them;
* `Input.CopiedTo` — every field of an entry, said of the observation it was copied from.
-/

namespace Rtl8852be
namespace NativeScan

open Interaction Sequence

variable {s s' : Store} {h : List Record} {op : Op} {result : Result}

/-! ## The order of entries -/

def Entry.key (e : Entry) : Channel × Bssid := (e.channel, e.bssid)

def Entry.rank (e : Entry) : List ℕ :=
  e.channel.band.value.toNat :: e.channel.number.toNat :: (List.ofFn e.bssid).map UInt8.toNat

theorem Entry.key_of_rank {a b : Entry} (hrank : a.rank = b.rank) : a.key = b.key := by
  rcases List.cons.inj hrank with ⟨hband, hrest⟩
  rcases List.cons.inj hrest with ⟨hnumber, hbytes⟩
  have hb : a.channel.band = b.channel.band := by
    revert hband
    cases a.channel.band <;> cases b.channel.band <;> decide
  have hn : a.channel.number = b.channel.number := UInt8.toNat_inj.1 hnumber
  have hbssid : a.bssid = b.bssid :=
    List.ofFn_injective (List.map_injective_iff.2 (fun _ _ => UInt8.toNat_inj.1) hbytes)
  have hchannel : a.channel = b.channel := by
    rcases ha : a.channel with ⟨band, number⟩
    rcases hc : b.channel with ⟨band', number'⟩
    simp only [ha, hc] at hb hn
    rw [hb, hn]
  exact Prod.ext hchannel hbssid

theorem precedesBytes_iff : ∀ {xs ys : List UInt8}, xs.length = ys.length →
    (precedesBytes xs ys = true ↔ xs.map UInt8.toNat < ys.map UInt8.toNat)
  | [], [], _ => by simp [precedesBytes]
  | x :: xs, y :: ys, hlen => by
      have htail : xs.length = ys.length := by simpa using hlen
      have ih := precedesBytes_iff htail
      rw [precedesBytes, List.map_cons, List.map_cons, List.cons_lt_cons_iff]
      by_cases hxy : x = y
      · simp [hxy, ih]
      · have hne : x.toNat ≠ y.toNat := fun heq => hxy (UInt8.toNat_inj.1 heq)
        simp [hxy, hne, UInt8.lt_iff_toNat_lt]

theorem precedes_iff {a b : Entry} : precedes a b = true ↔ a.rank < b.rank := by
  rw [Entry.rank, Entry.rank, List.cons_lt_cons_iff, List.cons_lt_cons_iff, precedes]
  have hband : a.channel.band.value.toNat = b.channel.band.value.toNat ↔
      a.channel.band = b.channel.band := by
    cases a.channel.band <;> cases b.channel.band <;> decide
  have hnumber : a.channel.number.toNat = b.channel.number.toNat ↔
      a.channel.number = b.channel.number := UInt8.toNat_inj
  rw [hband, hnumber]
  by_cases hb : a.channel.band = b.channel.band
  · rw [if_neg (by simpa using hb)]
    by_cases hn : a.channel.number = b.channel.number
    · rw [if_neg (by simpa using hn), precedesBytes_iff (by simp)]
      simp [hb, hn]
    · rw [if_pos hn]
      simp [hb, hn, UInt8.lt_iff_toNat_lt]
  · rw [if_pos hb]
    simp [hb, UInt8.lt_iff_toNat_lt]

/-- The sort of `finish`, on the first `n` entries of a bank with distinct keys. -/
theorem sortIndices_spec {entries : ℕ → Entry} (order : ℕ → UInt8) :
    ∀ {n : ℕ}, n ≤ maxNetworks →
      (∀ i < n, ∀ j < n, (entries i).key = (entries j).key → i = j) →
      (cells (sortIndices entries order n) n).Perm ((List.range n).map UInt8.ofNat) ∧
        (cells (sortIndices entries order n) n).Pairwise fun a b =>
          (entries a.toNat).rank < (entries b.toNat).rank := by
  intro n
  induction n with
  | zero =>
      intro _ _
      exact ⟨List.Perm.nil, List.Pairwise.nil⟩
  | succ n ih =>
      intro hn hdistinct
      have hsmall : ∀ k < n + 1, (UInt8.ofNat k).toNat = k := by
        intro k hk
        have hmax : maxNetworks = 64 := rfl
        rw [UInt8.toNat_ofNat', Nat.mod_eq_of_lt (by omega)]
      rcases ih (by omega) fun i hi j hj => hdistinct i (by omega) j (by omega) with ⟨hperm, hsorted⟩
      have hself := hsmall n (Nat.lt_succ_self n)
      have hmem : ∀ y ∈ cells (sortIndices entries order n) n, y.toNat < n := by
        intro y hy
        rcases List.mem_map.1 (hperm.mem_iff.1 hy) with ⟨k, hk, rfl⟩
        rw [hsmall k (by have := List.mem_range.1 hk; omega)]
        exact List.mem_range.1 hk
      constructor
      · refine perm_sink.trans ?_
        rw [List.range_succ, List.map_append]
        exact (List.Perm.cons _ hperm).trans (List.perm_append_singleton _ _).symm
      · refine pairwise_sink (fun h h' => lt_trans h h') ?_ ?_ hsorted
        · intro y hy hp
          rw [hself]
          exact precedes_iff.1 hp
        · intro y hy hp
          rw [hself]
          -- Keys are distinct, so one of the two precedes the other.
          have hnot : ¬ (entries n).rank < (entries y.toNat).rank := by
            rw [← precedes_iff, hp]
            exact Bool.false_ne_true
          refine lt_of_le_of_ne (not_lt.1 hnot) fun heq => ?_
          have hlt := hmem y hy
          exact hlt.ne (hdistinct _ (by omega) _ (by omega) (Entry.key_of_rank heq))

/-! ## The journal of a scan -/

/-- Where the observation was made, and of which network. -/
def Input.key (input : Input) : Channel × Bssid := (input.channel, input.bssid.getD fun _ => 0)

def Input.time (input : Input) : ℕ := input.observedAtUs.toNat

/-- The entry has every field of the observation: the numbers as they are, the lengths, the address and
the bytes behind the two pointers; the arrays are cleared behind the bytes that were copied. -/
structure Input.CopiedTo (input : Input) (e : Entry) : Prop where
  observedAtUs : e.observedAtUs = input.observedAtUs
  channel : e.channel = input.channel
  signal : e.signal = input.signal
  capability : e.capability = input.capability
  beaconInterval : e.beaconInterval = input.beaconInterval
  bssid : input.bssid = some e.bssid
  ssidLength : e.ssidLength.toNat = input.ssidLength
  ieLength : e.ieLength.toNat = input.ieLength
  ssid : ∀ i : Fin 32, (i : ℕ) < input.ssidLength → ∃ name, input.ssid = some name ∧ e.ssid i = name i
  ies : ∀ i : Fin 2304, (i : ℕ) < input.ieLength → ∃ body, input.ies = some body ∧ e.ies i = body i
  ssid_cleared : ∀ i : Fin 32, input.ssidLength ≤ (i : ℕ) → e.ssid i = 0
  ies_cleared : ∀ i : Fin 2304, input.ieLength ≤ (i : ℕ) → e.ies i = 0

/-- What a well-formed observation has besides its elements. -/
theorem Input.WellFormed.pointers {input : Input} (hw : input.WellFormed) :
    input.bssid.isSome = true ∧ input.ssidLength ≤ 32 ∧
      (input.ssidLength = 0 ∨ input.ssid.isSome = true) ∧
      (input.ieLength = 0 ∨ input.ies.isSome = true) := by
  have hok := hw.acceptable
  simp only [Input.acceptable, Bool.and_eq_true, Bool.or_eq_true, beq_iff_eq,
    decide_eq_true_eq] at hok
  rcases hok with ⟨⟨⟨⟨⟨hunicast, hname⟩, hssid⟩, hies⟩, -⟩, -⟩
  refine ⟨?_, hname, hssid, hies⟩
  cases hb : input.bssid with
  | none =>
      rw [hb] at hunicast
      exact absurd hunicast Bool.false_ne_true
  | some bssid => rfl

theorem byteAt_of_isSome {p : Option (ℕ → UInt8)} {n i : ℕ} (hp : n = 0 ∨ p.isSome = true)
    (hi : i < n) : ∃ bytes, p = some bytes ∧ byteAt p i = bytes i := by
  rcases hp with rfl | hp
  · exact absurd hi (Nat.not_lt_zero i)
  · rcases Option.isSome_iff_exists.1 hp with ⟨bytes, rfl⟩
    exact ⟨bytes, rfl, rfl⟩

/-- What `add` writes for a well-formed observation is the copy of it. -/
theorem Input.WellFormed.copiedTo {input : Input} (hw : input.WellFormed) :
    input.CopiedTo input.entry := by
  rcases hw.pointers with ⟨hbssid, hname, hssid, hies⟩
  have hfits : input.ieLength ≤ 2304 := hw.fits
  refine ⟨rfl, rfl, rfl, rfl, rfl, ?_, ?_, ?_, ?_, ?_, ?_, ?_⟩
  · rcases Option.isSome_iff_exists.1 hbssid with ⟨bssid, hb⟩
    simp [Input.entry, hb]
  · show (UInt8.ofNat input.ssidLength).toNat = _
    rw [UInt8.toNat_ofNat', Nat.mod_eq_of_lt (by omega)]
  · show (UInt16.ofNat input.ieLength).toNat = _
    rw [UInt16.toNat_ofNat', Nat.mod_eq_of_lt (by omega)]
  · intro i hi
    rcases byteAt_of_isSome hssid hi with ⟨name, hn, hbyte⟩
    exact ⟨name, hn, (if_pos hi).trans hbyte⟩
  · intro i hi
    rcases byteAt_of_isSome hies hi with ⟨body, hb, hbyte⟩
    exact ⟨body, hb, (if_pos hi).trans hbyte⟩
  · intro i hi
    exact if_neg (not_lt.2 hi)
  · intro i hi
    exact if_neg (not_lt.2 hi)

theorem Input.CopiedTo.eq {input : Input} {e e' : Entry} (he : input.CopiedTo e)
    (he' : input.CopiedTo e') : e = e' := by
  have hbssid : e.bssid = e'.bssid := Option.some.inj (he.bssid.symm.trans he'.bssid)
  have hname : e.ssid = e'.ssid := by
    funext i
    by_cases hi : (i : ℕ) < input.ssidLength
    · rcases he.ssid i hi with ⟨name, hn, hbyte⟩
      rcases he'.ssid i hi with ⟨name', hn', hbyte'⟩
      rw [hbyte, hbyte', Option.some.inj (hn.symm.trans hn')]
    · rw [he.ssid_cleared i (not_lt.1 hi), he'.ssid_cleared i (not_lt.1 hi)]
  have hies : e.ies = e'.ies := by
    funext i
    by_cases hi : (i : ℕ) < input.ieLength
    · rcases he.ies i hi with ⟨body, hb, hbyte⟩
      rcases he'.ies i hi with ⟨body', hb', hbyte'⟩
      rw [hbyte, hbyte', Option.some.inj (hb.symm.trans hb')]
    · rw [he.ies_cleared i (not_lt.1 hi), he'.ies_cleared i (not_lt.1 hi)]
  have hssidLength := UInt8.toNat_inj.1 (he.ssidLength.trans he'.ssidLength.symm)
  have hieLength := UInt16.toNat_inj.1 (he.ieLength.trans he'.ieLength.symm)
  have hchannel := he.channel.trans he'.channel.symm
  have hsignal := he.signal.trans he'.signal.symm
  have htime := he.observedAtUs.trans he'.observedAtUs.symm
  have hcapability := he.capability.trans he'.capability.symm
  have hinterval := he.beaconInterval.trans he'.beaconInterval.symm
  cases e
  cases e'
  subst_vars
  rfl

theorem Input.WellFormed.copiedTo_iff {input : Input} {e : Entry} (hw : input.WellFormed) :
    input.CopiedTo e ↔ e = input.entry := by
  constructor
  · intro he
    exact he.eq hw.copiedTo
  · rintro rfl
    exact hw.copiedTo

/-- What was said about a scan: its token, its plan, the channels reported finished, the well-formed
observations on planned channels, oldest first, and whether one was lost. -/
structure Journal where
  token : Token := {}
  channels : List Channel := []
  finished : List Channel := []
  adds : List Input := []
  lost : Bool := false

/-- Read one call and its result.  An accepted `begin` opens a new journal. -/
def Journal.note (j : Journal) : Op → Result → Journal
  | .begin generation epoch, .flag true => { token := ⟨generation, epoch⟩ }
  | .plan _ (some channels), .flag true => { j with channels := channels }
  | .add token input, .add r =>
      if token = j.token then
        { j with
          adds := if input.channel ∈ j.channels ∧ input.WellFormed then j.adds ++ [input] else j.adds
          lost := j.lost || r == .overflow || r == .truncated }
      else
        j
  | .channelFinished _ channel, .flag true => { j with finished := j.finished ++ [channel] }
  | _, _ => j

/-- The journal of the scan that began last. -/
def journal : List Record → Journal
  | [] => {}
  | x :: h => (journal h).note x.op x.result

theorem Journal.note_wellFormed {j : Journal} (hj : ∀ input ∈ j.adds, input.WellFormed) :
    ∀ input ∈ (j.note op result).adds, input.WellFormed := by
  intro input hin
  unfold note at hin
  split at hin
  · exact absurd hin List.not_mem_nil
  · exact hj input hin
  · next token new r =>
    split at hin
    · dsimp only at hin
      split at hin
      · next hnew =>
        rcases List.mem_append.1 hin with hold | hlast
        · exact hj input hold
        · rw [List.mem_singleton.1 hlast]
          exact hnew.2
      · exact hj input hin
    · exact hj input hin
  · exact hj input hin
  · exact hj input hin

theorem journal_wellFormed : ∀ h : List Record, ∀ input ∈ (journal h).adds, input.WellFormed
  | [] => fun _ hin => absurd hin List.not_mem_nil
  | _ :: h => Journal.note_wellFormed (journal_wellFormed h)

/-- The entries are the champions of the observations. -/
structure Holds (adds : List Input) (entries : ℕ → Entry) (count : ℕ) : Prop where
  distinct : ∀ i < count, ∀ j < count, (entries i).key = (entries j).key → i = j
  sound : ∀ i < count, ∃ input, Champion Input.key Input.time adds input ∧ entries i = input.entry
  complete : ∀ input, Champion Input.key Input.time adds input → ∃ i < count, entries i = input.entry

section Holds

variable {adds : List Input} {entries : ℕ → Entry} {count i : ℕ} {input : Input}

theorem holds_nil : Holds [] entries 0 :=
  ⟨nofun, nofun, fun _ hc => absurd hc not_champion_nil⟩

theorem Holds.champion (hh : Holds adds entries count) (hi : i < count)
    (hkey : (entries i).key = input.key) :
    ∃ w, Champion Input.key Input.time adds w ∧ entries i = w.entry ∧ w.key = input.key := by
  rcases hh.sound i hi with ⟨w, hw, he⟩
  refine ⟨w, hw, he, ?_⟩
  rw [← hkey, he]
  rfl

theorem time_entry {e : Entry} (he : e = input.entry) : e.observedAtUs.toNat = input.time := by
  rw [he]
  rfl

/-- An observation that is not newer than the entry of its key. -/
theorem Holds.unchanged (hh : Holds adds entries count) (hi : i < count)
    (hkey : (entries i).key = input.key) (hold : input.time ≤ (entries i).observedAtUs.toNat) :
    Holds (adds ++ [input]) entries count := by
  rcases hh.champion hi hkey with ⟨w, hw, he, hwk⟩
  rw [time_entry he] at hold
  have hiff : ∀ y, Champion Input.key Input.time (adds ++ [input]) y ↔
      Champion Input.key Input.time adds y := by
    intro y
    rw [champion_concat]
    constructor
    · rintro (⟨hy, -⟩ | ⟨rfl, hlt⟩)
      · exact hy
      · exact absurd (hlt w hw.mem hwk) (not_lt.2 hold)
    · intro hy
      refine Or.inl ⟨hy, fun hk => ?_⟩
      rw [hy.eq hw (hk.symm.trans hwk.symm)]
      exact hold
  refine ⟨hh.distinct, ?_, ?_⟩
  · intro k hk
    rcases hh.sound k hk with ⟨y, hy, hey⟩
    exact ⟨y, (hiff y).2 hy, hey⟩
  · intro y hy
    exact hh.complete y ((hiff y).1 hy)

/-- A newer observation takes the place of the entry of its key. -/
theorem Holds.replaced (hh : Holds adds entries count) (hi : i < count)
    (hkey : (entries i).key = input.key) (hnew : (entries i).observedAtUs.toNat < input.time) :
    Holds (adds ++ [input]) (Function.update entries i input.entry) count := by
  rcases hh.champion hi hkey with ⟨w, hw, he, hwk⟩
  rw [time_entry he] at hnew
  have hkeys : ∀ k, (Function.update entries i input.entry k).key = (entries k).key := by
    intro k
    by_cases hk : k = i
    · rw [hk, Function.update_self, hkey]
      rfl
    · rw [Function.update_of_ne hk]
  have hbest : ∀ z ∈ adds, z.key = input.key → z.time < input.time := by
    intro z hz hzk
    exact lt_of_le_of_lt (hw.le hz (hzk.trans hwk.symm)) hnew
  refine ⟨?_, ?_, ?_⟩
  · intro k hk l hl heq
    rw [hkeys, hkeys] at heq
    exact hh.distinct k hk l hl heq
  · intro k hk
    by_cases hki : k = i
    · rw [hki, Function.update_self]
      exact ⟨input, champion_concat.2 (Or.inr ⟨rfl, hbest⟩), rfl⟩
    · rcases hh.sound k hk with ⟨y, hy, hey⟩
      refine ⟨y, champion_concat.2 (Or.inl ⟨hy, fun hyk => ?_⟩), ?_⟩
      · have hsame : (entries k).key = (entries i).key := by
          rw [hey, hkey, hyk]
          rfl
        exact absurd (hh.distinct k hk i hi hsame) hki
      · rw [Function.update_of_ne hki, hey]
  · intro y hy
    rcases champion_concat.1 hy with ⟨hy, hle⟩ | ⟨rfl, -⟩
    · rcases hh.complete y hy with ⟨k, hk, hey⟩
      refine ⟨k, hk, ?_⟩
      by_cases hki : k = i
      · -- The champion that lost its place is not one any more.
        have hsame : input.key = y.key := by
          rw [← hkey, ← hki, hey]
          rfl
        exact absurd (hle hsame) (not_le.2 (hbest y hy.mem hsame.symm))
      · rw [Function.update_of_ne hki, hey]
    · exact ⟨i, hi, Function.update_self _ _ _⟩

theorem Holds.added (hh : Holds adds entries count)
    (hfresh : ∀ i < count, (entries i).key ≠ input.key) :
    Holds (adds ++ [input]) (Function.update entries count input.entry) (count + 1) := by
  have hnone : ∀ z ∈ adds, z.key ≠ input.key := by
    intro z hz hzk
    have hchampion : ∃ y, Champion Input.key Input.time adds y ∧ y.key = z.key := exists_champion hz
    rcases hchampion with ⟨y, hy, hyk⟩
    rcases hh.complete y hy with ⟨k, hk, hey⟩
    apply hfresh k hk
    rw [hey]
    exact hyk.trans hzk
  have hold : ∀ k < count, Function.update entries count input.entry k = entries k := by
    intro k hk
    exact Function.update_of_ne hk.ne input.entry entries
  refine ⟨?_, ?_, ?_⟩
  · intro k hk l hl heq
    rcases Nat.lt_succ_iff_lt_or_eq.1 hk with hk | rfl
    · rw [hold k hk] at heq
      rcases Nat.lt_succ_iff_lt_or_eq.1 hl with hl | rfl
      · rw [hold l hl] at heq
        exact hh.distinct k hk l hl heq
      · rw [Function.update_self] at heq
        exact absurd heq (hfresh k hk)
    · rw [Function.update_self] at heq
      rcases Nat.lt_succ_iff_lt_or_eq.1 hl with hl | rfl
      · rw [hold l hl] at heq
        exact absurd heq.symm (hfresh l hl)
      · rfl
  · intro k hk
    rcases Nat.lt_succ_iff_lt_or_eq.1 hk with hk | rfl
    · rcases hh.sound k hk with ⟨y, hy, hey⟩
      refine ⟨y, champion_concat.2 (Or.inl ⟨hy, fun hyk => ?_⟩), (hold k hk).trans hey⟩
      exact absurd hyk.symm (hnone y hy.mem)
    · refine ⟨input, champion_concat.2 (Or.inr ⟨rfl, fun z hz hzk => ?_⟩), Function.update_self _ _ _⟩
      exact absurd hzk (hnone z hz)
  · intro y hy
    rcases champion_concat.1 hy with ⟨hy, -⟩ | ⟨rfl, -⟩
    · rcases hh.complete y hy with ⟨k, hk, hey⟩
      exact ⟨k, Nat.lt_succ_of_lt hk, (hold k hk).trans hey⟩
    · exact ⟨count, Nat.lt_succ_self count, Function.update_self _ _ _⟩

end Holds

/-! ## The journal and the working bank -/

theorem cells_getD {α : Type} (l : List α) (d : α) : cells (fun i => l.getD i d) l.length = l := by
  apply List.ext_getElem
  · simp
  · intro i hi _
    simp only [length_cells] at hi
    simp [cells, hi]

@[simp] theorem Store.bank_setBank (s : Store) (b : Bank) : (s.setBank b).bank = b := by
  simp [Store.bank, Store.setBank]

theorem cells_overwritten {α : Type} (l : List α) (d : α) (a : ℕ → α) :
    cells (fun i => if i < l.length then l.getD i d else a i) l.length = l := by
  calc
    cells (fun i => if i < l.length then l.getD i d else a i) l.length =
        cells (fun i => l.getD i d) l.length := cells_congr fun i hi => if_pos hi
    _ = l := cells_getD l d

theorem Store.channels_withPlan (s : Store) (cs : List Channel) : (s.withPlan cs).channels = cs := by
  show cells ((s.setBank _).bank).channels cs.length = cs
  rw [Store.bank_setBank]
  exact cells_overwritten cs {} s.bank.channels

/-- What the store knows about the active scan. -/
structure Recorded (j : Journal) (s : Store) : Prop where
  token : j.token = s.status.token
  channels : j.channels = s.channels
  unplanned : s.status.planned = false → s.status.plannedChannels = 0 ∧ s.completedMask = 0
  finished : ∀ i < s.status.plannedChannels, s.completedMask.testBit i = true →
    s.bank.channels i ∈ j.finished
  counted : s.status.completedChannels =
    ((Finset.range s.status.plannedChannels).filter fun i => s.completedMask.testBit i = true).card
  lost : j.lost = true → s.status.overflow = true ∨ s.status.truncatedInput = true
  count_le : s.status.count ≤ maxNetworks
  holds : s.status.overflow = false → s.status.truncatedInput = false →
    Holds j.adds s.bank.entries s.status.count

variable {j : Journal} {token : Token} {input : Input} {channel : Channel}

theorem recorded_begun (s : Store) (token : Token) : Recorded { token := token } (s.begun token) where
  token := rfl
  channels := rfl
  unplanned := fun _ => ⟨rfl, rfl⟩
  finished := nofun
  counted := rfl
  lost := nofun
  count_le := Nat.zero_le maxNetworks
  holds := fun _ _ => holds_nil

theorem Recorded.withPlan {cs : List Channel} (hr : Recorded j s)
    (hfirst : s.status.planned = false) : Recorded { j with channels := cs } (s.withPlan cs) := by
  have hbank : (s.withPlan cs).bank.entries = s.bank.entries := by
    show ((s.setBank _).bank).entries = _
    rw [Store.bank_setBank]
  have hmask : s.completedMask = 0 := (hr.unplanned hfirst).2
  constructor
  · exact hr.token
  · exact (s.channels_withPlan cs).symm
  · exact nofun
  · intro i _ hbit
    rw [show (s.withPlan cs).completedMask = 0 from hmask, Nat.zero_testBit] at hbit
    cases hbit
  · have hzero : s.status.completedChannels = 0 := by
      rw [hr.counted, (hr.unplanned hfirst).1]
      rfl
    show s.status.completedChannels =
      ((Finset.range cs.length).filter fun i => s.completedMask.testBit i = true).card
    rw [hzero, hmask]
    simp
  · exact hr.lost
  · exact hr.count_le
  · intro ho ht
    rw [hbank]
    exact hr.holds ho ht

theorem testBit_marked {mask i k : ℕ} :
    (mask ||| 1 <<< i).testBit k = true ↔ mask.testBit k = true ∨ k = i := by
  rw [Nat.testBit_or, Nat.one_shiftLeft, Nat.testBit_two_pow, Bool.or_eq_true, decide_eq_true_eq,
    eq_comm (a := i)]

theorem marked_of_testBit {mask i : ℕ} (hbit : mask.testBit i = true) : mask ||| 1 <<< i = mask := by
  apply Nat.eq_of_testBit_eq
  intro k
  rw [Bool.eq_iff_iff, testBit_marked]
  constructor
  · rintro (hk | rfl)
    · exact hk
    · exact hbit
  · exact Or.inl

theorem Recorded.marked {i : ℕ} (hr : Recorded j s) (hplan : s.status.planned = true)
    (hindex : s.channelIndex channel = some i) (hbit : s.completedMask.testBit i = false) :
    Recorded { j with finished := j.finished ++ [channel] } (s.marked i) := by
  rcases Store.channelIndex_eq_some hindex with ⟨hi, hchannel⟩
  constructor
  · exact hr.token
  · exact hr.channels
  · intro hno
    exact absurd (hplan.symm.trans hno) nofun
  · intro k hk hset
    rcases testBit_marked.1 hset with hset | rfl
    · exact List.mem_append_left _ (hr.finished k hk hset)
    · exact List.mem_append_right _ (List.mem_singleton.2 hchannel)
  · -- One more bit is set, below the number of planned channels.
    have hnew : ((Finset.range s.status.plannedChannels).filter fun k =>
          (s.marked i).completedMask.testBit k = true) =
        insert i ((Finset.range s.status.plannedChannels).filter fun k =>
          s.completedMask.testBit k = true) := by
      ext k
      simp only [Finset.mem_filter, Finset.mem_range, Finset.mem_insert, Store.marked,
        testBit_marked]
      constructor
      · rintro ⟨hk, hset | rfl⟩
        · exact Or.inr ⟨hk, hset⟩
        · exact Or.inl rfl
      · rintro (rfl | ⟨hk, hset⟩)
        · exact ⟨hi, Or.inr rfl⟩
        · exact ⟨hk, Or.inl hset⟩
    show s.status.completedChannels + 1 = _
    rw [hr.counted]
    show _ = ((Finset.range s.status.plannedChannels).filter fun k =>
      (s.marked i).completedMask.testBit k = true).card
    rw [hnew, Finset.card_insert_of_notMem]
    simp [hbit]
  · exact hr.lost
  · exact hr.count_le
  · exact hr.holds

theorem Recorded.finishedAgain (hr : Recorded j s) :
    Recorded { j with finished := j.finished ++ [channel] } s :=
  { hr with finished := fun i hi hbit => List.mem_append_left _ (hr.finished i hi hbit) }

theorem find_eq_some {i : ℕ} (hfind : s.find input = some i) :
    i < s.status.count ∧ (s.bank.entries i).key = input.key := by
  have hi : i < s.status.count := by simpa using List.mem_of_find?_eq_some hfind
  have hkey := List.find?_some hfind
  simp only [Bool.and_eq_true, decide_eq_true_eq] at hkey
  exact ⟨hi, Prod.ext hkey.1.symm hkey.2.symm⟩

theorem find_eq_none (hfind : s.find input = none) :
    ∀ i < s.status.count, (s.bank.entries i).key ≠ input.key := by
  intro i hi hkey
  have hno := List.find?_eq_none.1 hfind i (by simpa using hi)
  rcases Prod.ext_iff.1 hkey with ⟨hchannel, hbssid⟩
  have hchannel : input.channel = (s.bank.entries i).channel := hchannel.symm
  have hbssid : input.entry.bssid = (s.bank.entries i).bssid := hbssid.symm
  simp [hchannel, hbssid] at hno

theorem note_add_ignored {r : AddResult} (hr : r ≠ .overflow ∧ r ≠ .truncated)
    (hno : token = j.token → ¬ (input.channel ∈ j.channels ∧ input.WellFormed)) :
    j.note (.add token input) (.add r) = j := by
  by_cases htoken : token = j.token
  · simp [Journal.note, htoken, hno htoken, beq_eq_false_iff_ne.2 hr.1, beq_eq_false_iff_ne.2 hr.2]
  · simp [Journal.note, htoken]

theorem note_add_counted {r : AddResult} (hr : r ≠ .overflow ∧ r ≠ .truncated)
    (htoken : token = j.token) (hchannel : input.channel ∈ j.channels) (hok : input.WellFormed) :
    j.note (.add token input) (.add r) = { j with adds := j.adds ++ [input] } := by
  simp [Journal.note, htoken, hchannel, hok, beq_eq_false_iff_ne.2 hr.1,
    beq_eq_false_iff_ne.2 hr.2]

theorem Recorded.add {r : AddResult} (hr : Recorded j s) (hactive : s.status.active = true)
    (ha : Store.Added s token input r s') : Recorded (j.note (.add token input) (.add r)) s' := by
  have hcurrent : s.current token = true → token = j.token := fun hc =>
    (Store.current_iff.1 hc).2.trans hr.token.symm
  cases ha with
  | stale hstale =>
      rw [note_add_ignored (by decide)]
      · exact hr
      · intro htoken
        exact absurd (Store.current_iff.2 ⟨hactive, htoken.trans hr.token⟩) (by simp [hstale])
  | unplanned hc hplan =>
      rw [note_add_ignored (by decide)]
      · exact hr
      · rintro - ⟨hchannel, -⟩
        rw [hr.channels] at hchannel
        cases hp : s.status.planned with
        | true => exact hplan hp hchannel
        | false =>
            rw [Store.channels, (hr.unplanned hp).1] at hchannel
            exact absurd hchannel List.not_mem_nil
  | lost _ _ _ hc hres hflag =>
      have hnote : ∃ adds lost, j.note (.add token input) (.add r) =
          { j with adds := adds, lost := lost } := by
        rw [Journal.note, if_pos (hcurrent hc)]
        exact ⟨_, _, rfl⟩
      rcases hnote with ⟨adds, lost, hnote⟩
      rw [hnote]
      refine ⟨hr.token, hr.channels, hr.unplanned, hr.finished, hr.counted, fun _ => hflag,
        hr.count_le, fun ho ht => ?_⟩
      rcases hflag with hflag | hflag
      · exact absurd (hflag.symm.trans ho) (by rintro ⟨⟩)
      · exact absurd (hflag.symm.trans ht) (by rintro ⟨⟩)
  | invalid hc hno =>
      rw [note_add_ignored (by decide) fun _ hcond => hno hcond.2]
      exact ⟨hr.token, hr.channels, hr.unplanned, hr.finished, hr.counted, hr.lost, hr.count_le,
        hr.holds⟩
  | unchanged hc hplan hchannel hok hfind hold =>
      rcases find_eq_some hfind with ⟨hi, hkey⟩
      rw [note_add_counted (by decide) (hcurrent hc) (hr.channels ▸ hchannel) hok]
      refine { hr with holds := fun ho ht => ?_ }
      exact (hr.holds ho ht).unchanged hi hkey (UInt64.le_iff_toNat_le.1 hold)
  | @replaced i hc hplan hchannel hok hfind hnew =>
      rcases find_eq_some hfind with ⟨hi, hkey⟩
      have hbank : (s.write i input.entry).bank =
          { s.bank with entries := Function.update s.bank.entries i input.entry } :=
        s.bank_setBank _
      rw [note_add_counted (by decide) (hcurrent hc) (hr.channels ▸ hchannel) hok]
      refine ⟨hr.token, ?_, hr.unplanned, ?_, hr.counted, hr.lost, hr.count_le, fun ho ht => ?_⟩
      · rw [Store.channels, hbank]
        exact hr.channels
      · rw [hbank]
        exact hr.finished
      · rw [hbank]
        refine (hr.holds ho ht).replaced hi hkey ?_
        rw [UInt64.not_le] at hnew
        exact UInt64.lt_iff_toNat_lt.1 hnew
  | added hc hplan hchannel hok hfind hroom =>
      have hbank : (s.append input.entry).bank =
          { s.bank with entries := Function.update s.bank.entries s.status.count input.entry } := by
        simp [Store.append, Store.write, Store.bank, Store.setBank]
      rw [note_add_counted (by decide) (hcurrent hc) (hr.channels ▸ hchannel) hok]
      refine ⟨hr.token, ?_, hr.unplanned, ?_, hr.counted, hr.lost, ?_, fun ho ht => ?_⟩
      · rw [Store.channels, hbank]
        exact hr.channels
      · rw [hbank]
        exact hr.finished
      · exact lt_of_le_of_ne hr.count_le hroom
      · rw [hbank]
        exact (hr.holds ho ht).added (find_eq_none hfind)

theorem Recorded.step (hr : s.status.active = true → Recorded j s)
    (hout : apply op s = (result, s')) (hactive : s'.status.active = true) :
    Recorded (j.note op result) s' := by
  cases op with
  | begin generation epoch =>
      rcases hb : s.begin generation epoch with ⟨ok, t⟩
      simp only [apply, hb, Prod.map, Prod.mk.injEq, id] at hout
      rcases hout with ⟨rfl, rfl⟩
      cases Store.begin_cases hb with
      | refused => exact hr hactive
      | accepted hidle hlater => exact recorded_begun s _
  | plan token channels =>
      rcases hp : s.plan token channels with ⟨ok, t⟩
      simp only [apply, hp, Prod.map, Prod.mk.injEq, id] at hout
      rcases hout with ⟨rfl, rfl⟩
      cases Store.plan_cases hp with
      | refused =>
          have hnote : j.note (.plan token channels) (.flag false) = j := by
            cases channels <;> rfl
          rw [hnote]
          exact hr hactive
      | accepted hcs hcurrent hfirst hne hmax hvalid =>
          rw [hcs]
          exact (hr (Store.current_iff.1 hcurrent).1).withPlan hfirst
  | add token input =>
      rcases ha : s.add token input with ⟨r, t⟩
      simp only [apply, ha, Prod.map, Prod.mk.injEq, id] at hout
      rcases hout with ⟨rfl, rfl⟩
      have hbefore : s.status.active = true := by
        have hadded := Store.add_cases ha
        cases hadded <;> exact hactive
      exact (hr hbefore).add hbefore (Store.add_cases ha)
  | channelFinished token channel =>
      rcases hf : s.channelFinished token channel with ⟨ok, t⟩
      simp only [apply, hf, Prod.map, Prod.mk.injEq, id] at hout
      rcases hout with ⟨rfl, rfl⟩
      cases Store.channelFinished_cases hf with
      | refused => exact hr hactive
      | again hcurrent hplan hindex hbit => exact (hr hactive).finishedAgain
      | first hcurrent hplan hindex hbit => exact (hr hactive).marked hplan hindex hbit
  | finish token scope completedAtUs =>
      rcases hf : s.finish token scope completedAtUs with ⟨r, t⟩
      simp only [apply, hf, Prod.map, Prod.mk.injEq, id] at hout
      rcases hout with ⟨rfl, rfl⟩
      cases Store.finish_cases hf with
      | refused hno => exact hr hactive
      | loss hcurrent => cases hactive
      | published _ _ _ _ _ _ _ => cases hactive
  | cancel token =>
      rcases hc : s.cancel token with ⟨ok, t⟩
      simp only [apply, hc, Prod.map, Prod.mk.injEq, id] at hout
      rcases hout with ⟨rfl, rfl⟩
      cases Store.cancel_cases hc with
      | refused _ => exact hr hactive
      | accepted _ => cases hactive

theorem run_recorded (hrun : Run h s) : s.status.active = true → Recorded (journal h) s :=
  Interaction.Run.invariant (P := fun h s => s.status.active = true → Recorded (journal h) s)
    (fun hactive => absurd hactive Bool.false_ne_true)
    (fun _ hr hout => Recorded.step hr (exec_outcome hout)) hrun

/-! ## Publication -/

/-- The entries that `publish` makes readable, in the order of their indices. -/
def Store.inOrder (s : Store) : List Entry :=
  (cells (sortIndices s.bank.entries s.bank.order s.status.count) s.status.count).map fun k =>
    s.bank.entries k.toNat

theorem completedEntry_publish (completedAtUs : UInt64) (i : ℕ) :
    (s.publish token completedAtUs).completedEntry i = s.inOrder[i]? := by
  have hbank : (s.publish token completedAtUs).banks s.working = s.finished token completedAtUs := by
    simp [Store.publish, Store.setBank]
  have hcount : (s.finished token completedAtUs).summary.count = s.status.count := rfl
  rw [Store.completedEntry]
  show (if !true || decide (((s.publish token completedAtUs).banks s.working).summary.count ≤ i)
    then none else some (((s.publish token completedAtUs).banks s.working).entries
      (((s.publish token completedAtUs).banks s.working).order i).toNat)) = _
  rw [hbank, hcount, Store.inOrder, List.getElem?_map]
  by_cases hi : i < s.status.count
  · rw [if_neg (by simpa using hi), getElem?_cells hi]
    rfl
  · rw [if_pos (by simpa using hi), List.getElem?_eq_none (by simpa using hi)]
    rfl

theorem Recorded.inOrder (hr : Recorded j s) (ho : s.status.overflow = false)
    (ht : s.status.truncatedInput = false) :
    s.inOrder.length ≤ maxNetworks ∧ s.inOrder.Perm s.entries ∧
      s.inOrder.Pairwise fun a b => a.rank < b.rank := by
  have hh := hr.holds ho ht
  rcases sortIndices_spec s.bank.order hr.count_le hh.distinct with ⟨hperm, hsorted⟩
  refine ⟨?_, ?_, ?_⟩
  · rw [Store.inOrder, List.length_map, length_cells]
    exact hr.count_le
  · refine (hperm.map fun k => s.bank.entries k.toNat).trans ?_
    rw [List.map_map, Store.entries, cells]
    refine List.Perm.of_eq (List.map_congr_left fun k hk => ?_)
    have hk : k < s.status.count := List.mem_range.1 hk
    have hmax : s.status.count ≤ 64 := hr.count_le
    simp only [Function.comp_apply, UInt8.toNat_ofNat']
    rw [Nat.mod_eq_of_lt (by omega)]
  · exact List.pairwise_map.2 hsorted

theorem Holds.mem_entries {adds : List Input} {e : Entry}
    (hh : Holds adds s.bank.entries s.status.count) :
    e ∈ s.entries ↔ ∃ input, Champion Input.key Input.time adds input ∧ e = input.entry := by
  rw [Store.entries, mem_cells]
  constructor
  · rintro ⟨i, hi, rfl⟩
    exact hh.sound i hi
  · rintro ⟨input, hc, rfl⟩
    exact hh.complete input hc

theorem Recorded.all_marked (hr : Recorded j s)
    (hall : s.status.completedChannels = s.status.plannedChannels) {i : ℕ}
    (hi : i < s.status.plannedChannels) : s.completedMask.testBit i = true := by
  have hcard := hr.counted
  rw [hall] at hcard
  have hfull : ((Finset.range s.status.plannedChannels).filter fun i =>
      s.completedMask.testBit i = true).card = (Finset.range s.status.plannedChannels).card := by
    rw [← hcard, Finset.card_range]
  exact Finset.card_filter_eq_iff.1 hfull i (Finset.mem_range.2 hi)

theorem Recorded.all_finished (hr : Recorded j s)
    (hall : s.status.completedChannels = s.status.plannedChannels) :
    ∀ c ∈ j.channels, c ∈ j.finished := by
  intro c hc
  rw [hr.channels] at hc
  rcases mem_cells.1 hc with ⟨i, hi, rfl⟩
  exact hr.finished i hi (hr.all_marked hall hi)

/-- What a snapshot is made of: the calls of the scan, and the entries a consumer can read. -/
structure Snapshot (j : Journal) (completedAtUs : UInt64) (s : Store) (entries : List Entry) :
    Prop where
  summary : ∃ m, s.completed = some m ∧ m.token = j.token ∧ m.completedAtUs = completedAtUs ∧
    m.count = entries.length
  finished : ∀ c ∈ j.channels, c ∈ j.finished
  lost : j.lost = false
  read : ∀ i, s.completedEntry i = entries[i]?
  length_le : entries.length ≤ 64
  sorted : entries.Pairwise fun a b => a.rank < b.rank
  contents : ∀ e, e ∈ entries ↔
    ∃ input, Champion Input.key Input.time j.adds input ∧ input.CopiedTo e
  past : ∀ e ∈ entries, e.observedAtUs ≤ completedAtUs

theorem run_snapshot {x : Record} (hrun : Run (x :: h) s) (hx : x.result = .finish .published) :
    ∃ token scope completedAtUs entries, x.op = .finish token scope completedAtUs ∧
      token = (journal h).token ∧ Snapshot (journal h) completedAtUs s entries := by
  rcases (run_effect hrun List.mem_cons_self).finish hx with ⟨token, scope, completedAtUs, hop⟩
  rcases Interaction.Run.tail hrun with ⟨hbefore, rfl, hout⟩
  have happly := exec_outcome hout
  rw [hop, hx] at happly
  rcases hf : x.before.finish token scope completedAtUs with ⟨r, t⟩
  simp only [apply, hf, Prod.map, Prod.mk.injEq, id, Result.finish.injEq] at happly
  rcases happly with ⟨rfl, rfl⟩
  generalize htt : x.after = after at hf ⊢
  cases Store.finish_cases hf with
  | refused hr => exact absurd rfl hr
  | published hcurrent hplan hall ho ht hlater hpast =>
      rcases Store.current_iff.1 hcurrent with ⟨hactive, htoken⟩
      have hr := run_recorded hbefore hactive
      rcases hr.inOrder ho ht with ⟨hlength, hperm, hsorted⟩
      have hmem : ∀ e, e ∈ x.before.inOrder ↔ e ∈ x.before.entries := fun e => hperm.mem_iff
      refine ⟨token, scope, completedAtUs, x.before.inOrder, hop, htoken.trans hr.token.symm, ?_⟩
      refine ⟨?_, hr.all_finished hall, ?_, completedEntry_publish completedAtUs, hlength, hsorted,
        ?_, ?_⟩
      · refine ⟨(x.before.finished token completedAtUs).summary, ?_, htoken.trans hr.token.symm, rfl,
          ?_⟩
        · simp [Store.completed, Store.publish, Store.setBank]
        · simp [Store.finished, Store.inOrder]
      · -- A lost observation would have left a flag.
        cases hlost : (journal h).lost with
        | false => rfl
        | true =>
            rcases hr.lost hlost with hflag | hflag
            · exact absurd (hflag.symm.trans ho) (by rintro ⟨⟩)
            · exact absurd (hflag.symm.trans ht) (by rintro ⟨⟩)
      · intro e
        rw [hmem, (hr.holds ho ht).mem_entries]
        refine exists_congr fun input => and_congr_right fun hchampion => ?_
        exact (journal_wellFormed h input hchampion.mem).copiedTo_iff.symm
      · intro e he
        exact hpast e ((hmem e).1 he)

theorem eq_of_ranked {l l' : List Entry} (hl : l.Pairwise fun a b => a.rank < b.rank)
    (hl' : l'.Pairwise fun a b => a.rank < b.rank) (hmem : ∀ e, e ∈ l ↔ e ∈ l') : l = l' := by
  have hnodup : ∀ {l : List Entry}, l.Pairwise (fun a b => a.rank < b.rank) → l.Nodup := by
    intro l hl
    exact hl.imp fun hlt heq => absurd (congrArg Entry.rank heq) hlt.ne
  have hperm : l.Perm l' := (List.perm_ext_iff_of_nodup (hnodup hl) (hnodup hl')).2 hmem
  apply hperm.eq_of_pairwise _ hl hl'
  intro a b _ _ hab hba
  exact absurd (hab.trans hba) (lt_irrefl _)

theorem Snapshot.eq_of_perm {j' : Journal} {t t' : UInt64} {l l' : List Entry}
    (hs : Snapshot j t s l) (hs' : Snapshot j' t' s' l') (hperm : j.adds.Perm j'.adds)
    (hd : j.adds.Pairwise fun a b => a.key = b.key → a.time ≠ b.time) : l = l' := by
  apply eq_of_ranked hs.sorted hs'.sorted
  intro e
  rw [hs.contents, hs'.contents]
  simp only [champion_perm hperm hd]

/-- A published scan: all its planned channels were reported finished and no observation was lost; its
entries are the champions of the well-formed observations, field for field, at most 64, strictly
ordered by band, channel and address, none from the future; and the order in which the observations
came in does not matter as long as their times tell them apart. -/
theorem snapshot_contents {x : Record} (hrun : Run (x :: h) s)
    (hx : x.result = .finish .published) :
    ∃ token scope completedAtUs entries, x.op = .finish token scope completedAtUs ∧
      token = (journal h).token ∧ Snapshot (journal h) completedAtUs s entries ∧
      ∀ {x' : Record} {h' : List Record} {s' : Store}, Run (x' :: h') s' →
        x'.result = .finish .published → (journal h).adds.Perm (journal h').adds →
        ((journal h).adds.Pairwise fun a b => a.key = b.key → a.time ≠ b.time) →
        ∀ i, s.completedEntry i = s'.completedEntry i := by
  rcases run_snapshot hrun hx with ⟨token, scope, completedAtUs, entries, hop, htoken, hs⟩
  refine ⟨token, scope, completedAtUs, entries, hop, htoken, hs, ?_⟩
  intro x' h' s' hrun' hx' hperm hd i
  rcases run_snapshot hrun' hx' with ⟨_, _, _, entries', _, _, hs'⟩
  rw [hs.read, hs'.read, hs.eq_of_perm hs' hperm hd]

/-- A beacon of the network "ab" on channel 6, its name in the first element. -/
def namedBeacon (bssid capability : UInt8) (observedAtUs : UInt64) : Input :=
  { bssid := some fun _ => bssid, channel := ⟨.ghz2, 6⟩, observedAtUs := observedAtUs
    ssid := some fun i => [0x61, 0x62].getD i 0, ssidLength := 2
    ies := some fun i => [0, 2, 0x61, 0x62].getD i 0, ieLength := 4, originalIeLength := 4
    capability := capability.toUInt16, beaconInterval := 100 }

/-- A scan of channel 6 that sees two networks, one of them twice. -/
def namedScan : List Op :=
  [.begin 1 1, .plan ⟨1, 1⟩ (some [⟨.ghz2, 6⟩]), .add ⟨1, 1⟩ (namedBeacon 4 1 5),
    .add ⟨1, 1⟩ (beacon 2 5), .add ⟨1, 1⟩ (namedBeacon 4 0x11 7),
    .channelFinished ⟨1, 1⟩ ⟨.ghz2, 6⟩]

theorem snapshot_contents_namedScan :
    ∃ x h s, Run (x :: h) s ∧ x.result = .finish .published ∧ (journal h).adds.length = 3 ∧
      ((s.completedEntry 0).map fun e => (e.observedAtUs, e.bssid 0, e.ssidLength)) =
        some (5, 2, 0) ∧
      ((s.completedEntry 1).map fun e => (e.observedAtUs, e.bssid 0, e.capability)) =
        some (7, 4, 0x11) ∧
      ((s.completedEntry 1).map fun e => (List.ofFn e.ssid).take 3) = some [0x61, 0x62, 0] ∧
      ((s.completedEntry 1).map fun e => (List.ofFn e.ies).take 5) = some [0, 2, 0x61, 0x62, 0] ∧
      s.completedEntry 2 = none ∧
      ∃ completedAtUs entries, Snapshot (journal h) completedAtUs s entries := by
  have hrun := (trial_run namedScan).call
    (Prog.run_outcome (fun c (_ : Unit) => c.elim)
      (exec (.finish ⟨1, 1⟩ .fullScan 10) (trial namedScan).2) ())
  have hx : (apply (.finish ⟨1, 1⟩ .fullScan 10) (trial namedScan).2).1 =
      .finish .published := by decide +kernel
  refine ⟨_, _, _, hrun, hx, by decide +kernel, by decide +kernel, by decide +kernel,
    by decide +kernel, by decide +kernel, by decide +kernel, ?_⟩
  rcases snapshot_contents hrun hx with ⟨_, _, completedAtUs, entries, _, _, hs, _⟩
  exact ⟨completedAtUs, entries, hs⟩

end NativeScan
end Rtl8852be
