import Mathlib.Data.Nat.Bitwise
import Rtl8852be.ForegroundScan.Lifecycle
import Rtl8852be.WclScan.NativeWclScan

/-!
# Pipeline — three validators in series

`decode` checks a message, `map` checks what it decoded and the foreground scan checks the plan.  A
message that passes the first two is admitted by the third one.

* `readChannels_ok` — what the channel loop has established when it ends;
* `Decoded` — what holds of a decoded request;
* `scan_pipeline` — the three of them together.
-/

namespace Rtl8852be
namespace WclScan

open Network NativeScan ForegroundScan Sequence

/-! ## Channel masks -/

theorem toNat_channelBit {channel : UInt32} (hlow : 1 ≤ channel.toNat) (hhigh : channel.toNat ≤ 11) :
    (channelBit channel).toNat = 2 ^ (channel.toNat - 1) := by
  have hone : (1 : UInt32).toNat = 1 := rfl
  have hle : (1 : UInt32) ≤ channel := by
    rw [UInt32.le_iff_toNat_le]
    omega
  have hshift : (channel - 1).toUInt16.toNat = channel.toNat - 1 := by
    rw [UInt32.toNat_toUInt16, UInt32.toNat_sub_of_le _ _ hle, hone]
    omega
  have hpow : 2 ^ (channel.toNat - 1) ≤ 2 ^ 10 := Nat.pow_le_pow_right (by omega) (by omega)
  have hsmall : (channel.toNat - 1) % 16 = channel.toNat - 1 := Nat.mod_eq_of_lt (by omega)
  rw [channelBit, UInt16.toNat_shiftLeft, hshift, hsmall, UInt16.toNat_one, Nat.one_shiftLeft]
  apply Nat.mod_eq_of_lt
  omega

theorem and_channelBit {mask : UInt16} {channel : UInt32} (hlow : 1 ≤ channel.toNat)
    (hhigh : channel.toNat ≤ 11) :
    mask &&& channelBit channel = 0 ↔ mask.toNat.testBit (channel.toNat - 1) = false := by
  rw [← UInt16.toNat_inj, UInt16.toNat_and, toNat_channelBit hlow hhigh, Nat.and_two_pow]
  cases mask.toNat.testBit (channel.toNat - 1) <;> simp

theorem testBit_or_channelBit {mask : UInt16} {channel : UInt32} {k : ℕ} (hlow : 1 ≤ channel.toNat)
    (hhigh : channel.toNat ≤ 11) :
    (mask ||| channelBit channel).toNat.testBit k =
      (mask.toNat.testBit k || decide (channel.toNat - 1 = k)) := by
  rw [UInt16.toNat_or, toNat_channelBit hlow hhigh, Nat.testBit_or, Nat.testBit_two_pow]

/-! ## Chains of checks -/

section Checks

variable {ε α : Type} {c : Prop} [Decidable c] {e e' : ε} {rest : Except ε α} {a : α}

theorem ite_error_eq_ok (h : (if c then .error e else rest) = .ok a) : ¬ c ∧ rest = .ok a := by
  split at h
  · cases h
  · exact ⟨‹_›, h⟩

theorem ite_error_eq_error (h : (if c then .error e else rest) = .error e') : e = e' ∨ rest = .error e' := by
  split at h
  · cases h
    exact Or.inl rfl
  · exact Or.inr h

end Checks

/-! ## The channel loops -/

/-- The channel number of an entry of the message. -/
def channelAt (p : List UInt8) (i : ℕ) : UInt32 := little32 (p.drop (channelOffset + i * channelStride + 4))

/-- What is known of the channels from index `i` on, `n` of them, after the loop. -/
structure ReadFrom (p : List UInt8) (permitted seen : UInt16) (n i : ℕ) (before after : ℕ → UInt8) : Prop where
  outside : ∀ j, j < i ∨ i + n ≤ j → after j = before j
  copied : ∀ j, i ≤ j → j < i + n → (after j).toNat = (channelAt p j).toNat
  range : ∀ j, i ≤ j → j < i + n → 1 ≤ (after j).toNat ∧ (after j).toNat ≤ 11
  permitted : ∀ j, i ≤ j → j < i + n → permitted.toNat.testBit ((after j).toNat - 1) = true
  unseen : ∀ j, i ≤ j → j < i + n → seen.toNat.testBit ((after j).toNat - 1) = false
  distinct : ∀ j k, i ≤ j → j < k → k < i + n → after j ≠ after k

section Loops

variable {p : List UInt8} {permitted : UInt16}

theorem readChannels_ok {n : ℕ} : ∀ {i : ℕ} {seen : UInt16} {before after : ℕ → UInt8},
    readChannels p permitted n i seen before = .ok after → ReadFrom p permitted seen n i before after := by
  induction n with
  | zero =>
      intro i seen before after hread
      cases hread
      exact
        { outside := fun _ _ => rfl
          copied := fun j hi hn => absurd hn (by omega)
          range := fun j hi hn => absurd hn (by omega)
          permitted := fun j hi hn => absurd hn (by omega)
          unseen := fun j hi hn => absurd hn (by omega)
          distinct := fun j k hi hjk hk => absurd hk (by omega) }
  | succ n ih =>
      intro i seen before after hread
      simp only [readChannels, List.drop_drop] at hread
      rcases ite_error_eq_ok hread with ⟨hentry, hread⟩
      rcases ite_error_eq_ok hread with ⟨hseen, hread⟩
      rcases ite_error_eq_ok hread with ⟨hpermitted, hread⟩
      have hchannel : little32 (p.drop (channelOffset + i * channelStride + 4)) = channelAt p i := rfl
      rw [hchannel] at hread hentry hseen hpermitted
      simp only [not_or, Decidable.not_not, UInt32.not_lt, UInt32.le_iff_toNat_le] at hentry
      have hlow : 1 ≤ (channelAt p i).toNat := hentry.2.2.1
      have hhigh : (channelAt p i).toNat ≤ 11 := hentry.2.2.2
      have htail := ih hread
      -- the channel just read stays where it was put
      have hhere : after i = (channelAt p i).toUInt8 := by
        rw [htail.outside i (Or.inl (Nat.lt_succ_self i)), if_pos rfl]
      have hnat : (after i).toNat = (channelAt p i).toNat := by
        rw [hhere, UInt32.toNat_toUInt8]
        omega
      have hseen' := (and_channelBit hlow hhigh).1 (Decidable.not_not.1 hseen)
      have hbit : permitted.toNat.testBit ((channelAt p i).toNat - 1) = true := by
        simpa [and_channelBit hlow hhigh] using hpermitted
      have hlater : ∀ j, i + 1 ≤ j → j < i + 1 + n →
          seen.toNat.testBit ((after j).toNat - 1) = false ∧
            (channelAt p i).toNat - 1 ≠ (after j).toNat - 1 := by
        intro j hij hjn
        have hunseen := htail.unseen j hij hjn
        rw [testBit_or_channelBit hlow hhigh, Bool.or_eq_false_iff, decide_eq_false_iff_not] at hunseen
        exact hunseen
      refine ⟨?_, ?_, ?_, ?_, ?_, ?_⟩
      · intro j hj
        rw [htail.outside j (by omega), if_neg (by omega)]
      all_goals
        intro j
        rcases Nat.lt_trichotomy i j with hij | rfl | hij
      · exact fun _ hn => htail.copied j hij (by omega)
      · exact fun _ _ => hnat
      · exact fun h => absurd h (by omega)
      · exact fun _ hn => htail.range j hij (by omega)
      · exact fun _ _ => hnat ▸ ⟨hlow, hhigh⟩
      · exact fun h => absurd h (by omega)
      · exact fun _ hn => htail.permitted j hij (by omega)
      · exact fun _ _ => hnat.symm ▸ hbit
      · exact fun h => absurd h (by omega)
      · exact fun _ hn => (hlater j hij (by omega)).1
      · exact fun _ _ => hnat.symm ▸ hseen'
      · exact fun h => absurd h (by omega)
      · exact fun k _ hjk hk => htail.distinct j k hij hjk (by omega)
      · intro k _ hik hk heq
        exact (hlater k hik (by omega)).2 (by rw [← heq, hnat])
      · exact fun k h => absurd h (by omega)

theorem readChannels_error {n : ℕ} : ∀ {i : ℕ} {seen : UInt16} {before : ℕ → UInt8} {status : Status},
    readChannels p permitted n i seen before = .error status → status ≠ .knownSubset := by
  induction n with
  | zero =>
      intro i seen before status hread
      cases hread
  | succ n ih =>
      intro i seen before status hread
      simp only [readChannels] at hread
      rcases ite_error_eq_error hread with rfl | hread
      · exact Status.noConfusion
      · rcases ite_error_eq_error hread with rfl | hread
        · exact Status.noConfusion
        · rcases ite_error_eq_error hread with rfl | hread
          · exact Status.noConfusion
          · exact ih hread

/-- Distinct channels pass the loop of `map`. -/
theorem distinctChannels_of {channels : ℕ → UInt8} {n : ℕ} : ∀ {i : ℕ} {seen : UInt16},
    (∀ j, i ≤ j → j < i + n → 1 ≤ (channels j).toNat ∧ (channels j).toNat ≤ 11) →
    (∀ j, i ≤ j → j < i + n → seen.toNat.testBit ((channels j).toNat - 1) = false) →
    (∀ j k, i ≤ j → j < k → k < i + n → channels j ≠ channels k) →
    distinctChannels channels n i seen = true := by
  induction n with
  | zero => exact fun _ _ _ => rfl
  | succ n ih =>
      intro i seen hrange hunseen hdistinct
      have hi := hrange i (le_refl i) (by omega)
      have hwide : (channels i).toUInt32.toNat = (channels i).toNat := UInt8.toNat_toUInt32 _
      have hclear : seen &&& channelBit (channels i).toUInt32 = 0 := by
        rw [and_channelBit (by omega) (by omega), hwide]
        exact hunseen i (le_refl i) (by omega)
      have hin : ¬ (channels i < 1 ∨ 11 < channels i) := by
        simp only [UInt8.lt_iff_toNat_lt]
        have hone : (1 : UInt8).toNat = 1 := rfl
        have heleven : (11 : UInt8).toNat = 11 := rfl
        omega
      simp only [distinctChannels, if_neg hin, hclear, ne_eq, not_true_eq_false, if_false]
      refine ih (fun j hij hjn => hrange j (by omega) (by omega)) ?_
        (fun j k hij hjk hk => hdistinct j k (by omega) hjk (by omega))
      intro j hij hjn
      rw [testBit_or_channelBit (by omega) (by omega), hunseen j (by omega) (by omega), Bool.false_or,
        decide_eq_false_iff_not, hwide]
      intro heq
      have hj := hrange j (by omega) (by omega)
      exact hdistinct i j (le_refl i) hij (by omega) (UInt8.toNat_inj.1 (by omega))

end Loops

/-! ## Decoded requests -/

/-- The channels that may be visited in a mode, whatever the message asks for. -/
def Policy.permitted (policy : Policy) : Mode → UInt16
  | .active => policy.permittedActiveChannels
  | _ => policy.permittedPassiveChannels

/-- The dwell time that the mode selects. -/
def Request.dwellMs (r : Request) : UInt32 := if r.mode = .active then r.activeDwellMs else r.passiveDwellMs

/-- `r` is what the message `p` says, as far as `policy` permits it. -/
structure Decoded (p : List UInt8) (policy : Policy) (r : Request) : Prop where
  length : p.length = messageBytes
  mode : r.mode = .active ∧ little32 (p.drop 0x40) = 1 ∨ r.mode = .passive ∧ little32 (p.drop 0x40) = 2
  bssType : r.bssType = .infrastructure ∨ r.bssType = .any
  counted : r.channelCount.toNat = (little32 (p.drop 0x54)).toNat
  count : 1 ≤ r.channelCount.toNat ∧ r.channelCount.toNat ≤ maxChannels
  order : ∀ i < r.channelCount.toNat, (r.channels i).toNat = (channelAt p i).toNat
  rest : ∀ i, r.channelCount.toNat ≤ i → r.channels i = 0
  range : ∀ i < r.channelCount.toNat, 1 ≤ (r.channels i).toNat ∧ (r.channels i).toNat ≤ 11
  distinct : ∀ i k, i < k → k < r.channelCount.toNat → r.channels i ≠ r.channels k
  permitted : ∀ i < r.channelCount.toNat,
    (policy.permitted r.mode).toNat.testBit ((r.channels i).toNat - 1) = true
  dwell : r.activeDwellMs ≤ maxDwellMs ∧ r.passiveDwellMs ≤ maxDwellMs

section Decoding

variable {bytes : Option (List UInt8)} {policy : Policy} {r : Request}

theorem read_ok (hread : read bytes policy = .ok r) : ∃ p, bytes = some p ∧ Decoded p policy r := by
  cases bytes with
  | none => cases hread
  | some p =>
      refine ⟨p, rfl, ?_⟩
      simp only [read] at hread
      rcases ite_error_eq_ok hread with ⟨hlength, hread⟩
      rcases ite_error_eq_ok hread with ⟨-, hread⟩
      rcases ite_error_eq_ok hread with ⟨-, hread⟩
      rcases ite_error_eq_ok hread with ⟨-, hread⟩
      rcases ite_error_eq_ok hread with ⟨hmode, hread⟩
      rcases ite_error_eq_ok hread with ⟨-, hread⟩
      rcases ite_error_eq_ok hread with ⟨-, hread⟩
      rcases ite_error_eq_ok hread with ⟨hcount, hread⟩
      split at hread
      · cases hread
      · rename_i channels hchannels
        rcases ite_error_eq_ok hread with ⟨htiming, hread⟩
        simp only [not_or, Decidable.not_not, UInt32.not_lt, not_lt] at hlength hcount htiming
        have hr := readChannels_ok hchannels
        have hbound : (little32 (p.drop 0x54)).toNat ≤ 11 := hcount.2
        have hnat : (little32 (p.drop 0x54)).toUInt8.toNat = (little32 (p.drop 0x54)).toNat := by
          rw [UInt32.toNat_toUInt8]
          omega
        have hpositive : (little32 (p.drop 0x54)).toNat ≠ 0 := fun hzero =>
          hcount.1 (UInt32.toNat_inj.1 hzero)
        cases hread
        refine ⟨hlength, ?_, ?_, hnat, ?_, ?_, ?_, ?_, ?_, ?_, htiming.2.1, htiming.2.2.2.1⟩
        · by_cases hactive : little32 (p.drop 0x40) = 1
          · exact Or.inl ⟨if_pos hactive, hactive⟩
          · refine Or.inr ⟨if_neg hactive, ?_⟩
            by_contra hpassive
            exact hmode (Or.inl ⟨hactive, hpassive⟩)
        · dsimp only
          split
          · exact Or.inl rfl
          · exact Or.inr rfl
        · rw [hnat]
          exact ⟨Nat.pos_of_ne_zero hpositive, hbound⟩
        all_goals rw [hnat]
        · exact fun i hi => hr.copied i (Nat.zero_le i) (by omega)
        · exact fun i hi => hr.outside i (Or.inr (by omega))
        · exact fun i hi => hr.range i (Nat.zero_le i) (by omega)
        · exact fun i k hik hk => hr.distinct i k (Nat.zero_le i) hik (by omega)
        · intro i hi
          have hbit := hr.permitted i (Nat.zero_le i) (by omega)
          by_cases hactive : little32 (p.drop 0x40) = 1
          · simpa [hactive, Policy.permitted] using hbit
          · simpa [hactive, Policy.permitted] using hbit

/-- No check refuses a message with the status of a decoded one. -/
theorem read_error {status : Status} (hread : read bytes policy = .error status) : status ≠ .knownSubset := by
  rintro rfl
  cases bytes with
  | none => cases hread
  | some p =>
      simp only [read] at hread
      rcases ite_error_eq_error hread with h | hread
      · cases h
      rcases ite_error_eq_error hread with h | hread
      · cases h
      rcases ite_error_eq_error hread with h | hread
      · cases h
      rcases ite_error_eq_error hread with h | hread
      · cases h
      rcases ite_error_eq_error hread with h | hread
      · cases h
      rcases ite_error_eq_error hread with h | hread
      · cases h
      rcases ite_error_eq_error hread with h | hread
      · cases h
      rcases ite_error_eq_error hread with h | hread
      · cases h
      split at hread
      · rename_i status hstatus
        cases hread
        exact readChannels_error hstatus rfl
      · rcases ite_error_eq_error hread with h | hread
        · cases h
        · cases hread

theorem decode_known (hknown : (decode bytes policy).1.status = .knownSubset) :
    ∃ p, bytes = some p ∧ Decoded p policy (decode bytes policy).2 := by
  unfold decode at hknown ⊢
  cases hread : read bytes policy with
  | ok r => exact read_ok hread
  | error status =>
      rw [hread] at hknown
      exact absurd hknown (read_error hread)

theorem decode_refused (hrefused : (decode bytes policy).1.status ≠ .knownSubset) :
    (decode bytes policy).2 = {} := by
  unfold decode at hrefused ⊢
  cases hread : read bytes policy with
  | ok r =>
      rw [hread] at hrefused
      exact absurd rfl hrefused
  | error status => rfl

/-! ## Plans -/

/-- Either nothing is planned, or what the request says is. -/
theorem map_cases (result : Result) (r : Request) :
    (map result r).1.status ≠ .planned ∧ (map result r).2 = {} ∨
      (map result r).1.status = .planned ∧
      (map result r).2 = ⟨r.mode == .active, r.dwellMs.toUInt16, r.channelCount,
        fun i => if i < r.channelCount.toNat then r.channels i else 0⟩ := by
  have hdwell : (if (r.mode == .active) = true then r.activeDwellMs else r.passiveDwellMs) = r.dwellMs := by
    simp [Request.dwellMs]
  simp only [map, hdwell]
  split_ifs
  all_goals first
    | exact Or.inl ⟨PlanStatus.noConfusion, rfl⟩
    | exact Or.inr ⟨rfl, rfl⟩

theorem Decoded.distinctChannels {p : List UInt8} (hd : Decoded p policy r) :
    WclScan.distinctChannels r.channels r.channelCount.toNat 0 0 = true := by
  apply distinctChannels_of
  · exact fun i _ hi => hd.range i (by omega)
  · exact fun i _ _ => by simp
  · exact fun i k _ hik hk => hd.distinct i k hik (by omega)

/-- A decoded request is planned unless its times are not for a disconnected station. -/
theorem Decoded.map_planned {p : List UInt8} {result : Result} (hd : Decoded p policy r)
    (hresult : result.status = .knownSubset) :
    (map result r).1.status = .planned ↔
      r.homeRestMs = 0 ∧ r.homeAwayMs = 0 ∧ 10 ≤ r.dwellMs ∧ r.dwellMs ≤ 1000 := by
  have hmode : ¬ (r.mode ≠ .active ∧ r.mode ≠ .passive) := by
    rcases hd.mode with ⟨h, -⟩ | ⟨h, -⟩ <;> simp [h]
  have hcount : ¬ (r.channelCount = 0 ∨ 11 < r.channelCount) := by
    have hbound := hd.count
    simp only [maxChannels] at hbound
    simp only [UInt8.lt_iff_toNat_lt, ← UInt8.toNat_inj]
    have hzero : (0 : UInt8).toNat = 0 := rfl
    have heleven : (11 : UInt8).toNat = 11 := rfl
    omega
  have hdwell : (if (r.mode == .active) = true then r.activeDwellMs else r.passiveDwellMs) = r.dwellMs := by
    simp [Request.dwellMs]
  unfold map
  rw [if_neg (not_not.2 hresult), if_neg hmode]
  dsimp only
  rw [hdwell, if_neg hcount, hd.distinctChannels]
  constructor
  · intro hplanned
    split_ifs at hplanned with hhome hrange
    · simp only [not_or, Decidable.not_not, UInt32.not_lt] at hhome hrange
      exact ⟨hhome.1, hhome.2, hrange.1, hrange.2⟩
  · rintro ⟨hrest, haway, hlow, hhigh⟩
    rw [if_neg (by simp [hrest, haway]), if_neg (by simp [UInt32.not_lt, hlow, hhigh])]
    rfl

theorem Decoded.map_plan {p : List UInt8} {result : Result} (hd : Decoded p policy r)
    (hplanned : (map result r).1.status = .planned) :
    (map result r).2 = ⟨r.mode == .active, r.dwellMs.toUInt16, r.channelCount, r.channels⟩ := by
  have hchannels : (fun i => if i < r.channelCount.toNat then r.channels i else 0) = r.channels := by
    funext i
    split
    · rfl
    · exact (hd.rest i (by omega)).symm
  rcases map_cases result r with ⟨hno, -⟩ | ⟨-, hplan⟩
  · exact absurd hplanned hno
  · rw [hplan, hchannels]

theorem known_of_planned {result : Result} (hplanned : (map result r).1.status = .planned) :
    result.status = .knownSubset := by
  by_contra hno
  unfold map at hplanned
  rw [if_pos hno] at hplanned
  cases hplanned

/-! ## Admission -/

theorem validPlan_of {cs : List NativeScan.Channel} (hvalid : ∀ c ∈ cs, c.valid = true) (hnodup : cs.Nodup) :
    Store.validPlan cs = true := by
  induction cs with
  | nil => rfl
  | cons c cs ih =>
      rcases List.nodup_cons.1 hnodup with ⟨hnew, hrest⟩
      have htail := ih (fun c hc => hvalid c (List.mem_cons_of_mem _ hc)) hrest
      simp [Store.validPlan, hvalid c List.mem_cons_self, htail, hnew]

/-- The channels of a decoded request are a plan that the scan accepts. -/
theorem Decoded.validPlan {p : List UInt8} (hd : Decoded p policy r) :
    Store.validPlan ((cells r.channels r.channelCount.toNat).map fun number => ⟨.ghz2, number⟩) = true := by
  apply validPlan_of
  · intro c hc
    simp only [cells, List.map_map, List.mem_map, List.mem_range, Function.comp_apply] at hc
    rcases hc with ⟨i, hi, rfl⟩
    rcases hd.range i hi with ⟨hlow, hhigh⟩
    simp only [NativeScan.Channel.valid, Bool.and_eq_true, decide_eq_true_eq, UInt8.le_iff_toNat_le]
    have hone : (1 : UInt8).toNat = 1 := rfl
    have hfourteen : (14 : UInt8).toNat = 14 := rfl
    omega
  · simp only [cells, List.map_map]
    refine List.Nodup.map_on ?_ List.nodup_range
    intro i hi k hk heq
    rw [List.mem_range] at hi hk
    have hsame : r.channels i = r.channels k := congrArg NativeScan.Channel.number heq
    rcases Nat.lt_trichotomy i k with hik | hik | hik
    · exact absurd hsame (hd.distinct i k hik hk)
    · exact hik
    · exact absurd hsame.symm (hd.distinct k i hik hi)

end Decoding

/-- The station is ready, and has nothing else to do. -/
structure Idle (r : Readiness) : Prop where
  ready : r.ready = true
  stationIdle : r.stationIdle = true
  protocolIdle : r.protocolIdle = true
  connected : r.connected = false
  pendingJoin : r.pendingJoin = false
  legacyCredentials : r.legacyCredentials = false
  otherWork : r.otherWork = false

theorem begin_accepts {c : Controller} {ready : Readiness} {activeScan : Bool} {epoch now : UInt64}
    {plan : List NativeScan.Channel} {dwellMs : UInt16} (hactive : c.active = false) (hdwell : c.dwell.operation = 0)
    (hserial : c.serial ≠ 0xffffffffffffffff) (hidle : Idle ready)
    (hallowed : activeScan = true → ready.activeAllowed = true) (hzero : epoch ≠ 0) (hepoch : c.epoch ≤ epoch)
    (hnow : timeoutUs < (0xffffffffffffffff : UInt64) - now) (hplan : plan ≠ [])
    (hmax : plan.length ≤ NativeScan.maxChannels) (hvalid : Store.validPlan plan = true)
    (hlow : 10 ≤ dwellMs) (hhigh : dwellMs ≤ 1000) :
    c.begin ready activeScan epoch now (some plan) dwellMs =
      (.accepted, c.begun activeScan epoch now plan dwellMs) := by
  have hprobes : ¬ (activeScan && !ready.activeAllowed) = true := by
    cases activeScan with
    | false => simp
    | true => simp [hallowed rfl]
  have hbusy : ¬ (c.active || c.dwell.operation != 0 || ready.connected || ready.pendingJoin ||
      ready.legacyCredentials || ready.otherWork || !ready.stationIdle || !ready.protocolIdle) = true := by
    simp [hactive, hdwell, hidle.connected, hidle.pendingJoin, hidle.legacyCredentials, hidle.otherWork,
      hidle.stationIdle, hidle.protocolIdle]
  unfold Controller.begin
  rw [if_neg hprobes, if_neg (by simp [hidle.ready]), if_neg hbusy]
  dsimp only
  apply if_neg
  simp only [not_or, UInt64.not_lt, UInt16.not_lt, not_lt, Bool.not_eq_false]
  exact ⟨hzero, hepoch, hserial, hplan, hlow, hhigh, hmax, UInt64.le_of_lt hnow, hvalid⟩

/-! ## The pipeline -/

/-- What the three validators promise for one message, which was decoded to `d` and planned to `m`. -/
structure Pipeline (bytes : Option (List UInt8)) (policy : Policy) (d : Result × Request)
    (m : PlanResult × RequestedPlan) : Prop where
  decoded : d.1.status = .knownSubset → ∃ p, bytes = some p ∧ Decoded p policy d.2
  refused : d.1.status ≠ .knownSubset → d.2 = {}
  planned : d.1.status = .knownSubset → (m.1.status = .planned ↔
    d.2.homeRestMs = 0 ∧ d.2.homeAwayMs = 0 ∧ 10 ≤ d.2.dwellMs ∧ d.2.dwellMs ≤ 1000)
  plan : m.1.status = .planned → m.2.active = (d.2.mode == .active) ∧
    m.2.dwellMs.toNat = d.2.dwellMs.toNat ∧ m.2.channelCount = d.2.channelCount ∧ m.2.channels = d.2.channels
  unplanned : m.1.status ≠ .planned → m.2 = {}
  admitted : m.1.status = .planned → ∀ (c : Controller) (ready : Readiness) (epoch now : UInt64),
    c.active = false → c.dwell.operation = 0 → c.serial ≠ 0xffffffffffffffff → Idle ready →
    (m.2.active = true → ready.activeAllowed = true) → epoch ≠ 0 → c.epoch ≤ epoch →
    timeoutUs < (0xffffffffffffffff : UInt64) - now →
    (c.begin ready m.2.active epoch now (some m.2.selected) m.2.dwellMs).1 = .accepted

theorem scan_pipeline (bytes : Option (List UInt8)) (policy : Policy) :
    Pipeline bytes policy (decode bytes policy) (map (decode bytes policy).1 (decode bytes policy).2) := by
  generalize hdecode : decode bytes policy = d
  have hd : d.1.status = .knownSubset → ∃ p, bytes = some p ∧ Decoded p policy d.2 := by
    intro hknown
    rw [← hdecode] at hknown ⊢
    exact decode_known hknown
  -- what a planned request was decoded from, and that its dwell time fits the plan
  have hplan : (map d.1 d.2).1.status = .planned → ∃ p, Decoded p policy d.2 ∧
      d.2.dwellMs.toUInt16.toNat = d.2.dwellMs.toNat ∧ 10 ≤ d.2.dwellMs.toNat ∧ d.2.dwellMs.toNat ≤ 1000 := by
    intro hplanned
    have hknown := known_of_planned hplanned
    rcases hd hknown with ⟨p, -, hp⟩
    rcases (hp.map_planned hknown).1 hplanned with ⟨-, -, hlow, hhigh⟩
    rw [UInt32.le_iff_toNat_le] at hlow hhigh
    have hten : (10 : UInt32).toNat = 10 := rfl
    have hthousand : (1000 : UInt32).toNat = 1000 := rfl
    refine ⟨p, hp, ?_, by omega, by omega⟩
    rw [UInt32.toNat_toUInt16]
    omega
  refine ⟨hd, ?_, ?_, ?_, ?_, ?_⟩
  · intro hrefused
    rw [← hdecode] at hrefused ⊢
    exact decode_refused hrefused
  · intro hknown
    rcases hd hknown with ⟨p, -, hp⟩
    exact hp.map_planned hknown
  · intro hplanned
    rcases hplan hplanned with ⟨p, hp, hdwell, -, -⟩
    rw [hp.map_plan hplanned]
    exact ⟨rfl, hdwell, rfl, rfl⟩
  · intro hno
    rcases map_cases d.1 d.2 with ⟨-, hnothing⟩ | ⟨hyes, -⟩
    · exact hnothing
    · exact absurd hyes hno
  · intro hplanned c ready epoch now hactive hdwell hserial hidle hallowed hzero hepoch hnow
    rcases hplan hplanned with ⟨p, hp, hnat, hlow, hhigh⟩
    rw [hp.map_plan hplanned] at hallowed ⊢
    have hcount := hp.count
    refine congrArg Prod.fst
      (begin_accepts hactive hdwell hserial hidle hallowed hzero hepoch hnow ?_ ?_ hp.validPlan ?_ ?_)
    · intro hempty
      have hlength := congrArg List.length hempty
      simp only [List.length_map, length_cells, List.length_nil] at hlength
      omega
    · simp only [List.length_map, length_cells]
      exact hcount.2.trans (by decide)
    · rw [UInt16.le_iff_toNat_le, hnat]
      exact hlow
    · rw [UInt16.le_iff_toNat_le, hnat]
      exact hhigh

/-- Two channels, actively, 100 ms each. -/
def message : List UInt8 :=
  [0, 0, 0, 0, 0, 0, 0, 0, 0, 0, 0, 0, 0, 0, 0, 0, 2, 0, 0, 0] ++ List.replicate 44 0 ++
    [1, 0, 0, 0, 8, 0, 0, 0, 100, 0, 0, 0, 100, 0, 0, 0, 0, 0, 0, 0, 2, 0, 0, 0] ++
    [1, 0, 0, 0, 6, 0, 0, 0, 10, 0, 0, 0, 1, 0, 0, 0, 1, 0, 0, 0, 10, 0, 0, 0] ++ List.replicate 5344 0

def policy : Policy := ⟨.darwin24_4_0_d8b50fc2, .unsupported, 0x7ff, 0x7ff⟩

def idle : Readiness := { ready := true, stationIdle := true, protocolIdle := true, activeAllowed := true }

theorem idle_idle : Idle idle := ⟨rfl, rfl, rfl, rfl, rfl, rfl, rfl⟩

theorem message_planned : (map (decode (some message) policy).1 (decode (some message) policy).2).1.status =
    .planned := by
  decide +kernel

theorem scan_pipeline_message :
    (decode (some message) policy).1.status = .knownSubset ∧
      cells (decode (some message) policy).2.channels 2 = [6, 1] ∧
      (({} : Controller).begin idle true 1 10
        (some (map (decode (some message) policy).1 (decode (some message) policy).2).2.selected) 100).1 =
          .accepted := by
  have hplanned := message_planned
  have hactive : (map (decode (some message) policy).1 (decode (some message) policy).2).2.active = true := by
    decide +kernel
  have hdwell : (map (decode (some message) policy).1 (decode (some message) policy).2).2.dwellMs = 100 := by
    decide +kernel
  have hadmitted := (scan_pipeline (some message) policy).admitted hplanned {} idle 1 10 rfl rfl (by decide)
    idle_idle (fun _ => rfl) (by decide) (by decide) (by decide)
  rw [hactive, hdwell] at hadmitted
  exact ⟨by decide +kernel, by decide +kernel, hadmitted⟩

/-! ## Request numbers -/

theorem exists_serial (n : ℕ) : n < 2 ^ 64 → ∃ h c, ForegroundScan.Run h c ∧ c.serial.toNat = n ∧
    c.active = false ∧ c.dwell.operation = 0 ∧ c.epoch ≤ 1 := by
  induction n with
  | zero =>
      intro _
      exact ⟨[], {}, Interaction.Run.nil, rfl, rfl, rfl, by decide⟩
  | succ n ih =>
      intro hn
      rcases ih (by omega) with ⟨h, c, hrun, hserial, hactive, hdwell, hepoch⟩
      have hmax : c.serial ≠ 0xffffffffffffffff := by
        intro hmax
        have hnat : (0xffffffffffffffff : UInt64).toNat = 2 ^ 64 - 1 := rfl
        rw [hmax, hnat] at hserial
        omega
      -- a request that is cancelled before its first dwell
      have hbegin : c.begin idle false 1 0 (some [⟨.ghz2, 6⟩]) 100 =
          (.accepted, c.begun false 1 0 [⟨.ghz2, 6⟩] 100) :=
        begin_accepts hactive hdwell hmax idle_idle (fun _ => rfl) (by decide) hepoch (by decide) (by decide)
          (by decide) (by decide) (by decide) (by decide)
      rcases run_apply hrun (.begin idle false 1 0 (some [⟨.ghz2, 6⟩]) 100) with ⟨h', hrun'⟩
      rw [show (ForegroundScan.apply (.begin idle false 1 0 (some [⟨.ghz2, 6⟩]) 100) c).2 =
        c.begun false 1 0 [⟨.ghz2, 6⟩] 100 from congrArg Prod.snd hbegin] at hrun'
      rcases run_apply hrun' (.cancel ⟨1, c.serial + 1⟩ .caller 0) with ⟨h'', hrun''⟩
      refine ⟨h'', _, hrun'', ?_⟩
      have hcancel : (ForegroundScan.apply (.cancel ⟨1, c.serial + 1⟩ .caller 0)
          (c.begun false 1 0 [⟨.ghz2, 6⟩] 100)).2 = (c.begun false 1 0 [⟨.ghz2, 6⟩] 100).abandon .caller 0 := by
        simp [ForegroundScan.apply, Controller.cancel, Controller.begun, Controller.active]
      rw [hcancel]
      refine ⟨?_, rfl, rfl, UInt64.le_refl 1⟩
      show (c.serial + 1).toNat = n + 1
      have hone : (1 : UInt64).toNat = 1 := rfl
      rw [UInt64.toNat_add, hserial, hone, Nat.mod_eq_of_lt hn]

/-- When all request numbers are used up, nothing is admitted any more. -/
theorem scan_pipeline_exhausted : ∃ h c, ForegroundScan.Run h c ∧ c.active = false ∧ c.dwell.operation = 0 ∧
    Idle idle ∧ idle.activeAllowed = true ∧ c.epoch ≤ 1 ∧
    timeoutUs < (0xffffffffffffffff : UInt64) - 10 ∧
    (map (decode (some message) policy).1 (decode (some message) policy).2).1.status = .planned ∧
    (c.begin idle (map (decode (some message) policy).1 (decode (some message) policy).2).2.active 1 10
      (some (map (decode (some message) policy).1 (decode (some message) policy).2).2.selected)
      (map (decode (some message) policy).1 (decode (some message) policy).2).2.dwellMs).1 = .invalid := by
  rcases exists_serial (2 ^ 64 - 1) (by decide) with ⟨h, c, hrun, hserial, hactive, hdwell, hepoch⟩
  have hlast : c.serial = 0xffffffffffffffff := UInt64.toNat_inj.1 hserial
  refine ⟨h, c, hrun, hactive, hdwell, idle_idle, rfl, hepoch, by decide, message_planned, ?_⟩
  unfold Controller.begin
  rw [if_neg (by simp [idle]), if_neg (by simp [idle]), if_neg (by simp [idle, hactive, hdwell])]
  dsimp only
  rw [if_pos (Or.inr (Or.inr (Or.inl hlast)))]

end WclScan
end Rtl8852be
