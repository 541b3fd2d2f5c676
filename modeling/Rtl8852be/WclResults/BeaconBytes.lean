import Rtl8852be.WclResults.NativeWclBeacon
import Rtl8852be.Bits.Records
import Rtl8852be.Wire.FirmwareProtocol

/-!
# BeaconBytes — the draft of a scan result in memory

`NativeWclBeacon.hpp`, with the memory that `encode` writes.  The draft is cleared and then written run by
run.  The runs follow each other, so each of them reads back, and what lies between them is zero whatever
the buffer held before.

* `encodeAt_load` — the buffer holds what `encode` says;
* `draft_reads_back` — an accepted entry can be read from its draft, and a rejection leaves zeros.
-/

namespace Rtl8852be
namespace WclBeacon

open NativeScan
open Bits (Memory Run Ascending)

/-! ## Writing -/

def ssidBytes (entry : Entry) : List UInt8 := (List.range entry.ssidLength.toNat).map (ssidAt entry)

def ieBytes (entry : Entry) : List UInt8 := (List.range entry.ieLength.toNat).map (ieAt entry)

/-- The signal is written where it is in dBm. -/
def signalRuns (entry : Entry) : List Run :=
  if entry.signal.unit = .dbm then [⟨0x30, little32 entry.signal.value.toInt32.toUInt32⟩] else []

/-- What `encode` writes, in its order. -/
def runs (entry : Entry) : List Run :=
  [⟨0, little32 entry.ieLength.toUInt32⟩, ⟨4, little16 (0x1000 ||| entry.channel.number.toUInt16)⟩,
    ⟨6, ssidBytes entry⟩, ⟨0x26, [entry.ssidLength]⟩, ⟨0x27, [entry.channel.number]⟩,
    ⟨0x29, List.ofFn entry.bssid⟩] ++ signalRuns entry ++
  [⟨0x38, little16 entry.beaconInterval⟩, ⟨0x3a, little16 entry.capability⟩,
    ⟨0x3c, little32 (flags entry)⟩, ⟨metadataBytes, ieBytes entry⟩]

def rejectAt (m : Memory) (status : Status) (destination : Buffer) : Result × Memory :=
  ({ status := status },
    match destination.address with
    | none => m
    | some address => m.clear address (writableBytes destination.capacity))

/-- `encode`, with the memory that it leaves.  The entry is read from where it was before the call: the
draft does not overlap it. -/
def encodeAt (m : Memory) (profile : TargetProfile) (entry : Entry) (place : Place) (destination : Buffer) :
    Result × Memory :=
  match destination.address with
  | none => rejectAt m .invalidBuffer destination
  | some out =>
      if destination.overlaps place then
        rejectAt m .overlap destination
      else if profile ≠ .darwin24_4_0_d8b50fc2 then
        rejectAt m .unsupportedProfile destination
      else if destination.capacity < metadataBytes then
        rejectAt m .bufferTooSmall destination
      else if entry.channel.band ≠ .ghz2 ∨ entry.channel.number < 1 ∨ 11 < entry.channel.number then
        rejectAt m .unsupportedChannel destination
      else if !validBssid entry.bssid then
        rejectAt m .invalidBssid destination
      else if 32 < entry.ssidLength then
        rejectAt m .invalidSsid destination
      else if !entry.signal.valid then
        rejectAt m .invalidSignal destination
      else if maxIeBytes < entry.ieLength.toNat ∨ completeIes entry = false then
        rejectAt m .invalidIe destination
      else if destination.capacity < metadataBytes + entry.ieLength.toNat then
        rejectAt m .bufferTooSmall destination
      else
        ({ status := .knownPartial, payloadBytes := metadataBytes + entry.ieLength.toNat },
          (m.clear out (writableBytes destination.capacity)).storeAll out (runs entry))

variable {m : Memory} {profile : TargetProfile} {entry : Entry} {place : Place} {destination : Buffer}
  {out : ℕ}

/-- An entry that is accepted, and room for it. -/
structure Accepted (profile : TargetProfile) (entry : Entry) (place : Place) (destination : Buffer) :
    Prop where
  encodable : Encodable entry
  known : profile = .darwin24_4_0_d8b50fc2
  apart : destination.overlaps place = false
  room : metadataBytes + entry.ieLength.toNat ≤ destination.capacity

/-- The two ways in which `encodeAt` ends, which are the ones of `encode`. -/
theorem encodeAt_cases (houtput : destination.address = some out) :
    (Accepted profile entry place destination ∧
      encodeAt m profile entry place destination =
        ({ status := .knownPartial, payloadBytes := metadataBytes + entry.ieLength.toNat },
          (m.clear out (writableBytes destination.capacity)).storeAll out (runs entry)) ∧
      encode profile entry place destination =
        ({ status := .knownPartial, payloadBytes := metadataBytes + entry.ieLength.toNat },
          payload entry ++
            List.replicate (writableBytes destination.capacity - (metadataBytes + entry.ieLength.toNat)) 0)) ∨
    ∃ status, status ≠ .knownPartial ∧
      encodeAt m profile entry place destination =
        ({ status := status }, m.clear out (writableBytes destination.capacity)) ∧
      encode profile entry place destination = ({ status := status }, destination.wiped) := by
  have hreject : ∀ status, rejectAt m status destination =
      ({ status := status }, m.clear out (writableBytes destination.capacity)) := by
    intro status
    rw [rejectAt, houtput]
  have hlist : ∀ status, reject status destination = ({ status := status }, destination.wiped) := by
    intro status
    rw [reject, houtput]
    rfl
  have hnull : destination.address ≠ none := by
    rw [houtput]
    exact Option.some_ne_none out
  unfold encodeAt encode
  rw [if_neg hnull, houtput]
  dsimp only
  by_cases hapart : destination.overlaps place = true
  · rw [if_pos hapart, if_pos hapart]
    exact .inr ⟨.overlap, Status.noConfusion, hreject _, hlist _⟩
  rw [if_neg hapart, if_neg hapart]
  by_cases hprofile : profile ≠ .darwin24_4_0_d8b50fc2
  · rw [if_pos hprofile, if_pos hprofile]
    exact .inr ⟨.unsupportedProfile, Status.noConfusion, hreject _, hlist _⟩
  rw [if_neg hprofile, if_neg hprofile]
  by_cases hsmall : destination.capacity < metadataBytes
  · rw [if_pos hsmall, if_pos hsmall]
    exact .inr ⟨.bufferTooSmall, Status.noConfusion, hreject _, hlist _⟩
  rw [if_neg hsmall, if_neg hsmall]
  by_cases hchannel : entry.channel.band ≠ .ghz2 ∨ entry.channel.number < 1 ∨ 11 < entry.channel.number
  · rw [if_pos hchannel, if_pos hchannel]
    exact .inr ⟨.unsupportedChannel, Status.noConfusion, hreject _, hlist _⟩
  rw [if_neg hchannel, if_neg hchannel]
  by_cases hbssid : (!validBssid entry.bssid) = true
  · rw [if_pos hbssid, if_pos hbssid]
    exact .inr ⟨.invalidBssid, Status.noConfusion, hreject _, hlist _⟩
  rw [if_neg hbssid, if_neg hbssid]
  by_cases hssid : 32 < entry.ssidLength
  · rw [if_pos hssid, if_pos hssid]
    exact .inr ⟨.invalidSsid, Status.noConfusion, hreject _, hlist _⟩
  rw [if_neg hssid, if_neg hssid]
  by_cases hsignal : (!entry.signal.valid) = true
  · rw [if_pos hsignal, if_pos hsignal]
    exact .inr ⟨.invalidSignal, Status.noConfusion, hreject _, hlist _⟩
  rw [if_neg hsignal, if_neg hsignal]
  by_cases hies : maxIeBytes < entry.ieLength.toNat ∨ completeIes entry = false
  · rw [if_pos hies, if_pos hies]
    exact .inr ⟨.invalidIe, Status.noConfusion, hreject _, hlist _⟩
  rw [if_neg hies, if_neg hies]
  by_cases hroom : destination.capacity < metadataBytes + entry.ieLength.toNat
  · rw [if_pos hroom, if_pos hroom]
    exact .inr ⟨.bufferTooSmall, Status.noConfusion, hreject _, hlist _⟩
  rw [if_neg hroom, if_neg hroom]
  simp only [not_or, not_not, Bool.not_eq_true', Bool.not_eq_false, Nat.not_lt] at hchannel hbssid hsignal hies
  have hentry : Encodable entry :=
    ⟨hchannel.1, not_or.2 hchannel.2, hbssid, hssid, hsignal, hies.1, hies.2⟩
  exact .inl ⟨⟨hentry, not_not.1 hprofile, Bool.eq_false_iff.2 hapart, Nat.not_lt.1 hroom⟩, rfl, rfl⟩

/-! ## The runs -/

theorem Encodable.ssidLength_le (h : Encodable entry) : entry.ssidLength.toNat ≤ 32 := by
  have hssid := h.ssid
  rw [UInt8.lt_iff_toNat_lt] at hssid
  exact Nat.not_lt.1 hssid

@[simp] theorem length_ssidBytes (entry : Entry) : (ssidBytes entry).length = entry.ssidLength.toNat := by
  rw [ssidBytes, List.length_map, List.length_range]

@[simp] theorem length_ieBytes (entry : Entry) : (ieBytes entry).length = entry.ieLength.toNat := by
  rw [ieBytes, List.length_map, List.length_range]

theorem runs_ascending (h : Encodable entry) : Ascending (runs entry) := by
  have hssid := h.ssidLength_le
  unfold Ascending runs signalRuns
  split <;> simp [Run.stop, little16, little32, metadataBytes] <;> omega

theorem forall_runs {P : ℕ → ℕ → Prop} :
    (∀ run ∈ runs entry, P run.offset run.stop) ↔
      P 0 4 ∧ P 4 6 ∧ P 6 (6 + entry.ssidLength.toNat) ∧ P 0x26 0x27 ∧ P 0x27 0x28 ∧ P 0x29 0x2f ∧
        (entry.signal.unit = .dbm → P 0x30 0x34) ∧ P 0x38 0x3a ∧ P 0x3a 0x3c ∧ P 0x3c 0x40 ∧
        P metadataBytes (metadataBytes + entry.ieLength.toNat) := by
  unfold runs signalRuns
  split <;> simp_all [Run.stop, little16, little32]

/-! ## The writable part -/

/-- The memory that an accepted entry leaves. -/
def written (m : Memory) (entry : Entry) (out capacity : ℕ) : Memory :=
  (m.clear out (writableBytes capacity)).storeAll out (runs entry)

theorem Accepted.fits (h : Accepted profile entry place destination) :
    metadataBytes + entry.ieLength.toNat ≤ writableBytes destination.capacity := by
  have hroom := h.room
  have hbound := h.encodable.fits
  unfold writableBytes
  split
  · exact hroom
  · exact Nat.add_le_add_left hbound metadataBytes

theorem load_run (h : Encodable entry) {capacity : ℕ} {run : Run} (hrun : run ∈ runs entry) :
    (written m entry out capacity).load (out + run.offset) run.bytes.length = run.bytes :=
  Memory.load_storeAll (runs_ascending h) hrun

theorem range_name (f : ℕ → UInt8) {s n : ℕ} (h : s ≤ n) :
    (List.range n).map (fun i => if i < s then f i else 0) =
      (List.range s).map f ++ List.replicate (n - s) 0 := by
  apply List.ext_getElem
  · simp
    omega
  · intro i hi _
    rw [List.length_map, List.length_range] at hi
    simp only [List.getElem_map, List.getElem_range, List.getElem_append, List.length_map,
      List.length_range, List.getElem_replicate]
    rfl

/-- The offsets that belong to no run: behind the name, between the fields, the signal that is not in dBm,
and behind the elements. -/
def Unused (entry : Entry) (lo len : ℕ) : Prop :=
  (6 + entry.ssidLength.toNat ≤ lo ∧ lo + len ≤ 0x26) ∨ (lo = 0x28 ∧ len = 1) ∨ (lo = 0x2f ∧ len = 1) ∨
    (entry.signal.unit ≠ .dbm ∧ lo = 0x30 ∧ len = 4) ∨ (lo = 0x34 ∧ len = 4) ∨
    metadataBytes + entry.ieLength.toNat ≤ lo

theorem load_unused (h : Encodable entry) {capacity lo len : ℕ} (hend : lo + len ≤ writableBytes capacity)
    (hunused : Unused entry lo len) :
    (written m entry out capacity).load (out + lo) len = List.replicate len 0 := by
  have hssid := h.ssidLength_le
  have hbytes : metadataBytes = 64 := rfl
  unfold Unused at hunused
  refine Memory.load_gap hend ((forall_runs (P := fun start stop => stop ≤ lo ∨ lo + len ≤ start)).2 ?_)
  refine ⟨?_, ?_, ?_, ?_, ?_, ?_, fun hdbm => ?_, ?_, ?_, ?_, ?_⟩
  case refine_7 =>
    rcases hunused with _ | _ | _ | hsignal | _
    case inr.inr.inr.inl => exact absurd hdbm hsignal.1
    all_goals omega
  all_goals omega

theorem load_signal (h : Encodable entry) {capacity : ℕ} (hcapacity : metadataBytes ≤ writableBytes capacity) :
    (written m entry out capacity).load (out + 0x30) 4 = signalBytes entry := by
  by_cases hunit : entry.signal.unit = .dbm
  · have hmem : (⟨0x30, little32 entry.signal.value.toInt32.toUInt32⟩ : Run) ∈ runs entry := by
      simp [runs, signalRuns, hunit]
    rw [signalBytes, if_pos hunit]
    exact load_run h hmem
  · rw [signalBytes, if_neg hunit]
    have hend : 0x30 + 4 ≤ writableBytes capacity := le_trans (by decide) hcapacity
    exact load_unused h hend (.inr (.inr (.inr (.inl ⟨hunit, rfl, rfl⟩))))

/-- The field of the name holds the name, and zeros behind it. -/
theorem load_name (h : Encodable entry) {capacity : ℕ} (hcapacity : metadataBytes ≤ writableBytes capacity) :
    (written m entry out capacity).load (out + 6) 32 =
      (List.range 32).map fun i => if i < entry.ssidLength.toNat then ssidAt entry i else 0 := by
  have hssid := h.ssidLength_le
  have hbytes : metadataBytes = 64 := rfl
  have hmem : (⟨6, ssidBytes entry⟩ : Run) ∈ runs entry := by simp [runs]
  have hname : (written m entry out capacity).load (out + 6) entry.ssidLength.toNat = ssidBytes entry := by
    have hrun := @load_run m _ out h capacity _ hmem
    rwa [length_ssidBytes] at hrun
  have hrest : (written m entry out capacity).load (out + (6 + entry.ssidLength.toNat))
      (32 - entry.ssidLength.toNat) = List.replicate (32 - entry.ssidLength.toNat) 0 :=
    load_unused h (by omega) (.inl ⟨Nat.le_refl _, by omega⟩)
  calc (written m entry out capacity).load (out + 6) 32
      = (written m entry out capacity).load (out + 6)
          (entry.ssidLength.toNat + (32 - entry.ssidLength.toNat)) := by rw [Nat.add_sub_cancel' hssid]
    _ = ssidBytes entry ++ List.replicate (32 - entry.ssidLength.toNat) 0 := by
        rw [Memory.load_add, hname, Nat.add_assoc, hrest]
    _ = _ := (range_name _ hssid).symm

/-- The writable part holds the payload of the entry and zeros. -/
theorem load_written (h : Accepted profile entry place destination) :
    (written m entry out destination.capacity).load out (writableBytes destination.capacity) =
      payload entry ++
        List.replicate (writableBytes destination.capacity - (metadataBytes + entry.ieLength.toNat)) 0 := by
  have hentry := h.encodable
  have hfits := h.fits
  have hssid := hentry.ssidLength_le
  have hbytes : metadataBytes = 64 := rfl
  have hmetadata : metadataBytes ≤ writableBytes destination.capacity := by omega
  have hrun : ∀ offset bytes n, (⟨offset, bytes⟩ : Run) ∈ runs entry → bytes.length = n →
      (written m entry out destination.capacity).load (out + offset) n = bytes := by
    intro offset bytes n hmem hn
    subst hn
    exact load_run hentry hmem
  rcases Nat.exists_eq_add_of_le hfits with ⟨k, hk⟩
  have hsize : metadataBytes + entry.ieLength.toNat + k =
      4 + (2 + (32 + (1 + (1 + (1 + (6 + (1 + (4 + (4 + (2 + (2 + (4 + (entry.ieLength.toNat + k))))))))))))) := by
    omega
  have htail : (written m entry out destination.capacity).load (out + (64 + entry.ieLength.toNat)) k =
      List.replicate k 0 :=
    load_unused hentry (by omega) (.inr (.inr (.inr (.inr (.inr (Nat.le_refl _))))))
  have h0 := hrun 0 (little32 entry.ieLength.toUInt32) 4 (by simp [runs]) rfl
  have h4 := hrun 4 (little16 (0x1000 ||| entry.channel.number.toUInt16)) 2 (by simp [runs]) rfl
  have h38 := hrun 0x26 [entry.ssidLength] 1 (by simp [runs]) rfl
  have h39 := hrun 0x27 [entry.channel.number] 1 (by simp [runs]) rfl
  have h41 := hrun 0x29 (List.ofFn entry.bssid) 6 (by simp [runs]) List.length_ofFn
  have h56 := hrun 0x38 (little16 entry.beaconInterval) 2 (by simp [runs]) rfl
  have h58 := hrun 0x3a (little16 entry.capability) 2 (by simp [runs]) rfl
  have h60 := hrun 0x3c (little32 (flags entry)) 4 (by simp [runs]) rfl
  have h64 := hrun 64 (ieBytes entry) _ (by simp [runs, metadataBytes]) (length_ieBytes entry)
  have h6 := @load_name m _ out hentry _ hmetadata
  have h48 := @load_signal m _ out hentry _ hmetadata
  have hgap : ∀ lo len, lo + len ≤ metadataBytes → Unused entry lo len →
      (written m entry out destination.capacity).load (out + lo) len = List.replicate len 0 :=
    fun lo len hend hunused => load_unused hentry (le_trans hend hmetadata) hunused
  have h40 := hgap 0x28 1 (by decide) (.inr (.inl ⟨rfl, rfl⟩))
  have h47 := hgap 0x2f 1 (by decide) (.inr (.inr (.inl ⟨rfl, rfl⟩)))
  have h52 := hgap 0x34 4 (by decide) (.inr (.inr (.inr (.inr (.inl ⟨rfl, rfl⟩)))))
  rw [Nat.add_zero] at h0
  rw [hk, Nat.add_sub_cancel_left, hsize]
  simp only [Memory.load_add, Nat.add_assoc, Nat.reduceAdd, h0, h4, h6, h38, h39, h40, h41, h47, h48, h52,
    h56, h58, h60, h64, htail]
  simp only [payload, metadata, ieBytes, List.append_assoc]
  rfl

/-- What `encodeAt` leaves in the writable part is what `encode` says. -/
theorem encodeAt_load (houtput : destination.address = some out) :
    (encodeAt m profile entry place destination).1 = (encode profile entry place destination).1 ∧
      (encodeAt m profile entry place destination).2.load out (writableBytes destination.capacity) =
        (encode profile entry place destination).2 := by
  rcases encodeAt_cases (m := m) houtput with ⟨haccepted, hat, hlist⟩ | ⟨status, _, hat, hlist⟩
  · rw [hat, hlist]
    exact ⟨rfl, load_written haccepted⟩
  · rw [hat, hlist]
    exact ⟨rfl, Memory.load_clear m out _⟩

/-! ## Reading -/

def word16 (m : Memory) (p : ℕ) : UInt16 := (m p).toUInt16 ||| (m (p + 1)).toUInt16 <<< 8

def word32 (m : Memory) (p : ℕ) : UInt32 := Network.little32 (m.load p 4)

/-- What a draft says. -/
structure Draft where
  ieLength : UInt32
  channelSpec : UInt16
  ssid : List UInt8
  ssidLength : UInt8
  channel : UInt8
  bssid : List UInt8
  signal : Int32
  signalValid : Bool
  beaconInterval : UInt16
  capability : UInt16
  ies : List UInt8
  deriving DecidableEq

/-- Read a draft.  The name and the elements are as long as the draft says. -/
def decode (m : Memory) (out : ℕ) : Draft where
  ieLength := word32 m out
  channelSpec := word16 m (out + 4)
  ssid := m.load (out + 6) (m (out + 0x26)).toNat
  ssidLength := m (out + 0x26)
  channel := m (out + 0x27)
  bssid := m.load (out + 0x29) 6
  signal := (word32 m (out + 0x30)).toInt32
  signalValid := word32 m (out + 0x3c) &&& 0x4000 ≠ 0
  beaconInterval := word16 m (out + 0x38)
  capability := word16 m (out + 0x3a)
  ies := m.load (out + metadataBytes) (word32 m out).toNat

def draftOf (entry : Entry) : Draft where
  ieLength := entry.ieLength.toUInt32
  channelSpec := 0x1000 ||| entry.channel.number.toUInt16
  ssid := (List.ofFn entry.ssid).take entry.ssidLength.toNat
  ssidLength := entry.ssidLength
  channel := entry.channel.number
  bssid := List.ofFn entry.bssid
  signal := if entry.signal.unit = .dbm then entry.signal.value.toInt32 else 0
  signalValid := entry.signal.unit = .dbm
  beaconInterval := entry.beaconInterval
  capability := entry.capability
  ies := (List.ofFn entry.ies).take entry.ieLength.toNat

theorem draftOf_channel (entry : Entry) : (draftOf entry).channelSpec.toUInt8 = entry.channel.number := by
  show (0x1000 ||| entry.channel.number.toUInt16).toUInt8 = entry.channel.number
  have hhigh : (0x1000 : UInt16).toUInt8 = 0 := by decide
  rw [UInt16.toUInt8_or, hhigh, UInt8.zero_or, UInt8.toUInt8_toUInt16]

/-- The signal of a draft is the one of the entry, with its sign. -/
theorem draftOf_signal (entry : Entry) :
    (draftOf entry).signal.toInt = if entry.signal.unit = .dbm then entry.signal.value.toInt else 0 := by
  show (if entry.signal.unit = .dbm then entry.signal.value.toInt32 else 0 : Int32).toInt = _
  split
  · exact Int16.toInt_toInt32 _
  · rfl

theorem word16_little16 {p : ℕ} {v : UInt16} (h : m.load p 2 = little16 v) : word16 m p = v := by
  have hbytes : m p = v.toUInt8 ∧ m (p + 1) = (v >>> 8).toUInt8 := by
    have hpair : [m p, m (p + 1)] = [v.toUInt8, (v >>> 8).toUInt8] := h
    simpa using hpair
  have hlow : v.toUInt8.toUInt16.toNat = v.toNat % 256 := by simp
  have hhigh : (v >>> 8).toUInt8.toUInt16.toNat = v.toNat / 256 := by
    have hv := v.toNat_lt
    simp [Nat.shiftRight_eq_div_pow]
    omega
  have hv := v.toNat_lt
  apply UInt16.toNat_inj.1
  rw [word16, hbytes.1, hbytes.2, UInt16.toNat_or, UInt16.toNat_shiftLeft, hlow, hhigh]
  have hshift : (v.toNat / 256) <<< ((8 : UInt16).toNat % 16) % 2 ^ 16 = 2 ^ 8 * (v.toNat / 256) := by
    rw [Nat.shiftLeft_eq]
    have height : (8 : UInt16).toNat % 16 = 8 := rfl
    rw [height]
    omega
  rw [hshift, Nat.or_comm, ← Nat.two_pow_add_eq_or_of_lt (by omega)]
  omega

theorem word32_little32 {p : ℕ} {v : UInt32} (h : m.load p 4 = little32 v) : word32 m p = v := by
  have hstore : little32 v = Network.store32 v ++ [] := by
    simp only [little32, Network.store32, Network.store16, List.append_nil, List.cons_append, List.nil_append,
      UInt32.toUInt8_toUInt16, List.cons.injEq, true_and, and_true]
    constructor
    · apply UInt8.toNat_inj.1
      simp [Nat.shiftRight_eq_div_pow]
      omega
    · apply UInt8.toNat_inj.1
      simp [Nat.shiftRight_eq_div_pow]
      omega
  rw [word32, h, hstore, Network.little32_store32]

/-- The signed value survives its way through the unsigned word. -/
theorem signal_reads_back {p : ℕ} (h : m.load p 4 = signalBytes entry) :
    (word32 m p).toInt32 = if entry.signal.unit = .dbm then entry.signal.value.toInt32 else 0 := by
  by_cases hunit : entry.signal.unit = .dbm
  · rw [signalBytes, if_pos hunit] at h
    rw [if_pos hunit, word32_little32 h, Int32.toInt32_toUInt32]
  · rw [signalBytes, if_neg hunit] at h
    rw [if_neg hunit, word32, h]
    rfl

/-- The flags say that the name is known, and whether the signal is. -/
theorem flags_valid (entry : Entry) : (flags entry &&& 0x4000 ≠ 0) ↔ entry.signal.unit = .dbm := by
  unfold flags
  split
  next hunit => exact ⟨fun _ => hunit, fun _ => by decide⟩
  next hunit => exact ⟨fun h => absurd rfl h, fun h => absurd h hunit⟩

theorem map_range_take {n k : ℕ} (hk : k ≤ n) (f : Fin n → UInt8) (g : ℕ → UInt8)
    (hg : ∀ i (h : i < n), g i = f ⟨i, h⟩) : (List.range k).map g = (List.ofFn f).take k := by
  apply List.ext_getElem
  · rw [List.length_map, List.length_range, List.length_take, List.length_ofFn, Nat.min_eq_left hk]
  · intro i hi _
    rw [List.length_map, List.length_range] at hi
    rw [List.getElem_map, List.getElem_range, List.getElem_take, List.getElem_ofFn]
    exact hg i (hi.trans_le hk)

theorem ssidBytes_eq (h : Encodable entry) :
    ssidBytes entry = (List.ofFn entry.ssid).take entry.ssidLength.toNat := by
  refine map_range_take h.ssidLength_le entry.ssid _ fun i hi => ?_
  unfold ssidAt
  rw [dif_pos hi]

theorem ieBytes_eq (h : Encodable entry) :
    ieBytes entry = (List.ofFn entry.ies).take entry.ieLength.toNat := by
  have hmax : maxIeBytes ≤ NativeScan.maxIeBytes := by decide
  refine map_range_take (h.fits.trans hmax) entry.ies _ fun i hi => ?_
  unfold ieAt
  rw [dif_pos hi]

theorem decode_written (h : Accepted profile entry place destination) :
    decode (written m entry out destination.capacity) out = draftOf entry := by
  have hentry := h.encodable
  have hmetadata : metadataBytes ≤ writableBytes destination.capacity :=
    le_trans (Nat.le_add_right _ _) h.fits
  have hrun : ∀ offset bytes n, (⟨offset, bytes⟩ : Run) ∈ runs entry → bytes.length = n →
      (written m entry out destination.capacity).load (out + offset) n = bytes := by
    intro offset bytes n hmem hn
    subst hn
    exact load_run hentry hmem
  have hbyte : ∀ offset b, (⟨offset, [b]⟩ : Run) ∈ runs entry →
      written m entry out destination.capacity (out + offset) = b := by
    intro offset b hmem
    have hone : [written m entry out destination.capacity (out + offset)] = [b] := hrun offset [b] 1 hmem rfl
    exact (List.cons.inj hone).1
  have hlength : word32 (written m entry out destination.capacity) out = entry.ieLength.toUInt32 :=
    word32_little32 (hrun 0 _ 4 (by simp [runs]) rfl)
  have hname := hbyte 0x26 entry.ssidLength (by simp [runs])
  have hflags : word32 (written m entry out destination.capacity) (out + 0x3c) = flags entry :=
    word32_little32 (hrun 0x3c _ 4 (by simp [runs]) rfl)
  unfold decode draftOf
  rw [Draft.mk.injEq]
  refine ⟨hlength, ?_, ?_, hname, ?_, ?_, ?_, ?_, ?_, ?_, ?_⟩
  · exact word16_little16 (hrun 4 _ 2 (by simp [runs]) rfl)
  · rw [hname, ← ssidBytes_eq hentry]
    exact hrun 6 _ _ (by simp [runs]) (length_ssidBytes entry)
  · exact hbyte 0x27 _ (by simp [runs])
  · exact hrun 0x29 _ 6 (by simp [runs]) List.length_ofFn
  · exact signal_reads_back (load_signal hentry hmetadata)
  · rw [hflags]
    exact decide_eq_decide.2 (flags_valid entry)
  · exact word16_little16 (hrun 0x38 _ 2 (by simp [runs]) rfl)
  · exact word16_little16 (hrun 0x3a _ 2 (by simp [runs]) rfl)
  · rw [hlength, UInt16.toNat_toUInt32, ← ieBytes_eq hentry]
    exact hrun metadataBytes _ _ (by simp [runs]) (length_ieBytes entry)

/-! ## The other bytes -/

/-- The bytes of the fields of a draft; the flag of the signal is in the byte 0x3d. -/
def InField (entry : Entry) (i : ℕ) : Prop :=
  i < 6 ∨ (6 ≤ i ∧ i < 6 + entry.ssidLength.toNat) ∨ i = 0x26 ∨ i = 0x27 ∨ (0x29 ≤ i ∧ i < 0x2f) ∨
    (0x30 ≤ i ∧ i < 0x34) ∨ (0x38 ≤ i ∧ i < 0x3c) ∨ i = 0x3d ∨
    (metadataBytes ≤ i ∧ i < metadataBytes + entry.ieLength.toNat)

instance (entry : Entry) (i : ℕ) : Decidable (InField entry i) := by
  unfold InField
  infer_instance

/-- Outside the fields there is the flag of the name, in the byte 0x3c. -/
theorem written_other (h : Encodable entry) {capacity i : ℕ} (hi : i < writableBytes capacity)
    (hother : ¬ InField entry i) :
    written m entry out capacity (out + i) = if i = 0x3c then 2 else 0 := by
  unfold InField at hother
  by_cases hflags : 0x3c ≤ i ∧ i < 0x40
  · have hmem : (⟨0x3c, little32 (flags entry)⟩ : Run) ∈ runs entry := by simp [runs]
    have hbyte : ∀ j (hj : j < (little32 (flags entry)).length),
        written m entry out capacity (out + 0x3c + j) = (little32 (flags entry))[j] :=
      fun j hj => Memory.storeAll_apply (runs_ascending h) hmem hj
    have hfour : (little32 (flags entry)).length = 4 := rfl
    have hlow : (flags entry).toUInt8 = 2 ∧ (flags entry >>> 16).toUInt8 = 0 ∧
        (flags entry >>> 24).toUInt8 = 0 := by
      unfold flags
      split <;> decide
    have hwhich : i = 0x3c ∨ i = 0x3e ∨ i = 0x3f := by omega
    rcases hwhich with rfl | rfl | rfl
    · exact (hbyte 0 (by omega)).trans hlow.1
    · exact (hbyte 2 (by omega)).trans hlow.2.1
    · exact (hbyte 3 (by omega)).trans hlow.2.2
  · rw [if_neg (fun heq => hflags ⟨by omega, by omega⟩)]
    refine Memory.storeAll_clear hi ((forall_runs (P := fun start stop => ¬ (start ≤ i ∧ i < stop))).2 ?_)
    refine ⟨?_, ?_, ?_, ?_, ?_, ?_, fun _ => ?_, ?_, ?_, ?_, ?_⟩ <;> omega

theorem written_signal (h : Encodable entry) (capacity : ℕ) :
    written m entry out capacity (out + 0x3d) = if entry.signal.unit = .dbm then 0x40 else 0 := by
  have hmem : (⟨0x3c, little32 (flags entry)⟩ : Run) ∈ runs entry := by simp [runs]
  have hfour : (little32 (flags entry)).length = 4 := rfl
  have hbyte : written m entry out capacity (out + 0x3d) = (flags entry >>> 8).toUInt8 :=
    Memory.storeAll_apply (runs_ascending h) hmem (show 1 < (little32 (flags entry)).length by omega)
  rw [hbyte]
  unfold flags
  split <;> rfl

theorem written_outside (h : Accepted profile entry place destination) {a : ℕ}
    (ha : ¬ (out ≤ a ∧ a < out + writableBytes destination.capacity)) :
    written m entry out destination.capacity a = m a := by
  have hfits := h.fits
  have hssid := h.encodable.ssidLength_le
  have hbytes : metadataBytes = 64 := rfl
  have hruns : ∀ run ∈ runs entry, ¬ (out + run.offset ≤ a ∧ a < out + run.stop) := by
    refine (forall_runs (P := fun start stop => ¬ (out + start ≤ a ∧ a < out + stop))).2 ?_
    refine ⟨?_, ?_, ?_, ?_, ?_, ?_, fun _ => ?_, ?_, ?_, ?_, ?_⟩ <;> omega
  rw [written, Memory.storeAll_outside hruns]
  exact Memory.clear_outside ha

/-- An accepted entry reads back from its draft, and every other byte of the writable part is zero, but for
the flag of the name.  A rejection leaves zeros.  Nothing else changes. -/
theorem draft_reads_back (m : Memory) (profile : TargetProfile) (entry : Entry) (place : Place)
    (out capacity : ℕ) :
    let r := encodeAt m profile entry place { address := some out, capacity }
    (r.1.status = .knownPartial →
      r.1.payloadBytes = 64 + entry.ieLength.toNat ∧
      decode r.2 out = draftOf entry ∧
      (decode r.2 out).channelSpec.toUInt8 = entry.channel.number ∧
      (decode r.2 out).signal.toInt = (if entry.signal.unit = .dbm then entry.signal.value.toInt else 0) ∧
      r.2 (out + 0x3d) = (if entry.signal.unit = .dbm then 0x40 else 0) ∧
      ∀ i < min capacity 2112, ¬ InField entry i → r.2 (out + i) = if i = 0x3c then 2 else 0) ∧
    (r.1.status ≠ .knownPartial → r.1.payloadBytes = 0 ∧ ∀ i < min capacity 2112, r.2 (out + i) = 0) ∧
    (∀ a, ¬ (out ≤ a ∧ a < out + min capacity 2112) → r.2 a = m a) ∧
    encodeAt m profile entry place { address := none, capacity } = ({ status := .invalidBuffer }, m) := by
  have hwritable : min capacity 2112 = writableBytes capacity := by
    unfold writableBytes
    have hmax : maxPayloadBytes = 2112 := rfl
    split <;> omega
  have hnull : encodeAt m profile entry place { address := none, capacity } =
      ({ status := .invalidBuffer }, m) := by
    rw [encodeAt, rejectAt]
  intro r
  have hr : r = encodeAt m profile entry place { address := some out, capacity } := rfl
  clear_value r
  rw [hwritable]
  rcases @encodeAt_cases m profile entry place { address := some out, capacity } _ rfl with ⟨haccepted, hat, -⟩ | ⟨status, hstatus, hat, -⟩
  · have hstate : r.2 = written m entry out capacity := (congrArg Prod.snd hr).trans (congrArg Prod.snd hat)
    have hresult : r.1 = { status := .knownPartial, payloadBytes := 64 + entry.ieLength.toNat } :=
      (congrArg Prod.fst hr).trans (congrArg Prod.fst hat)
    have hread := @decode_written m _ _ _ _ out haccepted
    have houtside := fun a => @written_outside m _ _ _ _ out haccepted a
    have hdraft : decode r.2 out = draftOf entry := by
      rw [hstate]
      exact hread
    rw [hdraft, hstate, hresult]
    refine ⟨fun _ => ⟨rfl, rfl, draftOf_channel entry, draftOf_signal entry, ?_, ?_⟩, fun h => absurd rfl h, ?_,
      hnull⟩
    · exact written_signal haccepted.encodable capacity
    · exact fun i hi hother => written_other haccepted.encodable hi hother
    · exact houtside
  · have hstate : r.2 = m.clear out (writableBytes capacity) := (congrArg Prod.snd hr).trans (congrArg Prod.snd hat)
    have hresult : r.1 = { status } := (congrArg Prod.fst hr).trans (congrArg Prod.fst hat)
    rw [hstate, hresult]
    refine ⟨fun h => absurd h hstatus, fun _ => ⟨rfl, fun i hi => ?_⟩, fun a ha => ?_, hnull⟩
    · exact Memory.clear_apply (by omega)
    · exact Memory.clear_outside ha

/-- An access point with a hidden name, heard at fifty percent. -/
def hiddenEntry : Entry where
  ieLength := 2
  channel := { band := .ghz2, number := 1 }
  signal := { unit := .percent, value := 50 }
  bssid := fun i => if i = 0 then 2 else 1

/-- The flag of the name is set in every draft, so the word of the flags is not zero where the signal is not
in dBm. -/
theorem name_flag_set :
    (encodeAt (fun _ => 0xff) .darwin24_4_0_d8b50fc2 hiddenEntry ⟨0x8000, 2400⟩ ⟨some 0x1000, 66⟩).1.status =
        .knownPartial ∧
      hiddenEntry.signal.unit ≠ .dbm ∧
      word32 (encodeAt (fun _ => 0xff) .darwin24_4_0_d8b50fc2 hiddenEntry ⟨0x8000, 2400⟩ ⟨some 0x1000, 66⟩).2
        (0x1000 + 0x3c) ≠ 0 ∧
      ¬ ∀ i < min 66 2112, ¬ InField hiddenEntry i →
        (encodeAt (fun _ => 0xff) .darwin24_4_0_d8b50fc2 hiddenEntry ⟨0x8000, 2400⟩ ⟨some 0x1000, 66⟩).2
          (0x1000 + i) = 0 := by
  refine ⟨by decide, by decide, by decide, fun h => ?_⟩
  have hflags := h 0x3c (by decide) (by decide)
  revert hflags
  decide

end WclBeacon
end Rtl8852be
