import Rtl8852be.NativeScan.NativeScanCache

/-!
# NativeWclBeacon — the bytes of one scan result

`NativeWclBeacon.hpp`.  `encode` writes one entry of the scan store into a buffer of the caller, in the one
layout that is known.  Objects in memory are given by their places, because the code refuses buffers that
overlap what it reads.
-/

namespace Rtl8852be
namespace WclBeacon

open NativeScan

def metadataBytes : ℕ := 64

def maxIeBytes : ℕ := 2048

def maxPayloadBytes : ℕ := metadataBytes + maxIeBytes

def scanResultEvent : UInt32 := 201

inductive TargetProfile
  | unknown
  | darwin24_4_0_d8b50fc2
  deriving DecidableEq

inductive Status
  | knownPartial
  | unsupportedProfile
  | invalidBuffer
  | bufferTooSmall
  | overlap
  | unsupportedChannel
  | invalidBssid
  | invalidSsid
  | invalidSignal
  | invalidIe
  deriving DecidableEq

structure Result where
  status : Status := .invalidBuffer
  payloadBytes : ℕ := 0
  emissionReady : Bool := false
  deriving DecidableEq

/-! ## Memory -/

/-- Where an object lies. -/
structure Place where
  address : ℕ
  size : ℕ

/-- A buffer of the caller; a null pointer has no address. -/
structure Buffer where
  address : Option ℕ
  capacity : ℕ

def writableBytes (capacity : ℕ) : ℕ := if capacity < maxPayloadBytes then capacity else maxPayloadBytes

def overlaps (a na b nb : ℕ) : Bool :=
  if na = 0 ∨ nb = 0 then false
  else if a ≤ b then decide (b - a < na)
  else decide (a - b < nb)

/-- What the code can write of a buffer overlaps an object.  The null pointer is the address zero. -/
def Buffer.overlaps (buffer : Buffer) (place : Place) : Bool :=
  WclBeacon.overlaps (buffer.address.getD 0) (writableBytes buffer.capacity) place.address place.size

def Buffer.wiped (buffer : Buffer) : List UInt8 := List.replicate (writableBytes buffer.capacity) 0

/-! ## Checks on an entry -/

def validBssid (address : Bssid) : Bool := decide (∃ i, address i ≠ 0) && (address 0 &&& 1) == 0

/-- `entry.ies[i]` -/
def ieAt (entry : Entry) (i : ℕ) : UInt8 := if h : i < NativeScan.maxIeBytes then entry.ies ⟨i, h⟩ else 0

/-- `entry.ssid[i]` -/
def ssidAt (entry : Entry) (i : ℕ) : UInt8 := if h : i < 32 then entry.ssid ⟨i, h⟩ else 0

/-- The loop of `completeIes`.  A round passes at least two bytes, so `ieLength` rounds are enough. -/
def completeIesFrom (entry : Entry) : ℕ → ℕ → Bool → Bool
  | 0, _, ssidSeen => ssidSeen
  | rounds + 1, offset, ssidSeen =>
      if entry.ieLength.toNat ≤ offset then
        ssidSeen
      else if entry.ieLength.toNat - offset < 2 then
        false
      else
        let tag := ieAt entry offset
        let length := (ieAt entry (offset + 1)).toNat
        if entry.ieLength.toNat - (offset + 2) < length then
          false
        else if tag = 0 then
          if ssidSeen || decide (32 < length) || length != entry.ssidLength.toNat ||
              !(List.range length).all fun i => ieAt entry (offset + 2 + i) == ssidAt entry i then
            false
          else
            completeIesFrom entry rounds (offset + 2 + length) true
        else
          completeIesFrom entry rounds (offset + 2 + length) ssidSeen

def completeIes (entry : Entry) : Bool := completeIesFrom entry entry.ieLength.toNat 0 false

/-! ## The draft -/

def little16 (value : UInt16) : List UInt8 := [value.toUInt8, (value >>> 8).toUInt8]

def little32 (value : UInt32) : List UInt8 :=
  [value.toUInt8, (value >>> 8).toUInt8, (value >>> 16).toUInt8, (value >>> 24).toUInt8]

/-- The signal, where it is in dBm; a percentage is not converted. -/
def signalBytes (entry : Entry) : List UInt8 :=
  if entry.signal.unit = .dbm then little32 entry.signal.value.toInt32.toUInt32 else [0, 0, 0, 0]

def flags (entry : Entry) : UInt32 := if entry.signal.unit = .dbm then 0x2 ||| 0x4000 else 0x2

/-- The first 64 bytes: `ieLength`, the channel specification at 4, the name at 6 and its length at 0x26,
the channel at 0x27, the address at 0x29, the signal at 0x30, the interval at 0x38, the capability at 0x3a
and the flags at 0x3c. -/
def metadata (entry : Entry) : List UInt8 :=
  little32 entry.ieLength.toUInt32 ++ little16 (0x1000 ||| entry.channel.number.toUInt16) ++
    (List.range 32).map (fun i => if i < entry.ssidLength.toNat then ssidAt entry i else 0) ++
    [entry.ssidLength, entry.channel.number, 0] ++ List.ofFn entry.bssid ++ [0] ++ signalBytes entry ++
    [0, 0, 0, 0] ++ little16 entry.beaconInterval ++ little16 entry.capability ++ little32 (flags entry)

def payload (entry : Entry) : List UInt8 :=
  metadata entry ++ (List.range entry.ieLength.toNat).map (ieAt entry)

/-- A refusal leaves nothing in the buffer. -/
def reject (status : Status) (destination : Buffer) : Result × List UInt8 :=
  ({ status := status }, if destination.address.isSome then destination.wiped else [])

/-- The result, and what the writable part of the buffer holds then. -/
def encode (profile : TargetProfile) (entry : Entry) (place : Place) (destination : Buffer) :
    Result × List UInt8 :=
  if destination.address = none then
    reject .invalidBuffer destination
  else if destination.overlaps place then
    reject .overlap destination
  else if profile ≠ .darwin24_4_0_d8b50fc2 then
    reject .unsupportedProfile destination
  else if destination.capacity < metadataBytes then
    reject .bufferTooSmall destination
  else if entry.channel.band ≠ .ghz2 ∨ entry.channel.number < 1 ∨ 11 < entry.channel.number then
    reject .unsupportedChannel destination
  else if !validBssid entry.bssid then
    reject .invalidBssid destination
  else if 32 < entry.ssidLength then
    reject .invalidSsid destination
  else if !entry.signal.valid then
    reject .invalidSignal destination
  else if maxIeBytes < entry.ieLength.toNat ∨ completeIes entry = false then
    reject .invalidIe destination
  else if destination.capacity < metadataBytes + entry.ieLength.toNat then
    reject .bufferTooSmall destination
  else
    ({ status := .knownPartial, payloadBytes := metadataBytes + entry.ieLength.toNat },
      payload entry ++
        List.replicate (writableBytes destination.capacity - (metadataBytes + entry.ieLength.toNat)) 0)

/-! ## What can be encoded -/

/-- An entry that only the size of a buffer can stop. -/
structure Encodable (entry : Entry) : Prop where
  band : entry.channel.band = .ghz2
  number : ¬ (entry.channel.number < 1 ∨ 11 < entry.channel.number)
  bssid : validBssid entry.bssid = true
  ssid : ¬ 32 < entry.ssidLength
  signal : entry.signal.valid = true
  fits : entry.ieLength.toNat ≤ maxIeBytes
  complete : completeIes entry = true

variable {profile : TargetProfile} {entry : Entry} {place : Place} {destination : Buffer}

theorem length_metadata (entry : Entry) : (metadata entry).length = metadataBytes := by
  have hsignal : (signalBytes entry).length = 4 := by
    unfold signalBytes
    split
    · rfl
    · rfl
  simp only [metadata, List.length_append, List.length_map, List.length_range, List.length_ofFn, hsignal]
  rfl

theorem length_payload (entry : Entry) : (payload entry).length = metadataBytes + entry.ieLength.toNat := by
  rw [payload, List.length_append, length_metadata, List.length_map, List.length_range]

/-- `emissionReady` is false in every result. -/
theorem encode_emissionReady : (encode profile entry place destination).1.emissionReady = false := by
  have hreject : ∀ status, (reject status destination).1.emissionReady = false := fun _ => rfl
  unfold encode
  repeat'
    split
    · exact hreject _
  rfl

theorem encode_known (h : (encode profile entry place destination).1.status = .knownPartial) :
    Encodable entry ∧ (encode profile entry place destination).1.payloadBytes = (payload entry).length ∧
      payload entry <+: (encode profile entry place destination).2 := by
  unfold encode at h ⊢
  split at h
  · cases h
  split at h
  · cases h
  split at h
  · cases h
  split at h
  · cases h
  split at h
  · cases h
  split at h
  · cases h
  split at h
  · cases h
  split at h
  · cases h
  split at h
  · cases h
  split at h
  · cases h
  rename_i h1 h2 h3 h4 hchannel hbssid hssid hsignal hies hroom
  rw [if_neg h1, if_neg h2, if_neg h3, if_neg h4, if_neg hchannel, if_neg hbssid, if_neg hssid,
    if_neg hsignal, if_neg hies, if_neg hroom]
  simp only [not_or, not_not, Bool.not_eq_true', Bool.not_eq_false, Nat.not_lt] at hchannel hbssid hsignal hies
  refine ⟨⟨hchannel.1, not_or.2 hchannel.2, hbssid, hssid, hsignal, hies.1, hies.2⟩, ?_, ?_⟩
  · rw [length_payload]
  · exact List.prefix_append _ _

/-- An entry that can be encoded is, where there is room for every entry. -/
theorem encode_encodable (hentry : Encodable entry) (haddress : destination.address ≠ none)
    (hplace : destination.overlaps place = false) (hroom : maxPayloadBytes ≤ destination.capacity) :
    (encode .darwin24_4_0_d8b50fc2 entry place destination).1.status = .knownPartial := by
  have hmax : maxPayloadBytes = metadataBytes + maxIeBytes := rfl
  have hfits := hentry.fits
  unfold encode
  rw [if_neg haddress, if_neg (by rw [hplace]; exact Bool.false_ne_true), if_neg (not_not.2 rfl),
    if_neg (by omega), if_neg (not_or.2 ⟨not_not.2 hentry.band, hentry.number⟩),
    if_neg (by rw [hentry.bssid]; exact Bool.false_ne_true), if_neg hentry.ssid,
    if_neg (by rw [hentry.signal]; exact Bool.false_ne_true),
    if_neg (not_or.2 ⟨by omega, by rw [hentry.complete]; exact Bool.noConfusion⟩), if_neg (by omega)]

end WclBeacon
end Rtl8852be
