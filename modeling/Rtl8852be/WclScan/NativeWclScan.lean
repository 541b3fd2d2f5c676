import Rtl8852be.ForegroundScan.NativeForegroundScan
import Rtl8852be.Wire.FirmwareProtocol

/-!
# NativeWclScan — from a scan message to a scan plan

`NativeWclScan.hpp` and `NativeWclScanPlan.hpp`.  `decode` reads the one message layout that is known;
`map` turns what it read into a plan for the foreground scan, for a station that has no home channel.
-/

namespace Rtl8852be
namespace WclScan

open Network NativeScan ForegroundScan Sequence

/-! ## Types -/

def messageBytes : ℕ := 0x1550

def channelOffset : ℕ := 0x58

def channelStride : ℕ := 12

def maxChannels : ℕ := 11

def channelMask : UInt16 := 0x07ff

def maxDwellMs : UInt32 := 1000

def maxHomeMs : UInt32 := 60000

inductive TargetProfile
  | unknown
  | darwin24_4_0_d8b50fc2
  deriving DecidableEq

inductive PrivateMacPolicy
  | unknown
  | unsupported
  | enabled
  deriving DecidableEq

inductive Mode
  | none
  | active
  | passive
  deriving DecidableEq

inductive BssType
  | none
  | infrastructure
  | any
  deriving DecidableEq

inductive Status
  | knownSubset
  | invalidBuffer
  | invalidLength
  | unsupportedProfile
  | unsupportedPolicy
  | unsupportedMode
  | unsupportedFlags
  | unsupportedFilters
  | invalidChannels
  | unsupportedChannel
  | unsupportedTiming
  deriving DecidableEq

structure Policy where
  profile : TargetProfile := .unknown
  privateMac : PrivateMacPolicy := .unknown
  permittedActiveChannels : UInt16 := 0
  permittedPassiveChannels : UInt16 := 0

structure Request where
  opaqueSourceHeader : UInt32 := 0
  activeDwellMs : UInt32 := 0
  passiveDwellMs : UInt32 := 0
  homeRestMs : UInt32 := 0
  homeAwayMs : UInt32 := 0
  requestedFlags : UInt16 := 0
  mode : Mode := .none
  bssType : BssType := .none
  channelCount : UInt8 := 0
  channels : ℕ → UInt8 := fun _ => 0
  refreshPrivateMacRequested : Bool := false
  allowProhibitedRequested : Bool := false
  homeRestDefault : Bool := false

structure Result where
  status : Status := .invalidBuffer
  emissionReady : Bool := false
  deriving DecidableEq

/-! ## Decoding -/

def little16 (p : List UInt8) : UInt16 := (p.getD 0 0).toUInt16 ||| ((p.getD 1 0).toUInt16 <<< 8)

def zero (p : List UInt8) (n : ℕ) : Bool := (p.take n).all (· == 0)

def channelBit (channel : UInt32) : UInt16 := (1 : UInt16) <<< (channel - 1).toUInt16

/-- The channel loop, with `n` channels to go from index `i` on. -/
def readChannels (p : List UInt8) (permitted : UInt16) :
    ℕ → ℕ → UInt16 → (ℕ → UInt8) → Except Status (ℕ → UInt8)
  | 0, _, _, channels => .ok channels
  | n + 1, i, seen, channels =>
      let entry := p.drop (channelOffset + i * channelStride)
      let channel := little32 (entry.drop 4)
      if little32 entry ≠ 1 ∨ little32 (entry.drop 8) ≠ 0x0a ∨ channel < 1 ∨ 11 < channel then
        .error .unsupportedChannel
      else if seen &&& channelBit channel ≠ 0 then
        .error .invalidChannels
      else if permitted &&& channelBit channel = 0 then
        .error .unsupportedChannel
      else
        readChannels p permitted n (i + 1) (seen ||| channelBit channel)
          fun j => if j = i then channel.toUInt8 else channels j

/-- `decode` before `finish`: the request, or the status it is refused with. -/
def read (bytes : Option (List UInt8)) (policy : Policy) : Except Status Request :=
  match bytes with
  | none => .error .invalidBuffer
  | some p =>
      if p.length ≠ messageBytes then
        .error .invalidLength
      else if policy.profile ≠ .darwin24_4_0_d8b50fc2 then
        .error .unsupportedProfile
      else if policy.privateMac ≠ .unsupported ∨ policy.permittedActiveChannels &&& ~~~channelMask ≠ 0 ∨
          policy.permittedPassiveChannels &&& ~~~channelMask ≠ 0 then
        .error .unsupportedPolicy
      else if 1 < p.getD 4 0 ∨ zero (p.drop 5) 3 = false ∨ little32 (p.drop 0x0c) ≠ 0 ∨
          zero (p.drop 0x1a) 2 = false ∨ zero (p.drop 0x46) 2 = false then
        .error .unsupportedPolicy
      else
        let mode := little32 (p.drop 0x40)
        let bssType := little32 (p.drop 0x10)
        let flags := little16 (p.drop 0x44)
        let count := little32 (p.drop 0x54)
        let active := little32 (p.drop 0x48)
        let passive := little32 (p.drop 0x4c)
        let home := little32 (p.drop 0x50)
        let away := little32 (p.drop 8)
        if (mode ≠ 1 ∧ mode ≠ 2) ∨ (bssType ≠ 2 ∧ bssType ≠ 3) then
          .error .unsupportedMode
        else if flags ≠ 0 ∧ flags ≠ 8 then
          .error .unsupportedFlags
        else if zero (p.drop 0x14) 6 = false ∨ little32 (p.drop 0x1c) ≠ 0 ∨ zero (p.drop 0x20) 32 = false ∨
            little32 (p.drop 0x1318) ≠ 0 ∨ zero (p.drop 0x131c) 560 = false ∨
            little32 (p.drop 0x154c) ≠ 0 then
          .error .unsupportedFilters
        else if count = 0 ∨ maxChannels < count.toNat then
          .error .invalidChannels
        else
          match readChannels p (if mode = 1 then policy.permittedActiveChannels
              else policy.permittedPassiveChannels) count.toNat 0 0 (fun _ => 0) with
          | .error status => .error status
          | .ok channels =>
              if active = 0 ∨ maxDwellMs < active ∨ passive = 0 ∨ maxDwellMs < passive ∨
                  maxHomeMs < home ∨ maxHomeMs < away then
                .error .unsupportedTiming
              else
                .ok
                  { opaqueSourceHeader := little32 p
                    activeDwellMs := active
                    passiveDwellMs := passive
                    homeRestMs := home
                    homeAwayMs := away
                    requestedFlags := flags
                    mode := if mode = 1 then .active else .passive
                    bssType := if bssType = 2 then .infrastructure else .any
                    channelCount := count.toUInt8
                    channels := channels
                    refreshPrivateMacRequested := p.getD 4 0 != 0
                    allowProhibitedRequested := flags &&& 8 != 0
                    homeRestDefault := home == 0 }

/-- A null pointer is `none`; otherwise the message has its `length` bytes. -/
def decode (bytes : Option (List UInt8)) (policy : Policy) : Result × Request :=
  match read bytes policy with
  | .ok request => (⟨.knownSubset, false⟩, request)
  | .error status => (⟨status, false⟩, {})

/-! ## Planning -/

/-- `foregroundscan::RequestedPlan`. -/
structure RequestedPlan where
  active : Bool := false
  dwellMs : UInt16 := 0
  channelCount : UInt8 := 0
  channels : ℕ → UInt8 := fun _ => 0

inductive PlanStatus
  | planned
  | notDecoded
  | unsupportedHomeTiming
  | unsupportedDwell
  | invalidChannels
  deriving DecidableEq

structure PlanResult where
  status : PlanStatus := .notDecoded
  emissionReady : Bool := false
  deriving DecidableEq

/-- The channel loop of `map`, with `n` channels to go from index `i` on. -/
def distinctChannels (channels : ℕ → UInt8) : ℕ → ℕ → UInt16 → Bool
  | 0, _, _ => true
  | n + 1, i, seen =>
      let channel := channels i
      if channel < 1 ∨ 11 < channel then
        false
      else if seen &&& channelBit channel.toUInt32 ≠ 0 then
        false
      else
        distinctChannels channels n (i + 1) (seen ||| channelBit channel.toUInt32)

def map (decoded : Result) (request : Request) : PlanResult × RequestedPlan :=
  if decoded.status ≠ .knownSubset then
    (⟨.notDecoded, false⟩, {})
  else if request.homeRestMs ≠ 0 ∨ request.homeAwayMs ≠ 0 then
    (⟨.unsupportedHomeTiming, false⟩, {})
  else if request.mode ≠ .active ∧ request.mode ≠ .passive then
    (⟨.notDecoded, false⟩, {})
  else
    let active := request.mode == .active
    let dwell := if active then request.activeDwellMs else request.passiveDwellMs
    if dwell < 10 ∨ 1000 < dwell then
      (⟨.unsupportedDwell, false⟩, {})
    else if request.channelCount = 0 ∨ 11 < request.channelCount then
      (⟨.invalidChannels, false⟩, {})
    else if !distinctChannels request.channels request.channelCount.toNat 0 0 then
      (⟨.invalidChannels, false⟩, {})
    else
      (⟨.planned, false⟩,
        { active := active
          dwellMs := dwell.toUInt16
          channelCount := request.channelCount
          channels := fun i => if i < request.channelCount.toNat then request.channels i else 0 })

/-- The channels that `beginForeground` passes on for a plan. -/
def RequestedPlan.selected (plan : RequestedPlan) : List NativeScan.Channel :=
  (cells plan.channels plan.channelCount.toNat).map fun number => ⟨.ghz2, number⟩

end WclScan
end Rtl8852be
