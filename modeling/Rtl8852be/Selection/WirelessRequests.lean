import Rtl8852be.WclScan.NativeWclScan

/-!
# WirelessRequests — three ways to ask for a network

`WirelessSelection.hpp`, `WirelessRsn.hpp` and the three decoders of a join request: `control::decode` for
the local endpoint, `decodeAssociation` for the native interface and `decodeWpa2Join` for one observed
message.  Each fills the same `Join`, which the station later takes from `Pending`.
-/

namespace Rtl8852be
namespace Selection

open Network
open WclScan (little16)

/-- An address has a first octet. -/
scoped instance firstOctet : NeZero 6 := ⟨by decide⟩

/-- The reserved bytes have a first one. -/
scoped instance firstReserved : NeZero 2 := ⟨by decide⟩

inductive Security
  | open
  | wpa2Psk
  | wpaPsk
  deriving DecidableEq

inductive Cipher
  | ccmp
  | tkip
  deriving DecidableEq

structure Join where
  ssid : Fin 32 → UInt8 := fun _ => 0
  ssidLength : UInt32 := 0
  bssid : Fin 6 → UInt8 := fun _ => 0
  specificBssid : Bool := false
  security : Security := .open
  pairwise : Cipher := .ccmp
  group : Cipher := .ccmp
  pmk : Fin 32 → UInt8 := fun _ => 0
  pmkLength : UInt32 := 0
  deriving DecidableEq

/-- All bytes of the object zero; the enumerators `open` and `ccmp` are the zeros of their types. -/
def wipe (_ : Join) : Join := {}

def anyByte (bssid : Fin 6 → UInt8) : Bool := (List.ofFn bssid).any (· != 0)

def valid (j : Join) : Bool :=
  if j.ssidLength = 0 ∨ 32 < j.ssidLength then
    false
  else if j.specificBssid = true ∧ (anyByte j.bssid = false ∨ j.bssid 0 &&& 1 ≠ 0) then
    false
  else if j.security = .open then
    j.pmkLength == 0
  else
    -- The other comparisons of the source are with all enumerators of the type.
    j.pmkLength == 32

/-! ## The personal security element -/

structure PersonalCiphers where
  pairwise : Cipher := .ccmp
  group : Cipher := .ccmp
  deriving DecidableEq

def word : List UInt8 → Option (UInt16 × List UInt8)
  | a :: b :: rest => some (a.toUInt16 ||| (b.toUInt16 <<< 8), rest)
  | _ => none

def suite (wpa1 : Bool) : List UInt8 → Option (UInt8 × List UInt8)
  | a :: b :: c :: kind :: rest =>
      if a = 0 ∧ b = (if wpa1 then 0x50 else 0x0f) ∧ c = (if wpa1 then 0xf2 else 0xac) then
        some (kind, rest)
      else
        none
  | _ => none

def cipher (wpa1 : Bool) (ie : List UInt8) : Option (Cipher × List UInt8) := do
  let (kind, rest) ← suite wpa1 ie
  if kind = 2 then
    return (.tkip, rest)
  else if kind = 4 then
    return (.ccmp, rest)
  else
    none

/-- `word(n)` with the test `n!=1` that always follows it. -/
def one (ie : List UInt8) : Option (List UInt8) := do
  let (n, rest) ← word ie
  if n = 1 then
    return rest
  else
    none

/-- What may follow the key management suite. -/
def endOfElement (wpa1 : Bool) (ie : List UInt8) : Option Unit :=
  if ie = [] then
    some ()
  else do
    let (caps, rest) ← word ie
    if caps &&& ~~~(if wpa1 then 0 else 0x003c) ≠ 0 then
      none
    else if rest = [] then
      return ()
    else if wpa1 then
      none
    else do
      let (n, rest) ← word rest
      if n = 0 ∧ rest = [] then
        return ()
      else
        none

/-- The element from its position `p` on: the source keeps the index, here it is what is left. -/
def suites (wpa1 : Bool) (ie : List UInt8) : Option PersonalCiphers := do
  let ie ← one ie
  let (group, ie) ← cipher wpa1 ie
  let ie ← one ie
  let (pairwise, ie) ← cipher wpa1 ie
  let ie ← one ie
  let (akm, ie) ← suite wpa1 ie
  if akm ≠ 2 then
    none
  else do
    endOfElement wpa1 ie
    return { pairwise, group }

/-- `out` is what the value is, and `{}` where there is none. -/
def personalIE (ie : List UInt8) (wpa1 : Bool) : Option PersonalCiphers :=
  if ie = [] then
    some (if wpa1 then { pairwise := .tkip, group := .tkip } else {})
  else if ie.length < 20 ∨ 257 < ie.length ∨ (ie.getD 1 0).toNat + 2 ≠ ie.length then
    none
  else if wpa1 then
    if ie.getD 0 0 ≠ 221 ∨ ie.length < 24 ∨ ie.getD 2 0 ≠ 0 ∨ ie.getD 3 0 ≠ 0x50 ∨ ie.getD 4 0 ≠ 0xf2 ∨
        ie.getD 5 0 ≠ 1 then
      none
    else
      suites wpa1 (ie.drop 6)
  else if ie.getD 0 0 ≠ 48 then
    none
  else
    suites wpa1 (ie.drop 2)

/-! ## The local endpoint -/

namespace Control

def version : UInt32 := 1

structure Join where
  version : UInt32
  security : UInt32
  pairwise : UInt32
  group : UInt32
  ssidLength : UInt32
  pmkLength : UInt32
  specificBssid : UInt32
  reserved : UInt32
  ssid : Fin 32 → UInt8
  bssid : Fin 6 → UInt8
  reservedBytes : Fin 2 → UInt8
  pmk : Fin 32 → UInt8

/-- `static_cast` to the enumeration, for the values that the decoder lets through. -/
def securityOf (value : UInt32) : Security :=
  if value = 0 then .open else if value = 1 then .wpa2Psk else .wpaPsk

def cipherOf (value : UInt32) : Cipher := if value = 0 then .ccmp else .tkip

def decode (request : Join) (out : Selection.Join) : Bool × Selection.Join :=
  let out := wipe out
  if request.version ≠ version ∨ request.reserved ≠ 0 ∨ request.reservedBytes 0 ≠ 0 ∨
      request.reservedBytes 1 ≠ 0 ∨ 2 < request.security ∨ 1 < request.pairwise ∨ 1 < request.group ∨
      1 < request.specificBssid ∨ request.ssidLength = 0 ∨ 32 < request.ssidLength ∨
      32 < request.pmkLength then
    (false, out)
  else
    let out :=
      { out with
        security := securityOf request.security
        pairwise := cipherOf request.pairwise
        group := cipherOf request.group
        ssidLength := request.ssidLength
        pmkLength := request.pmkLength
        specificBssid := request.specificBssid != 0
        ssid := request.ssid
        pmk := request.pmk
        bssid := request.bssid }
    if valid out = false then
      (false, wipe out)
    -- Open requests cannot smuggle unused key bytes into retained state.
    else if out.pmkLength = 0 then
      (true, { out with pmk := fun _ => 0 })
    else
      (true, out)

end Control

/-! ## The native interface -/

namespace NativeWifi

/-- The constants of the system's header. -/
structure Apple80211 where
  version : ℕ
  maxRsnIeLen : ℕ
  apModeInfra : ℕ
  authtypeOpen : ℕ
  authtypeNone : ℕ
  authtypeWpa2Psk : ℕ
  authtypeWpaPsk : ℕ
  cipherNone : ℕ
  cipherPmk : ℕ

structure Key where
  keyLen : ℕ
  keyCipherType : ℕ
  key : ℕ → UInt8

/-- `apple80211_assoc_data`.  How wide its fields are is the header's business; arrays are read below their
bounds only. -/
structure AssocData where
  version : ℕ
  adMode : ℕ
  adAuthLower : ℕ
  adAuthUpper : ℕ
  adFlags : ℕ
  adSsid : ℕ → UInt8
  adSsidLen : UInt32
  adBssid : Fin 6 → UInt8
  adKey : Key
  adRsnIe : ℕ → UInt8
  adRsnIeLen : ℕ

inductive IOReturn
  | success
  | badArgument
  | unsupported
  deriving DecidableEq

/-- The bytes that `personalIE` is given. -/
def AssocData.rsnIe (data : AssocData) : List UInt8 := (List.range data.adRsnIeLen).map data.adRsnIe

/-- The two branches on `ad_auth_upper`, which fill in the security of the request. -/
def decodeSecurity (apple : Apple80211) (data : AssocData) (out : Join) : Option Join :=
  if data.adAuthUpper = apple.authtypeNone then
    if data.adKey.keyLen ≠ 0 ∨ data.adRsnIeLen ≠ 0 ∨ data.adKey.keyCipherType ≠ apple.cipherNone then
      none
    else
      some { out with security := .open }
  else if data.adAuthUpper = apple.authtypeWpa2Psk ∨ data.adAuthUpper = apple.authtypeWpaPsk then
    let wpa1 : Bool := data.adAuthUpper = apple.authtypeWpaPsk
    if data.adKey.keyCipherType ≠ apple.cipherPmk ∨ data.adKey.keyLen ≠ 32 then
      none
    else
      match personalIE data.rsnIe wpa1 with
      | none => none
      | some ciphers =>
          some
            { out with
              security := if wpa1 then .wpaPsk else .wpa2Psk
              pmkLength := 32
              pairwise := ciphers.pairwise
              group := ciphers.group
              pmk := fun i => data.adKey.key i }
  else
    none

def decodeAssociation (apple : Apple80211) (data : Option AssocData) (out : Join) : IOReturn × Join :=
  let out := wipe out
  match data with
  | none => (.badArgument, out)
  | some data =>
      if data.version ≠ apple.version ∨ data.adSsidLen = 0 ∨ 32 < data.adSsidLen ∨
          apple.maxRsnIeLen < data.adRsnIeLen then
        (.badArgument, out)
      else if data.adMode ≠ apple.apModeInfra ∨ data.adAuthLower ≠ apple.authtypeOpen ∨ data.adFlags ≠ 0 then
        (.unsupported, out)
      else
        match decodeSecurity apple data out with
        | none => (.unsupported, out)
        | some out =>
            let out :=
              { out with
                ssidLength := data.adSsidLen
                ssid := fun i => if i.val < data.adSsidLen.toNat then data.adSsid i else out.ssid i
                bssid := data.adBssid
                specificBssid := out.specificBssid || anyByte data.adBssid }
            if valid out = false then
              (.badArgument, wipe out)
            else
              (.success, out)

end NativeWifi

/-! ## The observed message -/

namespace NativeWcl

def messageBytes : ℕ := 988

def countOffset : ℕ := 0x214

def recordOffset : ℕ := 0x218

def recordBytes : ℕ := 18

inductive DecodeResult
  | ok
  | invalidPointer
  | invalidLength
  | unsupportedCount
  deriving DecidableEq

structure Candidate where
  security : UInt16 := 0
  channelSpec : UInt16 := 0
  saePkCapable : UInt8 := 0
  bssid : Fin 6 → UInt8 := fun _ => 0
  oweTransitionAddress : Fin 6 → UInt8 := fun _ => 0

structure Observation where
  count : UInt32 := 0
  candidate : Candidate := {}

def readable (length offset bytes : ℕ) : Bool := offset ≤ length && bytes ≤ length - offset

def decode (data : Option (List UInt8)) : DecodeResult × Observation :=
  match data with
  | none => (.invalidPointer, {})
  | some p =>
      if p.length ≠ messageBytes ∨ readable p.length countOffset 4 = false then
        (.invalidLength, {})
      else if 1 < little32 (p.drop countOffset) then
        (.unsupportedCount, {})
      else if little32 (p.drop countOffset) = 0 then
        (.ok, {})
      else if readable p.length recordOffset recordBytes = false ∨ readable p.length recordOffset 1 = false ∨
          readable p.length (recordOffset + 2) 2 = false ∨ readable p.length (recordOffset + 4) 6 = false ∨
          readable p.length (recordOffset + 10) 6 = false ∨
          readable p.length (recordOffset + 16) 2 = false then
        (.invalidLength, {})
      else
        (.ok,
          { count := 1
            candidate :=
              { saePkCapable := p.getD recordOffset 0
                security := little16 (p.drop (recordOffset + 2))
                channelSpec := little16 (p.drop (recordOffset + 16))
                bssid := fun i => p.getD (recordOffset + 4 + i) 0
                oweTransitionAddress := fun i => p.getD (recordOffset + 10 + i) 0 } })

inductive JoinResult
  | ok
  | invalidPointer
  | invalidLength
  | invalidSsid
  | invalidCandidate
  | unsupportedMode
  | unsupportedAuthentication
  | unsupportedPolicy
  | unsupportedKey
  | unsupportedRsn
  deriving DecidableEq

/-- Writes occur after the final input read, so `out` may be storage of the input. -/
def joinResult (out decoded : Join) (result : JoinResult) : JoinResult × Join :=
  if result = .ok then (result, decoded) else (result, wipe out)

/-- The bytes of the security element of the message. -/
def rsnElement (p : List UInt8) : List UInt8 := (p.drop 0xd6).take (little16 (p.drop 0xd4)).toNat

/-- The fields in front of the candidate list. -/
def checkFields (p : List UInt8) : Option JoinResult :=
  if little16 (p.drop 0x0c) ≠ 2 then
    some .unsupportedMode
  else if little32 (p.drop 0x10) ≠ 1 ∨ little32 (p.drop 0x14) ≠ 8 ∨ little32 (p.drop 0x18) ≠ 0 then
    some .unsupportedAuthentication
  else if little32 (p.drop 0x1c) = 0 ∨ 32 < little32 (p.drop 0x1c) then
    some .invalidSsid
  else if little16 (p.drop 0x1e0) ≠ 0 ∨ (p.getD 0x1e4 0 ≠ 0 ∧ p.getD 0x1e4 0 ≠ 2) ∨ p.getD 0x1e8 0 ≠ 0 then
    some .unsupportedPolicy
  else if little32 (p.drop 0x44) ≠ 32 ∨ little32 (p.drop 0x48) ≠ 6 ∨ little32 (p.drop 0x1ec) ≠ 0 then
    some .unsupportedKey
  -- Never with the default that `personalIE` has for an empty element.
  else if little16 (p.drop 0xd4) < 20 ∨ 257 < little16 (p.drop 0xd4) ∨
      personalIE (rsnElement p) false ≠ some { pairwise := .ccmp, group := .ccmp } then
    some .unsupportedRsn
  else
    none

def decodeWpa2Join (bytes : Option (List UInt8)) (out : Join) : JoinResult × Join :=
  match bytes with
  | none => joinResult out {} .invalidPointer
  | some p =>
      if p.length ≠ messageBytes then
        joinResult out {} .invalidLength
      else
        match checkFields p with
        | some refused => joinResult out {} refused
        | none =>
            let (result, observed) := decode (some p)
            if result ≠ .ok ∨ observed.count ≠ 1 ∨ observed.candidate.saePkCapable ≠ 0 then
              joinResult out {} .invalidCandidate
            else if anyByte observed.candidate.oweTransitionAddress then
              joinResult out {} .invalidCandidate
            else
              let decoded : Join :=
                { ssidLength := little32 (p.drop 0x1c)
                  ssid := fun i =>
                    if i.val < (little32 (p.drop 0x1c)).toNat then p.getD (0x20 + i) 0 else 0
                  specificBssid := true
                  bssid := observed.candidate.bssid
                  security := .wpa2Psk
                  pairwise := .ccmp
                  group := .ccmp
                  pmkLength := 32 }
              if valid decoded = false then
                joinResult out decoded .invalidCandidate
              else
                joinResult out { decoded with pmk := fun i => p.getD (0x50 + i) 0 } .ok

end NativeWcl

end Selection
end Rtl8852be
