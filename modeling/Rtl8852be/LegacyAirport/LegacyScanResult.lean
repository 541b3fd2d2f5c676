import Rtl8852be.Checked.Writer
import Rtl8852be.NativeScan.Advertisements
import Rtl8852be.WclResults.NativeWclBeacon

/-!
# LegacyScanResult — a scan result for the legacy family

`LegacyScanResult.hpp`.  `scanResult` encodes an entry of the scan store for Apple80211, whose header is not in
the repository: the constants of it are parameters.  A first walk over the elements checks that they are complete
and that what is to be copied has room; a second one copies.

* `checks_safe` — what the first walk has found when it ends well;
* `fill_safe` — the second one writes inside of the two arrays, and copies these elements;
* `scanResult_encodes` — the two together.
-/

namespace Rtl8852be
namespace LegacyAirport

open Checked Advertisements
open NativeScan hiding byteAt

inductive IOReturn
  | success
  | badArgument
  | unsupported
  deriving DecidableEq, Repr

/-- The header, as far as the code uses it.  The offsets of the fields around `asr_rates` are asserted. -/
structure Apple80211 where
  version : UInt32
  flag20MHz : UInt32
  flag2GHz : UInt32
  flag5GHz : UInt32
  maxRates : ℕ
  layout : 0x24 + 4 * maxRates ≤ 0x60

def Apple80211.fake : Apple80211 where
  version := 1
  flag20MHz := 2
  flag2GHz := 8
  flag5GHz := 16
  maxRates := 15
  layout := by decide

/-- `sizeof(out.asr_ie_data)` -/
def ieDataBytes : ℕ := 1024

/-- The fields of `apple80211_scan_result` that are written. -/
structure ScanResult where
  version : UInt32 := 0
  channelVersion : UInt32 := 0
  channel : UInt32 := 0
  channelFlags : UInt32 := 0
  rssi : Int16 := 0
  beaconInt : Int16 := 0
  cap : Int16 := 0
  bssid : List UInt8 := List.replicate 6 0
  nrates : UInt8 := 0
  rates : List UInt32
  ssidLen : UInt8 := 0
  ssid : List UInt8 := List.replicate 32 0
  age : UInt32 := 0
  ieLen : Int16 := 0
  ieData : List UInt8 := List.replicate ieDataBytes 0
  deriving DecidableEq

/-- `memset(&out, 0, sizeof(out));` -/
def blank (h : Apple80211) : ScanResult := { rates := List.replicate h.maxRates 0 }

/-! ## The first walk -/

/-- `wpaVendor` -/
def wpaVendor {ε : Type} (ies : List UInt8) (id : UInt8) (offset length : ℕ) : Reader ε Bool :=
  if id = 221 ∧ 6 ≤ length + 2 then Frame.wpaAt ies offset else return false

/-- The number of rates after an element. -/
def countRates (h : Apple80211) (rateCount : ℕ) (id : UInt8) (length : ℕ) : Reader IOReturn ℕ :=
  if id = 1 ∨ id = 50 then
    if h.maxRates < rateCount + length then early .unsupported else return rateCount + length
  else
    return rateCount

def validate (h : Apple80211) (ies : List UInt8) (counts : ℕ × ℕ) (id : UInt8) (offset length : ℕ) :
    Reader IOReturn (ℕ × ℕ) := do
  let rateCount ← countRates h counts.1 id length
  let wpa ← wpaVendor ies id offset length
  if id = 48 ∨ wpa = true then
    if (id = 48 ∧ length + 2 < 20) ∨ (wpa = true ∧ length + 2 < 24) then
      early .badArgument
    else if ieDataBytes < counts.2 + (length + 2) then
      early .unsupported
    else
      return (rateCount, counts.2 + (length + 2))
  else
    return (rateCount, counts.2)

def published (entry : Entry) : List UInt8 :=
  (List.range entry.ieLength.toNat).map (WclBeacon.ieAt entry)

/-- The part before the output is written. -/
def checks (h : Apple80211) (entry : Entry) (reportedAtUs : UInt64) : Reader IOReturn Unit :=
  if !entry.channel.valid ∨ 32 < entry.ssidLength ∨ maxIeBytes < entry.ieLength.toNat ∨
      entry.signal.unit ≠ .dbm ∨ !entry.signal.valid ∨ reportedAtUs < entry.observedAtUs ∨
      32767 < entry.beaconInterval then
    early .unsupported
  else if !unicast (some entry.bssid) then
    early .badArgument
  else do
    let _ ← walk .badArgument (validate h (published entry)) (published entry) ((published entry).length + 1) 0 (0, 0)
    return ()

/-! ## The second walk -/

/-- The two arrays, and how far they are filled. -/
structure Arrays where
  rates : List UInt32
  rateIndex : ℕ := 0
  ieData : List UInt8 := List.replicate ieDataBytes 0
  securityIndex : ℕ := 0

/-- The loop over the rates of an element. -/
def collectRates (ies : List UInt8) (a : Arrays) (id : UInt8) (offset length : ℕ) : Reader Empty Arrays :=
  if id = 1 ∨ id = 50 then do
    let rates ← copyBytes UInt8.toUInt32 ies length offset a.rateIndex a.rates
    return { a with rates, rateIndex := a.rateIndex + length }
  else
    return a

def collect (ies : List UInt8) (a : Arrays) (id : UInt8) (offset length : ℕ) : Reader Empty Arrays := do
  let a ← collectRates ies a id offset length
  let wpa ← wpaVendor ies id offset length
  if id = 48 ∨ wpa = true then do
    let start ← sub offset 2
    let ieData ← copyBytes (fun b => b) ies (length + 2) start a.securityIndex a.ieData
    return { a with ieData, securityIndex := a.securityIndex + (length + 2) }
  else
    return a

/-- The age in milliseconds, which stops at its maximum. -/
def age (entry : Entry) (reportedAtUs : UInt64) : UInt32 :=
  if 0xffffffff < (reportedAtUs - entry.observedAtUs) / 1000 then 0xffffffff
  else ((reportedAtUs - entry.observedAtUs) / 1000).toUInt32

def fill (h : Apple80211) (entry : Entry) (reportedAtUs : UInt64) : Reader Empty ScanResult := do
  let ssid ← copyBytes (fun b => b) (List.ofFn entry.ssid) entry.ssidLength.toNat 0 0 (blank h).ssid
  let a ← sweep (collect (published entry)) (published entry) ((published entry).length + 1) 0
    { rates := (blank h).rates }
  return {
    version := h.version
    channelVersion := h.version
    channel := entry.channel.number.toUInt32
    channelFlags := h.flag20MHz ||| (if entry.channel.band = .ghz5 then h.flag5GHz else h.flag2GHz)
    rssi := entry.signal.value
    beaconInt := entry.beaconInterval.toInt16
    cap := entry.capability.toInt16
    bssid := List.ofFn entry.bssid
    nrates := UInt8.ofNat a.rateIndex
    rates := a.rates
    ssidLen := entry.ssidLength
    ssid
    age := age entry reportedAtUs
    ieLen := Int16.ofNat a.securityIndex
    ieData := a.ieData }

/-- `scanResult` -/
def scanResult (h : Apple80211) (entry : Entry) (reportedAtUs : UInt64) : Reader Empty (IOReturn × ScanResult) := do
  let status ← returned id (fun _ => IOReturn.success) (checks h entry reportedAtUs)
  if status ≠ .success then
    return (status, blank h)
  else do
    let out ← fill h entry reportedAtUs
    return (.success, out)

/-- It is the front of the array that the entry has for its elements. -/
theorem published_eq {entry : Entry} (h : entry.ieLength.toNat ≤ maxIeBytes) :
    published entry = (List.ofFn entry.ies).take entry.ieLength.toNat := by
  apply List.ext_getElem
  · rw [published, List.length_map, List.length_range, List.length_take, List.length_ofFn, Nat.min_eq_left h]
  · intro i hi _
    rw [published, List.length_map, List.length_range] at hi
    simp only [published, List.getElem_map, List.getElem_range, List.getElem_take, List.getElem_ofFn]
    exact dif_pos (by omega)

/-! ## What is copied -/

variable {h : Apple80211} {ies : List UInt8} {e : Element} {es : List Element} {offset : ℕ}

def isRates (e : Element) : Bool := e.id = 1 ∨ e.id = 50

def isSecurity (e : Element) : Bool := decide (e.id = 48) || isWpa e

/-- The rates of all elements, in their order. -/
def ratesOf (es : List Element) : List UInt8 := (es.filter isRates).flatMap Element.body

/-- The elements of the security, in their order. -/
def securityOf (es : List Element) : List UInt8 := chain (es.filter isSecurity)

theorem ratesOf_append (es : List Element) (e : Element) :
    ratesOf (es ++ [e]) = ratesOf es ++ if isRates e then e.body else [] := by
  rw [ratesOf, List.filter_append, List.flatMap_append, ← ratesOf, List.filter_singleton]
  cases isRates e with
  | false => rfl
  | true => simp

theorem securityOf_append (es : List Element) (e : Element) :
    securityOf (es ++ [e]) = securityOf es ++ if isSecurity e then e.bytes else [] := by
  rw [securityOf, List.filter_append, chain_append, ← securityOf, List.filter_singleton]
  cases isSecurity e with
  | false => rfl
  | true => simp

/-- What the two walks know about the vendor of an element. -/
theorem wpaVendor_eq {ε : Type} (hstands : Stands ies e offset) :
    (wpaVendor ies e.id offset e.body.length : Reader ε Bool) = pure (isWpa e) := by
  have hholds : Holds ies fun i => ies.getD i 0 := fun i _ => rfl
  have hinside := hstands.inside
  unfold wpaVendor
  by_cases hvendor : e.id = 221 ∧ 6 ≤ e.body.length + 2
  · have hfour : 4 ≤ e.body.length := by omega
    rw [if_pos hvendor, wpaAt_eq hholds (by omega)]
    congr 1
    rw [Bool.eq_iff_iff, decide_eq_true_iff, isWpa_iff hholds hstands]
    exact ⟨fun hbytes => ⟨hvendor.1, hfour, hbytes⟩, fun hall => hall.2.2⟩
  · rw [if_neg hvendor]
    congr 1
    refine (Bool.eq_false_iff.2 fun hwpa => hvendor ?_).symm
    rcases (isWpa_iff hholds hstands).1 hwpa with ⟨hid, hfour, -⟩
    exact ⟨hid, by omega⟩

theorem length_ratesOf_le {done later all : List Element} (hall : done ++ e :: later = all) :
    (ratesOf (done ++ [e])).length ≤ (ratesOf all).length := by
  have hsplit : all = (done ++ [e]) ++ later := by
    rw [← hall, List.append_assoc, List.singleton_append]
  have hrates : ratesOf all = ratesOf (done ++ [e]) ++ ratesOf later := by
    rw [hsplit, ratesOf, List.filter_append, List.flatMap_append, ← ratesOf, ← ratesOf]
  rw [hrates, List.length_append]
  exact Nat.le_add_right _ _

theorem length_securityOf_le {done later all : List Element} (hall : done ++ e :: later = all) :
    (securityOf (done ++ [e])).length ≤ (securityOf all).length := by
  have hsplit : all = (done ++ [e]) ++ later := by
    rw [← hall, List.append_assoc, List.singleton_append]
  have hsecurity : securityOf all = securityOf (done ++ [e]) ++ securityOf later := by
    rw [hsplit, securityOf, List.filter_append, chain_append, ← securityOf, ← securityOf]
  rw [hsecurity, List.length_append]
  exact Nat.le_add_right _ _

/-! ## The first walk -/

/-- The counts of the first walk. -/
structure Counted (h : Apple80211) (es : List Element) (counts : ℕ × ℕ) : Prop where
  rates : counts.1 = (ratesOf es).length
  security : counts.2 = (securityOf es).length
  ratesFit : counts.1 ≤ h.maxRates
  securityFit : counts.2 ≤ ieDataBytes

theorem countRates_safe {rateCount : ℕ} (hcount : rateCount = (ratesOf es).length) (hfit : rateCount ≤ h.maxRates) :
    Safe (fun status => status ≠ .success) (fun n => n = (ratesOf (es ++ [e])).length ∧ n ≤ h.maxRates)
      (countRates h rateCount e.id e.body.length) := by
  unfold countRates
  rw [ratesOf_append]
  by_cases hrates : e.id = 1 ∨ e.id = 50
  · have his : isRates e = true := decide_eq_true hrates
    rw [if_pos hrates, if_pos his, List.length_append, ← hcount]
    refine Safe.ite (fun _ => Safe.early IOReturn.noConfusion) fun hroom => ?_
    exact Safe.pure ⟨rfl, Nat.not_lt.1 hroom⟩
  · have his : ¬ isRates e = true := fun his => hrates (of_decide_eq_true his)
    rw [if_neg hrates, if_neg his, List.append_nil]
    exact Safe.pure ⟨hcount, hfit⟩

theorem validate_safe {counts : ℕ × ℕ} (hstands : Stands ies e offset) (hcounted : Counted h es counts) :
    Safe (fun status => status ≠ .success) (Counted h (es ++ [e]))
      (validate h ies counts e.id offset e.body.length) := by
  unfold validate
  refine Safe.bind (countRates_safe hcounted.rates hcounted.ratesFit) fun n hn => ?_
  rw [wpaVendor_eq hstands, pure_bind]
  have hsecurity := securityOf_append es e
  by_cases hkind : e.id = 48 ∨ isWpa e = true
  · have his : isSecurity e = true := by
      rw [isSecurity, Bool.or_eq_true, decide_eq_true_iff]
      exact hkind
    rw [if_pos his] at hsecurity
    rw [if_pos hkind]
    refine Safe.ite (fun _ => Safe.early IOReturn.noConfusion) fun _ => ?_
    refine Safe.ite (fun _ => Safe.early IOReturn.noConfusion) fun hroom => ?_
    refine Safe.pure ⟨hn.1, ?_, hn.2, Nat.not_lt.1 hroom⟩
    rw [hsecurity, List.length_append, ← hcounted.security, Element.length_bytes]
  · have his : ¬ isSecurity e = true := by
      rw [isSecurity, Bool.or_eq_true, decide_eq_true_iff]
      exact hkind
    rw [if_neg his, List.append_nil] at hsecurity
    rw [if_neg hkind]
    refine Safe.pure ⟨hn.1, ?_, hn.2, hcounted.securityFit⟩
    rw [hsecurity]
    exact hcounted.security

/-- What the second walk relies on. -/
structure Checked (h : Apple80211) (entry : Entry) (reportedAtUs : UInt64) (es : List Element) : Prop where
  elements : published entry = chain es
  fits : entry.ieLength.toNat ≤ maxIeBytes
  rates : (ratesOf es).length ≤ h.maxRates
  security : (securityOf es).length ≤ ieDataBytes
  name : entry.ssidLength.toNat ≤ 32
  past : entry.observedAtUs ≤ reportedAtUs

theorem checks_safe (h : Apple80211) (entry : Entry) (reportedAtUs : UInt64) :
    Safe (fun status => status ≠ .success) (fun _ => ∃ es, Checked h entry reportedAtUs es)
      (checks h entry reportedAtUs) := by
  unfold checks
  refine Safe.ite (fun _ => Safe.early IOReturn.noConfusion) fun hentry => ?_
  simp only [not_or, UInt8.not_lt, UInt64.not_lt] at hentry
  rcases hentry with ⟨-, hname, hfits, -, -, hpast, -⟩
  refine Safe.ite (fun _ => Safe.early IOReturn.noConfusion) fun _ => ?_
  have hwalk : Safe (fun status => status ≠ IOReturn.success)
      (fun counts => ∃ es, (published entry).drop 0 = chain es ∧ Counted h ([] ++ es) counts)
      (walk .badArgument (validate h (published entry)) (published entry) ((published entry).length + 1) 0 (0, 0)) := by
    refine Safe.walk (Counted h) IOReturn.noConfusion (fun done e offset counts hstands hcounted => ?_) (Nat.zero_le _)
      (by omega) ⟨rfl, rfl, Nat.zero_le _, Nat.zero_le _⟩
    exact validate_safe hstands hcounted
  refine Safe.bind hwalk fun counts hcounts => ?_
  rcases hcounts with ⟨es, hes, hcounted⟩
  rw [List.nil_append] at hcounted
  refine Safe.pure ⟨es, hes, Nat.not_lt.1 hfits, ?_, ?_, UInt8.le_iff_toNat_le.1 hname, hpast⟩
  · exact hcounted.rates ▸ hcounted.ratesFit
  · exact hcounted.security ▸ hcounted.securityFit

/-! ## The second walk -/

/-- The arrays of the second walk. -/
structure Collected (h : Apple80211) (es : List Element) (a : Arrays) : Prop where
  rateIndex : a.rateIndex = (ratesOf es).length
  rates : a.rates = (ratesOf es).map UInt8.toUInt32 ++ List.replicate (h.maxRates - (ratesOf es).length) 0
  securityIndex : a.securityIndex = (securityOf es).length
  ieData : a.ieData = securityOf es ++ List.replicate (ieDataBytes - (securityOf es).length) 0

theorem collectRates_safe {a : Arrays} (hstands : Stands ies e offset) (hcollected : Collected h es a)
    (hroom : (ratesOf (es ++ [e])).length ≤ h.maxRates) :
    Safe (fun _ => False)
      (fun a' => a'.rateIndex = (ratesOf (es ++ [e])).length ∧
        a'.rates = (ratesOf (es ++ [e])).map UInt8.toUInt32 ++
          List.replicate (h.maxRates - (ratesOf (es ++ [e])).length) 0 ∧
        a'.securityIndex = a.securityIndex ∧ a'.ieData = a.ieData)
      (collectRates ies a e.id offset e.body.length) := by
  unfold collectRates
  rw [ratesOf_append] at hroom ⊢
  by_cases hrates : e.id = 1 ∨ e.id = 50
  · have his : isRates e = true := decide_eq_true hrates
    rw [if_pos his, List.length_append] at hroom
    rw [if_pos hrates, if_pos his]
    have hcopy : Safe (fun _ : Empty => False)
        (fun target => target = (ratesOf es).map UInt8.toUInt32 ++
          ((ies.drop offset).take e.body.length).map UInt8.toUInt32 ++
          (List.replicate (h.maxRates - (ratesOf es).length) 0).drop e.body.length)
        (copyBytes UInt8.toUInt32 ies e.body.length offset a.rateIndex a.rates) := by
      have hindex : a.rateIndex = ((ratesOf es).map UInt8.toUInt32).length := by
        rw [List.length_map, hcollected.rateIndex]
      rw [hcollected.rates, hindex]
      refine Safe.copyBytes hstands.inside ?_
      rw [List.length_replicate]
      omega
    refine Safe.bind hcopy fun target htarget => Safe.pure ⟨?_, ?_, rfl, rfl⟩
    · show a.rateIndex + e.body.length = _
      rw [hcollected.rateIndex, List.length_append]
    · show target = _
      rw [htarget, ← hstands.body, List.map_append, List.drop_replicate, List.length_append, Nat.sub_sub]
  · have his : ¬ isRates e = true := fun his => hrates (of_decide_eq_true his)
    rw [if_neg hrates, if_neg his, List.append_nil]
    exact Safe.pure ⟨hcollected.rateIndex, hcollected.rates, rfl, rfl⟩

theorem collect_safe {a : Arrays} (hstands : Stands ies e offset) (hcollected : Collected h es a)
    (hrates : (ratesOf (es ++ [e])).length ≤ h.maxRates)
    (hsecurity : (securityOf (es ++ [e])).length ≤ ieDataBytes) :
    Safe (fun _ => False) (Collected h (es ++ [e])) (collect ies a e.id offset e.body.length) := by
  unfold collect
  refine Safe.bind (collectRates_safe hstands hcollected hrates) fun a' ha' => ?_
  rcases ha' with ⟨hrateIndex, hrateBytes, hindex, hdata⟩
  rw [wpaVendor_eq hstands, pure_bind]
  have happend := securityOf_append es e
  by_cases hkind : e.id = 48 ∨ isWpa e = true
  · have his : isSecurity e = true := by
      rw [isSecurity, Bool.or_eq_true, decide_eq_true_iff]
      exact hkind
    rw [if_pos his] at happend
    rw [happend, List.length_append, Element.length_bytes] at hsecurity
    rw [if_pos hkind]
    refine Safe.bind (Safe.sub hstands.behind) fun start hstart => ?_
    have hinside := hstands.inside
    have hbehind := hstands.behind
    have hcopy : Safe (fun _ : Empty => False)
        (fun target => target = securityOf es ++ ((ies.drop start).take (e.body.length + 2)).map (fun b => b) ++
          (List.replicate (ieDataBytes - (securityOf es).length) 0).drop (e.body.length + 2))
        (copyBytes (fun b => b) ies (e.body.length + 2) start a'.securityIndex a'.ieData) := by
      rw [hindex, hdata, hcollected.ieData, hcollected.securityIndex]
      refine Safe.copyBytes (by omega) ?_
      rw [List.length_replicate]
      omega
    refine Safe.bind hcopy fun target htarget => Safe.pure ⟨hrateIndex, hrateBytes, ?_, ?_⟩
    · show a'.securityIndex + (e.body.length + 2) = _
      rw [hindex, hcollected.securityIndex, happend, List.length_append, Element.length_bytes]
    · show target = _
      rw [htarget, hstart, ← hstands.bytes, List.map_id', List.drop_replicate, happend, List.length_append,
        Element.length_bytes, Nat.sub_sub]
  · have his : ¬ isSecurity e = true := by
      rw [isSecurity, Bool.or_eq_true, decide_eq_true_iff]
      exact hkind
    rw [if_neg his, List.append_nil] at happend
    rw [if_neg hkind]
    refine Safe.pure ⟨hrateIndex, hrateBytes, ?_, ?_⟩
    · rw [hindex, happend]
      exact hcollected.securityIndex
    · rw [hdata, happend]
      exact hcollected.ieData

/-! ## The result -/

theorem toNat_age {entry : Entry} {reportedAtUs : UInt64} (hpast : entry.observedAtUs ≤ reportedAtUs) :
    (age entry reportedAtUs).toNat =
      min ((reportedAtUs.toNat - entry.observedAtUs.toNat) / 1000) (2 ^ 32 - 1) := by
  have helapsed : ((reportedAtUs - entry.observedAtUs) / 1000).toNat =
      (reportedAtUs.toNat - entry.observedAtUs.toNat) / 1000 := by
    rw [UInt64.toNat_div, UInt64.toNat_sub_of_le _ _ hpast]
    rfl
  unfold age
  by_cases hlate : 0xffffffff < (reportedAtUs - entry.observedAtUs) / 1000
  · have hbound := UInt64.lt_iff_toNat_lt.1 hlate
    have hmax : (0xffffffff : UInt64).toNat = 2 ^ 32 - 1 := rfl
    rw [helapsed, hmax] at hbound
    rw [if_pos hlate, Nat.min_eq_right (Nat.le_of_lt hbound)]
    rfl
  · have hbound := UInt64.le_iff_toNat_le.1 (UInt64.not_lt.1 hlate)
    have hmax : (0xffffffff : UInt64).toNat = 2 ^ 32 - 1 := rfl
    rw [helapsed, hmax] at hbound
    rw [if_neg hlate, UInt64.toNat_toUInt32, helapsed, Nat.min_eq_left hbound, Nat.mod_eq_of_lt (by omega)]

/-- What the output says about the elements and the age. -/
structure Encoded (h : Apple80211) (entry : Entry) (reportedAtUs : UInt64) (es : List Element) (out : ScanResult) :
    Prop where
  rates : out.rates = (ratesOf es).map UInt8.toUInt32 ++ List.replicate (h.maxRates - (ratesOf es).length) 0
  nrates : out.nrates.toNat = (ratesOf es).length
  ieData : out.ieData = securityOf es ++ List.replicate (ieDataBytes - (securityOf es).length) 0
  ieLen : out.ieLen.toInt = (securityOf es).length
  age : out.age.toNat = min ((reportedAtUs.toNat - entry.observedAtUs.toNat) / 1000) (2 ^ 32 - 1)

theorem fill_safe {entry : Entry} {reportedAtUs : UInt64} (hchecked : Checked h entry reportedAtUs es) :
    Safe (fun _ => False) (Encoded h entry reportedAtUs es) (fill h entry reportedAtUs) := by
  unfold fill
  have hssid : Safe (fun _ : Empty => False) (fun _ => True)
      (copyBytes (fun b => b) (List.ofFn entry.ssid) entry.ssidLength.toNat 0 0 (blank h).ssid) := by
    have hname := hchecked.name
    refine Safe.mono (@Safe.copyBytes _ _ _ _ _ [] (blank h).ssid _ _ ?_ ?_) fun _ _ => trivial
    · rw [List.length_ofFn]
      omega
    · show entry.ssidLength.toNat ≤ 32
      exact hname
  refine Safe.bind hssid fun ssid _ => ?_
  have hsweep : Safe (fun _ : Empty => False) (Collected h es)
      (sweep (collect (published entry)) (published entry) ((published entry).length + 1) 0
        { rates := (blank h).rates }) := by
    have hrounds : (published entry).length < 0 + ((published entry).length + 1) := by omega
    have hstart : Collected h [] { rates := (blank h).rates } := ⟨rfl, rfl, rfl, rfl⟩
    refine Safe.sweep (Collected h) (fun done e later offset a hall hstands hcollected => ?_)
      hchecked.elements (List.nil_append es) (Nat.zero_le _) hrounds hstart
    exact collect_safe hstands hcollected (le_trans (length_ratesOf_le hall) hchecked.rates)
      (le_trans (length_securityOf_le hall) hchecked.security)
  refine Safe.bind hsweep fun a ha => Safe.pure ⟨ha.rates, ?_, ha.ieData, ?_, toNat_age hchecked.past⟩
  · have hlayout := h.layout
    have hfit := hchecked.rates
    show (UInt8.ofNat a.rateIndex).toNat = _
    rw [ha.rateIndex, UInt8.toNat_ofNat_of_lt' (by show _ < 256; omega)]
  · have hfit := hchecked.security
    have hbytes : ieDataBytes = 1024 := rfl
    show (Int16.ofNat a.securityIndex).toInt = _
    rw [ha.securityIndex]
    exact Int16.toInt_ofNat_of_lt (by omega)

/-- A call comes to its end, with its reads inside of the elements of the entry and its writes inside of the two
arrays.  An error leaves the output cleared; a success has the rates and the security of the elements in it. -/
theorem scanResult_encodes (h : Apple80211) (entry : Entry) (reportedAtUs : UInt64) :
    (∃ status, status ≠ .success ∧ scanResult h entry reportedAtUs = .ok (status, blank h)) ∨
      ∃ es out, scanResult h entry reportedAtUs = .ok (.success, out) ∧
        (List.ofFn entry.ies).take entry.ieLength.toNat = chain es ∧ (ratesOf es).length ≤ h.maxRates ∧
        (securityOf es).length ≤ ieDataBytes ∧ entry.observedAtUs ≤ reportedAtUs ∧
        Encoded h entry reportedAtUs es out := by
  unfold scanResult
  rcases @Safe.returned _ _ _ _ _ _ id (fun _ => IOReturn.success) (checks_safe h entry reportedAtUs) with
    ⟨status, hstatus, hchecks⟩ | ⟨_, ⟨es, hchecked⟩, hchecks⟩
  · left
    refine ⟨status, hstatus, ?_⟩
    rw [hchecks, ok_bind]
    exact if_pos hstatus
  · right
    rw [hchecks, ok_bind, if_neg (not_not.2 rfl)]
    rcases (fill_safe hchecked).ends with ⟨_, hno, -⟩ | ⟨out, hout, hfill⟩
    · exact hno.elim
    · rw [hfill, ok_bind]
      exact ⟨es, out, rfl, (published_eq hchecked.fits).symm.trans hchecked.elements, hchecked.rates, hchecked.security, hchecked.past, hout⟩

/-- A name, two rates and an element for WPA2. -/
def fakeEntry : Entry where
  observedAtUs := 1000000
  beaconInterval := 100
  ieLength := 31
  channel := ⟨.ghz2, 6⟩
  signal := ⟨.dbm, -52⟩
  bssid := fun i => if i.val = 0 then 2 else 1
  ssidLength := 3
  ies := fun i => [0, 3, 0x6e, 0x65, 0x74, 1, 2, 0x82, 0x84, 48, 20, 1, 0, 0, 0x0f, 0xac, 4, 1, 0, 0, 0x0f, 0xac, 4,
    1, 0, 0, 0x0f, 0xac, 2, 0, 0].getD i.val 0

theorem scanResult_encodes_fake :
    ∃ es out, scanResult .fake fakeEntry 1027000 = .ok (.success, out) ∧
      (List.ofFn fakeEntry.ies).take 31 = chain es ∧ Encoded .fake fakeEntry 1027000 es out ∧
      out.rates.take 3 = [0x82, 0x84, 0] ∧ out.ieLen = 22 ∧ out.age = 27 := by
  have hrun : (scanResult .fake fakeEntry 1027000).toOption.map
      (fun x => (x.1, x.2.rates.take 3, x.2.ieLen, x.2.age)) = some (.success, [0x82, 0x84, 0], 22, 27) := by
    decide +kernel
  rcases scanResult_encodes .fake fakeEntry 1027000 with ⟨status, hne, hcode⟩ | ⟨es, out, hcode, hes, -, -, -, hout⟩
  · rw [hcode] at hrun
    exact absurd (congrArg Prod.fst (Option.some.inj hrun)) hne
  · rw [hcode] at hrun
    simp only [Except.toOption, Option.map_some, Option.some.injEq, Prod.mk.injEq] at hrun
    exact ⟨es, out, hcode, hes, hout, hrun.2⟩

end LegacyAirport
end Rtl8852be
