import Rtl8852be.Selection.WirelessRequests
import Rtl8852be.Sequence.Overwrite

/-!
# Decoders — one contract for three formats

What a request says is a `Meaning`, in whatever format it is written.  A decoder keeps its contract when

* what it accepts is a valid `Join` that carries the meaning of the input, the key included for the personal
  networks and without any key bytes for the open ones;
* what it rejects leaves nothing behind;
* the key bytes of an accepted open request make no difference.
-/

namespace Rtl8852be
namespace Selection

open Network Sequence
open WclScan (little16)

/-! ## What a request says -/

structure Meaning where
  ssid : List UInt8
  bssid : Fin 6 → UInt8
  specificBssid : Bool
  security : Security
  ciphers : PersonalCiphers
  key : Fin 32 → UInt8

def Join.ssidBytes (j : Join) : List UInt8 := (List.ofFn j.ssid).take j.ssidLength.toNat

structure Carries (m : Meaning) (j : Join) : Prop where
  valid : valid j = true
  ssid : j.ssidBytes = m.ssid
  bssid : j.bssid = m.bssid
  specific : j.specificBssid = m.specificBssid
  security : j.security = m.security
  pairwise : j.pairwise = m.ciphers.pairwise
  group : j.group = m.ciphers.group
  personal : m.security ≠ .open → j.pmkLength = 32 ∧ j.pmk = m.key
  unprotected : m.security = .open → j.pmkLength = 0 ∧ j.pmk = fun _ => 0

/-- The contract of a decoder that answers `ok`.  `withKey` replaces the key bytes of an input, and nothing
else. -/
structure Keeps {Input Status : Type} (decode : Input → Join → Status × Join) (ok : Status)
    (Means : Input → Meaning → Prop) (withKey : (Fin 32 → UInt8) → Input → Input) : Prop where
  accepted : ∀ input out, (decode input out).1 = ok →
    ∃ m, Means input m ∧ Carries m (decode input out).2
  rejected : ∀ input out, (decode input out).1 ≠ ok → (decode input out).2 = {}
  keyless : ∀ input key out out', (decode input out).1 = ok → (decode input out).2.security = .open →
    decode (withKey key input) out' = decode input out

/-! ## Valid requests -/

variable {j : Join}

theorem valid_length (h : valid j = true) : j.ssidLength ≠ 0 ∧ ¬ 32 < j.ssidLength := by
  unfold valid at h
  by_cases hlength : j.ssidLength = 0 ∨ 32 < j.ssidLength
  · rw [if_pos hlength] at h
    cases h
  · exact not_or.1 hlength

theorem valid_pmkLength (h : valid j = true) : j.pmkLength = if j.security = .open then 0 else 32 := by
  unfold valid at h
  by_cases hlength : j.ssidLength = 0 ∨ 32 < j.ssidLength
  · rw [if_pos hlength] at h
    cases h
  rw [if_neg hlength] at h
  by_cases hbssid : j.specificBssid = true ∧ (anyByte j.bssid = false ∨ j.bssid 0 &&& 1 ≠ 0)
  · rw [if_pos hbssid] at h
    cases h
  rw [if_neg hbssid] at h
  by_cases hopen : j.security = .open
  · rw [if_pos hopen] at h ⊢
    exact eq_of_beq h
  · rw [if_neg hopen] at h ⊢
    exact eq_of_beq h

theorem valid_pmk (key : Fin 32 → UInt8) : valid { j with pmk := key } = valid j := rfl

/-- The bytes that were copied, out of an array whose other bytes are zero. -/
theorem take_copied {f : ℕ → UInt8} {size n : ℕ} (h : n ≤ size) :
    (List.ofFn fun i : Fin size => if i.val < n then f i else 0).take n = (List.range n).map f := by
  apply List.ext_getElem
  · simp [h]
  · intro i hi hi'
    have hin : i < n := by simpa using hi'
    rw [List.getElem_take, List.getElem_ofFn, if_pos hin, List.getElem_map, List.getElem_range]

/-! ## The personal security element -/

def Cipher.kind : Cipher → UInt8
  | ccmp => 4
  | tkip => 2

/-- The organisation that the suites of the element belong to. -/
def vendor (wpa1 : Bool) : List UInt8 := if wpa1 then [0, 0x50, 0xf2] else [0, 0x0f, 0xac]

/-- Version 1, a group cipher, one pairwise cipher and one key management suite, number 2. -/
def elementSuites (wpa1 : Bool) (ciphers : PersonalCiphers) : List UInt8 :=
  [1, 0] ++ (vendor wpa1 ++ [ciphers.group.kind]) ++ ([1, 0] ++ (vendor wpa1 ++ [ciphers.pairwise.kind])) ++
    ([1, 0] ++ (vendor wpa1 ++ [2]))

def elementBody (wpa1 : Bool) (ciphers : PersonalCiphers) (tail : List UInt8) : List UInt8 :=
  (if wpa1 then vendor true ++ [1] else []) ++ (elementSuites wpa1 ciphers ++ tail)

def element (wpa1 : Bool) (ciphers : PersonalCiphers) (tail : List UInt8) : List UInt8 :=
  (if wpa1 then 221 else 48) :: UInt8.ofNat (elementBody wpa1 ciphers tail).length ::
    elementBody wpa1 ciphers tail

/-- The ciphers an element encodes; a request without one means the ciphers its protocol began with. -/
inductive PersonalElement (wpa1 : Bool) : List UInt8 → PersonalCiphers → Prop
  | absent : PersonalElement wpa1 []
      (if wpa1 then { pairwise := .tkip, group := .tkip } else { pairwise := .ccmp, group := .ccmp })
  | present (ciphers : PersonalCiphers) (tail : List UInt8) :
      PersonalElement wpa1 (element wpa1 ciphers tail) ciphers

variable {wpa1 : Bool} {ie rest : List UInt8}

theorem word_sound {n : UInt16} (h : word ie = some (n, rest)) :
    ∃ a b, ie = [a, b] ++ rest ∧ n.toNat = a.toNat + b.toNat * 256 := by
  rcases ie with _ | ⟨a, _ | ⟨b, ie⟩⟩
  · cases h
  · cases h
  · cases h
    refine ⟨a, b, rfl, ?_⟩
    have ha : a.toNat < 256 := a.toNat_lt
    have hb : b.toNat < 256 := b.toNat_lt
    have hshift : (b.toUInt16 <<< 8).toNat = b.toNat <<< 8 := by
      rw [UInt16.toNat_shiftLeft, UInt8.toNat_toUInt16]
      show b.toNat <<< 8 % 2 ^ 16 = b.toNat <<< 8
      rw [Nat.shiftLeft_eq]
      omega
    rw [UInt16.toNat_or, hshift, UInt8.toNat_toUInt16]
    exact Bits.or_shiftLeft (k := 8) ha

theorem one_sound (h : one ie = some rest) : ie = [1, 0] ++ rest := by
  unfold one at h
  rcases hword : word ie with _ | ⟨n, left⟩
  · rw [hword] at h
    cases h
  rw [hword] at h
  by_cases hn : n = 1
  · have hrest : left = rest := by simpa [hn] using h
    rcases word_sound hword with ⟨a, b, hie, hnat⟩
    have hnat : 1 = a.toNat + b.toNat * 256 := by rw [← hnat, hn]; rfl
    have ha : a = 1 := UInt8.toNat_inj.1 (by show a.toNat = 1; omega)
    have hb : b = 0 := UInt8.toNat_inj.1 (by show b.toNat = 0; omega)
    rw [hie, ha, hb, hrest]
  · simp [hn] at h

theorem suite_sound {kind : UInt8} (h : suite wpa1 ie = some (kind, rest)) :
    ie = vendor wpa1 ++ [kind] ++ rest := by
  rcases ie with _ | ⟨a, _ | ⟨b, _ | ⟨c, _ | ⟨d, ie⟩⟩⟩⟩
  · cases h
  · cases h
  · cases h
  · cases h
  · simp only [suite] at h
    by_cases hvendor : a = 0 ∧ b = (if wpa1 then 0x50 else 0x0f) ∧ c = (if wpa1 then 0xf2 else 0xac)
    · rw [if_pos hvendor] at h
      cases h
      rcases hvendor with ⟨ha, hb, hc⟩
      rw [ha, hb, hc]
      cases wpa1 <;> rfl
    · rw [if_neg hvendor] at h
      cases h

theorem cipher_sound {c : Cipher} (h : cipher wpa1 ie = some (c, rest)) :
    ie = vendor wpa1 ++ [c.kind] ++ rest := by
  unfold cipher at h
  rcases hsuite : suite wpa1 ie with _ | ⟨kind, left⟩
  · rw [hsuite] at h
    cases h
  rw [hsuite] at h
  have hie := suite_sound hsuite
  by_cases htkip : kind = 2
  · have heq : Cipher.tkip = c ∧ left = rest := by simpa [htkip] using h
    rw [hie, htkip, ← heq.1, heq.2]
    rfl
  · by_cases hccmp : kind = 4
    · have heq : Cipher.ccmp = c ∧ left = rest := by simpa [hccmp] using h
      rw [hie, hccmp, ← heq.1, heq.2]
      rfl
    · simp [htkip, hccmp] at h

/-- Each step of `suites` gives back the bytes it took. -/
theorem suites_sound {ciphers : PersonalCiphers} (h : suites wpa1 ie = some ciphers) :
    ∃ tail, ie = elementSuites wpa1 ciphers ++ tail ∧ endOfElement wpa1 tail = some () := by
  unfold suites at h
  simp only [Option.bind_eq_bind, Option.bind_eq_some_iff] at h
  obtain ⟨ie₁, hone₁, ⟨group, ie₂⟩, hgroup, ie₃, hone₂, ⟨pairwise, ie₄⟩, hpairwise, ie₅, hone₃, ⟨akm, ie₆⟩,
    hakm, hend⟩ := h
  by_cases htwo : akm ≠ 2
  · rw [if_pos htwo] at hend
    cases hend
  rw [if_neg htwo, Option.bind_eq_some_iff] at hend
  rcases hend with ⟨_, hend, hciphers⟩
  have hciphers : (⟨pairwise, group⟩ : PersonalCiphers) = ciphers := by simpa using hciphers
  refine ⟨ie₆, ?_, hend⟩
  calc
    ie = [1, 0] ++ ie₁ := one_sound hone₁
    _ = [1, 0] ++ (vendor wpa1 ++ [group.kind] ++ ie₂) := by rw [← cipher_sound hgroup]
    _ = [1, 0] ++ (vendor wpa1 ++ [group.kind] ++ ([1, 0] ++ ie₃)) := by rw [← one_sound hone₂]
    _ = [1, 0] ++ (vendor wpa1 ++ [group.kind] ++ ([1, 0] ++ (vendor wpa1 ++ [pairwise.kind] ++ ie₄))) := by
          rw [← cipher_sound hpairwise]
    _ = [1, 0] ++ (vendor wpa1 ++ [group.kind] ++
          ([1, 0] ++ (vendor wpa1 ++ [pairwise.kind] ++ ([1, 0] ++ ie₅)))) := by
          rw [← one_sound hone₃]
    _ = [1, 0] ++ (vendor wpa1 ++ [group.kind] ++
          ([1, 0] ++ (vendor wpa1 ++ [pairwise.kind] ++ ([1, 0] ++ (vendor wpa1 ++ [akm] ++ ie₆))))) := by
          rw [← suite_sound hakm]
    _ = elementSuites wpa1 ciphers ++ ie₆ := by
          rw [not_not.1 htwo, ← hciphers]
          simp only [elementSuites, List.append_assoc]

/-- The header in front of the suites: the kind of the element and its length. -/
theorem header_sound {k : ℕ} {front body : List UInt8} {first : UInt8} (hlength : k + 2 ≤ ie.length)
    (hfront : (ie.drop 2).take k = front) (hbody : ie.drop (k + 2) = body) (hfirst : ie.getD 0 0 = first)
    (hsecond : (ie.getD 1 0).toNat + 2 = ie.length) :
    ie = first :: UInt8.ofNat (front ++ body).length :: (front ++ body) := by
  rcases ie with _ | ⟨a, _ | ⟨b, ie⟩⟩
  · simp at hlength
  · simp at hlength
  · have ha : a = first := hfirst
    have hb : b.toNat + 2 = ie.length + 2 := hsecond
    have htail : front ++ body = ie := by
      rw [← hfront, ← hbody]
      exact List.take_append_drop k ie
    have hb' : b = UInt8.ofNat ie.length := by
      rw [show ie.length = b.toNat by omega, UInt8.ofNat_toNat]
    rw [htail, ha, ← hb']

/-- An accepted element that is not empty, with what follows its suites. -/
theorem personalIE_element {ciphers : PersonalCiphers} (h : personalIE ie wpa1 = some ciphers)
    (hempty : ie ≠ []) : ∃ tail, ie = element wpa1 ciphers tail ∧ endOfElement wpa1 tail = some () := by
  unfold personalIE at h
  rw [if_neg hempty] at h
  by_cases hbad : ie.length < 20 ∨ 257 < ie.length ∨ (ie.getD 1 0).toNat + 2 ≠ ie.length
  · rw [if_pos hbad] at h
    cases h
  rw [if_neg hbad] at h
  obtain ⟨hlong, -, hsecond⟩ : ¬ ie.length < 20 ∧ ¬ 257 < ie.length ∧
      ¬ (ie.getD 1 0).toNat + 2 ≠ ie.length := ⟨fun hx => hbad (Or.inl hx),
    fun hx => hbad (Or.inr (Or.inl hx)), fun hx => hbad (Or.inr (Or.inr hx))⟩
  cases wpa1 with
  | true =>
      rw [if_pos rfl] at h
      by_cases hheader : ie.getD 0 0 ≠ 221 ∨ ie.length < 24 ∨ ie.getD 2 0 ≠ 0 ∨ ie.getD 3 0 ≠ 0x50 ∨
          ie.getD 4 0 ≠ 0xf2 ∨ ie.getD 5 0 ≠ 1
      · rw [if_pos hheader] at h
        cases h
      rw [if_neg hheader] at h
      simp only [not_or, not_not] at hheader
      obtain ⟨h0, -, h2, h3, h4, h5⟩ := hheader
      rcases suites_sound h with ⟨tail, htail, hend⟩
      have hfront : (ie.drop 2).take 4 = vendor true ++ [1] := by
        rcases ie with _ | ⟨a, _ | ⟨b, _ | ⟨c, _ | ⟨d, _ | ⟨e, _ | ⟨f, ie⟩⟩⟩⟩⟩⟩
        all_goals simp only [List.length_cons, List.length_nil] at hlong
        all_goals try omega
        have hc : c = 0 := h2
        have hd : d = 0x50 := h3
        have he : e = 0xf2 := h4
        have hf : f = 1 := h5
        rw [hc, hd, he, hf]
        rfl
      have hie := header_sound (k := 4) (by omega) hfront htail h0 (not_not.1 hsecond)
      exact ⟨tail, hie, hend⟩
  | false =>
      rw [if_neg Bool.false_ne_true] at h
      by_cases hfirst : ie.getD 0 0 ≠ 48
      · rw [if_pos hfirst] at h
        cases h
      rw [if_neg hfirst] at h
      rcases suites_sound h with ⟨tail, htail, hend⟩
      have hfront : (ie.drop 2).take 0 = [] := rfl
      have hie := header_sound (by omega) hfront htail (not_not.1 hfirst) (not_not.1 hsecond)
      exact ⟨tail, hie, hend⟩

theorem personalIE_sound {ciphers : PersonalCiphers} (h : personalIE ie wpa1 = some ciphers) :
    PersonalElement wpa1 ie ciphers := by
  by_cases hempty : ie = []
  · rw [personalIE, if_pos hempty] at h
    cases h
    subst hempty
    cases wpa1
    · exact PersonalElement.absent
    · exact PersonalElement.absent
  · rcases personalIE_element h hempty with ⟨tail, hie, -⟩
    rw [hie]
    exact PersonalElement.present ciphers tail

/-! ## The local endpoint -/

namespace Control

variable {request : Join} {out : Selection.Join}

/-- What the numbers of a request stand for. -/
structure Means (request : Join) (m : Meaning) : Prop where
  ssid : m.ssid = (List.ofFn request.ssid).take request.ssidLength.toNat
  bssid : m.bssid = request.bssid
  specific : m.specificBssid = true ↔ request.specificBssid = 1
  security : request.security = 0 ∧ m.security = .open ∨ request.security = 1 ∧ m.security = .wpa2Psk ∨
    request.security = 2 ∧ m.security = .wpaPsk
  pairwise : request.pairwise = 0 ∧ m.ciphers.pairwise = .ccmp ∨
    request.pairwise = 1 ∧ m.ciphers.pairwise = .tkip
  group : request.group = 0 ∧ m.ciphers.group = .ccmp ∨ request.group = 1 ∧ m.ciphers.group = .tkip
  key : m.key = request.pmk

def withKey (key : Fin 32 → UInt8) (request : Join) : Join := { request with pmk := key }

def meaning (request : Join) : Meaning :=
  { ssid := (List.ofFn request.ssid).take request.ssidLength.toNat
    bssid := request.bssid
    specificBssid := request.specificBssid != 0
    security := securityOf request.security
    ciphers := { pairwise := cipherOf request.pairwise, group := cipherOf request.group }
    key := request.pmk }

/-- The test of the fields that comes first. -/
def Refused (request : Join) : Prop :=
  request.version ≠ version ∨ request.reserved ≠ 0 ∨ request.reservedBytes 0 ≠ 0 ∨
    request.reservedBytes 1 ≠ 0 ∨ 2 < request.security ∨ 1 < request.pairwise ∨ 1 < request.group ∨
    1 < request.specificBssid ∨ request.ssidLength = 0 ∨ 32 < request.ssidLength ∨ 32 < request.pmkLength

instance (request : Join) : Decidable (Refused request) := by
  unfold Refused
  infer_instance

def joined (request : Join) : Selection.Join :=
  { security := securityOf request.security
    pairwise := cipherOf request.pairwise
    group := cipherOf request.group
    ssidLength := request.ssidLength
    pmkLength := request.pmkLength
    specificBssid := request.specificBssid != 0
    ssid := request.ssid
    pmk := if request.pmkLength = 0 then fun _ => 0 else request.pmk
    bssid := request.bssid }

theorem decode_eq (request : Join) (out : Selection.Join) :
    decode request out =
      if Refused request ∨ valid (joined request) = false then (false, {}) else (true, joined request) := by
  by_cases hfields : Refused request
  · rw [if_pos (Or.inl hfields)]
    exact if_pos hfields
  have hdecode : decode request out =
      if valid { joined request with pmk := request.pmk } = false then (false, {})
      else if request.pmkLength = 0 then (true, { joined request with pmk := fun _ => 0 })
      else (true, { joined request with pmk := request.pmk }) := if_neg hfields
  rw [hdecode, valid_pmk]
  by_cases hvalid : valid (joined request) = false
  · rw [if_pos hvalid, if_pos (Or.inr hvalid)]
  · rw [if_neg hvalid, if_neg (not_or.2 ⟨hfields, hvalid⟩)]
    by_cases hnone : request.pmkLength = 0
    · rw [if_pos hnone]
      simp only [joined, if_pos hnone]
    · rw [if_neg hnone]
      simp only [joined, if_neg hnone]

theorem decode_accepted (h : (decode request out).1 = true) :
    ¬ Refused request ∧ valid (joined request) = true ∧ decode request out = (true, joined request) := by
  rw [decode_eq] at h ⊢
  by_cases hno : Refused request ∨ valid (joined request) = false
  · rw [if_pos hno] at h
    cases h
  · rw [if_neg hno]
    exact ⟨fun hrefused => hno (Or.inl hrefused),
      Bool.eq_true_of_not_eq_false fun hinvalid => hno (Or.inr hinvalid), rfl⟩

theorem securityOf_cases {v : UInt32} (h : ¬ 2 < v) :
    v = 0 ∧ securityOf v = .open ∨ v = 1 ∧ securityOf v = .wpa2Psk ∨ v = 2 ∧ securityOf v = .wpaPsk := by
  have hle : v.toNat ≤ 2 := Nat.not_lt.1 fun hlt => h (UInt32.lt_iff_toNat_lt.2 hlt)
  obtain rfl | rfl | rfl : v = 0 ∨ v = 1 ∨ v = 2 := by
    simp only [← UInt32.toNat_inj]
    show v.toNat = 0 ∨ v.toNat = 1 ∨ v.toNat = 2
    omega
  · exact Or.inl ⟨rfl, rfl⟩
  · exact Or.inr (Or.inl ⟨rfl, rfl⟩)
  · exact Or.inr (Or.inr ⟨rfl, rfl⟩)

theorem flag_cases {v : UInt32} (h : ¬ 1 < v) : v = 0 ∨ v = 1 := by
  have hle : v.toNat ≤ 1 := Nat.not_lt.1 fun hlt => h (UInt32.lt_iff_toNat_lt.2 hlt)
  simp only [← UInt32.toNat_inj]
  show v.toNat = 0 ∨ v.toNat = 1
  omega

theorem cipherOf_cases {v : UInt32} (h : ¬ 1 < v) :
    v = 0 ∧ cipherOf v = .ccmp ∨ v = 1 ∧ cipherOf v = .tkip := by
  rcases flag_cases h with rfl | rfl
  · exact Or.inl ⟨rfl, rfl⟩
  · exact Or.inr ⟨rfl, rfl⟩

theorem means_meaning (h : ¬ Refused request) : Means request (meaning request) := by
  simp only [Refused, not_or] at h
  obtain ⟨-, -, -, -, hsecurity, hpairwise, hgroup, hspecific, -⟩ := h
  have hflag : (request.specificBssid != 0) = true ↔ request.specificBssid = 1 := by
    rcases flag_cases hspecific with hv | hv
    · rw [hv]
      decide
    · rw [hv]
      decide
  exact ⟨rfl, rfl, hflag, securityOf_cases hsecurity, cipherOf_cases hpairwise, cipherOf_cases hgroup, rfl⟩

theorem carries_joined (h : valid (joined request) = true) : Carries (meaning request) (joined request) where
  valid := h
  ssid := rfl
  bssid := rfl
  specific := rfl
  security := rfl
  pairwise := rfl
  group := rfl
  personal := by
    intro hsecurity
    have hlength : request.pmkLength = 32 := (valid_pmkLength h).trans (if_neg hsecurity)
    refine ⟨hlength, ?_⟩
    show (if request.pmkLength = 0 then fun _ => 0 else request.pmk) = request.pmk
    rw [hlength]
    exact if_neg (by decide)
  unprotected := by
    intro hsecurity
    have hlength : request.pmkLength = 0 := (valid_pmkLength h).trans (if_pos hsecurity)
    exact ⟨hlength, if_pos hlength⟩

theorem keeps_decode : Keeps decode true Means withKey where
  accepted := by
    intro request out hok
    rcases decode_accepted hok with ⟨hfields, hvalid, hdecode⟩
    rw [hdecode]
    exact ⟨meaning request, means_meaning hfields, carries_joined hvalid⟩
  rejected := by
    intro request out hno
    rw [decode_eq] at hno ⊢
    by_cases hbad : Refused request ∨ valid (joined request) = false
    · rw [if_pos hbad]
    · rw [if_neg hbad] at hno
      exact absurd rfl hno
  keyless := by
    intro request key out out' hok hopen
    rcases decode_accepted hok with ⟨-, hvalid, hdecode⟩
    rw [hdecode] at hopen
    have hlength : request.pmkLength = 0 := (valid_pmkLength hvalid).trans (if_pos hopen)
    -- without a key length, the key bytes do not reach the result
    have hjoined : joined (withKey key request) = joined request := by
      unfold joined
      rw [if_pos hlength, if_pos (show (withKey key request).pmkLength = 0 from hlength)]
      rfl
    rw [decode_eq, decode_eq, hjoined]
    rfl

end Control

/-! ## The native interface -/

namespace NativeWifi

variable {apple : Apple80211} {data : AssocData} {j out : Join}

/-- What the structure of the system's header stands for. -/
structure Means (apple : Apple80211) (data : AssocData) (m : Meaning) : Prop where
  ssid : m.ssid = (List.range data.adSsidLen.toNat).map data.adSsid
  bssid : m.bssid = data.adBssid
  specific : m.specificBssid = true ↔ ∃ i, data.adBssid i ≠ 0
  security : data.adAuthUpper = apple.authtypeNone ∧ m.security = .open ∧ m.ciphers = {} ∨
    data.adAuthUpper = apple.authtypeWpa2Psk ∧ m.security = .wpa2Psk ∧
      PersonalElement false data.rsnIe m.ciphers ∨
    data.adAuthUpper = apple.authtypeWpaPsk ∧ m.security = .wpaPsk ∧ PersonalElement true data.rsnIe m.ciphers
  key : m.key = fun i : Fin 32 => data.adKey.key i

def withKey (key : Fin 32 → UInt8) (data : AssocData) : AssocData :=
  { data with
    adKey := { data.adKey with key := fun i => if h : i < 32 then key ⟨i, h⟩ else data.adKey.key i } }

/-- The part of a request that `decodeSecurity` fills in. -/
def secured (security : Security) (ciphers : PersonalCiphers) (data : AssocData) : Join :=
  { security := security
    pairwise := ciphers.pairwise
    group := ciphers.group
    pmkLength := if security = .open then 0 else 32
    pmk := if security = .open then fun _ => 0 else fun i => data.adKey.key i }

def associated (data : AssocData) (j : Join) : Join :=
  { j with
    ssidLength := data.adSsidLen
    ssid := fun i => if i.val < data.adSsidLen.toNat then data.adSsid i else j.ssid i
    bssid := data.adBssid
    specificBssid := j.specificBssid || anyByte data.adBssid }

def meaning (security : Security) (ciphers : PersonalCiphers) (data : AssocData) : Meaning :=
  { ssid := (List.range data.adSsidLen.toNat).map data.adSsid
    bssid := data.adBssid
    specificBssid := anyByte data.adBssid
    security := security
    ciphers := ciphers
    key := fun i => data.adKey.key i }

theorem anyByte_iff {bssid : Fin 6 → UInt8} : anyByte bssid = true ↔ ∃ i, bssid i ≠ 0 := by
  simp only [anyByte, List.any_eq_true, List.mem_ofFn', bne_iff_ne]
  constructor
  · rintro ⟨_, ⟨i, rfl⟩, hne⟩
    exact ⟨i, hne⟩
  · rintro ⟨i, hne⟩
    exact ⟨_, ⟨i, rfl⟩, hne⟩

theorem decodeSecurity_cases (h : decodeSecurity apple data {} = some j) :
    ∃ security ciphers, Means apple data (meaning security ciphers data) ∧ j = secured security ciphers data := by
  unfold decodeSecurity at h
  by_cases hnone : data.adAuthUpper = apple.authtypeNone
  · rw [if_pos hnone] at h
    by_cases hbad : data.adKey.keyLen ≠ 0 ∨ data.adRsnIeLen ≠ 0 ∨ data.adKey.keyCipherType ≠ apple.cipherNone
    · rw [if_pos hbad] at h
      cases h
    · rw [if_neg hbad] at h
      cases h
      exact ⟨.open, {}, ⟨rfl, rfl, anyByte_iff, Or.inl ⟨hnone, rfl, rfl⟩, rfl⟩, rfl⟩
  rw [if_neg hnone] at h
  by_cases hpsk : data.adAuthUpper = apple.authtypeWpa2Psk ∨ data.adAuthUpper = apple.authtypeWpaPsk
  swap
  · rw [if_neg hpsk] at h
    cases h
  rw [if_pos hpsk] at h
  simp only at h
  by_cases hbad : data.adKey.keyCipherType ≠ apple.cipherPmk ∨ data.adKey.keyLen ≠ 32
  · rw [if_pos hbad] at h
    cases h
  rw [if_neg hbad] at h
  cases hie : personalIE data.rsnIe (decide (data.adAuthUpper = apple.authtypeWpaPsk)) with
  | none =>
      rw [hie] at h
      cases h
  | some ciphers =>
      rw [hie] at h
      have helement := personalIE_sound hie
      by_cases hwpa1 : data.adAuthUpper = apple.authtypeWpaPsk
      · rw [decide_eq_true hwpa1] at h helement
        cases h
        exact ⟨.wpaPsk, ciphers, ⟨rfl, rfl, anyByte_iff, Or.inr (Or.inr ⟨hwpa1, rfl, helement⟩), rfl⟩, rfl⟩
      · rw [decide_eq_false hwpa1] at h helement
        cases h
        exact ⟨.wpa2Psk, ciphers,
          ⟨rfl, rfl, anyByte_iff, Or.inr (Or.inl ⟨hpsk.resolve_right hwpa1, rfl, helement⟩), rfl⟩, rfl⟩

theorem decodeAssociation_eq :
    decodeAssociation apple (some data) out =
      if data.version ≠ apple.version ∨ data.adSsidLen = 0 ∨ 32 < data.adSsidLen ∨
          apple.maxRsnIeLen < data.adRsnIeLen then
        (.badArgument, {})
      else if data.adMode ≠ apple.apModeInfra ∨ data.adAuthLower ≠ apple.authtypeOpen ∨ data.adFlags ≠ 0 then
        (.unsupported, {})
      else
        match decodeSecurity apple data {} with
        | none => (.unsupported, {})
        | some j =>
            if valid (associated data j) = false then (.badArgument, {}) else (.success, associated data j) :=
  rfl

theorem decodeAssociation_cases (apple : Apple80211) (data : AssocData) (out : Join) :
    (decodeAssociation apple (some data) out).1 ≠ .success ∧
        (decodeAssociation apple (some data) out).2 = {} ∨
      ∃ j, decodeSecurity apple data {} = some j ∧ valid (associated data j) = true ∧
        decodeAssociation apple (some data) out = (.success, associated data j) := by
  rw [decodeAssociation_eq]
  split
  · exact Or.inl ⟨IOReturn.noConfusion, rfl⟩
  split
  · exact Or.inl ⟨IOReturn.noConfusion, rfl⟩
  split
  · exact Or.inl ⟨IOReturn.noConfusion, rfl⟩
  · rename_i j hj
    by_cases hvalid : valid (associated data j) = false
    · rw [if_pos hvalid]
      exact Or.inl ⟨IOReturn.noConfusion, rfl⟩
    · rw [if_neg hvalid]
      exact Or.inr ⟨j, hj, Bool.eq_true_of_not_eq_false hvalid, rfl⟩

theorem carries_associated {security : Security} {ciphers : PersonalCiphers}
    (h : valid (associated data (secured security ciphers data)) = true) :
    Carries (meaning security ciphers data) (associated data (secured security ciphers data)) where
  valid := h
  ssid := by
    have hlength : ¬ 32 < data.adSsidLen := (valid_length h).2
    exact take_copied (Nat.not_lt.1 fun hlt => hlength (UInt32.lt_iff_toNat_lt.2 hlt))
  bssid := rfl
  specific := rfl
  security := rfl
  pairwise := rfl
  group := rfl
  personal := fun hsecurity => ⟨if_neg hsecurity, if_neg hsecurity⟩
  unprotected := fun hsecurity => ⟨if_pos hsecurity, if_pos hsecurity⟩

/-- Where the upper authentication is none, the key bytes are not read. -/
theorem decodeSecurity_withKey {key : Fin 32 → UInt8} (h : data.adAuthUpper = apple.authtypeNone) :
    decodeSecurity apple (withKey key data) {} = decodeSecurity apple data {} := by
  unfold decodeSecurity
  rw [if_pos h, if_pos (show (withKey key data).adAuthUpper = apple.authtypeNone from h)]
  rfl

theorem keeps_decodeAssociation :
    Keeps (decodeAssociation apple) .success (fun input m => ∃ data, input = some data ∧ Means apple data m)
      (fun key => Option.map (withKey key)) where
  accepted := by
    rintro (_ | data) out hok
    · cases hok
    rcases decodeAssociation_cases apple data out with ⟨hno, -⟩ | ⟨j, hj, hvalid, hdecode⟩
    · exact absurd hok hno
    rcases decodeSecurity_cases hj with ⟨security, ciphers, hmeans, rfl⟩
    rw [hdecode]
    exact ⟨meaning security ciphers data, ⟨data, rfl, hmeans⟩, carries_associated hvalid⟩
  rejected := by
    rintro (_ | data) out hno
    · rfl
    rcases decodeAssociation_cases apple data out with ⟨-, hzero⟩ | ⟨j, -, -, hdecode⟩
    · exact hzero
    · rw [hdecode] at hno
      exact absurd rfl hno
  keyless := by
    rintro (_ | data) key out out' hok hopen
    · cases hok
    rcases decodeAssociation_cases apple data out with ⟨hno, -⟩ | ⟨j, hj, -, hdecode⟩
    · exact absurd hok hno
    rw [hdecode] at hopen
    rcases decodeSecurity_cases hj with ⟨security, ciphers, hmeans, rfl⟩
    -- an open result comes from the branch that does not look at the key
    have hnone : data.adAuthUpper = apple.authtypeNone := by
      have hopen : security = .open := hopen
      rcases hmeans.security with ⟨hupper, -⟩ | ⟨-, hsecurity, -⟩ | ⟨-, hsecurity, -⟩
      · exact hupper
      · exact Security.noConfusion (hopen.symm.trans hsecurity)
      · exact Security.noConfusion (hopen.symm.trans hsecurity)
    show decodeAssociation apple (some (withKey key data)) out' = _
    rw [decodeAssociation_eq, decodeAssociation_eq, decodeSecurity_withKey hnone]
    rfl

end NativeWifi

/-! ## The observed message -/

namespace NativeWcl

variable {p : List UInt8} {out : Join}

/-- What the bytes of the message stand for. -/
structure Means (p : List UInt8) (m : Meaning) : Prop where
  ssid : m.ssid = (List.range (little32 (p.drop 0x1c)).toNat).map fun i => p.getD (0x20 + i) 0
  bssid : m.bssid = fun i : Fin 6 => p.getD (recordOffset + 4 + i) 0
  specific : m.specificBssid = true
  security : m.security = .wpa2Psk
  ciphers : PersonalElement false (rsnElement p) m.ciphers
  key : m.key = fun i : Fin 32 => p.getD (0x50 + i) 0

def withKey (key : Fin 32 → UInt8) (p : List UInt8) : List UInt8 := overwrite p 0x50 (List.ofFn key)

/-- A request for one network, with a raw key and an element that is there. -/
structure SinglePersonal (p : List UInt8) : Prop where
  length : p.length = messageBytes
  mode : little16 (p.drop 0x0c) = 2
  authentication : little32 (p.drop 0x10) = 1 ∧ little32 (p.drop 0x14) = 8 ∧ little32 (p.drop 0x18) = 0
  key : little32 (p.drop 0x44) = 32 ∧ little32 (p.drop 0x48) = 6
  rsn : ∃ tail, rsnElement p = element false { pairwise := .ccmp, group := .ccmp } tail
  candidates : little32 (p.drop countOffset) = 1

def joined (p : List UInt8) : Join :=
  { ssidLength := little32 (p.drop 0x1c)
    ssid := fun i => if i.val < (little32 (p.drop 0x1c)).toNat then p.getD (0x20 + i) 0 else 0
    specificBssid := true
    bssid := fun i => p.getD (recordOffset + 4 + i) 0
    security := .wpa2Psk
    pairwise := .ccmp
    group := .ccmp
    pmkLength := 32
    pmk := fun i => p.getD (0x50 + i) 0 }

def meaning (p : List UInt8) : Meaning :=
  { ssid := (List.range (little32 (p.drop 0x1c)).toNat).map fun i => p.getD (0x20 + i) 0
    bssid := fun i => p.getD (recordOffset + 4 + i) 0
    specificBssid := true
    security := .wpa2Psk
    ciphers := { pairwise := .ccmp, group := .ccmp }
    key := fun i => p.getD (0x50 + i) 0 }

/-- An element of at least 20 bytes is not the absent one. -/
theorem rsn_present (hlength : p.length = messageBytes) (hrsn : ¬ little16 (p.drop 0xd4) < 20)
    (hie : personalIE (rsnElement p) false = some { pairwise := .ccmp, group := .ccmp }) :
    ∃ tail, rsnElement p = element false { pairwise := .ccmp, group := .ccmp } tail := by
  have hnat : 20 ≤ (little16 (p.drop 0xd4)).toNat := Nat.not_lt.1 fun hlt => hrsn (UInt16.lt_iff_toNat_lt.2 hlt)
  have hsome : rsnElement p ≠ [] := by
    intro hnil
    have hzero := congrArg List.length hnil
    rw [rsnElement, List.length_take, List.length_drop, hlength, messageBytes, List.length_nil] at hzero
    omega
  have helement := personalIE_sound hie
  generalize rsnElement p = ie at helement hsome
  generalize ({ pairwise := .ccmp, group := .ccmp } : PersonalCiphers) = ciphers at helement
  cases helement with
  | absent => exact absurd rfl hsome
  | present _ tail => exact ⟨tail, rfl⟩

theorem checkFields_none (hlength : p.length = messageBytes) (h : checkFields p = none)
    (hcount : little32 (p.drop countOffset) = 1) : SinglePersonal p := by
  unfold checkFields at h
  split at h
  · cases h
  rename_i hmode
  split at h
  · cases h
  rename_i hauth
  split at h
  · cases h
  split at h
  · cases h
  split at h
  · cases h
  rename_i hkey
  split at h
  · cases h
  rename_i hrsn
  simp only [not_or, not_not] at hmode hauth hkey hrsn
  exact ⟨hlength, hmode, hauth, ⟨hkey.1, hkey.2.1⟩, rsn_present hlength hrsn.1 hrsn.2.2, hcount⟩

theorem decode_one (hlength : p.length = messageBytes) (hok : (decode (some p)).1 = .ok)
    (hcount : (decode (some p)).2.count = 1) :
    little32 (p.drop countOffset) = 1 ∧
      (decode (some p)).2.candidate.bssid = fun i : Fin 6 => p.getD (recordOffset + 4 + i) 0 := by
  have hreads : ∀ offset bytes, offset + bytes ≤ messageBytes → ¬ readable p.length offset bytes = false := by
    intro offset bytes hle
    rw [hlength, readable, Bool.not_eq_false, Bool.and_eq_true, decide_eq_true_eq, decide_eq_true_eq]
    omega
  unfold decode at hok hcount ⊢
  simp only at hok hcount ⊢
  have hfirst : ¬ (p.length ≠ messageBytes ∨ readable p.length countOffset 4 = false) :=
    not_or.2 ⟨not_not.2 hlength, hreads _ _ (by decide)⟩
  rw [if_neg hfirst] at hok hcount ⊢
  by_cases hmany : 1 < little32 (p.drop countOffset)
  · rw [if_pos hmany] at hok
    cases hok
  rw [if_neg hmany] at hok hcount ⊢
  by_cases hnone : little32 (p.drop countOffset) = 0
  · rw [if_pos hnone] at hcount
    exact absurd hcount (by decide)
  rw [if_neg hnone] at hok hcount ⊢
  have hrecord : ¬ (readable p.length recordOffset recordBytes = false ∨
      readable p.length recordOffset 1 = false ∨ readable p.length (recordOffset + 2) 2 = false ∨
      readable p.length (recordOffset + 4) 6 = false ∨ readable p.length (recordOffset + 10) 6 = false ∨
      readable p.length (recordOffset + 16) 2 = false) := by
    simp only [not_or]
    exact ⟨hreads _ _ (by decide), hreads _ _ (by decide), hreads _ _ (by decide), hreads _ _ (by decide),
      hreads _ _ (by decide), hreads _ _ (by decide)⟩
  rw [if_neg hrecord]
  exact ⟨(Control.flag_cases hmany).resolve_left hnone, rfl⟩

theorem decodeWpa2Join_cases (bytes : Option (List UInt8)) (out : Join) :
    (decodeWpa2Join bytes out).1 ≠ .ok ∧ (decodeWpa2Join bytes out).2 = {} ∨
      ∃ p, bytes = some p ∧ SinglePersonal p ∧ valid (joined p) = true ∧
        decodeWpa2Join bytes out = (.ok, joined p) := by
  have hfailed : ∀ {decoded : Join} {result : JoinResult}, result ≠ .ok →
      (joinResult out decoded result).1 ≠ .ok ∧ (joinResult out decoded result).2 = {} := by
    intro decoded result hne
    rw [joinResult, if_neg hne]
    exact ⟨hne, rfl⟩
  rcases bytes with _ | p
  · exact Or.inl (hfailed JoinResult.noConfusion)
  unfold decodeWpa2Join
  simp only
  by_cases hlength : p.length = messageBytes
  swap
  · rw [if_pos hlength]
    exact Or.inl (hfailed JoinResult.noConfusion)
  rw [if_neg (not_not.2 hlength)]
  cases hfields : checkFields p with
  | some refused =>
      refine Or.inl (hfailed ?_)
      rintro rfl
      unfold checkFields at hfields
      simp only [ite_eq_iff, Option.some.injEq, reduceCtorEq, and_false, or_self] at hfields
  | none =>
      simp only
      by_cases hcandidate : (decode (some p)).1 ≠ .ok ∨ (decode (some p)).2.count ≠ 1 ∨
          (decode (some p)).2.candidate.saePkCapable ≠ 0
      · rw [if_pos hcandidate]
        exact Or.inl (hfailed JoinResult.noConfusion)
      rw [if_neg hcandidate]
      simp only [not_or, not_not] at hcandidate
      rcases decode_one hlength hcandidate.1 hcandidate.2.1 with ⟨hcount, hbssid⟩
      rw [hbssid]
      by_cases howe : anyByte (decode (some p)).2.candidate.oweTransitionAddress = true
      · rw [if_pos howe]
        exact Or.inl (hfailed JoinResult.noConfusion)
      rw [if_neg howe]
      -- the test is made before the key is copied
      by_cases hvalid : valid (joined p) = false
      · left
        rw [if_pos]
        · exact hfailed JoinResult.noConfusion
        · exact hvalid
      · refine Or.inr ⟨p, rfl, checkFields_none hlength hfields hcount, ?_, ?_⟩
        · exact Bool.eq_true_of_not_eq_false hvalid
        · rw [if_neg]
          · rfl
          · exact hvalid

theorem means_of_single (h : SinglePersonal p) : Means p (meaning p) := by
  rcases h.rsn with ⟨tail, htail⟩
  refine ⟨rfl, rfl, rfl, rfl, ?_, rfl⟩
  rw [htail]
  exact PersonalElement.present _ tail

theorem carries_message (h : valid (joined p) = true) : Carries (meaning p) (joined p) where
  valid := h
  ssid := by
    have hlength : ¬ 32 < little32 (p.drop 0x1c) := (valid_length h).2
    exact take_copied (f := fun i => p.getD (0x20 + i) 0) (Nat.not_lt.1 fun hlt => hlength (UInt32.lt_iff_toNat_lt.2 hlt))
  bssid := rfl
  specific := rfl
  security := rfl
  pairwise := rfl
  group := rfl
  personal := fun _ => ⟨rfl, rfl⟩
  unprotected := fun hopen => Security.noConfusion hopen

theorem keeps_decodeWpa2Join :
    Keeps decodeWpa2Join .ok (fun input m => ∃ p, input = some p ∧ Means p m)
      (fun key => Option.map (withKey key)) where
  accepted := by
    intro bytes out hok
    rcases decodeWpa2Join_cases bytes out with ⟨hno, -⟩ | ⟨p, hp, hsingle, hvalid, hdecode⟩
    · exact absurd hok hno
    rw [hdecode]
    exact ⟨meaning p, ⟨p, hp, means_of_single hsingle⟩, carries_message hvalid⟩
  rejected := by
    intro bytes out hno
    rcases decodeWpa2Join_cases bytes out with ⟨-, hzero⟩ | ⟨p, -, -, -, hdecode⟩
    · exact hzero
    · rw [hdecode] at hno
      exact absurd rfl hno
  keyless := by
    -- there are no open requests in this format
    intro bytes key out out' hok hopen
    rcases decodeWpa2Join_cases bytes out with ⟨hno, -⟩ | ⟨p, -, -, -, hdecode⟩
    · exact absurd hok hno
    · rw [hdecode] at hopen
      exact Security.noConfusion hopen

end NativeWcl

/-! ## The three decoders -/

theorem join_decoders :
    Keeps Control.decode true Control.Means Control.withKey ∧
      (∀ apple, Keeps (NativeWifi.decodeAssociation apple) .success
        (fun input m => ∃ data, input = some data ∧ NativeWifi.Means apple data m)
        (fun key => Option.map (NativeWifi.withKey key))) ∧
      Keeps NativeWcl.decodeWpa2Join .ok (fun input m => ∃ p, input = some p ∧ NativeWcl.Means p m)
        (fun key => Option.map (NativeWcl.withKey key)) ∧
      ∀ bytes out, (NativeWcl.decodeWpa2Join bytes out).1 = .ok →
        ∃ p, bytes = some p ∧ NativeWcl.SinglePersonal p := by
  refine ⟨Control.keeps_decode, fun apple => NativeWifi.keeps_decodeAssociation,
    NativeWcl.keeps_decodeWpa2Join, ?_⟩
  intro bytes out hok
  rcases NativeWcl.decodeWpa2Join_cases bytes out with ⟨hno, -⟩ | ⟨p, hp, hsingle, -⟩
  · exact absurd hok hno
  · exact ⟨p, hp, hsingle⟩

/-- A message for the network `ab`, with the key 1, 2, ..., 32. -/
def message : List UInt8 :=
  List.replicate 12 0 ++ [2, 0, 0, 0, 1, 0, 0, 0, 8, 0, 0, 0, 0, 0, 0, 0, 2, 0, 0, 0, 97, 98] ++
    List.replicate 34 0 ++ [32, 0, 0, 0, 6, 0, 0, 0, 0, 0, 0, 0] ++
    (List.range 32).map (fun i => UInt8.ofNat (i + 1)) ++ List.replicate 100 0 ++ [20, 0] ++
    element false { pairwise := .ccmp, group := .ccmp } [] ++ List.replicate 298 0 ++
    [1, 0, 0, 0, 0, 0, 0, 0, 2, 0, 0, 0, 0, 1] ++ List.replicate 442 0

/-- An open request of the local endpoint, with key bytes that it has no use for. -/
def openRequest : Control.Join :=
  { version := 1, security := 0, pairwise := 0, group := 0, ssidLength := 2, pmkLength := 0,
    specificBssid := 0, reserved := 0, ssid := fun _ => 97, bssid := fun _ => 0, reservedBytes := fun _ => 0,
    pmk := fun _ => 7 }

theorem join_decoders_message :
    ((NativeWcl.decodeWpa2Join (some message) {}).1 = .ok ∧
        (∃ p, some message = some p ∧ NativeWcl.SinglePersonal p) ∧
        (NativeWcl.decodeWpa2Join (some message) {}).2.pmk 31 = 32) ∧
      (Control.decode openRequest {}).1 = true ∧
      Control.decode (Control.withKey (fun _ => 9) openRequest) {} = Control.decode openRequest {} := by
  have hmessage : (NativeWcl.decodeWpa2Join (some message) {}).1 = .ok := by decide +kernel
  have hopen : (Control.decode openRequest {}).1 = true := by decide +kernel
  exact ⟨⟨hmessage, join_decoders.2.2.2 _ _ hmessage, by decide +kernel⟩, hopen,
    join_decoders.1.keyless _ _ _ _ hopen (by decide +kernel)⟩

end Selection
end Rtl8852be
