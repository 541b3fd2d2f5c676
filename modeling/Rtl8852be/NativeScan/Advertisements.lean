import Rtl8852be.NativeScan.Passes
import Rtl8852be.Checked.Elements

/-!
# Advertisements — the parser of beacons and the checks of the store

`NativeScanObservation.hpp` once more, with every read of the frame checked: `advertisementAt` follows the
source byte by byte, and ends where `advertisement` does.  A frame that is accepted ends in a chain of
elements.  `informationElements` of the store, which is written independently, accepts every such chain.

* `advertisementAt_eq` — no read is outside of the frame;
* `advertisement_found` — what an accepted frame consists of;
* `add_accepted` — the store takes what an observer passes to it, if it has room.
-/

namespace Rtl8852be
namespace Advertisements

open Checked
open NativeScan hiding byteAt

/-! ## The code with its reads -/

namespace Frame

/-- Code that may leave with `return false`. -/
abbrev Parsing := Reader Unit

/-- The loop over the six bytes of the addresses. -/
def addresses (frame : List UInt8) :
    ℕ → ℕ → UInt8 → UInt8 → Bool → Parsing (UInt8 × UInt8 × Bool)
  | 0, _, addressBits, destinationBits, broadcast => return (addressBits, destinationBits, broadcast)
  | rounds + 1, i, addressBits, destinationBits, broadcast => do
      let bssid ← byteAt frame (16 + i)
      let destination ← byteAt frame (4 + i)
      let source ← byteAt frame (10 + i)
      if source ≠ bssid then
        early ()
      else
        addresses frame rounds (i + 1) (addressBits ||| bssid) (destinationBits ||| destination)
          (broadcast && destination == 0xff)

def header (frame : List UInt8) : Parsing Unit := do
  let control ← byteAt frame 0
  if control &&& 0x0f ≠ 0 ∨ (control ≠ 0x80 ∧ control ≠ 0x50) then
    early ()
  else do
    let flags ← byteAt frame 1
    let sequence ← byteAt frame 22
    if flags &&& (0x03 ||| 0x04 ||| 0x40 ||| 0x80) ≠ 0 ∨ sequence &&& 0x0f ≠ 0 then
      early ()
    else do
      let (addressBits, destinationBits, broadcast) ← addresses frame 6 0 0 0 true
      let bssid ← byteAt frame 16
      if addressBits = 0 ∨ bssid &&& 1 ≠ 0 then
        early ()
      else do
        let destination ← byteAt frame 4
        if destinationBits = 0 ∨ (destination &&& 1 ≠ 0 ∧ broadcast = false) ∨
            (control = 0x80 ∧ broadcast = false) then
          early ()
        else
          return ()

/-- The comparison with the vendor, which ends at the first byte that differs. -/
def wpaAt {ε : Type} (frame : List UInt8) (offset : ℕ) : Reader ε Bool := do
  if (← byteAt frame offset) ≠ 0 then
    return false
  else if (← byteAt frame (offset + 1)) ≠ 0x50 then
    return false
  else if (← byteAt frame (offset + 2)) ≠ 0xf2 then
    return false
  else
    return (← byteAt frame (offset + 3)) == 1

/-- One round of the loop, after the tag and the length. -/
def element (frame : List UInt8) (channel : Channel) (seen : Seen) (tag : UInt8) (offset length : ℕ) :
    Parsing Seen :=
  if tag = 0 then
    if seen.ssid.isSome ∨ 32 < length then early () else return { seen with ssid := some (offset, length) }
  else if tag = 1 then
    if seen.rates ∨ length = 0 ∨ 8 < length then early () else return { seen with rates := true }
  else if tag = 3 then
    if seen.ds ∨ length ≠ 1 then
      early ()
    else do
      let number ← byteAt frame offset
      if number ≠ channel.number then early () else return { seen with ds := true }
  else if tag = 61 then
    if seen.ht ∨ length ≠ 22 then
      early ()
    else do
      let number ← byteAt frame offset
      if number ≠ channel.number then early () else return { seen with ht := true }
  else if tag = 48 then
    if seen.rsn then early () else return { seen with rsn := true }
  else if tag = 221 ∧ 4 ≤ length then do
    let wpa ← wpaAt frame offset
    if wpa then
      if seen.wpa then early () else return { seen with wpa := true }
    else
      return seen
  else if tag = 255 ∧ length = 0 then
    early ()
  else
    return seen

/-- `advertisement`. -/
def advertisementAt (frame : Option (List UInt8)) (channel : Channel) (signal : Signal) (nowUs : UInt64) :
    Reader Empty (Option Input) :=
  match frame with
  | none => return none
  | some bytes =>
      returned (fun _ => none) some <|
        if bytes.length < 36 ∨ !channel.valid ∨ !signal.valid then
          early ()
        else do
          header bytes
          let seen ← walk () (element bytes channel) bytes bytes.length 36 {}
          match seen.ssid with
          | none => early ()
          | some (offset, length) =>
              if !seen.rates then
                early ()
              else do
                let intervalLow ← byteAt bytes 32
                let intervalHigh ← byteAt bytes 33
                let capabilityLow ← byteAt bytes 34
                let capabilityHigh ← byteAt bytes 35
                return {
                  bssid := some fun i => bytes.getD (16 + i) 0
                  ssid := some fun i => bytes.getD (offset + i) 0
                  ssidLength := length
                  ies := some fun i => bytes.getD (36 + i) 0
                  ieLength := bytes.length - 36
                  originalIeLength := bytes.length - 36
                  channel := channel
                  signal := signal
                  observedAtUs := nowUs
                  beaconInterval := intervalLow.toUInt16 ||| (intervalHigh.toUInt16 <<< 8)
                  capability := capabilityLow.toUInt16 ||| (capabilityHigh.toUInt16 <<< 8) }

end Frame

/-! ## Where the code ends -/

variable {α β : Type} {data : List UInt8} {frame : ℕ → UInt8} {channel : Channel} {seen seen' : Seen}
  {e : Element} {es : List Element} {offset : ℕ}

/-- The code leaves early where there is no value. -/
def ran : Option α → Frame.Parsing α
  | none => early ()
  | some a => pure a

theorem early_or {p : Prop} [Decidable p] (a : α) :
    (if p then early () else pure a : Frame.Parsing α) = ran (if p then none else some a) := by
  by_cases hp : p
  · rw [if_pos hp, if_pos hp]
    rfl
  · rw [if_neg hp, if_neg hp]
    rfl

theorem early_else {p : Prop} [Decidable p] (ok : Bool) :
    (if p then early () else ran (if ok then some () else none) : Frame.Parsing Unit) =
      ran (if !decide p && ok then some () else none) := by
  by_cases hp : p
  · rw [if_pos hp, decide_eq_true hp]
    rfl
  · rw [if_neg hp, decide_eq_false hp]
    rfl

def Holds (data : List UInt8) (frame : ℕ → UInt8) : Prop := ∀ i < data.length, data.getD i 0 = frame i

variable {frameBytes i pos rounds : ℕ}

theorem Holds.byteAt {ε : Type} (h : Holds data frame) (hi : i < data.length) :
    (byteAt data i : Reader ε UInt8) = pure (frame i) := by
  rw [byteAt_eq hi, h i hi]

theorem wpaAt_eq {ε : Type} (h : Holds data frame) (hinside : offset + 4 ≤ data.length) :
    (Frame.wpaAt data offset : Reader ε Bool) = pure (decide (frame offset = 0 ∧ frame (offset + 1) = 0x50 ∧
      frame (offset + 2) = 0xf2 ∧ frame (offset + 3) = 1)) := by
  unfold Frame.wpaAt
  rw [h.byteAt (i := offset) (by omega), h.byteAt (i := offset + 1) (by omega),
    h.byteAt (i := offset + 2) (by omega), h.byteAt (i := offset + 3) (by omega)]
  simp only [pure_bind]
  by_cases h0 : frame offset = 0
  · by_cases h1 : frame (offset + 1) = 0x50
    · by_cases h2 : frame (offset + 2) = 0xf2
      · simp [h0, h1, h2, beq_eq_decide]
      · simp [h0, h1, h2]
    · simp [h0, h1]
  · simp [h0]

theorem element_eq (h : Holds data frame) (tag : UInt8) {length : ℕ} (hinside : offset + length ≤ data.length) :
    Frame.element data channel seen tag offset length = ran (seen.element frame channel tag offset length) := by
  unfold Frame.element Seen.element
  by_cases hname : tag = 0
  · rw [if_pos hname, if_pos hname]
    exact early_or _
  rw [if_neg hname, if_neg hname]
  by_cases hrates : tag = 1
  · rw [if_pos hrates, if_pos hrates]
    exact early_or _
  rw [if_neg hrates, if_neg hrates]
  by_cases hds : tag = 3
  · rw [if_pos hds, if_pos hds]
    by_cases hlength : seen.ds ∨ length ≠ 1
    · rw [if_pos hlength, if_pos (or_assoc.1 (.inl hlength))]
      rfl
    · have hone : length = 1 := not_not.1 (not_or.1 hlength).2
      rw [if_neg hlength, h.byteAt (by omega)]
      by_cases hnumber : frame offset ≠ channel.number
      · rw [if_pos (or_assoc.1 (.inr hnumber))]
        exact if_pos hnumber
      · have hall : ¬ (seen.ds ∨ length ≠ 1 ∨ frame offset ≠ channel.number) :=
          fun hor => (or_assoc.2 hor).elim hlength hnumber
        rw [if_neg hall]
        exact if_neg hnumber
  rw [if_neg hds, if_neg hds]
  by_cases hht : tag = 61
  · rw [if_pos hht, if_pos hht]
    by_cases hlength : seen.ht ∨ length ≠ 22
    · rw [if_pos hlength, if_pos (or_assoc.1 (.inl hlength))]
      rfl
    · have hone : length = 22 := not_not.1 (not_or.1 hlength).2
      rw [if_neg hlength, h.byteAt (by omega)]
      by_cases hnumber : frame offset ≠ channel.number
      · rw [if_pos (or_assoc.1 (.inr hnumber))]
        exact if_pos hnumber
      · have hall : ¬ (seen.ht ∨ length ≠ 22 ∨ frame offset ≠ channel.number) :=
          fun hor => (or_assoc.2 hor).elim hlength hnumber
        rw [if_neg hall]
        exact if_neg hnumber
  rw [if_neg hht, if_neg hht]
  by_cases hrsn : tag = 48
  · rw [if_pos hrsn, if_pos hrsn]
    exact early_or _
  rw [if_neg hrsn, if_neg hrsn]
  by_cases hvendor : tag = 221 ∧ 4 ≤ length
  · rw [if_pos hvendor, wpaAt_eq h (by omega)]
    by_cases hwpa : frame offset = 0 ∧ frame (offset + 1) = 0x50 ∧ frame (offset + 2) = 0xf2 ∧
        frame (offset + 3) = 1
    · have hall : tag = 221 ∧ 4 ≤ length ∧ frame offset = 0 ∧ frame (offset + 1) = 0x50 ∧
          frame (offset + 2) = 0xf2 ∧ frame (offset + 3) = 1 := ⟨hvendor.1, hvendor.2, hwpa⟩
      rw [if_pos hall, decide_eq_true hwpa]
      exact early_or _
    · have hnot : ¬ (tag = 221 ∧ 4 ≤ length ∧ frame offset = 0 ∧ frame (offset + 1) = 0x50 ∧
          frame (offset + 2) = 0xf2 ∧ frame (offset + 3) = 1) := fun hall => hwpa hall.2.2
      have hother : ¬ (tag = 255 ∧ length = 0) := by
        rintro ⟨-, hzero⟩
        omega
      rw [if_neg hnot, if_neg hother, decide_eq_false hwpa]
      rfl
  · have hnot : ¬ (tag = 221 ∧ 4 ≤ length ∧ frame offset = 0 ∧ frame (offset + 1) = 0x50 ∧
        frame (offset + 2) = 0xf2 ∧ frame (offset + 3) = 1) := fun hall => hvendor ⟨hall.1, hall.2.1⟩
    rw [if_neg hvendor, if_neg hnot]
    exact early_or _

theorem walk_eq (h : Holds data frame) (hinside : pos ≤ data.length) (hrounds : data.length < pos + rounds) :
    walk () (Frame.element data channel) data rounds pos seen =
      ran (elementsFrom frame data.length channel rounds pos seen) := by
  induction rounds generalizing pos seen with
  | zero => omega
  | succ rounds ih =>
      unfold walk elementsFrom
      by_cases hend : data.length ≤ pos
      · rw [if_neg (Nat.not_lt.2 hend), if_pos hend]
        rfl
      have hpos : pos < data.length := Nat.not_le.1 hend
      rw [if_pos hpos, if_neg hend, sub_eq hinside]
      by_cases htwo : data.length - pos < 2
      · rw [if_pos htwo]
        exact if_pos htwo
      rw [if_neg htwo, pure_bind, if_neg htwo, h.byteAt hpos, h.byteAt (by omega)]
      simp only [pure_bind]
      by_cases hlength : data.length - pos < (frame (pos + 1)).toNat + 2
      · have hlength' : data.length - (pos + 2) < (frame (pos + 1)).toNat := by omega
        rw [if_pos hlength, if_pos hlength']
        rfl
      · have hlength' : ¬ data.length - (pos + 2) < (frame (pos + 1)).toNat := by omega
        have hnext : pos + (frame (pos + 1)).toNat + 2 = pos + 2 + (frame (pos + 1)).toNat := by omega
        rw [if_neg hlength, if_neg hlength', element_eq h _ (by omega)]
        cases seen.element frame channel (frame pos) (pos + 2) (frame (pos + 1)).toNat with
        | none => rfl
        | some seen' =>
            rw [hnext]
            exact ih (by omega) (by omega)

/-! ## The fixed part -/

def bitsOf (f : ℕ → UInt8) (is : List ℕ) (bits : UInt8) : UInt8 := is.foldl (fun bits i => bits ||| f i) bits

theorem bitsOf_eq_zero {f : ℕ → UInt8} {is : List ℕ} {bits : UInt8} :
    bitsOf f is bits = 0 ↔ bits = 0 ∧ ∀ i ∈ is, f i = 0 := by
  induction is generalizing bits with
  | nil => simp [bitsOf]
  | cons i is ih =>
      have hcons : bitsOf f (i :: is) bits = bitsOf f is (bits ||| f i) := rfl
      rw [hcons, ih, UInt8.or_eq_zero_iff, List.forall_mem_cons, and_assoc]

theorem addresses_eq (h : Holds data frame) (hinside : i + rounds ≤ 6) (hlength : 36 ≤ data.length) (a d : UInt8)
    (b : Bool) :
    Frame.addresses data rounds i a d b =
      ran (if (List.range' i rounds).all fun k => frame (10 + k) == frame (16 + k) then
        some (bitsOf (fun k => frame (16 + k)) (List.range' i rounds) a,
          bitsOf (fun k => frame (4 + k)) (List.range' i rounds) d,
          b && (List.range' i rounds).all fun k => frame (4 + k) == 0xff)
      else none) := by
  induction rounds generalizing i a d b with
  | zero =>
      rw [List.range'_zero, List.all_nil, if_pos rfl, List.all_nil, Bool.and_true]
      rfl
  | succ rounds ih =>
      unfold Frame.addresses
      rw [h.byteAt (by omega), h.byteAt (by omega), h.byteAt (by omega)]
      simp only [pure_bind]
      rw [List.range'_succ, List.all_cons]
      by_cases hsame : frame (10 + i) = frame (16 + i)
      · rw [if_neg (not_not.2 hsame), ih (by omega), beq_iff_eq.2 hsame, Bool.true_and, List.all_cons,
          Bool.and_assoc]
        rfl
      · rw [if_pos hsame, beq_eq_false_iff_ne.2 hsame, Bool.false_and]
        rfl

theorem bitsOf_ne_zero (f : ℕ → UInt8) :
    (List.range' 0 6).any (fun i => f i != 0) = decide (bitsOf f (List.range' 0 6) 0 ≠ 0) := by
  rw [Bool.eq_iff_iff, decide_eq_true_iff, Ne, bitsOf_eq_zero, List.any_eq_true]
  constructor
  · rintro ⟨i, hi, hne⟩ ⟨-, hall⟩
    rw [hall i hi] at hne
    exact absurd hne (by decide)
  · intro hnot
    by_contra hnone
    refine hnot ⟨rfl, fun i hi => ?_⟩
    by_contra hne
    exact hnone ⟨i, hi, bne_iff_ne.2 hne⟩

theorem header_eq (h : Holds data frame) (hlength : 36 ≤ data.length) :
    Frame.header data = ran (if headerAccepted frame then some () else none) := by
  unfold Frame.header headerAccepted
  rw [h.byteAt (i := 0) (by omega), h.byteAt (i := 1) (by omega), h.byteAt (i := 22) (by omega),
    h.byteAt (i := 16) (by omega), h.byteAt (i := 4) (by omega), addresses_eq h (by omega) hlength]
  simp only [pure_bind, bitsOf_ne_zero fun i => frame (16 + i), bitsOf_ne_zero fun i => frame (4 + i),
    List.range_eq_range', Bool.true_and]
  generalize bitsOf (fun k => frame (16 + k)) (List.range' 0 6) 0 = addressBits
  generalize bitsOf (fun k => frame (4 + k)) (List.range' 0 6) 0 = destinationBits
  generalize ((List.range' 0 6).all fun k => frame (4 + k) == 0xff) = broadcast
  generalize ((List.range' 0 6).all fun k => frame (10 + k) == frame (16 + k)) = same
  have hfound : (ran (if same then some (addressBits, destinationBits, broadcast) else none) >>= fun x =>
      if x.1 = 0 ∨ frame 16 &&& 1 ≠ 0 then early ()
      else if x.2.1 = 0 ∨ (frame 4 &&& 1 ≠ 0 ∧ x.2.2 = false) ∨ (frame 0 = 0x80 ∧ x.2.2 = false) then early ()
      else (pure () : Frame.Parsing Unit)) =
      ran (if same && (!decide (addressBits = 0 ∨ frame 16 &&& 1 ≠ 0) &&
        (!decide (destinationBits = 0 ∨ (frame 4 &&& 1 ≠ 0 ∧ broadcast = false) ∨
          (frame 0 = 0x80 ∧ broadcast = false)) && true)) then some () else none) := by
    cases same with
    | false => rfl
    | true =>
        rw [Bool.true_and, ← early_else, ← early_else]
        rfl
  show (if frame 0 &&& 0x0f ≠ 0 ∨ (frame 0 ≠ 0x80 ∧ frame 0 ≠ 0x50) then early ()
    else if frame 1 &&& (0x03 ||| 0x04 ||| 0x40 ||| 0x80) ≠ 0 ∨ frame 22 &&& 0x0f ≠ 0 then early ()
    else (ran (if same then some (addressBits, destinationBits, broadcast) else none) >>= fun x =>
      if x.1 = 0 ∨ frame 16 &&& 1 ≠ 0 then early ()
      else if x.2.1 = 0 ∨ (frame 4 &&& 1 ≠ 0 ∧ x.2.2 = false) ∨ (frame 0 = 0x80 ∧ x.2.2 = false) then early ()
      else (pure () : Frame.Parsing Unit))) = _
  rw [hfound, early_else, early_else]
  congr 2
  rw [eq_iff_iff, Bool.coe_iff_coe, Bool.eq_iff_iff]
  simp only [Bool.and_eq_true, Bool.or_eq_true, decide_eq_false_iff_not, decide_eq_true_iff,
    beq_iff_eq, Bool.and_eq_false_iff, beq_eq_false_iff_ne, bne_eq_false_iff_eq, not_or, not_and_or,
    not_not, ne_eq, Bool.not_eq_false, and_true, Bool.not_eq_eq_eq_not, Bool.not_true, Bool.not_false]
  tauto

/-- The code reads inside of the frame only, and comes to the end of the model. -/
theorem advertisementAt_eq (data : List UInt8) (channel : Channel) (signal : Signal) (nowUs : UInt64) :
    Frame.advertisementAt (some data) channel signal nowUs =
      .ok (advertisement (some fun i => data.getD i 0) data.length channel signal nowUs) := by
  have hholds : Holds data fun i => data.getD i 0 := fun i _ => rfl
  unfold Frame.advertisementAt advertisement
  by_cases hfirst : data.length < 36 ∨ !channel.valid ∨ !signal.valid
  · have hmodel : data.length < 36 ∨ !channel.valid ∨ !signal.valid ∨
        !headerAccepted fun i => data.getD i 0 := by
      rcases hfirst with h | h | h
      · exact .inl h
      · exact .inr (.inl h)
      · exact .inr (.inr (.inl h))
    dsimp only
    rw [if_pos hfirst, if_pos hmodel]
    rfl
  have hlength : 36 ≤ data.length := Nat.not_lt.1 fun h => hfirst (.inl h)
  dsimp only
  rw [if_neg hfirst, header_eq hholds hlength, walk_eq hholds hlength (by omega),
    hholds.byteAt (i := 32) (by omega), hholds.byteAt (i := 33) (by omega),
    hholds.byteAt (i := 34) (by omega), hholds.byteAt (i := 35) (by omega)]
  by_cases hheader : headerAccepted fun i => data.getD i 0
  · have hmodel : ¬ (data.length < 36 ∨ !channel.valid ∨ !signal.valid ∨
        !headerAccepted fun i => data.getD i 0) := by
      rintro (h | h | h | h)
      · exact hfirst (.inl h)
      · exact hfirst (.inr (.inl h))
      · exact hfirst (.inr (.inr h))
      · rw [hheader] at h
        exact absurd h (by decide)
    rw [if_pos hheader, if_neg hmodel]
    cases elementsFrom (fun i => data.getD i 0) data.length channel data.length 36 {} with
    | none => rfl
    | some seen =>
        rcases seen with ⟨ssid, rates, ds, ht, rsn, wpa⟩
        cases ssid with
        | none => rfl
        | some name =>
            cases rates with
            | false => rfl
            | true => rfl
  · have hmodel : data.length < 36 ∨ !channel.valid ∨ !signal.valid ∨
        !headerAccepted fun i => data.getD i 0 := .inr (.inr (.inr (by simpa using hheader)))
    rw [if_neg hheader, if_pos hmodel]
    rfl

/-! ## What an accepted frame consists of -/

def isWpa (e : Element) : Bool := e.id == 221 && e.body.take 4 == [0, 0x50, 0xf2, 1]

/-- An element that an accepted frame may have. -/
structure Fits (channel : Channel) (e : Element) : Prop where
  name : e.id = 0 → e.body.length ≤ 32
  rates : e.id = 1 → 1 ≤ e.body.length ∧ e.body.length ≤ 8
  ds : e.id = 3 → e.body = [channel.number]
  ht : e.id = 61 → e.body.length = 22 ∧ e.body.getD 0 0 = channel.number
  extension : e.id = 255 → e.body ≠ []

/-- The elements of an accepted frame. -/
structure Complete (channel : Channel) (es : List Element) : Prop where
  names : es.countP (fun e => e.id = 0) = 1
  rates : es.countP (fun e => e.id = 1) = 1
  ds : es.countP (fun e => e.id = 3) ≤ 1
  ht : es.countP (fun e => e.id = 61) ≤ 1
  rsn : es.countP (fun e => e.id = 48) ≤ 1
  wpa : es.countP isWpa ≤ 1
  bodies : ∀ e ∈ es, Fits channel e

/-- What the code has seen of the elements it has visited. -/
structure Heard (data : List UInt8) (channel : Channel) (es : List Element) (seen : Seen) : Prop where
  names : es.countP (fun e => e.id = 0) = seen.ssid.isSome.toNat
  rates : es.countP (fun e => e.id = 1) = seen.rates.toNat
  ds : es.countP (fun e => e.id = 3) = seen.ds.toNat
  ht : es.countP (fun e => e.id = 61) = seen.ht.toNat
  rsn : es.countP (fun e => e.id = 48) = seen.rsn.toNat
  wpa : es.countP isWpa = seen.wpa.toNat
  bodies : ∀ e ∈ es, Fits channel e
  named : ∀ offset length, seen.ssid = some (offset, length) →
    ∀ e ∈ es, e.id = 0 → Stands data e offset ∧ e.body.length = length

theorem heard_nil : Heard data channel [] {} where
  names := rfl
  rates := rfl
  ds := rfl
  ht := rfl
  rsn := rfl
  wpa := rfl
  bodies := fun _ he => absurd he List.not_mem_nil
  named := fun _ _ _ _ he => absurd he List.not_mem_nil

theorem stands_frame (h : Holds data frame) (hstands : Stands data e offset) (hi : i < e.body.length) :
    frame (offset + i) = e.body.getD i 0 := by
  have hinside := hstands.inside
  rw [← h (offset + i) (by omega), hstands.getD hi]

/-- The comparison with the vendor is one with the first four bytes. -/
theorem isWpa_iff (h : Holds data frame) (hstands : Stands data e offset) :
    isWpa e = true ↔ e.id = 221 ∧ 4 ≤ e.body.length ∧ frame offset = 0 ∧ frame (offset + 1) = 0x50 ∧
      frame (offset + 2) = 0xf2 ∧ frame (offset + 3) = 1 := by
  have hbyte : ∀ i, i < e.body.length → frame (offset + i) = e.body.getD i 0 :=
    fun i hi => stands_frame h hstands hi
  rw [isWpa, Bool.and_eq_true, beq_iff_eq, beq_iff_eq]
  refine and_congr_right fun _ => ?_
  rcases hbody : e.body with _ | ⟨a, _ | ⟨b, _ | ⟨c, _ | ⟨d, rest⟩⟩⟩⟩
  · simp
  · simp
  · simp
  · simp
  · rw [hbody] at hbyte
    have h0 := hbyte 0 (by simp)
    have h1 := hbyte 1 (by simp)
    have h2 := hbyte 2 (by simp)
    have h3 := hbyte 3 (by simp)
    rw [Nat.add_zero] at h0
    rw [h0, h1, h2, h3]
    simp

theorem isWpa_of_id (h : e.id ≠ 221) : isWpa e = false := by
  rw [isWpa, beq_eq_false_iff_ne.2 h, Bool.false_and]

/-- What the flags count is one more where the element is of their kind. -/
theorem Heard.add (h : Heard data channel es seen)
    (hnames : seen.ssid.isSome.toNat + (decide (e.id = 0)).toNat = seen'.ssid.isSome.toNat)
    (hrates : seen.rates.toNat + (decide (e.id = 1)).toNat = seen'.rates.toNat)
    (hds : seen.ds.toNat + (decide (e.id = 3)).toNat = seen'.ds.toNat)
    (hht : seen.ht.toNat + (decide (e.id = 61)).toNat = seen'.ht.toNat)
    (hrsn : seen.rsn.toNat + (decide (e.id = 48)).toNat = seen'.rsn.toNat)
    (hwpa : seen.wpa.toNat + (isWpa e).toNat = seen'.wpa.toNat) (hfits : Fits channel e)
    (hnamed : ∀ offset length, seen'.ssid = some (offset, length) → ∀ x ∈ es ++ [e], x.id = 0 →
      Stands data x offset ∧ x.body.length = length) :
    Heard data channel (es ++ [e]) seen' := by
  have hcount : ∀ p : Element → Bool, (es ++ [e]).countP p = es.countP p + (p e).toNat := by
    intro p
    rw [List.countP_append, List.countP_singleton]
    cases p e with
    | false => rfl
    | true => rfl
  refine ⟨?_, ?_, ?_, ?_, ?_, ?_, fun x hx => ?_, hnamed⟩
  · rw [hcount, h.names, hnames]
  · rw [hcount, h.rates, hrates]
  · rw [hcount, h.ds, hds]
  · rw [hcount, h.ht, hht]
  · rw [hcount, h.rsn, hrsn]
  · rw [hcount, h.wpa, hwpa]
  · rcases List.mem_append.1 hx with hx | hx
    · exact h.bodies x hx
    · exact List.mem_singleton.1 hx ▸ hfits

theorem Heard.named_append (h : Heard data channel es seen) (hid : e.id ≠ 0) (offset length : ℕ)
    (hssid : seen.ssid = some (offset, length)) :
    ∀ x ∈ es ++ [e], x.id = 0 → Stands data x offset ∧ x.body.length = length := by
  intro x hx hx0
  rcases List.mem_append.1 hx with hx | hx
  · exact h.named offset length hssid x hx hx0
  · exact absurd (List.mem_singleton.1 hx ▸ hx0) hid

theorem Heard.element (hholds : Holds data frame) (hheard : Heard data channel es seen)
    (hstands : Stands data e offset)
    (h : seen.element frame channel e.id offset e.body.length = some seen') :
    Heard data channel (es ++ [e]) seen' := by
  have hwpa := isWpa_iff hholds hstands
  have hfirst : 0 < e.body.length → frame offset = e.body.getD 0 0 := fun hi => stands_frame hholds hstands hi
  have hother : ∀ id, id ≠ 221 → e.id = id → isWpa e = false := fun id hid he => isWpa_of_id (he ▸ hid)
  unfold Seen.element at h
  split at h
  next hid =>
    split at h
    · cases h
    next hnew =>
    cases h
    rw [not_or, Bool.not_eq_true, Option.isSome_eq_false_iff, Option.isNone_iff_eq_none, Nat.not_lt] at hnew
    have hnone : ∀ x ∈ es, x.id ≠ 0 := by
      have hnames := hheard.names
      rw [hnew.1] at hnames
      exact fun x hx hx0 => by simpa using List.countP_eq_zero.1 hnames x hx (by simpa using hx0)
    refine hheard.add ?_ ?_ ?_ ?_ ?_ ?_ ⟨?_, ?_, ?_, ?_, ?_⟩ ?_
    case refine_12 =>
      intro o l hssid x hx hx0
      cases hssid
      rcases List.mem_append.1 hx with hx | hx
      · exact absurd hx0 (hnone x hx)
      · rw [List.mem_singleton.1 hx]
        exact ⟨hstands, rfl⟩
    all_goals simp [hid, hnew, hother 0]
  next hname =>
  have hnamed := hheard.named_append (e := e) hname
  split at h
  next hid =>
    split at h
    · cases h
    next hnew =>
    cases h
    rw [not_or, not_or, Bool.not_eq_true, Nat.not_lt] at hnew
    refine hheard.add ?_ ?_ ?_ ?_ ?_ ?_ ⟨?_, ?_, ?_, ?_, ?_⟩ hnamed
    all_goals simp [hid, hnew, hother 1]
    exact Nat.pos_of_ne_zero fun h0 => hnew.2.1 (by simpa using h0)
  next hrates =>
  split at h
  next hid =>
    split at h
    · cases h
    next hnew =>
    cases h
    rw [not_or, not_or, Bool.not_eq_true, not_not, not_not] at hnew
    have hbody : e.body = [channel.number] := by
      rcases List.length_eq_one_iff.1 hnew.2.1 with ⟨b, hb⟩
      have hbyte := hfirst (by omega)
      rw [hnew.2.2, hb] at hbyte
      rw [hb, hbyte]
      rfl
    refine hheard.add ?_ ?_ ?_ ?_ ?_ ?_ ⟨?_, ?_, fun _ => hbody, ?_, ?_⟩ hnamed
    all_goals simp [hid, hnew, hother 3]
  next hds =>
  split at h
  next hid =>
    split at h
    · cases h
    next hnew =>
    cases h
    rw [not_or, not_or, Bool.not_eq_true, not_not, not_not] at hnew
    have hbody : e.body.length = 22 ∧ e.body.getD 0 0 = channel.number :=
      ⟨hnew.2.1, (hfirst (by omega)).symm.trans hnew.2.2⟩
    refine hheard.add ?_ ?_ ?_ ?_ ?_ ?_ ⟨?_, ?_, ?_, fun _ => hbody, ?_⟩ hnamed
    all_goals simp [hid, hnew, hother 61]
  next hht =>
  split at h
  next hid =>
    split at h
    · cases h
    next hnew =>
    cases h
    refine hheard.add ?_ ?_ ?_ ?_ ?_ ?_ ⟨?_, ?_, ?_, ?_, ?_⟩ hnamed
    all_goals simp [hid, hnew, hother 48]
  next hrsn =>
  split at h
  next hvendor =>
    split at h
    · cases h
    next hnew =>
    cases h
    refine hheard.add ?_ ?_ ?_ ?_ ?_ ?_ ⟨?_, ?_, ?_, ?_, ?_⟩ hnamed
    all_goals simp [hvendor.1, hnew, hwpa.2 hvendor]
  next hvendor =>
  have hnot : isWpa e = false := Bool.eq_false_iff.2 fun htrue => hvendor (hwpa.1 htrue)
  split at h
  · cases h
  next hextension =>
  cases h
  refine hheard.add ?_ ?_ ?_ ?_ ?_ ?_ ⟨?_, ?_, ?_, ?_, ?_⟩ hnamed
  all_goals simp [hname, hrates, hds, hht, hrsn, hnot]
  exact fun hid hbody => hextension ⟨hid, by rw [hbody]; rfl⟩

/-- The loop over a frame hears the elements of a chain. -/
theorem heard_of_elements (hholds : Holds data frame) (hlength : 36 ≤ data.length)
    (h : elementsFrom frame data.length channel data.length 36 {} = some seen) :
    ∃ es, data.drop 36 = chain es ∧ Heard data channel es seen := by
  have hwalk := @walk_eq _ _ channel {} _ data.length hholds hlength (by omega)
  have hsafe : Safe (fun _ => True) (fun s => ∃ es, data.drop 36 = chain es ∧ Heard data channel ([] ++ es) s)
      (walk () (Frame.element data channel) data data.length 36 {}) := by
    refine Safe.walk (Heard data channel) trivial (fun done e offset s hstands hheard => ?_) hlength (by omega)
      heard_nil
    rw [element_eq hholds e.id hstands.inside]
    cases hnext : s.element frame channel e.id offset e.body.length with
    | none => exact Safe.early trivial
    | some s' => exact Safe.pure (hheard.element hholds hstands hnext)
  rw [hwalk, h] at hsafe
  rcases hsafe.ends with ⟨_, -, hno⟩ | ⟨s, hs, heq⟩
  · cases hno
  · cases heq
    exact hs

/-- The first `n` bytes behind a pointer. -/
def window (frame : ℕ → UInt8) (n : ℕ) : List UInt8 := (List.range n).map frame

theorem length_window (frame : ℕ → UInt8) (n : ℕ) : (window frame n).length = n := by
  rw [window, List.length_map, List.length_range]

theorem holds_window (frame : ℕ → UInt8) (n : ℕ) : Holds (window frame n) frame := by
  intro i hi
  rw [length_window] at hi
  rw [window, List.getD_eq_getElem?_getD, List.getElem?_map, List.getElem?_range hi]
  rfl

/-- What `advertisement` has found when it accepts a frame. -/
structure Found (frame : ℕ → UInt8) (frameBytes : ℕ) (channel : Channel) (signal : Signal) (nowUs : UInt64)
    (input : Input) (es : List Element) (offset : ℕ) : Prop where
  long : 36 ≤ frameBytes
  elements : (window frame frameBytes).drop 36 = chain es
  complete : Complete channel es
  fixed : headerAccepted frame = true
  measured : signal.valid = true
  named : ∀ e ∈ es, e.id = 0 → Stands (window frame frameBytes) e offset ∧ e.body.length = input.ssidLength
  input : input = {
    bssid := some fun i => frame (16 + i)
    ssid := some fun i => frame (offset + i)
    ssidLength := input.ssidLength
    ies := some fun i => frame (36 + i)
    ieLength := frameBytes - 36
    originalIeLength := frameBytes - 36
    channel := channel
    signal := signal
    observedAtUs := nowUs
    beaconInterval := little16 frame 32
    capability := little16 frame 34 }

variable {input : Input}

theorem advertisement_found {signal : Signal} {nowUs : UInt64}
    (h : advertisement (some frame) frameBytes channel signal nowUs = some input) :
    ∃ es offset, Found frame frameBytes channel signal nowUs input es offset := by
  unfold advertisement at h
  dsimp only at h
  split at h
  · cases h
  next hfirst =>
  simp only [not_or, Nat.not_lt, Bool.not_eq_true', Bool.not_eq_false] at hfirst
  split at h
  · cases h
  next seen hseen =>
  split at h
  · cases h
  next offset length hssid =>
  split at h
  · cases h
  next hrates =>
  cases h
  rw [← length_window frame frameBytes] at hseen
  rcases heard_of_elements (holds_window frame frameBytes) (by rw [length_window]; exact hfirst.1) hseen with
    ⟨es, hchain, hheard⟩
  rw [Bool.not_eq_true', Bool.not_eq_false] at hrates
  refine ⟨es, offset, hfirst.1, hchain, ⟨?_, ?_, ?_, ?_, ?_, ?_, hheard.bodies⟩, hfirst.2.2.2, hfirst.2.2.1,
    hheard.named offset length hssid, rfl⟩
  · rw [hheard.names, hssid]
    rfl
  · rw [hheard.rates, hrates]
    rfl
  · exact hheard.ds ▸ Bool.toNat_le seen.ds
  · exact hheard.ht ▸ Bool.toNat_le seen.ht
  · exact hheard.rsn ▸ Bool.toNat_le seen.rsn
  · exact hheard.wpa ▸ Bool.toNat_le seen.wpa

theorem advertisement_whole {frame : Option (ℕ → UInt8)} {signal : Signal} {nowUs : UInt64}
    (h : advertisement frame frameBytes channel signal nowUs = some input) :
    input.ieLength = input.originalIeLength := by
  cases frame with
  | none => cases h
  | some frame =>
      rcases advertisement_found h with ⟨_, _, hfound⟩
      rw [hfound.input]

/-! ## The checks of the store -/

/-- The elements of an observation, and its name in the one of them that has it. -/
structure Named (input : Input) (buffer : List UInt8) (es : List Element) : Prop where
  length : buffer.length = input.ieLength
  bytes : ∀ i < buffer.length, NativeScan.byteAt input.ies i = buffer.getD i 0
  name : ∀ e ∈ es, e.id = 0 → e.body.length = input.ssidLength ∧ e.body.length ≤ 32 ∧
    ∀ i < e.body.length, NativeScan.byteAt input.ssid i = e.body.getD i 0

theorem seen_of_end {ssidSeen : Bool} (hchain : data.drop pos = chain es)
    (honce : es.countP (fun e => e.id = 0) + ssidSeen.toNat = 1) (hend : data.length ≤ pos) :
    ssidSeen = true := by
  have hnil : es = [] := by
    refine chain_injective ?_
    rw [← hchain, List.drop_eq_nil_of_le hend, chain_nil]
  rw [hnil] at honce
  cases ssidSeen with
  | false => exact absurd honce (by decide)
  | true => rfl

/-- `informationElements` accepts a chain that has the name of the observation once. -/
theorem informationElementsFrom_chain {all : List Element} (hnamed : Named input data all) {ssidSeen : Bool}
    (hsub : ∀ e ∈ es, e ∈ all) (hchain : data.drop pos = chain es)
    (honce : es.countP (fun e => e.id = 0) + ssidSeen.toNat = 1) (hinside : pos ≤ data.length)
    (hrounds : data.length ≤ pos + rounds) :
    informationElementsFrom input rounds pos ssidSeen = true := by
  induction rounds generalizing pos ssidSeen es with
  | zero =>
      unfold informationElementsFrom
      rw [seen_of_end hchain honce (by omega), Bool.true_or]
  | succ rounds ih =>
      unfold informationElementsFrom
      rw [← hnamed.length]
      by_cases hpos : data.length ≤ pos
      · rw [if_pos hpos, seen_of_end hchain honce hpos, Bool.true_or]
      rw [if_neg hpos]
      cases es with
      | nil =>
          have hnil := congrArg List.length hchain
          rw [List.length_drop, chain_nil, List.length_nil] at hnil
          omega
      | cons e es =>
          rw [chain_cons] at hchain
          rcases element_of_drop hchain with ⟨hid, hsize, hstands, hrest⟩
          have hin := hstands.inside
          have hshort : ¬ data.length - pos < 2 := by omega
          have hlong : ¬ data.length - (pos + 2) < e.body.length := by omega
          have hnext : pos + 2 + e.body.length = pos + e.body.length + 2 := by omega
          have hsub' : ∀ x ∈ es, x ∈ all := fun x hx => hsub x (List.mem_cons_of_mem e hx)
          rw [if_neg hshort, hnamed.bytes pos (by omega), hnamed.bytes (pos + 1) (by omega), hid, hsize]
          dsimp only
          rw [if_neg hlong, hnext]
          by_cases hname : e.id = 0
          · rcases hnamed.name e (hsub e List.mem_cons_self) hname with ⟨hlength, hshort, hbytes⟩
            rw [List.countP_cons, if_pos (by simpa using hname)] at honce
            have hfirst : ssidSeen = false := by
              cases ssidSeen with
              | false => rfl
              | true =>
                  rw [Bool.toNat_true] at honce
                  omega
            rw [hfirst, Bool.toNat_false] at honce
            have hsame : sameName input (pos + 2) e.body.length = true := by
              refine List.all_eq_true.2 fun i hi => ?_
              have hi' := List.mem_range.1 hi
              rw [hnamed.bytes (pos + 2 + i) (by omega), hstands.getD hi', hbytes i hi']
              exact beq_iff_eq.2 rfl
            have hgood : ¬ (ssidSeen || decide (32 < e.body.length) || e.body.length != input.ssidLength ||
                !sameName input (pos + 2) e.body.length) = true := by
              rw [hfirst, decide_eq_false (Nat.not_lt.2 hshort), hlength, bne_self_eq_false, ← hlength, hsame]
              decide
            rw [if_pos hname, if_neg hgood]
            refine ih hsub' hrest ?_ (by omega) (by omega)
            rw [Bool.toNat_true]
            omega
          · rw [List.countP_cons, if_neg (by simpa using hname)] at honce
            rw [if_neg hname]
            exact ih hsub' hrest honce (by omega) (by omega)

/-- What `advertisement` accepts passes the last test of `add`. -/
theorem Found.acceptable {signal : Signal} {nowUs : UInt64}
    (h : Found frame frameBytes channel signal nowUs input es offset) : input.acceptable = true := by
  have hfixed := h.fixed
  unfold headerAccepted at hfixed
  simp only [Bool.and_eq_true] at hfixed
  rcases hfixed with ⟨⟨⟨⟨⟨⟨⟨⟨⟨_, _⟩, _⟩, _⟩, _⟩, hany⟩, hgroup⟩, _⟩, _⟩, _⟩
  have hunicast : unicast input.bssid = true := by
    rw [h.input]
    show (decide (∃ i : Fin 6, frame (16 + i) ≠ 0) && (frame 16 &&& 1) == 0) = true
    rw [hgroup, Bool.and_true, decide_eq_true_iff]
    rcases List.any_eq_true.1 hany with ⟨i, hi, hne⟩
    exact ⟨⟨i, List.mem_range.1 hi⟩, bne_iff_ne.1 hne⟩
  have hname : ∃ e ∈ es, e.id = 0 := by
    have hpos : 0 < es.countP (fun e => e.id = 0) := by
      rw [h.complete.names]
      exact Nat.one_pos
    rcases List.countP_pos_iff.1 hpos with ⟨e, he, hid⟩
    exact ⟨e, he, of_decide_eq_true hid⟩
  have hshort : input.ssidLength ≤ 32 := by
    rcases hname with ⟨e, he, hid⟩
    rw [← (h.named e he hid).2]
    exact (h.complete.bodies e he).name hid
  have hlength : ((window frame frameBytes).drop 36).length = input.ieLength := by
    rw [List.length_drop, length_window, h.input]
  have helements : informationElements input = true := by
    have hnamed : Named input ((window frame frameBytes).drop 36) es := by
      refine ⟨hlength, fun i hi => ?_, fun e he hid => ?_⟩
      · rw [List.length_drop] at hi
        rw [List.getD_eq_getElem?_getD, List.getElem?_drop, ← List.getD_eq_getElem?_getD,
          holds_window frame frameBytes (36 + i) (by omega), h.input]
        rfl
      · rcases h.named e he hid with ⟨hstands, hsize⟩
        refine ⟨hsize, (h.complete.bodies e he).name hid, fun i hi => ?_⟩
        rw [← stands_frame (holds_window frame frameBytes) hstands hi, h.input]
        rfl
    refine informationElementsFrom_chain hnamed (fun e he => he) h.elements ?_ (Nat.zero_le _) ?_
    · rw [h.complete.names]
      rfl
    · rw [hlength, Nat.zero_add]
  have hsome : input.ssid.isSome = true ∧ input.ies.isSome = true ∧ input.signal.valid = true := by
    rw [h.input]
    exact ⟨rfl, rfl, h.measured⟩
  rw [Input.acceptable, hunicast, decide_eq_true hshort, hsome.1, hsome.2.1, hsome.2.2, helements]
  simp

/-! ## The store of an observer -/

/-- The store that `add` leaves has lost nothing to truncation, if none of the observation was missing. -/
theorem add_whole {s s' : Store} {token : Token} {r : AddResult} (hout : s.add token input = (r, s'))
    (hwhole : s.status.truncatedInput = false) (hinput : input.ieLength = input.originalIeLength) :
    s'.status.truncatedInput = false := by
  have hreject : ∀ t : Store, t.reject.status.truncatedInput = t.status.truncatedInput := by
    intro t
    rcases Store.reject_eq t with ⟨n, hn⟩
    rw [hn]
  rcases Prod.ext_iff.1 hout with ⟨-, rfl⟩
  unfold Store.add
  split
  · exact hwhole
  split
  · exact hwhole
  split
  · exact hwhole
  split
  · exact hwhole
  split
  next hno => exact absurd hinput hno
  split
  · exact (hreject _).trans hwhole
  split
  · exact (hreject _).trans hwhole
  split
  · split
    · exact hwhole
    · exact hwhole
  · split
    · exact (hreject _).trans hwhole
    · exact hwhole

/-- What `add` does with an observation that its checks let pass. -/
theorem add_accepted {s : Store} {token : Token} (hcurrent : s.current token = true)
    (hplanned : s.status.planned = true) (hchannel : (s.channelIndex input.channel).isSome = true)
    (hwhole : s.status.truncatedInput = false) (hinput : input.ieLength = input.originalIeLength)
    (hok : input.acceptable = true) :
    (s.add token input).1 = .added ∨ (s.add token input).1 = .replaced ∨
      (s.add token input).1 = .unchanged ∨ (s.add token input).1 = .overflow := by
  have hnow : ¬ (!s.current token) = true := by simp [hcurrent]
  have hplan : ¬ (!s.status.planned || (s.channelIndex input.channel).isNone) = true := by
    rw [hplanned, Option.isNone_eq_false_iff.2 hchannel]
    decide
  have hlost : ¬ s.status.truncatedInput = true := by simp [hwhole]
  have hgood : ¬ (!input.acceptable) = true := by simp [hok]
  unfold Store.add
  rw [if_neg hnow, if_neg hplan]
  by_cases hoverflow : s.status.overflow = true
  · rw [if_pos hoverflow]
    exact .inr (.inr (.inr rfl))
  rw [if_neg hoverflow, if_neg hlost, if_neg (not_not.2 hinput)]
  by_cases hlarge : maxIeBytes < input.ieLength
  · rw [if_pos hlarge]
    exact .inr (.inr (.inr rfl))
  rw [if_neg hlarge, if_neg hgood]
  split
  · split
    · exact .inr (.inr (.inl rfl))
    · exact .inr (.inl rfl)
  · split
    · exact .inr (.inr (.inr rfl))
    · exact .inl rfl

variable {o o' : Observer} {h : List Observer.Record}

/-- No observation has reached the store in part. -/
def Whole (o : Observer) : Prop := o.store.status.truncatedInput = false

theorem Whole.drop (hw : Whole o) : Whole o.drop := by
  unfold Observer.drop
  split
  · rcases hcancel : o.store.cancel o.pass with ⟨ok, store⟩
    cases Store.cancel_cases hcancel with
    | refused _ => exact hw
    | accepted _ => exact hw
  · exact hw

theorem Whole.begin {epoch : UInt64} {mode : Int32} {active ok : Bool} {plan : Option (List Channel)}
    (hw : Whole o) (hout : o.begin epoch mode active plan = (ok, o')) : Whole o' := by
  have henter : Whole (o.reopened.enterEpoch epoch) := by
    unfold Observer.enterEpoch
    split
    · exact hw
    · exact hw
  unfold Observer.begin at hout
  split at hout
  · cases hout
    exact hw
  split at hout
  · cases hout
    exact Whole.drop (o := o.reopened) hw
  split at hout
  · cases hout
    exact henter.drop
  dsimp only at hout
  split at hout
  next store hbegin =>
    cases hout
    cases Store.begin_cases hbegin
    exact Whole.drop (o := { (o.reopened.enterEpoch epoch).nextPass epoch mode active with store := _ }) henter
  next store hbegin =>
  cases Store.begin_cases hbegin
  split at hout
  next store hplan =>
    cases hout
    cases Store.plan_cases hplan
    refine Whole.drop (o := { (o.reopened.enterEpoch epoch).nextPass epoch mode active with store := _ }) ?_
    rfl
  next store hplan =>
    cases hout
    cases Store.plan_cases hplan
    rfl

theorem Whole.step {op : Observer.Op} {ok : Bool} {log : List (Interaction.Event Empty NoCall Empty)}
    (hw : Whole o) (hout : (Observer.exec op o).Outcome log (ok, o')) : Whole o' := by
  have happly := Observer.exec_outcome hout
  cases op with
  | begin epoch mode active plan => exact hw.begin happly
  | channelAccepted epoch mode active channel operation =>
      have happly : o.channelAccepted epoch mode active channel operation = (ok, o') := happly
      unfold Observer.channelAccepted at happly
      split at happly
      · cases happly
        exact hw
      split at happly
      · cases happly
        exact hw.drop
      split at happly
      · cases happly
        exact hw.drop
      · cases happly
        exact hw
  | observe operation frame bytes channel signal nowUs =>
      have happly : o.observe operation frame bytes channel signal nowUs = (ok, o') := happly
      unfold Observer.observe at happly
      split at happly
      · cases happly
        exact hw
      split at happly
      · cases happly
        exact hw
      next input hinput =>
      rcases hadd : o.store.add o.pass input with ⟨r, store⟩
      rw [hadd] at happly
      cases happly
      exact add_whole hadd hw (advertisement_whole hinput)
  | channelFinished operation cancelled =>
      have happly : o.channelFinished operation cancelled = (ok, o') := happly
      unfold Observer.channelFinished at happly
      split at happly
      · cases happly
        exact hw
      split at happly
      · cases happly
        exact hw.drop
      split at happly
      · cases happly
        exact hw.drop
      split at happly
      next store hfinished =>
        cases happly
        cases Store.channelFinished_cases hfinished
        exact Whole.drop (o := { o with store := _ }) hw
      next store hfinished =>
        cases happly
        cases Store.channelFinished_cases hfinished with
        | again _ _ _ _ => exact hw
        | first _ _ _ _ => exact hw
  | finish epoch mode active nowUs =>
      have happly : o.finish epoch mode active nowUs = (ok, o') := happly
      unfold Observer.finish at happly
      split at happly
      · cases happly
        exact hw
      split at happly
      · rcases hfinish : o.store.finish o.pass .fullScan nowUs with ⟨result, store⟩
        rw [hfinish] at happly
        cases happly
        refine Whole.drop (o := { o with store := store }) ?_
        cases Store.finish_cases hfinish with
        | refused _ => exact hw
        | loss _ => exact hw
        | published _ _ _ _ _ _ _ => exact hw
      · cases happly
        exact hw.drop
  | cancel =>
      cases happly
      exact hw.drop
  | rejectedChannel =>
      cases happly
      unfold Observer.rejectedChannel
      split
      · exact hw.drop
      · exact hw

theorem whole_fresh : Whole {} := rfl

theorem run_whole (hrun : Observer.Run h o) : Whole o :=
  Interaction.Run.invariant (P := fun _ o => Whole o) whole_fresh (fun _ hw hout => hw.step hout) hrun

/-- While it observes a channel, an observer owns the active scan, and the channel is planned there. -/
theorem observing_planned {operation : DwellToken} (hrun : Observer.Run h o)
    (hobserving : o.observing operation channel = true) :
    o.store.current o.pass = true ∧ o.store.status.planned = true ∧ (o.store.channelIndex channel).isSome = true := by
  simp only [Observer.observing, Bool.and_eq_true, Bool.not_eq_true', decide_eq_true_eq] at hobserving
  rcases hobserving with ⟨⟨⟨⟨hopen, hblocked⟩, hpending⟩, -⟩, hchannel⟩
  rcases (Observer.run_follows hrun).pass hopen hblocked with
    ⟨_, -, _, _, _, plan, dwells, current, -, -, -, hagrees, hpass⟩
  have hsome : current.isSome = true := hpass.pending.symm.trans hpending
  rcases Option.isSome_iff_exists.1 hsome with ⟨d, rfl⟩
  have hplan : channel ∈ plan := by
    rw [← hchannel, (hpass.dwell d rfl).2]
    exact hpass.planned d (List.mem_append_right _ List.mem_cons_self)
  refine ⟨?_, hagrees.planned, ?_⟩
  · rw [Store.current, hagrees.active, hagrees.token]
    simp
  · rw [← hagrees.channels] at hplan
    rw [Option.isSome_iff_ne_none]
    exact fun hnone => Store.channelIndex_eq_none hnone hplan

/-- The two validators agree.  The parser comes to its end without a read outside of the frame; what it
accepts ends in a chain of elements with one name and one list of rates; and whenever an observer passes an
accepted frame on, the store takes it as far as there is room. -/
theorem parser_agrees_with_store :
    (∀ (frame : List UInt8) channel signal nowUs,
      Frame.advertisementAt (some frame) channel signal nowUs =
        .ok (advertisement (some fun i => frame.getD i 0) frame.length channel signal nowUs)) ∧
    (∀ (frame : ℕ → UInt8) frameBytes channel signal nowUs input,
      advertisement (some frame) frameBytes channel signal nowUs = some input →
        36 ≤ frameBytes ∧ ∃ es, (window frame frameBytes).drop 36 = chain es ∧ Complete channel es) ∧
    ∀ h o, Observer.Run h o → ∀ operation frame frameBytes channel signal nowUs input,
      o.observing operation channel = true →
      advertisement frame frameBytes channel signal nowUs = some input →
        (o.store.add o.pass input).1 = .added ∨ (o.store.add o.pass input).1 = .replaced ∨
          (o.store.add o.pass input).1 = .unchanged ∨ (o.store.add o.pass input).1 = .overflow := by
  refine ⟨advertisementAt_eq, fun frame frameBytes channel signal nowUs input haccepted => ?_,
    fun h o hrun operation frame frameBytes channel signal nowUs input hobserving haccepted => ?_⟩
  · rcases advertisement_found haccepted with ⟨es, _, hfound⟩
    exact ⟨hfound.long, es, hfound.elements, hfound.complete⟩
  · cases frame with
    | none => cases haccepted
    | some frame =>
        rcases advertisement_found haccepted with ⟨_, _, hfound⟩
        rcases observing_planned hrun hobserving with ⟨hcurrent, hplanned, hindex⟩
        have hchannel := Observer.advertisement_channel haccepted
        rw [← hchannel] at hindex
        exact add_accepted hcurrent hplanned hindex (run_whole hrun) (advertisement_whole haccepted)
          hfound.acceptable

/-- A beacon that is accepted, and the store takes. -/
theorem parser_agrees_with_store_beacon :
    ∃ input, Frame.advertisementAt (some Observer.beaconFrame) ⟨.ghz2, 6⟩ {} 5 = .ok (some input) ∧
      input.ssidLength = 2 ∧ input.ieLength = 7 ∧
      ∃ h, ∃ o : Observer, Observer.Run h o ∧ o.observing ⟨1, 1⟩ ⟨.ghz2, 6⟩ = true ∧
        (o.store.add o.pass input).1 = .added := by
  have hbeacon := parser_agrees_with_store.1 Observer.beaconFrame ⟨.ghz2, 6⟩ {} 5
  have hrun := Observer.trial_run (Observer.onePass.take 2)
  exact ⟨_, hbeacon.trans (by rfl), by rfl, by rfl, _, _, hrun, by decide +kernel, by decide +kernel⟩

end Advertisements
end Rtl8852be
