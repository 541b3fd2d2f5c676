import Rtl8852be.Interaction.History
import Rtl8852be.Sequence.Insertion

/-!
# NativeScanCache — the store of scan results

`NativeScanCache.hpp`.  A scan collects its observations in one of two banks; the other bank holds the
last complete scan.  `finish` publishes the working bank by exchanging the roles of the two.  Every
operation but `begin` carries the token of the scan it belongs to.
-/

namespace Rtl8852be
namespace NativeScan

open Interaction Sequence

/-! ## Types -/

def maxNetworks : ℕ := 64

def maxChannels : ℕ := 64

def maxIeBytes : ℕ := 2304

structure Token where
  generation : UInt64 := 0
  epoch : UInt64 := 0
  deriving DecidableEq, Repr

inductive Band
  | ghz2
  | ghz5
  deriving DecidableEq, Repr

def Band.value : Band → UInt8
  | .ghz2 => 0
  | .ghz5 => 1

structure Channel where
  band : Band := .ghz2
  number : UInt8 := 0
  deriving DecidableEq, Repr

def Channel.valid (c : Channel) : Bool :=
  match c.band with
  | .ghz2 => 1 ≤ c.number && c.number ≤ 14
  | .ghz5 =>
      (36 ≤ c.number && c.number ≤ 64 && c.number % 4 == 0) ||
        (100 ≤ c.number && c.number ≤ 144 && c.number % 4 == 0) ||
        (149 ≤ c.number && c.number ≤ 177 && (c.number - 149) % 4 == 0)

inductive SignalUnit
  | unknown
  | percent
  | dbm
  deriving DecidableEq, Repr

structure Signal where
  unit : SignalUnit := .unknown
  value : Int16 := 0
  deriving DecidableEq

def Signal.valid (s : Signal) : Bool :=
  match s.unit with
  | .unknown => s.value == 0
  | .percent => 0 ≤ s.value && s.value ≤ 100
  | .dbm => -127 ≤ s.value && s.value ≤ 0

abbrev Bssid := Fin 6 → UInt8

/-- An address has a first octet. -/
scoped instance firstOctet : NeZero 6 := ⟨by decide⟩

/-- There is a first bank. -/
scoped instance firstBank : NeZero 2 := ⟨by decide⟩

/-- A borrowed frame.  The pointers are null or give the bytes from there on. -/
structure Input where
  bssid : Option Bssid := none
  ssid : Option (ℕ → UInt8) := none
  ies : Option (ℕ → UInt8) := none
  ssidLength : ℕ := 0
  ieLength : ℕ := 0
  originalIeLength : ℕ := 0
  channel : Channel := {}
  signal : Signal := {}
  observedAtUs : UInt64 := 0
  capability : UInt16 := 0
  beaconInterval : UInt16 := 0

structure Entry where
  observedAtUs : UInt64 := 0
  capability : UInt16 := 0
  beaconInterval : UInt16 := 0
  ieLength : UInt16 := 0
  channel : Channel := {}
  signal : Signal := {}
  bssid : Bssid := fun _ => 0
  ssid : Fin 32 → UInt8 := fun _ => 0
  ssidLength : UInt8 := 0
  ies : Fin maxIeBytes → UInt8 := fun _ => 0
  deriving DecidableEq

structure Summary where
  token : Token := {}
  completedAtUs : UInt64 := 0
  count : ℕ := 0
  channelCount : ℕ := 0
  rejected : UInt32 := 0
  deriving DecidableEq

structure Status where
  token : Token := {}
  count : ℕ := 0
  plannedChannels : ℕ := 0
  completedChannels : ℕ := 0
  rejected : UInt32 := 0
  active : Bool := false
  planned : Bool := false
  cancelled : Bool := false
  overflow : Bool := false
  truncatedInput : Bool := false
  deriving DecidableEq

inductive AddResult
  | added
  | replaced
  | unchanged
  | stale
  | unplanned
  | invalid
  | overflow
  | truncated
  deriving DecidableEq, Repr

inductive Completion
  | channel
  | fullScan
  deriving DecidableEq, Repr

inductive FinishResult
  | published
  | stale
  | incomplete
  | loss
  | invalidTime
  deriving DecidableEq, Repr

/-- One of the two banks.  Its arrays are functions on their indices. -/
structure Bank where
  summary : Summary := {}
  channels : ℕ → Channel := fun _ => {}
  order : ℕ → UInt8 := fun _ => 0
  entries : ℕ → Entry := fun _ => {}

structure Store where
  banks : Fin 2 → Bank := fun _ => {}
  status : Status := {}
  completedMask : ℕ := 0
  working : Fin 2 := 0
  published : Fin 2 := 1
  hasPublished : Bool := false

/-! ## Checks on an observation -/

/-- `unicast`: there is an address, it is not all zero, and its group bit is clear. -/
def unicast (address : Option Bssid) : Bool :=
  match address with
  | none => false
  | some a => decide (∃ i, a i ≠ 0) && (a 0 &&& 1) == 0

/-- The byte behind a pointer; nothing reads behind a null pointer. -/
def byteAt (p : Option (ℕ → UInt8)) (i : ℕ) : UInt8 := p.elim 0 fun bytes => bytes i

/-- `equal(in.ies + offset, in.ssid, length)`. -/
def sameName (input : Input) (offset length : ℕ) : Bool :=
  (List.range length).all fun i => byteAt input.ies (offset + i) == byteAt input.ssid i

/-- The loop of `informationElements`.  A round passes at least two bytes, so `ieLength` rounds are
enough. -/
def informationElementsFrom (input : Input) : ℕ → ℕ → Bool → Bool
  | 0, _, ssidSeen => ssidSeen || input.ssidLength == 0
  | rounds + 1, offset, ssidSeen =>
      if input.ieLength ≤ offset then
        ssidSeen || input.ssidLength == 0
      else if input.ieLength - offset < 2 then
        false
      else
        let tag := byteAt input.ies offset
        let length := (byteAt input.ies (offset + 1)).toNat
        if input.ieLength - (offset + 2) < length then
          false
        else if tag = 0 then
          if ssidSeen || decide (32 < length) || length != input.ssidLength ||
              !sameName input (offset + 2) length then
            false
          else
            informationElementsFrom input rounds (offset + 2 + length) true
        else
          informationElementsFrom input rounds (offset + 2 + length) ssidSeen

def informationElements (input : Input) : Bool :=
  informationElementsFrom input input.ieLength 0 false

/-- The last test of `add` before the observation is used. -/
def Input.acceptable (input : Input) : Bool :=
  unicast input.bssid && decide (input.ssidLength ≤ 32) &&
    (input.ssidLength == 0 || input.ssid.isSome) && (input.ieLength == 0 || input.ies.isSome) &&
    input.signal.valid && informationElements input

/-- The record that `add` writes: a cleared entry, and every field copied. -/
def Input.entry (input : Input) : Entry where
  observedAtUs := input.observedAtUs
  channel := input.channel
  signal := input.signal
  capability := input.capability
  beaconInterval := input.beaconInterval
  ssidLength := UInt8.ofNat input.ssidLength
  ieLength := UInt16.ofNat input.ieLength
  bssid := input.bssid.getD fun _ => 0
  ssid i := if (i : ℕ) < input.ssidLength then byteAt input.ssid i else 0
  ies i := if (i : ℕ) < input.ieLength then byteAt input.ies i else 0

/-! ## Order of entries -/

/-- The byte loop of `precedes`. -/
def precedesBytes : List UInt8 → List UInt8 → Bool
  | x :: xs, y :: ys => if x ≠ y then decide (x < y) else precedesBytes xs ys
  | _, _ => false

def precedes (a b : Entry) : Bool :=
  if a.channel.band ≠ b.channel.band then
    decide (a.channel.band.value < b.channel.band.value)
  else if a.channel.number ≠ b.channel.number then
    decide (a.channel.number < b.channel.number)
  else
    precedesBytes (List.ofFn a.bssid) (List.ofFn b.bssid)

/-- The sort of `finish`: the first `n` indices, inserted one after the other. -/
def sortIndices (entries : ℕ → Entry) (order : ℕ → UInt8) : ℕ → ℕ → UInt8
  | 0 => order
  | i + 1 =>
      sink (fun k => precedes (entries i) (entries k.toNat)) (UInt8.ofNat i)
        (sortIndices entries order i) i

/-! ## The class -/

namespace Store

def bank (s : Store) : Bank := s.banks s.working

def setBank (s : Store) (b : Bank) : Store :=
  { s with banks := Function.update s.banks s.working b }

def completed (s : Store) : Option Summary :=
  if s.hasPublished then some (s.banks s.published).summary else none

def completedEntry (s : Store) (index : ℕ) : Option Entry :=
  if !s.hasPublished || decide ((s.banks s.published).summary.count ≤ index) then
    none
  else
    some ((s.banks s.published).entries ((s.banks s.published).order index).toNat)

def completedChannel (s : Store) (index : ℕ) : Option Channel :=
  if s.hasPublished && decide (index < (s.banks s.published).summary.channelCount) then
    some ((s.banks s.published).channels index)
  else
    none

def current (s : Store) (token : Token) : Bool :=
  s.status.active && decide (token = s.status.token)

/-- The first index of a planned channel; `none` is `maxChannels`. -/
def channelIndex (s : Store) (channel : Channel) : Option ℕ :=
  (List.range s.status.plannedChannels).find? fun i => decide (channel = s.bank.channels i)

/-- `rejected`: the counter stops at its maximum. -/
def reject (s : Store) : Store :=
  if s.status.rejected ≠ 0xffffffff then
    { s with status := { s.status with rejected := s.status.rejected + 1 } }
  else
    s

/-- A cleared bank, and a scan that knows only its token. -/
def begun (s : Store) (token : Token) : Store :=
  { s.setBank {} with status := { token := token, active := true }, completedMask := 0 }

def begin (s : Store) (generation epoch : UInt64) : Bool × Store :=
  if s.status.active || generation == 0 || epoch == 0 || decide (epoch < s.status.token.epoch) ||
      (epoch == s.status.token.epoch && decide (generation ≤ s.status.token.generation)) then
    (false, s)
  else
    (true, s.begun ⟨generation, epoch⟩)

/-- The two nested loops of `plan`. -/
def validPlan : List Channel → Bool
  | [] => true
  | c :: cs => c.valid && validPlan cs && !cs.contains c

def withPlan (s : Store) (cs : List Channel) : Store :=
  { s.setBank { s.bank with
      channels := fun i => if i < cs.length then cs.getD i {} else s.bank.channels i } with
    status := { s.status with plannedChannels := cs.length, planned := true } }

/-- The plan, and how many channels it has; `none` is the null pointer. -/
def plan (s : Store) (token : Token) (channels : Option (List Channel)) : Bool × Store :=
  match channels with
  | none => (false, s)
  | some cs =>
      if !s.current token || s.status.planned || cs.isEmpty || decide (maxChannels < cs.length) ||
          !validPlan cs then
        (false, s)
      else
        (true, s.withPlan cs)

/-- The search of `add`: the first entry with this key. -/
def find (s : Store) (input : Input) : Option ℕ :=
  (List.range s.status.count).find? fun i =>
    decide (input.channel = (s.bank.entries i).channel) &&
      decide (input.entry.bssid = (s.bank.entries i).bssid)

def write (s : Store) (index : ℕ) (e : Entry) : Store :=
  s.setBank { s.bank with entries := Function.update s.bank.entries index e }

def append (s : Store) (e : Entry) : Store :=
  { s.write s.status.count e with status := { s.status with count := s.status.count + 1 } }

def overflowed (s : Store) : Store :=
  { s with status := { s.status with overflow := true } }

def truncated (s : Store) : Store :=
  { s with status := { s.status with truncatedInput := true } }

def add (s : Store) (token : Token) (input : Input) : AddResult × Store :=
  if !s.current token then
    (.stale, s)
  else if !s.status.planned || (s.channelIndex input.channel).isNone then
    (.unplanned, s)
  else if s.status.overflow then
    (.overflow, s)
  else if s.status.truncatedInput then
    (.truncated, s)
  else if input.ieLength ≠ input.originalIeLength then
    (.truncated, s.truncated.reject)
  else if maxIeBytes < input.ieLength then
    (.overflow, s.overflowed.reject)
  else if !input.acceptable then
    (.invalid, s.reject)
  else
    match s.find input with
    | some index =>
        if input.observedAtUs ≤ (s.bank.entries index).observedAtUs then
          (.unchanged, s)
        else
          (.replaced, s.write index input.entry)
    | none =>
        if s.status.count = maxNetworks then
          (.overflow, s.overflowed.reject)
        else
          (.added, s.append input.entry)

def marked (s : Store) (index : ℕ) : Store :=
  { s with
    completedMask := s.completedMask ||| 1 <<< index
    status := { s.status with completedChannels := s.status.completedChannels + 1 } }

def channelFinished (s : Store) (token : Token) (channel : Channel) : Bool × Store :=
  if !s.current token || !s.status.planned then
    (false, s)
  else
    match s.channelIndex channel with
    | none => (false, s)
    | some index =>
        if s.completedMask.testBit index then
          (true, s)
        else
          (true, s.marked index)

/-- The working bank with its order and its summary. -/
def finished (s : Store) (token : Token) (completedAtUs : UInt64) : Bank :=
  { s.bank with
    order := sortIndices s.bank.entries s.bank.order s.status.count
    summary :=
      { token := token, completedAtUs := completedAtUs, count := s.status.count
        channelCount := s.status.plannedChannels, rejected := s.status.rejected } }

/-- The scan has ended without a snapshot. -/
def inactive (s : Store) : Store := { s with status := { s.status with active := false } }

def publish (s : Store) (token : Token) (completedAtUs : UInt64) : Store :=
  { s.setBank (s.finished token completedAtUs) with
    published := s.working
    working := s.working ^^^ 1
    hasPublished := true
    status := { s.status with active := false } }

def finish (s : Store) (token : Token) (scope : Completion) (completedAtUs : UInt64) :
    FinishResult × Store :=
  if !s.current token then
    (.stale, s)
  else if scope ≠ .fullScan ∨ !s.status.planned ∨
      s.status.completedChannels ≠ s.status.plannedChannels then
    (.incomplete, s)
  else if s.status.overflow ∨ s.status.truncatedInput then
    (.loss, s.inactive)
  else if s.hasPublished ∧ completedAtUs < (s.banks s.published).summary.completedAtUs then
    (.invalidTime, s)
  else if (List.range s.status.count).any fun i =>
      decide (completedAtUs < (s.bank.entries i).observedAtUs) then
    (.invalidTime, s)
  else
    (.published, s.publish token completedAtUs)

def cancelled (s : Store) : Store :=
  { s.setBank {} with status := { s.status with active := false, cancelled := true } }

def cancel (s : Store) (token : Token) : Bool × Store :=
  if !s.current token then
    (false, s)
  else
    (true, s.cancelled)

end Store

/-! ## Calls -/

inductive Op
  | begin (generation epoch : UInt64)
  | plan (token : Token) (channels : Option (List Channel))
  | add (token : Token) (input : Input)
  | channelFinished (token : Token) (channel : Channel)
  | finish (token : Token) (scope : Completion) (completedAtUs : UInt64)
  | cancel (token : Token)

inductive Result
  | flag (ok : Bool)
  | add (r : AddResult)
  | finish (r : FinishResult)
  deriving DecidableEq

def apply : Op → Store → Result × Store
  | .begin generation epoch, s => ((s.begin generation epoch).map .flag id)
  | .plan token channels, s => ((s.plan token channels).map .flag id)
  | .add token input, s => ((s.add token input).map .add id)
  | .channelFinished token channel, s => ((s.channelFinished token channel).map .flag id)
  | .finish token scope completedAtUs, s => ((s.finish token scope completedAtUs).map .finish id)
  | .cancel token, s => ((s.cancel token).map .flag id)

/-- The store asks nothing of its environment. -/
abbrev NoCall (call : Empty) : Type := call.elim

def exec (op : Op) : Code Store Empty NoCall Empty Result := Code.direct (apply op)

abbrev Record := Interaction.Record Store Empty NoCall Empty Op Result

/-- Any calls, with any arguments, from a fresh store. -/
abbrev Run : List Record → Store → Prop := Interaction.Run exec {}

/-! ## What a call can do -/

def Token.Before (a b : Token) : Prop :=
  a.epoch < b.epoch ∨ (a.epoch = b.epoch ∧ a.generation < b.generation)

theorem Token.Before.trans {a b c : Token} (hab : a.Before b) (hbc : b.Before c) : a.Before c := by
  rcases hab with hab | ⟨hab, hab'⟩
  · rcases hbc with hbc | ⟨hbc, -⟩
    · exact Or.inl (UInt64.lt_trans hab hbc)
    · exact Or.inl (hbc ▸ hab)
  · rcases hbc with hbc | ⟨hbc, hbc'⟩
    · exact Or.inl (hab ▸ hbc)
    · exact Or.inr ⟨hab.trans hbc, UInt64.lt_trans hab' hbc'⟩

/-- What makes an observation usable. -/
structure Input.WellFormed (input : Input) : Prop where
  complete : input.ieLength = input.originalIeLength
  fits : input.ieLength ≤ maxIeBytes
  acceptable : input.acceptable = true

instance (input : Input) : Decidable input.WellFormed :=
  decidable_of_iff (input.ieLength = input.originalIeLength ∧ input.ieLength ≤ maxIeBytes ∧
    input.acceptable = true) ⟨fun h => ⟨h.1, h.2.1, h.2.2⟩, fun h => ⟨h.1, h.2, h.3⟩⟩

namespace Store

variable {s s' : Store} {token : Token} {input : Input} {channel : Channel}

theorem current_iff : s.current token = true ↔ s.status.active = true ∧ token = s.status.token := by
  simp [current]

def channels (s : Store) : List Channel := cells s.bank.channels s.status.plannedChannels

def entries (s : Store) : List Entry := cells s.bank.entries s.status.count

theorem channelIndex_eq_some {i : ℕ} (h : s.channelIndex channel = some i) :
    i < s.status.plannedChannels ∧ s.bank.channels i = channel := by
  refine ⟨?_, ?_⟩
  · simpa using List.mem_of_find?_eq_some h
  · simpa [eq_comm] using List.find?_some h

theorem channelIndex_eq_none (h : s.channelIndex channel = none) : channel ∉ s.channels := by
  rw [channels, mem_cells]
  rintro ⟨i, hi, hc⟩
  have hne := List.find?_eq_none.1 h i (by simpa using hi)
  simp [hc] at hne

/-- `begin`. -/
inductive Begun (s : Store) (token : Token) : Bool → Store → Prop
  | refused : Begun s token false s
  | accepted (hidle : s.status.active = false) (hlater : s.status.token.Before token) :
      Begun s token true (s.begun token)

theorem begin_cases {generation epoch : UInt64} {ok : Bool}
    (hout : s.begin generation epoch = (ok, s')) : Begun s ⟨generation, epoch⟩ ok s' := by
  rcases Prod.ext_iff.1 hout with ⟨rfl, rfl⟩
  unfold begin
  split
  · exact .refused
  · next hno =>
    simp only [Bool.or_eq_true, Bool.and_eq_true, beq_iff_eq, decide_eq_true_eq, not_or,
      not_and, UInt64.not_lt, UInt64.not_le] at hno
    rcases hno with ⟨⟨⟨⟨hidle, -⟩, -⟩, hepoch⟩, hgeneration⟩
    refine .accepted (by simpa using hidle) ?_
    by_cases he : epoch = s.status.token.epoch
    · exact Or.inr ⟨he.symm, hgeneration he⟩
    · exact Or.inl (UInt64.lt_of_le_of_ne hepoch (Ne.symm he))

/-- `plan`. -/
inductive Planned (s : Store) (token : Token) (cs : Option (List Channel)) : Bool → Store → Prop
  | refused : Planned s token cs false s
  | accepted {channels : List Channel} (hcs : cs = some channels)
      (hcurrent : s.current token = true) (hfirst : s.status.planned = false)
      (hne : channels ≠ []) (hmax : channels.length ≤ maxChannels)
      (hvalid : validPlan channels = true) : Planned s token cs true (s.withPlan channels)

theorem plan_cases {cs : Option (List Channel)} {ok : Bool}
    (hout : s.plan token cs = (ok, s')) : Planned s token cs ok s' := by
  rcases Prod.ext_iff.1 hout with ⟨rfl, rfl⟩
  unfold plan
  split
  · exact .refused
  · next channels =>
    split
    · exact .refused
    · next hno =>
      simp only [Bool.or_eq_true, not_or, Bool.not_eq_true, Bool.not_eq_eq_eq_not,
        Bool.not_true, decide_eq_true_eq, not_lt, List.isEmpty_iff, Bool.not_eq_false] at hno
      rcases hno with ⟨⟨⟨⟨hcurrent, hfirst⟩, hne⟩, hmax⟩, hvalid⟩
      exact .accepted rfl hcurrent hfirst hne hmax hvalid

/-- `add`.  A scan that has lost an observation keeps one of the two flags. -/
inductive Added (s : Store) (token : Token) (input : Input) : AddResult → Store → Prop
  | stale (hstale : s.current token = false) : Added s token input .stale s
  | unplanned (hcurrent : s.current token = true)
      (hplan : s.status.planned = true → input.channel ∉ s.channels) :
      Added s token input .unplanned s
  | lost {r : AddResult} (overflow truncated : Bool) (rejected : UInt32)
      (hcurrent : s.current token = true) (hr : r = .overflow ∨ r = .truncated)
      (hflag : overflow = true ∨ truncated = true) :
      Added s token input r { s with status := { s.status with
        overflow := overflow, truncatedInput := truncated, rejected := rejected } }
  | invalid {rejected : UInt32} (hcurrent : s.current token = true) (hno : ¬ input.WellFormed) :
      Added s token input .invalid
        { s with status := { s.status with rejected := rejected } }
  | unchanged {i : ℕ} (hcurrent : s.current token = true) (hplan : s.status.planned = true)
      (hchannel : input.channel ∈ s.channels) (hok : input.WellFormed)
      (hfind : s.find input = some i)
      (hold : input.observedAtUs ≤ (s.bank.entries i).observedAtUs) :
      Added s token input .unchanged s
  | replaced {i : ℕ} (hcurrent : s.current token = true) (hplan : s.status.planned = true)
      (hchannel : input.channel ∈ s.channels) (hok : input.WellFormed)
      (hfind : s.find input = some i)
      (hnew : ¬ input.observedAtUs ≤ (s.bank.entries i).observedAtUs) :
      Added s token input .replaced (s.write i input.entry)
  | added (hcurrent : s.current token = true) (hplan : s.status.planned = true)
      (hchannel : input.channel ∈ s.channels) (hok : input.WellFormed)
      (hfind : s.find input = none) (hroom : s.status.count ≠ maxNetworks) :
      Added s token input .added (s.append input.entry)

theorem reject_eq (s : Store) :
    ∃ n, s.reject = { s with status := { s.status with rejected := n } } := by
  unfold reject
  split
  · exact ⟨_, rfl⟩
  · exact ⟨s.status.rejected, rfl⟩

theorem add_cases {r : AddResult} (hout : s.add token input = (r, s')) :
    Added s token input r s' := by
  rcases Prod.ext_iff.1 hout with ⟨rfl, rfl⟩
  unfold add
  split
  · next hstale => exact .stale (by simpa using hstale)
  · next hnow =>
    have hcurrent : s.current token = true := by simpa using hnow
    split
    · next hplan =>
      refine .unplanned hcurrent fun hp => ?_
      rw [hp] at hplan
      exact channelIndex_eq_none (by simpa using hplan)
    · next hplan =>
      simp only [Bool.or_eq_true, not_or, Bool.not_eq_eq_eq_not, Bool.not_true,
        Bool.not_eq_false, Option.isNone_iff_eq_none] at hplan
      rcases hplan with ⟨hplan, hindex⟩
      have hchannel : input.channel ∈ s.channels := by
        rcases Option.ne_none_iff_exists'.1 hindex with ⟨i, hi⟩
        rcases channelIndex_eq_some hi with ⟨hlt, hc⟩
        exact mem_cells.2 ⟨i, hlt, hc⟩
      split
      · next hflag =>
        exact .lost _ s.status.truncatedInput s.status.rejected hcurrent (Or.inl rfl) (Or.inl hflag)
      split
      · next hflag =>
        exact .lost s.status.overflow _ s.status.rejected hcurrent (Or.inr rfl) (Or.inr hflag)
      split
      · rcases reject_eq s.truncated with ⟨n, hn⟩
        rw [hn]
        exact .lost _ _ _ hcurrent (Or.inr rfl) (Or.inr rfl)
      split
      · rcases reject_eq s.overflowed with ⟨n, hn⟩
        rw [hn]
        exact .lost _ _ _ hcurrent (Or.inl rfl) (Or.inl rfl)
      next hcomplete hfits =>
      split
      · next hbad =>
        rcases reject_eq s with ⟨n, hn⟩
        rw [hn]
        refine .invalid hcurrent fun hok => ?_
        simp [hok.acceptable] at hbad
      next hgood =>
      have hok : input.WellFormed :=
        ⟨not_not.1 hcomplete, not_lt.1 hfits, by simpa using hgood⟩
      split
      · next i hfind =>
        split
        · next hold => exact .unchanged hcurrent hplan hchannel hok hfind hold
        · next hnew => exact .replaced hcurrent hplan hchannel hok hfind hnew
      · next hfind =>
        split
        · rcases reject_eq s.overflowed with ⟨n, hn⟩
          rw [hn]
          exact .lost _ _ _ hcurrent (Or.inl rfl) (Or.inl rfl)
        · next hroom => exact .added hcurrent hplan hchannel hok hfind hroom

/-- `channelFinished`. -/
inductive Marked (s : Store) (token : Token) (channel : Channel) : Bool → Store → Prop
  | refused : Marked s token channel false s
  | again {i : ℕ} (hcurrent : s.current token = true) (hplan : s.status.planned = true)
      (hindex : s.channelIndex channel = some i) (hbit : s.completedMask.testBit i = true) :
      Marked s token channel true s
  | first {i : ℕ} (hcurrent : s.current token = true) (hplan : s.status.planned = true)
      (hindex : s.channelIndex channel = some i) (hbit : s.completedMask.testBit i = false) :
      Marked s token channel true (s.marked i)

theorem channelFinished_cases {ok : Bool} (hout : s.channelFinished token channel = (ok, s')) :
    Marked s token channel ok s' := by
  rcases Prod.ext_iff.1 hout with ⟨rfl, rfl⟩
  unfold channelFinished
  split
  · exact .refused
  · next hno =>
    simp only [Bool.or_eq_true, not_or, Bool.not_eq_eq_eq_not, Bool.not_true,
      Bool.not_eq_false] at hno
    split
    · exact .refused
    · next i hindex =>
      split
      · next hbit => exact .again hno.1 hno.2 hindex hbit
      · next hbit => exact .first hno.1 hno.2 hindex (by simpa using hbit)

/-- `finish`. -/
inductive Finished (s : Store) (token : Token) (completedAtUs : UInt64) :
    FinishResult → Store → Prop
  | refused {r : FinishResult} (hr : r ≠ .published) : Finished s token completedAtUs r s
  | loss (hcurrent : s.current token = true) : Finished s token completedAtUs .loss s.inactive
  | published (hcurrent : s.current token = true) (hplan : s.status.planned = true)
      (hall : s.status.completedChannels = s.status.plannedChannels)
      (hoverflow : s.status.overflow = false) (htruncated : s.status.truncatedInput = false)
      (hlater : s.hasPublished = true →
        (s.banks s.published).summary.completedAtUs ≤ completedAtUs)
      (hpast : ∀ e ∈ s.entries, e.observedAtUs ≤ completedAtUs) :
      Finished s token completedAtUs .published (s.publish token completedAtUs)

theorem finish_cases {scope : Completion} {completedAtUs : UInt64} {r : FinishResult}
    (hout : s.finish token scope completedAtUs = (r, s')) : Finished s token completedAtUs r s' := by
  rcases Prod.ext_iff.1 hout with ⟨rfl, rfl⟩
  unfold finish
  split
  · exact .refused nofun
  split
  · exact .refused nofun
  next hnow hscope =>
  have hcurrent : s.current token = true := by simpa using hnow
  split
  · exact .loss hcurrent
  split
  · exact .refused nofun
  split
  · exact .refused nofun
  next hflags htime hpast =>
  simp only [not_or, not_not, Bool.not_eq_eq_eq_not, Bool.not_true, Bool.not_eq_false] at hscope
  simp only [not_or, Bool.not_eq_true] at hflags
  refine .published hcurrent hscope.2.1 hscope.2.2 hflags.1 hflags.2 ?_ ?_
  · intro hpub
    exact UInt64.not_lt.1 fun hlt => htime ⟨hpub, hlt⟩
  · intro e he
    rcases mem_cells.1 he with ⟨i, hi, rfl⟩
    simp only [List.any_eq_true, List.mem_range, decide_eq_true_eq, not_exists, not_and] at hpast
    exact UInt64.not_lt.1 (hpast i hi)

/-- `cancel`. -/
inductive Cancelled (s : Store) (token : Token) : Bool → Store → Prop
  | refused (hstale : s.current token = false) : Cancelled s token false s
  | accepted (hcurrent : s.current token = true) : Cancelled s token true s.cancelled

theorem cancel_cases {ok : Bool} (hout : s.cancel token = (ok, s')) : Cancelled s token ok s' := by
  rcases Prod.ext_iff.1 hout with ⟨rfl, rfl⟩
  unfold cancel
  split
  · next hstale => exact .refused (by simpa using hstale)
  · next hcurrent => exact .accepted (by simpa using hcurrent)

end Store

end NativeScan
end Rtl8852be
