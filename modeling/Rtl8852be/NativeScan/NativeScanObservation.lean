import Rtl8852be.NativeScan.Contents

/-!
# NativeScanObservation — passes over the planned channels

`NativeScanObservation.hpp`.  The observer follows the dwells of an existing radio scan.  A pass owns one
scan of the store: it is opened with a plan, every planned channel is accepted and finished once, with a
`DwellToken` of its own, and beacons are recorded for the channel whose dwell is pending.  Whatever does
not fit blocks the pass, and a blocked pass publishes nothing.
-/

namespace Rtl8852be
namespace NativeScan

open Interaction Sequence

/-! ## Frames -/

/-- The elements seen so far.  The name is given by its place and its length. -/
structure Seen where
  ssid : Option (ℕ × ℕ) := none
  rates : Bool := false
  ds : Bool := false
  ht : Bool := false
  rsn : Bool := false
  wpa : Bool := false

/-- One element, whose body begins at `offset`. -/
def Seen.element (seen : Seen) (frame : ℕ → UInt8) (channel : Channel) (tag : UInt8)
    (offset length : ℕ) : Option Seen :=
  if tag = 0 then
    if seen.ssid.isSome ∨ 32 < length then none else some { seen with ssid := some (offset, length) }
  else if tag = 1 then
    if seen.rates ∨ length = 0 ∨ 8 < length then none else some { seen with rates := true }
  else if tag = 3 then
    if seen.ds ∨ length ≠ 1 ∨ frame offset ≠ channel.number then none
    else some { seen with ds := true }
  else if tag = 61 then
    if seen.ht ∨ length ≠ 22 ∨ frame offset ≠ channel.number then none
    else some { seen with ht := true }
  else if tag = 48 then
    if seen.rsn then none else some { seen with rsn := true }
  else if tag = 221 ∧ 4 ≤ length ∧ frame offset = 0 ∧ frame (offset + 1) = 0x50 ∧
      frame (offset + 2) = 0xf2 ∧ frame (offset + 3) = 1 then
    if seen.wpa then none else some { seen with wpa := true }
  else if tag = 255 ∧ length = 0 then
    none
  else
    some seen

/-- The loop over the elements.  A round passes at least two bytes, so `frameBytes` rounds are enough. -/
def elementsFrom (frame : ℕ → UInt8) (frameBytes : ℕ) (channel : Channel) :
    ℕ → ℕ → Seen → Option Seen
  | 0, _, seen => some seen
  | rounds + 1, offset, seen =>
      if frameBytes ≤ offset then
        some seen
      else if frameBytes - offset < 2 then
        none
      else
        let tag := frame offset
        let length := (frame (offset + 1)).toNat
        if frameBytes - (offset + 2) < length then
          none
        else
          match seen.element frame channel tag (offset + 2) length with
          | none => none
          | some seen => elementsFrom frame frameBytes channel rounds (offset + 2 + length) seen

/-- The fixed part of a beacon or probe response. -/
def headerAccepted (frame : ℕ → UInt8) : Bool :=
  let broadcast := (List.range 6).all fun i => frame (4 + i) == 0xff
  (frame 0 &&& 0x0f) == 0 && (frame 0 == 0x80 || frame 0 == 0x50) &&
    (frame 1 &&& (0x03 ||| 0x04 ||| 0x40 ||| 0x80)) == 0 && (frame 22 &&& 0x0f) == 0 &&
    ((List.range 6).all fun i => frame (10 + i) == frame (16 + i)) &&
    ((List.range 6).any fun i => frame (16 + i) != 0) && (frame 16 &&& 1) == 0 &&
    ((List.range 6).any fun i => frame (4 + i) != 0) &&
    !((frame 4 &&& 1) != 0 && !broadcast) && !(frame 0 == 0x80 && !broadcast)

def little16 (frame : ℕ → UInt8) (offset : ℕ) : UInt16 :=
  (frame offset).toUInt16 ||| ((frame (offset + 1)).toUInt16 <<< 8)

/-- `advertisement`: the observation a frame stands for.  Its pointers are borrowed from the frame. -/
def advertisement (frame : Option (ℕ → UInt8)) (frameBytes : ℕ) (channel : Channel) (signal : Signal)
    (nowUs : UInt64) : Option Input :=
  match frame with
  | none => none
  | some bytes =>
      if frameBytes < 36 ∨ !channel.valid ∨ !signal.valid ∨ !headerAccepted bytes then
        none
      else
        match elementsFrom bytes frameBytes channel frameBytes 36 {} with
        | none => none
        | some seen =>
            match seen.ssid with
            | none => none
            | some (offset, length) =>
                if !seen.rates then
                  none
                else
                  some
                    { bssid := some fun i => bytes (16 + i)
                      ssid := some fun i => bytes (offset + i)
                      ssidLength := length
                      ies := some fun i => bytes (36 + i)
                      ieLength := frameBytes - 36
                      originalIeLength := frameBytes - 36
                      channel := channel
                      signal := signal
                      observedAtUs := nowUs
                      beaconInterval := little16 bytes 32
                      capability := little16 bytes 34 }

/-! ## The class -/

structure DwellToken where
  epoch : UInt64 := 0
  operation : UInt64 := 0
  deriving DecidableEq, Repr

structure Observer where
  store : Store := {}
  plan : ℕ → Channel := fun _ => {}
  planCount : ℕ := 0
  epoch : UInt64 := 0
  generation : UInt64 := 0
  completedMask : ℕ := 0
  lastOperation : UInt64 := 0
  pass : Token := {}
  dwell : DwellToken := {}
  dwellChannel : Channel := {}
  mode : Int32 := 0
  activeMode : Bool := false
  isOpen : Bool := false
  blocked : Bool := false
  pending : Bool := false

namespace Observer

/-- The first index of a planned channel; `none` is `maxChannels`. -/
def index (o : Observer) (channel : Channel) : Option ℕ :=
  (List.range o.planCount).find? fun i => decide (channel = o.plan i)

/-- `if (store_.status().active) store_.cancel(pass_);` -/
def drop (o : Observer) : Observer :=
  if o.store.status.active then { o with store := (o.store.cancel o.pass).2 } else o

def block (o : Observer) : Observer :=
  { o.drop with blocked := true, pending := false, dwell := {} }

def cancel (o : Observer) : Observer :=
  { o.drop with isOpen := false, blocked := false, pending := false, dwell := {}, planCount := 0 }

/-- A new epoch starts its generations and operations afresh. -/
def enterEpoch (o : Observer) (epoch : UInt64) : Observer :=
  if epoch ≠ o.epoch then { o with epoch := epoch, generation := 0, lastOperation := 0 } else o

def nextPass (o : Observer) (epoch : UInt64) (mode : Int32) (active : Bool) : Observer :=
  { o with
    generation := o.generation + 1
    pass := ⟨o.generation + 1, epoch⟩
    mode := mode
    activeMode := active }

/-- `begin` when the store has taken the scan. -/
def opened (o : Observer) (store : Store) (channels : List Channel) : Observer :=
  { o with
    store := store
    plan := fun i => if i < channels.length then channels.getD i {} else o.plan i
    planCount := channels.length }

/-- What `begin` resets before it looks at its arguments. -/
def reopened (o : Observer) : Observer :=
  { o with
    isOpen := true, blocked := false, pending := false, dwell := {}, completedMask := 0
    planCount := 0 }

def begin (o : Observer) (epoch : UInt64) (mode : Int32) (active : Bool)
    (plan : Option (List Channel)) : Bool × Observer :=
  if o.isOpen then
    (false, o)
  else if epoch = 0 ∨ epoch < o.epoch then
    (false, o.reopened.block)
  else if (o.reopened.enterEpoch epoch).generation = 0xffffffffffffffff then
    (false, (o.reopened.enterEpoch epoch).block)
  else
    let o := (o.reopened.enterEpoch epoch).nextPass epoch mode active
    match o.store.begin o.pass.generation o.pass.epoch with
    | (false, store) => (false, { o with store := store }.block)
    | (true, store) =>
        match store.plan o.pass plan with
        | (false, store) => (false, { o with store := store }.block)
        | (true, store) => (true, o.opened store (plan.getD []))

def channelAccepted (o : Observer) (epoch : UInt64) (mode : Int32) (active : Bool)
    (channel : Channel) (operation : DwellToken) : Bool × Observer :=
  if !o.isOpen || o.blocked then
    (false, o)
  else
    match o.index channel with
    | none => (false, o.block)
    | some i =>
        if o.pending ∨ epoch ≠ o.pass.epoch ∨ mode ≠ o.mode ∨ active ≠ o.activeMode ∨
            operation.epoch ≠ o.pass.epoch ∨ operation.operation ≤ o.lastOperation ∨
            o.completedMask.testBit i then
          (false, o.block)
        else
          (true, { o with
            lastOperation := operation.operation
            dwell := operation
            dwellChannel := channel
            pending := true })

def observing (o : Observer) (operation : DwellToken) (channel : Channel) : Bool :=
  o.isOpen && !o.blocked && o.pending && decide (o.dwell = operation) &&
    decide (o.dwellChannel = channel)

def observe (o : Observer) (operation : DwellToken) (frame : Option (ℕ → UInt8)) (bytes : ℕ)
    (channel : Channel) (signal : Signal) (nowUs : UInt64) : Bool × Observer :=
  if !o.observing operation channel then
    (false, o)
  else
    match advertisement frame bytes channel signal nowUs with
    | none => (false, o)
    | some input =>
        let (result, store) := o.store.add o.pass input
        (result == .added || result == .replaced || result == .unchanged, { o with store := store })

def channelFinished (o : Observer) (operation : DwellToken) (cancelled : Bool) : Bool × Observer :=
  if !o.isOpen || o.blocked || !o.pending || decide (o.dwell ≠ operation) then
    (false, o)
  else if cancelled then
    (false, o.cancel)
  else
    match o.index o.dwellChannel with
    | none => (false, o.block)
    | some i =>
        match o.store.channelFinished o.pass o.dwellChannel with
        | (false, store) => (false, { o with store := store }.block)
        | (true, store) =>
            (true, { o with
              store := store
              completedMask := o.completedMask ||| 1 <<< i
              pending := false
              dwell := {} })

def finish (o : Observer) (epoch : UInt64) (mode : Int32) (active : Bool) (nowUs : UInt64) :
    Bool × Observer :=
  if !o.isOpen then
    (false, o)
  else if !o.blocked ∧ !o.pending ∧ epoch = o.pass.epoch ∧ mode = o.mode ∧ active = o.activeMode then
    let (result, store) := o.store.finish o.pass .fullScan nowUs
    (result == .published, { o with store := store }.cancel)
  else
    (false, o.cancel)

def rejectedChannel (o : Observer) : Observer := if o.isOpen then o.block else o

/-! ## Calls -/

inductive Op
  | begin (epoch : UInt64) (mode : Int32) (active : Bool) (plan : Option (List Channel))
  | channelAccepted (epoch : UInt64) (mode : Int32) (active : Bool) (channel : Channel)
      (operation : DwellToken)
  | observe (operation : DwellToken) (frame : Option (ℕ → UInt8)) (bytes : ℕ) (channel : Channel)
      (signal : Signal) (nowUs : UInt64)
  | channelFinished (operation : DwellToken) (cancelled : Bool)
  | finish (epoch : UInt64) (mode : Int32) (active : Bool) (nowUs : UInt64)
  | cancel
  | rejectedChannel

/-- `cancel` and `rejectedChannel` return nothing. -/
def apply : Op → Observer → Bool × Observer
  | .begin epoch mode active plan, o => o.begin epoch mode active plan
  | .channelAccepted epoch mode active channel operation, o =>
      o.channelAccepted epoch mode active channel operation
  | .observe operation frame bytes channel signal nowUs, o =>
      o.observe operation frame bytes channel signal nowUs
  | .channelFinished operation cancelled, o => o.channelFinished operation cancelled
  | .finish epoch mode active nowUs, o => o.finish epoch mode active nowUs
  | .cancel, o => (false, o.cancel)
  | .rejectedChannel, o => (false, o.rejectedChannel)

def exec (op : Op) : Code Observer Empty NoCall Empty Bool := Code.direct (apply op)

abbrev Record := Interaction.Record Observer Empty NoCall Empty Op Bool

/-- Any calls, with any arguments, from a fresh observer. -/
abbrev Run : List Record → Observer → Prop := Interaction.Run exec {}

theorem exec_outcome {op : Op} {o o' : Observer} {ok : Bool} {log : List (Event Empty NoCall Empty)}
    (hout : (exec op o).Outcome log (ok, o')) : apply op o = (ok, o') :=
  wp_outcome (Q := fun _ ok o' => apply op o = (ok, o')) ((Code.wp_direct _).2 rfl) hout

end Observer

end NativeScan
end Rtl8852be
