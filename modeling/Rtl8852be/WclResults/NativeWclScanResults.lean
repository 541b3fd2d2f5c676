import Rtl8852be.NativeScan.Snapshots
import Rtl8852be.WclScan.NativeWclScan
import Rtl8852be.WclResults.NativeWclBeacon

/-!
# NativeWclScanResults — sequencing the results of a scan

`NativeWclScanResults.hpp`.  The bridge turns one completed scan into a sequence of frames: a result for
each entry that the request wants, then a frame that says the scan is done.  A frame is reserved, posted by
the caller and committed; one reservation is allowed at a time.

The store and the status of the foreground scan are borrowed for each call.  Nothing says that two calls are
given the same ones.
-/

namespace Rtl8852be
namespace WclResults

open Interaction NativeScan WclBeacon

/-! ## Types -/

def resultEvent : UInt32 := scanResultEvent

def doneEvent : UInt32 := 237

def doneBytes : ℕ := 4

inductive Phase
  | idle
  | ready
  | reserved
  | completed
  | aborted
  deriving DecidableEq

inductive Status
  | ready
  | busy
  | invalidRequest
  | unsupportedProfile
  | stale
  | invalidSnapshot
  | invalidEntry
  | invalidBuffer
  | bufferTooSmall
  | frameReady
  | finished
  | aborted
  deriving DecidableEq

structure Frame where
  request : ForegroundScan.Token := {}
  snapshot : NativeScan.Token := {}
  delivery : UInt64 := 0
  event : UInt32 := 0
  bytes : ℕ := 0
  ordinal : ℕ := 0
  emissionReady : Bool := false
  deriving DecidableEq

structure Bridge where
  request : ForegroundScan.Token := {}
  lastArmed : ForegroundScan.Token := {}
  snapshot : NativeScan.Token := {}
  completedAtUs : UInt64 := 0
  delivery : UInt64 := 0
  pendingDelivery : UInt64 := 0
  indices : ℕ → UInt8 := fun _ => 0
  count : ℕ := 0
  cursor : ℕ := 0
  pendingEvent : UInt32 := 0
  pendingBytes : ℕ := 0
  phase : Phase := .idle

/-- Where the objects of a call lie.  The entries are part of the store. -/
structure Memory where
  store : Place
  bridge : Place
  request : Place
  scan : Place
  out : Place
  entry : ℕ → Place
  inside : ∀ i, store.address ≤ (entry i).address ∧
    (entry i).address + (entry i).size ≤ store.address + store.size

/-! ## Checks -/

/-- The channel loop of `validRequest`. -/
def sameChannels (request : WclScan.Request) (store : Store) : Bool :=
  (List.range request.channelCount.toNat).all fun i =>
    store.completedChannel i == some ⟨.ghz2, request.channels i⟩

def validRequest (request : WclScan.Request) (scan : ForegroundScan.Status) (store : Store) : Bool :=
  if scan.token.epoch = 0 ∨ scan.token.request = 0 ∨ scan.phase ≠ .complete ∨ scan.drained = false ∨
      scan.reason ≠ .none ∨ scan.snapshot.generation = 0 ∨ scan.snapshot.epoch ≠ scan.token.epoch ∨
      request.channelCount.toNat < 1 ∨ WclScan.maxChannels < request.channelCount.toNat ∨
      request.channelCount.toNat ≠ scan.plannedChannels ∨ scan.completedChannels ≠ scan.plannedChannels ∨
      (request.bssType ≠ .infrastructure ∧ request.bssType ≠ .any) then
    false
  else if request.mode ≠ .active ∧ request.mode ≠ .passive then
    false
  else
    let active : Bool := request.mode = .active
    if active ≠ scan.activeScan ∨
        scan.dwellMs.toUInt32 ≠ (if active then request.activeDwellMs else request.passiveDwellMs) ∨
        request.homeRestMs ≠ 0 ∨ request.homeAwayMs ≠ 0 then
      false
    else
      sameChannels request store

/-- Bit 0 of the capability is ESS and bit 1 is IBSS. -/
def eligible (entry : Entry) (type : WclScan.BssType) : Bool := type == .any || (entry.capability &&& 3) == 1

def safeBuffer (memory : Memory) (buffer : Buffer) : Bool :=
  buffer.address.isSome && !buffer.overlaps memory.store

def disjoint (memory : Memory) (buffer : Buffer) (other : Place) : Bool :=
  !buffer.overlaps memory.bridge && !buffer.overlaps other

/-- What `begin` asks of its scratch. -/
def scratchSafe (memory : Memory) (scratch : Buffer) : Bool :=
  safeBuffer memory scratch && disjoint memory scratch memory.request && !scratch.overlaps memory.scan

/-- What `reserve` asks of the place of the frame. -/
def outSafe (memory : Memory) (buffer : Buffer) : Bool :=
  !(overlaps memory.out.address memory.out.size memory.scan.address memory.scan.size ||
    overlaps memory.out.address memory.out.size memory.store.address memory.store.size ||
    overlaps memory.out.address memory.out.size memory.bridge.address memory.bridge.size ||
    buffer.address.any fun address =>
      overlaps memory.out.address memory.out.size address (if buffer.capacity = 0 then 1 else buffer.capacity))

def bufferSafe (memory : Memory) (buffer : Buffer) : Bool :=
  safeBuffer memory buffer && disjoint memory buffer memory.out && !buffer.overlaps memory.scan

namespace Bridge

def current (b : Bridge) (scan : ForegroundScan.Status) (store : Store) : Bool :=
  match store.completed with
  | none => false
  | some summary =>
      b.phase != .idle && b.request == scan.token && scan.phase == .complete && scan.drained &&
        b.snapshot == scan.snapshot && b.snapshot == summary.token && summary.completedAtUs == b.completedAtUs &&
        decide (summary.count ≤ maxNetworks)

/-! ## Operations -/

def retire (b : Bridge) : Bool × Bridge :=
  if b.phase ≠ .completed ∧ b.phase ≠ .aborted then
    (false, b)
  else
    (true,
      { b with
        request := {}
        snapshot := {}
        completedAtUs := 0
        pendingDelivery := 0
        pendingEvent := 0
        pendingBytes := 0
        count := 0
        cursor := 0
        indices := fun _ => 0
        phase := .idle })

def abort (b : Bridge) : Bridge :=
  if b.phase = .ready ∨ b.phase = .reserved then
    { b with phase := .aborted, pendingDelivery := 0, pendingEvent := 0, pendingBytes := 0 }
  else
    b

/-- The loop of `begin` with `n` entries to go from index `i` on: what stopped it, and what it selected. -/
def select (profile : TargetProfile) (type : WclScan.BssType) (store : Store) (memory : Memory)
    (scratch : Buffer) : ℕ → ℕ → ℕ → (ℕ → UInt8) → Option Status × ℕ × (ℕ → UInt8)
  | 0, _, selected, indices => (none, selected, indices)
  | n + 1, i, selected, indices =>
      match store.completedEntry i with
      | none => (some .invalidSnapshot, selected, indices)
      | some entry =>
          if eligible entry type = false then
            select profile type store memory scratch n (i + 1) selected indices
          else
            let encoded := (encode profile entry (memory.entry i) scratch).1
            if encoded.status ≠ .knownPartial ∨ encoded.emissionReady then
              (some .invalidEntry, selected, indices)
            else
              select profile type store memory scratch n (i + 1) (selected + 1)
                (Function.update indices selected (UInt8.ofNat i))

def armed (b : Bridge) (scan : ForegroundScan.Status) (completedAtUs : UInt64) (selected : ℕ)
    (indices : ℕ → UInt8) : Bridge :=
  { b with
    request := scan.token
    lastArmed := scan.token
    snapshot := scan.snapshot
    completedAtUs := completedAtUs
    indices := indices
    count := selected
    cursor := 0
    phase := .ready }

/-- The answer, and the scratch where it was written. -/
def begin (b : Bridge) (profile : TargetProfile) (profileVerified : Bool) (request : WclScan.Request)
    (scan : ForegroundScan.Status) (store : Store) (memory : Memory) (scratch : Buffer) :
    Status × Option (List UInt8) × Bridge :=
  if b.phase ≠ .idle then
    (.busy, none, b)
  else if profile ≠ .darwin24_4_0_d8b50fc2 ∨ profileVerified = false then
    (.unsupportedProfile, none, b)
  else if scratchSafe memory scratch = false then
    (.invalidBuffer, none, b)
  else if scratch.capacity < maxPayloadBytes then
    (.bufferTooSmall, some scratch.wiped, b)
  else
    match store.completed with
    | none => (.invalidSnapshot, some scratch.wiped, b)
    | some summary =>
        if summary.token ≠ scan.snapshot ∨ summary.channelCount ≠ scan.plannedChannels ∨
            maxNetworks < summary.count ∨ summary.completedAtUs < scan.startedAtUs ∨
            summary.completedAtUs ≠ scan.finishedAtUs then
          (.invalidSnapshot, some scratch.wiped, b)
        else if validRequest request scan store = false then
          (.invalidRequest, some scratch.wiped, b)
        else if scan.token.epoch < b.lastArmed.epoch ∨
            (b.lastArmed.epoch = scan.token.epoch ∧ scan.token.request ≤ b.lastArmed.request) then
          (.stale, some scratch.wiped, b)
        else
          match select profile request.bssType store memory scratch summary.count 0 0 b.indices with
          | (some refused, _, indices) => (refused, some scratch.wiped, { b with indices := indices })
          | (none, selected, indices) =>
              (.ready, some scratch.wiped, b.armed scan summary.completedAtUs selected indices)

/-- The frame that `reserve` hands out. -/
def draft (b : Bridge) (event : UInt32) (bytes : ℕ) : Frame :=
  { request := b.request
    snapshot := b.snapshot
    delivery := b.delivery + 1
    event := event
    bytes := bytes
    ordinal := b.cursor }

def produced (b : Bridge) (event : UInt32) (bytes : ℕ) : Bridge :=
  { b with
    delivery := b.delivery + 1
    pendingDelivery := b.delivery + 1
    pendingEvent := event
    pendingBytes := bytes
    phase := .reserved }

/-- The answer, `out`, and the buffer where it was written. -/
def reserve (b : Bridge) (scan : ForegroundScan.Status) (store : Store) (memory : Memory) (buffer : Buffer)
    (out : Frame) : (Status × Frame × Option (List UInt8)) × Bridge :=
  if outSafe memory buffer = false then
    ((.invalidBuffer, out, none), b)
  else if bufferSafe memory buffer = false then
    ((.invalidBuffer, {}, none), b)
  else if b.phase = .reserved then
    ((.busy, {}, none), b)
  else if b.phase = .completed then
    ((.finished, {}, none), b)
  else if b.phase = .aborted then
    ((.aborted, {}, none), b)
  else if b.phase ≠ .ready then
    ((.invalidRequest, {}, none), b)
  else if b.current scan store = false then
    ((.stale, {}, some buffer.wiped), b.abort)
  else if b.delivery = 0xffffffffffffffff then
    ((.invalidRequest, {}, some buffer.wiped), b.abort)
  else if b.cursor < b.count then
    match store.completedEntry (b.indices b.cursor).toNat with
    | none => ((.invalidSnapshot, {}, some buffer.wiped), b.abort)
    | some entry =>
        let (encoded, written) :=
          encode .darwin24_4_0_d8b50fc2 entry (memory.entry (b.indices b.cursor).toNat) buffer
        if encoded.status ≠ .knownPartial ∨ encoded.emissionReady then
          if encoded.status = .bufferTooSmall then
            ((.bufferTooSmall, {}, some written), b)
          else
            ((.invalidEntry, {}, some written), b.abort)
        else
          ((.frameReady, b.draft resultEvent encoded.payloadBytes, some written),
            b.produced resultEvent encoded.payloadBytes)
  else if buffer.capacity < doneBytes then
    ((.bufferTooSmall, {}, some buffer.wiped), b)
  else
    ((.frameReady, b.draft doneEvent doneBytes, some buffer.wiped), b.produced doneEvent doneBytes)

def settled (b : Bridge) : Bridge := { b with pendingDelivery := 0, pendingEvent := 0, pendingBytes := 0 }

def commit (b : Bridge) (frame : Frame) (accepted : Bool) (scan : ForegroundScan.Status) (store : Store) :
    Bool × Bridge :=
  if b.phase ≠ .reserved ∨ b.pendingDelivery = 0 ∨ frame.delivery ≠ b.pendingDelivery ∨
      frame.event ≠ b.pendingEvent ∨ frame.bytes ≠ b.pendingBytes ∨ frame.emissionReady = true ∨
      frame.ordinal ≠ b.cursor ∨ frame.request ≠ b.request ∨ frame.snapshot ≠ b.snapshot then
    (false, b)
  else if accepted = false ∨ b.current scan store = false then
    (false, b.abort)
  else if frame.event = doneEvent then
    (true, { b.settled with phase := .completed })
  else
    (true, { b.settled with cursor := b.cursor + 1, phase := .ready })

end Bridge

/-! ## Calls -/

inductive Op
  | begin (profile : TargetProfile) (profileVerified : Bool) (request : WclScan.Request)
      (scan : ForegroundScan.Status) (store : Store) (memory : Memory) (scratch : Buffer)
  | reserve (scan : ForegroundScan.Status) (store : Store) (memory : Memory) (buffer : Buffer) (out : Frame)
  | commit (frame : Frame) (accepted : Bool) (scan : ForegroundScan.Status) (store : Store)
  | abort
  | retire

inductive Result
  | begun (status : Status) (scratch : Option (List UInt8))
  | reserved (status : Status) (out : Frame) (buffer : Option (List UInt8))
  | flag (ok : Bool)
  | nothing
  deriving DecidableEq

def apply : Op → Bridge → Result × Bridge
  | .begin profile profileVerified request scan store memory scratch, b =>
      let (status, written, b') := b.begin profile profileVerified request scan store memory scratch
      (.begun status written, b')
  | .reserve scan store memory buffer out, b =>
      let ((status, frame, written), b') := b.reserve scan store memory buffer out
      (.reserved status frame written, b')
  | .commit frame accepted scan store, b => (b.commit frame accepted scan store).map .flag id
  | .abort, b => (.nothing, b.abort)
  | .retire, b => b.retire.map .flag id

def exec (op : Op) : Code Bridge Empty NoCall Empty Result := Code.direct (apply op)

abbrev Record := Interaction.Record Bridge Empty NoCall Empty Op Result

/-- Any calls, with any arguments, from a new bridge. -/
abbrev Run : List Record → Bridge → Prop := Interaction.Run exec {}

theorem exec_outcome {op : Op} {b b' : Bridge} {result : Result} {log : List (Event Empty NoCall Empty)}
    (hout : (exec op b).Outcome log (result, b')) : apply op b = (result, b') :=
  wp_outcome (Q := fun _ result b' => apply op b = (result, b')) ((Code.wp_direct _).2 rfl) hout

end WclResults
end Rtl8852be
