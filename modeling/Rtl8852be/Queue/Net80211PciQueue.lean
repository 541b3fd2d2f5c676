import Rtl8852be.Queue.TxOwnership
import Rtl8852be.Wire.Descriptors

/-!
# Net80211PciQueue — a transmit ring that owns prepared frames

`Net80211PciQueue`, and the encoder of `PciDataPath.hpp` it uses.  A frame is described in four places
with indices of their own: the lease array, the page mappings, the ring of buffer descriptors and the
ledger.  The ledger's cookie of a page is the address of the lease slot with the same number, so cookies
are slot numbers here.  What the packet buffers of the system answer is an argument, and the leases
handed to `releaseTx` are a result.
-/

namespace Rtl8852be
namespace Queue

open Network

/-! ## The wire -/

/-- A work descriptor page and the buffer descriptor that points to it. -/
structure TxWire where
  wd : List UInt8
  bd : List UInt8
  deriving DecidableEq

/-- `encodePciTx`: one frame of one page. -/
def encodePciTx (info : TxInfo) (page : UInt16) (wdDma frameDma : ℕ) :
    Except DescriptorStatus TxWire :=
  if page > 0x7fff ∨ dataChannel info.qsel < 0 ∨ info.chDma.toNat ≠ dataChannel info.qsel then
    .error .unrepresentable
  else
    let wdBytes := (if info.enWdInfo then 48 else 24) + 16
    if !dma32Range wdDma wdBytes ∨ !dma32Range frameDma info.pktSize.toNat then
      .error .invalidLength
    else
      match encodeTx info 64 with
      | .error e => .error e
      | .ok body =>
          .ok
            { wd := body ++ store16 (page ||| 0x8000) ++ store16 0 ++ store32 0 ++
                store16 info.pktSize ++ store16 0x8001 ++ store32 frameDma.toUInt32
              bd := store16 wdBytes.toUInt16 ++ store16 0x4000 ++ store32 wdDma.toUInt32 }

/-! ## The queue -/

/-- A frame and the node it goes to; `frame` and `node` are pointers. -/
structure TxLease where
  frame : ℕ
  node : ℕ
  bytes : ℕ
  deriving DecidableEq, Repr

structure TxCounters where
  completed : ℕ := 0
  acked : ℕ := 0
  retryLimit : ℕ := 0
  expired : ℕ := 0
  dropped : ℕ := 0
  polluted : ℕ := 0
  rejectedReports : ℕ := 0
  deriving DecidableEq, Repr

/-- The two mappings of a page and what they hold. -/
structure TxPage where
  descriptor : DataMapping := {}
  frame : DataMapping := {}
  wd : List UInt8 := []
  data : List UInt8 := []
  deriving DecidableEq

/-- `Net80211PciQueue::count`. -/
def pciRing : RingSize where
  count := 64
  two_le := by decide
  le_max := by decide

/-- Pages and ring descriptors are numbered; `attached` is `ic_ != nullptr`.  A lease slot that holds
nothing is `none`. -/
structure Net80211PciQueue where
  attached : Bool := false
  channel : UInt8 := 0
  ring : ℕ → List UInt8 := fun _ => []
  pages : ℕ → TxPage := fun _ => {}
  leases : ℕ → Option TxLease := fun _ => none
  ownership : TxOwnership ℕ := {}
  counters : TxCounters := {}

/-- What the packet buffers of the system answer to `stage`: the length of the packet, whether it could
be copied, and the bytes that are in the frame mapping after the attempt. -/
structure StageReply where
  packetLength : ℕ
  copied : Bool
  data : List UInt8
  deriving DecidableEq

/-- A staged frame: the page it uses and the producer to publish. -/
structure Staged where
  page : UInt16
  nextProducer : UInt16
  deriving DecidableEq

namespace Net80211PciQueue

def outstanding (q : Net80211PciQueue) : ℕ := q.ownership.outstanding

def full (q : Net80211PciQueue) : Bool := !q.attached || (q.ownership.peek pciRing).1 != .ok

/-- The queue after the frame of a page has been copied, and its descriptor written. -/
def written (q : Net80211PciQueue) (page : ℕ) (wd data : List UInt8) : Net80211PciQueue :=
  let mapped : TxPage := { q.pages page with wd := overwrite wd (q.pages page).wd, data := data }
  { q with pages := Function.update q.pages page mapped }

/-- `stage`: an error or the staged frame, the caller's lease afterwards, and the queue. -/
def stage (lease : Option TxLease) (info : TxInfo) (reply : StageReply) (q : Net80211PciQueue) :
    Except Errno Staged × Option TxLease × Net80211PciQueue :=
  if !q.attached then
    (.error .enetdown, lease, q)
  else
    match lease with
    | none => (.error .einval, none, q)
    | some frame =>
        if frame.bytes ≠ reply.packetLength ∨ frame.bytes = 0 ∨ 16383 < frame.bytes ∨
            info.pktSize.toNat ≠ frame.bytes ∨ info.chDma ≠ q.channel then
          (.error .einval, some frame, q)
        else
          match q.ownership.peek pciRing with
          | (.ok, some ticket) =>
              let slot := ticket.page.toNat
              let page := q.pages slot
              match encodePciTx info ticket.page page.descriptor.physical page.frame.physical with
              | .error _ => (.error .einval, some frame, q)
              | .ok wire =>
                  if !reply.copied then
                    (.error .einval, some frame, q.written slot [] reply.data)
                  else
                    let q' := q.written slot wire.wd reply.data
                    match q.ownership.commit pciRing ticket info.qsel info.macId (some slot) with
                    | (.ok, ownership) =>
                        (.ok ⟨ticket.page, ticket.nextProducer⟩, none,
                          { q' with
                            ownership := ownership
                            leases := Function.update q.leases slot (some frame)
                            ring := Function.update q.ring ticket.bd.toNat wire.bd })
                    | (_, _) => (.error .ebusy, some frame, q')
          | (_, _) => (.error .enobufs, some frame, q)

def TxCounters.counted (c : TxCounters) (status : UInt8) (polluted : Bool) : TxCounters :=
  let c := { c with completed := c.completed + 1 }
  let c := if polluted then { c with polluted := c.polluted + 1 } else c
  if status = 0 then { c with acked := c.acked + 1 }
  else if status = 1 then { c with retryLimit := c.retryLimit + 1 }
  else if status = 2 then { c with expired := c.expired + 1 }
  else if status = 3 then { c with dropped := c.dropped + 1 }
  else c

/-- One round of the loop of `drainCompletions`: the lease slot handed to `releaseTx`, if any. -/
def drainPage (q : Net80211PciQueue) (page : ℕ) : List ℕ × Net80211PciQueue :=
  match q.ownership.take pciRing (UInt16.ofNat page) with
  | (.ok, completion, ownership) =>
      (completion.cookie.toList,
        { q with
          ownership := ownership
          counters := TxCounters.counted q.counters completion.status completion.polluted
          leases := match completion.cookie with
            | some slot => Function.update q.leases slot none
            | none => q.leases })
  | (_, _, _) => ([], q)

/-- The rounds of `drainCompletions` for these pages. -/
def drainPages : List ℕ → Net80211PciQueue → List ℕ × Net80211PciQueue
  | [], q => ([], q)
  | page :: pages, q =>
      let (released, q) := drainPage q page
      let (more, q) := drainPages pages q
      (released ++ more, q)

def drainCompletions (q : Net80211PciQueue) : List ℕ × Net80211PciQueue :=
  drainPages (List.range pciRing.count) q

/-- `consumeTo`: an error, the lease slots handed to `releaseTx`, and the queue. -/
def consumeTo (hardwareConsumer : ℕ) (q : Net80211PciQueue) :
    Option Errno × List ℕ × Net80211PciQueue :=
  if !q.attached then
    (some .enetdown, [], q)
  else
    match q.ownership.consumedTo pciRing hardwareConsumer with
    | (.ok, ownership) => (none, drainCompletions { q with ownership := ownership })
    | (_, _) => (some .einval, [], q)

def rejected (q : Net80211PciQueue) : Net80211PciQueue :=
  { q with counters := { q.counters with rejectedReports := q.counters.rejectedReports + 1 } }

def releaseReport (r : ReleaseReport) (q : Net80211PciQueue) :
    Option Errno × List ℕ × Net80211PciQueue :=
  if !q.attached then
    (some .enetdown, [], q)
  else if dataChannel r.qsel ≠ q.channel.toNat then
    (some .einval, [], q.rejected)
  else
    match q.ownership.report pciRing r with
    | (.ok, ownership) => (none, drainCompletions { q with ownership := ownership })
    | (_, _) => (some .einval, [], q.rejected)

/-- `reclaimAfterDmaStopped`: the lease slots of the pages in use are handed to `releaseTx` and counted
as dropped. -/
def reclaimAfterDmaStopped (q : Net80211PciQueue) : List ℕ × Net80211PciQueue :=
  let (cookies, ownership) := q.ownership.reclaimAfterDmaStopped pciRing
  let released := cookies.filterMap id
  (released,
    { q with
      attached := false
      ring := fun _ => []
      pages := fun _ => {}
      leases := fun p => if p ∈ released then none else q.leases p
      ownership := ownership
      counters := { q.counters with dropped := q.counters.dropped + released.length } })

end Net80211PciQueue

end Queue
end Rtl8852be
