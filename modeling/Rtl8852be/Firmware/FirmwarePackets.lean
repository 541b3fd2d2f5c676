import Rtl8852be.Firmware.FirmwarePlan
import Rtl8852be.Sequence.Pieces
import Rtl8852be.Sequence.Overwrite

/-!
# FirmwarePackets — the packets of a firmware image

`FirmwarePackets.hpp`.  Packet 0 is a command with the header of the image, the other packets carry its
sections.  Each begins with a descriptor of 24 bytes.

A buffer of the caller is its contents and its address, which is compared with that of the container.
-/

namespace Rtl8852be
namespace Transport

open Checked Sequence Firmware Network

def txwdBytes : ℕ := 24

def h2cBytes : ℕ := 8

def maxPacketBytes : ℕ := txwdBytes + packetBytes

def ringSize : ℕ := 256

def maxPackets : ℕ := ringSize - 1

inductive PacketStatus
  | ok
  | layoutError
  | tooManyPackets
  | notInitialized
  | badIndex
  | smallBuffer
  | overlap
  deriving DecidableEq, Repr

structure PacketInfo where
  bytes : ℕ := 0
  payloadBytes : ℕ := 0
  sourceOffset : ℕ := 0
  sectionIndex : ℕ := 0
  header : Bool := false
  deriving DecidableEq

/-- A container and where it lies. -/
structure Source where
  container : Container
  address : ℕ
  deriving DecidableEq

/-- The class `Packets`.  There is no source before `initialize` has accepted one. -/
structure Packets where
  source : Option Source := none
  layout : Plan := {}
  layoutStatus : Status := .truncated
  deriving DecidableEq

def initializePackets (source : Option Source) (cut : UInt8) : Reader Empty (PacketStatus × Packets) := do
  let (status, layout) ← parse (source.map Source.container) cut
  if status ≠ .ok then
    return (.layoutError, { layout := layout, layoutStatus := status })
  else if layout.packetCount = 0 ∨ maxPackets ≤ layout.packetCount then
    return (.tooManyPackets, { layoutStatus := status })
  else
    return (.ok, { source := source, layout := layout, layoutStatus := status })

namespace Packets

def count (p : Packets) : ℕ := if p.source.isSome then p.layout.packetCount + 1 else 0

end Packets

/-- A buffer of the caller. -/
structure Output where
  address : Option ℕ
  contents : List UInt8

/-- `for (i = 0; i < n; ++i) dst[i] = data[offset + i]`. -/
def copyFrom (data : List UInt8) (offset n : ℕ) : Reader Empty (List UInt8) :=
  if offset + n ≤ data.length then .ok (slice data offset n) else .error .outside

/-- The buffers of `encode` meet. -/
def meets (dst src size length : ℕ) : Bool :=
  if src ≤ dst then decide (dst - src < size) else decide (src - dst < length)

/-- The body of packet 0: the command header, and the header of the image with the packet size in the low
half of its word 7. -/
def writeHeader (layout : Plan) (data : List UInt8) (payload : ℕ) (sequence : UInt8) (out : List UInt8) :
    Reader Empty (List UInt8) := do
  let body := txwdBytes
  let out := overwrite out body (store32 ((0x0d : UInt32) ||| (sequence.toUInt32 <<< 24)))
  let out := overwrite out (body + 4) (store32 (UInt32.ofNat payload))
  let image ← copyFrom data layout.imageOffset layout.baseHeaderBytes
  let out := overwrite out (body + h2cBytes) image
  let w7 := little32 (out.drop (body + h2cBytes + 28))
  return overwrite out (body + h2cBytes + 28)
    (store32 ((w7 &&& 0xffff0000) ||| UInt32.ofNat packetBytes))

/-- The sequence number that the descriptor takes from the body. -/
def softwareSequence (payload : ℕ) (out : List UInt8) : UInt32 :=
  if 24 ≤ payload then
    ((out.getD (txwdBytes + 22) 0).toUInt32 ||| ((out.getD (txwdBytes + 23) 0).toUInt32 <<< 8)) >>> 4
  else
    0

/-- The three words of the descriptor that are not zero. -/
def writeDescriptor (header : Bool) (payload : ℕ) (out : List UInt8) : List UInt8 :=
  let out := overwrite out 0 (store32 (((12 : UInt32) <<< 16) ||| if header then 0 else 0x100000))
  let out := overwrite out 8 (store32 (UInt32.ofNat payload))
  overwrite out 12 (store32 (softwareSequence payload out))

def writeChunk (data : List UInt8) (chunk : Chunk) (out : List UInt8) : Reader Empty (List UInt8) := do
  let bytes ← copyFrom data chunk.offset chunk.bytes
  return overwrite out txwdBytes bytes

def writeBody (layout : Plan) (data : List UInt8) (header : Bool) (chunk : Chunk) (payload : ℕ)
    (sequence : UInt8) (out : List UInt8) : Reader Empty (List UInt8) :=
  if header then writeHeader layout data payload sequence out else writeChunk data chunk out

namespace Packets

/-- The chunk of a section packet.  The header has none. -/
def chunk (p : Packets) (ordinal : ℕ) : Reader Empty (Option Chunk) :=
  if ordinal = 0 then return some {} else chunkAt p.layout (ordinal - 1)

/-- `encode` once the packet is known: its status, what was written, and the buffer after it. -/
def encodeChunk (p : Packets) (source : Source) (header : Bool) (chunk : Chunk) (out : Output)
    (sequence : UInt8) : Reader Empty (PacketStatus × PacketInfo × List UInt8) :=
  let payload := if header then h2cBytes + p.layout.baseHeaderBytes else chunk.bytes
  let length := txwdBytes + payload
  match out.address with
  | none => return (.smallBuffer, {}, out.contents)
  | some address =>
      if out.contents.length < length ∨ maxPacketBytes < length then
        return (.smallBuffer, {}, out.contents)
      else if meets address source.address source.container.bytes.length length then
        return (.overlap, {}, out.contents)
      else do
        let zeroed := overwrite out.contents 0 (List.replicate length 0)
        let written ← writeBody p.layout source.container.bytes header chunk payload sequence zeroed
        let info : PacketInfo := {
          bytes := length, payloadBytes := payload
          sourceOffset := if header then p.layout.imageOffset else chunk.offset
          sectionIndex := if header then 0 else chunk.sectionIndex, header := header }
        return (.ok, info, writeDescriptor header payload written)

def encode (p : Packets) (ordinal : ℕ) (out : Output) (sequence : UInt8) :
    Reader Empty (PacketStatus × PacketInfo × List UInt8) :=
  match p.source with
  | none => return (.notInitialized, {}, out.contents)
  | some source =>
      if p.count ≤ ordinal then
        return (.badIndex, {}, out.contents)
      else do
        match (← p.chunk ordinal) with
        | none => return (.badIndex, {}, out.contents)
        | some chunk => p.encodeChunk source (ordinal = 0) chunk out sequence

end Packets

end Transport
end Rtl8852be
