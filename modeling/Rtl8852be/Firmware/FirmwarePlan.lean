import Rtl8852be.Checked.Reader
import Rtl8852be.Wire.FirmwareProtocol

/-!
# FirmwarePlan — where the firmware lies in its container

`FirmwarePlan.hpp`.  A container begins with a table of images.  `parse` selects the image for a chip cut
and lists its sections, and `chunkAt` cuts the sections into the payloads of single packets.

Sizes and offsets are numbers of `sizeBits` bits, `uint32_t` numbers of 32.  Arithmetic on them is
checked, and so is every read from the container.
-/

namespace Rtl8852be
namespace Firmware

open Checked

def maxImages : ℕ := 64

def maxSections : ℕ := 10

def packetBytes : ℕ := 2020

/-- The width of `size_t`. -/
def sizeBits : ℕ := 64

inductive Status
  | ok
  | truncated
  | badContainer
  | tooManyImages
  | imageBounds
  | imageOverlap
  | ambiguousImage
  | noMatchingImage
  | unsupportedHeader
  | wrongFamily
  | sectionCount
  | dynamicHeader
  | unsupportedSection
  | sectionBounds
  | addressOverflow
  | trailingData
  deriving DecidableEq, Repr

structure Section where
  offset : ℕ := 0
  payloadBytes : ℕ := 0
  transferBytes : ℕ := 0
  address : ℕ := 0
  metadata : UInt32 := 0
  type : ℕ := 0
  checksumTrailer : Bool := false
  redownload : Bool := false
  deriving DecidableEq

/-- The sections are those that have been read: the rest of the array is empty. -/
structure Plan where
  imageOffset : ℕ := 0
  imageBytes : ℕ := 0
  headerBytes : ℕ := 0
  baseHeaderBytes : ℕ := 0
  version : UInt32 := 0
  commit : UInt32 := 0
  packetCount : ℕ := 0
  cut : UInt8 := 0
  type : UInt8 := 0
  sectionCount : ℕ := 0
  sections : List Section := []
  valid : Bool := false
  deriving DecidableEq

/-- A buffer whose length is a `size_t`. -/
structure Container where
  bytes : List UInt8
  addressable : bytes.length < 2 ^ sizeBits
  deriving DecidableEq

/-- Code of `parse`, with the status it returns early. -/
abbrev Parsing := Reader Status

/-- Four bytes, least significant first. -/
def le32 {ε : Type} (data : List UInt8) (p : ℕ) : Reader ε UInt32 := do
  let _ ← byteAt data p
  let _ ← byteAt data (p + 1)
  let _ ← byteAt data (p + 2)
  let _ ← byteAt data (p + 3)
  return Network.little32 (data.drop p)

def fits (offset bytes total : ℕ) : Parsing Bool :=
  if offset ≤ total then do
    let left ← sub total offset
    return decide (bytes ≤ left)
  else
    return false

/-! ## The table of images -/

/-- `data + 16 + i * 16`. -/
def entryAt (i : ℕ) : Parsing ℕ := do
  let skip ← mul 32 i 16
  add sizeBits 16 skip

/-- An image that overlaps an earlier one ends the search. -/
def checkOverlap (data : List UInt8) (start length j : ℕ) : Parsing Unit := do
  let prior ← entryAt j
  let p := (← le32 data (prior + 4)).toNat
  let n := (← le32 data (prior + 8)).toNat
  if p ≤ start then do
    let gap ← sub start p
    if gap < n then early .imageOverlap else return ()
  else do
    let gap ← sub p start
    if gap < length then early .imageOverlap else return ()

/-- `n` more earlier images, from `j` on. -/
def checkOverlaps (data : List UInt8) (start length : ℕ) : ℕ → ℕ → Parsing Unit
  | 0, _ => return ()
  | n + 1, j => do
      checkOverlap data start length j
      checkOverlaps data start length n (j + 1)

/-- The images found so far, `-1` if there is none. -/
structure Choice where
  normal : Option ℕ := none
  ce : Option ℕ := none

/-- Which image this entry is, if it is for the cut at all. -/
def choose (data : List UInt8) (cut : UInt8) (entry i : ℕ) (c : Choice) : Parsing Choice := do
  if (← byteAt data entry) ≠ cut then
    return c
  else if (← byteAt data (entry + 2)) ≠ 0 then
    return c
  else if (← byteAt data (entry + 1)) = 5 then
    if c.ce.isSome then early .ambiguousImage else return { c with ce := some i }
  else if (← byteAt data (entry + 1)) = 1 then
    if c.normal.isSome then early .ambiguousImage else return { c with normal := some i }
  else
    return c

def scanEntry (data : List UInt8) (cut : UInt8) (tableEnd i : ℕ) (c : Choice) : Parsing Choice := do
  let entry ← entryAt i
  let start := (← le32 data (entry + 4)).toNat
  let length := (← le32 data (entry + 8)).toNat
  if length = 0 ∨ start < tableEnd then
    early .imageBounds
  else if (← fits start length data.length) then do
    checkOverlaps data start length i 0
    choose data cut entry i c
  else
    early .imageBounds

/-- `n` more entries, from `i` on. -/
def scan (data : List UInt8) (cut : UInt8) (tableEnd : ℕ) : ℕ → ℕ → Choice → Parsing Choice
  | 0, _, c => return c
  | n + 1, i, c => do
      let c ← scanEntry data cut tableEnd i c
      scan data cut tableEnd n (i + 1) c

def select (data : List UInt8) (cut : UInt8) : Parsing ℕ := do
  if data.length < 16 then
    early .truncated
  else if (← byteAt data 0) ≠ 0xff then
    early .badContainer
  else if (← byteAt data 1) = 0 then
    early .badContainer
  else do
    let count := (← byteAt data 1).toNat
    if maxImages < count then
      early .tooManyImages
    else do
      let tableEnd ← add sizeBits 16 (← mul sizeBits count 16)
      if (← fits 0 tableEnd data.length) then do
        let c ← scan data cut tableEnd count 0 {}
        match c.ce, c.normal with
        | some i, _ => return i
        | none, some i => return i
        | none, none => early .noMatchingImage
      else
        early .truncated

/-! ## The image -/

/-- The header of the image, without its dynamic part. -/
def readHeader (data : List UInt8) (cut : UInt8) (selected : ℕ) : Parsing Plan := do
  let entry ← entryAt selected
  let type ← byteAt data (entry + 1)
  let fw := (← le32 data (entry + 4)).toNat
  let imageBytes := (← le32 data (entry + 8)).toNat
  if imageBytes < 32 then
    early .truncated
  else if (← byteAt data (fw + 15)) ≠ 0 then
    early .unsupportedHeader
  else if (← le32 data fw) >>> 16 ≠ 0x8852 then
    early .wrongFamily
  else do
    let version ← le32 data (fw + 4)
    let commit ← le32 data (fw + 8)
    let sectionCount := (← byteAt data (fw + 25)).toNat
    if sectionCount = 0 ∨ maxSections < sectionCount then
      early .sectionCount
    else do
      let baseHeaderBytes ← add sizeBits 32 (← mul sizeBits sectionCount 16)
      if (← fits 0 baseHeaderBytes imageBytes) then
        return {
          imageOffset := fw, imageBytes := imageBytes, headerBytes := baseHeaderBytes,
          baseHeaderBytes := baseHeaderBytes, version := version, commit := commit, cut := cut,
          type := type, sectionCount := sectionCount }
      else
        early .truncated

/-- The dynamic part of the header, if there is one. -/
def readDynamic (data : List UInt8) (plan : Plan) : Parsing Plan := do
  let fw := plan.imageOffset
  if (← le32 data (fw + 28)) &&& 0x10000 ≠ 0 then do
    let headerBytes := (← byteAt data (fw + 14)).toNat
    if headerBytes < (← add sizeBits plan.baseHeaderBytes 8) then
      early .dynamicHeader
    else if (← fits 0 headerBytes plan.imageBytes) then
      if (← le32 data (fw + plan.baseHeaderBytes)).toNat ≠ (← sub headerBytes plan.baseHeaderBytes) then
        early .dynamicHeader
      else
        return { plan with headerBytes := headerBytes }
    else
      early .dynamicHeader
  else
    return plan

/-- The descriptor of a section, from the word that holds its size, type and flags. -/
def describe (metadata : UInt32) : Section where
  metadata := metadata
  type := ((metadata >>> 24) &&& 15).toNat
  payloadBytes := (metadata &&& 0xffffff).toNat
  checksumTrailer := metadata &&& 0x10000000 != 0
  redownload := metadata &&& 0x20000000 != 0

/-- A signed section with appended signature blocks, whose layout is not supported. -/
def isMultiSigned (data : List UInt8) (type h : ℕ) : Parsing Bool :=
  if type = 9 then do
    return (← le32 data (h + 8)) != 0
  else
    return false

/-- One section that begins `cursor` bytes into the image. -/
def readSection (data : List UInt8) (plan : Plan) (cursor i : ℕ) : Parsing Section := do
  let h := plan.imageOffset + (32 + (← mul 32 i 16))
  let s := describe (← le32 data (h + 4))
  if s.type ≠ 1 ∧ s.type ≠ 2 ∧ s.type ≠ 9 then
    early .unsupportedSection
  else if (← isMultiSigned data s.type h) then
    early .unsupportedSection
  else if s.payloadBytes = 0 then
    early .sectionBounds
  else do
    let transferBytes ← add 32 s.payloadBytes (if s.checksumTrailer then 8 else 0)
    let address := ((← le32 data h) &&& 0x1fffffff).toNat
    if (← sub 0x20000000 address) < transferBytes then
      early .addressOverflow
    else if (← fits cursor transferBytes plan.imageBytes) then do
      let offset ← add sizeBits plan.imageOffset cursor
      return { s with transferBytes := transferBytes, address := address, offset := offset }
    else
      early .sectionBounds

/-- `n` more sections, from `i` on. -/
def readSections (data : List UInt8) : ℕ → ℕ → ℕ → Plan → Parsing Plan
  | 0, _, cursor, plan =>
      if cursor ≠ plan.imageBytes then early .trailingData else return { plan with valid := true }
  | n + 1, i, cursor, plan => do
      let s ← readSection data plan cursor i
      let cursor ← add sizeBits cursor s.transferBytes
      let packets := (← sub (← add 32 s.transferBytes packetBytes) 1) / packetBytes
      let packetCount ← add 32 plan.packetCount packets
      readSections data n (i + 1) cursor
        { plan with sections := plan.sections ++ [s], packetCount := packetCount }

def readPlan (data : List UInt8) (cut : UInt8) : Parsing Plan := do
  let selected ← select data cut
  let plan ← readHeader data cut selected
  let plan ← readDynamic data plan
  readSections data plan.sectionCount 0 plan.headerBytes plan

/-- The status, and the plan that `parse` leaves behind.  There may be no buffer at all. -/
def parse (data : Option Container) (cut : UInt8) : Reader Empty (Status × Plan) :=
  match data with
  | none => return (.truncated, {})
  | some data => returned (fun status => (status, {})) (fun plan => (.ok, plan)) (readPlan data.bytes cut)

/-! ## Chunks -/

structure Chunk where
  offset : ℕ := 0
  bytes : ℕ := 0
  sectionOffset : ℕ := 0
  sectionIndex : ℕ := 0
  deriving DecidableEq

/-- The sections from `i` on. -/
def chunkFrom : List Section → ℕ → ℕ → Reader Empty (Option Chunk)
  | [], _, _ => return none
  | s :: sections, i, index => do
      let count := s.transferBytes / packetBytes + if s.transferBytes % packetBytes ≠ 0 then 1 else 0
      if count ≤ index then do
        let index ← sub index count
        chunkFrom sections (i + 1) index
      else do
        let offset ← mul 32 index packetBytes
        let left ← sub s.transferBytes offset
        return some {
          offset := ← add sizeBits s.offset offset
          bytes := if left < packetBytes then left else packetBytes
          sectionOffset := offset
          sectionIndex := i }

def chunkAt (plan : Plan) (index : ℕ) : Reader Empty (Option Chunk) :=
  if ¬ plan.valid ∨ maxSections < plan.sectionCount ∨ plan.packetCount ≤ index then
    return none
  else
    chunkFrom plan.sections 0 index

end Firmware
end Rtl8852be
