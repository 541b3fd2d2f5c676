import Rtl8852be.Interaction.Handler

/-!
# RadioTables — the tables that program the baseband and the radio

`RadioTables.hpp`.  A table begins with headlines, one for each board and chip cut it is for, and goes on with
registers, some of them inside groups that open with an `IF`.  `selectRadioTable` finds the headline,
`validateRadioBranches` looks at every branch before anything is written, and `applyRadioTable` hands the
selected rows to a sink.

A sink is whatever answers the calls of `SinkCall`.
-/

namespace Rtl8852be
namespace Radio

open Interaction

structure RadioRegister where
  address : UInt32
  value : UInt32
  deriving DecidableEq

inductive RadioTableKind
  | baseband
  | radio
  | gain
  deriving DecidableEq

/-- The rows, whose number is `count`, or no rows at all. -/
structure RadioTable where
  registers : Option (List RadioRegister)
  kind : RadioTableKind
  path : UInt8

inductive RadioTableStatus
  | ok
  | invalid
  | unmatched
  | malformed
  | ioError
  | cancelled
  deriving DecidableEq

structure RadioTableResult where
  status : RadioTableStatus := .invalid
  row : ℕ := 0
  selected : ℕ := 0
  writes : ℕ := 0
  delays : ℕ := 0
  target : UInt32 := 0
  deriving DecidableEq

/-- What the first four bits of an address say. -/
def op (address : UInt32) : ℕ := (address >>> 28).toNat

/-- The other bits: the target of a headline or of a condition. -/
def condition (address : UInt32) : UInt32 := address &&& 0x0fffffff

/-! ## The headline -/

/-- The best headline so far. -/
structure Search where
  found : Bool := false
  maximum : UInt32 := 0
  target : UInt32 := 0

/-- One headline in the search for the greatest cut. -/
def Search.step (wanted : UInt32) (s : Search) (value : UInt32) : Search :=
  if (value >>> 16) &&& 255 ≠ wanted then
    s
  else if s.maximum ≤ value &&& 255 then
    { found := true, maximum := value &&& 255, target := condition value }
  else
    s

/-- The loop over the headlines, once for the board and once for any board. -/
def searchHeadlines (headlines : List UInt32) (wanted : UInt32) : Search :=
  headlines.foldl (Search.step wanted) {}

def pack (rfe cut : UInt8) : UInt32 := (rfe.toUInt32 <<< 16) ||| cut.toUInt32

/-- The search when there are headlines, and rows after them. -/
def matchHeadline (headlines : List UInt32) (rfe cut : UInt8) : RadioTableStatus × UInt32 :=
  if headlines.any fun a => condition a == pack rfe cut then
    (.ok, pack rfe cut)
  else if headlines.any fun a => condition a == pack rfe 255 then
    (.ok, pack rfe 255)
  else if (searchHeadlines headlines rfe.toUInt32).found then
    (.ok, (searchHeadlines headlines rfe.toUInt32).target)
  else if (searchHeadlines headlines 255).found then
    (.ok, (searchHeadlines headlines 255).target)
  else
    (.unmatched, 0)

/-- The status, the number of headlines and the target. -/
def selectRadioTable (table : RadioTable) (rfe cut : UInt8) : RadioTableStatus × ℕ × UInt32 :=
  match table.registers with
  | none => (.invalid, 0, 0)
  | some rows =>
      if rows.length = 0 ∨ 65536 < rows.length ∨ 1 < table.path then
        (.invalid, 0, 0)
      else
        let headlines := rows.takeWhile fun r => op r.address == 15
        if headlines.length = 0 then
          (.ok, 0, condition (rows.headD ⟨0, 0⟩).address)
        else if headlines.length = rows.length then
          (.malformed, headlines.length, 0)
        else
          let (status, target) := matchHeadline (headlines.map RadioRegister.address) rfe cut
          (status, headlines.length, target)

/-! ## The branches -/

structure Branching where
  branch : Bool := false
  needsCheck : Bool := false
  found : Bool := false
  seenElse : Bool := false

/-- One row; `previous` is the address of the row before it. -/
def Branching.step (selected previous address : UInt32) (s : Branching) : Except RadioTableStatus Branching :=
  match op address with
  | 8 =>
      if s.branch then .error .malformed
      else .ok { branch := true, needsCheck := true, found := false, seenElse := false }
  | 9 =>
      if !s.branch || s.needsCheck || s.seenElse then .error .malformed
      else .ok { s with needsCheck := true }
  | 4 =>
      if !s.branch || !s.needsCheck then .error .malformed
      else .ok { s with needsCheck := false, found := s.found || condition previous == selected }
  | 10 =>
      if !s.branch || s.needsCheck || s.seenElse then .error .malformed
      else if !s.found then .error .unmatched
      else .ok { s with seenElse := true }
  | 11 =>
      if !s.branch || s.needsCheck then .error .malformed
      else .ok { s with branch := false }
  | 15 => .error .malformed
  | _ => if s.needsCheck then .error .malformed else .ok s

def branchesFrom (selected : UInt32) : UInt32 → List RadioRegister → Branching → RadioTableStatus
  | _, [], s => if s.branch then .malformed else .ok
  | previous, r :: rows, s =>
      match s.step selected previous r.address with
      | .error status => status
      | .ok s => branchesFrom selected r.address rows s

def validateRadioBranches (rows : List RadioRegister) (selected : UInt32) : RadioTableStatus :=
  branchesFrom selected 0 rows {}

/-! ## The rows -/

inductive SinkCall
  | cancelled
  | bbWrite (address value : UInt32)
  | rfWrite (path : UInt8) (address value : UInt32)
  | gainRecord (address value : UInt32)
  | delayUs (us : ℕ)
  deriving DecidableEq

abbrev Driving := Prog SinkCall (fun _ => Bool) Empty

/-- The delay a baseband address stands for, 0 for none. -/
def delayOf (address : UInt32) : ℕ :=
  match address with
  | 0xfe => 50000
  | 0xfd => 5000
  | 0xfc => 1000
  | 0xfb => 50
  | 0xfa => 5
  | 0xf9 => 1
  | _ => 0

/-- What a selected row hands to the sink, if anything. -/
def delivery (table : RadioTable) (r : RadioRegister) : Option SinkCall :=
  match table.kind with
  | .baseband =>
      if delayOf r.address ≠ 0 then some (.delayUs (delayOf r.address))
      else if r.value = 0xbabecafe then none
      else some (.bbWrite r.address r.value)
  | .radio => some (.rfWrite table.path r.address r.value)
  | .gain => some (.gainRecord r.address r.value)

def RadioTableResult.count (result : RadioTableResult) : SinkCall → RadioTableResult
  | .delayUs _ => { result with delays := result.delays + 1 }
  | _ => { result with writes := result.writes + 1 }

/-- Where the loop stands in its group. -/
structure Position where
  isMatched : Bool := true
  found : Bool := false
  target : UInt32 := 0

/-- A row that opens, checks or closes a branch; `none` for the others. -/
def Position.control (selected : UInt32) (p : Position) (address : UInt32) : Option Position :=
  match op address with
  | 8 | 9 => some { p with target := condition address }
  | 10 => some { p with isMatched := false }
  | 11 => some { p with isMatched := true, found := false }
  | 4 =>
      let isMatched := !p.found && p.target == selected
      some { p with isMatched := isMatched, found := p.found || isMatched }
  | _ => none

/-- The rows from number `i` on. -/
def applyFrom (table : RadioTable) (selected : UInt32) :
    ℕ → List RadioRegister → Position → RadioTableResult → Driving RadioTableResult
  | _, [], _, result => return { result with status := .ok }
  | i, r :: rows, p, result => do
      let result := { result with row := i }
      let stop ← Prog.call SinkCall.cancelled
      if stop then
        return { result with status := .cancelled }
      else
        match p.control selected r.address with
        | some p => applyFrom table selected (i + 1) rows p result
        | none =>
            if !p.isMatched then
              applyFrom table selected (i + 1) rows p result
            else
              let result := { result with selected := result.selected + 1 }
              match delivery table r with
              | none => applyFrom table selected (i + 1) rows p result
              | some call => do
                  let ok ← Prog.call call
                  if ok then
                    applyFrom table selected (i + 1) rows p (result.count call)
                  else
                    return { result with status := .ioError }

def applyRadioTable (table : RadioTable) (rfe cut : UInt8) : Driving RadioTableResult :=
  let rows := table.registers.getD []
  let (status, start, target) := selectRadioTable table rfe cut
  let result : RadioTableResult := { status := status, target := target }
  if status ≠ .ok then
    return result
  else
    let status := validateRadioBranches (rows.drop start) target
    let result := { result with status := status }
    if status ≠ .ok then
      return result
    else
      applyFrom table target start (rows.drop start) {} result

end Radio
end Rtl8852be
