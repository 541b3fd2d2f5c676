import Rtl8852be.Interaction.Checks
import Rtl8852be.Radio.RadioFirmware

/-!
# RadioInitialization — tables on the hardware

`RadioAccess.hpp` and the two loaders of `RadioInitialization.hpp` that take a table, for the baseband and for
a radio path.  Each goes through the table twice: `Check`, or the collector of the firmware pages, looks at
every selected row first, and `Sink` hands the rows to `RadioAccess` afterwards.
-/

namespace Rtl8852be
namespace Radio

open Interaction
open Bits (Memory)

/-! ## RadioAccess -/

inductive RadioIoStatus
  | ok
  | invalid
  | ioError
  | timeout
  | cancelled
  deriving DecidableEq

structure RadioAccessTrace where
  readAddress : UInt32 := 0
  readValue : UInt32 := 0
  writeAddress : UInt32 := 0
  writeValue : UInt32 := 0
  rfWriteCommand : UInt32 := 0

structure RadioAccess where
  status : RadioIoStatus := .ok
  trace : RadioAccessTrace := {}

/-- The methods of `Io`. -/
inductive IoCall
  | cancelled
  | read32 (offset : UInt32)
  | write32 (offset value : UInt32)
  | delayUs (us : ℕ)
  deriving DecidableEq

def IoReply : IoCall → Type
  | .read32 _ => Option UInt32
  | _ => Bool

abbrev Device := Code RadioAccess IoCall IoReply Empty

namespace RadioAccess

def setStatus (status : RadioIoStatus) (s : RadioAccess) : RadioAccess := { s with status := status }

def fail (status : RadioIoStatus) : Device Bool := do
  modify (setStatus status)
  return false

def ready : Device Bool := do
  let stop : Bool ← Code.ask IoCall.cancelled
  if stop then
    fail .cancelled
  else
    return true

def read (relative : UInt32) : Device (Option UInt32) := do
  let go ← ready
  if go then do
    modify fun s => { s with trace := { s.trace with readAddress := 0x10000 + relative, readValue := 0 } }
    let reply : Option UInt32 ← Code.ask (IoCall.read32 (0x10000 + relative))
    match reply with
    | none => do
        modify (setStatus .ioError)
        return none
    | some v => do
        modify fun s => { s with trace := { s.trace with readValue := v } }
        return some v
  else
    return none

def traced (relative v : UInt32) (t : RadioAccessTrace) : RadioAccessTrace :=
  { t with
    writeAddress := 0x10000 + relative
    writeValue := v
    rfWriteCommand := if relative = 0x370 then v else t.rfWriteCommand }

def write (relative v : UInt32) : Device Bool := do
  let go ← ready
  if go then do
    modify fun s => { s with trace := traced relative v s.trace }
    let ok : Bool ← Code.ask (IoCall.write32 (0x10000 + relative) v)
    if ok then
      return true
    else
      fail .ioError
  else
    return false

def delay (us : ℕ) : Device Bool := do
  let go ← ready
  if go then do
    let ok : Bool ← Code.ask (IoCall.delayUs us)
    if ok then
      return true
    else
      fail .ioError
  else
    return false

/-- The zeros below a mask; no caller passes the mask 0, for which the source would not return. -/
def shiftFrom : ℕ → UInt32 → UInt32
  | 0, _ => 0
  | n + 1, mask => if mask &&& 1 ≠ 0 then 0 else (1 : UInt32) + shiftFrom n (mask >>> 1)

def shift (mask : UInt32) : UInt32 := shiftFrom 32 mask

def merge (value mask data : UInt32) : UInt32 := (value &&& ~~~mask) ||| ((data <<< shift mask) &&& mask)

def update (address mask data : UInt32) : Device Bool :=
  if mask ≠ 0xffffffff then do
    let value ← read address
    match value with
    | none => return false
    | some value => write address (merge value mask data)
  else
    write address (merge 0 mask data)

/-- One look at the status register; no value means that the loop goes on. -/
def pollRound (mask : UInt32) (set : Bool) : Device (Option Bool) := do
  let value ← read 0x174c
  match value with
  | none => return some false
  | some v =>
      if v = 0xffffffff then
        some <$> fail .ioError
      else if (if set then v &&& mask = mask else v &&& mask = 0) then
        return some true
      else
        return none

/-- `n` more rounds after this one. -/
def pollFrom (mask : UInt32) (set : Bool) : ℕ → Device Bool
  | 0 => do
      let answer ← pollRound mask set
      match answer with
      | some ok => return ok
      | none => fail .timeout
  | n + 1 => do
      let answer ← pollRound mask set
      match answer with
      | some ok => return ok
      | none => do
          let go ← delay 1
          if go then
            pollFrom mask set n
          else
            return false

def poll (mask : UInt32) (set : Bool) : Device Bool := pollFrom mask set 30

def validate (path : UInt8) (address mask : UInt32) : Device Bool := do
  modify (setStatus .ok)
  if 1 < path ∨ address &&& ~~~0x100ff ≠ 0 ∨ mask = 0 ∨ mask &&& ~~~0xfffff ≠ 0 then
    fail .invalid
  else
    ready

/-- The register of an analog path that is mapped directly. -/
def mapped (path : UInt8) (address : UInt32) : UInt32 :=
  (if path ≠ 0 then (0xf000 : UInt32) else 0xe000) + ((address &&& 255) <<< 2)

/-- The command that writes an analog register over the serial interface. -/
def serialCommand (enable : UInt32) (path : UInt8) (address data : UInt32) : UInt32 :=
  enable ||| (path.toUInt32 <<< 28) ||| (address <<< 20) ||| data

def writeRf (path : UInt8) (address mask data : UInt32) : Device Bool := do
  let go ← validate path address mask
  if !go then
    return false
  else if address &&& 0x10000 ≠ 0 then
    Code.both (update (mapped path address) mask data) (delay 1)
  else do
    let idle ← poll 0x03000000 false
    if !idle then
      return false
    else if mask ≠ 0xfffff then do
      let ok ← update 0x374 0xfffff mask
      if ok then
        write 0x370 (serialCommand 0x80000000 path address (((data &&& 0xfffff) <<< shift mask) &&& 0xfffff))
      else
        return false
    else
      write 0x370 (serialCommand 0 path address (data &&& 0xfffff))

/-- The final analog write has no next operation to poll its completion. -/
def drain : Device Bool := do
  modify (setStatus .ok)
  poll 0x03000000 false

def writeBaseband (relative value : UInt32) : Device Bool := do
  modify (setStatus .ok)
  if relative &&& 3 ≠ 0 ∨ 0x10000 ≤ relative then
    fail .invalid
  else
    write relative value

def delayMicroseconds (us : ℕ) : Device Bool := do
  modify (setStatus .ok)
  delay us

end RadioAccess

/-! ## The loaders -/

/-- `Sink`: the calls of a table on the hardware. -/
def sinkAnswer : (c : SinkCall) → Device Bool
  | .cancelled => Code.ask IoCall.cancelled
  | .bbWrite address value => RadioAccess.writeBaseband address value
  | .rfWrite path address value => RadioAccess.writeRf path address 0xfffff value
  | .gainRecord _ _ => return false
  | .delayUs us => RadioAccess.delayMicroseconds us

/-- `Check`: what the hardware would take. -/
def checks : SinkCall → Bool
  | .cancelled => false
  | .bbWrite address _ => address &&& 3 == 0 && address < 0x10000
  | .rfWrite path address value => path < 2 && address &&& ~~~0x100ff == 0 && value &&& ~~~0xfffff == 0
  | .gainRecord _ _ => false
  | .delayUs us => us ≤ 50000

def baseband (table : RadioTable) (rfe cut : UInt8) : Device RadioTableResult :=
  if table.kind ≠ .baseband then
    return {}
  else
    let result := ((applyRadioTable table rfe cut).run (fun c (u : Unit) => (checks c, u)) ()).2.1
    if result.status ≠ .ok then
      return result
    else
      (applyRadioTable table rfe cut).handle sinkAnswer

/-- The result, the pages that are exposed, and the memory with the scratch buffer. -/
def radio (m : Memory) (table : RadioTable) (registers : ℕ) (rfe cut : UInt8) (scratch : Option ℕ)
    (bytes : ℕ) : Device (RadioTableResult × RadioFirmwarePages × Memory) := do
  let prepared := prepareRadioFirmware m table registers rfe cut scratch bytes
  if prepared.1 ≠ .ok then
    return ({ status := prepared.1 }, {}, prepared.2.2)
  else do
    let result ← (applyRadioTable table rfe cut).handle sinkAnswer
    if result.status ≠ .ok then
      return (result, {}, prepared.2.2)
    else do
      let drained ← RadioAccess.drain
      if !drained then do
        let s ← get
        return ({ result with status := if s.status = .cancelled then .cancelled else .ioError }, {}, prepared.2.2)
      else
        return (result, prepared.2.1, prepared.2.2)

/-! ## No row is invalid -/

/-- A status that is not `invalid` does not become it. -/
def Valid (s : RadioAccess) (_ : List (Event IoCall IoReply Empty)) (s' : RadioAccess) : Prop :=
  s.status ≠ .invalid → s'.status ≠ .invalid

theorem valid_traced : Traced Valid where
  refl := fun _ h => h
  trans := fun h h' hs => h' (h hs)

namespace RadioAccess

theorem keeps_fail {status : RadioIoStatus} (h : status ≠ .invalid) : (fail status).Keeps Valid :=
  Code.Keeps.modify_bind valid_traced (fun _ _ => h) (Code.Keeps.pure valid_traced false)

theorem keeps_ready : ready.Keeps Valid := by
  refine Code.Keeps.ask_bind valid_traced (fun _ _ h => h) fun (stop : Bool) => ?_
  exact Code.Keeps.ite (keeps_fail nofun) (Code.Keeps.pure valid_traced true)

theorem keeps_read (relative : UInt32) : (read relative).Keeps Valid := by
  refine Code.Keeps.bind valid_traced keeps_ready fun go => ?_
  refine Code.Keeps.ite ?_ (Code.Keeps.pure valid_traced none)
  refine Code.Keeps.modify_bind valid_traced (fun _ h => h) ?_
  refine Code.Keeps.ask_bind valid_traced (fun _ _ h => h) fun reply => ?_
  cases reply with
  | none => exact Code.Keeps.modify_bind valid_traced (fun _ _ => nofun) (Code.Keeps.pure valid_traced none)
  | some v => exact Code.Keeps.modify_bind valid_traced (fun _ h => h) (Code.Keeps.pure valid_traced (some v))

theorem keeps_write (relative v : UInt32) : (write relative v).Keeps Valid := by
  refine Code.Keeps.bind valid_traced keeps_ready fun go => ?_
  refine Code.Keeps.ite ?_ (Code.Keeps.pure valid_traced false)
  refine Code.Keeps.modify_bind valid_traced (fun _ h => h) ?_
  refine Code.Keeps.ask_bind valid_traced (fun _ _ h => h) fun (ok : Bool) => ?_
  exact Code.Keeps.ite (Code.Keeps.pure valid_traced true) (keeps_fail nofun)

theorem keeps_delay (us : ℕ) : (delay us).Keeps Valid := by
  refine Code.Keeps.bind valid_traced keeps_ready fun go => ?_
  refine Code.Keeps.ite ?_ (Code.Keeps.pure valid_traced false)
  refine Code.Keeps.ask_bind valid_traced (fun _ _ h => h) fun (ok : Bool) => ?_
  exact Code.Keeps.ite (Code.Keeps.pure valid_traced true) (keeps_fail nofun)

theorem keeps_update (address mask data : UInt32) : (update address mask data).Keeps Valid := by
  refine Code.Keeps.ite ?_ (keeps_write _ _)
  refine Code.Keeps.bind valid_traced (keeps_read address) fun value => ?_
  cases value with
  | none => exact Code.Keeps.pure valid_traced false
  | some value => exact keeps_write _ _

theorem keeps_pollRound (mask : UInt32) (set : Bool) : (pollRound mask set).Keeps Valid := by
  refine Code.Keeps.bind valid_traced (keeps_read _) fun value => ?_
  cases value with
  | none => exact Code.Keeps.pure valid_traced (some false)
  | some v =>
      refine Code.Keeps.ite ?_ (Code.Keeps.ite (Code.Keeps.pure valid_traced _) (Code.Keeps.pure valid_traced _))
      exact Code.Keeps.bind valid_traced (keeps_fail nofun) fun ok => Code.Keeps.pure valid_traced (some ok)

theorem keeps_pollFrom (mask : UInt32) (set : Bool) : ∀ n, (pollFrom mask set n).Keeps Valid := by
  intro n
  induction n with
  | zero =>
      refine Code.Keeps.bind valid_traced (keeps_pollRound mask set) fun answer => ?_
      cases answer with
      | none => exact keeps_fail nofun
      | some ok => exact Code.Keeps.pure valid_traced ok
  | succ n ih =>
      refine Code.Keeps.bind valid_traced (keeps_pollRound mask set) fun answer => ?_
      cases answer with
      | none =>
          refine Code.Keeps.bind valid_traced (keeps_delay 1) fun go => ?_
          exact Code.Keeps.ite ih (Code.Keeps.pure valid_traced false)
      | some ok => exact Code.Keeps.pure valid_traced ok

theorem reset_valid {m : Device Bool} (h : m.Keeps Valid) (s : RadioAccess) :
    (modify (setStatus .ok) >>= fun _ => m).wp (fun _ _ s' => s'.status ≠ .invalid) s := by
  rw [wp_modify_bind]
  exact wp_mono (h _) fun _ _ s' hs' => hs' nofun

theorem keeps_afterValidate (path : UInt8) (address data : UInt32) (go : Bool) :
    Code.Keeps Valid (if (!go) = true then return false
      else if address &&& 0x10000 ≠ 0 then Code.both (update (mapped path address) 0xfffff data) (delay 1)
      else do
        let idle ← poll 0x03000000 false
        if !idle then
          return false
        else if (0xfffff : UInt32) ≠ 0xfffff then do
          let ok ← update 0x374 0xfffff 0xfffff
          if ok then
            write 0x370 (serialCommand 0x80000000 path address
              (((data &&& 0xfffff) <<< shift 0xfffff) &&& 0xfffff))
          else
            return false
        else
          write 0x370 (serialCommand 0 path address (data &&& 0xfffff)) : Device Bool) := by
  refine Code.Keeps.ite (Code.Keeps.pure valid_traced false) (Code.Keeps.ite ?_ ?_)
  · exact Code.Keeps.both valid_traced (keeps_update _ _ _) (keeps_delay 1)
  · refine Code.Keeps.bind valid_traced (keeps_pollFrom _ _ 30) fun idle => ?_
    refine Code.Keeps.ite (Code.Keeps.pure valid_traced false) (Code.Keeps.ite ?_ (keeps_write _ _))
    refine Code.Keeps.bind valid_traced (keeps_update _ _ _) fun ok => ?_
    exact Code.Keeps.ite (keeps_write _ _) (Code.Keeps.pure valid_traced false)

theorem writeRf_valid {path : UInt8} {address data : UInt32} (hpath : ¬ 1 < path)
    (haddress : address &&& ~~~0x100ff = 0) (s : RadioAccess) :
    (writeRf path address 0xfffff data).wp (fun _ _ s' => s'.status ≠ .invalid) s := by
  have hmask : (0xfffff : UInt32) &&& ~~~0xfffff = 0 := by decide
  have hvalidate : (validate path address 0xfffff).wp (fun _ _ s' => s'.status ≠ .invalid) s := by
    rw [validate, if_neg (by simp only [hpath, haddress, hmask]; decide)]
    exact reset_valid keeps_ready s
  rw [writeRf, wp_bind]
  refine wp_mono hvalidate fun _ go s' hs' => ?_
  exact wp_mono (keeps_afterValidate path address data go s') fun _ _ s'' hs'' => hs'' hs'

end RadioAccess

/-- A call that `Check` accepts is never refused as invalid. -/
theorem sinkAnswer_valid {c : SinkCall} (hc : checks c = true) (s : RadioAccess) :
    (sinkAnswer c).wp (fun _ _ s' => s'.status ≠ .invalid) s := by
  cases c with
  | cancelled => cases hc
  | gainRecord address value => cases hc
  | bbWrite address value =>
      simp only [checks, Bool.and_eq_true, beq_iff_eq, decide_eq_true_eq] at hc
      have hlow : ¬ (0x10000 : UInt32) ≤ address := UInt32.not_le.2 hc.2
      rw [sinkAnswer, RadioAccess.writeBaseband, if_neg (by simp only [hc.1, hlow]; decide)]
      exact RadioAccess.reset_valid (RadioAccess.keeps_write address value) s
  | rfWrite path address value =>
      simp only [checks, Bool.and_eq_true, beq_iff_eq, decide_eq_true_eq] at hc
      refine RadioAccess.writeRf_valid (fun hlt => ?_) hc.1.2 s
      have hpath := UInt8.lt_iff_toNat_lt.1 hc.1.1
      have hlt := UInt8.lt_iff_toNat_lt.1 hlt
      have h2 : (2 : UInt8).toNat = 2 := rfl
      have h1 : (1 : UInt8).toNat = 1 := rfl
      omega
  | delayUs us => exact RadioAccess.reset_valid (RadioAccess.keeps_delay us) s

variable {table : RadioTable} {rfe cut : UInt8} {target : UInt32}

/-- The table is accepted, and `Check` accepts every row that it selects. -/
def Checked (table : RadioTable) (rfe cut : UInt8) : Prop :=
  ∃ headlines items target, Layout table rfe cut headlines items target ∧
    ∀ c ∈ deliveries table target items, checks c = true

/-- A call in the trace of a run is the question whether to stop or one of the deliveries. -/
theorem mem_delivered {log : Log} {c : SinkCall} {r : Bool} (h : .call c r ∈ log) :
    c = .cancelled ∨ c ∈ delivered log := by
  by_cases hc : c = .cancelled
  · exact Or.inl hc
  · refine Or.inr (List.mem_filterMap.2 ⟨_, h, ?_⟩)
    cases c with
    | cancelled => exact absurd rfl hc
    | _ => rfl

theorem asks_checked (h : Checked table rfe cut) :
    (applyRadioTable table rfe cut).Asks fun c => c = .cancelled ∨ checks c = true := by
  rcases h with ⟨headlines, items, target, hlayout, hchecks⟩
  apply Prog.asks_of_outcome
  intro log result hout c r hmem
  have hran := (Prog.wp_iff_outcome _ _).1 (applyRadioTable_ran hlayout) log result hout
  exact (mem_delivered hmem).imp_right fun hc => hchecks c (hran.started.subset hc)

theorem handle_valid (h : Checked table rfe cut) :
    ((applyRadioTable table rfe cut).handle sinkAnswer).Keeps Valid := by
  intro s
  have hhandle := Prog.wp_handle (N := Empty) (h := sinkAnswer)
    (I := fun _ s' => s.status ≠ .invalid → s'.status ≠ .invalid)
    (G := fun c => c = .cancelled ∨ checks c = true) (fun _ n => nomatch n) ?_
    (applyRadioTable table rfe cut) [] s id (asks_checked h)
  · exact wp_mono hhandle fun _ _ s' hs' => by
      rcases hs' with ⟨log, -, hvalid⟩
      exact hvalid
  · intro t c s' hc hs'
    rcases hc with rfl | hc
    · exact (wp_ask IoCall.cancelled).2 fun _ => hs'
    · exact wp_mono (sinkAnswer_valid hc s') fun _ _ s'' hs'' _ => hs''

end Radio
end Rtl8852be
