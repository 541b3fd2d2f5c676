import Rtl8852be.Interaction.History

/-!
# NativeScanProbeTx — who owns the node of a probe request

`NativeScanProbe.hpp` and `NativeScanProbeTx.hpp`.  The probe of an active scan is sent for a node of its
own, which is in no table.  `FrameOwner` holds one reference to it, and a second one travels with the frame;
what became of the frame is only seen by looking at the queue afterwards.

The hooks of `Ops` work on the kernel's objects: reference counts, bodies and the management queue.  What
the kernel decides is asked of the environment.
-/

namespace Rtl8852be
namespace ScanProbe

open Interaction

/-! ## The body of a probe request -/

def maxRates : ℕ := 12

def maxBytes : ℕ := 2 + 2 + 8 + 2 + (maxRates - 8)

inductive Error
  | buffer
  | rates
  deriving DecidableEq

def validRate (rate : UInt8) : Bool :=
  [2, 4, 11, 22, 12, 18, 24, 36, 48, 72, 96, 108].contains (rate &&& 0x7f)

/-- The two nested loops of `encode`. -/
def validRates : List UInt8 → Bool
  | [] => true
  | r :: rs => validRate r && validRates rs && !(rs.map (· &&& 0x7f)).contains (r &&& 0x7f)

/-- `encode` into a buffer of the caller, which is not null and does not overlap the rates. -/
def encode (rates : Option (List UInt8)) (capacity : ℕ) : Except Error (List UInt8) :=
  match rates with
  | none => .error .rates
  | some rates =>
      if rates = [] ∨ maxRates < rates.length then
        .error .rates
      else if !validRates rates then
        .error .rates
      else if capacity < 2 + 2 + rates.length + (if 8 < rates.length then 2 else 0) then
        .error .buffer
      else
        let first := [0, 0, 1, UInt8.ofNat (min rates.length 8)] ++ rates.take 8
        .ok (if 8 < rates.length then first ++ [50, UInt8.ofNat (rates.length - 8)] ++ rates.drop 8 else first)

/-! ## The kernel's side -/

/-- A call of `freeDetachedNode`: the references the node still had, and the live frames that held them. -/
structure Freed where
  node : ℕ
  references : ℕ
  frames : ℕ
  deriving DecidableEq

/-- The objects behind `Ops`.  Nodes and bodies are numbered in the order of their creation. -/
structure Kernel where
  nodes : ℕ := 0
  references : ℕ → ℕ := fun _ => 0
  freed : List Freed := []
  bodies : ℕ := 0
  /-- The bodies that were freed or consumed, once for each time. -/
  disposed : List ℕ := []
  /-- The nodes of the frames that are queued, prepared or owned by the hardware. -/
  frames : List ℕ := []
  locked : Bool := false
  pumping : Bool := false

structure FrameOwner where
  node : Option ℕ := none
  ops : Kernel := {}

/-- What `managementOutput` returns, and whether the frame is in the queue then. -/
structure Output where
  error : Int32
  queued : Bool
  deriving DecidableEq

/-- What the kernel decides. -/
inductive Choice
  | createNode (channel : UInt8) (rates : List UInt8)
  | createBody (body : List UInt8)
  | queueReady
  | queueDrops
  | managementOutput

@[reducible] def Reply : Choice → Type
  | .createNode _ _ => Bool
  | .createBody _ => Bool
  | .queueReady => Bool
  | .queueDrops => UInt32
  | .managementOutput => Output

abbrev Probing (α : Type) : Type := Code FrameOwner Choice Reply Empty α

namespace Ops

def onKernel (f : Kernel → Kernel) : Probing Unit := modify fun s => { s with ops := f s.ops }

def createNode (channel : UInt8) (rates : List UInt8) : Probing (Option ℕ) := do
  if (← Code.ask (Choice.createNode channel rates)) then do
    let node := (← get).ops.nodes
    onKernel fun k => { k with nodes := node + 1, references := Function.update k.references node 1 }
    return some node
  else
    return none

def createBody (body : List UInt8) : Probing (Option ℕ) := do
  if (← Code.ask (Choice.createBody body)) then do
    let frame := (← get).ops.bodies
    onKernel fun k => { k with bodies := frame + 1 }
    return some frame
  else
    return none

def freeBody (frame : ℕ) : Probing Unit := onKernel fun k => { k with disposed := frame :: k.disposed }

def retainNode (node : ℕ) : Probing Unit :=
  onKernel fun k => { k with references := Function.update k.references node (k.references node + 1) }

def releaseNode (node : ℕ) : Probing Unit :=
  onKernel fun k => { k with references := Function.update k.references node (k.references node - 1) }

def references (node : ℕ) : Probing ℕ := do
  return (← get).ops.references node

def freeDetachedNode (node : ℕ) : Probing Unit :=
  onKernel fun k => { k with freed := ⟨node, k.references node, k.frames.count node⟩ :: k.freed }

def lockQueue : Probing Unit := onKernel fun k => { k with locked := true }

def unlockQueue : Probing Unit := onKernel fun k => { k with locked := false }

def queueReady : Probing Bool := Code.ask Choice.queueReady

def queueDrops : Probing UInt32 := Code.ask Choice.queueDrops

def suppressPump (value : Bool) : Probing Unit := onKernel fun k => { k with pumping := value }

/-- The body is consumed in any case; the frame may be in the queue or not, whatever is returned. -/
def managementOutput (node frame : ℕ) : Probing Int32 := do
  let out ← Code.ask Choice.managementOutput
  onKernel fun k => { k with
    disposed := frame :: k.disposed
    frames := if out.queued then node :: k.frames else k.frames }
  return out.error

def queueContainsOnly (node : ℕ) : Probing Bool := do
  return (← get).ops.frames.contains node

end Ops

/-! ## The owner -/

namespace FrameOwner

open Ops

def setNode (node : Option ℕ) : Probing Unit := modify fun s => { s with node := node }

def releaseOwner : Probing Bool := do
  match (← get).node with
  | none => return true
  | some node => do
      if (← references node) ≠ 1 then
        return false
      else do
        releaseNode node
        freeDetachedNode node
        setNode none
        return true

/-- `queueFrame` after `managementOutput`: what became of the frame. -/
def settle (node : ℕ) (drops : UInt32) (error : Int32) : Probing Bool := do
  suppressPump false
  let queued ← queueContainsOnly node
  let accepted ← if error = 0 ∧ queued = true then (· == drops) <$> queueDrops else pure false
  if !queued then releaseNode node
  unlockQueue
  if !accepted && !queued then
    let _ ← releaseOwner
  return accepted

/-- `queueFrame` from `lockQueue` on. -/
def submit (node frame : ℕ) : Probing Bool := do
  lockQueue
  if !(← queueReady) then do
    unlockQueue
    freeBody frame
    let _ ← releaseOwner
    return false
  else do
    let drops ← queueDrops
    retainNode node
    suppressPump true
    let error ← managementOutput node frame
    settle node drops error

def queueFrame (channel : UInt8) (rates : Option (List UInt8)) : Probing Bool := do
  if (← get).node ≠ none then
    return false
  else
    match encode rates maxBytes with
    | .error _ => return false
    | .ok body => do
        setNode (← createNode channel (rates.getD []))
        match (← get).node with
        | none => return false
        | some node => do
            match (← createBody body) with
            | none => do
                let _ ← releaseOwner
                return false
            | some frame => submit node frame

/-- The queue or the hardware is done with a frame of `node`, and lets go of its reference. -/
def frameDone (node : ℕ) : Probing Bool := do
  if (← get).ops.frames.contains node then do
    onKernel fun k => { k with
      frames := k.frames.erase node
      references := Function.update k.references node (k.references node - 1) }
    return true
  else
    return false

end FrameOwner

/-! ## Calls -/

inductive Op
  | queueFrame (channel : UInt8) (rates : Option (List UInt8))
  | releaseOwner
  | frameDone (node : ℕ)

def exec : Op → Probing Bool
  | .queueFrame channel rates => FrameOwner.queueFrame channel rates
  | .releaseOwner => FrameOwner.releaseOwner
  | .frameDone node => FrameOwner.frameDone node

abbrev Record := Interaction.Record FrameOwner Choice Reply Empty Op Bool

/-- Any calls, with frames done in between, whatever the kernel decides. -/
abbrev Run : List Record → FrameOwner → Prop := Interaction.Run exec {}

end ScanProbe
end Rtl8852be
