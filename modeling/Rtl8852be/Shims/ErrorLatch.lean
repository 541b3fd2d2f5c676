import Rtl8852be.MacInit.Accesses
import Rtl8852be.Power.Accesses
import Rtl8852be.Rfk.Accesses
import Rtl8852be.Tuning.Accesses

/-!
# ErrorLatch — the register shims under code that ignores every result

The imported functions run over four objects that have the same shape: an error that is recorded once, a
clock, a budget, and accessors that check all of these first.

* `error_latch` — after the first sign of a fault nothing reaches the registers, the recorded error stays,
  the accesses are bounded, and no accessor changes bits outside its mask;
* `unrecorded_refusals` — what is no sign of a fault: a serial command that is refused by its result only,
  and a poll that starts at an earlier time.  A refused address or mask is always a sign of one, by its
  value alone.
-/

namespace Rtl8852be
namespace Shims

open Interaction

/-- An object with a latch, under calls in any order whose results are all ignored. -/
structure Latching {σ C : Type} {R : C → Type} {N ρ Op X K V : Type} {S : X → Type} (exec : Op → Code σ C R N Unit)
    (L : Latch σ C R N ρ) (access : (x : X) → Code σ C R N (S x)) (B : Bus C R N K V)
    (allowed : X → K → Option V → V → Prop) : Prop where
  contained : ∀ s₀ h s, Run exec s₀ h s → Contained L s₀ h
  updates : ∀ x, (access x).Keeps fun _ log _ => B.Updates (allowed x) log

theorem error_latch :
    Latching MacInit.exec MacInit.latch MacInit.access MacInit.bus (fun x => MacInit.Masked x.masks) ∧
      Latching Rfk.exec Rfk.latch Rfk.access Rfk.bus (fun x => Rfk.Masked x.masks) ∧
      Latching Tuning.ignoring Tuning.latch Tuning.access Tuning.bus (fun x => Tuning.Masked x.masks) ∧
      Latching Power.ignoring Power.latch Power.access Power.bus (fun x => Power.Masked x.masks) := by
  refine ⟨⟨?_, MacInit.access_updates⟩, ⟨?_, Rfk.access_updates⟩, ⟨?_, Tuning.access_updates⟩,
    ⟨?_, Power.access_updates⟩⟩
  · exact fun _ _ _ hrun => contained_of_keeps MacInit.keeps_exec hrun
  · exact fun _ _ _ hrun => contained_of_keeps Rfk.keeps_exec hrun
  · exact fun _ _ _ hrun => contained_of_keeps Tuning.keeps_ignoring hrun
  · exact fun _ _ _ hrun => contained_of_keeps Power.keeps_ignoring hrun

/-! ## What is no sign of a fault -/

/-- A device that is there, and whose registers are zero. -/
def answering (c : Power.Call) : Unit → Power.Reply c × Unit := fun _ =>
  match c with
  | .inGate => (true, ())
  | .cancelled => (false, ())
  | .command => (2, ())
  | .nowUs => (0, ())
  | .read _ _ => ((true, 0), ())
  | .write _ _ _ | .delayUs _ => (true, ())

/-- A device whose clock shows 5 when a poll starts, and 10 else. -/
def turning (c : MacInit.Call) : Unit → MacInit.Reply c × Unit := fun _ =>
  match c with
  | .cancelled => (false, ())
  | .nowUs => (10, ())
  | .startUs => (5, ())
  | .read _ _ => ((true, 0), ())
  | .write _ _ _ | .delayUs _ => (true, ())

/-- A command for a register that may not be written, then a read. -/
def refusedThenRead : List Power.Shim := [.writeXtalSi 0 0 0, .access (.read32 Power.icPwrState)]

def readThenPoll : List MacInit.Op :=
  [.access (.read32 0x8400), .poll 1 100 (.ask (.read32 0x8400) fun _ => .done true)]

/-- The readings of the clock, the starts of polls included. -/
def readings (log : MacInit.Trace) : List UInt64 :=
  log.filterMap fun e =>
    match e with
    | .call .nowUs t => some t
    | .call .startUs t => some t
    | _ => none

theorem unrecorded_refusals :
    (Run Power.ignoring {} (replay Power.ignoring answering refusedThenRead {} ()).1
        (replay Power.ignoring answering refusedThenRead {} ()).2.1 ∧
      Power.powerSiCommand (Power.siWord 0 0 0) = false ∧
      (replay Power.ignoring answering refusedThenRead {} ()).1.map (fun x => x.log.any Power.reaches) =
        [true, false]) ∧
    (MacInit.Run {} (replay MacInit.exec turning readThenPoll {} ()).1
        (replay MacInit.exec turning readThenPoll {} ()).2.1 ∧
      (replay MacInit.exec turning readThenPoll {} ()).1.map (fun x => (readings x.log, x.log.any MacInit.reaches)) =
        [([5, 10, 10, 10], true), ([10], true)]) := by
  refine ⟨⟨replay_run _ _ _ _ _, by decide +kernel, by decide +kernel⟩, replay_run _ _ _ _ _, by decide +kernel⟩

end Shims
end Rtl8852be
