import Rtl8852be.Interaction.Nesting
import Rtl8852be.RadioBoot.RadioBootSequence

/-!
# HookedSequence — the sequence with a backend that calls back

`RadioBootSequence.hpp` once more.  A hook of the backend may call the entry points of the sequence before it returns;
`inGate`, `healthy` and `failed` only answer.  Where nobody calls back, this is the sequence of `RadioBootSequence`
(`exec_alone`).
-/

namespace Rtl8852be
namespace RadioBoot
namespace Hooked

open Interaction

abbrev Gated := Reentrant Sequence Call Reply Call Empty

/-- The entry points may be called before the reply is there. -/
def hook (c : Call) : Gated (Reply c) := do
  let _ ← Reentrant.lend c
  Reentrant.ask c

def fail (e : Error) : Gated Bool := do
  modify fun s => s.failing e
  Reentrant.ask Call.failed
  return false

def check (now : UInt64) : Gated Bool := do
  let s ← get
  if ← Reentrant.ask Call.inGate then
    if now < s.last then
      fail .clock
    else do
      modify fun s => { s with last := now }
      if s.result.stage = .fault ∨ s.result.stage = .stopped then
        return false
      else if s.busy ∧ s.action.limitUs ≤ now - s.started then
        fail .timeout
      else if ← Reentrant.ask Call.healthy then
        return true
      else
        fail .backend
  else
    fail .ownership

/-- `Guard`. -/
def guarded (body : Gated Bool) : Gated Bool := do
  modify fun s => { s with active := true }
  let ok ← body
  modify fun s => { s with active := false }
  return ok

/-- The `result.error != Error::none` that follows a hook. -/
def clean (ok : Bool) : Gated Bool := do
  let s ← get
  return ok && s.result.error == .none

def enter (stage : Stage) : Gated Bool := do
  modify fun s => s.inStage stage
  return true

def acquire : Gated Bool := do
  modify fun s => { s with result := { s.result with step := s.next } }
  let s ← get
  let ok ← hook (Call.requestLease s.result.step)
  if ← clean ok then
    enter .acquire
  else
    fail .backend

def begin (now : UInt64) : Gated Bool := do
  let s ← get
  if s.result.stage ≠ .idle ∨ s.active then
    return false
  else if ← check now then
    guarded do
      modify fun s => { s with started := now }
      let ok ← Reentrant.both (hook Call.pause) (hook Call.prepare)
      if ← clean ok then
        enter .upload
      else
        fail .backend
  else
    return false

def launch (a : Action) (now : UInt64) : Gated Bool := do
  let s ← get
  if s.result.stage ≠ .ready ∨ !s.result.initialized ∨ s.active then
    return false
  else if s.result.refuses a then
    return false
  else if ← check now then
    guarded do
      modify fun s => s.launched a now
      let ok ← hook Call.pause
      if ← clean ok then
        acquire
      else
        fail .backend
  else
    return false

/-- What `service` does after its last hook. -/
def settle : Gated Bool := do
  let s ← get
  if s.result.error ≠ .none then do
    modify fun s => s.inStage .fault
    return false
  else
    return true

/-- The state machine of `service`, with the stage it found. -/
def advance : Stage → Gated Bool
  | .upload => do
      let p : Progress ← hook Call.upload
      match p with
      | .failed => fail .backend
      | .pending => settle
      | .complete =>
          if ← hook Call.startBt then do
            let _ ← enter .btInitialization
            settle
          else
            fail .backend
  | .btInitialization => do
      let p : Progress ← hook Call.pollBt
      match p with
      | .failed => fail .backend
      | .pending => settle
      | .complete => do
          modify fun s => { s with index := 0 }
          Reentrant.both acquire settle
  | .acquire => do
      let p : Progress ← hook Call.pollLease
      match p with
      | .failed => fail .backend
      | .pending => settle
      | .complete => do
          let _ ← enter .run
          settle
  | .run => do
      let s ← get
      if ← Reentrant.both (hook (Call.run s.result.step)) (hook Call.finishLease) then do
        let _ ← enter .restore
        settle
      else
        fail .backend
  | .restore => do
      let p : Progress ← hook Call.pollRestore
      match p with
      | .failed => fail .backend
      | .pending => settle
      | .complete => do
          modify fun s => { s with index := s.index + 1 }
          let s ← get
          if s.index < s.action.count then
            Reentrant.both acquire settle
          else if ← hook (Call.finishOperation s.action) then do
            modify Sequence.completed
            settle
          else
            fail .backend
  | .idle | .ready => settle
  | .fault | .stopped => return false

def service (now : UInt64) : Gated Bool := do
  let s ← get
  if s.active then
    fail .ownership
  else if ← check now then
    guarded do
      let s ← get
      advance s.result.stage
  else
    return false

def stop : Gated Bool := do
  let s ← get
  if s.active then
    fail .ownership
  else do
    Reentrant.ask Call.failed
    modify fun s =>
      { s with result := { s.result with tuned := false, fullCalibration := false, stage := .stopped } }
    return true

def exec : Op → Gated Bool
  | .begin now => begin now
  | .launch action now => launch action now
  | .service now => service now
  | .stop => stop

/-! ## Where nobody calls back -/

section Alone

variable {α : Type}

@[simp] theorem alone_if {c : Prop} [Decidable c] (m m' : Gated α) :
    (if c then m else m').alone = if c then m.alone else m'.alone := by
  split <;> rfl

@[simp] theorem alone_pure (a : α) : (pure a : Gated α).alone = pure a := rfl

@[simp] theorem alone_get : (get : Gated Sequence).alone = get := rfl

@[simp] theorem alone_modify (g : Sequence → Sequence) : (modify g : Gated PUnit).alone = modify g := rfl

@[simp] theorem alone_ask (c : Call) :
    @Reentrant.alone Sequence Call Reply Call Empty (no_index (Reply c)) (Reentrant.ask c) = Code.ask c := rfl

@[simp] theorem hook_alone (c : Call) :
    @Reentrant.alone Sequence Call Reply Call Empty (no_index (Reply c)) (hook c) = Code.ask c := rfl

@[simp] theorem both_alone (m m' : Gated Bool) : (Reentrant.both m m').alone = Code.both m.alone m'.alone := by
  unfold Reentrant.both Code.both
  simp only [Reentrant.alone_bind, alone_if, alone_pure]

@[simp] theorem fail_alone (e : Error) : (fail e).alone = RadioBoot.fail e := rfl

@[simp] theorem settle_alone : settle.alone = RadioBoot.settle := by
  unfold settle RadioBoot.settle
  simp only [Reentrant.alone_bind, alone_get, alone_if, alone_modify, alone_pure]

@[simp] theorem enter_alone (stage : Stage) : (enter stage).alone = RadioBoot.enter stage := rfl

@[simp] theorem check_alone (now : UInt64) : (check now).alone = RadioBoot.check now := by
  unfold check RadioBoot.check
  simp only [Reentrant.alone_bind, alone_get, alone_ask, alone_if, alone_modify, alone_pure, fail_alone]

theorem guarded_alone (m : Gated Bool) : (guarded m).alone = RadioBoot.guarded m.alone := by
  unfold guarded RadioBoot.guarded
  simp only [Reentrant.alone_bind, alone_modify, alone_pure]

theorem acquire_alone : acquire.alone = RadioBoot.acquire := by
  unfold acquire RadioBoot.acquire clean RadioBoot.clean
  simp only [Reentrant.alone_bind, alone_get, alone_if, alone_modify, alone_pure, hook_alone, enter_alone, fail_alone]

theorem advance_alone (stage : Stage) : (advance stage).alone = RadioBoot.advance stage := by
  cases stage with
  | upload =>
      unfold advance RadioBoot.advance
      simp only [Reentrant.alone_bind, hook_alone]
      refine congrArg (Code.ask Call.upload >>= ·) (funext fun p => ?_)
      cases p with
      | pending => exact settle_alone
      | failed => rfl
      | complete => simp only [Reentrant.alone_bind, hook_alone, alone_if, enter_alone, settle_alone, fail_alone]
  | btInitialization =>
      unfold advance RadioBoot.advance
      simp only [Reentrant.alone_bind, hook_alone]
      refine congrArg (Code.ask Call.pollBt >>= ·) (funext fun p => ?_)
      cases p with
      | pending => exact settle_alone
      | failed => rfl
      | complete => simp only [Reentrant.alone_bind, alone_modify, both_alone, acquire_alone, settle_alone]
  | acquire =>
      unfold advance RadioBoot.advance
      simp only [Reentrant.alone_bind, hook_alone]
      refine congrArg (Code.ask Call.pollLease >>= ·) (funext fun p => ?_)
      cases p with
      | pending => exact settle_alone
      | failed => rfl
      | complete => simp only [Reentrant.alone_bind, enter_alone, settle_alone]
  | run =>
      unfold advance RadioBoot.advance
      simp only [Reentrant.alone_bind, alone_get, both_alone, hook_alone, alone_if, enter_alone, settle_alone, fail_alone]
  | restore =>
      unfold advance RadioBoot.advance
      simp only [Reentrant.alone_bind, hook_alone]
      refine congrArg (Code.ask Call.pollRestore >>= ·) (funext fun p => ?_)
      cases p with
      | pending => exact settle_alone
      | failed => rfl
      | complete =>
          simp only [Reentrant.alone_bind, alone_modify, alone_get, alone_if, both_alone, acquire_alone, hook_alone,
            settle_alone, fail_alone]
  | idle => exact settle_alone
  | ready => exact settle_alone
  | fault => rfl
  | stopped => rfl

theorem exec_alone (op : Op) : (exec op).alone = RadioBoot.exec op := by
  cases op with
  | begin now =>
      unfold exec RadioBoot.exec begin RadioBoot.begin clean RadioBoot.clean
      simp only [Reentrant.alone_bind, alone_get, alone_if, alone_pure, check_alone, guarded_alone, alone_modify,
        both_alone, hook_alone, enter_alone, fail_alone]
  | launch a now =>
      unfold exec RadioBoot.exec launch RadioBoot.launch clean RadioBoot.clean
      simp only [Reentrant.alone_bind, alone_get, alone_if, alone_pure, check_alone, guarded_alone, alone_modify,
        hook_alone, acquire_alone, fail_alone]
  | service now =>
      unfold exec RadioBoot.exec service RadioBoot.service
      simp only [Reentrant.alone_bind, alone_get, alone_if, alone_pure, check_alone, guarded_alone, advance_alone,
        fail_alone]
  | stop =>
      unfold exec RadioBoot.exec stop RadioBoot.stop
      simp only [Reentrant.alone_bind, alone_get, alone_if, alone_ask, alone_pure, alone_modify, fail_alone]

end Alone

end Hooked
end RadioBoot
end Rtl8852be
