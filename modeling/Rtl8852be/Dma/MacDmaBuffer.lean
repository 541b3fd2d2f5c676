import Rtl8852be.Interaction.Checks
import Rtl8852be.Interaction.Custody
import Rtl8852be.Interaction.History
import Rtl8852be.Wire.Descriptors

/-!
# MacDmaBuffer — one buffer that the device can reach

`MacDmaBuffer`, with the kernel's memory and DMA objects as the environment: any of their methods can
fail at any time.  Pointers are modelled as whether they are null.

* `cleanup_spec` — how far a cleanup gets;
* `call_kept` — what a call does to the resources that are held;
* `buffer_lifetime` — over every run, resources are taken and given back once and in order.
-/

namespace Rtl8852be
namespace Dma

open Interaction Network Code

/-! ## The kernel's objects -/

/-- What `gen64IOVMSegments` returns and leaves in its arguments. -/
structure Segments where
  ok : Bool
  count : ℕ
  offset : ℕ
  length : ℕ
  address : ℕ
  deriving DecidableEq

/-- The methods that are called. -/
inductive Kit
  | inGate
  | vendorId
  | deviceId
  | copyMapperForDevice
  | inTaskWithPhysicalMask (bytes : ℕ)
  | prepareMemory
  | withSpecification (bytes alignment : ℕ)
  | setMemoryDescriptor
  | getMemoryDescriptor
  | prepareCommand
  | gen64IOVMSegments
  | getBytesNoCopy
  | synchronize (out : Bool)
  | completeCommand
  | clearMemoryDescriptor
  | releaseCommand
  | completeMemory
  | releaseMemory
  | releaseMapper
  deriving DecidableEq

/-- A method succeeds, or returns an object that is not null. -/
@[reducible] def Answer : Kit → Type
  | .vendorId => UInt16
  | .deviceId => UInt16
  | .gen64IOVMSegments => Segments
  | .getBytesNoCopy => Option ℕ
  | .releaseCommand => Unit
  | .releaseMemory => Unit
  | .releaseMapper => Unit
  | _ => Bool

/-! ## The class -/

inductive DmaStatus
  | ok
  | invalid
  | busy
  | allocateFailed
  | prepareFailed
  | commandFailed
  | attachFailed
  | segmentFailed
  | syncFailed
  | cleanupFailed
  deriving DecidableEq, Repr

structure MacDmaBuffer where
  memory : Bool := false
  command : Bool := false
  mapper : Bool := false
  memoryPrepared : Bool := false
  commandPrepared : Bool := false
  attached : Bool := false
  visible : Bool := false
  ready : Bool := false
  mapping_ : DataMapping := {}
  status : DmaStatus := .ok
  deriving DecidableEq

/-- What has to be given back. -/
inductive Resource
  | commandPrepared
  | attached
  | command
  | memoryPrepared
  | memory
  | mapper
  deriving DecidableEq, Repr

/-- The order in which `cleanup` gives them back. -/
def order : List Resource := [.commandPrepared, .attached, .command, .memoryPrepared, .memory, .mapper]

abbrev Buffered (α : Type) : Type := Code MacDmaBuffer Kit Answer Empty α

abbrev Trace : Type := List (Event Kit Answer Empty)

namespace MacDmaBuffer

def held (s : MacDmaBuffer) : Resource → Bool
  | .commandPrepared => s.commandPrepared
  | .attached => s.attached
  | .command => s.command
  | .memoryPrepared => s.memoryPrepared
  | .memory => s.memory
  | .mapper => s.mapper

def setHeld (r : Resource) (b : Bool) (s : MacDmaBuffer) : MacDmaBuffer :=
  match r with
  | .commandPrepared => { s with commandPrepared := b }
  | .attached => { s with attached := b }
  | .command => { s with command := b }
  | .memoryPrepared => { s with memoryPrepared := b }
  | .memory => { s with memory := b }
  | .mapper => { s with mapper := b }

def setStatus (status : DmaStatus) (s : MacDmaBuffer) : MacDmaBuffer := { s with status := status }

/-- `mapping()`. -/
def mapping (s : MacDmaBuffer) : DataMapping := if s.ready then s.mapping_ else {}

def kit (c : Kit) : Buffered (Answer c) := ask c

/-- The method that gives a resource back; only `complete` and `clearMemoryDescriptor` can fail. -/
def giveBack : Resource → Buffered Bool
  | .commandPrepared => kit .completeCommand
  | .attached => kit .clearMemoryDescriptor
  | .command => do
      let _ ← kit .releaseCommand
      return true
  | .memoryPrepared => kit .completeMemory
  | .memory => do
      let _ ← kit .releaseMemory
      return true
  | .mapper => do
      let _ ← kit .releaseMapper
      return true

/-- One line of `cleanup`. -/
def dispose (r : Resource) : Buffered Bool := do
  let s ← get
  if !s.held r then
    return true
  if ← giveBack r then
    modify (setHeld r false)
    return true
  return false

def unready (s : MacDmaBuffer) : MacDmaBuffer :=
  { s with
    ready := false
    mapping_ := {} }

def cleanup : Buffered Bool := do
  let s ← get
  if s.visible then
    return false
  modify unready
  every (order.map dispose)

def fail (status : DmaStatus) : Buffered Bool := do
  let ok ← cleanup
  modify (setStatus (if ok then status else .cleanupFailed))
  return false

def synchronize (out : Bool) : Buffered Bool := do
  let s ← get
  if !s.ready || !s.commandPrepared then
    modify (setStatus .invalid)
    return false
  if ← kit (.synchronize out) then
    modify (setStatus .ok)
    return true
  modify (setStatus .syncFailed)
  return false

def syncForDevice : Buffered Bool := synchronize true

def syncForCpu : Buffered Bool := synchronize false

/-- The arguments of `allocate`; `device` and `workloop` are whether the pointers are not null. -/
structure Request where
  device : Bool := true
  workloop : Bool := true
  bytes : ℕ
  alignment : ℕ
  deriving DecidableEq

/-- The second condition of `allocate`, from left to right. -/
def acceptable (q : Request) : Buffered Bool := do
  if !q.device || !q.workloop then
    return false
  if ← kit .inGate then
    return false
  if q.bytes = 0 || q.bytes > 65536 || q.alignment = 0 || q.alignment > 4096 ||
      q.alignment &&& (q.alignment - 1) ≠ 0 then
    return false
  let vendor ← kit .vendorId
  if vendor ≠ 0x10ec then
    return false
  let device ← kit .deviceId
  return device = 0xb852

/-- `memory_`. -/
def takeMemory (q : Request) : Buffered Bool := do
  let mapper ← kit .copyMapperForDevice
  modify (setHeld .mapper mapper)
  let memory ← kit (.inTaskWithPhysicalMask q.bytes)
  modify (setHeld .memory memory)
  return memory

/-- A call that takes a resource if it succeeds. -/
def takes (r : Resource) (m : Buffered Bool) : Buffered Bool := do
  let ok ← m
  modify (setHeld r ok)
  return ok

/-- `setMemoryDescriptor` can fail and still leave the descriptor attached. -/
def attach : Buffered Bool := do
  let ok ← kit .setMemoryDescriptor
  let attached ← kit .getMemoryDescriptor
  modify (setHeld .attached attached)
  return ok && attached

/-- The checks on the segment: one, of the right length, below 4 GiB and aligned. -/
def Segments.fit (q : Request) (x : Segments) : Bool :=
  x.ok && x.count == 1 && x.offset == q.bytes && x.length == q.bytes &&
    decide (x.address ≤ 0xffffffff) && decide (q.bytes - 1 ≤ 0xffffffff - x.address) &&
    x.address &&& (q.alignment - 1) == 0

/-- `gen64IOVMSegments` and `getBytesNoCopy`. -/
def map (q : Request) : Buffered Bool := do
  let x ← kit .gen64IOVMSegments
  if !Segments.fit q x then
    return false
  let cpu ← kit .getBytesNoCopy
  match cpu with
  | none => return false
  | some cpu =>
      modify fun s => { s with
        mapping_ := ⟨some cpu, x.address, q.bytes⟩
        ready := true }
      return true

/-- What `allocate` does one after the other, with the status it fails with. -/
def stages (q : Request) : List (DmaStatus × Buffered Bool) :=
  [(.allocateFailed, takeMemory q),
    (.prepareFailed, takes .memoryPrepared (kit .prepareMemory)),
    (.commandFailed, takes .command (kit (.withSpecification q.bytes q.alignment))),
    (.attachFailed, attach),
    (.prepareFailed, takes .commandPrepared (kit .prepareCommand)),
    (.segmentFailed, map q),
    (.syncFailed, syncForDevice)]

def build : List (DmaStatus × Buffered Bool) → Buffered Bool
  | [] => do
      modify (setStatus .ok)
      return true
  | (status, stage) :: rest => do
      if ← stage then
        build rest
      else
        fail status

def allocate (q : Request) : Buffered Bool := do
  let s ← get
  if s.memory || s.command || s.mapper || s.visible then
    modify (setStatus .busy)
    return false
  if ← acceptable q then
    build (stages q)
  else
    modify (setStatus .invalid)
    return false

def markDeviceVisible : Buffered Bool := do
  let s ← get
  if !s.ready then
    modify (setStatus .invalid)
    return false
  modify fun s => { s with
    visible := true
    status := .ok }
  return true

def release : Buffered Bool := do
  let s ← get
  if s.visible then
    modify (setStatus .busy)
    return false
  let ok ← cleanup
  modify (setStatus (if ok then .ok else .cleanupFailed))
  return ok

def releaseAfterDmaStopped : Buffered Bool := do
  modify fun s => { s with visible := false }
  release

/-! ## Calls -/

inductive Op
  | allocate (q : Request)
  | syncForDevice
  | syncForCpu
  | markDeviceVisible
  | release
  | releaseAfterDmaStopped
  deriving DecidableEq

def exec : Op → Buffered Bool
  | .allocate q => allocate q
  | .syncForDevice => syncForDevice
  | .syncForCpu => syncForCpu
  | .markDeviceVisible => markDeviceVisible
  | .release => release
  | .releaseAfterDmaStopped => releaseAfterDmaStopped

/-! ## Resources -/

def deed : Event Kit Answer Empty → Deed Resource
  | .call .copyMapperForDevice ok => if ok then .takes .mapper else .nothing
  | .call (.inTaskWithPhysicalMask _) ok => if ok then .takes .memory else .nothing
  | .call .prepareMemory ok => if ok then .takes .memoryPrepared else .nothing
  | .call (.withSpecification _ _) ok => if ok then .takes .command else .nothing
  | .call .getMemoryDescriptor ok => if ok then .takes .attached else .nothing
  | .call .prepareCommand ok => if ok then .takes .commandPrepared else .nothing
  | .call .completeCommand ok => if ok then .frees .commandPrepared else .fails .commandPrepared
  | .call .clearMemoryDescriptor ok => if ok then .frees .attached else .fails .attached
  | .call .releaseCommand _ => .frees .command
  | .call .completeMemory ok => if ok then .frees .memoryPrepared else .fails .memoryPrepared
  | .call .releaseMemory _ => .frees .memory
  | .call .releaseMapper _ => .frees .mapper
  | _ => .nothing

/-- The resources change as the trace says. -/
def Accounted (s : MacDmaBuffer) (log : Trace) (s' : MacDmaBuffer) : Prop :=
  Custody deed order s.held log s'.held

theorem accounted_traced : Traced Accounted where
  refl := fun _ => custody_nil
  trans := fun h h' => Custody.trans h h'

/-- Everything but the resources is the same. -/
structure Alike (s s' : MacDmaBuffer) : Prop where
  visible : s'.visible = s.visible
  ready : s'.ready = s.ready
  mapping_ : s'.mapping_ = s.mapping_

theorem Alike.refl (s : MacDmaBuffer) : Alike s s := ⟨rfl, rfl, rfl⟩

theorem Alike.trans {s s' s'' : MacDmaBuffer} (h : Alike s s') (h' : Alike s' s'') : Alike s s'' :=
  ⟨h'.visible.trans h.visible, h'.ready.trans h.ready, h'.mapping_.trans h.mapping_⟩

theorem alike_setHeld (r : Resource) (b : Bool) (s : MacDmaBuffer) : Alike s (setHeld r b s) := by
  cases r <;> exact ⟨rfl, rfl, rfl⟩

@[simp] theorem held_setHeld (r : Resource) (b : Bool) (s : MacDmaBuffer) :
    (setHeld r b s).held = Function.update s.held r b := by
  funext x
  cases r <;> cases x <;> rfl

section Rules

variable {α : Type} {Q : Trace → α → MacDmaBuffer → Prop} {s : MacDmaBuffer}

@[simp] theorem wp_kit_bind (c : Kit) (f : Answer c → Buffered α) :
    (kit c >>= f).wp Q s ↔ ∀ r, (f r).wp (fun log a s' => Q (.call c r :: log) a s') s :=
  wp_ask_bind c f

theorem wp_kit (c : Kit) {Q : Trace → Answer c → MacDmaBuffer → Prop} :
    (kit c).wp Q s ↔ ∀ r, Q [.call c r] r s := wp_ask c

end Rules

variable {s s' : MacDmaBuffer} {log : Trace}

/-! ### Giving back -/

/-- The deed of giving `r` back, or of failing to. -/
def disposal (r : Resource) (ok : Bool) : Deed Resource := if ok then .frees r else .fails r

theorem giveBack_spec (r : Resource) (s : MacDmaBuffer) :
    (giveBack r).wp (fun log ok s' => s' = s ∧ ∃ e, log = [e] ∧ deed e = disposal r ok) s := by
  cases r with
  | commandPrepared => exact (wp_kit _).2 fun ok => ⟨rfl, _, rfl, rfl⟩
  | attached => exact (wp_kit _).2 fun ok => ⟨rfl, _, rfl, rfl⟩
  | memoryPrepared => exact (wp_kit _).2 fun ok => ⟨rfl, _, rfl, rfl⟩
  | command => exact (wp_kit_bind _ _).2 fun _ => (wp_pure true).2 ⟨rfl, _, rfl, rfl⟩
  | memory => exact (wp_kit_bind _ _).2 fun _ => (wp_pure true).2 ⟨rfl, _, rfl, rfl⟩
  | mapper => exact (wp_kit_bind _ _).2 fun _ => (wp_pure true).2 ⟨rfl, _, rfl, rfl⟩

/-- One line of `cleanup`: nothing to do, done, or failed. -/
theorem dispose_spec (r : Resource) (s : MacDmaBuffer) :
    (dispose r).wp (fun log ok s' =>
      (s.held r = false ∧ log = [] ∧ ok = true ∧ s' = s) ∨
      (s.held r = true ∧ ∃ e, log = [e] ∧ deed e = disposal r ok ∧
        s' = if ok then setHeld r false s else s)) s := by
  rw [dispose, wp_get_bind, wp_ite]
  constructor
  · intro h
    rw [wp_pure]
    exact Or.inl ⟨by simpa using h, rfl, rfl, rfl⟩
  · intro h
    have hheld : s.held r = true := by simpa using h
    rw [wp_bind]
    refine wp_mono (giveBack_spec r s) ?_
    rintro log ok s₁ ⟨rfl, e, rfl, he⟩
    cases ok with
    | true =>
        rw [if_pos rfl, wp_modify_bind, wp_pure]
        exact Or.inr ⟨hheld, e, rfl, he, rfl⟩
    | false =>
        rw [if_neg nofun, wp_pure]
        exact Or.inr ⟨hheld, e, rfl, he, rfl⟩

/-- These resources are gone, the others are as before. -/
structure Gone (gone : List Resource) (s s' : MacDmaBuffer) : Prop where
  held : ∀ r, s'.held r = (s.held r && decide (r ∉ gone))
  alike : Alike s s'

theorem gone_nil (s : MacDmaBuffer) : Gone [] s s := ⟨by simp, Alike.refl s⟩

variable {gone rest yes : List Resource}

theorem Gone.trans {more : List Resource} {s s' s'' : MacDmaBuffer} (h : Gone gone s s') (h' : Gone more s' s'') :
    Gone (gone ++ more) s s'' := by
  refine ⟨fun r => ?_, h.alike.trans h'.alike⟩
  rw [h'.held, h.held, Bool.and_assoc, ← Bool.decide_and]
  simp only [List.mem_append, not_or]

theorem gone_setHeld (r : Resource) (s : MacDmaBuffer) : Gone [r] s (setHeld r false s) := by
  refine ⟨fun x => ?_, alike_setHeld r false s⟩
  rw [held_setHeld]
  by_cases hx : x = r
  · subst hx
    simp
  · simp [hx]

variable {r : Resource}

theorem gone_of_not_held (h : s.held r = false) : Gone [r] s s := by
  refine ⟨fun x => ?_, Alike.refl s⟩
  by_cases hx : x = r
  · subst hx
    simp [h]
  · simp [hx]

/-- When those before it are gone, a resource that is held may be given back. -/
theorem mayFree_of_gone (horder : order = gone ++ r :: rest) (hgone : ∀ x ∈ gone, s.held x = false)
    (hr : s.held r = true) : mayFree order s.held r = true := by
  have hnodup : order.Nodup := by decide
  have hnotin : ∀ x ∈ gone, decide (x ≠ r) = true := by
    intro x hx
    rw [horder] at hnodup
    apply decide_eq_true
    rintro rfl
    exact List.disjoint_of_nodup_append hnodup hx List.mem_cons_self
  rw [mayFree, horder, List.takeWhile_append_of_pos hnotin, hr]
  simpa using hgone

/-- What a part of `cleanup` has done: it has given back `gone`, as far as they were held, and if it has
failed then at the first of the rest. -/
structure Cleaned (rs : List Resource) (s : MacDmaBuffer) (log : Trace) (ok : Bool)
    (s' : MacDmaBuffer) (gone rest : List Resource) : Prop where
  split : rs = gone ++ rest
  done : ok = true ↔ rest = []
  after : Gone gone s s'
  accounted : Accounted s log s'
  deeds : log.map deed = (gone.filter s.held).map .frees ++ if ok then [] else rest.head?.toList.map .fails
  stuck : ∀ r ∈ rest.head?, s.held r = true

variable {ok : Bool}

theorem Cleaned.cons {rs : List Resource} {s s₁ s' : MacDmaBuffer} {log : Trace} {first : Trace}
    (h : Cleaned rs s₁ log ok s' gone rest) (hr : r ∉ rs) (hfirst : Gone [r] s s₁) (hacc : Accounted s first s₁)
    (hdeeds : first.map deed = if s.held r then [.frees r] else []) :
    Cleaned (r :: rs) s (first ++ log) ok s' (r :: gone) rest := by
  have hsame : ∀ x ∈ rs, s₁.held x = s.held x := by
    intro x hx
    have hne : x ≠ r := fun hxr => hr (hxr ▸ hx)
    rw [hfirst.held]
    simp [hne]
  have hgone : gone.filter s₁.held = gone.filter s.held := by
    apply List.filter_congr
    intro x hx
    exact hsame x (h.split ▸ List.mem_append_left rest hx)
  refine ⟨by rw [h.split]; rfl, h.done, hfirst.trans h.after, accounted_traced.trans hacc h.accounted,
    ?_, ?_⟩
  · rw [List.map_append, hdeeds, h.deeds, hgone]
    cases hheld : s.held r with
    | true => simp [hheld]
    | false => simp [hheld]
  · intro x hx
    have hmem : x ∈ rs := by
      rw [h.split]
      exact List.mem_append_right gone (List.mem_of_mem_head? hx)
    rw [← hsame x hmem]
    exact h.stuck x hx

theorem every_dispose (rs : List Resource) :
    ∀ (gone : List Resource) (s : MacDmaBuffer), order = gone ++ rs →
      (∀ r ∈ gone, s.held r = false) →
      (every (rs.map dispose)).wp
        (fun log ok s' => ∃ more rest, Cleaned rs s log ok s' more rest) s := by
  induction rs with
  | nil =>
      intro gone s _ _
      refine (wp_pure true).2 ⟨[], [], rfl, by simp, gone_nil s, custody_nil, rfl, (by simp)⟩
  | cons r rs ih =>
      intro gone s horder hgone
      have hnodup : order.Nodup := by decide
      have hr : r ∉ rs := by
        rw [horder] at hnodup
        exact (List.nodup_cons.1 (List.nodup_append.1 hnodup).2.1).1
      have horder' : order = (gone ++ [r]) ++ rs := by
        rw [horder, List.append_assoc]
        rfl
      -- Once `r` is gone, the rest follows by induction.
      have hnext : ∀ {first : Trace} {s₁ : MacDmaBuffer}, Gone [r] s s₁ → Accounted s first s₁ →
          first.map deed = (if s.held r then [.frees r] else []) →
          (every (rs.map dispose)).wp (fun log ok s' => ∃ more rest,
            Cleaned (r :: rs) s (first ++ log) ok s' more rest) s₁ := by
        intro first s₁ hafter hacc hdeeds
        have hgone' : ∀ x ∈ gone ++ [r], s₁.held x = false := by
          intro x hx
          rw [hafter.held]
          rcases List.mem_append.1 hx with hx | hx
          · rw [hgone x hx]
            rfl
          · simp [hx]
        refine wp_mono (ih (gone ++ [r]) s₁ horder' hgone') ?_
        rintro log ok s' ⟨more, rest, h⟩
        exact ⟨r :: more, rest, h.cons hr hafter hacc hdeeds⟩
      rw [List.map_cons, every, wp_both]
      refine wp_mono (dispose_spec r s) ?_
      rintro log ok s₁ (⟨hno, rfl, rfl, rfl⟩ | ⟨hheld, e, rfl, he, rfl⟩)
      · refine ⟨fun _ => ?_, (by rintro ⟨⟩)⟩
        exact hnext (gone_of_not_held hno) custody_nil (by simp [hno])
      · have hmay := mayFree_of_gone horder hgone hheld
        cases ok with
        | true =>
            refine ⟨fun _ => hnext (gone_setHeld r s) ?_ (by simp [hheld, he, disposal]), (by rintro ⟨⟩)⟩
            refine custody_cons.2 ⟨_, ?_, custody_nil⟩
            rw [he, disposal, if_pos rfl, settle, if_pos hmay, if_pos rfl, held_setHeld]
        | false =>
            refine ⟨(by rintro ⟨⟩), fun _ => ⟨[], r :: rs, rfl, by simp, gone_nil s, ?_, ?_, ?_⟩⟩
            · refine custody_cons.2 ⟨_, ?_, custody_nil⟩
              rw [he, disposal, if_neg (by rintro ⟨⟩), settle, if_pos hmay]
              rfl
            · simp [he, disposal]
            · intro x hx
              cases hx
              exact hheld

/-- What `cleanup` has done. -/
structure CleanedUp (s : MacDmaBuffer) (log : Trace) (ok : Bool) (s' : MacDmaBuffer)
    (gone rest : List Resource) : Prop where
  hidden : s.visible = false
  cleaned : Cleaned order (unready s) log ok s' gone rest

theorem cleanup_spec (s : MacDmaBuffer) :
    cleanup.wp (fun log ok s' =>
      (s.visible = true ∧ log = [] ∧ ok = false ∧ s' = s) ∨
      ∃ gone rest, CleanedUp s log ok s' gone rest) s := by
  rw [cleanup, wp_get_bind, wp_ite]
  constructor
  · intro h
    rw [wp_pure]
    exact Or.inl ⟨h, rfl, rfl, rfl⟩
  · intro h
    rw [wp_modify_bind]
    refine wp_mono (every_dispose order [] (unready s) rfl nofun) ?_
    rintro log ok s' ⟨gone, rest, hcleaned⟩
    exact Or.inr ⟨gone, rest, by simpa using h, hcleaned⟩

/-! ### Invariants of one buffer -/

/-- A resource that rests on another one is held only while that one is. -/
structure Sound (s : MacDmaBuffer) : Prop where
  memory : s.memoryPrepared = true → s.memory = true
  attached : s.attached = true → s.command = true
  command : s.commandPrepared = true → s.command = true
  ready : s.ready = true → s.memoryPrepared = true ∧ s.commandPrepared = true
  visible : s.visible = true → s.ready = true

theorem sound_initial : Sound {} := ⟨nofun, nofun, nofun, nofun, nofun⟩

/-- A later resource of the order is still there when an earlier one is. -/
theorem Gone.later {a b : Resource} (h : Gone gone s s') (horder : order = gone ++ rest) (hab : [a, b].Sublist order)
    (hb : s.held a = true → s.held b = true) (ha : s'.held a = true) : s'.held b = true := by
  rw [h.held, Bool.and_eq_true, decide_eq_true_eq] at ha ⊢
  refine ⟨hb ha.1, fun hgone => ?_⟩
  have hnodup : (gone ++ rest).Nodup := by
    rw [← horder]
    decide
  rw [horder] at hab
  rcases List.sublist_append_iff.1 hab with ⟨front, back, hsplit, hfront, hback⟩
  cases front with
  | nil =>
      rw [List.nil_append] at hsplit
      rw [← hsplit] at hback
      exact List.disjoint_of_nodup_append hnodup hgone (hback.subset (by simp))
  | cons x front =>
      cases (List.cons.inj hsplit).1
      exact ha.2 (hfront.subset List.mem_cons_self)

theorem CleanedUp.sound (h : CleanedUp s log ok s' gone rest) (hs : Sound s) : Sound s' := by
  have hgone := h.cleaned.after
  have hready : s'.ready = false := hgone.alike.ready
  have hvisible : s'.visible = false := hgone.alike.visible.trans h.hidden
  refine ⟨?_, ?_, ?_, ?_, ?_⟩
  · exact hgone.later (a := .memoryPrepared) (b := .memory) h.cleaned.split (by decide) hs.memory
  · exact hgone.later (a := .attached) (b := .command) h.cleaned.split (by decide) hs.attached
  · exact hgone.later (a := .commandPrepared) (b := .command) h.cleaned.split (by decide) hs.command
  · intro hno
    exact absurd (hready.symm.trans hno) nofun
  · intro hno
    exact absurd (hvisible.symm.trans hno) nofun

/-- Nothing is held, and nothing is mapped. -/
structure Vacant (s : MacDmaBuffer) : Prop where
  held : ∀ r, s.held r = false
  ready : s.ready = false
  visible : s.visible = false

theorem CleanedUp.vacant (h : CleanedUp s log true s' gone rest) :
    Vacant s' := by
  have hgone := h.cleaned.after
  have hall : gone = order := by
    have hsplit := h.cleaned.split
    rw [h.cleaned.done.1 rfl, List.append_nil] at hsplit
    exact hsplit.symm
  refine ⟨fun r => ?_, hgone.alike.ready, hgone.alike.visible.trans h.hidden⟩
  rw [hgone.held, hall]
  have hmem : r ∈ order := by cases r <;> decide
  simp [hmem]

/-! ### `allocate` -/

/-- What holds after some code, given that all was in order before. -/
structure Kept (s : MacDmaBuffer) (log : Trace) (s' : MacDmaBuffer) : Prop where
  accounted : Sound s → Accounted s log s'
  sound : Sound s → Sound s'

theorem kept_traced : Traced Kept where
  refl := fun _ => ⟨fun _ => custody_nil, id⟩
  trans := by
    intro s s' s'' log log' h h'
    exact ⟨fun hs => accounted_traced.trans (h.accounted hs) (h'.accounted (h.sound hs)),
      fun hs => h'.sound (h.sound hs)⟩

theorem CleanedUp.kept (h : CleanedUp s log ok s' gone rest) : Kept s log s' :=
  ⟨fun _ => h.cleaned.accounted, h.sound⟩

theorem kept_setStatus (status : DmaStatus) (s : MacDmaBuffer) : Kept s [] (setStatus status s) :=
  ⟨fun _ => custody_nil, fun hs => ⟨hs.memory, hs.attached, hs.command, hs.ready, hs.visible⟩⟩

/-- A failure: what can be given back is given back, and nothing is mapped. -/
theorem fail_kept (status : DmaStatus) (hidden : s.visible = false) :
    (fail status).wp (fun log ok s' => Kept s log s' ∧ ok = false ∧ s'.ready = false ∧
      s'.visible = false) s := by
  rw [fail, wp_bind]
  refine wp_mono (cleanup_spec s) ?_
  rintro log ok s₁ (⟨hvisible, -⟩ | ⟨gone, rest, h⟩)
  · exact absurd (hidden.symm.trans hvisible) nofun
  · rw [wp_modify_bind, wp_pure]
    have hgone := h.cleaned.after
    exact ⟨kept_traced.trans h.kept (kept_setStatus _ s₁), rfl, hgone.alike.ready,
      hgone.alike.visible.trans h.hidden⟩

/-- A stage of `allocate` that leads from `I` to `J`, if it succeeds. -/
def Phase (I : MacDmaBuffer → Prop) (stage : Buffered Bool) (J : MacDmaBuffer → Prop) : Prop :=
  ∀ s, I s → s.visible = false →
    stage.wp (fun log ok s' => Kept s log s' ∧ s'.visible = false ∧ (ok = true → J s')) s

/-- The result of the stages: the buffer is ready, or it is not mapped. -/
def Builds (I : MacDmaBuffer → Prop) (m : Buffered Bool) : Prop :=
  ∀ s, I s → s.visible = false →
    m.wp (fun log ok s' => Kept s log s' ∧ s'.visible = false ∧ s'.ready = ok) s

theorem builds_nil : Builds (fun s => s.ready = true) (build []) := by
  intro s hready hidden
  rw [build, wp_modify_bind, wp_pure]
  exact ⟨kept_setStatus _ s, hidden, hready⟩

theorem Builds.cons {I J : MacDmaBuffer → Prop} {status : DmaStatus} {stage : Buffered Bool}
    {rest : List (DmaStatus × Buffered Bool)} (hstage : Phase I stage J) (hrest : Builds J (build rest)) :
    Builds I (build ((status, stage) :: rest)) := by
  intro s hI hidden
  rw [build, wp_bind]
  refine wp_mono (hstage s hI hidden) ?_
  rintro log ok s₁ ⟨hkept, hidden₁, hJ⟩
  rw [wp_ite]
  constructor
  · intro hok
    refine wp_mono (hrest s₁ (hJ hok) hidden₁) ?_
    rintro log' ok' s₂ ⟨hkept', hrest⟩
    exact ⟨kept_traced.trans hkept hkept', hrest⟩
  · intro _
    refine wp_mono (fail_kept status hidden₁) ?_
    rintro log' ok' s₂ ⟨hkept', rfl, hready, hidden₂⟩
    exact ⟨kept_traced.trans hkept hkept', hidden₂, hready⟩

/-- These resources are held, and those are not. -/
structure Stocked (yes no : List Resource) (s : MacDmaBuffer) : Prop where
  yes : ∀ r ∈ yes, s.held r = true
  no : ∀ r ∈ no, s.held r = false

theorem setHeld_false (h : s.held r = false) : setHeld r false s = s := by
  cases r <;> (cases s; simp_all [setHeld, held])

theorem accounted_take {e : Event Kit Answer Empty} (hfree : s.held r = false)
    (he : deed e = if ok then .takes r else .nothing) : Accounted s [e] (setHeld r ok s) := by
  cases ok with
  | true =>
      refine custody_cons.2 ⟨_, ?_, custody_nil⟩
      rw [he, if_pos rfl, settle, if_neg (by simp [hfree]), held_setHeld]
  | false =>
      refine custody_cons.2 ⟨_, ?_, custody_nil⟩
      rw [he, if_neg (by rintro ⟨⟩), settle, setHeld_false hfree]

/-- One step that sets a resource to the answer of a call. -/
theorem kept_take {e : Event Kit Answer Empty} (hfree : s.held r = false)
    (he : deed e = if ok then .takes r else .nothing) (hsound : Sound s → Sound (setHeld r true s)) :
    Kept s [e] (setHeld r ok s) := by
  refine ⟨fun _ => accounted_take hfree he, ?_⟩
  cases ok with
  | true => exact hsound
  | false =>
      rw [setHeld_false hfree]
      exact id

theorem held_setHeld_ne {x : Resource} (h : x ≠ r) (b : Bool) (s : MacDmaBuffer) :
    (setHeld r b s).held x = s.held x := by
  simp [h]

theorem kept_call {e : Event Kit Answer Empty} (he : deed e = .nothing) (s : MacDmaBuffer) :
    Kept s [e] s := by
  refine ⟨fun _ => custody_cons.2 ⟨_, ?_, custody_nil⟩, id⟩
  rw [he, settle]

theorem takeMemory_phase (q : Request) :
    Phase (Stocked [] order) (takeMemory q)
      (Stocked [.memory] [.memoryPrepared, .command, .attached, .commandPrepared]) := by
  intro s hs hidden
  rw [takeMemory, wp_kit_bind]
  intro mapper
  have hfirst : Kept s [.call .copyMapperForDevice mapper] (setHeld .mapper mapper s) :=
    kept_take (hs.no _ (by decide)) rfl fun hsound =>
      ⟨hsound.memory, hsound.attached, hsound.command, hsound.ready, hsound.visible⟩
  rw [wp_modify_bind, wp_kit_bind]
  intro memory
  have hsecond : Kept (setHeld .mapper mapper s) [.call (.inTaskWithPhysicalMask q.bytes) memory]
      (setHeld .memory memory (setHeld .mapper mapper s)) := by
    refine kept_take ?_ rfl fun hsound =>
      ⟨fun _ => rfl, hsound.attached, hsound.command, hsound.ready, hsound.visible⟩
    rw [held_setHeld_ne (by decide)]
    exact hs.no _ (by decide)
  rw [wp_modify_bind, wp_pure]
  refine ⟨kept_traced.trans hfirst hsecond, hidden, ?_⟩
  rintro rfl
  refine ⟨by simp, fun r hr => ?_⟩
  have hne : r ≠ .memory ∧ r ≠ .mapper := by
    revert hr
    cases r <;> decide
  rw [held_setHeld_ne hne.1, held_setHeld_ne hne.2]
  exact hs.no r (by cases r <;> decide)

theorem takes_phase {no : List Resource} {m : Buffered Bool}
    (hm : ∀ s, m.wp (fun log ok s' => s' = s ∧ ∃ e, log = [e] ∧ deed e = if ok then .takes r else .nothing) s)
    (hr : r ∉ yes ++ no) (hsound : ∀ s, Stocked yes (r :: no) s → Sound s → Sound (setHeld r true s)) :
    Phase (Stocked yes (r :: no)) (takes r m) (Stocked (r :: yes) no) := by
  intro s hs hidden
  have hfree : s.held r = false := hs.no r List.mem_cons_self
  rw [takes, wp_bind]
  refine wp_mono (hm s) ?_
  rintro log ok s₁ ⟨rfl, e, rfl, he⟩
  rw [wp_modify_bind, wp_pure]
  refine ⟨kept_take hfree he (hsound s₁ hs), (alike_setHeld r ok s₁).visible.trans hidden, ?_⟩
  rintro rfl
  constructor
  · intro x hx
    rcases List.mem_cons.1 hx with rfl | hx
    · simp
    · have hne : x ≠ r := fun hxr => hr (List.mem_append_left no (hxr ▸ hx))
      rw [held_setHeld_ne hne]
      exact hs.yes x hx
  · intro x hx
    have hne : x ≠ r := fun hxr => hr (List.mem_append_right yes (hxr ▸ hx))
    rw [held_setHeld_ne hne]
    exact hs.no x (List.mem_cons_of_mem r hx)

theorem attach_phase (hyes : .command ∈ yes) (hno : .attached ∉ yes) :
    Phase (Stocked yes [.attached, .commandPrepared]) attach
      (Stocked (.attached :: yes) [.commandPrepared]) := by
  intro s hs hidden
  have hcommand : s.command = true := hs.yes _ hyes
  rw [attach, wp_kit_bind]
  intro ok
  rw [wp_kit_bind]
  intro attached
  have hset : Kept s [.call .setMemoryDescriptor ok] s := kept_call rfl s
  have hget : Kept s [.call .getMemoryDescriptor attached] (setHeld .attached attached s) :=
    kept_take (hs.no _ (by simp)) rfl fun hsound =>
      ⟨hsound.memory, fun _ => hcommand, hsound.command, hsound.ready, hsound.visible⟩
  rw [wp_modify_bind, wp_pure]
  refine ⟨kept_traced.trans hset hget, hidden, ?_⟩
  intro hboth
  rw [Bool.and_eq_true] at hboth
  rcases hboth with ⟨-, rfl⟩
  constructor
  · intro x hx
    rcases List.mem_cons.1 hx with rfl | hx
    · simp
    · have hne : x ≠ .attached := fun h => hno (h ▸ hx)
      rw [held_setHeld_ne hne]
      exact hs.yes x hx
  · intro x hx
    rw [List.mem_singleton] at hx
    subst hx
    rw [held_setHeld_ne (by decide)]
    exact hs.no _ (by simp)

theorem map_phase (q : Request) (hmemory : .memoryPrepared ∈ yes) (hcommand : .commandPrepared ∈ yes) :
    Phase (Stocked yes []) (map q) fun s => s.ready = true := by
  intro s hs hidden
  rw [map, wp_kit_bind]
  intro x
  have hsegments : Kept s [.call .gen64IOVMSegments x] s := kept_call rfl s
  rw [wp_ite]
  refine ⟨fun _ => (wp_pure _).2 ⟨hsegments, hidden, nofun⟩, fun _ => ?_⟩
  rw [wp_kit_bind]
  intro cpu
  have hbytes : Kept s [.call .getBytesNoCopy cpu] s := kept_call rfl s
  cases cpu with
  | none => exact (wp_pure _).2 ⟨kept_traced.trans hsegments hbytes, hidden, nofun⟩
  | some cpu =>
      simp only
      rw [wp_modify_bind, wp_pure]
      refine ⟨?_, hidden, fun _ => rfl⟩
      have hboth := kept_traced.trans hsegments hbytes
      refine ⟨hboth.accounted, fun hsound => ?_⟩
      exact ⟨hsound.memory, hsound.attached, hsound.command,
        fun _ => ⟨hs.yes _ hmemory, hs.yes _ hcommand⟩, fun _ => rfl⟩

theorem synchronize_kept (out : Bool) (s : MacDmaBuffer) :
    (synchronize out).wp (fun log _ s' => Kept s log s' ∧ Alike s s' ∧ s'.held = s.held ∧
      ∀ e ∈ log, deed e = .nothing) s := by
  rw [synchronize, wp_get_bind, wp_ite]
  constructor
  · intro _
    rw [wp_modify_bind, wp_pure]
    exact ⟨kept_setStatus _ s, ⟨rfl, rfl, rfl⟩, rfl, nofun⟩
  · intro _
    rw [wp_kit_bind]
    intro ok
    have hcall : Kept s [.call (.synchronize out) ok] s := kept_call rfl s
    rw [wp_ite]
    constructor
    · intro _
      rw [wp_modify_bind, wp_pure]
      exact ⟨kept_traced.trans hcall (kept_setStatus _ s), ⟨rfl, rfl, rfl⟩, rfl, by simp [deed]⟩
    · intro _
      rw [wp_modify_bind, wp_pure]
      exact ⟨kept_traced.trans hcall (kept_setStatus _ s), ⟨rfl, rfl, rfl⟩, rfl, by simp [deed]⟩

theorem sync_phase : Phase (fun s => s.ready = true) syncForDevice fun s => s.ready = true := by
  intro s hready hidden
  refine wp_mono (synchronize_kept true s) ?_
  rintro log ok s' ⟨hkept, halike, -⟩
  exact ⟨hkept, halike.visible.trans hidden, fun _ => halike.ready.trans hready⟩

theorem builds_stages (q : Request) : Builds (Stocked [] order) (build (stages q)) := by
  refine Builds.cons (takeMemory_phase q) (Builds.cons (takes_phase ?_ (by decide) ?_)
    (Builds.cons (takes_phase ?_ (by decide) ?_) (Builds.cons (attach_phase (by decide) (by decide))
      (Builds.cons (takes_phase ?_ (by decide) ?_) (Builds.cons (map_phase q (by decide) (by decide))
        (Builds.cons sync_phase builds_nil))))))
  · exact fun s => (wp_kit _).2 fun ok => ⟨rfl, _, rfl, rfl⟩
  · intro s hs hsound
    exact ⟨fun _ => hs.yes .memory (by decide), hsound.attached, hsound.command,
      fun hready => ⟨rfl, (hsound.ready hready).2⟩, hsound.visible⟩
  · exact fun s => (wp_kit _).2 fun ok => ⟨rfl, _, rfl, rfl⟩
  · intro s hs hsound
    exact ⟨hsound.memory, fun _ => rfl, fun _ => rfl, hsound.ready, hsound.visible⟩
  · exact fun s => (wp_kit _).2 fun ok => ⟨rfl, _, rfl, rfl⟩
  · intro s hs hsound
    exact ⟨hsound.memory, hsound.attached, fun _ => hs.yes .command (by decide),
      fun hready => ⟨(hsound.ready hready).1, rfl⟩, hsound.visible⟩

/-! ### One call -/

/-- What is still to be given back, in order. -/
def due (s : MacDmaBuffer) : List Resource := order.filter s.held

/-- A cleanup as it looks from outside: it gives back what is due, and stops where that fails. -/
structure Resumes (s : MacDmaBuffer) (log : Trace) (ok : Bool) (s' : MacDmaBuffer)
    (done todo : List Resource) : Prop where
  before : s.due = done ++ todo
  after : s'.due = todo
  finished : ok = true ↔ todo = []
  deeds : log.map deed = done.map .frees ++ if ok then [] else todo.head?.toList.map .fails

theorem Cleaned.resumes (h : Cleaned order s log ok s' gone rest) :
    Resumes s log ok s' (gone.filter s.held) (rest.filter s.held) := by
  have hnodup : (gone ++ rest).Nodup := by
    rw [← h.split]
    decide
  have hafter : s'.due = rest.filter s.held := by
    have hgone : gone.filter s'.held = [] := by
      rw [List.filter_eq_nil_iff]
      intro r hr
      simp [h.after.held, hr]
    have hrest : rest.filter s'.held = rest.filter s.held := by
      apply List.filter_congr
      intro r hr
      have hnot : r ∉ gone := fun hg => List.disjoint_of_nodup_append hnodup hg hr
      simp [h.after.held, hnot]
    rw [due, h.split, List.filter_append, hgone, hrest, List.nil_append]
  have hhead : (rest.filter s.held).head? = rest.head? := by
    cases rest with
    | nil => rfl
    | cons r rest => rw [List.filter_cons_of_pos (h.stuck r rfl)]; rfl
  refine ⟨?_, hafter, ?_, ?_⟩
  · rw [due, h.split, List.filter_append]
  · rw [h.done, ← List.head?_eq_none_iff, ← hhead, List.head?_eq_none_iff]
  · rw [h.deeds, hhead]

abbrev Called : Type := Record MacDmaBuffer Kit Answer Empty Op Bool

/-- All that is claimed of a single call. -/
structure CallKept (x : Called) : Prop where
  kept : Kept x.before x.log x.after
  /-- While the device can reach the buffer nothing is given back. -/
  lent : x.before.visible = true → x.op ≠ .releaseAfterDmaStopped →
    (∀ e ∈ x.log, deed e = .nothing) ∧ x.after.held = x.before.held ∧ x.after.visible = true
  /-- A buffer that still has something to give back is not allocated. -/
  refused : ∀ q, x.op = .allocate q → Sound x.before → x.before.due ≠ [] →
    x.result = false ∧ x.log = [] ∧ x.after = setStatus .busy x.before
  /-- A release goes on where the last one has failed. -/
  resumes : (x.op = .release ∧ x.before.visible = false) ∨ x.op = .releaseAfterDmaStopped →
    ∃ done todo, Resumes x.before x.log x.result x.after done todo
  /-- A buffer that was released has nothing left. -/
  released : x.op = .release ∨ x.op = .releaseAfterDmaStopped → x.result = true → Vacant x.after

theorem acceptable_kept (q : Request) (s : MacDmaBuffer) :
    (acceptable q).wp (fun log _ s' => s' = s ∧ Kept s log s ∧ ∀ e ∈ log, deed e = .nothing) s := by
  have hnone : Kept s [] s := kept_traced.refl s
  have hcall : ∀ e, deed e = .nothing → Kept s [e] s := fun e he => kept_call he s
  rw [acceptable, wp_ite]
  refine ⟨fun _ => (wp_pure _).2 ⟨rfl, hnone, nofun⟩, fun _ => ?_⟩
  rw [wp_kit_bind]
  intro gate
  have hgate := hcall (.call .inGate gate) rfl
  rw [wp_ite]
  refine ⟨fun _ => (wp_pure _).2 ⟨rfl, hgate, by simp [deed]⟩, fun _ => ?_⟩
  rw [wp_ite]
  refine ⟨fun _ => (wp_pure _).2 ⟨rfl, hgate, by simp [deed]⟩, fun _ => ?_⟩
  rw [wp_kit_bind]
  intro vendor
  have hvendor := kept_traced.trans hgate (hcall (.call .vendorId vendor) rfl)
  rw [wp_ite]
  refine ⟨fun _ => (wp_pure _).2 ⟨rfl, hvendor, by simp [deed]⟩, fun _ => ?_⟩
  rw [wp_kit_bind]
  intro device
  have hdevice := kept_traced.trans hvendor (hcall (.call .deviceId device) rfl)
  exact (wp_pure _).2 ⟨rfl, hdevice, by simp [deed]⟩

/-- What was not given back keeps `allocate` from starting. -/
theorem Sound.busy (hs : Sound s) (hdue : s.due ≠ []) :
    (s.memory || s.command || s.mapper) = true := by
  rcases List.exists_mem_of_ne_nil _ hdue with ⟨r, hr⟩
  have hheld := (List.mem_filter.1 hr).2
  simp only [Bool.or_eq_true]
  cases r with
  | commandPrepared => exact Or.inl (Or.inr (hs.command hheld))
  | attached => exact Or.inl (Or.inr (hs.attached hheld))
  | command => exact Or.inl (Or.inr hheld)
  | memoryPrepared => exact Or.inl (Or.inl (hs.memory hheld))
  | memory => exact Or.inl (Or.inl hheld)
  | mapper => exact Or.inr hheld

theorem Sound.stocked (hs : Sound s) (hfree : (s.memory || s.command || s.mapper) = false) :
    Stocked [] order s := by
  refine ⟨nofun, fun r _ => ?_⟩
  by_contra hheld
  have hdue : s.due ≠ [] := by
    apply List.ne_nil_of_mem (a := r)
    exact List.mem_filter.2 ⟨by cases r <;> decide, by simpa using hheld⟩
  rw [hs.busy hdue] at hfree
  exact absurd hfree nofun

theorem allocate_callKept (q : Request) (s : MacDmaBuffer) :
    (allocate q).wp (fun log ok s' => CallKept ⟨s, .allocate q, log, ok, s'⟩) s := by
  rw [allocate, wp_get_bind, wp_ite]
  constructor
  · intro _
    rw [wp_modify_bind, wp_pure]
    exact ⟨kept_setStatus _ s, fun hvisible _ => ⟨nofun, rfl, hvisible⟩,
      fun _ _ _ _ => ⟨rfl, rfl, rfl⟩, nofun, nofun⟩
  · intro h
    rw [Bool.or_eq_true, not_or] at h
    have hidden : s.visible = false := by simpa using h.2
    have hfree : (s.memory || s.command || s.mapper) = false := by simpa using h.1
    -- The other parts of the statement are about buffers that are busy or lent.
    have hcall : ∀ {log : Trace} {ok : Bool} {s' : MacDmaBuffer}, Kept s log s' →
        CallKept ⟨s, .allocate q, log, ok, s'⟩ := by
      intro log ok s' hkept
      refine ⟨hkept, fun hvisible => absurd (hidden.symm.trans hvisible) nofun, ?_, nofun, nofun⟩
      intro q' _ hs hdue
      exact absurd (hfree.symm.trans (hs.busy hdue)) nofun
    by_cases hs : Sound s
    swap
    · exact wp_of_outcome fun _ _ _ _ => hcall ⟨fun h => absurd h hs, fun h => absurd h hs⟩
    rw [wp_bind]
    refine wp_mono (acceptable_kept q s) ?_
    rintro log ok s₁ ⟨rfl, hkept, -⟩
    rw [wp_ite]
    constructor
    · intro _
      refine wp_mono (builds_stages q s₁ (hs.stocked hfree) hidden) ?_
      rintro log' ok' s' ⟨hkept', -⟩
      exact hcall (kept_traced.trans hkept hkept')
    · intro _
      rw [wp_modify_bind, wp_pure]
      exact hcall (kept_traced.trans hkept (kept_setStatus _ s₁))

theorem held_unready (s : MacDmaBuffer) : (unready s).held = s.held := by
  funext r
  cases r <;> rfl

theorem release_spec (s : MacDmaBuffer) :
    release.wp (fun log ok s' =>
      (s.visible = true ∧ log = [] ∧ ok = false ∧ s' = setStatus .busy s) ∨
      (s.visible = false ∧ Kept s log s' ∧ (∃ done todo, Resumes s log ok s' done todo) ∧
        s'.visible = false ∧ s'.ready = false ∧ (ok = true → Vacant s'))) s := by
  rw [release, wp_get_bind, wp_ite]
  constructor
  · intro h
    rw [wp_modify_bind, wp_pure]
    exact Or.inl ⟨h, rfl, rfl, rfl⟩
  · intro h
    have hidden : s.visible = false := by simpa using h
    rw [wp_bind]
    refine wp_mono (cleanup_spec s) ?_
    rintro log ok s₁ (⟨hvisible, -⟩ | ⟨gone, rest, hclean⟩)
    · exact absurd (hidden.symm.trans hvisible) nofun
    · rw [wp_modify_bind, wp_pure, List.append_nil]
      have hresumes := hclean.cleaned.resumes
      have hgone := hclean.cleaned.after
      have hkept := kept_traced.trans hclean.kept (kept_setStatus (if ok then .ok else .cleanupFailed) s₁)
      rw [List.append_nil] at hkept
      refine Or.inr ⟨hidden, hkept, ⟨_, _, ⟨?_, hresumes.after, hresumes.finished, hresumes.deeds⟩⟩,
        hgone.alike.visible.trans hidden, hgone.alike.ready, ?_⟩
      · have hbefore := hresumes.before
        rw [due, held_unready] at hbefore
        exact hbefore
      · rintro rfl
        have hvacant := hclean.vacant
        exact ⟨hvacant.held, hvacant.ready, hvacant.visible⟩

theorem release_callKept (s : MacDmaBuffer) :
    release.wp (fun log ok s' => CallKept ⟨s, .release, log, ok, s'⟩) s := by
  refine wp_mono (release_spec s) ?_
  rintro log ok s' (⟨hvisible, rfl, rfl, rfl⟩ | ⟨hidden, hkept, hresumes, -, -, hvacant⟩)
  · refine ⟨kept_setStatus _ s, fun _ _ => ⟨nofun, rfl, hvisible⟩, nofun, ?_, nofun⟩
    rintro (⟨-, hidden⟩ | hop)
    · exact absurd (hidden.symm.trans hvisible) nofun
    · exact absurd hop nofun
  · exact ⟨hkept, fun hvisible => absurd (hidden.symm.trans hvisible) nofun, nofun,
      fun _ => hresumes, fun _ => hvacant⟩

theorem releaseAfterDmaStopped_callKept (s : MacDmaBuffer) :
    releaseAfterDmaStopped.wp (fun log ok s' => CallKept ⟨s, .releaseAfterDmaStopped, log, ok, s'⟩) s := by
  rw [releaseAfterDmaStopped, wp_modify_bind]
  refine wp_mono (release_spec { s with visible := false }) ?_
  rintro log ok s' (⟨hvisible, -⟩ | ⟨-, hkept, hresumes, -, -, hvacant⟩)
  · exact absurd hvisible nofun
  · have hfirst : Kept s [] { s with visible := false } :=
      ⟨fun _ => custody_nil, fun hs => ⟨hs.memory, hs.attached, hs.command, hs.ready, nofun⟩⟩
    rcases hresumes with ⟨done, todo, hresumes⟩
    exact ⟨kept_traced.trans hfirst hkept, fun _ hop => absurd rfl hop, nofun,
      fun _ => ⟨done, todo, ⟨hresumes.before, hresumes.after, hresumes.finished, hresumes.deeds⟩⟩,
      fun _ => hvacant⟩

theorem markDeviceVisible_callKept (s : MacDmaBuffer) :
    markDeviceVisible.wp (fun log ok s' => CallKept ⟨s, .markDeviceVisible, log, ok, s'⟩) s := by
  rw [markDeviceVisible, wp_get_bind, wp_ite]
  constructor
  · intro _
    rw [wp_modify_bind, wp_pure]
    exact ⟨kept_setStatus _ s, fun hvisible _ => ⟨nofun, rfl, hvisible⟩, nofun, nofun, nofun⟩
  · intro h
    have hready : s.ready = true := by simpa using h
    rw [wp_modify_bind, wp_pure]
    refine ⟨⟨fun _ => custody_nil, fun hs => ?_⟩, fun _ _ => ⟨nofun, rfl, rfl⟩, nofun, nofun, nofun⟩
    exact ⟨hs.memory, hs.attached, hs.command, hs.ready, fun _ => hready⟩

theorem synchronize_callKept {op : Op} (hop : op = .syncForDevice ∨ op = .syncForCpu) (out : Bool)
    (s : MacDmaBuffer) :
    (synchronize out).wp (fun log ok s' => CallKept ⟨s, op, log, ok, s'⟩) s := by
  refine wp_mono (synchronize_kept out s) ?_
  rintro log ok s' ⟨hkept, halike, hheld, hnothing⟩
  have hother : op ≠ .release ∧ op ≠ .releaseAfterDmaStopped ∧ ∀ q, op ≠ .allocate q := by
    rcases hop with rfl | rfl
    · exact ⟨nofun, nofun, nofun⟩
    · exact ⟨nofun, nofun, nofun⟩
  refine ⟨hkept, fun hvisible _ => ⟨hnothing, hheld, halike.visible.trans hvisible⟩,
    fun q h => absurd h (hother.2.2 q), ?_, ?_⟩
  · rintro (⟨h, -⟩ | h)
    · exact absurd h hother.1
    · exact absurd h hother.2.1
  · rintro (h | h)
    · exact absurd h hother.1
    · exact absurd h hother.2.1

theorem call_kept {op : Op} (hout : (exec op s).Outcome log (ok, s')) :
    CallKept ⟨s, op, log, ok, s'⟩ := by
  have hwp : (exec op).wp (fun log ok s' => CallKept ⟨s, op, log, ok, s'⟩) s := by
    cases op with
    | allocate q => exact allocate_callKept q s
    | syncForDevice => exact synchronize_callKept (Or.inl rfl) true s
    | syncForCpu => exact synchronize_callKept (Or.inr rfl) false s
    | markDeviceVisible => exact markDeviceVisible_callKept s
    | release => exact release_callKept s
    | releaseAfterDmaStopped => exact releaseAfterDmaStopped_callKept s
  exact wp_outcome hwp hout

/-! ## Runs -/

/-- Memory and command are there, and both are prepared. -/
structure Prepared (s : MacDmaBuffer) : Prop where
  memory : s.memory = true
  memoryPrepared : s.memoryPrepared = true
  command : s.command = true
  commandPrepared : s.commandPrepared = true

/-- Only a buffer that is prepared shows where it is mapped. -/
theorem Sound.prepared (hs : Sound s) (hmapped : s.mapping ≠ {}) : s.Prepared := by
  have hready : s.ready = true := by
    by_contra hno
    rw [mapping, if_neg hno] at hmapped
    exact hmapped rfl
  have hboth := hs.ready hready
  exact ⟨hs.memory hboth.1, hboth.1, hs.command hboth.2, hboth.2⟩

/-- What a buffer has gone through. -/
structure Lifetime (h : List Called) (s : MacDmaBuffer) : Prop where
  sound : Sound s
  /-- Each resource is taken when it is not held, and given back while it is held and after those before it. -/
  custody : Custody deed order (fun _ => false) (eventsOf h) s.held
  /-- It is given back as often as it was taken, or once less while it is still held. -/
  balance : ∀ r, taken deed r (eventsOf h) = freed deed r (eventsOf h) + (s.held r).toNat
  /-- A buffer that shows where it is mapped is prepared. -/
  mapped : s.mapping ≠ {} → s.Prepared
  calls : ∀ x ∈ h, CallKept x

theorem buffer_lifetime {h : List Called} (hrun : Run exec {} h s) : Lifetime h s := by
  have hkept : Sound s ∧ Custody deed order (fun _ => false) (eventsOf h) s.held := by
    refine Run.invariant (P := fun h s => Sound s ∧ Custody deed order (fun _ => false) (eventsOf h) s.held)
      ⟨sound_initial, ?_⟩ ?_ hrun
    · have hnone : held {} = fun _ => false := by
        funext r
        cases r <;> rfl
      rw [hnone]
      exact custody_nil
    · intro h s s' op log ok _ hs hout
      have hcall := (call_kept hout).kept
      exact ⟨hcall.sound hs.1, hs.2.trans (hcall.accounted hs.1)⟩
  refine ⟨hkept.1, hkept.2, fun r => ?_, hkept.1.prepared, fun x hx => call_kept (Run.outcome hrun hx)⟩
  have hbalance := hkept.2.balance r
  rw [Bool.toNat_false, Nat.add_zero] at hbalance
  exact hbalance

/-- A kernel that gives whatever it is asked for, and cannot complete the first command. -/
def faltering : (c : Kit) → Bool → Answer c × Bool
  | .inGate, again => (false, again)
  | .vendorId, again => (0x10ec, again)
  | .deviceId, again => (0xb852, again)
  | .gen64IOVMSegments, again => (⟨true, 1, 512, 512, 0x1000⟩, again)
  | .getBytesNoCopy, again => (some 0x8000, again)
  | .completeCommand, again => (again, true)
  | .releaseCommand, again | .releaseMemory, again | .releaseMapper, again => ((), again)
  | .copyMapperForDevice, again | .inTaskWithPhysicalMask _, again | .prepareMemory, again
  | .withSpecification _ _, again | .setMemoryDescriptor, again | .getMemoryDescriptor, again
  | .prepareCommand, again | .synchronize _, again | .clearMemoryDescriptor, again
  | .completeMemory, again => (true, again)

def lentTwice : List Op :=
  [.allocate ⟨true, true, 512, 8⟩, .markDeviceVisible, .release, .releaseAfterDmaStopped,
    .allocate ⟨true, true, 512, 8⟩, .release]

/-- A buffer that is lent is not given back, and one that could not be given back is not built again. -/
theorem buffer_lifetime_lentTwice :
    (replay exec faltering lentTwice {} false).1.map Record.result = [true, false, false, false, true, true] ∧
      Lifetime (replay exec faltering lentTwice {} false).1 (replay exec faltering lentTwice {} false).2.1 :=
  ⟨by decide +kernel, buffer_lifetime (replay_run exec faltering lentTwice {} false)⟩

/-- A buffer that holds nothing is built, or nothing of it is mapped. -/
theorem allocate_vacant (q : Request) (hs : Vacant s) :
    (allocate q).wp (fun log ok s' => Kept s log s' ∧ s'.visible = false ∧ s'.ready = ok) s := by
  have hno := hs.held
  have hfree : (s.memory || s.command || s.mapper || s.visible) = false := by
    simp [show s.memory = false from hno .memory, show s.command = false from hno .command,
      show s.mapper = false from hno .mapper, hs.visible]
  rw [allocate, wp_get_bind, hfree, if_neg Bool.false_ne_true, wp_bind]
  refine wp_mono (acceptable_kept q s) ?_
  rintro log ok s₁ ⟨rfl, hkept, -⟩
  rw [wp_ite]
  constructor
  · intro _
    refine wp_mono (builds_stages q s₁ ⟨by simp, fun r _ => hno r⟩ hs.visible) ?_
    rintro log' ok' s' ⟨hkept', hrest⟩
    exact ⟨kept_traced.trans hkept hkept', hrest⟩
  · intro _
    rw [wp_modify_bind, wp_pure]
    exact ⟨kept_traced.trans hkept (kept_setStatus _ s₁), hs.visible, hs.ready⟩

end MacDmaBuffer

end Dma
end Rtl8852be
