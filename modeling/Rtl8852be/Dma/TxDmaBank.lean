import Rtl8852be.Dma.MacDmaBuffer
import Rtl8852be.Interaction.Components

/-!
# TxDmaBank — the buffers of a transmit queue

`TxDmaBank.hpp`: a ring, 64 frame buffers and, for packets, 64 descriptor buffers, each a `MacDmaBuffer`.  The
bank has flags of its own.  They agree with those of the buffers, so what the bank promises about device
visibility holds of every buffer.

* `release_spec` — a release passes over every buffer, also after one has failed;
* `call_kept` — what one call does to all buffers;
* `bank_lifetime` — over every run, no buffer is given back while the bank is visible, a bank that could not be
  released refuses to be allocated, and one that was released is empty.
-/

namespace Rtl8852be
namespace Dma

open Interaction Network Code
open MacDmaBuffer (deed)

/-! ## Types -/

/-- The number of descriptor buffers: a bank for firmware has one, which it never allocates. -/
def descriptors : Bool → ℕ
  | true => 1
  | false => 64

inductive Part (firmware : Bool)
  | ring
  | frame (i : Fin 64)
  | descriptor (i : Fin (descriptors firmware))
  deriving DecidableEq

structure TxDmaBank (firmware : Bool) where
  buffers : Part firmware → MacDmaBuffer := fun _ => {}
  occupied : Bool := false
  ready_ : Bool := false
  visible : Bool := false
  faulted : Bool := false

abbrev Banked (firmware : Bool) (α : Type) : Type :=
  Code (TxDmaBank firmware) (Part firmware × Kit) (Replies (Part firmware) Answer) (Part firmware × Empty) α

abbrev BankTrace (firmware : Bool) : Type :=
  List (Event (Part firmware × Kit) (Replies (Part firmware) Answer) (Part firmware × Empty))

namespace TxDmaBank

variable {firmware : Bool}

def buffer (p : Part firmware) (b : TxDmaBank firmware) : MacDmaBuffer := b.buffers p

def setBuffer (p : Part firmware) (s : MacDmaBuffer) (b : TxDmaBank firmware) : TxDmaBank firmware :=
  { b with buffers := Function.update b.buffers p s }

def on {α : Type} (p : Part firmware) (m : Buffered α) : Banked firmware α := within p (buffer p) (setBuffer p) m

/-! ## The class -/

def ready (b : TxDmaBank firmware) : Bool := b.ready_ && !b.faulted

def ringMapping (b : TxDmaBank firmware) : DataMapping := if b.ready_ then (b.buffers .ring).mapping else {}

def frameMapping (slot : ℕ) (b : TxDmaBank firmware) : DataMapping :=
  if h : slot < 64 then if b.ready_ then (b.buffers (.frame ⟨slot, h⟩)).mapping else {} else {}

def descriptorMapping (slot : ℕ) (b : TxDmaBank firmware) : DataMapping :=
  match firmware, b with
  | true, _ => {}
  | false, b => if h : slot < 64 then if b.ready_ then (b.buffers (.descriptor ⟨slot, h⟩)).mapping else {} else {}

/-- The descriptor buffer of a slot, for packets. -/
def descriptorOf : (firmware : Bool) → Fin 64 → List (Part firmware)
  | true, _ => []
  | false, i => [.descriptor i]

/-- The buffers in the order in which `allocate` takes them. -/
def taken (firmware : Bool) : List (Part firmware) :=
  .ring :: (List.finRange 64).flatMap fun i => .frame i :: descriptorOf firmware i

/-- What `allocate` asks for. -/
def request (device workloop : Bool) : Part firmware → MacDmaBuffer.Request
  | .ring => ⟨device, workloop, 512, 8⟩
  | .frame _ => ⟨device, workloop, 16383 + (if firmware then 24 else 0), 8⟩
  | .descriptor _ => ⟨device, workloop, 64, 8⟩

/-- The buffers in the order of the other loops. -/
def frames (firmware : Bool) : List (Part firmware) := (List.finRange 64).map .frame

def released (firmware : Bool) : List (Part firmware) :=
  frames firmware ++ (List.finRange (descriptors firmware)).map .descriptor ++ [.ring]

def marked (firmware : Bool) : List (Part firmware) :=
  .ring :: frames firmware ++ (List.finRange 64).flatMap (descriptorOf firmware)

/-- Released buffers free the bank, if all of them were. -/
def settle (ok : Bool) : Banked firmware Bool := do
  if ok then
    modify fun b => { b with
      occupied := false
      faulted := false }
  return ok

def release : Banked firmware Bool := do
  let b ← get
  if b.visible then
    return false
  modify fun b => { b with ready_ := false }
  let ok ← each ((released firmware).map fun p => on p MacDmaBuffer.release)
  settle ok

def releaseAfterDmaStopped : Banked firmware Bool := do
  modify fun b => { b with
    ready_ := false
    visible := false }
  let ok ← each ((released firmware).map fun p => on p MacDmaBuffer.releaseAfterDmaStopped)
  settle ok

def allocate (device workloop : Bool) : Banked firmware Bool := do
  let b ← get
  if b.occupied then
    return false
  modify fun b => { b with
    occupied := true
    faulted := false }
  if ← every ((taken firmware).map fun p => on p (MacDmaBuffer.allocate (request device workloop p))) then
    modify fun b => { b with ready_ := true }
    return true
  let _ ← release
  return false

/-- Data, then its descriptor, then the ring. -/
def synced (firmware : Bool) (slot : Fin 64) : List (Part firmware) :=
  .frame slot :: descriptorOf firmware slot ++ [.ring]

def syncForDevice (slot : ℕ) : Banked firmware Bool := do
  let b ← get
  if h : slot < 64 then
    if !b.ready then
      return false
    if ← every ((synced firmware ⟨slot, h⟩).map fun p => on p MacDmaBuffer.syncForDevice) then
      return true
    modify fun b => { b with faulted := true }
    return false
  else
    return false

def markDeviceVisible : Banked firmware Bool := do
  let b ← get
  if !b.ready then
    return false
  modify fun b => { b with visible := true }
  let ok ← each ((marked firmware).map fun p => on p MacDmaBuffer.markDeviceVisible)
  if !ok then
    modify fun b => { b with faulted := true }
  return ok

inductive Op
  | allocate (device workloop : Bool)
  | syncForDevice (slot : ℕ)
  | markDeviceVisible
  | release
  | releaseAfterDmaStopped
  deriving DecidableEq

def exec : Op → Banked firmware Bool
  | .allocate device workloop => allocate device workloop
  | .syncForDevice slot => syncForDevice slot
  | .markDeviceVisible => markDeviceVisible
  | .release => release
  | .releaseAfterDmaStopped => releaseAfterDmaStopped

abbrev Called (firmware : Bool) : Type :=
  Record (TxDmaBank firmware) (Part firmware × Kit) (Replies (Part firmware) Answer) (Part firmware × Empty)
    Op Bool

/-! ## The lists of buffers -/

def used : Part firmware → Bool
  | .descriptor _ => !firmware
  | _ => true

theorem mem_descriptorOf {p : Part firmware} {i : Fin 64} (hp : p ∈ descriptorOf firmware i) :
    used p = true ∧ ∃ j, p = .descriptor j := by
  cases firmware with
  | true => exact absurd hp List.not_mem_nil
  | false => exact ⟨by rw [List.mem_singleton.1 hp]; rfl, i, List.mem_singleton.1 hp⟩

theorem mem_taken {p : Part firmware} : p ∈ taken firmware ↔ used p = true := by
  constructor
  · intro hp
    rcases List.mem_cons.1 hp with rfl | hp
    · rfl
    · rcases List.mem_flatMap.1 hp with ⟨i, -, hp⟩
      rcases List.mem_cons.1 hp with rfl | hp
      · rfl
      · exact (mem_descriptorOf hp).1
  · intro hp
    cases p with
    | ring => exact List.mem_cons_self
    | frame i =>
        exact List.mem_cons_of_mem _ (List.mem_flatMap.2 ⟨i, List.mem_finRange i, List.mem_cons_self⟩)
    | descriptor i =>
        cases firmware with
        | true => exact absurd hp (by simp [used])
        | false =>
            exact List.mem_cons_of_mem _ (List.mem_flatMap.2 ⟨i, List.mem_finRange i,
              List.mem_cons_of_mem _ (List.mem_singleton.2 rfl)⟩)

theorem mem_released (p : Part firmware) : p ∈ released firmware := by
  cases p with
  | ring => simp [released]
  | frame i => simp [released, frames]
  | descriptor i => simp [released]

theorem mem_marked {p : Part firmware} : p ∈ marked firmware ↔ used p = true := by
  constructor
  · intro hp
    rw [marked, List.cons_append, List.mem_cons, List.mem_append] at hp
    rcases hp with rfl | hp | hp
    · rfl
    · rcases List.mem_map.1 hp with ⟨i, -, rfl⟩
      rfl
    · rcases List.mem_flatMap.1 hp with ⟨i, -, hp⟩
      exact (mem_descriptorOf hp).1
  · intro hp
    rw [marked, List.cons_append, List.mem_cons, List.mem_append]
    cases p with
    | ring => exact Or.inl rfl
    | frame i => exact Or.inr (Or.inl (List.mem_map.2 ⟨i, List.mem_finRange i, rfl⟩))
    | descriptor i =>
        cases firmware with
        | true => exact absurd hp (by simp [used])
        | false => exact Or.inr (Or.inr (List.mem_flatMap.2 ⟨i, List.mem_finRange i, List.mem_singleton.2 rfl⟩))

theorem nodup_taken : (taken firmware).Nodup := by cases firmware <;> decide +kernel

theorem nodup_released : (released firmware).Nodup := by cases firmware <;> decide +kernel

theorem nodup_marked : (marked firmware).Nodup := by cases firmware <;> decide +kernel

theorem nodup_synced (i : Fin 64) : (synced firmware i).Nodup := by
  cases firmware with
  | true => simp [synced, descriptorOf]
  | false => simp [synced, descriptorOf]

/-! ## Checks on several buffers -/

section Rules

variable {b b' : TxDmaBank firmware} {ps : List (Part firmware)} {oks : Part firmware → Bool}
  {log : BankTrace firmware} {m : Part firmware → Buffered Bool}
  {S : Part firmware → MacDmaBuffer → Trace → Bool → MacDmaBuffer → Prop}

def flags (b : TxDmaBank firmware) : Bool × Bool × Bool × Bool := (b.occupied, b.ready_, b.visible, b.faulted)

theorem buffer_setBuffer (p : Part firmware) (s : MacDmaBuffer) (b : TxDmaBank firmware) :
    buffer p (setBuffer p s b) = s := Function.update_self ..

theorem buffer_setBuffer_ne (p q : Part firmware) (s : MacDmaBuffer) (b : TxDmaBank firmware) (h : p ≠ q) :
    buffer q (setBuffer p s b) = buffer q b := Function.update_of_ne (Ne.symm h) ..

theorem flags_setBuffer (p : Part firmware) (s : MacDmaBuffer) (b : TxDmaBank firmware) :
    flags (setBuffer p s b) = flags b := rfl

/-- What code of these buffers has done. -/
abbrev Acted (S : Part firmware → MacDmaBuffer → Trace → Bool → MacDmaBuffer → Prop) (ps : List (Part firmware))
    (oks : Part firmware → Bool) (b : TxDmaBank firmware) (log : BankTrace firmware) (b' : TxDmaBank firmware) :
    Prop :=
  Interaction.Acted buffer flags S ps oks b log b'

theorem wp_each_on (hnodup : ps.Nodup) (hm : ∀ p ∈ ps, (m p).wp (S p (buffer p b)) (buffer p b)) :
    (each (ps.map fun p => on p (m p))).wp
      (fun log ok b' => ∃ oks, Acted S ps oks b log b' ∧ ok = ps.all oks) b :=
  wp_each_within buffer_setBuffer buffer_setBuffer_ne flags_setBuffer hnodup hm

theorem wp_every_on (hnodup : ps.Nodup) (hm : ∀ p ∈ ps, (m p).wp (S p (buffer p b)) (buffer p b)) :
    (every (ps.map fun p => on p (m p))).wp
      (fun log ok b' => ∃ done rest oks, ps = done ++ rest ∧ Acted S done oks b log b' ∧
        (ok = true → rest = [] ∧ ∀ p ∈ done, oks p = true)) b :=
  wp_every_within buffer_setBuffer buffer_setBuffer_ne flags_setBuffer hnodup hm

/-- What the buffers that take part do, and the others do by doing nothing, all buffers do. -/
theorem acted_apart {T : MacDmaBuffer → Trace → MacDmaBuffer → Prop} (hT : Traced T)
    (h : Acted S ps oks b log b') (hS : ∀ p ∈ ps, ∀ s log ok s', S p s log ok s' → T s log s') :
    Apart buffer T b log b' := by
  intro p
  by_cases hp : p ∈ ps
  · exact hS p hp _ _ _ _ (h.acted p hp)
  · rw [(h.apart p hp).1, (h.apart p hp).2]
    exact hT.refl _

end Rules

/-! ## Invariants -/

/-- The flags of the bank agree with those of its buffers, and a bank that is not occupied is empty. -/
structure Sound (b : TxDmaBank firmware) : Prop where
  buffers : ∀ p, (buffer p b).Sound
  ready : b.ready_ = true → b.occupied = true ∧ ∀ p, used p = true → (buffer p b).ready = true
  visible : b.visible = true → b.ready_ = true
  shown : ∀ p, (buffer p b).visible = (b.visible && used p)
  free : b.occupied = false → ∀ p, (buffer p b).Vacant

theorem sound_initial : Sound ({} : TxDmaBank firmware) where
  buffers _ := MacDmaBuffer.sound_initial
  ready h := absurd h Bool.false_ne_true
  visible h := absurd h Bool.false_ne_true
  shown _ := rfl
  free _ _ := ⟨fun r => by cases r <;> rfl, rfl, rfl⟩

/-- A release as it looks from one of the buffers. -/
structure GivesBack (s : MacDmaBuffer) (log : Trace) (ok : Bool) (s' : MacDmaBuffer) : Prop where
  kept : MacDmaBuffer.Kept s log s'
  resumes : ∃ done todo, MacDmaBuffer.Resumes s log ok s' done todo
  hidden : s'.visible = false
  unready : s'.ready = false
  vacant : ok = true → s'.Vacant

theorem release_gives {s : MacDmaBuffer} (hidden : s.visible = false) :
    MacDmaBuffer.release.wp (GivesBack s) s := by
  refine wp_mono (MacDmaBuffer.release_spec s) ?_
  rintro log ok s' (⟨hvisible, -⟩ | ⟨-, hkept, hresumes, hafter, hready, hvacant⟩)
  · exact absurd (hidden.symm.trans hvisible) Bool.false_ne_true
  · exact ⟨hkept, hresumes, hafter, hready, hvacant⟩

theorem releaseAfterDmaStopped_gives (s : MacDmaBuffer) :
    MacDmaBuffer.releaseAfterDmaStopped.wp (GivesBack s) s := by
  rw [MacDmaBuffer.releaseAfterDmaStopped, wp_modify_bind]
  refine wp_mono (release_gives (s := { s with visible := false }) rfl) ?_
  intro log ok s' h
  have hfirst : MacDmaBuffer.Kept s [] { s with visible := false } :=
    ⟨fun _ => custody_nil, fun hs => ⟨hs.memory, hs.attached, hs.command, hs.ready, fun h => by simp at h⟩⟩
  rcases h.resumes with ⟨done, todo, hresumes⟩
  exact ⟨MacDmaBuffer.kept_traced.trans hfirst h.kept,
    ⟨done, todo, ⟨hresumes.before, hresumes.after, hresumes.finished, hresumes.deeds⟩⟩,
    h.hidden, h.unready, h.vacant⟩

/-! ## One call -/

variable {b b' : TxDmaBank firmware} {log : BankTrace firmware} {ok : Bool}

/-- What a release has done to all buffers: each was passed over, also after one has failed. -/
structure Emptied (b : TxDmaBank firmware) (log : BankTrace firmware) (ok : Bool) (b' : TxDmaBank firmware) :
    Prop where
  sound : Sound b → Sound b'
  ready : b'.ready_ = false
  visible : b'.visible = false
  kept : Apart buffer MacDmaBuffer.Kept b log b'
  /-- Each buffer goes on where its last release has failed. -/
  resumes : ∃ oks : Part firmware → Bool, (ok = true ↔ ∀ p, oks p = true) ∧
    ∀ p, ∃ done todo, MacDmaBuffer.Resumes (buffer p b) (part p log) (oks p) (buffer p b') done todo
  occupied : b'.occupied = (b.occupied && !ok)
  vacant : ok = true → ∀ p, (buffer p b').Vacant

/-- The common part of the two releases, after the flags were cleared. -/
theorem emptied_of_each {m : Buffered Bool} {f : TxDmaBank firmware → TxDmaBank firmware}
    (hm : ∀ p, m.wp (GivesBack (buffer p b)) (buffer p b))
    (hf : flags (f b) = (b.occupied, false, false, b.faulted)) (hbuffers : ∀ p, buffer p (f b) = buffer p b) :
    ((each ((released firmware).map fun p => on p m)) >>= settle).wp (Emptied b) (f b) := by
  rw [wp_bind]
  refine wp_mono (wp_each_on (S := fun _ => GivesBack) nodup_released fun p _ => ?_) ?_
  · rw [hbuffers p]
    exact hm p
  rintro log ok b₁ ⟨oks, hacted, hok⟩
  have hall : ok = true ↔ ∀ p, oks p = true := by
    rw [hok, List.all_eq_true]
    exact ⟨fun h p => h p (mem_released p), fun h p _ => h p⟩
  have hgives : ∀ p, GivesBack (buffer p b) (part p log) (oks p) (buffer p b₁) := by
    intro p
    have hone := hacted.acted p (mem_released p)
    rwa [hbuffers p] at hone
  have hflags := hacted.whole.trans hf
  simp only [flags, Prod.mk.injEq] at hflags
  have hemptied : ∀ b' : TxDmaBank firmware, (∀ p, buffer p b' = buffer p b₁) → b'.ready_ = false →
      b'.visible = false → b'.occupied = (b.occupied && !ok) → Emptied b log ok b' := by
    intro b' hsame hready hvisible hoccupied
    refine ⟨fun hs => ⟨fun p => ?_, fun h => ?_, fun h => ?_, fun p => ?_, fun h p => ?_⟩, hready, hvisible,
      fun p => ?_, ⟨oks, hall, fun p => ?_⟩, hoccupied, fun h p => ?_⟩
    · rw [hsame p]
      exact (hgives p).kept.sound (hs.buffers p)
    · exact absurd (hready.symm.trans h) Bool.false_ne_true
    · exact absurd (hvisible.symm.trans h) Bool.false_ne_true
    · rw [hsame p, (hgives p).hidden, hvisible, Bool.false_and]
    · -- A bank is free when it was before, or when all of its buffers are.
      rw [hsame p]
      rw [hoccupied, Bool.and_eq_false_iff] at h
      rcases h with h | h
      · rcases (hgives p).resumes with ⟨done, todo, hresumes⟩
        have hdue : (buffer p b).due = [] :=
          List.filter_eq_nil_iff.2 fun r _ => by simp [(hs.free h p).held r]
        have htodo : todo = [] := (List.append_eq_nil_iff.1 (hresumes.before.symm.trans hdue)).2
        exact (hgives p).vacant (hresumes.finished.2 htodo)
      · have htrue : ok = true := by simpa using h
        exact (hgives p).vacant (hall.1 htrue p)
    · rw [hsame p]
      exact (hgives p).kept
    · rw [hsame p]
      exact (hgives p).resumes
    · rw [hsame p]
      exact (hgives p).vacant (hall.1 h p)
  rw [settle, wp_ite]
  constructor
  · intro htrue
    rw [wp_modify_bind, wp_pure, List.append_nil]
    exact hemptied _ (fun _ => rfl) hflags.2.1 hflags.2.2.1 (by rw [htrue]; simp)
  · intro hfalse
    have hno : ok = false := by simpa using hfalse
    rw [wp_pure, List.append_nil]
    exact hemptied _ (fun _ => rfl) hflags.2.1 hflags.2.2.1 (by rw [hflags.1, hno]; simp)

theorem release_spec (hs : Sound b) :
    release.wp (fun log ok b' =>
      (b.visible = true ∧ log = [] ∧ ok = false ∧ b' = b) ∨ (b.visible = false ∧ Emptied b log ok b')) b := by
  rw [release, wp_get_bind, wp_ite]
  constructor
  · intro hvisible
    rw [wp_pure]
    exact Or.inl ⟨hvisible, rfl, rfl, rfl⟩
  · intro hvisible
    have hidden : b.visible = false := by simpa using hvisible
    rw [wp_modify_bind]
    refine wp_mono (emptied_of_each (f := fun b => { b with ready_ := false }) (fun p => release_gives ?_)
      ?_ fun _ => rfl) fun log ok b' h => Or.inr ⟨hidden, h⟩
    · rw [hs.shown p, hidden, Bool.false_and]
    · simp only [flags, hidden]

theorem releaseAfterDmaStopped_spec : releaseAfterDmaStopped.wp (Emptied b) b := by
  rw [releaseAfterDmaStopped, wp_modify_bind]
  exact emptied_of_each (f := fun b => { b with ready_ := false, visible := false })
    (fun p => releaseAfterDmaStopped_gives _) rfl fun _ => rfl

/-- What building a buffer does to it. -/
structure Built (s : MacDmaBuffer) (log : Trace) (ok : Bool) (s' : MacDmaBuffer) : Prop where
  kept : MacDmaBuffer.Kept s log s'
  hidden : s'.visible = false
  ready : s'.ready = ok

/-- What an `allocate` that is not refused has done. -/
structure Allocated (b : TxDmaBank firmware) (log : BankTrace firmware) (ok : Bool) (b' : TxDmaBank firmware) :
    Prop where
  sound : Sound b'
  kept : Apart buffer MacDmaBuffer.Kept b log b'
  ready : b'.ready_ = ok
  visible : b'.visible = false

theorem allocate_spec (device workloop : Bool) (hs : Sound b) :
    (allocate device workloop).wp (fun log ok b' =>
      (b.occupied = true ∧ log = [] ∧ ok = false ∧ b' = b) ∨
      (b.occupied = false ∧ Allocated b log ok b')) b := by
  rw [allocate, wp_get_bind, wp_ite]
  constructor
  · intro hoccupied
    rw [wp_pure]
    exact Or.inl ⟨hoccupied, rfl, rfl, rfl⟩
  · intro hfree
    have hfree : b.occupied = false := by simpa using hfree
    have hready : b.ready_ = false := by
      by_contra hno
      exact absurd (hfree.symm.trans (hs.ready (by simpa using hno)).1) Bool.false_ne_true
    have hvisible : b.visible = false := by
      by_contra hno
      exact absurd (hready.symm.trans (hs.visible (by simpa using hno))) Bool.false_ne_true
    rw [wp_modify_bind, wp_bind]
    refine wp_mono (wp_every_on (S := fun _ => Built) nodup_taken fun p _ => ?_) ?_
    · refine wp_mono (MacDmaBuffer.allocate_vacant _ (hs.free hfree p)) ?_
      exact fun log ok s' h => ⟨h.1, h.2.1, h.2.2⟩
    rintro log ok b₁ ⟨done, rest, oks, hsplit, hacted, hok⟩
    have hflags := hacted.whole
    simp only [flags, Prod.mk.injEq] at hflags
    have hkept : Apart buffer MacDmaBuffer.Kept b log b₁ := by
      intro p
      exact acted_apart MacDmaBuffer.kept_traced hacted (fun _ _ s log ok s' (h : Built s log ok s') => h.kept) p
    have hhidden : ∀ p, (buffer p b₁).visible = false := by
      intro p
      by_cases hp : p ∈ done
      · exact (hacted.acted p hp).hidden
      · rw [(hacted.apart p hp).2]
        exact (hs.free hfree p).visible
    rw [wp_ite]
    constructor
    · intro htrue
      rw [wp_modify_bind, wp_pure, List.append_nil]
      refine Or.inr ⟨hfree, ⟨fun p => ?_, fun _ => ⟨hflags.1, fun p hp => ?_⟩, fun h => ?_, fun p => ?_,
        fun h p => ?_⟩, hkept, htrue ▸ rfl, hflags.2.2.1.trans hvisible⟩
      · exact (hkept p).sound (hs.buffers p)
      · have hdone : p ∈ done := by
          rw [(hok htrue).1, List.append_nil] at hsplit
          rw [← hsplit]
          exact mem_taken.2 hp
        exact (hacted.acted p hdone).ready.trans ((hok htrue).2 p hdone)
      · rfl
      · refine (hhidden p).trans ?_
        rw [show b₁.visible = false from hflags.2.2.1.trans hvisible, Bool.false_and]
      · exact absurd (h.symm.trans hflags.1) Bool.false_ne_true
    · intro hfalse
      have hsound : Sound b₁ := by
        refine ⟨fun p => (hkept p).sound (hs.buffers p), fun h => ?_, fun h => ?_, fun p => ?_, fun h p => ?_⟩
        · exact absurd ((hflags.2.1.trans hready).symm.trans h) Bool.false_ne_true
        · exact absurd ((hflags.2.2.1.trans hvisible).symm.trans h) Bool.false_ne_true
        · rw [hhidden p, hflags.2.2.1, hvisible, Bool.false_and]
        · exact absurd (h.symm.trans hflags.1) Bool.false_ne_true
      rw [wp_bind]
      refine wp_mono (release_spec hsound) ?_
      rintro log' ok' b' (⟨hno, -⟩ | ⟨-, hemptied⟩)
      · exact absurd ((hflags.2.2.1.trans hvisible).symm.trans hno) Bool.false_ne_true
      · rw [wp_pure, List.append_nil]
        exact Or.inr ⟨hfree, hemptied.sound hsound,
          (apart_traced MacDmaBuffer.kept_traced).trans hkept hemptied.kept, hemptied.ready, hemptied.visible⟩

/-- A call that neither builds nor gives back. -/
structure Idle (b : TxDmaBank firmware) (log : BankTrace firmware) (b' : TxDmaBank firmware) : Prop where
  sound : Sound b'
  kept : Apart buffer MacDmaBuffer.Kept b log b'
  nothing : ∀ p, ∀ e ∈ part p log, deed e = .nothing

theorem Idle.refl (hs : Sound b) : Idle b [] b :=
  ⟨hs, (apart_traced MacDmaBuffer.kept_traced).refl b, fun _ _ he => absurd he List.not_mem_nil⟩

/-- What synchronizing a buffer does to it. -/
structure Synced (s : MacDmaBuffer) (log : Trace) (s' : MacDmaBuffer) : Prop where
  kept : MacDmaBuffer.Kept s log s'
  alike : MacDmaBuffer.Alike s s'
  nothing : ∀ e ∈ log, deed e = .nothing

theorem synced_traced : Traced Synced where
  refl s := ⟨MacDmaBuffer.kept_traced.refl s, MacDmaBuffer.Alike.refl s, fun _ he => absurd he List.not_mem_nil⟩
  trans h h' := ⟨MacDmaBuffer.kept_traced.trans h.kept h'.kept, h.alike.trans h'.alike,
    fun e he => (List.mem_append.1 he).elim (h.nothing e) (h'.nothing e)⟩

theorem syncForDevice_spec (slot : ℕ) (hs : Sound b) :
    (syncForDevice slot).wp (fun log _ b' => Idle b log b' ∧ b'.visible = b.visible) b := by
  rw [syncForDevice, wp_get_bind]
  by_cases hslot : slot < 64
  swap
  · rw [dif_neg hslot, wp_pure]
    exact ⟨Idle.refl hs, rfl⟩
  rw [dif_pos hslot, wp_ite]
  constructor
  · intro _
    rw [wp_pure]
    exact ⟨Idle.refl hs, rfl⟩
  · intro hready
    have hready : b.ready_ = true := by
      simp only [ready, Bool.not_and, Bool.not_not] at hready
      by_contra hno
      simp [hno] at hready
    rw [wp_bind]
    refine wp_mono (wp_every_on (S := fun _ s log _ s' => Synced s log s') (nodup_synced ⟨slot, hslot⟩) ?_) ?_
    · intro p _
      refine wp_mono (MacDmaBuffer.synchronize_kept true _) ?_
      exact fun log ok s' h => ⟨h.1, h.2.1, h.2.2.2⟩
    rintro log ok b₁ ⟨done, rest, oks, hsplit, hacted, -⟩
    have hsynced : Apart buffer Synced b log b₁ := acted_apart synced_traced hacted fun _ _ _ _ _ _ h => h
    have hflags := hacted.whole
    simp only [flags, Prod.mk.injEq] at hflags
    have hidle : ∀ b' : TxDmaBank firmware, (∀ p, buffer p b' = buffer p b₁) → b'.occupied = b.occupied →
        b'.ready_ = b.ready_ → b'.visible = b.visible → Idle b log b' := by
      intro b' hsame hoccupied hready' hvisible
      refine ⟨⟨fun p => ?_, fun _ => ⟨?_, fun p hp => ?_⟩, fun _ => ?_, fun p => ?_, fun h p => ?_⟩, fun p => ?_,
        fun p => (hsynced p).nothing⟩
      · rw [hsame p]
        exact (hsynced p).kept.sound (hs.buffers p)
      · exact hoccupied.trans (hs.ready hready).1
      · rw [hsame p]
        exact (hsynced p).alike.ready.trans ((hs.ready hready).2 p hp)
      · exact hready'.trans hready
      · rw [hsame p, (hsynced p).alike.visible, hvisible]
        exact hs.shown p
      · exact absurd ((hoccupied.symm.trans h).symm.trans (hs.ready hready).1) Bool.false_ne_true
      · rw [hsame p]
        exact (hsynced p).kept
    rw [wp_ite]
    constructor
    · intro _
      rw [wp_pure, List.append_nil]
      exact ⟨hidle b₁ (fun _ => rfl) hflags.1 hflags.2.1 hflags.2.2.1, hflags.2.2.1⟩
    · intro _
      rw [wp_modify_bind, wp_pure, List.append_nil]
      exact ⟨hidle _ (fun _ => rfl) hflags.1 hflags.2.1 hflags.2.2.1, hflags.2.2.1⟩

theorem markDeviceVisible_lends {s : MacDmaBuffer} (hready : s.ready = true) :
    MacDmaBuffer.markDeviceVisible.wp (fun log ok s' => MacDmaBuffer.Kept s log s' ∧ log = [] ∧ ok = true ∧
      s'.ready = true ∧ s'.visible = true) s := by
  have hkept := MacDmaBuffer.markDeviceVisible_callKept s
  rw [MacDmaBuffer.markDeviceVisible, wp_get_bind, hready, if_neg (by simp), wp_modify_bind, wp_pure] at hkept ⊢
  exact ⟨hkept.kept, rfl, rfl, hready, rfl⟩

/-- A bank that is ready can be lent: none of its buffers refuses. -/
theorem markDeviceVisible_spec (hs : Sound b) :
    markDeviceVisible.wp (fun log ok b' => Idle b log b' ∧ ok = b.ready ∧ b'.visible = (b.visible || ok) ∧
      b'.faulted = b.faulted) b := by
  rw [markDeviceVisible, wp_get_bind, wp_ite]
  constructor
  · intro hready
    have hno : b.ready = false := by simpa using hready
    rw [wp_pure, hno, Bool.or_false]
    exact ⟨Idle.refl hs, rfl, rfl, rfl⟩
  · intro hready
    have hyes : b.ready = true := by simpa using hready
    have hready : b.ready_ = true := by
      rw [ready, Bool.and_eq_true] at hyes
      exact hyes.1
    rw [wp_modify_bind, wp_bind]
    refine wp_mono (wp_each_on (S := fun _ s log ok s' => MacDmaBuffer.Kept s log s' ∧ log = [] ∧ ok = true ∧
      s'.ready = true ∧ s'.visible = true) nodup_marked fun p hp =>
        markDeviceVisible_lends ((hs.ready hready).2 p (mem_marked.1 hp))) ?_
    rintro log ok b₁ ⟨oks, hacted, rfl⟩
    have hall : (marked firmware).all oks = true :=
      List.all_eq_true.2 fun p hp => (hacted.acted p hp).2.2.1
    have hflags := hacted.whole
    simp only [flags, Prod.mk.injEq] at hflags
    have hkept : Apart buffer MacDmaBuffer.Kept b log b₁ := by
      intro p
      exact acted_apart MacDmaBuffer.kept_traced hacted (fun _ _ _ _ _ _ h => h.1) p
    rw [hall, if_neg (by simp), wp_pure, List.append_nil]
    refine ⟨⟨⟨fun p => (hkept p).sound (hs.buffers p), fun _ => ⟨hflags.1.trans (hs.ready hready).1, fun p hp => ?_⟩,
      fun _ => hflags.2.1.trans hready, fun p => ?_, fun h p => ?_⟩, hkept, fun p => ?_⟩, hyes.symm,
      by rw [hflags.2.2.1, Bool.or_true], hflags.2.2.2⟩
    · exact (hacted.acted p (mem_marked.2 hp)).2.2.2.1
    · rw [hflags.2.2.1, Bool.true_and]
      by_cases hp : p ∈ marked firmware
      · rw [(hacted.acted p hp).2.2.2.2, mem_marked.1 hp]
      · have hunused : used p = false := by
          by_contra hno
          exact hp (mem_marked.2 (by simpa using hno))
        rw [(hacted.apart p hp).2, hunused]
        exact (hs.shown p).trans (by rw [hunused, Bool.and_false])
    · exact absurd (h.symm.trans (hflags.1.trans (hs.ready hready).1)) (by simp)
    · by_cases hp : p ∈ marked firmware
      · rw [(hacted.acted p hp).2.1]
        exact fun _ he => absurd he List.not_mem_nil
      · rw [(hacted.apart p hp).1]
        exact fun _ he => absurd he List.not_mem_nil

/-- All that is claimed of a single call. -/
structure CallKept (x : Called firmware) : Prop where
  sound : Sound x.after
  kept : Apart buffer MacDmaBuffer.Kept x.before x.log x.after
  /-- While the device can reach the bank nothing of any buffer is given back. -/
  lent : x.before.visible = true → x.op ≠ .releaseAfterDmaStopped →
    x.after.visible = true ∧ ∀ p, ∀ e ∈ part p x.log, deed e = .nothing
  /-- A bank that is occupied is not allocated. -/
  busy : ∀ device workloop, x.op = .allocate device workloop → x.before.occupied = true →
    x.result = false ∧ x.log = [] ∧ x.after = x.before
  /-- An `allocate` that fails leaves a bank of which nothing is shown. -/
  unbuilt : ∀ device workloop, x.op = .allocate device workloop → x.before.occupied = false →
    x.after.ready_ = x.result ∧ x.after.visible = false
  /-- A release passes over all buffers, and frees the bank if each of them is empty. -/
  emptied : (x.op = .release ∧ x.before.visible = false) ∨ x.op = .releaseAfterDmaStopped →
    Emptied x.before x.log x.result x.after
  /-- Lending never fails in the middle. -/
  marked : x.op = .markDeviceVisible → x.result = x.before.ready ∧ x.after.faulted = x.before.faulted

theorem call_kept {op : Op} (hs : Sound b) (hout : (exec op b).Outcome log (ok, b')) :
    CallKept ⟨b, op, log, ok, b'⟩ := by
  have hwp : (exec op).wp (fun log ok b' => CallKept ⟨b, op, log, ok, b'⟩) b := by
    have hquiet : Apart buffer MacDmaBuffer.Kept b [] b := (apart_traced MacDmaBuffer.kept_traced).refl b
    have hnothing : ∀ p : Part firmware, ∀ e ∈ part p ([] : BankTrace firmware), deed e = .nothing :=
      fun _ _ he => absurd he List.not_mem_nil
    cases op with
    | allocate device workloop =>
        refine wp_mono (allocate_spec device workloop hs) ?_
        rintro log ok b' (⟨hoccupied, rfl, rfl, rfl⟩ | ⟨hfree, hall⟩)
        · exact ⟨hs, hquiet, fun hlent _ => ⟨hlent, hnothing⟩, fun _ _ _ _ => ⟨rfl, rfl, rfl⟩,
            fun _ _ _ h => absurd (h.symm.trans hoccupied) Bool.false_ne_true,
            (by rintro (⟨⟨⟩, -⟩ | ⟨⟨⟩⟩)), (by rintro ⟨⟩)⟩
        · exact ⟨hall.sound, hall.kept,
            fun hlent _ => absurd (hfree.symm.trans (hs.ready (hs.visible hlent)).1) Bool.false_ne_true,
            fun _ _ _ h => absurd (hfree.symm.trans h) Bool.false_ne_true,
            fun _ _ _ _ => ⟨hall.ready, hall.visible⟩, (by rintro (⟨⟨⟩, -⟩ | ⟨⟨⟩⟩)), (by rintro ⟨⟩)⟩
    | syncForDevice slot =>
        refine wp_mono (syncForDevice_spec slot hs) fun log ok b' h => ?_
        exact ⟨h.1.sound, h.1.kept, fun hlent _ => ⟨h.2.trans hlent, h.1.nothing⟩, (by rintro _ _ ⟨⟩),
          (by rintro _ _ ⟨⟩), (by rintro (⟨⟨⟩, -⟩ | ⟨⟨⟩⟩)), (by rintro ⟨⟩)⟩
    | markDeviceVisible =>
        refine wp_mono (markDeviceVisible_spec hs) fun log ok b' h => ?_
        exact ⟨h.1.sound, h.1.kept, fun hlent _ => ⟨by rw [h.2.2.1, hlent, Bool.true_or], h.1.nothing⟩,
          (by rintro _ _ ⟨⟩), (by rintro _ _ ⟨⟩), (by rintro (⟨⟨⟩, -⟩ | ⟨⟨⟩⟩)), fun _ => ⟨h.2.1, h.2.2.2⟩⟩
    | release =>
        refine wp_mono (release_spec hs) ?_
        rintro log ok b' (⟨hvisible, rfl, rfl, rfl⟩ | ⟨hidden, hemptied⟩)
        · exact ⟨hs, hquiet, fun hlent _ => ⟨hlent, hnothing⟩, (by rintro _ _ ⟨⟩), (by rintro _ _ ⟨⟩),
            fun h => h.elim (fun h => absurd (h.2.symm.trans hvisible) Bool.false_ne_true) (by rintro ⟨⟩),
            (by rintro ⟨⟩)⟩
        · exact ⟨hemptied.sound hs, hemptied.kept,
            fun hlent _ => absurd (hidden.symm.trans hlent) Bool.false_ne_true, (by rintro _ _ ⟨⟩),
            (by rintro _ _ ⟨⟩), fun _ => hemptied, (by rintro ⟨⟩)⟩
    | releaseAfterDmaStopped =>
        refine wp_mono releaseAfterDmaStopped_spec fun log ok b' hemptied => ?_
        exact ⟨hemptied.sound hs, hemptied.kept, fun _ h => absurd rfl h, (by rintro _ _ ⟨⟩), (by rintro _ _ ⟨⟩),
          fun _ => hemptied, (by rintro ⟨⟩)⟩
  exact wp_outcome hwp hout

/-! ## Runs -/

variable {h : List (Called firmware)}

theorem run_sound (hrun : Run exec {} h b) :
    Sound b ∧ ∀ p, Custody deed order (fun _ => false) (part p (eventsOf h)) (buffer p b).held := by
  refine Run.invariant (P := fun h b => Sound b ∧ ∀ p, Custody deed order (fun _ => false)
    (part p (eventsOf h)) (buffer p b).held) ⟨sound_initial, fun p => ?_⟩ ?_ hrun
  · have hnone : (buffer p ({} : TxDmaBank firmware)).held = fun _ => false := by
      funext r
      cases r <;> rfl
    rw [hnone]
    exact custody_nil
  · intro h b b' op log ok _ hb hout
    have hcall := call_kept hb.1 hout
    refine ⟨hcall.sound, fun p => ?_⟩
    rw [eventsOf, part_append]
    exact (hb.2 p).trans ((hcall.kept p).accounted (hb.1.buffers p))

/-- A slot that shows where it is mapped has a buffer that shows it. -/
theorem mapping_of_slot {n slot : ℕ} {part : Fin n → Part firmware}
    (hmapped : (if h : slot < n then if b.ready_ then (b.buffers (part ⟨slot, h⟩)).mapping else {} else {}) ≠
      ({} : DataMapping)) :
    ∃ i : Fin n, i.val = slot ∧ (buffer (part i) b).mapping ≠ {} := by
  by_cases h : slot < n
  · rw [dif_pos h] at hmapped
    by_cases hready : b.ready_ = true
    · rw [if_pos hready] at hmapped
      exact ⟨⟨slot, h⟩, rfl, hmapped⟩
    · rw [if_neg hready] at hmapped
      exact absurd rfl hmapped
  · rw [dif_neg h] at hmapped
    exact absurd rfl hmapped

/-- What a bank shows as mapped is prepared. -/
structure Shown (b : TxDmaBank firmware) : Prop where
  ring : b.ringMapping ≠ {} → (buffer .ring b).Prepared
  frame : ∀ slot, b.frameMapping slot ≠ {} → ∃ i : Fin 64, i.val = slot ∧ (buffer (.frame i) b).Prepared
  descriptor : ∀ slot, b.descriptorMapping slot ≠ {} →
    firmware = false ∧ ∃ i, i.val = slot ∧ (buffer (.descriptor i) b).Prepared

theorem Sound.mapped (hs : Sound b) : Shown b where
  ring hmapped := by
    refine (hs.buffers .ring).prepared fun hempty => hmapped ?_
    rw [ringMapping]
    split
    · exact hempty
    · rfl
  frame slot hmapped := by
    rcases mapping_of_slot hmapped with ⟨i, hi, hshown⟩
    exact ⟨i, hi, (hs.buffers _).prepared hshown⟩
  descriptor slot hmapped := by
    cases firmware with
    | true => exact absurd rfl hmapped
    | false =>
        rcases mapping_of_slot hmapped with ⟨i, hi, hshown⟩
        exact ⟨rfl, i, hi, (hs.buffers _).prepared hshown⟩

/-- What a bank has gone through. -/
structure Lifetime (h : List (Called firmware)) (b : TxDmaBank firmware) : Prop where
  /-- In every buffer, what was taken is given back once and in order, or is still held. -/
  custody : ∀ p, Custody deed order (fun _ => false) (part p (eventsOf h)) (buffer p b).held
  balance : ∀ p r, Interaction.taken deed r (part p (eventsOf h)) =
    freed deed r (part p (eventsOf h)) + ((buffer p b).held r).toNat
  /-- The device can reach the buffers that are in use exactly while the bank says so. -/
  shown : ∀ p, (buffer p b).visible = (b.visible && used p)
  /-- A bank that is not occupied is empty. -/
  free : b.occupied = false → ∀ p, (buffer p b).Vacant
  /-- Every buffer of a bank that is ready is prepared. -/
  ready : b.ready_ = true → ∀ p, used p = true →
    (buffer p b).memoryPrepared = true ∧ (buffer p b).commandPrepared = true
  mapped : Shown b
  calls : ∀ x ∈ h, CallKept x

theorem bank_lifetime (hrun : Run exec {} h b) : Lifetime h b := by
  rcases run_sound hrun with ⟨hs, hcustody⟩
  refine ⟨hcustody, fun p r => ?_, hs.shown, hs.free, fun hready p hp => ?_, hs.mapped, fun x hx => ?_⟩
  · have hbalance := (hcustody p).balance r
    rw [Bool.toNat_false, Nat.add_zero] at hbalance
    exact hbalance
  · exact (hs.buffers p).ready ((hs.ready hready).2 p hp)
  · rcases List.append_of_mem hx with ⟨later, earlier, rfl⟩
    have htail := (Run.drop hrun).tail
    exact call_kept (run_sound htail.1).1 htail.2.2

/-- A kernel that has memory for the ring only. -/
def scarce (c : Part firmware × Kit) (again : Bool) : Replies (Part firmware) Answer c × Bool :=
  match c with
  | (.ring, c) => MacDmaBuffer.faltering c again
  | (.frame _, .inTaskWithPhysicalMask _) | (.descriptor _, .inTaskWithPhysicalMask _) => (false, again)
  | (_, c) => MacDmaBuffer.faltering c again

def scarceCalls : List Op := [.allocate true true, .markDeviceVisible, .allocate true true, .release]

/-- The ring of a bank that cannot be built is kept until its command can be completed. -/
theorem bank_lifetime_scarce :
    (replay exec scarce scarceCalls ({} : TxDmaBank true) false).1.map (fun x => (x.result, x.after.occupied)) =
        [(true, false), (false, true), (false, true), (false, true)] ∧
      Lifetime (replay exec scarce scarceCalls ({} : TxDmaBank true) false).1
        (replay exec scarce scarceCalls ({} : TxDmaBank true) false).2.1 :=
  ⟨by decide +kernel, bank_lifetime (replay_run exec scarce scarceCalls {} false)⟩

end TxDmaBank

end Dma
end Rtl8852be
