import Rtl8852be.Pci.PciRuntime

/-!
# Effects — what the methods of the runtime can do

* `Frame P` — code that touches none of the flags and indices that later calls rely on, makes only
  accesses that satisfy `P`, and marks a fault exactly when it sets `faulted_`;
* `publish_cases` — every way in which `publish` can go;
* `start_cases` — every way in which `start` can go.
-/

namespace Rtl8852be
namespace Pci
namespace PciRuntime

open Interaction Network Code

/-! ## Rules for the device's methods -/

section Rules

variable {α : Type} {Q : Trace → α → PciRuntime → Prop} {s : PciRuntime}

@[simp] theorem wp_read32 (a : UInt32) (f : UInt32 → Driver α) :
    (read32 a >>= f).wp Q s ↔
      ∀ v, (f v).wp (fun log x s' => Q (.call (.read32 a) v :: log) x s') s :=
  wp_ask_bind _ _

@[simp] theorem wp_write32 (a v : UInt32) (f : Bool → Driver α) :
    (write32 a v >>= f).wp Q s ↔
      ∀ ok, (f ok).wp (fun log x s' => Q (.call (.write32 a v) ok :: log) x s') s :=
  wp_ask_bind _ _

@[simp] theorem wp_read16 (a : UInt32) (f : UInt16 → Driver α) :
    (read16 a >>= f).wp Q s ↔
      ∀ v, (f v).wp (fun log x s' => Q (.call (.read16 a) v :: log) x s') s :=
  wp_ask_bind _ _

@[simp] theorem wp_write16 (a : UInt32) (v : UInt16) (f : Bool → Driver α) :
    (write16 a v >>= f).wp Q s ↔
      ∀ ok, (f ok).wp (fun log x s' => Q (.call (.write16 a v) ok :: log) x s') s :=
  wp_ask_bind _ _

@[simp] theorem wp_readCommand (f : UInt16 → Driver α) :
    (readCommand >>= f).wp Q s ↔
      ∀ v, (f v).wp (fun log x s' => Q (.call .command v :: log) x s') s :=
  wp_ask_bind _ _

@[simp] theorem wp_writeCommand (v : UInt16) (f : Bool → Driver α) :
    (writeCommand v >>= f).wp Q s ↔
      ∀ ok, (f ok).wp (fun log x s' => Q (.call (.writeCommand v) ok :: log) x s') s :=
  wp_ask_bind _ _

@[simp] theorem wp_barrier (f : Unit → Driver α) :
    (barrier >>= f).wp Q s ↔
      ∀ v, (f v).wp (fun log x s' => Q (.call .barrier v :: log) x s') s :=
  wp_ask_bind _ _

@[simp] theorem wp_nowUs (f : UInt64 → Driver α) :
    (nowUs >>= f).wp Q s ↔
      ∀ v, (f v).wp (fun log x s' => Q (.call .nowUs v :: log) x s') s :=
  wp_ask_bind _ _

@[simp] theorem wp_pauseUs (us : ℕ) (f : Unit → Driver α) :
    (pauseUs us >>= f).wp Q s ↔
      ∀ v, (f v).wp (fun log x s' => Q (.call (.pauseUs us) v :: log) x s') s :=
  wp_ask_bind _ _

@[simp] theorem wp_fail (a expected actual : UInt32) {Q : Trace → Bool → PciRuntime → Prop} :
    (fail a expected actual).wp Q s ↔ Q [.note .fault] false (failed a expected actual s) := by
  rw [fail, wp_tell_bind, wp_modify_bind, wp_pure]

@[simp] theorem wp_fail_bind (a expected actual : UInt32) (f : Bool → Driver α) :
    (fail a expected actual >>= f).wp Q s ↔
      (f false).wp (fun log x s' => Q (.note .fault :: log) x s') (failed a expected actual s) := by
  rw [wp_bind, wp_fail]
  rfl

end Rules

/-! ## Harmless code -/

def Event.doorbell : Event Access Reply Mark → Bool
  | .call (.write16 _ _) _ => true
  | .call (.write32 a _) _ => decide (∃ i, a = (ringRegisters i).index)
  | _ => false

/-- An interrupt mask that is not zero is written. -/
def Event.arms : Event Access Reply Mark → Bool
  | .call (.write32 a v) _ => decide (∃ i, a = irqMasks i) && v != 0
  | _ => false

def Event.masters : Event Access Reply Mark → Bool
  | .call (.writeCommand v) _ => v &&& 4 != 0
  | _ => false

def Event.commands : Event Access Reply Mark → Bool
  | .call (.writeCommand _) _ => true
  | _ => false

def Event.readsIndex : Event Access Reply Mark → Bool
  | .call (.read32 a) _ => decide (∃ i, a = (ringRegisters i).index)
  | _ => false

/-- No doorbell, no interrupt is armed, and the PCI command is not written. -/
structure Harmless (e : Event Access Reply Mark) : Prop where
  doorbell : Event.doorbell e = false
  arms : Event.arms e = false
  commands : Event.commands e = false

/-- Besides, no index register is read. -/
structure Inert (e : Event Access Reply Mark) : Prop extends Harmless e where
  readsIndex : Event.readsIndex e = false

/-- The PCI command may be written, but does not switch the bus master on. -/
structure Quiet (e : Event Access Reply Mark) : Prop where
  doorbell : Event.doorbell e = false
  arms : Event.arms e = false
  masters : Event.masters e = false
  readsIndex : Event.readsIndex e = false

variable {e : Event Access Reply Mark}

theorem Harmless.masters (h : Harmless e) : Event.masters e = false := by
  have hcommands := h.commands
  unfold Event.masters
  split
  · exact absurd hcommands nofun
  · rfl

theorem Inert.quiet (h : Inert e) : Quiet e :=
  ⟨h.doorbell, h.arms, h.toHarmless.masters, h.readsIndex⟩

/-- An index register that cannot be right, given the last host index that was written. -/
def Mismatch (host : UInt16) (v : UInt32) : Prop :=
  bad v = true ∨ hostHalf v ≥ 64 ∨ hardwareHalf v ≥ 64 ∨ hostHalf v ≠ host

/-- Only accesses that satisfy `P`, and the flags and host indices are kept.  Index registers are read
only while all of them are zero. -/
structure Frame (P : Event Access Reply Mark → Prop) (s : PciRuntime) (log : Trace)
    (s' : PciRuntime) : Prop where
  only : ∀ e ∈ log, P e
  attempted : s'.attempted = s.attempted
  running : s'.running = s.running
  host : s'.host = s.host
  stopped : s'.result.stopped = s.result.stopped
  faulted : s'.faulted = true ↔ s.faulted = true ∨ .note .fault ∈ log
  reads : ∀ (n : Fin 9) (v : UInt32), .call (.read32 (ringRegisters n).index) v ∈ log →
    Mismatch 0 v → s'.faulted = true

variable {P : Event Access Reply Mark → Prop}

theorem frame_traced (P : Event Access Reply Mark → Prop) : Traced (Frame P) where
  refl := by
    intro s
    exact ⟨by simp, rfl, rfl, rfl, rfl, by simp, by simp⟩
  trans := by
    intro s s' s'' log log' h h'
    refine ⟨?_, h'.attempted.trans h.attempted, h'.running.trans h.running, h'.host.trans h.host,
      h'.stopped.trans h.stopped, ?_, ?_⟩
    · intro e he
      rcases List.mem_append.1 he with he | he
      · exact h.only e he
      · exact h'.only e he
    · rw [h'.faulted, h.faulted, List.mem_append, or_assoc]
    · intro n v hv hmismatch
      rcases List.mem_append.1 hv with hv | hv
      · exact h'.faulted.2 (Or.inl (h.reads n v hv hmismatch))
      · exact h'.reads n v hv hmismatch

theorem Frame.mono {P' : Event Access Reply Mark → Prop} {s s' : PciRuntime} {log : Trace}
    (h : Frame P s log s') (hP : ∀ e, P e → P' e) : Frame P' s log s' :=
  ⟨fun e he => hP e (h.only e he), h.attempted, h.running, h.host, h.stopped, h.faulted, h.reads⟩

theorem frame_call {c : Access} {r : Reply c} (h : P (.call c r))
    (hreads : Event.readsIndex (.call c r) = false) (s : PciRuntime) : Frame P s [.call c r] s := by
  refine ⟨by simpa using h, rfl, rfl, rfl, rfl, by simp, ?_⟩
  intro n v hv
  rw [List.mem_singleton] at hv
  rw [← hv] at hreads
  simp only [Event.readsIndex, decide_eq_false_iff_not, not_exists] at hreads
  exact absurd rfl (hreads n)

theorem frame_failed (h : P (.note .fault)) (a expected actual : UInt32) (s : PciRuntime) :
    Frame P s [.note .fault] (failed a expected actual s) := by
  refine ⟨by simpa using h, rfl, rfl, rfl, ?_, by simp [failed], by simp⟩
  show (if _ then _ else _ : RuntimeResult).stopped = _
  split
  · rfl
  · rfl

theorem frame_update {s s' : PciRuntime}
    (hattempted : s'.attempted = s.attempted) (hrunning : s'.running = s.running)
    (hhost : s'.host = s.host) (hstopped : s'.result.stopped = s.result.stopped)
    (hfaulted : s'.faulted = s.faulted) : Frame P s [] s' :=
  ⟨by simp, hattempted, hrunning, hhost, hstopped, by simp [hfaulted], by simp⟩

theorem keeps_fail (h : P (.note .fault)) (a expected actual : UInt32) :
    Keeps (Frame P) (fail a expected actual) := by
  intro s
  rw [wp_fail]
  exact frame_failed h a expected actual s

variable {a : UInt32}

theorem readsIndex_read32 (ha : ∀ i, a ≠ (ringRegisters i).index) (v : UInt32) :
    Event.readsIndex (.call (.read32 a) v) = false := by
  simp [Event.readsIndex, ha]

theorem keeps_read32_bind {α : Type} (ha : ∀ i, a ≠ (ringRegisters i).index) {f : UInt32 → Driver α}
    (hf : ∀ v, Keeps (Frame Inert) (f v)) :
    Keeps (Frame Inert) (read32 a >>= f) :=
  Keeps.ask_bind (frame_traced Inert)
    (fun s v => frame_call ⟨⟨rfl, rfl, rfl⟩, readsIndex_read32 ha v⟩ (readsIndex_read32 ha v) s) hf

theorem equal_frame (ha : ∀ i, a ≠ (ringRegisters i).index) (mask expected : UInt32) :
    Keeps (Frame Inert) (equal a mask expected) :=
  keeps_read32_bind ha fun _ =>
    Keeps.ite (Keeps.pure (frame_traced Inert) true) (keeps_fail ⟨⟨rfl, rfl, rfl⟩, rfl⟩ _ _ _)

/-- An index register that reads as zero is no mismatch. -/
theorem not_mismatch_zero {v : UInt32} (hbad : bad v = false) (hzero : v &&& 0x0fff0fff = 0) :
    ¬ Mismatch 0 v := by
  have hlow : v &&& 0xfff = (v &&& 0x0fff0fff) &&& 0xfff := by
    rw [UInt32.and_assoc]
    rfl
  have hhigh : ((v >>> 16) &&& 0xfff : UInt32) = (v &&& 0x0fff0fff) >>> 16 := by
    rw [UInt32.shiftRight_and]
    rfl
  have hhost : hostHalf v = 0 := by
    rw [hostHalf, hlow, hzero]
    rfl
  have hhardware : hardwareHalf v = 0 := by
    rw [hardwareHalf, hhigh, hzero]
    rfl
  rw [Mismatch, hbad, hhost, hhardware]
  decide

/-- The check that both halves of an index register are zero. -/
theorem equal_index_frame (n : Fin 9) :
    Keeps (Frame Harmless) (equal (ringRegisters n).index 0x0fff0fff 0) := by
  intro s
  rw [equal, wp_read32]
  intro v
  rw [wp_ite]
  constructor
  · intro h
    rw [wp_pure]
    simp only [Bool.and_eq_true, Bool.not_eq_true', beq_iff_eq] at h
    refine ⟨?_, rfl, rfl, rfl, rfl, by simp, ?_⟩
    · intro e he
      rw [List.mem_singleton.1 he]
      exact ⟨rfl, rfl, rfl⟩
    · intro n' v' hv' hmismatch
      rw [List.mem_singleton] at hv'
      generalize (ringRegisters n').index = a at hv'
      cases hv'
      exact absurd hmismatch (not_mismatch_zero h.1 h.2)
  · intro _
    rw [wp_fail]
    refine ⟨?_, rfl, rfl, rfl, (frame_failed (P := fun _ => True) trivial _ _ _ s).stopped, by simp [failed],
      fun _ _ _ _ => rfl⟩
    intro e he
    rcases List.mem_cons.1 he with rfl | he
    · exact ⟨rfl, rfl, rfl⟩
    · rw [List.mem_singleton.1 he]
      exact ⟨rfl, rfl, rfl⟩

/-- A write that is neither a doorbell nor arms an interrupt. -/
theorem write_frame {value : UInt32} (h : ∀ ok, Inert (.call (.write32 a value) ok)) :
    Keeps (Frame Inert) (write a value) :=
  Keeps.ask_bind (frame_traced Inert) (fun s ok => frame_call (h ok) rfl s) fun _ : Bool =>
    Keeps.ite (Keeps.pure (frame_traced Inert) true) (keeps_fail ⟨⟨rfl, rfl, rfl⟩, rfl⟩ _ _ _)

theorem inert_control (ha : a = 0x1000 ∨ a = 0x1010) (value : UInt32) (ok : Bool) :
    Inert (.call (.write32 a value) ok) := by
  have hmask : ¬ ∃ i, a = irqMasks i := by
    rcases ha with rfl | rfl
    · decide
    · decide
  have hindex : ¬ ∃ i, a = (ringRegisters i).index := by
    rcases ha with rfl | rfl
    · decide
    · decide
  exact ⟨⟨decide_eq_false hindex, by simp [Event.arms, hmask], rfl⟩, rfl⟩

theorem inert_status (i : Fin 3) (value : UInt32) (ok : Bool) :
    Inert (.call (.write32 (irqStatus i) value) ok) := by
  have hmask : ∀ i j, irqStatus i ≠ irqMasks j := by decide
  have hindex : ∀ i j, irqStatus i ≠ (ringRegisters j).index := by decide
  exact ⟨⟨by simp [Event.doorbell, hindex], by simp [Event.arms, hmask], rfl⟩, rfl⟩

theorem doorbell_mask (i : Fin 3) (value : UInt32) (ok : Bool) :
    Event.doorbell (.call (.write32 (irqMasks i) value) ok) = false := by
  have hindex : ∀ i j, irqMasks i ≠ (ringRegisters j).index := by decide
  simp [Event.doorbell, hindex]

theorem control_ne_index (ha : a = 0x1000 ∨ a = 0x1010) :
    ∀ i, a ≠ (ringRegisters i).index := by
  rcases ha with rfl | rfl
  · decide
  · decide

theorem modifyRegister_frame (ha : a = 0x1000 ∨ a = 0x1010) (mask value : UInt32) :
    Keeps (Frame Inert) (modifyRegister a mask value) :=
  keeps_read32_bind (control_ne_index ha) fun _ =>
    Keeps.ite (keeps_fail ⟨⟨rfl, rfl, rfl⟩, rfl⟩ _ _ _)
      (Keeps.both (frame_traced Inert) (write_frame (inert_control ha _))
        (equal_frame (control_ne_index ha) _ _))

theorem irqStatus_ne_index (i : Fin 3) : ∀ j, irqStatus i ≠ (ringRegisters j).index := by
  revert i
  decide

theorem maskInterrupts_frame : Keeps (Frame Inert) maskInterrupts := by
  have hT := frame_traced Inert
  refine Keeps.bind hT (Keeps.each hT ?_) fun wrote => Keeps.bind hT (Keeps.each hT ?_) fun read =>
    Keeps.modify_bind hT (fun s => frame_update rfl rfl rfl rfl rfl) (Keeps.pure hT _)
  · intro m hm
    rcases List.mem_map.1 hm with ⟨i, -, rfl⟩
    apply write_frame
    intro ok
    exact ⟨⟨doorbell_mask i 0 ok, by simp [Event.arms], rfl⟩, rfl⟩
  · intro m hm
    rcases List.mem_map.1 hm with ⟨i, -, rfl⟩
    have hindex : ∀ i j, irqMasks i ≠ (ringRegisters j).index := by decide
    exact equal_frame (hindex i) _ _

theorem clearCause_frame (i : Fin 3) (value : UInt32) : Keeps (Frame Inert) (clearCause i value) :=
  Keeps.ite (Keeps.pure (frame_traced Inert) true) (write_frame (inert_status i value))

theorem readCause_frame (i : Fin 3) : Keeps (Frame Inert) (readCause i) :=
  keeps_read32_bind (irqStatus_ne_index i) fun _ =>
    Keeps.ite
      (Keeps.bind (frame_traced Inert) (keeps_fail ⟨⟨rfl, rfl, rfl⟩, rfl⟩ _ _ _) fun _ =>
        Keeps.pure (frame_traced Inert) none)
      (Keeps.pure (frame_traced Inert) _)

theorem acknowledgeInterrupts_frame : Keeps (Frame Inert) acknowledgeInterrupts := by
  have hT := frame_traced Inert
  refine Keeps.get_bind fun s => Keeps.ite (Keeps.pure hT _) ?_
  refine Keeps.bind hT (readCause_frame 0) fun halt => ?_
  cases halt with
  | none => exact Keeps.pure hT _
  | some halt =>
      refine Keeps.bind hT (readCause_frame 1) fun dma => ?_
      cases dma with
      | none => exact Keeps.pure hT _
      | some dma =>
          refine Keeps.bind hT (readCause_frame 2) fun indirect => ?_
          cases indirect with
          | none => exact Keeps.pure hT _
          | some indirect =>
              refine Keeps.bind hT (Keeps.every hT ?_) fun ok =>
                Keeps.ite (Keeps.pure hT _) (Keeps.pure hT _)
              intro m hm
              simp only [List.mem_cons, List.not_mem_nil, or_false] at hm
              rcases hm with rfl | rfl | rfl
              · exact clearCause_frame 0 halt
              · exact clearCause_frame 1 dma
              · exact clearCause_frame 2 indirect

/-- Writing the PCI command is quiet if it leaves the bus master off. -/
theorem command_frame {value : UInt16} (h : value &&& 4 = 0) :
    Keeps (Frame Quiet) (command value) := by
  have hT := frame_traced Quiet
  refine Keeps.ask_bind hT (fun s _ => frame_call ⟨rfl, rfl, ?_, rfl⟩ rfl s) fun wrote =>
    Keeps.ask_bind hT (fun s _ => frame_call ⟨rfl, rfl, rfl, rfl⟩ rfl s) fun actual =>
      Keeps.ite (Keeps.pure hT true) (keeps_fail ⟨rfl, rfl, rfl, rfl⟩ _ _ _)
  simp [Event.masters, h]

theorem countIs64_frame (a : UInt32) : Keeps (Frame Inert) (countIs64 a) :=
  Keeps.ask_bind (frame_traced Inert) (fun s _ => frame_call ⟨⟨rfl, rfl, rfl⟩, rfl⟩ rfl s) fun _ =>
    Keeps.pure (frame_traced Inert) _

theorem keeps_harmless {α : Type} {m : Driver α} (h : Keeps (Frame Inert) m) :
    Keeps (Frame Harmless) m :=
  h.mono fun _ _ _ hframe => hframe.mono fun _ he => he.toHarmless

theorem checkRing_frame (rings : Fin 9 → RingMemory) (i : Fin 9) :
    Keeps (Frame Harmless) (checkRing rings i) := by
  have hT := frame_traced Harmless
  refine Keeps.ite (keeps_fail ⟨rfl, rfl, rfl⟩ _ _ _) (Keeps.bind hT (Keeps.every hT ?_) fun ok =>
    Keeps.ite (Keeps.modify_bind hT (fun s => frame_update rfl rfl rfl rfl rfl) (Keeps.pure hT true))
      (Keeps.ask_bind hT (fun s _ => frame_call ⟨rfl, rfl, rfl⟩ rfl s) fun _ => keeps_fail ⟨rfl, rfl, rfl⟩ _ _ _))
  intro m hm
  simp only [List.mem_cons, List.not_mem_nil, or_false] at hm
  have hlow : ∀ i j, (ringRegisters i).low ≠ (ringRegisters j).index := by decide
  have hhigh : ∀ i j, (ringRegisters i).high ≠ (ringRegisters j).index := by decide
  rcases hm with rfl | rfl | rfl | rfl
  · exact keeps_harmless (equal_frame (hlow i) _ _)
  · exact keeps_harmless (equal_frame (hhigh i) _ _)
  · exact keeps_harmless (countIs64_frame _)
  · exact equal_index_frame i

theorem clearOld_frame (i : Fin 3) : Keeps (Frame Inert) (clearOld i) :=
  keeps_read32_bind (irqStatus_ne_index i) fun _ =>
    Keeps.ite (keeps_fail ⟨⟨rfl, rfl, rfl⟩, rfl⟩ _ _ _) (clearCause_frame i _)

theorem preconditions_frame (rings : Fin 9 → RingMemory) :
    ∀ m ∈ preconditions rings, Keeps (Frame Harmless) m := by
  intro m hm
  simp only [preconditions, List.mem_append, List.mem_singleton, List.mem_map] at hm
  rcases hm with ((rfl | ⟨x, hx, rfl⟩) | ⟨i, -, rfl⟩) | ⟨i, -, rfl⟩
  · exact keeps_harmless maskInterrupts_frame
  · have hidle : (idleRegisters.all fun x => decide (∀ j, x.1 ≠ (ringRegisters j).index)) = true := by
      decide
    have hindex := of_decide_eq_true (List.all_eq_true.1 hidle x hx)
    exact keeps_harmless (equal_frame hindex _ _)
  · exact checkRing_frame rings i
  · exact keeps_harmless (clearOld_frame i)

/-! ## `start` -/

/-- What a device can have shown. -/
inductive Seen
  | command (mask value : UInt16)
  | wrote (a value : UInt32)
  | found (a mask value : UInt32)
  | counted (a : UInt32)

def Seen.Matches : Seen → Event Access Reply Mark → Prop
  | .command mask value, e => ∃ v : UInt16, e = .call .command v ∧ v &&& mask = value
  | .wrote a value, e => e = .call (.write32 a value) true
  | .found a mask value, e => ∃ v : UInt32, e = .call (.read32 a) v ∧ bad v = false ∧ v &&& mask = value
  | .counted a, e => ∃ v : UInt16, e = .call (.read16 a) v ∧ v &&& 0xfff = 64

/-- The device has shown all of this, in this order. -/
def Met (need : List Seen) (log : Trace) : Prop :=
  ∃ part, List.Forall₂ Seen.Matches need part ∧ part.Sublist log

theorem Met.append {need need' : List Seen} {log log' : Trace} (h : Met need log)
    (h' : Met need' log') : Met (need ++ need') (log ++ log') := by
  rcases h with ⟨part, hpart, hsub⟩
  rcases h' with ⟨part', hpart', hsub'⟩
  exact ⟨part ++ part', List.rel_append hpart hpart', hsub.append hsub'⟩

theorem met_nil (log : Trace) : Met [] log := ⟨[], List.Forall₂.nil, List.nil_sublist log⟩

theorem met_singleton {x : Seen} (h : x.Matches e) : Met [x] [e] :=
  ⟨[e], List.Forall₂.cons h List.Forall₂.nil, List.Sublist.refl _⟩

theorem met_flatMap {ι : Type} {need : ι → List Seen} {K : ι → Trace → Prop} {is : List ι}
    (hK : ∀ i ∈ is, ∀ log, K i log → Met (need i) log) :
    ∀ {log : Trace}, Consecutive (is.map K) log → Met (is.flatMap need) log := by
  induction is with
  | nil =>
      intro log _
      exact met_nil log
  | cons i is ih =>
      intro log h
      cases h with
      | cons hhead htail =>
          have hrest := ih (fun j hj => hK j (List.mem_cons_of_mem i hj)) htail
          exact (hK i List.mem_cons_self _ hhead).append hrest

theorem equal_confirms (a mask expected : UInt32) :
    Confirms (Met [.found a mask expected]) (equal a mask expected) := by
  intro s
  rw [equal, wp_read32]
  intro v
  rw [wp_ite]
  refine ⟨fun h => (wp_pure _).2 fun _ => ?_, fun _ => (wp_fail _ _ _).2 nofun⟩
  simp only [Bool.and_eq_true, Bool.not_eq_true', beq_iff_eq] at h
  exact met_singleton ⟨v, rfl, h.1, h.2⟩

theorem write_confirms (a value : UInt32) : Confirms (Met [.wrote a value]) (write a value) := by
  intro s
  rw [write, wp_write32]
  intro ok
  rw [wp_ite]
  refine ⟨fun h => (wp_pure _).2 fun _ => ?_, fun _ => (wp_fail _ _ _).2 nofun⟩
  exact met_singleton (by rw [h]; rfl)

theorem countIs64_confirms (a : UInt32) : Confirms (Met [.counted a]) (countIs64 a) := by
  intro s
  rw [countIs64, wp_read16]
  intro v
  rw [wp_pure]
  intro h
  exact met_singleton ⟨v, rfl, by simpa using h⟩

/-- What it takes to mask the interrupts. -/
def maskedSeen : List Seen :=
  (List.finRange 3).flatMap (fun i => [.wrote (irqMasks i) 0]) ++
    (List.finRange 3).flatMap fun i => [.found (irqMasks i) 0xffffffff 0]

theorem forall₂_map {ι : Type} {K : ι → Trace → Prop} {m : ι → Driver Bool}
    (h : ∀ i, Confirms (K i) (m i)) (is : List ι) :
    List.Forall₂ Confirms (is.map K) (is.map m) := by
  rw [List.forall₂_map_left_iff, List.forall₂_map_right_iff]
  exact List.forall₂_same.2 fun i _ => h i

theorem maskInterrupts_confirms : Confirms (Met maskedSeen) maskInterrupts := by
  intro s
  rw [maskInterrupts, wp_bind]
  have hwrote := Confirms.each
    (forall₂_map (fun i => write_confirms (irqMasks i) 0) (List.finRange 3)) s
  refine wp_mono hwrote fun log ok s' h => ?_
  rw [wp_bind]
  have hread := Confirms.each
    (forall₂_map (fun i => equal_confirms (irqMasks i) 0xffffffff 0) (List.finRange 3)) s'
  refine wp_mono hread fun log' ok' s'' h' => ?_
  rw [wp_modify_bind, wp_pure, List.append_nil, Bool.and_eq_true]
  rintro ⟨hok, hok'⟩
  exact (met_flatMap (fun i _ l hl => hl) (h hok)).append (met_flatMap (fun i _ l hl => hl) (h' hok'))

def ringSeen (rings : Fin 9 → RingMemory) (i : Fin 9) : List Seen :=
  [.found (ringRegisters i).low 0xffffffff (UInt32.ofNat (rings i).address),
    .found (ringRegisters i).high 0xffffffff 0, .counted (ringRegisters i).count,
    .found (ringRegisters i).index 0x0fff0fff 0]

theorem checkRing_confirms (rings : Fin 9 → RingMemory) (i : Fin 9) :
    Confirms (fun log => ringFits rings i = true ∧ Met (ringSeen rings i) log) (checkRing rings i) := by
  intro s
  simp only [checkRing]
  rw [wp_ite]
  refine ⟨fun _ => (wp_fail _ _ _).2 nofun, fun hfits => ?_⟩
  rw [wp_bind]
  have hall := Confirms.every (List.Forall₂.cons
    (equal_confirms (ringRegisters i).low 0xffffffff (UInt32.ofNat (rings i).address))
    (List.Forall₂.cons (equal_confirms (ringRegisters i).high 0xffffffff 0)
      (List.Forall₂.cons (countIs64_confirms (ringRegisters i).count)
        (List.Forall₂.cons (equal_confirms (ringRegisters i).index 0x0fff0fff 0)
          List.Forall₂.nil)))) s
  refine wp_mono hall fun log ok s' h => ?_
  rw [wp_ite]
  refine ⟨fun hok => ?_, fun _ => ?_⟩
  · rw [wp_modify_bind, wp_pure, List.append_nil]
    intro _
    refine ⟨by simpa using hfits, ?_⟩
    rcases h hok with _ | ⟨hlow, _ | ⟨hhigh, _ | ⟨hcount, _ | ⟨hindex, hnil⟩⟩⟩⟩
    cases hnil
    rw [List.append_nil]
    exact hlow.append (hhigh.append (hcount.append hindex))
  · rw [wp_read16]
    intro v
    exact (wp_fail _ _ _).2 nofun

/-- DMA is off, every channel is stopped and none is busy, and the host interface, the MAC and the firmware are up. -/
def idleSeen : List Seen :=
  [.found 0x1000 0x2808 0, .found 0x1010 0x001f0f00 0x001f0f00, .found 0x101c 0x007f0f03 0, .found 0x8380 3 3,
    .found 0x8400 0x60000000 0x60000000, .found 0xc000 0x40000000 0x40000000, .found 0x1e0 0xe0 0xe0]

/-- What it takes to start, after the command register was read. -/
def startSeen (rings : Fin 9 → RingMemory) : List Seen :=
  maskedSeen ++ (idleSeen ++ (List.finRange 9).flatMap (ringSeen rings))

theorem idleRegisters_seen : idleRegisters.flatMap (fun x => [Seen.found x.1 x.2.1 x.2.2]) = idleSeen := rfl

theorem preconditions_confirm (rings : Fin 9 → RingMemory) :
    Confirms (fun log => (∀ i, ringFits rings i = true) ∧ Met (startSeen rings) log)
      (every (preconditions rings)) := by
  have hconfirms : List.Forall₂ Confirms
      ([Met maskedSeen] ++ idleRegisters.map (fun x => Met [.found x.1 x.2.1 x.2.2]) ++
        (List.finRange 9).map (fun i log => ringFits rings i = true ∧ Met (ringSeen rings i) log) ++
        (List.finRange 3).map (fun _ _ => True)) (preconditions rings) := by
    refine List.rel_append (List.rel_append (List.rel_append ?_ ?_) ?_) ?_
    · exact List.Forall₂.cons maskInterrupts_confirms List.Forall₂.nil
    · exact forall₂_map (fun x => equal_confirms x.1 x.2.1 x.2.2) idleRegisters
    · exact forall₂_map (checkRing_confirms rings) (List.finRange 9)
    · exact forall₂_map (fun i s => wp_of_outcome fun _ _ _ _ _ => trivial) (List.finRange 3)
  refine Confirms.mono (Confirms.every hconfirms) fun log h => ?_
  rcases h.split with ⟨l, lold, rfl, h, -⟩
  rcases h.split with ⟨l, lrings, rfl, h, hrings⟩
  rcases h.split with ⟨lmask, lidle, rfl, hmask, hidle⟩
  constructor
  · intro i
    have hmem : (fun log => ringFits rings i = true ∧ Met (ringSeen rings i) log) ∈
        (List.finRange 9).map (fun i log => ringFits rings i = true ∧ Met (ringSeen rings i) log) :=
      List.mem_map.2 ⟨i, List.mem_finRange i, rfl⟩
    rcases hrings.exists_of_mem hmem with ⟨_, hfits, -⟩
    exact hfits
  · have hmasked : Met maskedSeen lmask := by
      rcases hmask with _ | ⟨hmask, hnil⟩
      cases hnil
      rw [List.append_nil]
      exact hmask
    have hseen : Met idleSeen lidle := idleRegisters_seen ▸ met_flatMap (fun x _ l hl => hl) hidle
    have hwhole := hmasked.append (hseen.append (met_flatMap (fun i _ l hl => hl.2) hrings))
    have hplain := hwhole.append (met_nil lold)
    simpa [startSeen] using hplain

/-- What the last part of `start` can do. -/
inductive Launched (K : Trace → Prop) (s : PciRuntime) : Trace → Bool → PciRuntime → Prop
  /-- The bus master is not touched. -/
  | unready {log : Trace} {s' : PciRuntime} : Frame Harmless s log s' → Launched K s log false s'
  /-- The device does not confirm the write that enables it. -/
  | unconfirmed {early late : Trace} {cmd actual : UInt16} {wrote : Bool} {s' : PciRuntime} :
      cmd &&& 4 ≠ 0 → ¬ (wrote = true ∧ actual = cmd) → Frame Harmless s (early ++ late) s' →
      Launched K s (early ++ .call (.writeCommand cmd) wrote :: .call .command actual :: late) false s'
  /-- It is on. -/
  | mastered {early late : Trace} {cmd : UInt16} {ok : Bool} {s' : PciRuntime} : K early →
      cmd &&& 4 ≠ 0 → Frame Harmless (setMastered s) (early ++ late) s' →
      Launched K s (early ++ .call (.writeCommand cmd) true :: .call .command cmd :: late) ok
        (if ok then setRunning true s' else s')

theorem or_master (cmd : UInt16) : (cmd ||| 0x404) &&& 4 ≠ 0 := by
  rw [Ne, ← UInt16.toBitVec_inj]
  intro h
  have hbit := congrArg (fun x : BitVec 16 => x.getLsbD 2) h
  simp at hbit

theorem command_cases (value : UInt16) (s : PciRuntime) :
    (command value).wp (fun log ok s' => ∃ (wrote : Bool) (actual : UInt16) (late : Trace),
      log = .call (.writeCommand value) wrote :: .call .command actual :: late ∧
      (ok = true → wrote = true ∧ actual = value ∧ late = [] ∧ s' = s) ∧
      (ok = false → ¬ (wrote = true ∧ actual = value) ∧ Frame Harmless s late s')) s := by
  rw [command, wp_writeCommand]
  intro wrote
  rw [wp_readCommand]
  intro actual
  rw [wp_ite]
  constructor
  · intro h
    rw [wp_pure]
    simp only [Bool.and_eq_true, beq_iff_eq] at h
    exact ⟨wrote, actual, [], rfl, fun _ => ⟨h.1, h.2, rfl, rfl⟩, nofun⟩
  · intro h
    rw [wp_fail]
    simp only [Bool.and_eq_true, beq_iff_eq] at h
    exact ⟨wrote, actual, _, rfl, nofun, fun _ => ⟨h, frame_failed ⟨rfl, rfl, rfl⟩ _ _ _ s⟩⟩

theorem launch_cases (s : PciRuntime) :
    launch.wp (fun log ok s' => Launched (fun _ => True) s log ok s') s := by
  have hT := frame_traced Harmless
  have hearly (s : PciRuntime) (cmd : UInt16) :
      Frame Harmless s [.call .barrier (), .call .command cmd] s :=
    hT.trans (frame_call ⟨rfl, rfl, rfl⟩ rfl s) (frame_call ⟨rfl, rfl, rfl⟩ rfl s)
  rw [launch, wp_barrier]
  intro _
  rw [wp_readCommand]
  intro cmd
  rw [wp_ite]
  constructor
  · intro _
    rw [wp_fail]
    exact .unready (hT.trans (hearly s cmd) (frame_failed ⟨rfl, rfl, rfl⟩ _ _ _ s))
  · intro _
    rw [wp_bind]
    refine wp_mono (command_cases (cmd ||| 0x404) s) ?_
    rintro _ ok s' ⟨wrote, actual, late, rfl, htrue, hfalse⟩
    rw [wp_ite]
    constructor
    · intro hok
      rcases htrue hok with ⟨rfl, rfl, rfl, rfl⟩
      rw [wp_modify_bind, wp_bind]
      have hchannels := Keeps.both hT
        (keeps_harmless (modifyRegister_frame (Or.inr rfl) runtimeStopMask 0))
        (keeps_harmless (modifyRegister_frame (Or.inl rfl) 0x2800 0x2800)) (setMastered s')
      refine wp_mono hchannels fun more ok' s'' h => ?_
      have hframe := hT.trans (hearly (setMastered s') cmd) h
      rw [wp_ite]
      constructor
      · intro _
        rw [wp_modify_bind, wp_pure, List.append_nil]
        exact .mastered trivial (or_master cmd) hframe
      · intro _
        rw [wp_pure, List.append_nil]
        exact .mastered trivial (or_master cmd) hframe
    · intro hok
      rcases hfalse (by simpa using hok) with ⟨hno, hlate⟩
      rw [wp_pure, List.append_nil]
      exact .unconfirmed (or_master cmd) hno (hT.trans (hearly s cmd) hlate)

theorem Launched.after {K : Trace → Prop} {s s₁ s' : PciRuntime} {first log : Trace} {ok : Bool}
    (hfirst : Frame Harmless s first s₁) (hK : ∀ l, K (first ++ l))
    (h : Launched (fun _ => True) s₁ log ok s') : Launched K s (first ++ log) ok s' := by
  have hT := frame_traced Harmless
  cases h with
  | unready hframe => exact .unready (hT.trans hfirst hframe)
  | unconfirmed hcmd hno hframe =>
      rw [← List.append_assoc]
      refine .unconfirmed hcmd hno ?_
      rw [List.append_assoc]
      exact hT.trans hfirst hframe
  | mastered _ hcmd hframe =>
      have hmastered : Frame Harmless (setMastered s) first (setMastered s₁) :=
        ⟨hfirst.only, hfirst.attempted, hfirst.running, hfirst.host, rfl, hfirst.faulted, hfirst.reads⟩
      rw [← List.append_assoc]
      refine .mastered (hK _) hcmd ?_
      rw [List.append_assoc]
      exact hT.trans hmastered hframe

/-- Everything that `start` checked was as it should be. -/
def Ready (rings : Fin 9 → RingMemory) (early : Trace) : Prop :=
  (∀ i, ringFits rings i = true) ∧ Met (.command 6 2 :: startSeen rings) early

theorem start_cases (rings : Fin 9 → RingMemory) (s : PciRuntime) :
    (start rings).wp (fun log ok s' =>
      ((s.attempted || s.faulted) = true ∧ log = [] ∧ ok = false ∧ s' = s) ∨
      ((s.attempted || s.faulted) = false ∧ Launched (Ready rings) (setAttempted s) log ok s')) s := by
  have hT := frame_traced Harmless
  have hread (s : PciRuntime) (cmd : UInt16) : Frame Harmless s [.call .command cmd] s :=
    frame_call ⟨rfl, rfl, rfl⟩ rfl s
  rw [start, wp_get_bind, wp_ite]
  refine ⟨fun h => (wp_pure _).2 (Or.inl ⟨h, rfl, rfl, rfl⟩), fun h => ?_⟩
  have hfresh : (s.attempted || s.faulted) = false := by simpa using h
  rw [wp_modify_bind, wp_readCommand]
  intro cmd
  rw [wp_ite]
  constructor
  · intro _
    rw [wp_readCommand]
    intro again
    rw [wp_fail]
    refine Or.inr ⟨hfresh, .unready ?_⟩
    exact hT.trans (hread _ cmd)
      (hT.trans (hread _ again) (frame_failed ⟨rfl, rfl, rfl⟩ _ _ _ (setAttempted s)))
  · intro hcmd
    rw [wp_both]
    have hframe := Keeps.every hT (preconditions_frame rings) (setAttempted s)
    refine wp_mono (wp_and hframe (preconditions_confirm rings (setAttempted s))) ?_
    rintro log ok s₁ ⟨hlog, hready⟩
    have hfirst := hT.trans (hread (setAttempted s) cmd) hlog
    constructor
    · intro hok
      refine wp_mono (launch_cases s₁) fun log' ok' s' hl => Or.inr ⟨hfresh, ?_⟩
      rcases hready hok with ⟨hfits, hmet⟩
      have hcommand : Met [.command 6 2] [.call .command cmd] :=
        met_singleton ⟨cmd, rfl, by simpa using hcmd⟩
      refine Launched.after hfirst (fun l => ⟨hfits, ?_⟩) hl
      have hall := (hcommand.append hmet).append (met_nil l)
      rw [List.append_nil] at hall
      exact hall
    · intro _
      exact Or.inr ⟨hfresh, .unready hfirst⟩

/-! ## `enableInterrupts` -/

/-- No host index is written or read, and the bus master is not switched on. -/
structure Silent (e : Event Access Reply Mark) : Prop where
  doorbell : Event.doorbell e = false
  masters : Event.masters e = false
  readsIndex : Event.readsIndex e = false

theorem Inert.silent (h : Inert e) : Silent e :=
  ⟨h.doorbell, h.toHarmless.masters, h.readsIndex⟩

/-- Code that stops at the first fault. -/
structure Halting (s : PciRuntime) (log : Trace) (ok : Bool) (s' : PciRuntime) : Prop where
  frame : Frame Silent s log s'
  clean : ok = true → .note .fault ∉ log
  halted : ok = false → ∃ early, log = early ++ [.note .fault] ∧ .note .fault ∉ early

theorem enableMask_halting (i : Fin 3) (s : PciRuntime) :
    (enableMask i).wp (fun log ok s' => Halting s log ok s') s := by
  have hT := frame_traced Silent
  have hwrite (s : PciRuntime) (ok : Bool) :
      Frame Silent s [.call (.write32 (irqMasks i) (irqEnabled i)) ok] s :=
    frame_call ⟨doorbell_mask i _ ok, rfl, rfl⟩ rfl s
  have hfail (a expected actual : UInt32) (s : PciRuntime) :
      Frame Silent s [.note .fault] (failed a expected actual s) :=
    frame_failed ⟨rfl, rfl, rfl⟩ a expected actual s
  have hindex : ∀ i j, irqMasks i ≠ (ringRegisters j).index := by decide
  have hread (v : UInt32) (s : PciRuntime) : Frame Silent s [.call (.read32 (irqMasks i)) v] s :=
    frame_call ⟨rfl, rfl, readsIndex_read32 (hindex i) v⟩ (readsIndex_read32 (hindex i) v) s
  rw [enableMask, wp_both, write, wp_write32]
  intro ok
  rw [wp_ite]
  constructor
  · rintro rfl
    rw [wp_pure]
    refine ⟨fun _ => ?_, nofun⟩
    rw [equal, wp_read32]
    intro v
    rw [wp_ite]
    constructor
    · intro _
      rw [wp_pure]
      exact ⟨hT.trans (hwrite s true) (hread v s), by simp, nofun⟩
    · intro _
      rw [wp_fail]
      refine ⟨hT.trans (hwrite s true) (hT.trans (hread v s) (hfail _ _ _ s)), nofun, fun _ => ?_⟩
      exact ⟨[.call (.write32 (irqMasks i) (irqEnabled i)) true, .call (.read32 (irqMasks i)) v], rfl,
        by simp⟩
  · intro _
    rw [wp_fail]
    refine ⟨nofun, fun _ => ⟨hT.trans (hwrite s ok) (hfail _ _ _ s), nofun, fun _ => ?_⟩⟩
    exact ⟨[.call (.write32 (irqMasks i) (irqEnabled i)) ok], rfl, by simp⟩

theorem every_halting {ms : List (Driver Bool)}
    (hms : ∀ m ∈ ms, ∀ s, m.wp (fun log ok s' => Halting s log ok s') s) :
    ∀ s, (every ms).wp (fun log ok s' => Halting s log ok s') s := by
  have hT := frame_traced Silent
  induction ms with
  | nil =>
      intro s
      exact (wp_pure true).2 ⟨hT.refl s, by simp, nofun⟩
  | cons m ms ih =>
      intro s
      rw [every, wp_both]
      refine wp_mono (hms m List.mem_cons_self s) fun log ok s' h => ⟨fun hok => ?_, fun hok => ?_⟩
      · have hrest := ih (fun m' hm' => hms m' (List.mem_cons_of_mem m hm')) s'
        refine wp_mono hrest fun log' ok' s'' h' => ?_
        have hclean := h.clean hok
        refine ⟨hT.trans h.frame h'.frame, ?_, ?_⟩
        · intro hok'
          rw [List.mem_append, not_or]
          exact ⟨hclean, h'.clean hok'⟩
        · intro hok'
          rcases h'.halted hok' with ⟨early, rfl, hearly⟩
          refine ⟨log ++ early, (List.append_assoc _ _ _).symm, ?_⟩
          rw [List.mem_append, not_or]
          exact ⟨hclean, hearly⟩
      · rw [← hok]
        exact h

/-- What `enableInterrupts` can do: nothing, or to arm the masks until the first fault. -/
inductive Enabled (s : PciRuntime) : Trace → Bool → PciRuntime → Prop
  | refused : s.isRunning = false → Enabled s [] false s
  | armed {log : Trace} {s' : PciRuntime} : s.isRunning = true → Frame Silent s log s' →
      .note .fault ∉ log → Enabled s log true s'
  | failed {early late : Trace} {s' : PciRuntime} : s.isRunning = true →
      Frame Silent s (early ++ .note .fault :: late) s' → .note .fault ∉ early →
      (∀ e ∈ late, Inert e) → Enabled s (early ++ .note .fault :: late) false s'

theorem enableInterrupts_cases (s : PciRuntime) :
    enableInterrupts.wp (fun log ok s' => Enabled s log ok s') s := by
  have hT := frame_traced Silent
  rw [enableInterrupts, wp_get_bind, wp_ite]
  constructor
  · intro h
    rw [wp_pure]
    exact .refused (by simpa using h)
  · intro h
    have hrunning : s.isRunning = true := by simpa using h
    have hmasks : ∀ m ∈ (List.finRange 3).map enableMask, ∀ s,
        m.wp (fun log ok s' => Halting s log ok s') s := by
      intro m hm
      rcases List.mem_map.1 hm with ⟨i, -, rfl⟩
      exact enableMask_halting i
    rw [wp_bind]
    refine wp_mono (every_halting hmasks s) fun log ok s' hlog => ?_
    rw [wp_ite]
    constructor
    · intro hok
      rw [wp_modify_bind, wp_pure, List.append_nil]
      have hmasked : Frame Silent s' [] (setMasked false s') := frame_update rfl rfl rfl rfl rfl
      have hframe := hT.trans hlog.frame hmasked
      rw [List.append_nil] at hframe
      exact .armed hrunning hframe (hlog.clean hok)
    · intro hok
      rcases hlog.halted (by simpa using hok) with ⟨early, rfl, hearly⟩
      rw [wp_bind]
      refine wp_mono (maskInterrupts_frame s') fun late ok' s'' hlate => ?_
      rw [wp_pure, List.append_nil, List.append_assoc]
      have hframe := hT.trans hlog.frame (hlate.mono fun e he => he.silent)
      rw [List.append_assoc] at hframe
      exact .failed hrunning hframe hearly hlate.only

/-! ## `publish` -/

/-- What reading the indices of a ring can do. -/
def Read (n : Fin 9) (s : PciRuntime) (log : Trace) (r : Bool × UInt16 × UInt16) (s' : PciRuntime) :
    Prop :=
  ∃ v, r.2 = (hostHalf v, hardwareHalf v) ∧
    ((Mismatch (s.host n) v ∧ r.1 = false ∧
        log = [.call (.read32 (ringRegisters n).index) v, .note .fault] ∧
        s' = failed (ringRegisters n).index (s.host n).toUInt32 v s) ∨
      (¬ Mismatch (s.host n) v ∧ r.1 = true ∧
        log = [.call (.read32 (ringRegisters n).index) v] ∧ s' = s))

theorem readRing_cases (n : Fin 9) (s : PciRuntime) :
    (readRing n).wp (fun log r s' => Read n s log r s') s := by
  rw [readRing, wp_read32]
  intro v
  rw [wp_get_bind, wp_ite]
  have hmismatch : (bad v || decide (hostHalf v ≥ 64) || decide (hardwareHalf v ≥ 64) ||
      hostHalf v != s.host n) = true ↔ Mismatch (s.host n) v := by
    simp [Mismatch, or_assoc]
  rw [hmismatch]
  constructor
  · intro h
    rw [wp_fail_bind, wp_pure]
    exact ⟨v, rfl, Or.inl ⟨h, rfl, rfl, rfl⟩⟩
  · intro h
    rw [wp_pure]
    exact ⟨v, rfl, Or.inr ⟨h, rfl, rfl, rfl⟩⟩

theorem readIndices_cases (n : ℕ) (host hardware : UInt16) (s : PciRuntime) :
    (readIndices n host hardware).wp (fun log r s' =>
      (log = [] ∧ r = (false, host, hardware) ∧ s' = s) ∨
      ∃ h : n < 9, s.isRunning = true ∧ Read ⟨n, h⟩ s log r s') s := by
  rw [readIndices, wp_get_bind]
  by_cases hn : n < 9
  · rw [dif_pos hn, wp_ite]
    constructor
    · intro hrunning
      exact wp_mono (readRing_cases ⟨n, hn⟩ s) fun log r s' h => Or.inr ⟨hn, hrunning, h⟩
    · intro _
      rw [wp_pure]
      exact Or.inl ⟨rfl, rfl, rfl⟩
  · rw [dif_neg hn, wp_pure]
    exact Or.inl ⟨rfl, rfl, rfl⟩

/-- What follows the decision to ring. -/
inductive Rung (n : Fin 9) (next : UInt16) (s : PciRuntime) : Trace → Bool → PciRuntime → Prop
  | unwritten {s' : PciRuntime} : Frame Harmless s [.note .fault] s' →
      Rung n next s [.call (.write16 (ringRegisters n).index next) false, .note .fault] false s'
  | confirmed {v : UInt32} : bad v = false → hostHalf v = next →
      Rung n next s [.call (.write16 (ringRegisters n).index next) true,
        .call (.read32 (ringRegisters n).index) v] true (setHost n next s)
  | unconfirmed {v : UInt32} {s' : PciRuntime} : ¬ (bad v = false ∧ hostHalf v = next) →
      Frame Harmless (setHost n next s) [.note .fault] s' →
      Rung n next s [.call (.write16 (ringRegisters n).index next) true,
        .call (.read32 (ringRegisters n).index) v, .note .fault] false s'

theorem hostHalf_eq_iff (v : UInt32) (next : UInt16) :
    v &&& 0xfff = next.toUInt32 ↔ hostHalf v = next := by
  have hsmall : (v &&& 0xfff).toNat < 2 ^ 16 := by
    have hle : (v &&& 0xfff).toNat ≤ 0xfff := by
      rw [UInt32.toNat_and]
      exact Nat.and_le_right
    omega
  have hsame : (v &&& 0xfff).toUInt16.toUInt32 = v &&& 0xfff := by
    rw [← UInt32.toNat_inj, UInt16.toNat_toUInt32, UInt32.toNat_toUInt16, Nat.mod_eq_of_lt hsmall]
  constructor
  · intro h
    rw [hostHalf, h, UInt16.toUInt16_toUInt32]
  · intro h
    rw [← h, hostHalf, hsame]

theorem ring_cases (n : Fin 9) (next : UInt16) (s : PciRuntime) :
    (ring n next).wp (fun log ok s' => ∃ late, log = .call .barrier () :: late ∧
      Rung n next s late ok s') s := by
  rw [ring, wp_barrier]
  intro _
  rw [wp_write16]
  intro ok
  cases ok with
  | false =>
      rw [if_pos (by rfl), wp_fail]
      exact ⟨_, rfl, .unwritten (frame_failed ⟨rfl, rfl, rfl⟩ _ _ _ s)⟩
  | true =>
      rw [if_neg (by simp), wp_modify_bind, wp_read32]
      intro v
      have hconfirmed : (!bad v && v &&& 0xfff == next.toUInt32) = true ↔
          bad v = false ∧ hostHalf v = next := by
        rw [Bool.and_eq_true, Bool.not_eq_true', beq_iff_eq, hostHalf_eq_iff]
      rw [wp_ite, hconfirmed]
      constructor
      · intro h
        rw [wp_pure]
        exact ⟨_, rfl, .confirmed h.1 h.2⟩
      · intro h
        rw [wp_fail]
        exact ⟨_, rfl, .unconfirmed h (frame_failed ⟨rfl, rfl, rfl⟩ _ _ _ _)⟩

/-- Every way in which `publish` can go. -/
inductive Published (n : Fin 9) (next : UInt16) (s : PciRuntime) : Trace → Bool → PciRuntime → Prop
  | refused : Published n next s [] false s
  | rejected {v : UInt32} {s' : PciRuntime} : s.isRunning = true →
      Mismatch (s.host n) v ∨ (refusal n (hostHalf v) (hardwareHalf v) next).isSome = true →
      Frame Harmless s [.note .fault] s' →
      Published n next s [.call (.read32 (ringRegisters n).index) v, .note .fault] false s'
  | unchanged {v : UInt32} : s.isRunning = true → ¬ Mismatch (s.host n) v →
      refusal n (hostHalf v) (hardwareHalf v) next = none → advance (hostHalf v) next = 0 →
      Published n next s [.call (.read32 (ringRegisters n).index) v] true s
  | rung {v : UInt32} {late : Trace} {ok : Bool} {s' : PciRuntime} : s.isRunning = true →
      ¬ Mismatch (s.host n) v → refusal n (hostHalf v) (hardwareHalf v) next = none →
      next < 64 → Rung n next s late ok s' →
      Published n next s (.call (.read32 (ringRegisters n).index) v :: .call .barrier () :: late) ok s'

theorem publish_cases (n : ℕ) (next : UInt16) (s : PciRuntime) :
    (publish n next).wp (fun log ok s' =>
      (9 ≤ n ∧ log = [] ∧ ok = false ∧ s' = s) ∨
      ∃ h : n < 9, Published ⟨n, h⟩ next s log ok s') s := by
  rw [publish, wp_get_bind]
  by_cases hn : n < 9
  swap
  · rw [dif_neg hn, wp_pure]
    exact Or.inl ⟨by omega, rfl, rfl, rfl⟩
  rw [dif_pos hn, wp_ite]
  refine ⟨fun _ => (wp_pure _).2 (Or.inr ⟨hn, .refused⟩), fun hgo => ?_⟩
  rw [Bool.or_eq_true, not_or] at hgo
  have hrunning : s.isRunning = true := by simpa using hgo.1
  have hnext : next < 64 := by simpa using hgo.2
  rw [wp_bind, readIndices, wp_get_bind, dif_pos hn, if_pos hrunning]
  refine wp_mono (readRing_cases ⟨n, hn⟩ s) ?_
  rintro log ⟨ok, host, hardware⟩ s' ⟨v, hpair, h⟩
  cases hpair
  rcases h with ⟨hmismatch, rfl, rfl, rfl⟩ | ⟨hmatch, rfl, rfl, rfl⟩
  · simp only [Bool.not_false, if_true, wp_pure]
    exact Or.inr ⟨hn, .rejected hrunning (Or.inl hmismatch) (frame_failed ⟨rfl, rfl, rfl⟩ _ _ _ s)⟩
  · simp only [Bool.not_true, Bool.false_eq_true, if_false]
    cases hrefusal : refusal ⟨n, hn⟩ (hostHalf v) (hardwareHalf v) next with
    | some expected =>
        simp only
        rw [wp_fail]
        refine Or.inr ⟨hn, .rejected hrunning (Or.inr ?_) (frame_failed ⟨rfl, rfl, rfl⟩ _ _ _ s')⟩
        rw [hrefusal]
        rfl
    | none =>
        simp only
        rw [wp_ite]
        constructor
        · intro hzero
          rw [wp_pure]
          exact Or.inr ⟨hn, .unchanged hrunning hmatch hrefusal hzero⟩
        · intro _
          refine wp_mono (ring_cases ⟨n, hn⟩ next s') ?_
          rintro _ ok s'' ⟨late, rfl, hrung⟩
          exact Or.inr ⟨hn, .rung hrunning hmatch hrefusal hnext hrung⟩

/-! ## `stop` -/

theorem and_unmaster (cmd : UInt16) : (cmd &&& ~~~4) &&& 4 = 0 := by
  rw [UInt16.and_assoc]
  simp

theorem unmaster_frame : Keeps (Frame Quiet) unmaster := by
  have hT := frame_traced Quiet
  refine Keeps.ask_bind hT (fun s _ => frame_call ⟨rfl, rfl, rfl, rfl⟩ rfl s) fun cmd => ?_
  refine Keeps.ite (Keeps.pure hT false) (Keeps.bind hT (command_frame (and_unmaster cmd)) fun ok => ?_)
  exact Keeps.ite
    (Keeps.ask_bind hT (fun s _ => frame_call ⟨rfl, rfl, rfl, rfl⟩ rfl s) fun after => Keeps.pure hT _)
    (Keeps.pure hT false)

theorem poll_frame (start : UInt64) (n : ℕ) :
    ∀ previous, Keeps (Frame Quiet) (poll start n previous) := by
  have hT := frame_traced Quiet
  induction n with
  | zero =>
      intro previous
      exact Keeps.pure hT ()
  | succ n ih =>
      intro previous
      refine Keeps.ask_bind hT (fun s _ => frame_call ⟨rfl, rfl, rfl, rfl⟩ rfl s) fun now => ?_
      refine Keeps.ite (Keeps.pure hT _) (Keeps.ask_bind hT (fun s v =>
        frame_call ⟨rfl, rfl, rfl, readsIndex_read32 (by decide) v⟩ (readsIndex_read32 (by decide) v) s) fun busy => ?_)
      refine Keeps.modify_bind hT (fun s => frame_update rfl rfl rfl rfl rfl) ?_
      refine Keeps.ite (Keeps.pure hT _) (Keeps.ite ?_ ?_)
      · exact Keeps.modify_bind hT (fun s => frame_update rfl rfl rfl rfl rfl) (Keeps.pure hT _)
      · exact Keeps.ask_bind hT (fun s _ => frame_call ⟨rfl, rfl, rfl, rfl⟩ rfl s) fun _ => ih now

theorem keeps_quiet {α : Type} {m : Driver α} (h : Keeps (Frame Inert) m) :
    Keeps (Frame Quiet) m :=
  h.mono fun _ _ _ hframe => hframe.mono fun _ he => he.quiet

theorem shutDown_frame : Keeps (Frame Quiet) shutDown := by
  have hT := frame_traced Quiet
  refine Keeps.bind hT (keeps_quiet maskInterrupts_frame) fun masked => ?_
  refine Keeps.bind hT (keeps_quiet (modifyRegister_frame (Or.inl rfl) _ _)) fun hci => ?_
  refine Keeps.bind hT (keeps_quiet (modifyRegister_frame (Or.inr rfl) _ _)) fun channels => ?_
  refine Keeps.ask_bind hT (fun s _ => frame_call ⟨rfl, rfl, rfl, rfl⟩ rfl s) fun start => ?_
  refine Keeps.modify_bind hT (fun s => frame_update rfl rfl rfl rfl rfl) ?_
  refine Keeps.bind hT (poll_frame start 201 start) fun _ => ?_
  refine Keeps.bind hT unmaster_frame fun masterOff => ?_
  refine Keeps.modify_bind hT (fun s => frame_update rfl rfl rfl rfl rfl) ?_
  refine Keeps.bind hT (Keeps.both hT (keeps_quiet (equal_frame (by decide) _ _))
    (keeps_quiet (equal_frame (by decide) _ _))) fun still => ?_
  exact Keeps.bind hT (keeps_quiet maskInterrupts_frame) fun finalMasked => Keeps.pure hT _

/-- `stop` is quiet, and what it returns is what it records. -/
structure Stopped (s : PciRuntime) (log : Trace) (ok : Bool) (s' : PciRuntime) : Prop where
  only : ∀ e ∈ log, Quiet e
  attempted : s'.attempted = s.attempted
  running : s'.running = false
  host : s'.host = s.host
  stopped : s'.result.stopped = ok
  faulted : s'.faulted = true ↔ s.faulted = true ∨ .note .fault ∈ log
  reads : ∀ (n : Fin 9) (v : UInt32), .call (.read32 (ringRegisters n).index) v ∈ log →
    Mismatch 0 v → s'.faulted = true

theorem stop_cases (s : PciRuntime) : stop.wp (fun log ok s' => Stopped s log ok s') s := by
  rw [stop, wp_modify_bind, wp_bind]
  refine wp_mono (shutDown_frame (setStopped false (setRunning false s))) fun log ok s' h => ?_
  rw [wp_get_bind, wp_ite]
  constructor
  · intro _
    rw [wp_modify_bind, wp_pure, List.append_nil]
    exact ⟨h.only, h.attempted, h.running, h.host, rfl, h.faulted, h.reads⟩
  · intro _
    rw [wp_tell_bind, wp_modify_bind, wp_pure]
    refine ⟨?_, h.attempted, h.running, h.host, h.stopped, by simp, fun _ _ _ _ => rfl⟩
    intro e he
    rcases List.mem_append.1 he with he | he
    · exact h.only e he
    · rw [List.mem_singleton.1 he]
      exact ⟨rfl, rfl, rfl, rfl⟩

end PciRuntime
end Pci
end Rtl8852be
