import Rtl8852be.Pci.PciRingSetup

/-!
# RingChecks — what stands between a ring and its registers

* `Guarded` — every write comes directly after a check that found the device stopped;
* `ReadBack` — what a configured device was found to hold: every register of a ring was written once after the
  snapshot and read back, and at the end the indices were zero and the device as before.
-/

namespace Rtl8852be
namespace PciRing

open Interaction Code

/-! ## Guarded writes -/

def isWrite : Event Io Reply Empty → Bool
  | .call (.write32 _ _) _ | .call (.write16 _ _) _ => true
  | _ => false

def isCall : Event Io Reply Empty → ℕ
  | .call _ _ => 1
  | .note _ => 0

/-- The bus master is off, the HCI bits are clear, the queues stopped and idle, the interrupts masked. -/
structure Stopped (command : UInt16) (init stop busy : UInt32) : Prop where
  master : command &&& 6 = 2
  hci : init ≠ 0xffffffff ∧ init &&& 0x2800 = 0
  stop : stop ≠ 0xffffffff ∧ stop &&& 0x1f0f00 = 0x1f0f00
  idle : busy ≠ 0xffffffff ∧ busy &&& 0x7f0f03 = 0

/-- What a check that succeeds leaves in the trace. -/
def Passed (c : Trace) : Prop :=
  ∃ command init stop busy, Stopped command init stop busy ∧
    c = [.call .command command, .call (.read32 0x1000) init, .call (.read32 0x1010) stop, .call (.read32 0x101c) busy,
      .call (.read32 0x1a0) 0, .call (.read32 0x10b0) 0, .call (.read32 0x13b0) 0]

def Guarded (log : Trace) : Prop :=
  ∀ pre e post, log = pre ++ e :: post → isWrite e = true → ∃ before c, Passed c ∧ pre = before ++ c

theorem guarded_of_writeless {log : Trace} (h : ∀ e ∈ log, isWrite e = false) : Guarded log := by
  intro pre e post hlog hwrite
  have hfalse := h e (hlog ▸ List.mem_append_right pre List.mem_cons_self)
  rw [hfalse] at hwrite
  exact absurd hwrite Bool.false_ne_true

theorem Guarded.append {log log' : Trace} (h : Guarded log) (h' : Guarded log') : Guarded (log ++ log') := by
  intro pre e post hlog hwrite
  rcases List.append_eq_append_iff.1 hlog with ⟨pre', rfl, hrest⟩ | ⟨post', rfl, hrest⟩
  · rcases h' pre' e post hrest hwrite with ⟨before, c, hc, rfl⟩
    exact ⟨log ++ before, c, hc, (List.append_assoc _ _ _).symm⟩
  · cases post' with
    | nil =>
        rcases h' [] e post hrest.symm hwrite with ⟨before, c, hc, hnil⟩
        rcases hc with ⟨command, init, stop, busy, -, rfl⟩
        exact absurd hnil.symm (List.append_ne_nil_of_right_ne_nil before (List.cons_ne_nil _ _))
    | cons x post' =>
        rw [List.cons_append, List.cons.injEq] at hrest
        rcases hrest with ⟨rfl, -⟩
        exact h pre e post' rfl hwrite

theorem guarded_write {c : Trace} {e : Event Io Reply Empty} (hc : Passed c) (hcalm : ∀ x ∈ c, isWrite x = false) :
    Guarded (c ++ [e]) := by
  intro pre x post hlog hwrite
  rcases List.append_eq_append_iff.1 hlog with ⟨pre', rfl, hrest⟩ | ⟨post', rfl, hrest⟩
  · cases pre' with
    | nil => exact ⟨[], c, hc, List.append_nil c⟩
    | cons y pre' =>
        rw [List.cons_append, List.cons.injEq] at hrest
        exact absurd hrest.2.symm (List.append_ne_nil_of_right_ne_nil pre' (List.cons_ne_nil _ _))
  · cases post' with
    | nil => exact ⟨[], pre, by rwa [List.append_nil] at hc, rfl⟩
    | cons y post' =>
        rw [List.cons_append, List.cons.injEq] at hrest
        rcases hrest with ⟨rfl, -⟩
        have hfalse := hcalm x (List.mem_append_right pre List.mem_cons_self)
        rw [hfalse] at hwrite
        exact absurd hwrite Bool.false_ne_true

/-- What the record keeps of the device, and what the entry points look at. -/
def PciRingSetup.core (d : PciRingSetup) : (Fin 9 → Snapshot) × UInt32 × Bool × Bool :=
  (d.saved, d.init, d.snapshot, d.result.attempted)

def PciRingSetup.flags (d : PciRingSetup) : Bool × Bool := (d.snapshot, d.result.attempted)

/-- Guarded code that leaves a part of the record as it is. -/
def Steady {V : Type} (view : PciRingSetup → V) (d : PciRingSetup) (log : Trace) (d' : PciRingSetup) : Prop :=
  view d' = view d ∧ Guarded log

section Steady

variable {V α : Type} {view : PciRingSetup → V}

theorem steady_traced (view : PciRingSetup → V) : Traced (Steady view) where
  refl _ := ⟨rfl, guarded_of_writeless fun _ he => absurd he List.not_mem_nil⟩
  trans h h' := ⟨h'.1.trans h.1, h.2.append h'.2⟩

theorem steady_event {d : PciRingSetup} {e : Event Io Reply Empty} (h : isWrite e = false) : Steady view d [e] d := by
  refine ⟨rfl, guarded_of_writeless fun x hx => ?_⟩
  rw [List.mem_singleton.1 hx]
  exact h

theorem keeps_ask {c : Io} {f : Reply c → Setup α} (hc : ∀ r, isWrite (.call c r) = false)
    (hf : ∀ r, (f r).Keeps (Steady view)) : (ask c >>= f).Keeps (Steady view) :=
  Keeps.ask_bind (steady_traced view) (fun _ r => steady_event (hc r)) hf

theorem keeps_modify {g : PciRingSetup → PciRingSetup} {f : PUnit → Setup α} (hg : ∀ d, view (g d) = view d)
    (hf : (f ⟨⟩).Keeps (Steady view)) : (modify g >>= f).Keeps (Steady view) :=
  Keeps.modify_bind (steady_traced view) (fun d => ⟨hg d, ((steady_traced view).refl d).2⟩) hf

theorem keeps_return (a : α) : (pure a : Setup α).Keeps (Steady view) := Keeps.pure (steady_traced view) a

theorem core_mismatched (d : PciRingSetup) (address expected actual : UInt32) :
    (d.mismatched address expected actual).core = d.core := by
  unfold PciRingSetup.mismatched
  split <;> rfl

theorem mismatch_keeps (address expected actual : UInt32) : (mismatch address expected actual).Keeps (Steady PciRingSetup.core) :=
  keeps_modify (fun d => core_mismatched d address expected actual) (keeps_return false)

theorem masked_keeps (address : UInt32) : (masked address).Keeps (Steady PciRingSetup.core) := by
  refine keeps_ask (fun _ => rfl) fun mask => Keeps.ite (keeps_return true) ?_
  exact keeps_ask (fun _ => rfl) fun actual => mismatch_keeps _ _ _

theorem safe_keeps : safe.Keeps (Steady PciRingSetup.core) := by
  have hmismatch := mismatch_keeps
  refine keeps_ask (fun _ => rfl) fun command => Keeps.ite ?_ ?_
  · exact keeps_ask (fun _ => rfl) fun actual => hmismatch _ _ _
  refine keeps_ask (fun _ => rfl) fun init => keeps_ask (fun _ => rfl) fun stop => keeps_ask (fun _ => rfl) fun busy => ?_
  refine Keeps.ite (hmismatch _ _ _) (Keeps.ite (hmismatch _ _ _) (Keeps.ite (hmismatch _ _ _) ?_))
  refine Keeps.every (steady_traced _) fun m hm => ?_
  simp only [List.mem_cons, List.not_mem_nil, or_false] at hm
  rcases hm with rfl | rfl | rfl <;> exact masked_keeps _

theorem masked_confirms (address : UInt32) : Confirms (fun log => log = [.call (.read32 address) 0]) (masked address) := by
  intro d
  unfold masked
  rw [wp_ask_bind]
  intro mask
  by_cases hmask : mask = 0
  · rw [if_pos hmask, wp_pure, hmask]
    exact fun _ => rfl
  · rw [if_neg hmask, wp_ask_bind]
    intro actual
    unfold mismatch
    rw [wp_modify_bind, wp_pure]
    exact fun hno => absurd hno Bool.false_ne_true

theorem wp_mismatch (address expected actual : UInt32) {d : PciRingSetup} {Q : Trace → Bool → PciRingSetup → Prop} :
    (mismatch address expected actual).wp Q d ↔ Q [] false (d.mismatched address expected actual) := by
  unfold mismatch
  rw [wp_modify_bind, wp_pure]

theorem safe_confirms : Confirms Passed safe := by
  intro d
  unfold safe
  rw [wp_ask_bind]
  intro command
  by_cases hmaster : command &&& 6 ≠ 2
  · rw [if_pos hmaster, wp_ask_bind]
    intro actual
    rw [wp_mismatch]
    exact fun hno => absurd hno Bool.false_ne_true
  rw [if_neg hmaster, wp_ask_bind]
  intro init
  rw [wp_ask_bind]
  intro stop
  rw [wp_ask_bind]
  intro busy
  by_cases hinit : init = 0xffffffff ∨ init &&& 0x2800 ≠ 0
  · rw [if_pos hinit, wp_mismatch]
    exact fun hno => absurd hno Bool.false_ne_true
  rw [if_neg hinit]
  by_cases hstop : stop = 0xffffffff ∨ stop &&& 0x1f0f00 ≠ 0x1f0f00
  · rw [if_pos hstop, wp_mismatch]
    exact fun hno => absurd hno Bool.false_ne_true
  rw [if_neg hstop]
  by_cases hbusy : busy = 0xffffffff ∨ busy &&& 0x7f0f03 ≠ 0
  · rw [if_pos hbusy, wp_mismatch]
    exact fun hno => absurd hno Bool.false_ne_true
  rw [if_neg hbusy]
  have hmasks := Confirms.every (.cons (masked_confirms 0x1a0) (.cons (masked_confirms 0x10b0)
    (.cons (masked_confirms 0x13b0) .nil)))
  refine wp_mono (hmasks d) fun log ok d' h hok => ⟨command, init, stop, busy, ?_, ?_⟩
  · exact ⟨not_not.1 hmaster, by simpa using hinit, by simpa using hstop, by simpa using hbusy⟩
  · rcases h hok with _ | ⟨rfl, _ | ⟨rfl, _ | ⟨rfl, _ | _⟩⟩⟩
    rfl

theorem passed_writeless {c : Trace} (hc : Passed c) : ∀ e ∈ c, isWrite e = false := by
  rcases hc with ⟨command, init, stop, busy, -, rfl⟩
  intro e he
  simp only [List.mem_cons, List.not_mem_nil, or_false] at he
  rcases he with rfl | rfl | rfl | rfl | rfl | rfl | rfl <;> rfl

theorem write_keeps {c : Io} {m : Reply c → Setup Bool} (hm : ∀ r, (m r).Keeps (Steady PciRingSetup.core)) :
    (do if ← safe then (do modify fun d => d.wrote; let r ← ask c; m r) else return false : Setup Bool).Keeps
      (Steady PciRingSetup.core) := by
  intro d
  rw [wp_bind]
  refine wp_mono (wp_and (safe_keeps d) (safe_confirms d)) fun log ok d₁ h => ?_
  cases ok with
  | false =>
      rw [if_neg Bool.false_ne_true, wp_pure, List.append_nil]
      exact h.1
  | true =>
      rw [if_pos rfl, wp_modify_bind, wp_ask_bind]
      intro r
      refine wp_mono (hm r d₁.wrote) fun log' ok' d₂ h' => ⟨h'.1.trans h.1.1, ?_⟩
      have hfirst : Guarded (log ++ [.call c r]) := guarded_write (h.2 rfl) (passed_writeless (h.2 rfl))
      have hall := hfirst.append h'.2
      rw [List.append_assoc] at hall
      exact hall

theorem write32_keeps (address value : UInt32) : (write32 address value).Keeps (Steady PciRingSetup.core) := by
  refine write_keeps (c := .write32 address value) fun r => Keeps.ite (keeps_return true) ?_
  exact keeps_ask (fun _ => rfl) fun actual => mismatch_keeps _ _ _

theorem write16_keeps (address : UInt32) (value : UInt16) : (write16 address value).Keeps (Steady PciRingSetup.core) := by
  refine write_keeps (c := .write16 address value) fun r => Keeps.ite (keeps_return true) ?_
  exact keeps_ask (fun _ => rfl) fun actual => mismatch_keeps _ _ _

theorem equal32_keeps (address expected : UInt32) : (equal32 address expected).Keeps (Steady PciRingSetup.core) :=
  keeps_ask (fun _ => rfl) fun _ => Keeps.ite (keeps_return true) (mismatch_keeps _ _ _)

theorem equal16_keeps (address : UInt32) (expected : UInt16) : (equal16 address expected).Keeps (Steady PciRingSetup.core) :=
  keeps_ask (fun _ => rfl) fun _ => Keeps.ite (keeps_return true) (mismatch_keeps _ _ _)

theorem whereBdram_keeps (r : RingRegisters) {m : Setup Bool} (hm : m.Keeps (Steady PciRingSetup.core)) :
    (whereBdram r m).Keeps (Steady PciRingSetup.core) :=
  Keeps.ite (keeps_return true) hm

theorem programRing_keeps (saved : Fin 9 → Snapshot) (rings : Fin 9 → RingMemory) (i : Fin 9) :
    (programRing saved rings i).Keeps (Steady PciRingSetup.core) := by
  refine Keeps.every (steady_traced _) fun m hm => ?_
  simp only [List.mem_cons, List.not_mem_nil, or_false] at hm
  rcases hm with rfl | rfl | rfl | rfl | rfl | rfl | rfl | rfl
  · exact write32_keeps _ _
  · exact write32_keeps _ _
  · exact write16_keeps _ _
  · exact whereBdram_keeps _ (write32_keeps _ _)
  · exact equal32_keeps _ _
  · exact equal32_keeps _ _
  · exact equal16_keeps _ _
  · exact whereBdram_keeps _ (equal32_keeps _ _)

theorem unreset_keeps (init : UInt32) : (unreset init).Keeps (Steady PciRingSetup.core) :=
  keeps_ask (fun _ => rfl) fun _ => mismatch_keeps _ _ _

theorem resetFrom_keeps (init : UInt32) (begin_ : UInt64) (rounds : ℕ) :
    ∀ previous, (resetFrom init begin_ previous rounds).Keeps (Steady PciRingSetup.core) := by
  induction rounds with
  | zero => exact fun _ => unreset_keeps init
  | succ rounds ih =>
      intro previous
      refine keeps_ask (fun _ => rfl) fun now => Keeps.ite (unreset_keeps init) ?_
      refine keeps_ask (fun _ => rfl) fun value => keeps_modify (fun _ => rfl) ?_
      refine Keeps.ite (mismatch_keeps _ _ _) (Keeps.ite (keeps_return true) ?_)
      exact keeps_ask (fun _ => rfl) fun _ => ih now

theorem waitReset_keeps (init : UInt32) : (waitReset init).Keeps (Steady PciRingSetup.core) :=
  keeps_ask (fun _ => rfl) fun begin_ => resetFrom_keeps init begin_ 201 begin_

theorem indicesZero_keeps : indicesZero.Keeps (Steady PciRingSetup.core) := by
  refine Keeps.every (steady_traced _) fun m hm => ?_
  rcases List.mem_map.1 hm with ⟨i, -, rfl⟩
  exact equal32_keeps _ _

theorem program_keeps (saved : Fin 9 → Snapshot) (init : UInt32) (rings : Fin 9 → RingMemory) :
    (program saved init rings).Keeps (Steady PciRingSetup.core) := by
  have htraced := steady_traced PciRingSetup.core
  refine Keeps.both htraced (Keeps.every htraced fun m hm => ?_) (Keeps.both htraced (Keeps.every htraced fun m hm => ?_) ?_)
  · rcases List.mem_map.1 hm with ⟨i, -, rfl⟩
    exact programRing_keeps saved rings i
  · simp only [List.mem_cons, List.not_mem_nil, or_false] at hm
    rcases hm with rfl | rfl | rfl <;> exact write32_keeps _ _
  · refine Keeps.both htraced (waitReset_keeps init) (Keeps.both htraced indicesZero_keeps ?_)
    exact Keeps.both htraced (equal32_keeps _ _) safe_keeps

theorem keeps_flags {m : Setup α} (hm : m.Keeps (Steady PciRingSetup.core)) : m.Keeps (Steady PciRingSetup.flags) :=
  hm.mono fun _ _ _ h => ⟨congrArg (fun x => (x.2.2.1, x.2.2.2)) h.1, h.2⟩

theorem readInit_keeps : readInit.Keeps (Steady PciRingSetup.flags) := by
  refine keeps_ask (fun _ => rfl) fun init => keeps_modify (fun _ => rfl) ?_
  exact Keeps.ite (keeps_flags (mismatch_keeps _ _ _)) (keeps_return true)

theorem saveRing_keeps (i : Fin 9) : (saveRing i).Keeps (Steady PciRingSetup.flags) := by
  have hmismatch : ∀ a e v, (mismatch a e v).Keeps (Steady PciRingSetup.flags) :=
    fun a e v => keeps_flags (mismatch_keeps a e v)
  have hbdram : (readBdram (ringRegisters i)).Keeps (Steady PciRingSetup.flags) := by
    refine Keeps.ite (keeps_return 0) fun d => ?_
    rw [wp_ask]
    exact fun r => steady_event rfl
  refine keeps_ask (fun _ => rfl) fun low => keeps_ask (fun _ => rfl) fun high => keeps_ask (fun _ => rfl) fun count => ?_
  refine Keeps.bind (steady_traced _) hbdram fun bdram => keeps_modify (fun _ => rfl) ?_
  refine Keeps.ite (hmismatch _ _ _) (Keeps.ite (hmismatch _ _ _) (Keeps.ite (hmismatch _ _ _) ?_))
  refine Keeps.both (steady_traced _) (keeps_flags (equal32_keeps _ _)) ?_
  exact Keeps.ite (hmismatch _ _ _) (keeps_return true)

theorem opening_keeps : opening.Keeps (Steady PciRingSetup.flags) := by
  refine Keeps.every (steady_traced _) fun m hm => ?_
  rcases List.mem_append.1 hm with hm | hm
  · simp only [List.mem_cons, List.not_mem_nil, or_false] at hm
    rcases hm with rfl | rfl | rfl
    · exact keeps_flags safe_keeps
    · exact keeps_ask (fun _ => rfl) fun hci => Keeps.ite (keeps_flags (mismatch_keeps _ _ _)) (keeps_return true)
    · exact readInit_keeps
  · rcases List.mem_map.1 hm with ⟨i, -, rfl⟩
    exact saveRing_keeps i

theorem restoreRings_keeps (saved : Fin 9 → Snapshot) (init : UInt32) :
    (restoreRings saved init).Keeps (Steady PciRingSetup.core) := by
  have htraced := steady_traced PciRingSetup.core
  refine Keeps.bind htraced (Keeps.each htraced fun m hm => ?_) fun written => ?_
  · rcases List.mem_append.1 hm with hm | hm
    · rcases List.mem_map.1 hm with ⟨i, -, rfl⟩
      refine Keeps.each htraced fun m hm => ?_
      simp only [List.mem_cons, List.not_mem_nil, or_false] at hm
      rcases hm with rfl | rfl | rfl | rfl
      · exact write32_keeps _ _
      · exact write32_keeps _ _
      · exact write16_keeps _ _
      · exact whereBdram_keeps _ (write32_keeps _ _)
    · rw [List.mem_singleton.1 hm]
      exact write32_keeps _ _
  · refine Keeps.bind htraced (Keeps.each htraced fun m hm => ?_) fun back => Keeps.ite safe_keeps (keeps_return false)
    rcases List.mem_append.1 hm with hm | hm
    · rcases List.mem_map.1 hm with ⟨i, -, rfl⟩
      refine Keeps.each htraced fun m hm => ?_
      simp only [List.mem_cons, List.not_mem_nil, or_false] at hm
      rcases hm with rfl | rfl
      · refine Keeps.every htraced fun m hm => ?_
        simp only [List.mem_cons, List.not_mem_nil, or_false] at hm
        rcases hm with rfl | rfl | rfl
        · exact equal32_keeps _ _
        · exact equal32_keeps _ _
        · exact equal16_keeps _ _
      · exact whereBdram_keeps _ (equal32_keeps _ _)
    · rw [List.mem_singleton.1 hm]
      exact equal32_keeps _ _

end Steady

/-! ## What a configured device was found to hold -/

inductive Touch
  | got (v : UInt32)
  | wrote (v : UInt32)
  deriving DecidableEq

/-- What was read of a register or written to it. -/
def touch (a : UInt32) : Event Io Reply Empty → Option Touch
  | .call (.read32 b) v => if b = a then some (.got v) else none
  | .call (.read16 b) v => if b = a then some (.got (UInt16.toUInt32 v)) else none
  | .call (.write32 b v) _ => if b = a then some (.wrote v) else none
  | .call (.write16 b v) _ => if b = a then some (.wrote v.toUInt32) else none
  | _ => none

def touches (a : UInt32) (log : Trace) : List Touch := log.filterMap (touch a)

theorem touches_append (a : UInt32) (log log' : Trace) : touches a (log ++ log') = touches a log ++ touches a log' :=
  List.filterMap_append

/-- The registers that a check looks at. -/
def checked : List UInt32 := [0x1000, 0x1010, 0x101c, 0x1a0, 0x10b0, 0x13b0]

/-- When `m` succeeds it has done this to the other registers. -/
def Leaves (T : UInt32 → List Touch) (m : Setup Bool) : Prop :=
  Confirms (fun log => ∀ a ∉ checked, touches a log = T a) m

section Leaves

variable {T T' : UInt32 → List Touch} {m m' : Setup Bool}

theorem leaves_both (hm : Leaves T m) (hm' : Leaves T' m') : Leaves (fun a => T a ++ T' a) (both m m') := by
  refine (Confirms.both hm hm').mono ?_
  rintro log ⟨l, l', rfl, hl, hl'⟩ a ha
  rw [touches_append, hl a ha, hl' a ha]

theorem Leaves.congr (h : Leaves T m) (hT : ∀ a, T a = T' a) : Leaves T' m := by
  rw [← funext hT]
  exact h

theorem leaves_pure : Leaves (fun _ => []) (pure true) := by
  intro d
  rw [wp_pure]
  exact fun _ _ _ => rfl

theorem leaves_every {ι : Type} {f : ι → Setup Bool} {T : ι → UInt32 → List Touch} (h : ∀ i, Leaves (T i) (f i))
    (l : List ι) : Leaves (fun a => l.flatMap fun i => T i a) (every (l.map f)) := by
  induction l with
  | nil => exact leaves_pure
  | cons i l ih =>
      exact (leaves_both (h i) ih).congr fun a => (List.flatMap_cons (f := fun i => T i a)).symm

/-- What is said about one of the registers. -/
def named (a : UInt32) (l : List (UInt32 × UInt32)) : List UInt32 :=
  l.filterMap fun x => if x.1 = a then some x.2 else none

theorem passed_leaves {c : Trace} (hc : Passed c) {a : UInt32} (ha : a ∉ checked) : touches a c = [] := by
  rcases hc with ⟨command, init, stop, busy, -, rfl⟩
  simp only [checked, List.mem_cons, List.not_mem_nil, or_false, not_or] at ha
  rcases ha with ⟨h₁, h₂, h₃, h₄, h₅, h₆⟩
  simp only [touches, List.filterMap_cons, List.filterMap_nil, touch, if_neg (Ne.symm h₁), if_neg (Ne.symm h₂),
    if_neg (Ne.symm h₃), if_neg (Ne.symm h₄), if_neg (Ne.symm h₅), if_neg (Ne.symm h₆)]

theorem safe_leaves : Leaves (fun _ => []) safe := safe_confirms.mono fun _ hc _ ha => passed_leaves hc ha

theorem write_leaves {b v : UInt32} {c : Io} {m : Reply c → Setup Bool}
    (htouch : ∀ a r, touch a (.call c r) = if b = a then some (.wrote v) else none)
    (hm : ∀ r d, (m r).wp (fun log ok _ => ok = true → log = []) d) :
    Leaves (fun a => (named a [(b, v)]).map .wrote)
      (do if ← safe then (do modify fun d => d.wrote; let r ← ask c; m r) else return false : Setup Bool) := by
  intro d
  rw [wp_bind]
  refine wp_mono (safe_confirms d) fun log ok d₁ h => ?_
  cases ok with
  | false =>
      rw [if_neg Bool.false_ne_true, wp_pure]
      exact fun hno => absurd hno Bool.false_ne_true
  | true =>
      rw [if_pos rfl, wp_modify_bind, wp_ask_bind]
      intro r
      refine wp_mono (hm r d₁.wrote) fun log' ok' d₂ h' hok a ha => ?_
      rw [h' hok, touches_append, passed_leaves (h rfl) ha]
      simp only [touches, named, List.filterMap_cons, List.filterMap_nil, htouch, List.nil_append]
      by_cases hb : b = a
      · simp only [if_pos hb, List.map_cons, List.map_nil]
      · simp only [if_neg hb, List.map_nil]

theorem write32_leaves (b v : UInt32) : Leaves (fun a => (named a [(b, v)]).map .wrote) (write32 b v) := by
  refine write_leaves (c := .write32 b v) (fun _ _ => rfl) fun r d => ?_
  cases r with
  | true => exact (wp_pure true).2 fun _ => rfl
  | false =>
      rw [if_neg Bool.false_ne_true, wp_ask_bind]
      intro actual
      rw [wp_mismatch]
      exact fun hno => absurd hno Bool.false_ne_true

theorem write16_leaves (b : UInt32) (v : UInt16) :
    Leaves (fun a => (named a [(b, v.toUInt32)]).map .wrote) (write16 b v) := by
  refine write_leaves (c := .write16 b v) (fun _ _ => rfl) fun r d => ?_
  cases r with
  | true => exact (wp_pure true).2 fun _ => rfl
  | false =>
      rw [if_neg Bool.false_ne_true, wp_ask_bind]
      intro actual
      rw [wp_mismatch]
      exact fun hno => absurd hno Bool.false_ne_true

theorem equal32_confirms (b v : UInt32) : Confirms (fun log => log = [.call (.read32 b) v]) (equal32 b v) := by
  intro d
  unfold equal32
  rw [wp_ask_bind]
  intro r
  by_cases hr : r = v
  · rw [if_pos hr, wp_pure, hr]
    exact fun _ => rfl
  · rw [if_neg hr, wp_mismatch]
    exact fun hno => absurd hno Bool.false_ne_true

theorem equal16_confirms (b : UInt32) (v : UInt16) : Confirms (fun log => log = [.call (.read16 b) v]) (equal16 b v) := by
  intro d
  unfold equal16
  rw [wp_ask_bind]
  intro r
  by_cases hr : r = v
  · rw [if_pos hr, wp_pure, hr]
    exact fun _ => rfl
  · rw [if_neg hr, wp_mismatch]
    exact fun hno => absurd hno Bool.false_ne_true

theorem touches_got {e : Event Io Reply Empty} {b v : UInt32}
    (h : ∀ a, touch a e = if b = a then some (.got v) else none) (a : UInt32) :
    touches a [e] = (named a [(b, v)]).map .got := by
  simp only [touches, named, List.filterMap_cons, List.filterMap_nil, h]
  by_cases hb : b = a
  · simp only [if_pos hb, List.map_cons, List.map_nil]
  · simp only [if_neg hb, List.map_nil]

theorem equal32_leaves (b v : UInt32) : Leaves (fun a => (named a [(b, v)]).map .got) (equal32 b v) :=
  (equal32_confirms b v).mono fun _ hlog a _ => hlog ▸ touches_got (fun _ => rfl) a

theorem equal16_leaves (b : UInt32) (v : UInt16) : Leaves (fun a => (named a [(b, v.toUInt32)]).map .got) (equal16 b v) :=
  (equal16_confirms b v).mono fun _ hlog a _ => hlog ▸ touches_got (fun _ => rfl) a

/-- The registers of a ring with their values. -/
def Snapshot.assignments (s : Snapshot) (r : RingRegisters) : List (UInt32 × UInt32) :=
  [(r.high, s.high), (r.low, s.low), (r.count, s.count.toUInt32)] ++ if r.bdram = 0 then [] else [(r.bdram, s.bdram)]

theorem whereBdram_leaves {r : RingRegisters} {v : UInt32} {f : UInt32 → Touch}
    (hm : Leaves (fun a => (named a [(r.bdram, v)]).map f) m) :
    Leaves (fun a => (named a (if r.bdram = 0 then [] else [(r.bdram, v)])).map f) (whereBdram r m) := by
  unfold whereBdram
  by_cases hr : r.bdram = 0
  · simp only [if_pos hr]
    exact leaves_pure
  · simp only [if_neg hr]
    exact hm

/-- What programming a ring does to a register. -/
def ringTouches (s : Snapshot) (r : RingRegisters) (a : UInt32) : List Touch :=
  (named a (s.assignments r)).map .wrote ++ (named a (s.assignments r)).map .got

theorem named_append (a : UInt32) (l l' : List (UInt32 × UInt32)) : named a (l ++ l') = named a l ++ named a l' :=
  List.filterMap_append

theorem programRing_leaves (saved : Fin 9 → Snapshot) (rings : Fin 9 → RingMemory) (i : Fin 9) :
    Leaves (ringTouches ((saved i).programmed (ringRegisters i) (rings i)) (ringRegisters i))
      (programRing saved rings i) := by
  unfold programRing
  dsimp only
  generalize (saved i).programmed (ringRegisters i) (rings i) = p
  generalize ringRegisters i = r
  have hwrites := fun m' T' (h : Leaves T' m') => leaves_both (write32_leaves r.high p.high)
    (leaves_both (write32_leaves r.low p.low) (leaves_both (write16_leaves r.count p.count)
      (leaves_both (whereBdram_leaves (write32_leaves r.bdram p.bdram)) h)))
  have hreads := leaves_both (equal32_leaves r.high p.high) (leaves_both (equal32_leaves r.low p.low)
    (leaves_both (equal16_leaves r.count p.count)
      (leaves_both (whereBdram_leaves (equal32_leaves r.bdram p.bdram)) leaves_pure)))
  refine (hwrites _ _ hreads).congr fun a => ?_
  have hsplit : named a (p.assignments r) = named a [(r.high, p.high)] ++ (named a [(r.low, p.low)] ++
      (named a [(r.count, p.count.toUInt32)] ++ named a (if r.bdram = 0 then [] else [(r.bdram, p.bdram)]))) := by
    rw [← named_append, ← named_append, ← named_append]
    rfl
  simp only [ringTouches, hsplit, List.map_append, List.append_assoc, List.append_nil]

theorem event_elsewhere {e : Event Io Reply Empty} (h : ∀ a ∉ checked, touch a e = none) :
    ∀ x ∈ [e], ∀ a ∉ checked, touch a x = none := fun _ hx => List.mem_singleton.1 hx ▸ h

theorem resetFrom_elsewhere (init : UInt32) (begin_ : UInt64) (rounds : ℕ) :
    ∀ previous, (resetFrom init begin_ previous rounds).Keeps fun _ log _ =>
      ∀ e ∈ log, ∀ a ∉ checked, touch a e = none := by
  have htraced := all_traced (σ := PciRingSetup) fun e : Event Io Reply Empty => ∀ a ∉ checked, touch a e = none
  have hread : ∀ v, ∀ a ∉ checked, touch a (.call (.read32 0x1000) v) = none := by
    intro v a ha
    refine if_neg fun heq => ha ?_
    rw [← heq]
    decide
  have hmismatch : ∀ v, (mismatch 0x1000 init v).Keeps fun _ log _ => ∀ e ∈ log, ∀ a ∉ checked, touch a e = none :=
    fun v => Keeps.modify_bind htraced (fun _ _ he => absurd he List.not_mem_nil) (Keeps.pure htraced false)
  have hunreset : (unreset init).Keeps fun _ log _ => ∀ e ∈ log, ∀ a ∉ checked, touch a e = none :=
    Keeps.ask_bind htraced (fun _ v => event_elsewhere (hread v)) fun v => hmismatch v
  induction rounds with
  | zero => exact fun _ => hunreset
  | succ rounds ih =>
      intro previous
      refine Keeps.ask_bind htraced (fun _ now => event_elsewhere fun _ _ => rfl) fun now => Keeps.ite hunreset ?_
      refine Keeps.ask_bind htraced (fun _ v => event_elsewhere (hread v)) fun value => ?_
      refine Keeps.modify_bind htraced (fun _ _ he => absurd he List.not_mem_nil) ?_
      refine Keeps.ite (hmismatch value) (Keeps.ite (Keeps.pure htraced true) ?_)
      exact Keeps.ask_bind htraced (fun _ _ => event_elsewhere fun _ _ => rfl) fun _ => ih now

theorem waitReset_leaves (init : UInt32) : Leaves (fun _ => []) (waitReset init) := by
  intro d
  unfold waitReset
  rw [wp_ask_bind]
  intro begin_
  refine wp_mono (resetFrom_elsewhere init begin_ 201 begin_ d) fun log ok _ h _ a ha => ?_
  refine List.filterMap_eq_nil_iff.2 fun e he => ?_
  rcases List.mem_cons.1 he with rfl | he
  · rfl
  · exact h e he a ha

/-- Everything that is done to a register after the snapshot. -/
theorem program_leaves (saved : Fin 9 → Snapshot) (init : UInt32) (rings : Fin 9 → RingMemory) :
    Leaves (fun a => ((List.finRange 9).flatMap fun i =>
        ringTouches ((saved i).programmed (ringRegisters i) (rings i)) (ringRegisters i) a) ++
      ((named a [(0x1014, 0x70f), (0x1018, 3), (0x1000, init ||| 8)]).map .wrote ++
        (((List.finRange 9).flatMap fun i => (named a [((ringRegisters i).index, 0)]).map .got) ++
          (named a [(0x1000, init)]).map .got))) (program saved init rings) := by
  have hrings := leaves_every (fun i => programRing_leaves saved rings i) (List.finRange 9)
  have hwrites := leaves_both (write32_leaves 0x1014 0x70f) (leaves_both (write32_leaves 0x1018 3)
    (leaves_both (write32_leaves 0x1000 (init ||| 8)) leaves_pure))
  have hindices := leaves_every (fun i => equal32_leaves (ringRegisters i).index 0) (List.finRange 9)
  have hall := leaves_both hrings (leaves_both hwrites (leaves_both (waitReset_leaves init)
    (leaves_both hindices (leaves_both (equal32_leaves 0x1000 init) safe_leaves))))
  refine hall.congr fun a => ?_
  have hsplit : named a [(0x1014, 0x70f), (0x1018, 3), (0x1000, init ||| 8)] =
      named a [(0x1014, 0x70f)] ++ (named a [(0x1018, 3)] ++ named a [(0x1000, init ||| 8)]) := by
    rw [← named_append, ← named_append]
    rfl
  simp only [hsplit, List.map_append, List.append_assoc, List.append_nil, List.nil_append]

end Leaves

/-! ### The registers of a ring -/

def RingRegisters.addresses (r : RingRegisters) : List UInt32 :=
  [r.high, r.low, r.count] ++ if r.bdram = 0 then [] else [r.bdram]

theorem assignments_addresses (s : Snapshot) (r : RingRegisters) : (s.assignments r).map Prod.fst = r.addresses := by
  unfold Snapshot.assignments RingRegisters.addresses
  by_cases hr : r.bdram = 0
  · simp only [if_pos hr, List.map_append, List.map_cons, List.map_nil]
  · simp only [if_neg hr, List.map_append, List.map_cons, List.map_nil]

theorem addresses_apart :
    ∀ i j : Fin 9, i ≠ j → ∀ a ∈ (ringRegisters i).addresses, a ∉ (ringRegisters j).addresses := by
  have hall : ∀ i j : Fin 9, i ≠ j →
      (ringRegisters i).addresses.all fun a => !(ringRegisters j).addresses.contains a := by decide
  intro i j hij a ha
  simpa using List.all_eq_true.1 (hall i j hij) a ha

theorem addresses_own : ∀ i : Fin 9, (ringRegisters i).addresses.Nodup ∧
    ∀ a ∈ (ringRegisters i).addresses, a ∉ 0x1014 :: 0x1018 :: checked ∧ ∀ j : Fin 9, a ≠ (ringRegisters j).index := by
  have hall : ∀ i : Fin 9, (ringRegisters i).addresses.all fun a =>
      decide (a ∉ 0x1014 :: 0x1018 :: checked ∧ ∀ j : Fin 9, a ≠ (ringRegisters j).index) := by decide
  have hnodup : ∀ i : Fin 9, (ringRegisters i).addresses.Nodup := by decide
  exact fun i => ⟨hnodup i, fun a ha => of_decide_eq_true (List.all_eq_true.1 (hall i) a ha)⟩

theorem named_eq_nil {a : UInt32} {l : List (UInt32 × UInt32)} (h : a ∉ l.map Prod.fst) : named a l = [] := by
  refine List.filterMap_eq_nil_iff.2 fun x hx => if_neg fun heq => h ?_
  rw [← heq]
  exact List.mem_map_of_mem hx

theorem named_eq_singleton {l : List (UInt32 × UInt32)} (hl : (l.map Prod.fst).Nodup) {x : UInt32 × UInt32}
    (hx : x ∈ l) : named x.1 l = [x.2] := by
  induction l with
  | nil => exact absurd hx List.not_mem_nil
  | cons y l ih =>
      rw [List.map_cons, List.nodup_cons] at hl
      show named x.1 ([y] ++ l) = [x.2]
      rw [named_append]
      rcases List.mem_cons.1 hx with rfl | hx
      · rw [named_eq_nil hl.1]
        simp [named]
      · rw [ih hl.2 hx]
        have hne : x.1 ∉ [y].map Prod.fst := by
          intro hmem
          refine hl.1 ?_
          rw [← List.mem_singleton.1 hmem]
          exact List.mem_map_of_mem hx
        rw [named_eq_nil hne]
        rfl

theorem flatMap_only {ι α : Type} {f : ι → List α} {i : ι} {l : List ι} (hl : l.Nodup) (hi : i ∈ l)
    (h : ∀ j, j ≠ i → f j = []) : l.flatMap f = f i := by
  induction l with
  | nil => exact absurd hi List.not_mem_nil
  | cons j l ih =>
      rw [List.nodup_cons] at hl
      rw [List.flatMap_cons]
      rcases List.mem_cons.1 hi with rfl | hi
      · have hrest : l.flatMap f = [] :=
          List.flatMap_eq_nil_iff.2 fun k hk => h k fun heq => hl.1 (heq ▸ hk)
        rw [hrest, List.append_nil]
      · rw [h j fun heq => hl.1 (heq ▸ hi), ih hl.2 hi]
        rfl

/-- After the snapshot a register of a ring is written once and read back. -/
theorem program_reads_back (saved : Fin 9 → Snapshot) (init : UInt32) (rings : Fin 9 → RingMemory) (i : Fin 9) :
    Confirms (fun log => ∀ x ∈ ((saved i).programmed (ringRegisters i) (rings i)).assignments (ringRegisters i),
      touches x.1 log = [.wrote x.2, .got x.2]) (program saved init rings) := by
  refine (program_leaves saved init rings).mono fun log hlog x hx => ?_
  have hmem : x.1 ∈ (ringRegisters i).addresses := by
    rw [← assignments_addresses ((saved i).programmed (ringRegisters i) (rings i))]
    exact List.mem_map_of_mem hx
  rcases addresses_own i with ⟨hnodup, hown⟩
  rcases hown x.1 hmem with ⟨hnot, hindex⟩
  have hchecked : x.1 ∉ checked := fun h => hnot (List.mem_cons_of_mem _ (List.mem_cons_of_mem _ h))
  have hrings : ((List.finRange 9).flatMap fun j =>
      ringTouches ((saved j).programmed (ringRegisters j) (rings j)) (ringRegisters j) x.1) = [.wrote x.2, .got x.2] := by
    rw [flatMap_only (List.nodup_finRange 9) (List.mem_finRange i) fun j hj => ?_]
    · unfold ringTouches
      rw [named_eq_singleton (by rw [assignments_addresses]; exact hnodup) hx]
      rfl
    · have hnone : named x.1 (((saved j).programmed (ringRegisters j) (rings j)).assignments (ringRegisters j)) = [] := by
        refine named_eq_nil ?_
        rw [assignments_addresses]
        exact addresses_apart i j (Ne.symm hj) x.1 hmem
      unfold ringTouches
      rw [hnone]
      rfl
  have hwrites : named x.1 [(0x1014, 0x70f), (0x1018, 3), (0x1000, init ||| 8)] = [] := by
    refine named_eq_nil fun h => hnot ?_
    simp only [List.map_cons, List.map_nil, List.mem_cons, List.not_mem_nil, or_false] at h
    simp only [checked, List.mem_cons, List.not_mem_nil, or_false]
    rcases h with h | h | h
    · exact .inl h
    · exact .inr (.inl h)
    · exact .inr (.inr (.inl h))
  have hindices : ((List.finRange 9).flatMap fun j => (named x.1 [((ringRegisters j).index, 0)]).map Touch.got) = [] := by
    refine List.flatMap_eq_nil_iff.2 fun j _ => ?_
    rw [named_eq_nil fun h => hindex j (List.mem_singleton.1 h)]
    rfl
  have hinit : named x.1 [(0x1000, init)] = [] := by
    refine named_eq_nil fun h => hchecked ?_
    rw [List.mem_singleton.1 h]
    show (0x1000 : UInt32) ∈ checked
    decide
  rw [hlog x.1 hchecked]
  simp only [hrings, hwrites, hindices, hinit, List.map_nil, List.append_nil]

def indexReads : Trace := (List.finRange 9).map fun i => .call (.read32 (ringRegisters i).index) 0

theorem every_confirms {ι : Type} {f : ι → Setup Bool} {e : ι → Event Io Reply Empty}
    (h : ∀ i, Confirms (fun log => log = [e i]) (f i)) (l : List ι) :
    Confirms (fun log => log = l.map e) (every (l.map f)) := by
  induction l with
  | nil =>
      intro d
      exact (wp_pure true).2 fun _ => rfl
  | cons i l ih =>
      refine (Confirms.both (h i) ih).mono ?_
      rintro log ⟨l₁, l₂, rfl, rfl, rfl⟩
      rfl

theorem program_ends (saved : Fin 9 → Snapshot) (init : UInt32) (rings : Fin 9 → RingMemory) :
    Confirms (fun log => ∃ pre c, Passed c ∧ log = pre ++ indexReads ++ .call (.read32 0x1000) init :: c)
      (program saved init rings) := by
  have hany : ∀ m : Setup Bool, Confirms (fun _ => True) m := fun m d => wp_of_outcome fun _ _ _ _ _ => trivial
  have htail := Confirms.both (every_confirms (fun i => equal32_confirms (ringRegisters i).index 0) (List.finRange 9))
    (Confirms.both (equal32_confirms 0x1000 init) safe_confirms)
  refine (Confirms.both (hany _) (Confirms.both (hany _) (Confirms.both (hany _) htail))).mono ?_
  rintro log ⟨l₁, _, rfl, -, l₂, _, rfl, -, l₃, _, rfl, -, l₄, _, rfl, rfl, _, c, rfl, rfl, hc⟩
  refine ⟨l₁ ++ l₂ ++ l₃, c, hc, ?_⟩
  simp only [indexReads, List.append_assoc, List.cons_append, List.nil_append]

/-- What a configured device was found to hold. -/
structure ReadBack (rings : Fin 9 → RingMemory) (log : Trace) (d' : PciRingSetup) : Prop where
  snapshot : d'.snapshot = true
  held : ∀ i, ∀ x ∈ ((d'.saved i).programmed (ringRegisters i) (rings i)).assignments (ringRegisters i),
    ∃ before, touches x.1 log = before ++ [.wrote x.2, .got x.2]
  ends : ∃ pre c, Passed c ∧ log = pre ++ indexReads ++ .call (.read32 0x1000) d'.init :: c

/-- The opening, and then the program with what it has saved. -/
theorem configureRings_spec (rings : Fin 9 → RingMemory) (d : PciRingSetup) :
    (configureRings rings).wp (fun log ok d' => Guarded log ∧ d'.result.attempted = d.result.attempted ∧
      (ok = true → ReadBack rings log d')) d := by
  unfold configureRings
  rw [wp_bind]
  refine wp_mono (opening_keeps d) fun log ok d₁ h => ?_
  have hattempted : d₁.result.attempted = d.result.attempted := congrArg Prod.snd h.1
  cases ok with
  | false =>
      rw [if_neg Bool.false_ne_true, wp_pure, List.append_nil]
      exact ⟨h.2, hattempted, nofun⟩
  | true =>
      rw [if_pos rfl, wp_modify_bind, wp_get_bind]
      generalize hd₂ : { d₁ with snapshot := true } = d₂
      have hback : ∀ i, _ := fun i => program_reads_back d₂.saved d₂.init rings i d₂
      have hall := wp_and (program_keeps d₂.saved d₂.init rings d₂) (program_ends d₂.saved d₂.init rings d₂)
      refine wp_of_outcome fun log' ok' d' hout => ?_
      rcases wp_outcome hall hout with ⟨⟨hcore, hguarded⟩, hends⟩
      have hsaved : d'.saved = d₂.saved := congrArg (·.1) hcore
      have hinit : d'.init = d₂.init := congrArg (·.2.1) hcore
      have hsnapshot : d'.snapshot = d₂.snapshot := congrArg (·.2.2.1) hcore
      have hflag : d'.result.attempted = d₂.result.attempted := congrArg (·.2.2.2) hcore
      refine ⟨h.2.append hguarded, ?_, fun hok => ⟨?_, fun i x hx => ?_, ?_⟩⟩
      · rw [hflag, ← hd₂]
        exact hattempted
      · rw [hsnapshot, ← hd₂]
      · rw [hsaved] at hx
        exact ⟨touches x.1 log, by rw [touches_append, wp_outcome (hback i) hout hok x hx]⟩
      · rcases hends hok with ⟨pre, c, hc, hlog⟩
        refine ⟨log ++ pre, c, hc, ?_⟩
        rw [hinit, hlog]
        simp only [List.append_assoc]

end PciRing
end Rtl8852be
