import Rtl8852be.Interaction.Environment
import Rtl8852be.Interaction.History
import Rtl8852be.Pci.RingChecks

/-!
# RingRollback — what `restore` puts back

The device is an environment of its own: the registers that are saved behave as memory, except that the device
takes back the reset bit some time after it was written.  A write that fails may leave anything in its register.

* `configure_saves` — the snapshot is what the registers hold before anything is written;
* `restoreRings_puts` — when `restore` says so, the registers hold what was saved;
* `restore_succeeds` — `restore` says so if the device is calm and no write fails.
-/

namespace Rtl8852be
namespace PciRing

open Interaction Code

/-! ## The device -/

inductive Register
  | word (a : UInt32)
  | half (a : UInt32)
  deriving DecidableEq

def RingRegisters.cells (r : RingRegisters) : List Register :=
  [.word r.high, .word r.low, .half r.count] ++ if r.bdram = 0 then [] else [.word r.bdram]

def savedRegisters : List Register :=
  (List.finRange 9).flatMap (fun i => (ringRegisters i).cells) ++ [.word 0x1000]

/-- `resetting`: the reset bit was written, and the device may take it back. -/
structure Memory where
  cell : Register → UInt32
  resetting : Bool := false

def Memory.store (m : Memory) (k : Register) (v : UInt32) : Memory where
  cell := Function.update m.cell k v
  resetting := if k = .word 0x1000 then v &&& 8 != 0 else m.resetting

def Memory.settled (m : Memory) : Memory where
  cell := Function.update m.cell (.word 0x1000) (m.cell (.word 0x1000) &&& ~~~8)
  resetting := false

/-- The saved registers behave as memory. -/
def Acts (m : Memory) (e : Event Io Reply Empty) (m' : Memory) : Prop :=
  match e with
  | .call (.read32 a) v =>
      (m' = m ∨ m.resetting = true ∧ m' = m.settled) ∧ (.word a ∈ savedRegisters → v = m'.cell (.word a))
  | .call (.read16 a) v => m' = m ∧ (.half a ∈ savedRegisters → UInt16.toUInt32 v = m.cell (.half a))
  | .call (.write32 a v) ok => if ok then m' = m.store (.word a) v else ∃ junk, m' = m.store (.word a) junk
  | .call (.write16 a v) ok =>
      if ok then m' = m.store (.half a) v.toUInt32 else ∃ junk, m' = m.store (.half a) junk
  | _ => m' = m

/-- The device is stopped, and no write fails. -/
def calm : Event Io Reply Empty → Prop
  | .call .command command => command &&& 6 = (2 : UInt16)
  | .call (.read32 a) v =>
      (a = 0x1000 → v ≠ (0xffffffff : UInt32) ∧ v &&& 0x2800 = (0 : UInt32)) ∧
        (a = 0x1010 → v ≠ (0xffffffff : UInt32) ∧ v &&& 0x1f0f00 = (0x1f0f00 : UInt32)) ∧
        (a = 0x101c → v ≠ (0xffffffff : UInt32) ∧ v &&& 0x7f0f03 = (0 : UInt32)) ∧
        (a = 0x1a0 ∨ a = 0x10b0 ∨ a = 0x13b0 → v = (0 : UInt32))
  | .call (.write32 _ _) ok => ok = true
  | .call (.write16 _ _) ok => ok = true
  | _ => True

theorem cell_saved {i : Fin 9} {k : Register} (hk : k ∈ (ringRegisters i).cells) : k ∈ savedRegisters :=
  List.mem_append_left _ (List.mem_flatMap.2 ⟨i, List.mem_finRange i, hk⟩)

theorem high_mem (r : RingRegisters) : .word r.high ∈ r.cells := by simp [RingRegisters.cells]

theorem low_mem (r : RingRegisters) : .word r.low ∈ r.cells := by simp [RingRegisters.cells]

theorem count_mem (r : RingRegisters) : .half r.count ∈ r.cells := by simp [RingRegisters.cells]

theorem bdram_mem {r : RingRegisters} (hr : r.bdram ≠ 0) : .word r.bdram ∈ r.cells := by
  simp [RingRegisters.cells, hr]

theorem init_mem : .word 0x1000 ∈ savedRegisters := List.mem_append_right _ List.mem_cons_self

/-! ## Reading -/

variable {m m' m₀ : Memory}

/-- A device without a pending reset changes only when it is written. -/
theorem acts_read {e : Event Io Reply Empty} (hm : m.resetting = false) (he : isWrite e = false) (h : Acts m e m') :
    m' = m := by
  cases e with
  | note n => exact n.elim
  | call c r =>
      cases c with
      | read32 a =>
          rcases h.1 with hsame | ⟨hreset, -⟩
          · exact hsame
          · rw [hm] at hreset
            exact absurd hreset Bool.false_ne_true
      | read16 a => exact h.1
      | write32 a v => exact absurd he.symm Bool.false_ne_true
      | write16 a v => exact absurd he.symm Bool.false_ne_true
      | command => exact h
      | nowUs => exact h
      | pauseUs us => exact h

variable {log : Trace}

/-- Where nothing is written, every event finds the same memory. -/
theorem follows_reads (hm : m.resetting = false) (hlog : ∀ e ∈ log, isWrite e = false) (h : Follows Acts m log m') :
    m' = m ∧ ∀ e ∈ log, Acts m e m := by
  induction h with
  | nil m => exact ⟨rfl, fun _ he => absurd he List.not_mem_nil⟩
  | cons hstep _ ih =>
      have hsame := acts_read hm (hlog _ List.mem_cons_self) hstep
      subst hsame
      rcases ih hm fun e he => hlog e (List.mem_cons_of_mem _ he) with ⟨hend, hall⟩
      refine ⟨hend, fun e he => ?_⟩
      rcases List.mem_cons.1 he with rfl | he
      · exact hstep
      · exact hall e he

def Writeless {α : Type} (c : Setup α) : Prop := c.Keeps fun _ log _ => ∀ e ∈ log, isWrite e = false

section Writeless

variable {α : Type}

theorem writeless_traced :
    Traced fun (_ : PciRingSetup) (log : Trace) (_ : PciRingSetup) => ∀ e ∈ log, isWrite e = false :=
  all_traced fun e => isWrite e = false

theorem writeless_pure (a : α) : Writeless (pure a : Setup α) := Keeps.pure writeless_traced a

theorem writeless_ask {c : Io} {f : Reply c → Setup α} (hc : ∀ r, isWrite (.call c r) = false)
    (hf : ∀ r, Writeless (f r)) : Writeless (ask c >>= f) :=
  Keeps.ask_bind writeless_traced (fun _ r _ he => List.mem_singleton.1 he ▸ hc r) hf

theorem writeless_modify {g : PciRingSetup → PciRingSetup} {f : PUnit → Setup α} (hf : Writeless (f ⟨⟩)) :
    Writeless (modify g >>= f) :=
  Keeps.modify_bind writeless_traced (fun _ _ he => absurd he List.not_mem_nil) hf

theorem writeless_every {ms : List (Setup Bool)} (h : ∀ m ∈ ms, Writeless m) : Writeless (every ms) :=
  Keeps.every writeless_traced h

theorem writeless_each {ms : List (Setup Bool)} (h : ∀ m ∈ ms, Writeless m) : Writeless (each ms) :=
  Keeps.each writeless_traced h

theorem mismatch_writeless (address expected actual : UInt32) : Writeless (mismatch address expected actual) :=
  writeless_modify (writeless_pure false)

theorem masked_writeless (address : UInt32) : Writeless (masked address) := by
  refine writeless_ask (fun _ => rfl) fun mask => Keeps.ite (writeless_pure true) ?_
  exact writeless_ask (fun _ => rfl) fun actual => mismatch_writeless _ _ _

theorem safe_writeless : Writeless safe := by
  have hmismatch := mismatch_writeless
  refine writeless_ask (fun _ => rfl) fun command => Keeps.ite ?_ ?_
  · exact writeless_ask (fun _ => rfl) fun actual => hmismatch _ _ _
  refine writeless_ask (fun _ => rfl) fun init => writeless_ask (fun _ => rfl) fun stop => ?_
  refine writeless_ask (fun _ => rfl) fun busy => Keeps.ite (hmismatch _ _ _) (Keeps.ite (hmismatch _ _ _) ?_)
  refine Keeps.ite (hmismatch _ _ _) (writeless_every fun m hm => ?_)
  simp only [List.mem_cons, List.not_mem_nil, or_false] at hm
  rcases hm with rfl | rfl | rfl <;> exact masked_writeless _

theorem equal32_writeless (address expected : UInt32) : Writeless (equal32 address expected) :=
  writeless_ask (fun _ => rfl) fun _ => Keeps.ite (writeless_pure true) (mismatch_writeless _ _ _)

theorem equal16_writeless (address : UInt32) (expected : UInt16) : Writeless (equal16 address expected) :=
  writeless_ask (fun _ => rfl) fun _ => Keeps.ite (writeless_pure true) (mismatch_writeless _ _ _)

theorem saveRing_writeless (i : Fin 9) : Writeless (saveRing i) := by
  have hmismatch := mismatch_writeless
  have hbdram : Writeless (readBdram (ringRegisters i)) := by
    refine Keeps.ite (writeless_pure 0) fun d => ?_
    rw [wp_ask]
    exact fun r e he => List.mem_singleton.1 he ▸ rfl
  refine writeless_ask (fun _ => rfl) fun low => writeless_ask (fun _ => rfl) fun high => ?_
  refine writeless_ask (fun _ => rfl) fun count => Keeps.bind writeless_traced hbdram fun bdram => writeless_modify ?_
  refine Keeps.ite (hmismatch _ _ _) (Keeps.ite (hmismatch _ _ _) (Keeps.ite (hmismatch _ _ _) ?_))
  exact Keeps.both writeless_traced (equal32_writeless _ _) (Keeps.ite (hmismatch _ _ _) (writeless_pure true))

theorem opening_writeless : Writeless opening := by
  refine writeless_every fun m hm => ?_
  rcases List.mem_append.1 hm with hm | hm
  · simp only [List.mem_cons, List.not_mem_nil, or_false] at hm
    rcases hm with rfl | rfl | rfl
    · exact safe_writeless
    · exact writeless_ask (fun _ => rfl) fun hci => Keeps.ite (mismatch_writeless _ _ _) (writeless_pure true)
    · refine writeless_ask (fun _ => rfl) fun init => writeless_modify ?_
      exact Keeps.ite (mismatch_writeless _ _ _) (writeless_pure true)
  · rcases List.mem_map.1 hm with ⟨i, -, rfl⟩
    exact saveRing_writeless i

theorem back_writeless (saved : Fin 9 → Snapshot) (init : UInt32) :
    Writeless (each ((List.finRange 9).map (ringBack saved) ++ [equal32 0x1000 init])) := by
  refine writeless_each fun m hm => ?_
  rcases List.mem_append.1 hm with hm | hm
  · rcases List.mem_map.1 hm with ⟨i, -, rfl⟩
    refine writeless_each fun m hm => ?_
    simp only [List.mem_cons, List.not_mem_nil, or_false] at hm
    rcases hm with rfl | rfl
    · refine writeless_every fun m hm => ?_
      simp only [List.mem_cons, List.not_mem_nil, or_false] at hm
      rcases hm with rfl | rfl | rfl
      · exact equal32_writeless _ _
      · exact equal32_writeless _ _
      · exact equal16_writeless _ _
    · exact Keeps.ite (writeless_pure true) (equal32_writeless _ _)
  · rw [List.mem_singleton.1 hm]
    exact equal32_writeless _ _

end Writeless

/-! ## What is saved was read -/

/-- The registers of a ring were read, and this is what they held. -/
structure Seen (log : Trace) (i : Fin 9) (s : Snapshot) : Prop where
  low : .call (.read32 (ringRegisters i).low) s.low ∈ log
  high : .call (.read32 (ringRegisters i).high) s.high ∈ log
  count : .call (.read16 (ringRegisters i).count) s.count ∈ log
  bdram : (ringRegisters i).bdram ≠ 0 → .call (.read32 (ringRegisters i).bdram) s.bdram ∈ log

theorem Seen.mono {log' : Trace} {i : Fin 9} {s : Snapshot} (h : Seen log i s) (hsub : ∀ e ∈ log, e ∈ log') :
    Seen log' i s :=
  ⟨hsub _ h.low, hsub _ h.high, hsub _ h.count, fun hr => hsub _ (h.bdram hr)⟩

theorem saveRing_seen (i : Fin 9) (d : PciRingSetup) :
    (saveRing i).wp (fun log ok d' => d'.init = d.init ∧
      (ok = true → ∃ s, d'.saved = Function.update d.saved i s ∧ Seen log i s)) d := by
  unfold saveRing
  dsimp only
  rw [wp_ask_bind]
  intro low
  rw [wp_ask_bind]
  intro high
  rw [wp_ask_bind]
  intro count
  rw [wp_bind]
  have hbdram : (readBdram (ringRegisters i)).wp (fun log bdram d' => d' = d ∧
      ((ringRegisters i).bdram ≠ 0 → .call (.read32 (ringRegisters i).bdram) bdram ∈ log)) d := by
    unfold readBdram
    by_cases hr : (ringRegisters i).bdram = 0
    · rw [if_pos hr, wp_pure]
      exact ⟨rfl, fun hno => absurd hr hno⟩
    · rw [if_neg hr, wp_ask]
      exact fun r => ⟨rfl, fun _ => List.mem_cons_self⟩
  refine wp_mono hbdram fun log bdram d₁ h => ?_
  rcases h with ⟨rfl, hread⟩
  rw [wp_modify_bind]
  have hseen : ∀ log', Seen (.call (.read32 (ringRegisters i).low) low :: .call (.read32 (ringRegisters i).high) high ::
      .call (.read16 (ringRegisters i).count) count :: (log ++ log')) i ⟨low, high, bdram, count⟩ := by
    intro log'
    exact ⟨by simp, by simp, by simp, fun hr => by simp [hread hr]⟩
  -- The rest keeps what was saved.
  have hrest : ∀ {m : Setup Bool}, m.Keeps (Steady PciRingSetup.core) → ∀ d₂, m.wp (fun log' ok d' =>
      d'.init = d₂.init ∧ (ok = true → d'.saved = d₂.saved)) d₂ := by
    intro m hm d₂
    exact wp_mono (hm d₂) fun _ _ _ h => ⟨congrArg (·.2.1) h.1, fun _ => congrArg (·.1) h.1⟩
  refine wp_mono (hrest ?_ (d₁.saving i ⟨low, high, bdram, count⟩)) fun log' ok d' h => ⟨h.1, fun hok => ?_⟩
  · refine Keeps.ite (mismatch_keeps _ _ _) (Keeps.ite (mismatch_keeps _ _ _) (Keeps.ite (mismatch_keeps _ _ _) ?_))
    refine Keeps.both (steady_traced _) (equal32_keeps _ _) ?_
    exact Keeps.ite (mismatch_keeps _ _ _) (keeps_return true)
  · exact ⟨_, h.2 hok, hseen log'⟩

theorem saveRings_seen (l : List (Fin 9)) (d : PciRingSetup) :
    (every (l.map saveRing)).wp (fun log ok d' => d'.init = d.init ∧ (ok = true →
      ∀ i, (i ∈ l → Seen log i (d'.saved i)) ∧ (i ∉ l → d'.saved i = d.saved i))) d := by
  induction l generalizing d with
  | nil =>
      rw [List.map_nil, every, wp_pure]
      exact ⟨rfl, fun _ i => ⟨fun hi => absurd hi List.not_mem_nil, fun _ => rfl⟩⟩
  | cons i l ih =>
      rw [List.map_cons, every, wp_both]
      refine wp_mono (saveRing_seen i d) fun log ok d₁ h => ⟨fun hok => ?_, fun hok => ⟨h.1, nofun⟩⟩
      rcases h.2 hok with ⟨s, hsaved, hseen⟩
      refine wp_mono (ih d₁) fun log' ok' d' h' => ⟨h'.1.trans h.1, fun hok' j => ?_⟩
      have hlater : ∀ e ∈ log', e ∈ log ++ log' := fun e he => List.mem_append_right log he
      have hearlier : ∀ e ∈ log, e ∈ log ++ log' := fun e he => List.mem_append_left log' he
      have hkept := (h'.2 hok' j).2
      rw [hsaved] at hkept
      refine ⟨fun hj => ?_, fun hj => ?_⟩
      · by_cases hmem : j ∈ l
        · exact ((h'.2 hok' j).1 hmem).mono hlater
        · rcases List.mem_cons.1 hj with rfl | hj
          · rw [hkept hmem, Function.update_self]
            exact hseen.mono hearlier
          · exact absurd hj hmem
      · rw [List.mem_cons, not_or] at hj
        rw [hkept hj.2, Function.update_of_ne hj.1]

theorem opening_seen (d : PciRingSetup) :
    opening.wp (fun log ok d' => ok = true → .call (.read32 0x1000) d'.init ∈ log ∧ d'.init &&& 8 = 0 ∧
      ∀ i, Seen log i (d'.saved i)) d := by
  show (both safe (both clocks (both readInit (every ((List.finRange 9).map saveRing))))).wp _ d
  rw [wp_both]
  refine wp_of_outcome fun log₁ ok₁ d₁ _ => ⟨fun _ => ?_, fun _ => nofun⟩
  rw [wp_both]
  refine wp_of_outcome fun log₂ ok₂ d₂ _ => ⟨fun _ => ?_, fun _ => nofun⟩
  rw [wp_both]
  unfold readInit
  rw [wp_ask_bind]
  intro init
  rw [wp_modify_bind]
  by_cases hinit : init &&& 8 ≠ 0
  · rw [if_pos hinit, wp_mismatch]
    exact ⟨nofun, fun _ => nofun⟩
  · rw [if_neg hinit, wp_pure]
    refine ⟨fun _ => ?_, nofun⟩
    refine wp_mono (saveRings_seen (List.finRange 9) _) fun log ok d' h hok => ?_
    have hvalue : d'.init = init := h.1
    have hlater : ∀ e ∈ log, e ∈ log₁ ++ (log₂ ++ ([.call (.read32 0x1000) init] ++ log)) :=
      fun e he => List.mem_append_right _ (List.mem_append_right _ (List.mem_append_right _ he))
    refine ⟨?_, ?_, fun i => ((h.2 hok i).1 (List.mem_finRange i)).mono hlater⟩
    · rw [hvalue]
      exact List.mem_append_right _ (List.mem_append_right _ (List.mem_append_left _ List.mem_cons_self))
    · rw [hvalue]
      exact not_not.1 hinit

/-! ## What is saved is what the registers hold -/

structure Held (m : Memory) (i : Fin 9) (s : Snapshot) : Prop where
  low : s.low = m.cell (.word (ringRegisters i).low)
  high : s.high = m.cell (.word (ringRegisters i).high)
  count : s.count.toUInt32 = m.cell (.half (ringRegisters i).count)
  bdram : (ringRegisters i).bdram ≠ 0 → s.bdram = m.cell (.word (ringRegisters i).bdram)

theorem Seen.held {i : Fin 9} {s : Snapshot} (h : Seen log i s) (hacts : ∀ e ∈ log, Acts m e m) : Held m i s where
  low := (hacts _ h.low).2 (cell_saved (low_mem _))
  high := (hacts _ h.high).2 (cell_saved (high_mem _))
  count := (hacts _ h.count).2 (cell_saved (count_mem _))
  bdram hr := (hacts _ (h.bdram hr)).2 (cell_saved (bdram_mem hr))

theorem Held.cell {i : Fin 9} {s : Snapshot} (h : Held m i s) (h₀ : Held m₀ i s) {k : Register}
    (hk : k ∈ (ringRegisters i).cells) : m.cell k = m₀.cell k := by
  unfold RingRegisters.cells at hk
  by_cases hr : (ringRegisters i).bdram = 0
  · rw [if_pos hr, List.append_nil] at hk
    simp only [List.mem_cons, List.not_mem_nil, or_false] at hk
    rcases hk with rfl | rfl | rfl
    · exact h.high.symm.trans h₀.high
    · exact h.low.symm.trans h₀.low
    · exact h.count.symm.trans h₀.count
  · rw [if_neg hr] at hk
    simp only [List.cons_append, List.nil_append, List.mem_cons, List.not_mem_nil, or_false] at hk
    rcases hk with rfl | rfl | rfl | rfl
    · exact h.high.symm.trans h₀.high
    · exact h.low.symm.trans h₀.low
    · exact h.count.symm.trans h₀.count
    · exact (h.bdram hr).symm.trans (h₀.bdram hr)

/-- The snapshot is what the registers hold, and no reset is asked for. -/
structure Saved (d : PciRingSetup) (m : Memory) : Prop where
  init : d.init = m.cell (.word 0x1000)
  reset : d.init &&& 8 = 0
  rings : ∀ i, Held m i (d.saved i)

def Same (m₀ m : Memory) : Prop := ∀ k ∈ savedRegisters, m.cell k = m₀.cell k

variable {d d' : PciRingSetup}

theorem same_of_held (h₀ : Saved d m₀) (hinit : d.init = m.cell (.word 0x1000)) (hrings : ∀ i, Held m i (d.saved i)) :
    Same m₀ m := by
  intro k hk
  rcases List.mem_append.1 hk with hk | hk
  · rcases List.mem_flatMap.1 hk with ⟨i, -, hk⟩
    exact (hrings i).cell (h₀.rings i) hk
  · rw [List.mem_singleton.1 hk, ← hinit]
    exact h₀.init

theorem configure_saves {rings : Fin 9 → RingMemory} {ok : Bool} (hm : m.resetting = false) (hd : d.snapshot = false)
    (hout : (configure rings d).Outcome log (ok, d')) (hlog : Follows Acts m log m') (hsnapshot : d'.snapshot = true) :
    Saved d' m := by
  have hspec : (configure rings).wp (fun log _ d' => d'.snapshot = true →
      ∀ m', Follows Acts m log m' → Saved d' m) d := by
    have hfresh : ∀ {d₁ : PciRingSetup}, d₁.snapshot = d.snapshot → ¬ d₁.snapshot = true := by
      intro d₁ hsame htrue
      rw [hsame, hd] at htrue
      exact absurd htrue Bool.false_ne_true
    unfold configure
    rw [wp_get_bind]
    by_cases hattempted : d.result.attempted = true
    · rw [if_pos hattempted, wp_pure]
      exact fun htrue => absurd htrue (hfresh rfl)
    rw [if_neg hattempted, wp_modify_bind]
    by_cases haccepts : accepts rings = false
    · rw [if_pos haccepts, wp_pure]
      exact fun htrue => absurd htrue (hfresh rfl)
    rw [if_neg haccepts, wp_bind]
    unfold configureRings
    rw [wp_bind]
    generalize hd₀ : { d with result.attempted := true } = d₀
    have hd₀s : d₀.snapshot = d.snapshot := by rw [← hd₀]
    refine wp_mono (wp_and (wp_and (opening_keeps d₀) (opening_writeless d₀)) (opening_seen d₀)) fun log₁ ok₁ d₁ h => ?_
    rcases h with ⟨⟨hflags, hreads⟩, hseen⟩
    cases ok₁ with
    | false =>
        rw [if_neg Bool.false_ne_true, wp_pure, if_neg Bool.false_ne_true, wp_pure]
        exact fun htrue => absurd htrue (hfresh ((congrArg Prod.fst hflags.1).trans hd₀s))
    | true =>
        rw [if_pos rfl, wp_modify_bind, wp_get_bind]
        generalize hd₂ : { d₁ with snapshot := true } = d₂
        refine wp_mono (program_keeps d₂.saved d₂.init rings d₂) fun log₂ ok₂ d₃ h₂ => ?_
        rcases hseen rfl with ⟨hinit, hreset, hsaved⟩
        -- Everything that was saved was read before the first write.
        have hsaves : ∀ m' rest, Follows Acts m (log₁ ++ rest) m' → Saved d₃ m := by
          intro m' rest hall
          rcases follows_append.1 hall with ⟨m₁, hopening, -⟩
          have hacts := (follows_reads hm hreads hopening).2
          have hsame : d₃.saved = d₁.saved ∧ d₃.init = d₁.init := by
            have hs : d₃.saved = d₂.saved := congrArg (·.1) h₂.1
            have hi : d₃.init = d₂.init := congrArg (·.2.1) h₂.1
            rw [hs, hi, ← hd₂]
            exact ⟨rfl, rfl⟩
          refine ⟨?_, ?_, fun i => ?_⟩
          · rw [hsame.2]
            exact (hacts _ hinit).2 init_mem
          · rw [hsame.2]
            exact hreset
          · rw [hsame.1]
            exact (hsaved i).held hacts
        cases ok₂ with
        | true =>
            rw [if_pos rfl, wp_modify_bind, wp_pure]
            intro _ m' hall
            rw [List.append_assoc] at hall
            have h := hsaves m' _ hall
            exact ⟨h.init, h.reset, h.rings⟩
        | false =>
            rw [if_neg Bool.false_ne_true, wp_pure]
            intro _ m' hall
            rw [List.append_assoc] at hall
            exact hsaves m' _ hall
  exact wp_outcome hspec hout hsnapshot m' hlog

/-! ## What `restore` puts back -/

/-- Each of these happened, and the last one at the end. -/
theorem each_last {ι : Type} {K : ι → Trace → Prop} {K' : Trace → Prop} {f : ι → Setup Bool} {x : Setup Bool}
    (hf : ∀ i, Confirms (K i) (f i)) (hx : Confirms K' x) (l : List ι) :
    Confirms (fun log => (∀ i ∈ l, ∃ part, K i part ∧ ∀ e ∈ part, e ∈ log) ∧ ∃ pre part, log = pre ++ part ∧ K' part)
      (each (l.map f ++ [x])) := by
  induction l with
  | nil =>
      intro d
      show (do let ok ← x; let rest ← pure true; return ok && rest : Setup Bool).wp _ d
      rw [wp_bind]
      refine wp_mono (hx d) fun log ok d' h => ?_
      rw [wp_bind, wp_pure, wp_pure]
      intro hok
      rw [Bool.and_true] at hok
      refine ⟨fun i hi => absurd hi List.not_mem_nil, [], log, ?_, h hok⟩
      rw [List.append_nil, List.append_nil, List.nil_append]
  | cons i l ih =>
      intro d
      show (do let ok ← f i; let rest ← each (l.map f ++ [x]); return ok && rest : Setup Bool).wp _ d
      rw [wp_bind]
      refine wp_mono (hf i d) fun log ok d₁ h => ?_
      rw [wp_bind]
      refine wp_mono (ih d₁) fun log' ok' d₂ h' => ?_
      rw [wp_pure, List.append_nil, Bool.and_eq_true]
      rintro ⟨hok, hok'⟩
      rcases h' hok' with ⟨hall, pre, part, rfl, hlast⟩
      refine ⟨fun j hj => ?_, log ++ pre, part, (List.append_assoc _ _ _).symm, hlast⟩
      rcases List.mem_cons.1 hj with rfl | hj
      · exact ⟨log, h hok, fun e he => List.mem_append_left _ he⟩
      · rcases hall j hj with ⟨part', hK, hsub⟩
        exact ⟨part', hK, fun e he => List.mem_append_right log (hsub e he)⟩

theorem write32_confirms (a v : UInt32) :
    Confirms (fun log => ∃ c, log = c ++ [.call (.write32 a v) true]) (write32 a v) := by
  intro d
  unfold write32
  rw [wp_bind]
  refine wp_mono (safe_confirms d) fun log ok d₁ _ => ?_
  cases ok with
  | false =>
      rw [if_neg Bool.false_ne_true, wp_pure]
      exact fun hno => absurd hno Bool.false_ne_true
  | true =>
      rw [if_pos rfl, wp_modify_bind, wp_ask_bind]
      intro r
      cases r with
      | true =>
          rw [if_pos rfl, wp_pure]
          exact fun _ => ⟨log, rfl⟩
      | false =>
          rw [if_neg Bool.false_ne_true, wp_ask_bind]
          intro actual
          rw [wp_mismatch]
          exact fun hno => absurd hno Bool.false_ne_true

theorem ringBack_seen (saved : Fin 9 → Snapshot) (i : Fin 9) :
    Confirms (fun log => Seen log i (saved i)) (ringBack saved i) := by
  unfold ringBack
  dsimp only
  have hbdram : Confirms (fun log => (ringRegisters i).bdram ≠ 0 →
      .call (.read32 (ringRegisters i).bdram) (saved i).bdram ∈ log)
      (whereBdram (ringRegisters i) (equal32 (ringRegisters i).bdram (saved i).bdram)) := by
    unfold whereBdram
    by_cases hr : (ringRegisters i).bdram = 0
    · rw [if_pos hr]
      exact fun d => (wp_pure true).2 fun _ hno => absurd hr hno
    · rw [if_neg hr]
      exact (equal32_confirms _ _).mono fun log hlog _ => hlog ▸ List.mem_cons_self
  have hthree := Confirms.every (.cons (equal32_confirms (ringRegisters i).high (saved i).high)
    (.cons (equal32_confirms (ringRegisters i).low (saved i).low)
      (.cons (equal16_confirms (ringRegisters i).count (saved i).count) .nil)))
  refine (Confirms.each (.cons hthree (.cons hbdram .nil))).mono fun log hlog => ?_
  rcases hlog with _ | ⟨hfirst, _ | ⟨hsecond, _ | _⟩⟩
  rcases hfirst with _ | ⟨rfl, _ | ⟨rfl, _ | ⟨rfl, _ | _⟩⟩⟩
  exact ⟨by simp, by simp, by simp, fun hr => by simp [hsecond hr]⟩

theorem restoreRings_puts {saved : Fin 9 → Snapshot} {init : UInt32} (hreset : init &&& 8 = 0)
    (hout : (restoreRings saved init d).Outcome log (true, d')) (hlog : Follows Acts m log m') :
    init = m'.cell (.word 0x1000) ∧ ∀ i, Held m' i (saved i) := by
  have hspec : (restoreRings saved init).wp (fun log ok _ => ok = true →
      ∀ m', Follows Acts m log m' → init = m'.cell (.word 0x1000) ∧ ∀ i, Held m' i (saved i)) d := by
    unfold restoreRings
    rw [wp_bind]
    have hwritten : Confirms (fun log => ∃ pre, log = pre ++ [.call (.write32 0x1000 init) true])
        (each ((List.finRange 9).map (restoreRing saved) ++ [write32 0x1000 init])) := by
      refine (each_last (K := fun _ _ => True) (fun i d => wp_of_outcome fun _ _ _ _ _ => trivial)
        (write32_confirms 0x1000 init) (List.finRange 9)).mono ?_
      rintro log ⟨-, pre, part, rfl, c, rfl⟩
      exact ⟨pre ++ c, (List.append_assoc _ _ _).symm⟩
    refine wp_mono (hwritten d) fun log₁ written d₁ h₁ => ?_
    rw [wp_bind]
    have hback := each_last (fun i => ringBack_seen saved i) (equal32_confirms 0x1000 init) (List.finRange 9)
    refine wp_mono (wp_and (hback d₁) (back_writeless saved init d₁)) fun log₂ back d₂ h₂ => ?_
    cases hboth : written && back with
    | false =>
        rw [if_neg Bool.false_ne_true, wp_pure]
        exact fun hno => absurd hno Bool.false_ne_true
    | true =>
        rw [if_pos rfl]
        rw [Bool.and_eq_true] at hboth
        refine wp_mono (safe_writeless d₂) fun log₃ ok d₃ h₃ _ m' hall => ?_
        rcases h₁ hboth.1 with ⟨pre, rfl⟩
        rcases h₂ with ⟨hseen, hreads⟩
        rcases hseen hboth.2 with ⟨hrings, before, part, rfl, rfl⟩
        rcases follows_append.1 hall with ⟨m₁, hwrites, hrest⟩
        -- The last write takes back any reset that is pending.
        have hquiet : m₁.resetting = false := by
          rcases follows_append.1 hwrites with ⟨m₀, -, hlast⟩
          rcases follows_cons.1 hlast with ⟨m₂, hstore, hnil⟩
          have hstored : m₂ = m₀.store (.word 0x1000) init := hstore
          rw [follows_nil.1 hnil, hstored]
          show (if Register.word 0x1000 = .word 0x1000 then init &&& 8 != 0 else m₀.resetting) = false
          rw [if_pos rfl, hreset]
          rfl
        have hallReads : ∀ e ∈ before ++ [.call (.read32 0x1000) init] ++ log₃, isWrite e = false :=
          fun e he => (List.mem_append.1 he).elim (hreads e) (h₃ e)
        rcases follows_reads hquiet hallReads hrest with ⟨rfl, hacts⟩
        have hinit := hacts (.call (.read32 0x1000) init)
          (List.mem_append_left _ (List.mem_append_right _ List.mem_cons_self))
        refine ⟨hinit.2 init_mem, fun i => ?_⟩
        rcases hrings i (List.mem_finRange i) with ⟨part, hring, hsub⟩
        exact (hring.mono fun e he => List.mem_append_left log₃ (hsub e he)).held hacts
  exact wp_outcome hspec hout rfl m' hlog

/-! ## A calm device -/

/-- The device is stopped all the time, and no write fails. -/
def Calmly (m : Memory) (e : Event Io Reply Empty) (m' : Memory) : Prop := Acts m e m' ∧ calm e

/-- Nothing was written, but a reset may have ended. -/
def Near (m m' : Memory) : Prop :=
  (∀ k, k ≠ .word 0x1000 → m'.cell k = m.cell k) ∧ (m.resetting = false → m' = m)

theorem Near.refl (m : Memory) : Near m m := ⟨fun _ _ => rfl, fun _ => rfl⟩

theorem Near.trans {m'' : Memory} (h : Near m m') (h' : Near m' m'') : Near m m'' := by
  refine ⟨fun k hk => (h'.1 k hk).trans (h.1 k hk), fun hm => ?_⟩
  have hsame := h.2 hm
  rw [h'.2 (hsame ▸ hm), hsame]

theorem near_read (h : m' = m ∨ m.resetting = true ∧ m' = m.settled) : Near m m' := by
  rcases h with rfl | ⟨hreset, rfl⟩
  · exact Near.refl m'
  · refine ⟨fun k hk => Function.update_of_ne hk _ _, fun hm => ?_⟩
    rw [hm] at hreset
    exact absurd hreset Bool.false_ne_true

theorem masked_calmly {a : UInt32} (ha : a = 0x1a0 ∨ a = 0x10b0 ∨ a = 0x13b0) (m : Memory) (d : PciRingSetup) :
    under Calmly m (masked a) (fun m' ok _ => ok = true ∧ Near m m') d := by
  refine under_ask_bind fun mask m' hstep => ?_
  have hzero : mask = (0 : UInt32) := hstep.2.2.2.2 ha
  rw [if_pos hzero, under_pure]
  exact ⟨rfl, near_read hstep.1.1⟩

theorem safe_calmly (m : Memory) (d : PciRingSetup) :
    under Calmly m safe (fun m' ok _ => ok = true ∧ Near m m') d := by
  refine under_ask_bind fun command m₁ hcommand => ?_
  have hmaster : command &&& 6 = (2 : UInt16) := hcommand.2
  have hsame : m₁ = m := hcommand.1
  rw [if_neg (not_not.2 hmaster), hsame]
  refine under_ask_bind fun init m₂ hinit => under_ask_bind fun stop m₃ hstop => under_ask_bind fun busy m₄ hbusy => ?_
  have hinit' := hinit.2.1 rfl
  have hstop' := hstop.2.2.1 rfl
  have hbusy' := hbusy.2.2.2.1 rfl
  have hnear : Near m m₄ := (near_read hinit.1.1).trans ((near_read hstop.1.1).trans (near_read hbusy.1.1))
  rw [if_neg fun h => h.elim hinit'.1 fun h => h hinit'.2, if_neg fun h => h.elim hstop'.1 fun h => h hstop'.2,
    if_neg fun h => h.elim hbusy'.1 fun h => h hbusy'.2]
  refine under_both (under_mono (masked_calmly (.inl rfl) m₄ d) fun m₅ ok₁ d₁ h₁ => ⟨fun _ => ?_, fun hno => ?_⟩)
  · refine under_both (under_mono (masked_calmly (.inr (.inl rfl)) m₅ d₁) fun m₆ ok₂ d₂ h₂ => ⟨fun _ => ?_, fun hno => ?_⟩)
    · refine under_both (under_mono (masked_calmly (.inr (.inr rfl)) m₆ d₂) fun m₇ ok₃ d₃ h₃ => ⟨fun _ => ?_, fun hno => ?_⟩)
      · exact under_pure.2 ⟨rfl, hnear.trans (h₁.2.trans (h₂.2.trans h₃.2))⟩
      · exact absurd (hno.symm.trans h₃.1) Bool.false_ne_true
    · exact absurd (hno.symm.trans h₂.1) Bool.false_ne_true
  · exact absurd (hno.symm.trans h₁.1) Bool.false_ne_true

/-- One register was written, and a reset may have ended. -/
structure Stored (m : Memory) (k : Register) (v : UInt32) (m' : Memory) : Prop where
  cell : m'.cell k = v
  others : ∀ k', k' ≠ .word 0x1000 → k' ≠ k → m'.cell k' = m.cell k'
  reset : k = .word 0x1000 → m'.resetting = (v &&& 8 != 0)

theorem Near.stored {m₁ : Memory} (h : Near m m₁) (k : Register) (v : UInt32) : Stored m k v (m₁.store k v) where
  cell := Function.update_self _ _ _
  others k' hk' hne := (Function.update_of_ne hne _ _).trans (h.1 k' hk')
  reset hk := if_pos hk

theorem write_calmly {c : Io} {k : Register} {v : UInt32} {f : Reply c → Setup Bool} (m : Memory) (d : PciRingSetup)
    (hc : ∀ m r m', Calmly m (.call c r) m' → m' = m.store k v ∧ f r = pure true) :
    under Calmly m (do if ← safe then (do modify fun d => d.wrote; let r ← ask c; f r) else return false)
      (fun m' ok _ => ok = true ∧ Stored m k v m') d := by
  refine under_bind (under_mono (safe_calmly m d) fun m₁ ok d₁ h => ?_)
  rw [h.1, if_pos rfl, under_modify_bind]
  refine under_ask_bind fun r m' hstep => ?_
  rcases hc m₁ r m' hstep with ⟨rfl, hf⟩
  rw [hf, under_pure]
  exact ⟨rfl, h.2.stored k v⟩

theorem write32_calmly (a v : UInt32) (m : Memory) (d : PciRingSetup) :
    under Calmly m (write32 a v) (fun m' ok _ => ok = true ∧ Stored m (.word a) v m') d := by
  refine write_calmly (c := .write32 a v) m d fun m₁ r m' hstep => ?_
  have hr : r = true := hstep.2
  subst hr
  exact ⟨hstep.1, if_pos rfl⟩

theorem write16_calmly (a : UInt32) (v : UInt16) (m : Memory) (d : PciRingSetup) :
    under Calmly m (write16 a v) (fun m' ok _ => ok = true ∧ Stored m (.half a) v.toUInt32 m') d := by
  refine write_calmly (c := .write16 a v) m d fun m₁ r m' hstep => ?_
  have hr : r = true := hstep.2
  subst hr
  exact ⟨hstep.1, if_pos rfl⟩

/-- These registers hold what they held at first. -/
def Agree (m₀ : Memory) (P : Register → Prop) (m : Memory) : Prop :=
  ∀ k, P k → k ≠ .word 0x1000 → m.cell k = m₀.cell k

theorem Stored.agree {P : Register → Prop} {k : Register} {v : UInt32} (h : Stored m k v m') (hv : v = m₀.cell k)
    (hm : Agree m₀ P m) : Agree m₀ (fun k' => k' = k ∨ P k') m' := by
  intro k' hk' hne
  by_cases heq : k' = k
  · rw [heq, h.cell, hv]
  · rw [h.others k' hne heq]
    exact hm k' (hk'.resolve_left heq) hne

/-- `c` puts these registers back. -/
def Adds (m₀ : Memory) (P : Register → Prop) (c : Setup Bool) : Prop :=
  ∀ P' m d, Agree m₀ P' m → under Calmly m c (fun m' ok _ => ok = true ∧ Agree m₀ (fun k => P k ∨ P' k) m') d

theorem adds_write32 {a v : UInt32} (hv : v = m₀.cell (.word a)) : Adds m₀ (· = .word a) (write32 a v) :=
  fun _ m d hm => under_mono (write32_calmly a v m d) fun _ _ _ h => ⟨h.1, h.2.agree hv hm⟩

theorem adds_write16 {a : UInt32} {v : UInt16} (hv : v.toUInt32 = m₀.cell (.half a)) :
    Adds m₀ (· = .half a) (write16 a v) :=
  fun _ m d hm => under_mono (write16_calmly a v m d) fun _ _ _ h => ⟨h.1, h.2.agree hv hm⟩

theorem adds_nothing : Adds m₀ (fun _ => False) (pure true) := by
  intro P' m d hm
  rw [under_pure]
  exact ⟨rfl, fun k hk => hm k (hk.resolve_left not_false)⟩

theorem adds_each {P P' : Register → Prop} {c : Setup Bool} {cs : List (Setup Bool)} (hc : Adds m₀ P c)
    (hcs : Adds m₀ P' (each cs)) : Adds m₀ (fun k => P k ∨ P' k) (each (c :: cs)) := by
  intro P'' m d hm
  refine under_each_cons (under_mono (hc P'' m d hm) fun m₁ ok d₁ h => ?_)
  refine under_mono (hcs _ m₁ d₁ h.2) fun m₂ rest d₂ h' => ⟨by rw [h.1, h'.1]; rfl, fun k hk hne => h'.2 k ?_ hne⟩
  rcases hk with (hk | hk) | hk
  · exact .inr (.inl hk)
  · exact .inl hk
  · exact .inr (.inr hk)

theorem Adds.weaken {P P' : Register → Prop} {c : Setup Bool} (h : Adds m₀ P c) (hP : ∀ k, P' k → P k) :
    Adds m₀ P' c :=
  fun P'' m d hm => under_mono (h P'' m d hm) fun _ _ _ hpost =>
    ⟨hpost.1, fun k hk hne => hpost.2 k (hk.imp_left (hP k)) hne⟩

theorem restoreRing_adds {saved : Fin 9 → Snapshot} {i : Fin 9} (h : Held m₀ i (saved i)) :
    Adds m₀ (· ∈ (ringRegisters i).cells) (restoreRing saved i) := by
  have hbdram : Adds m₀ (fun k => (ringRegisters i).bdram ≠ 0 ∧ k = .word (ringRegisters i).bdram)
      (whereBdram (ringRegisters i) (write32 (ringRegisters i).bdram (saved i).bdram)) := by
    unfold whereBdram
    by_cases hr : (ringRegisters i).bdram = 0
    · rw [if_pos hr]
      exact adds_nothing.weaken fun k hk => hk.1 hr
    · rw [if_neg hr]
      exact (adds_write32 (h.bdram hr)).weaken fun k hk => hk.2
  have hall := adds_each (adds_write32 h.high) (adds_each (adds_write32 h.low) (adds_each (adds_write16 h.count)
    (adds_each hbdram (show Adds m₀ (fun _ => False) (each []) from adds_nothing))))
  refine Adds.weaken hall fun k hk => ?_
  unfold RingRegisters.cells at hk
  by_cases hr : (ringRegisters i).bdram = 0
  · rw [if_pos hr, List.append_nil] at hk
    simp only [List.mem_cons, List.not_mem_nil, or_false] at hk
    rcases hk with hk | hk | hk
    · exact .inl hk
    · exact .inr (.inl hk)
    · exact .inr (.inr (.inl hk))
  · rw [if_neg hr] at hk
    simp only [List.cons_append, List.nil_append, List.mem_cons, List.not_mem_nil, or_false] at hk
    rcases hk with hk | hk | hk | hk
    · exact .inl hk
    · exact .inr (.inl hk)
    · exact .inr (.inr (.inl hk))
    · exact .inr (.inr (.inr (.inl ⟨hr, hk⟩)))

theorem restores_calmly {saved : Fin 9 → Snapshot} (h : ∀ i, Held m₀ i (saved i)) {init : UInt32}
    (hreset : init &&& 8 = 0) (l : List (Fin 9)) :
    ∀ P m d, Agree m₀ P m → under Calmly m (each (l.map (restoreRing saved) ++ [write32 0x1000 init])) (fun m' ok _ =>
      ok = true ∧ Agree m₀ (fun k => (∃ i ∈ l, k ∈ (ringRegisters i).cells) ∨ P k) m' ∧
        m'.cell (.word 0x1000) = init ∧ m'.resetting = false) d := by
  induction l with
  | nil =>
      intro P m d hm
      refine under_each_cons (under_mono (write32_calmly 0x1000 init m d) fun m₁ ok d₁ hwrite => under_pure.2 ?_)
      refine ⟨by rw [hwrite.1]; rfl, fun k hk hne => ?_, hwrite.2.cell, ?_⟩
      · rw [hwrite.2.others k hne hne]
        refine hm k (hk.resolve_left ?_) hne
        rintro ⟨i, hi, -⟩
        exact List.not_mem_nil hi
      · rw [hwrite.2.reset rfl, hreset]
        rfl
  | cons i l ih =>
      intro P m d hm
      refine under_each_cons (under_mono (restoreRing_adds (h i) P m d hm) fun m₁ ok d₁ hring => ?_)
      refine under_mono (ih _ m₁ d₁ hring.2) fun m₂ rest d₂ hrest => ⟨by rw [hring.1, hrest.1]; rfl, ?_, hrest.2.2⟩
      intro k hk hne
      refine hrest.2.1 k ?_ hne
      rcases hk with ⟨j, hj, hk⟩ | hk
      · rcases List.mem_cons.1 hj with rfl | hj
        · exact .inr (.inl hk)
        · exact .inl ⟨j, hj, hk⟩
      · exact .inr (.inr hk)

/-- `c` finds what it looks for. -/
def Finds (m : Memory) (c : Setup Bool) : Prop := ∀ d, under Calmly m c (fun m' ok _ => ok = true ∧ m' = m) d

section Finds

variable {m : Memory}

theorem equal32_finds (hm : m.resetting = false) {a v : UInt32} (ha : .word a ∈ savedRegisters)
    (hv : v = m.cell (.word a)) : Finds m (equal32 a v) := by
  intro d
  refine under_ask_bind fun r m' hstep => ?_
  have hsame := acts_read hm rfl hstep.1
  subst hsame
  have hr : r = v := (hstep.1.2 ha).trans hv.symm
  rw [if_pos hr, under_pure]
  exact ⟨rfl, rfl⟩

theorem equal16_finds {a : UInt32} {v : UInt16} (ha : .half a ∈ savedRegisters) (hv : v.toUInt32 = m.cell (.half a)) :
    Finds m (equal16 a v) := by
  intro d
  refine under_ask_bind fun r m' hstep => ?_
  have hsame : m' = m := hstep.1.1
  subst hsame
  have hr : r = v := UInt16.toUInt32_inj.1 ((hstep.1.2 ha).trans hv.symm)
  rw [if_pos hr, under_pure]
  exact ⟨rfl, rfl⟩

theorem finds_pure : Finds m (pure true) := fun _ => under_pure.2 ⟨rfl, rfl⟩

theorem finds_every {cs : List (Setup Bool)} (h : ∀ c ∈ cs, Finds m c) : Finds m (every cs) := by
  induction cs with
  | nil => exact finds_pure
  | cons c cs ih =>
      intro d
      refine under_both (under_mono (h c List.mem_cons_self d) fun m₁ ok d₁ hc => ⟨fun _ => ?_, fun hno => ?_⟩)
      · rw [hc.2]
        exact ih (fun c' hc' => h c' (List.mem_cons_of_mem c hc')) d₁
      · exact absurd (hno.symm.trans hc.1) Bool.false_ne_true

theorem finds_each {cs : List (Setup Bool)} (h : ∀ c ∈ cs, Finds m c) : Finds m (each cs) := by
  induction cs with
  | nil => exact finds_pure
  | cons c cs ih =>
      intro d
      refine under_each_cons (under_mono (h c List.mem_cons_self d) fun m₁ ok d₁ hc => ?_)
      rw [hc.2, hc.1]
      exact under_mono (ih (fun c' hc' => h c' (List.mem_cons_of_mem c hc')) d₁) fun _ _ _ hrest => hrest

theorem ringBack_finds (hm : m.resetting = false) {saved : Fin 9 → Snapshot} {i : Fin 9} (h : Held m i (saved i)) :
    Finds m (ringBack saved i) := by
  refine finds_each fun c hc => ?_
  simp only [List.mem_cons, List.not_mem_nil, or_false] at hc
  rcases hc with rfl | rfl
  · refine finds_every fun c hc => ?_
    simp only [List.mem_cons, List.not_mem_nil, or_false] at hc
    rcases hc with rfl | rfl | rfl
    · exact equal32_finds hm (cell_saved (high_mem _)) h.high
    · exact equal32_finds hm (cell_saved (low_mem _)) h.low
    · exact equal16_finds (cell_saved (count_mem _)) h.count
  · unfold whereBdram
    by_cases hr : (ringRegisters i).bdram = 0
    · rw [if_pos hr]
      exact finds_pure
    · rw [if_neg hr]
      exact equal32_finds hm (cell_saved (bdram_mem hr)) (h.bdram hr)

end Finds

theorem init_notMem : ∀ i : Fin 9, .word 0x1000 ∉ (ringRegisters i).cells := by decide

/-- From whatever the registers hold, `restore` says so on a calm device. -/
theorem restore_succeeds (hsnapshot : d.snapshot = true) (h₀ : Saved d m₀) (m : Memory) :
    under Calmly m restore (fun _ ok _ => ok = true) d := by
  unfold restore
  rw [under_get_bind, if_neg (by rw [hsnapshot]; exact nofun)]
  refine under_bind (under_mono (safe_calmly m d) fun m₁ ok d₁ hsafe => ?_)
  rw [hsafe.1, if_pos rfl]
  refine under_bind ?_
  unfold restoreRings
  have hagree : Agree m₀ (fun _ => False) m₁ := fun k hk => absurd hk not_false
  refine under_bind (under_mono (restores_calmly h₀.rings h₀.reset (List.finRange 9) _ m₁ d₁ hagree)
    fun m₂ written d₂ hwritten => ?_)
  rcases hwritten with ⟨rfl, hcells, hinit, hquiet⟩
  have hheld : ∀ i, Held m₂ i (d.saved i) := by
    intro i
    have hcell : ∀ k ∈ (ringRegisters i).cells, m₀.cell k = m₂.cell k := by
      intro k hk
      refine (hcells k (.inl ⟨i, List.mem_finRange i, hk⟩) fun heq => init_notMem i (heq ▸ hk)).symm
    have h := h₀.rings i
    exact ⟨h.low.trans (hcell _ (low_mem _)), h.high.trans (hcell _ (high_mem _)), h.count.trans (hcell _ (count_mem _)),
      fun hr => (h.bdram hr).trans (hcell _ (bdram_mem hr))⟩
  have hback : Finds m₂ (each ((List.finRange 9).map (ringBack d.saved) ++ [equal32 0x1000 d.init])) := by
    refine finds_each fun c hc => ?_
    rcases List.mem_append.1 hc with hc | hc
    · rcases List.mem_map.1 hc with ⟨i, -, rfl⟩
      exact ringBack_finds hquiet (hheld i)
    · rw [List.mem_singleton.1 hc]
      exact equal32_finds hquiet init_mem hinit.symm
  refine under_bind (under_mono (hback d₂) fun m₃ back d₃ hfound => ?_)
  rcases hfound with ⟨rfl, rfl⟩
  rw [Bool.and_true, if_pos rfl]
  refine under_mono (safe_calmly _ d₃) fun m₄ ok d₄ hlast => ?_
  rw [under_modify_bind, under_pure]
  exact hlast.1

/-! ## Runs -/

theorem restore_guarded : restore.Keeps (Steady PciRingSetup.core) := by
  refine Keeps.get_bind fun d => Keeps.ite (keeps_return false) ?_
  refine Keeps.bind (steady_traced _) safe_keeps fun ok => Keeps.ite ?_ (keeps_return false)
  refine Keeps.bind (steady_traced _) (restoreRings_keeps d.saved d.init) fun ok => ?_
  exact keeps_modify (fun _ => rfl) (keeps_return ok)

/-- What `configure` does: a second time nothing. -/
theorem configure_spec (rings : Fin 9 → RingMemory) (d : PciRingSetup) :
    (configure rings).wp (fun log ok d' => Guarded log ∧ d'.result.attempted = true ∧
      (d.result.attempted = true → ok = false ∧ log = [] ∧ d' = d) ∧ (ok = true → ReadBack rings log d')) d := by
  have hnil : Guarded [] := guarded_of_writeless fun _ he => absurd he List.not_mem_nil
  unfold configure
  rw [wp_get_bind]
  by_cases hattempted : d.result.attempted = true
  · rw [if_pos hattempted, wp_pure]
    exact ⟨hnil, hattempted, fun _ => ⟨rfl, rfl, rfl⟩, nofun⟩
  rw [if_neg hattempted, wp_modify_bind]
  by_cases haccepts : accepts rings = false
  · rw [if_pos haccepts, wp_pure]
    exact ⟨hnil, rfl, fun h => absurd h hattempted, nofun⟩
  rw [if_neg haccepts, wp_bind]
  refine wp_mono (configureRings_spec rings _) fun log ok d' h => ?_
  cases ok with
  | true =>
      rw [if_pos rfl, wp_modify_bind, wp_pure, List.append_nil]
      have hback := h.2.2 rfl
      exact ⟨h.1, h.2.1, fun hno => absurd hno hattempted, fun _ => ⟨hback.snapshot, hback.held, hback.ends⟩⟩
  | false =>
      rw [if_neg Bool.false_ne_true, wp_pure, List.append_nil]
      exact ⟨h.1, h.2.1, fun hno => absurd hno hattempted, nofun⟩

/-- Without a snapshot `restore` does nothing. -/
theorem restore_idle {ok : Bool} (hd : d.snapshot = false) (hout : (restore d).Outcome log (ok, d')) :
    ok = false ∧ log = [] ∧ d' = d := by
  have hspec : restore.wp (fun log ok d' => ok = false ∧ log = [] ∧ d' = d) d := by
    unfold restore
    rw [wp_get_bind, if_pos hd, wp_pure]
    exact ⟨rfl, rfl, rfl⟩
  exact wp_outcome hspec hout

theorem restore_puts (h₀ : Saved d m₀) (hout : (restore d).Outcome log (true, d')) (hlog : Follows Acts m log m') :
    Same m₀ m' := by
  have hspec : restore.wp (fun log ok _ => ok = true → ∀ m', Follows Acts m log m' → Same m₀ m') d := by
    unfold restore
    rw [wp_get_bind]
    by_cases hsnapshot : d.snapshot = false
    · rw [if_pos hsnapshot, wp_pure]
      exact fun hno => absurd hno Bool.false_ne_true
    rw [if_neg hsnapshot, wp_bind]
    refine wp_of_outcome fun log₁ ok₁ d₁ _ => ?_
    cases ok₁ with
    | false =>
        rw [if_neg Bool.false_ne_true, wp_pure]
        exact fun hno => absurd hno Bool.false_ne_true
    | true =>
        rw [if_pos rfl, wp_bind]
        refine wp_of_outcome fun log₂ ok₂ d₂ hrings => ?_
        rw [wp_modify_bind, wp_pure, List.append_nil]
        intro hok m' hall
        rcases follows_append.1 hall with ⟨m₁, -, hrest⟩
        rw [hok] at hrings
        rcases restoreRings_puts h₀.reset hrings hrest with ⟨hinit, hheld⟩
        exact same_of_held h₀ hinit hheld
  exact wp_outcome hspec hout rfl m' hlog

theorem waitReset_spends (init : UInt32) : Spends isCall 605 (waitReset init) := by
  have hmismatch : ∀ a e v, Spends isCall 0 (mismatch a e v) := fun a e v => Spends.modify_bind (Spends.pure false)
  have hunreset : Spends isCall 1 (unreset init) :=
    Spends.ask_bind (n := 1) (k := 0) (fun _ => Nat.le_refl 1) fun _ => hmismatch _ _ _
  have hrounds : ∀ begin_ rounds previous, Spends isCall (rounds * 3 + 1) (resetFrom init begin_ previous rounds) := by
    intro begin_ rounds
    induction rounds with
    | zero => exact fun _ => hunreset
    | succ rounds ih =>
        intro previous
        refine Spends.mono (n := 1 + (1 + (1 + (rounds * 3 + 1)))) ?_ (by omega)
        refine Spends.ask_bind (fun _ => Nat.le_refl 1) fun now => ?_
        refine Spends.ite (hunreset.mono (by omega)) (Spends.ask_bind (fun _ => Nat.le_refl 1) fun value => ?_)
        refine Spends.modify_bind (Spends.ite ((hmismatch _ _ _).mono (Nat.zero_le _)) (Spends.ite (Spends.pure true) ?_))
        exact Spends.ask_bind (fun _ => Nat.le_refl 1) fun _ => ih now
  exact Spends.ask_bind (n := 1) (k := 604) (fun _ => Nat.le_refl 1) fun begin_ => hrounds begin_ 201 begin_

abbrev Calls := List (Record PciRingSetup Io Reply Empty Op Bool)

/-- What a run leaves in the record and in the device. -/
structure Inv (m₀ : Memory) (d : PciRingSetup) (m : Memory) : Prop where
  untouched : d.snapshot = false → d.result.attempted = false → m = m₀
  snapshot : d.result.attempted = false → d.snapshot = false
  saved : d.snapshot = true → Saved d m₀

theorem run_inv (hm₀ : m₀.resetting = false) {h : Calls} (hrun : Run exec {} h d) :
    ∀ m, Follows Acts m₀ (eventsOf h) m → Inv m₀ d m := by
  refine Run.invariant (P := fun h d => ∀ m, Follows Acts m₀ (eventsOf h) m → Inv m₀ d m) ?_ ?_ hrun
  · intro m hlog
    exact ⟨fun _ _ => follows_nil.1 hlog, fun _ => rfl, fun hno => absurd hno Bool.false_ne_true⟩
  · intro h d d' op log ok _ ih hout m hall
    rcases follows_append.1 hall with ⟨m₁, hbefore, hlog⟩
    have hinv := ih m₁ hbefore
    cases op with
    | configure rings =>
        rcases wp_outcome (configure_spec rings d) hout with ⟨-, hattempted', hagain, -⟩
        have hnot : ¬ d'.result.attempted = false := fun hno => Bool.false_ne_true (hno.symm.trans hattempted')
        refine ⟨fun _ hno => absurd hno hnot, fun hno => absurd hno hnot, fun hsnapshot => ?_⟩
        cases hattempted : d.result.attempted with
        | true =>
            rcases hagain hattempted with ⟨-, -, rfl⟩
            exact hinv.saved hsnapshot
        | false =>
            have hfresh := hinv.snapshot hattempted
            rw [hinv.untouched hfresh hattempted] at hlog
            exact configure_saves hm₀ hfresh hout hlog hsnapshot
    | restore =>
        have hcore := (wp_outcome (restore_guarded d) hout).1
        have hsaved : d'.saved = d.saved := congrArg (·.1) hcore
        have hinit : d'.init = d.init := congrArg (·.2.1) hcore
        have hsnapshot : d'.snapshot = d.snapshot := congrArg (·.2.2.1) hcore
        have hattempted : d'.result.attempted = d.result.attempted := congrArg (·.2.2.2) hcore
        refine ⟨fun hno hnot => ?_, fun hno => ?_, fun hyes => ?_⟩
        · rw [hsnapshot] at hno
          rcases restore_idle hno hout with ⟨-, rfl, rfl⟩
          rw [follows_nil.1 hlog]
          exact hinv.untouched hno hnot
        · rw [hsnapshot]
          exact hinv.snapshot (hattempted ▸ hno)
        · have h := hinv.saved (hsnapshot ▸ hyes)
          exact ⟨hinit ▸ h.init, hinit ▸ h.reset, fun i => hsaved ▸ h.rings i⟩

/-- The saved registers come back from wherever `configure` stopped. -/
theorem ring_setup_rolls_back :
    (∀ (h : Calls) (d : PciRingSetup), Run exec {} h d → ∀ x ∈ h, Guarded x.log ∧
      ∀ rings, x.op = .configure rings → x.result = true → ReadBack rings x.log x.after) ∧
    (∀ (h : Calls) (x : Record PciRingSetup Io Reply Empty Op Bool) (d : PciRingSetup) (m₀ m : Memory),
      Run exec {} (x :: h) d → m₀.resetting = false → Follows Acts m₀ (eventsOf (x :: h)) m →
        (x.op ≠ .restore → x.result = true → Saved d m₀) ∧ (x.op = .restore → (x.result = true → Same m₀ m) ∧
          (x.before.snapshot = true → (∀ e ∈ x.log, calm e) → x.result = true))) ∧
    (∀ (later earlier : Calls) (x : Record PciRingSetup Io Reply Empty Op Bool) (d : PciRingSetup),
      Run exec {} (later ++ x :: earlier) d → x.op ≠ .restore →
        ∀ y ∈ later, y.op ≠ .restore → y.result = false ∧ y.log = []) ∧
    ∀ init, Spends isCall 605 (waitReset init) := by
  refine ⟨fun h d hrun x hx => ?_, fun h x d m₀ m hrun hm₀ hlog => ⟨fun hop hok => ?_, fun hop => ?_⟩, fun later earlier x d hrun hop y hy hyop => ?_,
    waitReset_spends⟩
  · have hout := hrun.outcome hx
    rcases x with ⟨before, op, log, ok, after⟩
    cases op with
    | configure rings =>
        rcases wp_outcome (configure_spec rings before) hout with ⟨hguarded, -, -, hback⟩
        refine ⟨hguarded, fun rings' heq hok => ?_⟩
        cases heq
        exact hback hok
    | restore => exact ⟨(wp_outcome (restore_guarded before) hout).2, fun _ heq => nomatch heq⟩
  · refine (run_inv hm₀ hrun m hlog).saved ?_
    rcases hrun.tail with ⟨-, rfl, hout⟩
    rcases x with ⟨before, op, log, ok, after⟩
    cases op with
    | configure rings => exact ((wp_outcome (configure_spec rings before) hout).2.2.2 hok).snapshot
    | restore => exact absurd rfl hop
  · rcases hrun.tail with ⟨hbefore, rfl, hout⟩
    rcases x with ⟨before, op, log, ok, after⟩
    have hrestore : op = .restore := hop
    subst hrestore
    rcases follows_append.1 hlog with ⟨m₁, hearlier, hcall⟩
    have hinv := run_inv hm₀ hbefore m₁ hearlier
    refine ⟨fun hok => ?_, fun hsnapshot hcalm => ?_⟩
    · have htrue : ok = true := hok
      subst htrue
      cases hsnapshot : before.snapshot with
      | true => exact restore_puts (hinv.saved hsnapshot) hout hcall
      | false => exact absurd (restore_idle hsnapshot hout).1.symm Bool.false_ne_true
    · have hcalmly : Follows Calmly m₁ log m := hcall.given hcalm
      exact wp_outcome (restore_succeeds hsnapshot (hinv.saved hsnapshot) m₁) hout m hcalmly
  · have hstable : ∀ {s s' : PciRingSetup} {op : Op} {log : Trace} {r : Bool}, s.result.attempted = true →
        (exec op s).Outcome log (r, s') → s'.result.attempted = true := by
      intro s s' op log r hs hout
      cases op with
      | configure rings => exact (wp_outcome (configure_spec rings s) hout).2.1
      | restore => exact (congrArg (·.2.2.2) (wp_outcome (restore_guarded s) hout).1).trans hs
    have hx := (Run.drop hrun).tail.2.2
    have hattempted : x.after.result.attempted = true := by
      rcases x with ⟨before, op, log, ok, after⟩
      cases op with
      | configure rings => exact (wp_outcome (configure_spec rings before) hx).2.1
      | restore => exact absurd rfl hop
    have hbefore := (Run.stable hstable later hattempted hrun).2 y hy
    have hout := hrun.outcome (List.mem_append_left _ hy)
    rcases y with ⟨before, op, log, ok, after⟩
    cases op with
    | configure rings =>
        rcases (wp_outcome (configure_spec rings before) hout).2.2.1 hbefore with ⟨hok, hlog, -⟩
        exact ⟨hok, hlog⟩
    | restore => exact absurd rfl hyop

/-! ## A device -/

/-- A device on which the rings can be set up; the other registers are zero. -/
def idleMemory : Memory where
  cell := fun k => if k = .word 0x1010 then 0x1f0f00 else if k = .word 0x8380 then 3 else 0

/-- It takes the reset bit back with the next read. -/
def memoryIo : (c : Io) → Memory → Reply c × Memory
  | .command, m => ((2 : UInt16), m)
  | .read32 a, m =>
      let m := if m.resetting then m.settled else m
      (m.cell (.word a), m)
  | .read16 a, m => ((m.cell (.half a)).toUInt16, m)
  | .write32 a v, m => (true, m.store (.word a) v)
  | .write16 a v, m => (true, m.store (.half a) v.toUInt32)
  | .nowUs, m => ((0 : UInt64), m)
  | .pauseUs _, m => ((), m)

def Halved (m : Memory) : Prop := ∀ a, (m.cell (.half a)).toUInt16.toUInt32 = m.cell (.half a)

theorem memoryIo_acts (c : Io) (hm : Halved m) :
    Acts m (.call c (memoryIo c m).1) (memoryIo c m).2 ∧ Halved (memoryIo c m).2 := by
  cases c with
  | command => exact ⟨rfl, hm⟩
  | read32 a =>
      cases hresetting : m.resetting with
      | false => simp [memoryIo, Acts, hresetting, hm]
      | true =>
          simp only [memoryIo, Acts, hresetting, if_true, true_and, or_true, implies_true]
          exact hm
  | read16 a => exact ⟨⟨rfl, fun _ => hm a⟩, hm⟩
  | write32 a v => exact ⟨by simp [Acts, memoryIo], hm⟩
  | write16 a v =>
      refine ⟨by simp [Acts, memoryIo], fun b => ?_⟩
      by_cases hb : b = a
      · subst hb
        simp [memoryIo, Memory.store]
      · have hne : Register.half b ≠ .half a := fun heq => hb (Register.half.inj heq)
        simp only [memoryIo, Memory.store, Function.update_of_ne hne]
        exact hm b
  | nowUs => exact ⟨rfl, hm⟩
  | pauseUs us => exact ⟨rfl, hm⟩

theorem memoryIo_follows {α : Type} (p : Prog Io Reply Empty α) (hm : Halved m) {x : Trace × α × Memory}
    (hx : x = p.run memoryIo m) :
    p.Outcome x.1 x.2.1 ∧ Follows Acts m x.1 x.2.2 ∧ Halved x.2.2 := by
  rw [hx]
  refine ⟨Prog.run_outcome memoryIo p m, Prog.Answered.follows (h := memoryIo) (fun c b hb => memoryIo_acts c hb)
    (fun n => ?_) _ m _ hm (Prog.run_answered memoryIo p m)⟩
  exact nomatch n

def someRings : Fin 9 → RingMemory := fun i => ⟨0x10000 + 0x1000 * UInt64.ofNat i.val, 4⟩

def setUp : Trace × (Bool × PciRingSetup) × Memory := (configure someRings {}).run memoryIo idleMemory

def putBack : Trace × (Bool × PciRingSetup) × Memory := (restore setUp.2.1.2).run memoryIo setUp.2.2

/-- The rings are set up, and then the registers hold again what they held. -/
theorem ring_setup_rolls_back_idle :
    setUp.2.1.1 = true ∧ setUp.2.2.cell (.word 0x1110) = 0x10000 ∧ putBack.2.1.1 = true ∧
      Same idleMemory putBack.2.2 := by
  have hfirst : setUp.2.1.1 = true ∧ setUp.2.2.cell (.word 0x1110) = 0x10000 := by decide +kernel
  have hsecond : putBack.2.1.1 = true := by decide +kernel
  -- Of any two calls, so that these two are not evaluated again.
  have hback : ∀ {m : Memory} {x y : Trace × (Bool × PciRingSetup) × Memory}, Halved m → m.resetting = false →
      x = (configure someRings {}).run memoryIo m → y = (restore x.2.1.2).run memoryIo x.2.2 →
      y.2.1.1 = true → Same m y.2.2 := by
    rintro m ⟨log, ⟨ok, d⟩, m₁⟩ ⟨log', ⟨ok', d'⟩, m₂⟩ hm hreset hx hy hok
    rcases memoryIo_follows _ hm hx with ⟨hout, hlog, hm₁⟩
    rcases memoryIo_follows _ hm₁ hy with ⟨hout', hlog', -⟩
    have hrun : Run exec {} [⟨d, .restore, log', ok', d'⟩, ⟨{}, .configure someRings, log, ok, d⟩] d' :=
      .call (.call .nil hout) hout'
    rcases ring_setup_rolls_back.2.1 _ _ _ _ _ hrun hreset (follows_append.2 ⟨_, hlog, hlog'⟩) with ⟨-, hsame⟩
    exact (hsame rfl).1 hok
  exact ⟨hfirst.1, hfirst.2, hsecond, @hback idleMemory setUp putBack (fun _ => rfl) rfl rfl rfl hsecond⟩

end PciRing
end Rtl8852be
