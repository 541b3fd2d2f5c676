import Rtl8852be.Pci.Doorbells

/-!
# StopProof — what a stop has shown

A true result of `stop` allows the owner to release memory that the device could write.  It has been
shown by the device within the call, and after the bus master was cut off where that matters.

* `Steady` — the steps of `stop` that leave the PCI command and the busy register alone;
* `poll_polled` — the loop reads the busy register a bounded number of times, whatever the clock does;
* `unmaster_cut` — the bus master is cut off, or the device is gone;
* `dma_stop_proof` — what holds of every call of `stop`, and of every run after one that failed.
-/

namespace Rtl8852be
namespace Pci
namespace PciRuntime

open Interaction Network Code

variable {s s' s'' : PciRuntime} {log log' : Trace} {ok : Bool}

/-! ## Steps that leave the rest alone -/

def Event.configures : Event Access Reply Mark → Bool
  | .call .command _ => true
  | .call (.writeCommand _) _ => true
  | _ => false

def Event.polls : Event Access Reply Mark → Bool
  | .call (.read32 a) _ => a == 0x101c
  | _ => false

/-- How often the busy register was read. -/
def busyReads (log : Trace) : ℕ := log.countP Event.polls

@[simp] theorem busyReads_append : busyReads (log ++ log') = busyReads log + busyReads log' :=
  List.countP_append

/-- Neither the PCI command nor the busy register is touched, and what is known of them is kept. -/
structure Steady (s : PciRuntime) (log : Trace) (s' : PciRuntime) : Prop where
  idle : s'.result.idle = s.result.idle
  masterOff : s'.result.masterOff = s.result.masterOff
  configures : ∀ e ∈ log, Event.configures e = false
  polls : ∀ e ∈ log, Event.polls e = false

theorem steady_traced : Traced Steady where
  refl := by
    intro s
    exact ⟨rfl, rfl, by simp, by simp⟩
  trans := by
    intro s s' s'' log log' h h'
    refine ⟨h'.idle.trans h.idle, h'.masterOff.trans h.masterOff, ?_, ?_⟩
    · intro e he
      rcases List.mem_append.1 he with he | he
      · exact h.configures e he
      · exact h'.configures e he
    · intro e he
      rcases List.mem_append.1 he with he | he
      · exact h.polls e he
      · exact h'.polls e he

theorem Steady.busyReads (h : Steady s log s') : busyReads log = 0 := by
  apply List.countP_eq_zero.2
  intro e he
  rw [h.polls e he]
  exact nofun

theorem steady_event {e : Event Access Reply Mark} (hconfigures : Event.configures e = false)
    (hpolls : Event.polls e = false) (hidle : s'.result.idle = s.result.idle)
    (hmaster : s'.result.masterOff = s.result.masterOff) : Steady s [e] s' :=
  ⟨hidle, hmaster, by simpa using hconfigures, by simpa using hpolls⟩

theorem fail_steady (a expected actual : UInt32) : Keeps Steady (fail a expected actual) := by
  intro s
  rw [wp_fail]
  apply steady_event rfl rfl
  · show (if _ then _ else _ : RuntimeResult).idle = _
    split
    · rfl
    · rfl
  · show (if _ then _ else _ : RuntimeResult).masterOff = _
    split
    · rfl
    · rfl

theorem read_steady {a : UInt32} (ha : a ≠ 0x101c) (v : UInt32) (s : PciRuntime) :
    Steady s [.call (.read32 a) v] s := by
  apply steady_event rfl _ rfl rfl
  simpa [Event.polls] using ha

theorem equal_steady {a : UInt32} (ha : a ≠ 0x101c) (mask expected : UInt32) :
    Keeps Steady (equal a mask expected) :=
  Keeps.ask_bind steady_traced (fun s v => read_steady ha v s) fun _ =>
    Keeps.ite (Keeps.pure steady_traced true) (fail_steady _ _ _)

theorem write_steady (a value : UInt32) : Keeps Steady (write a value) :=
  Keeps.ask_bind steady_traced (fun _ _ => steady_event rfl rfl rfl rfl) fun _ =>
    Keeps.ite (Keeps.pure steady_traced true) (fail_steady _ _ _)

theorem modifyRegister_steady {a : UInt32} (ha : a ≠ 0x101c) (mask value : UInt32) :
    Keeps Steady (modifyRegister a mask value) :=
  Keeps.ask_bind steady_traced (fun s v => read_steady ha v s) fun _ =>
    Keeps.ite (fail_steady _ _ _)
      (Keeps.both steady_traced (write_steady _ _) (equal_steady ha mask value))

theorem maskInterrupts_steady : Keeps Steady maskInterrupts := by
  have hmasks : ∀ i, irqMasks i ≠ 0x101c := by decide
  refine Keeps.bind steady_traced (Keeps.each steady_traced ?_) fun wrote => ?_
  · intro m hm
    rcases List.mem_map.1 hm with ⟨i, -, rfl⟩
    exact write_steady _ _
  refine Keeps.bind steady_traced (Keeps.each steady_traced ?_) fun read => ?_
  · intro m hm
    rcases List.mem_map.1 hm with ⟨i, -, rfl⟩
    exact equal_steady (hmasks i) _ _
  · exact Keeps.modify_bind steady_traced (fun _ => ⟨rfl, rfl, nofun, nofun⟩)
      (Keeps.pure steady_traced _)

/-! ## The loop -/

/-- A busy register that shows all channels at rest. -/
def Rested (log : Trace) : Prop :=
  ∃ busy : UInt32, .call (.read32 0x101c) busy ∈ log ∧ bad busy = false ∧ busy &&& runtimeBusyMask = 0

/-- What at most `n` rounds of the loop have done. -/
structure Polled (n : ℕ) (s : PciRuntime) (log : Trace) (s' : PciRuntime) : Prop where
  reads : busyReads log ≤ n
  configures : ∀ e ∈ log, Event.configures e = false
  rested : s'.result.idle = true → s.result.idle = true ∨ Rested log

theorem polled_nil (n : ℕ) (s : PciRuntime) : Polled n s [] s := ⟨Nat.zero_le n, nofun, Or.inl⟩

theorem poll_polled (start : UInt64) (n : ℕ) :
    ∀ (previous : UInt64) (s : PciRuntime),
      (poll start n previous).wp (fun log _ s' => Polled n s log s') s := by
  induction n with
  | zero =>
      intro previous s
      rw [poll, wp_pure]
      exact polled_nil 0 s
  | succ n ih =>
      intro previous s
      rw [poll, wp_nowUs]
      intro now
      rw [wp_ite]
      refine ⟨fun _ => ?_, fun _ => ?_⟩
      · rw [wp_pure]
        exact ⟨Nat.zero_le _, by simp [Event.configures], Or.inl⟩
      rw [wp_read32]
      intro busy
      rw [wp_modify_bind, wp_ite]
      refine ⟨fun _ => ?_, fun hgood => ?_⟩
      · rw [wp_pure]
        exact ⟨by simp [busyReads, Event.polls], by simp [Event.configures], Or.inl⟩
      rw [wp_ite]
      refine ⟨fun hrest => ?_, fun _ => ?_⟩
      · rw [wp_modify_bind, wp_pure]
        refine ⟨by simp [busyReads, Event.polls], by simp [Event.configures], fun _ => Or.inr ?_⟩
        exact ⟨busy, by simp, by simpa using hgood, hrest⟩
      · rw [wp_pauseUs]
        intro _
        apply wp_mono (ih now (setPolled busy s))
        intro log _ s' h
        refine ⟨?_, ?_, ?_⟩
        · have hreads := h.reads
          simp only [busyReads, Event.polls, List.countP_cons] at hreads ⊢
          simpa using hreads
        · simpa [Event.configures] using h.configures
        · intro hidle
          rcases h.rested hidle with hidle | ⟨v, hv, hquiet⟩
          · exact Or.inl hidle
          · exact Or.inr ⟨v, by simp [hv], hquiet⟩

/-! ## The cutoff -/

/-- How the bus master is cut off. -/
inductive Cut : Trace → Bool → Prop
  /-- The device is gone. -/
  | absent : Cut [.call .command 0xffff] false
  /-- The write fails, or reads back as something else. -/
  | unconfirmed (cmd actual : UInt16) (wrote : Bool) (hcmd : cmd ≠ 0xffff) :
      Cut [.call .command cmd, .call (.writeCommand (cmd &&& ~~~4)) wrote, .call .command actual,
        .note .fault] false
  | confirmed (cmd after : UInt16) (hcmd : cmd ≠ 0xffff) :
      Cut [.call .command cmd, .call (.writeCommand (cmd &&& ~~~4)) true,
        .call .command (cmd &&& ~~~4), .call .command after] (after &&& 4 == 0)

theorem Cut.busyReads {cutoff : Trace} (h : Cut cutoff ok) : busyReads cutoff = 0 := by
  cases h with
  | absent => rfl
  | unconfirmed cmd actual wrote hcmd => rfl
  | confirmed cmd after hcmd => rfl

theorem unmaster_cut (s : PciRuntime) :
    unmaster.wp (fun log ok s' => Cut log ok ∧ s'.result.idle = s.result.idle) s := by
  rw [unmaster, wp_readCommand]
  intro cmd
  rw [wp_ite]
  refine ⟨?_, ?_⟩
  · rintro rfl
    rw [wp_pure]
    exact ⟨Cut.absent, rfl⟩
  intro hcmd
  rw [command, wp_bind, wp_writeCommand]
  intro wrote
  rw [wp_readCommand]
  intro actual
  rw [wp_ite]
  refine ⟨?_, ?_⟩
  · intro hconfirmed
    simp only [Bool.and_eq_true, beq_iff_eq] at hconfirmed
    rcases hconfirmed with ⟨rfl, rfl⟩
    rw [wp_pure, if_pos rfl, wp_readCommand]
    intro after
    rw [wp_pure]
    exact ⟨Cut.confirmed cmd after hcmd, rfl⟩
  · intro _
    rw [wp_fail, if_neg Bool.false_ne_true, wp_pure]
    refine ⟨Cut.unconfirmed cmd actual wrote hcmd, ?_⟩
    show (if _ then _ else _ : RuntimeResult).idle = _
    split
    · rfl
    · rfl

/-! ## `stop` -/

/-- What the registers show after the cutoff. -/
def handoffSeen : List Seen :=
  [.found 0x1000 0x2800 0, .found 0x1010 runtimeStopMask runtimeStopMask] ++ maskedSeen

/-- The cutoff in the course of a call, and what is shown before and after it. -/
structure CutOff (log : Trace) (off : Bool) (Before After : Trace → Prop) : Prop where
  parts : ∃ early cutoff late, log = early ++ (cutoff ++ late) ∧ Cut cutoff off ∧
    (∀ e ∈ early, Event.configures e = false) ∧ (∀ e ∈ late, Event.configures e = false) ∧
    Before early ∧ After late
  polls : busyReads log ≤ 201

theorem stillStopped_confirms :
    Confirms (Met [.found 0x1000 0x2800 0, .found 0x1010 runtimeStopMask runtimeStopMask])
      (both (equal 0x1000 0x2800 0) (equal 0x1010 runtimeStopMask runtimeStopMask)) := by
  apply Confirms.mono (Confirms.both (equal_confirms 0x1000 0x2800 0) (equal_confirms 0x1010 _ _))
  rintro log ⟨l, l', rfl, hl, hl'⟩
  exact hl.append hl'

theorem shutDown_cutOff (s : PciRuntime) :
    shutDown.wp (fun log ok s' => CutOff log s'.result.masterOff
      (fun early => s'.result.idle = true → Rested early)
      fun late => ok = true → Met handoffSeen late) s := by
  unfold shutDown
  rw [wp_bind]
  apply wp_mono (maskInterrupts_steady s)
  intro log₁ masked s₁ h₁
  rw [wp_bind]
  apply wp_mono (modifyRegister_steady (by decide) 0x2800 0 s₁)
  intro log₂ hci s₂ h₂
  rw [wp_bind]
  apply wp_mono (modifyRegister_steady (by decide) runtimeStopMask runtimeStopMask s₂)
  intro log₃ channels s₃ h₃
  rw [wp_nowUs]
  intro start
  rw [wp_modify_bind, wp_bind]
  apply wp_mono (poll_polled start 201 start (setIdle false s₃))
  intro log₄ _ s₄ h₄
  rw [wp_bind]
  apply wp_mono (unmaster_cut s₄)
  intro cutoff off s₅ hcut
  rw [wp_modify_bind, wp_bind]
  have hstill : Keeps Steady (both (equal 0x1000 0x2800 0) (equal 0x1010 runtimeStopMask runtimeStopMask)) :=
    Keeps.both steady_traced (equal_steady (by decide) _ _) (equal_steady (by decide) _ _)
  apply wp_mono (wp_and (hstill (setMasterOff off s₅)) (stillStopped_confirms (setMasterOff off s₅)))
  intro log₆ still s₆ h₆
  rw [wp_bind]
  apply wp_mono (wp_and (maskInterrupts_steady s₆) (maskInterrupts_confirms s₆))
  intro log₇ finalMasked s₇ h₇
  rw [wp_pure, List.append_nil]
  -- Before the loop, the loop, and after the cutoff.
  have hfirst := steady_traced.trans h₁ (steady_traced.trans h₂ h₃)
  have hlast := steady_traced.trans h₆.1 h₇.1
  have hidle : s₇.result.idle = s₄.result.idle := hlast.idle.trans hcut.2
  have hoff : s₇.result.masterOff = off := hlast.masterOff
  have hsplit : log₁ ++ (log₂ ++ (log₃ ++ .call .nowUs start :: (log₄ ++ (cutoff ++ (log₆ ++ log₇))))) =
      (log₁ ++ (log₂ ++ log₃) ++ ([.call .nowUs start] ++ log₄)) ++ (cutoff ++ (log₆ ++ log₇)) := by
    simp
  rw [hsplit, hoff]
  refine ⟨⟨_, cutoff, _, rfl, hcut.1, ?_, hlast.configures, ?_, ?_⟩, ?_⟩
  · intro e he
    rcases List.mem_append.1 he with he | he
    · exact hfirst.configures e he
    · rcases List.mem_cons.1 he with rfl | he
      · rfl
      · exact h₄.configures e he
  · intro hrest
    rcases h₄.rested (hidle.symm.trans hrest) with hnot | ⟨busy, hbusy, hquiet⟩
    · exact absurd hnot nofun
    · exact ⟨busy, by simp [hbusy], hquiet⟩
  · intro hok
    simp only [Bool.and_eq_true] at hok
    exact (h₆.2 hok.1.1.1.2).append (h₇.2 hok.1.1.1.1)
  · have hfirst' := hfirst.busyReads
    have hlast' := hlast.busyReads
    have hcut' := hcut.1.busyReads
    have hreads := h₄.reads
    have hclock : busyReads [.call .nowUs start] = 0 := rfl
    simp only [busyReads_append] at hfirst' hlast' ⊢
    omega

/-- A call of `stop` goes on to the cutoff whatever fails before it, and returns true only if the device
has shown that it is at rest, off the bus and silent. -/
structure StopProof (log : Trace) (ok : Bool) (s' : PciRuntime) : Prop where
  cutoff : ∃ off, CutOff log off (fun early => ok = true → Rested early)
    (fun late => ok = true → Met handoffSeen late) ∧ (ok = true → off = true)
  faulted : ok = false → s'.faulted = true

theorem CutOff.mono {off : Bool} {Before Before' After After' : Trace → Prop}
    (h : CutOff log off Before After) (hbefore : ∀ early, Before early → Before' early)
    (hafter : ∀ late, After late → After' late) : CutOff log off Before' After' := by
  rcases h.parts with ⟨early, cutoff, late, hlog, hcut, hearly, hlate, hfirst, hthen⟩
  exact ⟨⟨early, cutoff, late, hlog, hcut, hearly, hlate, hbefore early hfirst, hafter late hthen⟩,
    h.polls⟩

theorem CutOff.concat_fault {off : Bool} {Before After : Trace → Prop} (h : CutOff log off Before After)
    (hafter : ∀ late, After (late ++ [.note .fault])) :
    CutOff (log ++ [.note .fault]) off Before After := by
  rcases h.parts with ⟨early, cutoff, late, rfl, hcut, hearly, hlate, hfirst, -⟩
  refine ⟨⟨early, cutoff, late ++ [.note .fault], by simp, hcut, hearly, ?_, hfirst, hafter late⟩, ?_⟩
  · intro e he
    rcases List.mem_append.1 he with he | he
    · exact hlate e he
    · rw [List.mem_singleton.1 he]
      rfl
  · rw [busyReads_append]
    exact h.polls

theorem stop_shows (s : PciRuntime) : stop.wp (fun log ok s' => StopProof log ok s') s := by
  rw [stop, wp_modify_bind, wp_bind]
  apply wp_mono (shutDown_cutOff (setStopped false (setRunning false s)))
  intro log ok s₁ h
  rw [wp_get_bind, wp_ite]
  refine ⟨?_, ?_⟩
  · intro hall
    simp only [Bool.and_eq_true] at hall
    rw [wp_modify_bind, wp_pure, List.append_nil]
    refine ⟨⟨_, h.mono (fun early hrest _ => hrest hall.1.1.2) fun late hmet _ => hmet hall.1.1.1,
      fun _ => hall.1.2⟩, (by rintro ⟨⟩)⟩
  · intro _
    rw [wp_tell_bind, wp_modify_bind, wp_pure]
    refine ⟨⟨_, CutOff.concat_fault (h.mono (fun early _ => (by rintro ⟨⟩)) fun late _ => (by rintro ⟨⟩))
      fun late => (by rintro ⟨⟩), (by rintro ⟨⟩)⟩, fun _ => rfl⟩

/-! ## After a stop that failed -/

theorem run_from_faulted {h : List Called} (hs : s.faulted = true) (hrun : Run exec s h s') :
    s'.faulted = true := by
  apply hrun.invariant (P := fun _ s => s.faulted = true) hs
  intro h s s' op log r _ hfaulted hout
  exact (call_sound hout).orderly.faulted.2 (Or.inl hfaulted)

theorem start_faulted {rings : Fin 9 → RingMemory} {r : Returned} (hs : s.faulted = true)
    (hout : (exec (.start rings) s).Outcome log (r, s')) : r = .bool false ∧ log = [] := by
  have hwp : (exec (.start rings)).wp (fun log r _ => r = .bool false ∧ log = []) s := by
    rw [exec, wp_map]
    apply wp_mono (start_cases rings s)
    intro log ok s' h
    rcases h with ⟨-, hlog, hok, -⟩ | ⟨hfresh, -⟩
    · exact ⟨congrArg Returned.bool hok, hlog⟩
    · exact absurd hfresh (by simp [hs])
  exact wp_outcome hwp hout

/-- What a call of `stop` has shown, and that a runtime which could not be stopped is never used again. -/
theorem dma_stop_proof (hout : (stop s).Outcome log (ok, s')) :
    StopProof log ok s' ∧
      (ok = false → ∀ h s'', Run exec s' h s'' → s''.isRunning = false ∧
        ∀ x ∈ h, (∃ rings, x.op = .start rings) → x.result = .bool false ∧ x.log = []) := by
  have hproof := wp_outcome (stop_shows s) hout
  refine ⟨hproof, fun hfailed h s'' hrun => ⟨?_, ?_⟩⟩
  · have hfaulted := run_from_faulted (hproof.faulted hfailed) hrun
    rw [isRunning, hfaulted]
    simp
  · intro x hx hstart
    rcases hstart with ⟨rings, hop⟩
    rcases List.append_of_mem hx with ⟨later, earlier, rfl⟩
    have hbefore := (Run.drop hrun).tail
    have hcall := hbefore.2.2
    rw [hop] at hcall
    exact start_faulted (run_from_faulted (hproof.faulted hfailed) hbefore.1) hcall

/-- A fresh runtime is stopped, on a device that keeps what is written. -/
theorem dma_stop_proof_ready : ∃ log s', StopProof log true s' := by
  have hout := Prog.run_outcome (readyDevice nineRings none 0) (stop {}) {}
  have hresult : ((stop {}).run (readyDevice nineRings none 0) {}).2.1.1 = true := by
    decide +kernel
  generalize (stop {}).run (readyDevice nineRings none 0) {} = stopped at hout hresult
  rcases stopped with ⟨log, ⟨_, s'⟩, _⟩
  cases hresult
  exact ⟨log, s', (dma_stop_proof hout).1⟩

end PciRuntime
end Pci
end Rtl8852be
