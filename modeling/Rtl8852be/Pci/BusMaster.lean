import Rtl8852be.Pci.Effects

/-!
# BusMaster — what a recorded stop is worth

`MacNetworkState::shutdown` does not stop the runtime again when `result.stopped` is set.  This is sound
as long as nothing has switched the bus master on since then.

* `stop_proof_iff` — it is sound exactly as long as the device confirms the write that enables the bus
  master in every `start` that begins with the flag set.
-/

namespace Rtl8852be
namespace Pci
namespace PciRuntime

open Interaction Network Code

/-- A `stop` that returned true. -/
def hasStopped (x : Called) : Bool :=
  match x.op, x.result with
  | .stop, .bool ok => ok
  | _, _ => false

/-- Some `stop` returned true, and no later call has switched the bus master on.  The last call comes
first. -/
def masterOffSince : List Called → Bool
  | [] => false
  | x :: h => hasStopped x || (!x.log.any Event.masters && masterOffSince h)

/-- `result.stopped` after these calls. -/
def recordedStop : List Called → Bool
  | [] => false
  | x :: _ => x.after.result.stopped

/-- If this call is a `start` that begins with `result.stopped` set, then the device confirms the write
that enables the bus master. -/
def MasterConfirmed (x : Called) : Prop :=
  ∀ rings, x.op = .start rings → x.before.result.stopped = true →
    ∀ (early late : Trace) (cmd actual : UInt16) (wrote : Bool), cmd &&& 4 ≠ 0 →
      x.log = early ++ .call (.writeCommand cmd) wrote :: .call .command actual :: late →
      wrote = true ∧ actual = cmd

/-! ## One call -/

variable {s s' : PciRuntime} {log : Trace}

theorem any_masters_of_harmless (h : ∀ e ∈ log, Harmless e) : log.any Event.masters = false := by
  rw [List.any_eq_false]
  intro e he
  simp [(h e he).masters]

/-- A call other than `start` and `stop` keeps the flag and does not touch the bus master. -/
theorem Frame.keeps_stop (h : Frame Silent s log s') :
    s'.result.stopped = s.result.stopped ∧ log.any Event.masters = false := by
  refine ⟨h.stopped, ?_⟩
  rw [List.any_eq_false]
  intro e he
  simp [(h.only e he).masters]

theorem Frame.silent (h : Frame Inert s log s') : Frame Silent s log s' :=
  h.mono fun _ he => he.silent

/-- The write that enables the bus master is the only one of its kind. -/
theorem master_unique {early early' late late' : Trace} {cmd cmd' actual actual' : UInt16}
    {wrote wrote' : Bool} (hcmd' : cmd' &&& 4 ≠ 0) (hearly : ∀ e ∈ early ++ late, Harmless e)
    (heq : early ++ .call (.writeCommand cmd) wrote :: .call .command actual :: late =
      early' ++ .call (.writeCommand cmd') wrote' :: .call .command actual' :: late') :
    cmd = cmd' ∧ wrote = wrote' ∧ actual = actual' := by
  have hmasters : Event.masters (.call (.writeCommand cmd') wrote') = true := by
    simpa [Event.masters] using hcmd'
  have hnot : ∀ e, Harmless e → e ≠ .call (.writeCommand cmd') wrote' := by
    rintro e he rfl
    rw [he.masters] at hmasters
    exact absurd hmasters (by rintro ⟨⟩)
  have hfront : Event.call (.writeCommand cmd') wrote' ∉ early := fun hmem =>
    hnot _ (hearly _ (List.mem_append_left late hmem)) rfl
  have hback : Event.call (.writeCommand cmd') wrote' ∉
      (Event.call .command actual :: late : Trace) := by
    intro hmem
    rcases List.mem_cons.1 hmem with hmem | hmem
    · exact absurd hmem (by rintro ⟨⟩)
    · exact hnot _ (hearly _ (List.mem_append_right early hmem)) rfl
  rcases (List.append_cons_inj_of_notMem hfront hback).1 heq with ⟨-, hwrite, hrest⟩
  cases hwrite
  cases (List.cons.inj hrest).1
  exact ⟨rfl, rfl, rfl⟩

/-- What a call can do to the flag and the bus master. -/
inductive Affects (x : Called) : Prop
  /-- Nothing. -/
  | neither : hasStopped x = false → MasterConfirmed x →
      x.after.result.stopped = x.before.result.stopped → x.log.any Event.masters = false → Affects x
  /-- `stop` records what it returns. -/
  | stops : MasterConfirmed x → x.after.result.stopped = hasStopped x → Affects x
  /-- `start` clears the flag. -/
  | clears : MasterConfirmed x → x.after.result.stopped = false → Affects x
  /-- The flag stays as it was although the bus master may be on. -/
  | stale : hasStopped x = false → x.after.result.stopped = x.before.result.stopped →
      x.log.any Event.masters = true →
      (x.before.result.stopped = true → ¬ MasterConfirmed x) → Affects x

/-- A call without a write that enables the bus master. -/
theorem masterConfirmed_of_harmless {x : Called} (h : ∀ e ∈ x.log, Harmless e) : MasterConfirmed x := by
  intro rings _ _ early late cmd actual wrote hcmd hlog
  have hharmless := h (.call (.writeCommand cmd) wrote) (by rw [hlog]; simp)
  exact absurd hharmless.masters (by simpa [Event.masters] using hcmd)

theorem start_affects {rings : Fin 9 → RingMemory} {ok : Bool}
    (h : ((s.attempted || s.faulted) = true ∧ log = [] ∧ ok = false ∧ s' = s) ∨
      ((s.attempted || s.faulted) = false ∧ Launched (Ready rings) (setAttempted s) log ok s')) :
    Affects ⟨s, .start rings, log, .bool ok, s'⟩ := by
  rcases h with ⟨-, rfl, rfl, rfl⟩ | ⟨-, h⟩
  · exact .neither rfl (masterConfirmed_of_harmless nofun) rfl rfl
  · cases h with
    | unready hframe =>
        exact .neither rfl (masterConfirmed_of_harmless hframe.only) hframe.stopped
          (any_masters_of_harmless hframe.only)
    | @unconfirmed early late cmd actual wrote s' hcmd hno hframe =>
        refine .stale rfl hframe.stopped ?_ ?_
        · rw [List.any_eq_true]
          exact ⟨.call (.writeCommand cmd) wrote, by simp, by simpa [Event.masters] using hcmd⟩
        · intro hstopped hconfirmed
          exact hno (hconfirmed rings rfl hstopped early late cmd actual wrote hcmd rfl)
    | @mastered early late cmd ok s₁ _ hcmd hframe =>
        refine .clears ?_ ?_
        · intro rings' _ _ early' late' cmd' actual' wrote' hcmd' hlog
          rcases master_unique hcmd' hframe.only hlog with ⟨rfl, rfl, rfl⟩
          exact ⟨rfl, rfl⟩
        · cases ok with
          | false => exact hframe.stopped
          | true => exact hframe.stopped

theorem silent_affects {op : Op} {r : Returned} (hstart : ∀ rings, op ≠ .start rings)
    (hstop : op ≠ .stop) (h : Frame Silent s log s') : Affects ⟨s, op, log, r, s'⟩ := by
  have hkeeps := h.keeps_stop
  refine .neither ?_ ?_ hkeeps.1 hkeeps.2
  · cases op with
    | stop => exact absurd rfl hstop
    | _ => rfl
  · intro rings hop
    exact absurd hop (hstart rings)

theorem Read.silent {n : Fin 9} {r : Bool × UInt16 × UInt16} (h : Read n s log r s') :
    s'.result.stopped = s.result.stopped ∧ log.any Event.masters = false := by
  rcases h with ⟨v, -, ⟨-, -, rfl, rfl⟩ | ⟨-, -, rfl, rfl⟩⟩
  · exact ⟨(frame_failed (P := fun _ => True) trivial _ _ _ s).stopped, rfl⟩
  · exact ⟨rfl, rfl⟩

/-- What a call of `publish` does to the flag and the bus master. -/
theorem Published.silent {n : Fin 9} {next : UInt16} {ok : Bool} (h : Published n next s log ok s') :
    s'.result.stopped = s.result.stopped ∧ log.any Event.masters = false := by
  cases h with
  | refused => exact ⟨rfl, rfl⟩
  | rejected _ _ hframe => exact ⟨hframe.stopped, rfl⟩
  | unchanged _ _ _ _ => exact ⟨rfl, rfl⟩
  | rung _ _ _ _ hrung =>
      cases hrung with
      | unwritten hframe => exact ⟨hframe.stopped, rfl⟩
      | confirmed _ _ => exact ⟨rfl, rfl⟩
      | unconfirmed _ hframe => exact ⟨hframe.stopped, rfl⟩

theorem call_affects {op : Op} {r : Returned} (hout : (exec op s).Outcome log (r, s')) :
    Affects ⟨s, op, log, r, s'⟩ := by
  have hnone : ∀ {op : Op} {r : Returned} {s s' : PciRuntime} {log : Trace},
      (∀ rings, op ≠ .start rings) → op ≠ .stop → Frame Inert s log s' →
      Affects ⟨s, op, log, r, s'⟩ := fun hstart hstop h => silent_affects hstart hstop h.silent
  have hwp : (exec op).wp (fun log r s' => Affects ⟨s, op, log, r, s'⟩) s := by
    cases op with
    | start rings =>
        rw [exec, wp_map]
        exact wp_mono (start_cases rings s) fun log ok s' h => start_affects h
    | readIndices ring host hardware =>
        rw [exec, wp_map]
        refine wp_mono (readIndices_cases ring host hardware s) fun log r s' h => ?_
        have hkeeps : s'.result.stopped = s.result.stopped ∧ log.any Event.masters = false := by
          rcases h with ⟨rfl, -, rfl⟩ | ⟨hring, -, h⟩
          · exact ⟨rfl, rfl⟩
          · exact h.silent
        exact .neither rfl nofun hkeeps.1 hkeeps.2
    | publish ring next =>
        rw [exec, wp_map]
        refine wp_mono (publish_cases ring next s) fun log ok s' h => ?_
        have hkeeps : s'.result.stopped = s.result.stopped ∧ log.any Event.masters = false := by
          rcases h with ⟨-, rfl, -, rfl⟩ | ⟨hring, h⟩
          · exact ⟨rfl, rfl⟩
          · exact h.silent
        exact .neither rfl nofun hkeeps.1 hkeeps.2
    | maskInterrupts =>
        rw [exec, wp_map]
        exact wp_mono (maskInterrupts_frame s) fun log ok s' h => hnone nofun nofun h
    | enableInterrupts =>
        rw [exec, wp_map]
        refine wp_mono (enableInterrupts_cases s) fun log ok s' h => ?_
        cases h with
        | refused _ => exact .neither rfl nofun rfl rfl
        | armed _ hframe _ => exact silent_affects nofun nofun hframe
        | failed _ hframe _ _ => exact silent_affects nofun nofun hframe
    | acknowledgeInterrupts =>
        rw [exec, wp_map]
        exact wp_mono (acknowledgeInterrupts_frame s) fun log r s' h => hnone nofun nofun h
    | stop =>
        rw [exec, wp_map]
        exact wp_mono (stop_cases s) fun log ok s' h => .stops nofun h.stopped
  exact wp_outcome hwp hout

/-! ## Runs -/

theorem recordedStop_eq {h : List Called} {s : PciRuntime} (hrun : Run exec {} h s) :
    recordedStop h = s.result.stopped := by
  cases hrun with
  | nil => rfl
  | call _ _ => rfl

/-- While every write is confirmed, the recorded stop can be relied on. -/
theorem run_masterOff {h : List Called} {s : PciRuntime} (hrun : Run exec {} h s) :
    (∀ x ∈ h, MasterConfirmed x) → recordedStop h = true → masterOffSince h = true := by
  refine Run.invariant (P := fun h _ => (∀ x ∈ h, MasterConfirmed x) → recordedStop h = true →
    masterOffSince h = true) nofun ?_ hrun
  intro h s s' op log r hrun ih hout hconfirmed hstopped
  have hold := ih (fun x hx => hconfirmed x (List.mem_cons_of_mem _ hx))
  rw [recordedStop_eq hrun] at hold
  rw [masterOffSince, Bool.or_eq_true, Bool.and_eq_true, Bool.not_eq_true']
  cases call_affects hout with
  | neither _ _ hkept hquiet => exact Or.inr ⟨hquiet, hold (hkept.symm.trans hstopped)⟩
  | stops _ hrecorded => exact Or.inl (hrecorded.symm.trans hstopped)
  | clears _ hclear => exact absurd (hclear.symm.trans hstopped) nofun
  | stale _ hkept _ hunconfirmed =>
      exact absurd (hconfirmed _ List.mem_cons_self) (hunconfirmed (hkept.symm.trans hstopped))

/-- A recorded stop proves that the bus master is off, after every call of a run, if and only if the
device confirms the write that enables the bus master in every `start` that begins with the flag set. -/
theorem stop_proof_iff {h : List Called} {s : PciRuntime} (hrun : Run exec {} h s) :
    (∀ later earlier, h = later ++ earlier → recordedStop earlier = true →
      masterOffSince earlier = true) ↔ ∀ x ∈ h, MasterConfirmed x := by
  constructor
  · intro hproof x hx
    rcases List.append_of_mem hx with ⟨later, earlier, rfl⟩
    rcases (Run.drop hrun).tail with ⟨-, -, hout⟩
    cases call_affects hout with
    | neither _ hconfirmed _ _ => exact hconfirmed
    | stops hconfirmed _ => exact hconfirmed
    | clears hconfirmed _ => exact hconfirmed
    | stale hnot hkept hmaster _ =>
        intro rings hop hstopped
        -- The flag is still set after this call, which has written the bus-master bit.
        have hoff := hproof later (x :: earlier) rfl (hkept.trans hstopped)
        rw [masterOffSince, hnot, hmaster] at hoff
        exact absurd hoff nofun
  · rintro hconfirmed later (_ | ⟨x, earlier⟩) rfl hstopped
    · exact absurd hstopped nofun
    · exact run_masterOff (Run.drop hrun)
        (fun y hy => hconfirmed y (List.mem_append_right later hy)) hstopped

/-! ## A device -/

/-- The registers of a device: the command register, and what was written to the others. -/
structure Registers where
  command : UInt16 := 2
  written : List (UInt32 × UInt32) := []

/-- What a register holds before anything is written: what `start` wants to find. -/
def initialRegister (rings : Fin 9 → RingMemory) (a : UInt32) : UInt32 :=
  match idleRegisters.find? fun x => x.1 == a, (List.finRange 9).find? fun i => (ringRegisters i).low == a with
  | some x, _ => x.2.2
  | none, some i => UInt32.ofNat (rings i).address
  | none, none => 0

/-- A device that is ready to be started, and keeps what is written.  When the bus master is enabled it
may report a failure, and the command register then has the value `refused`.  When a host index is
written the hardware half becomes `hardware`. -/
def readyDevice (rings : Fin 9 → RingMemory) (refused : Option UInt16) (hardware : UInt32) :
    (c : Access) → Registers → Reply c × Registers
  | .read32 a, d => ((d.written.lookup a).getD (initialRegister rings a), d)
  | .write32 a v, d => (true, { d with written := (a, v) :: d.written })
  | .read16 _, d => (64, d)
  | .write16 a v, d => (true, { d with written := (a, hardware <<< 16 ||| v.toUInt32) :: d.written })
  | .command, d => (d.command, d)
  | .writeCommand v, d =>
      if v &&& 4 = 0 then (true, { d with command := v })
      else
        match refused with
        | none => (true, { d with command := v })
        | some after => (false, { d with command := after })
  | .barrier, d => ((), d)
  | .nowUs, d => (0, d)
  | .pauseUs _, d => ((), d)

/-- Nine rings of 64 entries, one after the other. -/
def nineRings (i : Fin 9) : RingMemory := ⟨0x10000 + 512 * i, 64⟩

/-- The runtime is stopped first, and in the `start` after it the command register reads back with one
more bit.  Then the stop is still recorded, although the bus-master bit was written after it. -/
theorem stop_proof_stale :
    ∃ h s, Run exec {} h s ∧ s.result.stopped = true ∧ masterOffSince h = false := by
  have hrun := replay_run exec (readyDevice nineRings (some 0x506) 0) [.stop, .start nineRings] {} {}
  exact ⟨_, _, hrun, by decide +kernel, by decide +kernel⟩

/-- A runtime that is stopped, started and stopped again. -/
theorem stop_proof_iff_restarted :
    let h := (replay exec (readyDevice nineRings none 0) [.stop, .start nineRings, .stop] {} {}).1
    recordedStop h = true ∧
      ((∀ later earlier, h = later ++ earlier → recordedStop earlier = true →
        masterOffSince earlier = true) ↔ ∀ x ∈ h, MasterConfirmed x) :=
  ⟨by decide +kernel, stop_proof_iff (replay_run exec (readyDevice nineRings none 0)
    [.stop, .start nineRings, .stop] {} {})⟩

end PciRuntime
end Pci
end Rtl8852be
