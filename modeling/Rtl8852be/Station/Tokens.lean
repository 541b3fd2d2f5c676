import Rtl8852be.Station.Trace

/-!
# Tokens — no completion of one operation completes another

Completions come back late, twice or not at all.  Three facts keep them apart: the controller waits
for one thing at a time, no token is ever handed out twice, and a completion that does not match
what is pending leaves no trace but the time of its arrival.
-/

namespace Rtl8852be
namespace Station

open Interaction Network

variable {c c' : Controller} {h : List Record} {r : Record}

/-! ## Tokens are never handed out twice -/

/-- All tokens handed out in a history, oldest first. -/
def issued (h : List Record) : List Token := h.reverse.flatMap fun r => tokens r.log

theorem issued_cons (r : Record) (h : List Record) : issued (r :: h) = issued h ++ tokens r.log := by
  simp [issued]

theorem Run.orderly (hrun : Run h c) (hr : r ∈ h) :
    Orderly (Allowed r.before r.op) r.before.key.last r.log r.after.key.last := by
  obtain ⟨hS, hout⟩ := Run.outcome_of_mem hrun hr
  exact wp_outcome (exec_orderly r.before hS r.op) hout

theorem Run.issued (hrun : Run h c) :
    (issued h).Pairwise (fun a b => a.stamp < b.stamp) ∧
      ∀ t ∈ issued h, t.stamp ≤ c.key.last.stamp := by
  refine Interaction.Run.invariant
    (P := fun h c => (Station.issued h).Pairwise (fun a b => a.stamp < b.stamp) ∧
      ∀ t ∈ Station.issued h, t.stamp ≤ c.key.last.stamp) ⟨.nil, nofun⟩ ?_ hrun
  intro h c c' op log ok hrun ⟨hpair, hle⟩ hout
  have ho := wp_outcome (exec_orderly c (Run.sound hrun) op) hout
  rw [issued_cons]
  refine ⟨List.pairwise_append.2 ⟨hpair, ho.issues.pairwise, fun a ha b hb => ?_⟩, fun t ht => ?_⟩
  · exact lt_of_le_of_lt (hle a ha) (ho.issues.between b hb).1
  · rcases List.mem_append.1 ht with ht | ht
    · exact (hle t ht).trans ho.issues.le
    · exact (ho.issues.between t ht).2

/-- Epoch first, then operation, on the machine words themselves. -/
def Token.before (a b : Token) : Prop :=
  a.epoch < b.epoch ∨ (a.epoch = b.epoch ∧ a.operation < b.operation)

theorem Token.before_of_stamp {a b : Token} (hlt : a.stamp < b.stamp) : a.before b := by
  rcases Prod.Lex.toLex_lt_toLex.1 hlt with he | ⟨he, ho⟩
  · exact Or.inl (UInt64.lt_iff_toNat_lt.2 he)
  · exact Or.inr ⟨UInt64.toNat_inj.1 he, UInt64.lt_iff_toNat_lt.2 ho⟩

theorem Spec.restarted {newEpoch now : UInt64} {log : Trace} {ok : Bool}
    (hspec : Spec c (.restart newEpoch now) log ok c') (hok : ok = true) :
    c.epoch.epoch < c'.epoch.epoch := by
  subst hok
  rcases hspec with ⟨hf, -⟩ | hm
  · cases hf
  · cases hm with
    | restart he hlt => exact hlt

/-! ## Foreign completions -/

/-- A completion that does not belong to what is pending. -/
def Foreign (c : Controller) : Op → Prop
  | .actionComplete original kind _ _ =>
      c.waitingAction = false ∨ original ≠ c.pendingToken ∨ kind ≠ c.pendingAction
  | .firmwareEvent event receiveEpoch _ =>
      c.waitingCommand = false ∨ receiveEpoch ≠ c.epoch.epoch ∨
        ∀ ack, decodeAck event = some ack →
          ack.done = false ∨ ack.sequence ≠ c.pendingSequence ∨ ack.command ≠ c.pendingCommand
  | _ => False

/-- What `fail` leaves of a controller. -/
def Controller.failed (c : Controller) (error : Error) : Controller :=
  { c with error := error, state := .faulted, waitingAction := false, waitingCommand := false }

/-- Only the gate was asked, and only the clock may have moved. -/
structure Untouched (c : Controller) (now : UInt64) (log : Trace) (c' : Controller) : Prop where
  log : ∃ open_, log = [.call .inGate open_]
  after : c' = c ∨ c' = c.clocked now

/-- The call latched a fault because the clock went backwards or a deadline has passed. -/
structure Latched (c : Controller) (now : UInt64) (log : Trace) (c' : Controller) : Prop where
  log : ∃ paused, log = [.call .inGate true, .call (.setTraffic .none) paused,
    .call (.recoveryRequired c.epoch c'.error) ()]
  cause : (c.clockStarted = true ∧ now < c.lastNow ∧ c' = c.failed .clock) ∨
    (c.overdue now ∧ c' = (c.clocked now).failed .timeout)

/-- `fail` from a controller that has not faulted. -/
theorem wp_fail_exact {Q : Trace → Bool → Controller → Prop} (error : Error)
    (hc : c.state ≠ .faulted)
    (hQ : ∀ paused, Q [.call (.setTraffic .none) paused, .call (.recoveryRequired c.epoch error) ()]
      false (c.failed error)) : (fail error).wp Q c := by
  simp only [fail, wp_get_bind, wp_ite, wp_set_bind, wp_pure, wp_setTraffic,
    wp_recoveryRequired]
  exact ⟨fun hf => absurd hf hc, fun _ paused => hQ paused⟩

/-- `time` in front of a rest that only looks at its guards. -/
theorem wp_time_untouched {now : UInt64} {rest : Gated Bool}
    (hrest : c.state ≠ .faulted →
      rest.wp (fun log _ c' => Untouched c now (gate ++ log) c' ∨ Latched c now (gate ++ log) c')
        (c.clocked now)) :
    (do if !(← time now) then return false
        rest).wp (fun log _ c' => Untouched c now log c' ∨ Latched c now log c') c := by
  refine wp_guard ?_
  simp only [time, wp_inGate, wp_ite, wp_pure, wp_get_bind, wp_set_bind]
  intro opened
  refine ⟨fun _ => Or.inl ⟨⟨_, rfl⟩, Or.inl rfl⟩, fun ho => ⟨fun _ => Or.inl ⟨⟨_, rfl⟩, Or.inl rfl⟩,
    fun hc => ⟨fun hlt => ?_, fun _ => ?_⟩⟩⟩
  · obtain rfl : opened = true := by simpa using ho
    obtain ⟨hs, hlt⟩ : c.clockStarted = true ∧ now < c.lastNow := by simpa using hlt
    exact wp_fail_exact .clock hc fun paused =>
      Or.inr ⟨⟨paused, rfl⟩, Or.inl ⟨hs, hlt, rfl⟩⟩
  · obtain rfl : opened = true := by simpa using ho
    exact hrest hc

theorem foreign_untouched {op : Op} (hforeign : Foreign c op) :
    (exec op).wp (fun log _ c' => Untouched c op.now log c' ∨ Latched c op.now log c') c := by
  cases op with
  | actionComplete original kind success now =>
      refine wp_time_untouched fun _ => ?_
      simp only [wp_get_bind, wp_ite, wp_pure]
      refine ⟨fun _ => Or.inl ⟨⟨_, rfl⟩, Or.inr rfl⟩, fun hmatch => ?_⟩
      obtain ⟨⟨hw, ht⟩, hk⟩ :
          (c.waitingAction = true ∧ original = c.pendingToken) ∧ kind = c.pendingAction := by
        simpa using hmatch
      rcases hforeign with h | h | h
      · simp [hw] at h
      · exact absurd ht h
      · exact absurd hk h
  | firmwareEvent event receiveEpoch now =>
      refine wp_time_untouched fun hc => ?_
      simp only [wp_get_bind, wp_ite, wp_pure]
      refine ⟨fun _ => Or.inl ⟨⟨_, rfl⟩, Or.inr rfl⟩, fun hmatch => ?_⟩
      obtain ⟨hw', he'⟩ := not_or.1 hmatch
      have hw : c.waitingCommand = true := by simpa using hw'
      have he : receiveEpoch = c.epoch.epoch := not_not.1 he'
      have hwait : c.waiting = true := by simp [Controller.waiting, hw]
      have hack : ∀ ack, decodeAck event = some ack →
          ack.done = false ∨ ack.sequence ≠ c.pendingSequence ∨ ack.command ≠ c.pendingCommand := by
        rcases hforeign with h | h | h
        · simp [hw] at h
        · exact absurd he h
        · exact h
      refine wp_guard ?_
      -- With a command pending `expire` is a mere check.
      simp only [expire, wp_get_bind, wp_ite, wp_set_bind, wp_pure]
      refine ⟨fun hd => ?_, fun _ => ⟨fun _ => ⟨fun hd => ?_, fun _ => ?_⟩, fun hn => absurd hwait hn⟩⟩
      · have hd' : c.scanning = true ∧ c.scanDeadline ≤ now := by simpa using hd
        exact wp_fail_exact .timeout hc fun paused =>
          Or.inr ⟨⟨paused, rfl⟩, Or.inr ⟨Or.inl hd', rfl⟩⟩
      · exact wp_fail_exact .timeout hc fun paused =>
          Or.inr ⟨⟨paused, rfl⟩, Or.inr ⟨Or.inr ⟨hwait, hd⟩, rfl⟩⟩
      · simp only [Guarded, if_true, wp_get_bind]
        cases hdec : decodeAck event with
        | none =>
            simp only [wp_pure]
            exact Or.inl ⟨⟨_, rfl⟩, Or.inr rfl⟩
        | some ack =>
            simp only [wp_ite, wp_pure, wp_set_bind]
            refine ⟨fun _ => Or.inl ⟨⟨_, rfl⟩, Or.inr rfl⟩, fun hno => ?_⟩
            obtain ⟨hdone, hno⟩ := not_or.1 hno
            obtain ⟨hseq, hcmd⟩ := not_or.1 hno
            rcases hack ack hdec with h | h | h
            · exact absurd h hdone
            · exact absurd h hseq
            · exact absurd (sameCommand_iff.1 (by simpa using hcmd)) h
  | _ => exact hforeign.elim

/-! ## The theorem -/

/-- Over every run, with every delivery order: at most one thing is pending; tokens are handed out
in strictly increasing order, first by epoch and then by operation, and every restart begins a later
epoch; and a completion that does not match what is pending touches nothing but the clock, unless it
latches a fault of the clock or of a deadline. -/
theorem completions_do_not_mix (hrun : Run h c) :
    ¬ (c.waitingAction = true ∧ c.waitingCommand = true) ∧
    (issued h).Pairwise Token.before ∧
    (∀ r ∈ h, ∀ newEpoch now, r.op = .restart newEpoch now → r.result = true →
      r.before.epoch.epoch < r.after.epoch.epoch) ∧
    (∀ r ∈ h, Foreign r.before r.op →
      Untouched r.before r.op.now r.log r.after ∨ Latched r.before r.op.now r.log r.after) := by
  refine ⟨fun hboth => (Run.sound hrun).not_both hboth.1 hboth.2,
    (Run.issued hrun).1.imp Token.before_of_stamp, fun r hr newEpoch now hop hok => ?_,
    fun r hr hforeign => ?_⟩
  · exact Spec.restarted (hop ▸ Run.spec_of_mem hrun hr) hok
  · obtain ⟨hS, hout⟩ := Run.outcome_of_mem hrun hr
    exact wp_outcome (foreign_untouched hforeign) hout

/-- The nine tokens of an association, one after the other. -/
theorem completions_do_not_mix_linkUp :
    (issued (history linkUp)).length = 9 ∧ (issued (history linkUp)).Pairwise Token.before :=
  ⟨by decide +kernel, (completions_do_not_mix (run_history linkUp)).2.1⟩

end Station
end Rtl8852be
