import Rtl8852be.Pci.LinkInitialization

/-!
# LinkCosts — the waits for MDIO and DBI end

Every round of a wait makes a fixed number of calls, and the number of rounds does not depend on the clock.  So
the calls of every part of the code are bounded, also when the clock stands still.
-/

namespace Rtl8852be
namespace PciLink

open Interaction Code

def isCall : Event Io Reply Fault → ℕ
  | .call _ _ => 1
  | .note _ => 0

section Costs

variable {α : Type} {n k : ℕ}

theorem fail_spends (e : Error) (a v : UInt32) : Spends isCall 0 (fail e a v) := by
  intro d
  unfold fail
  rw [wp_tell_bind, wp_modify_bind, wp_pure]
  exact Nat.le_refl 0

theorem check_spends : Spends isCall 3 check := by
  refine Spends.get_bind fun d => Spends.ite (Spends.pure false) ?_
  refine Spends.ask_bind (n := 1) (k := 2) (fun _ => Nat.le_refl 1) fun inside => ?_
  refine Spends.ite ((fail_spends _ _ _).mono (Nat.zero_le 2)) ?_
  refine Spends.ask_bind (n := 1) (k := 1) (fun _ => Nat.le_refl 1) fun cancelled => ?_
  refine Spends.ite ((fail_spends _ _ _).mono (Nat.zero_le 1)) ?_
  refine Spends.ask_bind (n := 1) (k := 0) (fun _ => Nat.le_refl 1) fun now => ?_
  refine Spends.ite (fail_spends _ _ _) (Spends.modify_bind ?_)
  exact Spends.ite (fail_spends _ _ _) (Spends.ite (fail_spends _ _ _) (Spends.pure true))

theorem spends_andThen {m : Link (Bool × α)} {f : α → Link Bool} (hm : Spends isCall n m)
    (hf : ∀ v, Spends isCall k (f v)) : Spends isCall (n + k) (andThen m f) :=
  Spends.bind hm fun r => Spends.ite (hf r.2) (Spends.pure false)

theorem spends_if {m : Link Bool} {m' m'' : Link α} (hm : Spends isCall n m) (hm' : Spends isCall k m') {x : α}
    (hx : m'' = pure x) : Spends isCall (n + k) (do if ← m then m' else m'') :=
  Spends.bind hm fun _ => Spends.ite hm' (hx ▸ Spends.pure x)

theorem spends_every {ms : List (Link Bool)} (h : ∀ m ∈ ms, Spends isCall n m) :
    Spends isCall (ms.length * n) (every ms) := by
  induction ms with
  | nil => exact Spends.pure true
  | cons m ms ih =>
      have hrest := ih fun m' hm' => h m' (List.mem_cons_of_mem m hm')
      refine ((h m List.mem_cons_self).both hrest).mono (Nat.le_of_eq ?_)
      rw [List.length_cons, Nat.succ_mul, Nat.add_comm]

theorem reading_spends (w : Width) (a : UInt32) : Spends isCall 7 (reading w a) := by
  refine spends_if (n := 3) (k := 4) check_spends (Spends.modify_bind ?_) rfl
  refine Spends.ask_bind (n := 1) (k := 3) (fun _ => Nat.le_refl 1) fun r => ?_
  have hfails : ∀ (u : UInt32), Spends isCall 3 (do let _ ← fail .io a u; return (false, r.2) : Link (Bool × w.Val)) :=
    fun u => ((fail_spends _ _ _).mono (Nat.zero_le 3)).bind (k := 0) fun _ => Spends.pure _
  exact Spends.ite (hfails 0) (Spends.ite (hfails _) (check_spends.bind (k := 0) fun ok => Spends.pure _))

theorem writing_spends (w : Width) (a : UInt32) (v : w.Val) : Spends isCall 7 (writing w a v) := by
  refine spends_if (n := 3) (k := 4) check_spends (Spends.modify_bind ?_) rfl
  refine Spends.ask_bind (n := 1) (k := 3) (fun _ => Nat.le_refl 1) fun r => ?_
  exact Spends.ite check_spends ((fail_spends _ _ _).mono (Nat.zero_le 3))

theorem delay_spends (us : ℕ) : Spends isCall 7 (delay us) := by
  refine spends_if (n := 3) (k := 4) check_spends ?_ rfl
  refine Spends.ask_bind (n := 1) (k := 3) (fun _ => Nat.le_refl 1) fun r => ?_
  exact Spends.ite check_spends ((fail_spends _ _ _).mono (Nat.zero_le 3))

theorem equal_spends {p : Prop} [Decidable p] (e : Error) (a v : UInt32) :
    Spends isCall 0 (if p then return true else fail e a v : Link Bool) :=
  Spends.ite (Spends.pure true) (fail_spends e a v)

theorem update32_spends (a clear set verify : UInt32) : Spends isCall 21 (update32 a clear set verify) := by
  refine spends_andThen (n := 7) (k := 14) (reading_spends .word a) fun old => ?_
  refine (writing_spends .word a _).both (k := 7) ?_
  exact spends_andThen (k := 0) (reading_spends .word a) fun _ => equal_spends _ _ _

theorem full32_spends (a v : UInt32) : Spends isCall 14 (full32 a v) := by
  refine (writing_spends .word a _).both (k := 7) ?_
  exact spends_andThen (k := 0) (reading_spends .word a) fun _ => equal_spends _ _ _

/-- A round reads once and waits once, whatever the clock says. -/
theorem idleFrom_spends (w : Width) (a : UInt32) (pending : w.Val → Bool) (limit : UInt64) (e : Error) (value : UInt32)
    (start : UInt64) (rounds : ℕ) : Spends isCall (rounds * 14) (idleFrom w a pending limit e value start rounds) := by
  induction rounds with
  | zero => exact fail_spends e a value
  | succ rounds ih =>
      have hrest : Spends isCall (7 + rounds * 14) (both (delay 10) (idleFrom w a pending limit e value start rounds)) :=
        (delay_spends 10).both ih
      have hfail : Spends isCall (7 + rounds * 14) (fail e a value) := (fail_spends e a value).mono (Nat.zero_le _)
      refine Spends.mono (spends_andThen (n := 7) (k := 7 + rounds * 14) (reading_spends w a) fun v => ?_) ?_
      · refine Spends.modify_bind (Spends.get_bind fun d => ?_)
        exact Spends.ite hfail (Spends.ite (Spends.pure true) (Spends.ite hfail hrest))
      · rw [Nat.succ_mul, ← Nat.add_assoc, Nat.add_comm]

theorem mdioIdle_spends (mask : UInt16) : Spends isCall 2814 (mdioIdle mask) :=
  Spends.get_bind fun _ => idleFrom_spends .half _ _ _ _ _ _ 201

theorem dbiIdle_spends : Spends isCall 294 dbiIdle :=
  Spends.get_bind fun _ => idleFrom_spends .byte _ _ _ _ _ _ 21

theorem mdioTrigger_spends (address speed : UInt8) (flag : UInt16) :
    Spends isCall 2849 (mdioTrigger address speed flag) := by
  refine (writing_spends .byte _ _).both (k := 2842) ?_
  refine spends_andThen (n := 7) (k := 2835) (reading_spends .half _) fun old => ?_
  refine (writing_spends .half _ _).both (k := 2828) ?_
  refine spends_andThen (n := 7) (k := 2821) (reading_spends .half _) fun v => ?_
  exact (writing_spends .half _ _).both (mdioIdle_spends flag)

theorem readMdio_spends (address speed : UInt8) : Spends isCall 5670 (readMdio address speed) :=
  spends_if ((mdioIdle_spends _).both (mdioTrigger_spends address speed _)) (reading_spends .half _) rfl

theorem writeMdio_spends (address speed : UInt8) (v : UInt16) : Spends isCall 5670 (writeMdio address speed v) :=
  (mdioIdle_spends _).both ((writing_spends .half _ v).both (mdioTrigger_spends address speed _))

theorem updateMdio_spends (address speed : UInt8) (mask bits : UInt16) :
    Spends isCall 17010 (updateMdio address speed mask bits) := by
  refine spends_andThen (n := 5670) (k := 11340) (readMdio_spends address speed) fun v => ?_
  refine (writeMdio_spends address speed _).both (k := 5670) ?_
  exact spends_andThen (k := 0) (readMdio_spends address speed) fun _ => equal_spends _ _ _

theorem readDbi_spends (address : UInt16) (v : UInt8) : Spends isCall 609 (readDbi address v) := by
  refine spends_if (n := 602) (k := 7) ?_ (reading_spends .byte _) rfl
  exact dbiIdle_spends.both ((writing_spends .half _ _).both ((writing_spends .byte _ _).both dbiIdle_spends))

theorem writeDbi_spends (address : UInt16) (v : UInt8) : Spends isCall 609 (writeDbi address v) := by
  refine dbiIdle_spends.both (k := 315) ((writing_spends .byte _ v).both (k := 308) ?_)
  exact (writing_spends .half _ _).both ((writing_spends .byte _ _).both dbiIdle_spends)

theorem readConfig_spends (address : UInt16) : Spends isCall 616 (readConfig address) := by
  refine spends_if (n := 3) (k := 613) check_spends (Spends.modify_bind ?_) rfl
  refine Spends.ask_bind (n := 1) (k := 612) (fun _ => Nat.le_refl 1) fun r => ?_
  refine spends_if (n := 3) (k := 609) check_spends ?_ rfl
  exact Spends.ite (Spends.pure _) (Spends.modify_bind (readDbi_spends address r.2))

theorem readsBack_spends (address : UInt16) (v : UInt8) : Spends isCall 616 (readsBack address v) :=
  spends_andThen (k := 0) (readConfig_spends address) fun _ => equal_spends _ _ _

theorem writeConfig_spends (address : UInt16) (v : UInt8) : Spends isCall 1232 (writeConfig address v) := by
  refine spends_if (n := 3) (k := 1229) check_spends (Spends.modify_bind ?_) rfl
  refine Spends.ask_bind (n := 1) (k := 1228) (fun _ => Nat.le_refl 1) fun native => ?_
  refine spends_if (n := 3) (k := 1225) check_spends ?_ rfl
  refine Spends.ite ((readsBack_spends address v).mono (by decide)) (Spends.modify_bind ?_)
  exact (writeDbi_spends address v).both (readsBack_spends address v)

theorem restoreL1_spends : Spends isCall 1232 restoreL1 := by
  refine Spends.get_bind fun d => Spends.ite (Spends.pure ()) (Spends.modify_bind ?_)
  refine (writeConfig_spends _ _).bind (k := 0) fun restored => ?_
  exact Spends.modify_bind (Spends.pure ())

theorem calibrate_spends : Spends isCall 18242 calibrate := by
  refine Spends.get_bind fun d => ?_
  refine (updateMdio_spends _ _ _ _).bind (k := 1232) fun ok => ?_
  refine restoreL1_spends.bind (k := 0) fun _ => ?_
  exact Spends.get_bind fun d => Spends.pure _

theorem disableRefclkAutok_spends : Spends isCall 20706 disableRefclkAutok := by
  refine spends_andThen (n := 616) (k := 20090) (readConfig_spends _) fun rate => Spends.modify_bind ?_
  refine Spends.ite ((fail_spends _ _ _).mono (Nat.zero_le _)) ?_
  refine (readConfig_spends _).bind (k := 19474) fun r => Spends.modify_bind ?_
  have hcalibrate : Spends isCall 19474 calibrate := calibrate_spends.mono (by decide)
  refine Spends.ite (Spends.pure false) (Spends.ite (Spends.modify_bind ?_) hcalibrate)
  refine (writeConfig_spends _ _).bind (k := 18242) fun ok => Spends.ite calibrate_spends ?_
  exact Spends.mono (restoreL1_spends.bind (k := 0) fun _ => Spends.pure false) (by decide)

theorem guarded_spends {body : Link Bool} (hbody : Spends isCall n body) : Spends isCall (4 + n) (guarded body) := by
  have henter : Spends isCall 4 enter := by
    refine Spends.get_bind fun d => Spends.ite ((fail_spends _ _ _).mono (Nat.zero_le 4)) ?_
    refine Spends.ite (Spends.pure false) ?_
    refine Spends.ask_bind (n := 1) (k := 3) (fun _ => Nat.le_refl 1) fun now => ?_
    refine Spends.ite ((fail_spends _ _ _).mono (Nat.zero_le 3)) (Spends.modify_bind ?_)
    exact spends_if (k := 0) check_spends (Spends.modify_bind (Spends.pure true)) rfl
  refine spends_if henter ?_ rfl
  exact hbody.bind (k := 0) fun ok => Spends.modify_bind (Spends.pure ok)

theorem preInit_spends (actualCut : UInt8) : Spends isCall 122903 (preInit actualCut) := by
  have hbefore : Spends isCall 102060 (every beforeL1) := by
    refine spends_every (n := 17010) fun m hm => ?_
    have hupdate : ∀ a clear set, Spends isCall 17010 (update32 a clear set allBits) :=
      fun a clear set => (update32_spends a clear set allBits).mono (by decide)
    simp only [beforeL1, List.mem_cons, List.not_mem_nil, or_false] at hm
    rcases hm with rfl | rfl | rfl | rfl | rfl | rfl
    · exact hupdate _ _ _
    · exact hupdate _ _ _
    · exact hupdate _ _ _
    · exact hupdate _ _ _
    · exact updateMdio_spends _ _ _ _
    · exact updateMdio_spends _ _ _ _
  have hafter : Spends isCall 42 (every afterL1) := by
    refine spends_every (n := 21) fun m hm => ?_
    simp only [afterL1, List.mem_cons, List.not_mem_nil, or_false] at hm
    rcases hm with rfl | rfl <;> exact update32_spends _ _ _ _
  have hlinkBandwidth : Spends isCall 91 linkBandwidth := by
    refine spends_andThen (n := 7) (k := 84) (reading_spends .word _) fun old => spends_every (n := 21) fun m hm => ?_
    simp only [List.mem_cons, List.not_mem_nil, or_false] at hm
    rcases hm with rfl | rfl | rfl | rfl
    · exact (writing_spends .word _ _).mono (by decide)
    · exact update32_spends _ _ _ _
    · exact update32_spends _ _ _ _
    · exact update32_spends _ _ _ _
  refine Spends.get_bind fun d => Spends.ite (Spends.pure false) (guarded_spends (n := 122899) ?_)
  refine Spends.ite ((fail_spends _ _ _).mono (Nat.zero_le _)) (Spends.modify_bind ?_)
  refine spends_if (k := 0) ?_ (Spends.modify_bind (Spends.pure true)) rfl
  exact hbefore.both (disableRefclkAutok_spends.both (hafter.both hlinkBandwidth))

theorem postInit_spends : Spends isCall 277 postInit := by
  have hlatency : Spends isCall 273 (every latency) := by
    refine spends_every (n := 21) fun m hm => ?_
    rcases List.mem_append.1 hm with hm | hm
    · rcases List.mem_map.1 hm with ⟨a, -, rfl⟩
      exact spends_andThen (n := 7) (k := 14) (reading_spends .word a) fun _ => Spends.pure true
    · simp only [List.mem_cons, List.not_mem_nil, or_false] at hm
      have hfull : ∀ a v, Spends isCall 21 (full32 a v) := fun a v => (full32_spends a v).mono (by decide)
      rcases hm with rfl | rfl | rfl | rfl | rfl | rfl | rfl | rfl | rfl
      · exact update32_spends _ _ _ _
      · exact update32_spends _ _ _ _
      · exact update32_spends _ _ _ _
      · exact update32_spends _ _ _ _
      · exact update32_spends _ _ _ _
      · exact hfull _ _
      · exact hfull _ _
      · exact update32_spends _ _ _ _
      · exact update32_spends _ _ _ _
  refine Spends.get_bind fun d => Spends.ite (Spends.pure false) (guarded_spends (n := 273) ?_)
  refine Spends.get_bind fun d => Spends.ite ((fail_spends _ _ _).mono (Nat.zero_le _)) ?_
  exact spends_if (k := 0) hlatency (Spends.modify_bind (Spends.pure true)) rfl

end Costs

end PciLink
end Rtl8852be
