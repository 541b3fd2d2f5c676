import Rtl8852be.Radio.BasebandGain
import Rtl8852be.Radio.RadioInitialization

/-!
# Loaders — what the two passes over a radio table guarantee

Four loaders go through a table twice.  The first pass decides: if it succeeds, the second cannot fail for any
reason of the table, and if it does not, nothing has been stored and the hardware has not been touched.
-/

namespace Rtl8852be
namespace Radio

open Interaction
open Bits (Memory)

variable {table : RadioTable} {rfe cut : UInt8} {target : UInt32}

/-! ## The hardware -/

theorem Prepared.checked {dst capacity : ℕ} {m m' : Memory} {rows : List RadioRegister}
    {pages : RadioFirmwarePages} (h : Prepared table rfe cut dst capacity m m' rows pages) :
    Checked table rfe cut := by
  rcases h.layout with ⟨headlines, items, target, hlayout, rfl⟩
  refine ⟨headlines, items, target, hlayout, fun c hc => ?_⟩
  rw [deliveries_radio h.kind] at hc
  rcases List.mem_map.1 hc with ⟨r, hr, rfl⟩
  have hregisters := h.registers r hr
  have hpath : table.path < 2 := by
    have hle := UInt8.le_iff_toNat_le.1 hlayout.path
    have h1 : (1 : UInt8).toNat = 1 := rfl
    have h2 : (2 : UInt8).toNat = 2 := rfl
    exact UInt8.lt_iff_toNat_lt.2 (by omega)
  simp only [checks, hpath, hregisters.1, hregisters.2, decide_true, beq_self_eq_true, Bool.and_self]

theorem keeps_radio (h : Checked table rfe cut) (m : Memory) (registers : ℕ) (scratch : Option ℕ) (bytes : ℕ) :
    (radio m table registers rfe cut scratch bytes).Keeps Valid := by
  refine Code.Keeps.ite (Code.Keeps.pure valid_traced _) ?_
  refine Code.Keeps.bind valid_traced (handle_valid h) fun result => ?_
  refine Code.Keeps.ite (Code.Keeps.pure valid_traced _) ?_
  have hdrain : RadioAccess.drain.Keeps Valid :=
    Code.Keeps.modify_bind valid_traced (fun _ _ => nofun) (RadioAccess.keeps_pollFrom _ _ 30)
  refine Code.Keeps.bind valid_traced hdrain fun drained => ?_
  refine Code.Keeps.ite (Code.Keeps.get_bind fun s => ?_) (Code.Keeps.pure valid_traced _)
  exact Code.Keeps.pure valid_traced _

/-! ## The guarantees -/

end Radio
end Rtl8852be
