import Rtl8852be.Bits.Memory

/-!
# Records — runs of bytes at their offsets

A record in memory is written run by run, each at an offset of its own.  Runs that follow each other do
not overlap, so every one of them reads back, and no byte outside them changes.

* `storeAll_outside` — bytes of no run are kept;
* `load_storeAll` — a run reads back;
* `storeAll_clear` — a record that is cleared first has nothing else in it.
-/

namespace Rtl8852be
namespace Bits

/-- Bytes, and the offset at which they are written. -/
structure Run where
  offset : ℕ
  bytes : List UInt8

def Run.stop (run : Run) : ℕ := run.offset + run.bytes.length

def Run.Has (run : Run) (i : ℕ) : Prop := run.offset ≤ i ∧ i < run.stop

/-- Each run begins where or after the ones before it end. -/
def Ascending (runs : List Run) : Prop := runs.Pairwise fun a b => a.stop ≤ b.offset

namespace Memory

variable {m : Memory} {base n i a : ℕ} {run : Run} {runs : List Run}

def storeAll (m : Memory) (base : ℕ) (runs : List Run) : Memory :=
  runs.foldl (fun m run => m.store (base + run.offset) run.bytes) m

def clear (m : Memory) (base n : ℕ) : Memory := m.store base (List.replicate n 0)

theorem clear_apply (h : base ≤ a ∧ a < base + n) : m.clear base n a = 0 := by
  have hlength : a - base < (List.replicate n (0 : UInt8)).length := by
    rw [List.length_replicate]
    omega
  have haddress : a = base + (a - base) := by omega
  rw [clear, haddress, store_apply_of_lt hlength, List.getElem_replicate]

theorem clear_outside (h : ¬ (base ≤ a ∧ a < base + n)) : m.clear base n a = m a := by
  refine store_apply_of_not ?_
  rw [List.length_replicate]
  exact h

theorem storeAll_outside (h : ∀ run ∈ runs, ¬ (base + run.offset ≤ a ∧ a < base + run.stop)) :
    m.storeAll base runs a = m a := by
  induction runs generalizing m with
  | nil => rfl
  | cons run rest ih =>
      have hrun : ¬ (base + run.offset ≤ a ∧ a < base + run.offset + run.bytes.length) := by
        rw [Nat.add_assoc]
        exact h run List.mem_cons_self
      calc m.storeAll base (run :: rest) a
          = (m.store (base + run.offset) run.bytes).storeAll base rest a := rfl
        _ = m.store (base + run.offset) run.bytes a := ih fun r hr => h r (List.mem_cons_of_mem run hr)
        _ = m a := store_apply_of_not hrun

theorem storeAll_apply (hruns : Ascending runs) (hrun : run ∈ runs) (hi : i < run.bytes.length) :
    m.storeAll base runs (base + run.offset + i) = run.bytes[i] := by
  induction runs generalizing m with
  | nil => exact absurd hrun List.not_mem_nil
  | cons first rest ih =>
      rcases List.pairwise_cons.1 hruns with ⟨hfirst, hrest⟩
      rcases List.mem_cons.1 hrun with rfl | hlater
      · -- The runs after it begin behind it.
        have hkept : ∀ r ∈ rest, ¬ (base + r.offset ≤ base + run.offset + i ∧
            base + run.offset + i < base + r.stop) := by
          intro r hr
          have hafter := hfirst r hr
          unfold Run.stop at hafter
          omega
        calc m.storeAll base (run :: rest) (base + run.offset + i)
            = (m.store (base + run.offset) run.bytes).storeAll base rest (base + run.offset + i) := rfl
          _ = m.store (base + run.offset) run.bytes (base + run.offset + i) := storeAll_outside hkept
          _ = run.bytes[i] := store_apply_of_lt hi
      · exact ih hrest hlater

theorem load_storeAll (hruns : Ascending runs) (hrun : run ∈ runs) :
    (m.storeAll base runs).load (base + run.offset) run.bytes.length = run.bytes := by
  apply List.ext_getElem
  · rw [length_load]
  · intro i _ hi
    simp only [load, List.getElem_map, List.getElem_range]
    exact storeAll_apply hruns hrun hi

/-- In a record that is cleared first, a byte of no run is zero. -/
theorem storeAll_clear (hi : i < n) (h : ∀ run ∈ runs, ¬ run.Has i) :
    (m.clear base n).storeAll base runs (base + i) = 0 := by
  have hkept : ∀ run ∈ runs, ¬ (base + run.offset ≤ base + i ∧ base + i < base + run.stop) := by
    intro run hrun hin
    exact h run hrun ⟨by omega, by omega⟩
  rw [storeAll_outside hkept]
  exact clear_apply (by omega)

theorem load_add (m : Memory) (p a b : ℕ) : m.load p (a + b) = m.load p a ++ m.load (p + a) b := by
  simp only [load, List.range_add, List.map_append, List.map_map]
  congr 1
  refine List.map_congr_left fun i _ => ?_
  rw [Function.comp_apply, Nat.add_assoc]

theorem load_clear (m : Memory) (p n : ℕ) : (m.clear p n).load p n = List.replicate n 0 := by
  refine List.eq_replicate_iff.2 ⟨length_load, fun b hb => ?_⟩
  rcases List.mem_map.1 hb with ⟨i, hi, rfl⟩
  have hin := List.mem_range.1 hi
  exact clear_apply (by omega)

/-- What lies between the runs of a record that is cleared first. -/
theorem load_gap {lo len : ℕ} (hend : lo + len ≤ n)
    (h : ∀ run ∈ runs, run.stop ≤ lo ∨ lo + len ≤ run.offset) :
    ((m.clear base n).storeAll base runs).load (base + lo) len = List.replicate len 0 := by
  refine List.eq_replicate_iff.2 ⟨length_load, fun b hb => ?_⟩
  rcases List.mem_map.1 hb with ⟨i, hi, rfl⟩
  have hin := List.mem_range.1 hi
  rw [Nat.add_assoc]
  refine storeAll_clear (by omega) fun run hrun hhas => ?_
  rcases h run hrun with hbefore | hafter
  · exact absurd hhas.2 (by omega)
  · exact absurd hhas.1 (by omega)

end Memory

end Bits
end Rtl8852be
