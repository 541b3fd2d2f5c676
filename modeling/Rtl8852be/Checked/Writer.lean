import Rtl8852be.Checked.Reader

/-!
# Writer — code that fills an array

A write outside of its array ends the code, as a read does.  `copyBytes` is a copy of a run of bytes, as a
loop or as `memcpy`.
-/

namespace Rtl8852be
namespace Checked

variable {ε α : Type} {F : ε → Prop}

/-- `target[i] = value` -/
def put (target : List α) (i : ℕ) (value : α) : Reader ε (List α) :=
  if i < target.length then .ok (target.set i value) else .error .outside

theorem Safe.put {target : List α} {i : ℕ} {value : α} (h : i < target.length) :
    Safe F (fun t => t = target.set i value) (Checked.put target i value) := by
  rw [Checked.put, if_pos h]
  exact Safe.pure rfl

/-- `n` bytes of the source, from `start` on, to the target, from `index` on, each with its value there. -/
def copyBytes (value : UInt8 → α) (source : List UInt8) : ℕ → ℕ → ℕ → List α → Reader ε (List α)
  | 0, _, _, target => return target
  | n + 1, start, index, target => do
      let b ← byteAt source start
      let target ← put target index (value b)
      copyBytes value source n (start + 1) (index + 1) target

theorem Safe.copyBytes {value : UInt8 → α} {source : List UInt8} {written blank : List α} {n start : ℕ}
    (hsource : start + n ≤ source.length) (hblank : n ≤ blank.length) :
    Safe F (fun target => target = written ++ ((source.drop start).take n).map value ++ blank.drop n)
      (Checked.copyBytes value source n start written.length (written ++ blank)) := by
  induction n generalizing start written blank with
  | zero =>
      unfold Checked.copyBytes
      refine Safe.pure ?_
      rw [List.take_zero, List.map_nil, List.append_nil, List.drop_zero]
  | succ n ih =>
      cases blank with
      | nil => exact absurd hblank (Nat.not_succ_le_zero n)
      | cons old blank =>
          have hread : start < source.length := by omega
          have hindex : written.length < (written ++ old :: blank).length := by
            rw [List.length_append, List.length_cons]
            omega
          unfold Checked.copyBytes
          refine Safe.bind (Safe.byteAt hread) fun b hb => ?_
          refine Safe.bind (Safe.put hindex) fun target htarget => ?_
          have hset : target = (written ++ [value b]) ++ blank := by
            rw [htarget, List.set_append_right _ _ (Nat.le_refl _), Nat.sub_self, List.set_cons_zero,
              List.append_assoc, List.singleton_append]
          have hlength : written.length + 1 = (written ++ [value b]).length := by
            rw [List.length_append, List.length_singleton]
          rw [hset, hlength]
          refine Safe.mono (ih (by omega) (Nat.le_of_succ_le_succ hblank)) fun final hfinal => ?_
          have hfirst : (source.drop start).take (n + 1) = b :: (source.drop (start + 1)).take n := by
            rw [List.drop_eq_getElem_cons (by omega), List.take_succ_cons, hb, List.getD_eq_getElem?_getD,
              List.getElem?_eq_getElem hread, Option.getD_some]
          rw [hfinal, hfirst, List.map_cons, List.drop_succ_cons, List.append_assoc, List.append_assoc,
            List.append_assoc, List.singleton_append, List.cons_append]

end Checked
end Rtl8852be
