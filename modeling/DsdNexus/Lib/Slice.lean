import DsdNexus.Lib.Patch

/-! # Ranges of a list

The elements of a list from a place on, so many of them, and what patching and cutting the
list do to them.
-/

namespace DsdNexus

variable {α : Type*}

/-- The `w` elements from the place `p` on, as far as the list has them. -/
def slice (xs : List α) (p w : Nat) : List α := (xs.drop p).take w

theorem slice_length (xs : List α) (p w : Nat) :
    (slice xs p w).length = min w (xs.length - p) := by
  rw [slice, List.length_take, List.length_drop]

theorem slice_length_of_le {xs : List α} {p w : Nat} (h : p + w ≤ xs.length) :
    (slice xs p w).length = w := by
  rw [slice_length]
  omega

theorem slice_getD (xs : List α) (p w i : Nat) (fill : α) :
    (slice xs p w).getD i fill = if i < w then xs.getD (p + i) fill else fill := by
  rw [slice]
  split
  · next hlt =>
    rw [List.getD_eq_getElem?_getD, List.getElem?_take_of_lt hlt, List.getElem?_drop,
      ← List.getD_eq_getElem?_getD]
  · next hge =>
    exact List.getD_eq_default _ _ ((List.length_take_le w _).trans (Nat.not_lt.1 hge))

/-- Up to the end of the list. -/
theorem slice_to_end {xs : List α} {p w : Nat} (h : xs.length ≤ p + w) :
    slice xs p w = xs.drop p := by
  rw [slice, List.take_of_length_le]
  rw [List.length_drop]
  omega

theorem slice_take {xs : List α} {p w n : Nat} (h : p + w ≤ n) :
    slice (xs.take n) p w = slice xs p w := by
  rw [slice, slice, List.drop_take, List.take_take, Nat.min_eq_left (by omega)]

theorem slice_append_left {xs ys : List α} {p w : Nat} (h : p + w ≤ xs.length) :
    slice (xs ++ ys) p w = slice xs p w := by
  rw [slice, slice, List.drop_append_of_le_length (by omega),
    List.take_append_of_le_length (by rw [List.length_drop]; omega)]

theorem slice_append_right (xs ys : List α) (p w : Nat) :
    slice (xs ++ ys) (xs.length + p) w = slice ys p w := by
  rw [slice, slice, List.drop_append, List.drop_eq_nil_of_le (by omega), List.nil_append,
    Nat.add_sub_cancel_left]

/-- A patch beside the range leaves it alone. -/
theorem slice_patch_apart (fill : α) {xs ys : List α} {p w q : Nat}
    (h : p + w ≤ q ∨ q + ys.length ≤ p) (hlen : p + w ≤ xs.length) :
    slice (Patch.patch fill xs (q, ys)) p w = slice xs p w := by
  have hle : xs.length ≤ (Patch.patch fill xs (q, ys)).length := by
    rw [Patch.patch_length]
    split
    · exact Nat.le_refl _
    · exact le_max_left _ _
  refine Patch.eq_of_getD fill ?_ fun i => ?_
  · rw [slice_length_of_le hlen, slice_length_of_le (hlen.trans hle)]
  · rw [slice_getD, slice_getD, Patch.patch_getD, Patch.overwrite_getD]
    split
    · next hi =>
      have hout : ¬ Patch.Range.Has (q, ys) (p + i) := by
        rintro ⟨hge, hlt⟩
        dsimp only [Patch.Range.finish] at hge hlt
        omega
      rw [if_neg hout]
    · rfl

/-- A patch over the whole range is what is found there. -/
theorem slice_patch_same (fill : α) (xs ys : List α) (q : Nat) :
    slice (Patch.patch fill xs (q, ys)) q ys.length = ys := by
  by_cases hys : ys = []
  · simp [hys, slice]
  have hlen : (Patch.patch fill xs (q, ys)).length = max xs.length (q + ys.length) := by
    rw [Patch.patch_length, if_neg hys]
    rfl
  refine Patch.eq_of_getD fill ?_ fun i => ?_
  · exact slice_length_of_le (hlen ▸ le_max_right _ _)
  · rw [slice_getD, Patch.patch_getD, Patch.overwrite_getD]
    split
    · next hi =>
      have hin : Patch.Range.Has (q, ys) (q + i) := by
        constructor
        · exact Nat.le_add_right q i
        · exact Nat.add_lt_add_left hi q
      rw [if_pos hin]
      congr 1
      exact Nat.add_sub_cancel_left q i
    · next hi => exact (List.getD_eq_default _ _ (Nat.not_lt.1 hi)).symm

end DsdNexus
