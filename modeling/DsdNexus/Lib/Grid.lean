import DsdNexus.Lib.Patch

/-! # Rows of one length

A list that is cut into rows of `w` elements: its cells, and what the rows laid end to end
have in them.
-/

namespace DsdNexus.Grid

variable {α β : Type*} {w : Nat} {rows : List (List α)}

theorem flatten_length (h : ∀ row ∈ rows, row.length = w) :
    rows.flatten.length = rows.length * w := by
  induction rows with
  | nil => simp
  | cons row rows ih =>
    rw [List.flatten_cons, List.length_append, h row (.head _), ih fun r hr => h r (.tail _ hr),
      List.length_cons, Nat.add_mul, Nat.one_mul, Nat.add_comm]

/-- The cell `j` of the row `i`. -/
theorem getD_flatten (h : ∀ row ∈ rows, row.length = w) (i : Nat) {j : Nat} (hj : j < w)
    (fill : α) : rows.flatten.getD (i * w + j) fill = (rows.getD i []).getD j fill := by
  induction rows generalizing i with
  | nil => simp
  | cons row rows ih =>
    have hrow : row.length = w := h row (.head _)
    cases i with
    | zero =>
      rw [List.flatten_cons, Nat.zero_mul, Nat.zero_add, List.getD_append _ _ _ _ (by omega)]
      rfl
    | succ i =>
      have hplace : (i + 1) * w + j = row.length + (i * w + j) := by
        rw [Nat.add_mul, Nat.one_mul, hrow]
        omega
      rw [List.flatten_cons, hplace, List.getD_append_right _ _ _ _ (by omega),
        Nat.add_sub_cancel_left, ih (fun r hr => h r (.tail _ hr))]
      rfl

/-- Two lists of `n` rows are the same where their cells are. -/
theorem eq_of_cells {xs ys : List α} {n : Nat} (hx : xs.length = n * w) (hy : ys.length = n * w)
    (fill : α) (h : ∀ i < n, ∀ j < w, xs.getD (i * w + j) fill = ys.getD (i * w + j) fill) :
    xs = ys := by
  refine Patch.eq_of_getD fill (hx.trans hy.symm) fun k => ?_
  by_cases hk : k < n * w
  · have hw : 0 < w := by
      rw [Nat.pos_iff_ne_zero]
      rintro rfl
      omega
    have hsplit : k / w * w + k % w = k := by rw [Nat.mul_comm, Nat.div_add_mod]
    have hcell := h (k / w) (Nat.div_lt_of_lt_mul (by rwa [Nat.mul_comm])) (k % w) (Nat.mod_lt k hw)
    rwa [hsplit] at hcell
  · rw [List.getD_eq_default _ _ (by omega), List.getD_eq_default _ _ (by omega)]

theorem getD_map {xs : List α} {i : Nat} (hi : i < xs.length) (f : α → β) (d : α) (e : β) :
    (xs.map f).getD i e = f (xs.getD i d) := by
  simp [List.getD, hi]

end DsdNexus.Grid
