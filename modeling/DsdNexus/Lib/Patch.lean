import Mathlib.Data.List.GetD
import Mathlib.Data.List.Induction
import Mathlib.Order.Lattice

/-! # Patching a list

A range overwrites a list from an offset on; a gap past the end is filled. A patch
leaves the list alone where the range is empty, the overwriting of a buffer grows it to
the offset even then. Both are compared through what each place holds in the end.
-/

namespace DsdNexus.Patch

variable {α : Type*} (fill : α)

/-- An offset and what goes there. -/
abbrev Range (α : Type*) := Nat × List α

def Range.finish (r : Range α) : Nat := r.1 + r.2.length

/-- `xs` with `r` in place; what lies between the end of `xs` and the range is filled. -/
def overwrite (xs : List α) (r : Range α) : List α :=
  (xs ++ List.replicate (r.1 - xs.length) fill).take r.1 ++ r.2 ++ xs.drop r.finish

/-- The patch of a file: writing nothing changes nothing. -/
def patch (xs : List α) (r : Range α) : List α :=
  if r.2 = [] then xs else overwrite fill xs r

def overwriteAll (xs : List α) (rs : List (Range α)) : List α := rs.foldl (overwrite fill) xs

def patchAll (xs : List α) (rs : List (Range α)) : List α := rs.foldl (patch fill) xs

/-- The end of the range that reaches farthest. -/
def reach (rs : List (Range α)) : Nat := (rs.map Range.finish).foldr max 0

/-- The same, over the ranges that write something. -/
def written (rs : List (Range α)) : Nat := reach (rs.filter fun r => r.2 ≠ [])

/-- Place `i` is in the range. -/
def Range.Has (r : Range α) (i : Nat) : Prop := r.1 ≤ i ∧ i < r.finish

instance (r : Range α) (i : Nat) : Decidable (r.Has i) := inferInstanceAs (Decidable (_ ∧ _))

def Covered (rs : List (Range α)) (i : Nat) : Prop := ∃ r ∈ rs, r.Has i

instance (rs : List (Range α)) (i : Nat) : Decidable (Covered rs i) :=
  inferInstanceAs (Decidable (∃ r ∈ rs, _))

/-! ## One range -/

theorem overwrite_length (xs : List α) (r : Range α) :
    (overwrite fill xs r).length = max xs.length r.finish := by
  simp only [overwrite, Range.finish, List.length_append, List.length_take, List.length_replicate,
    List.length_drop]
  omega

theorem overwrite_getD (xs : List α) (r : Range α) (i : Nat) :
    (overwrite fill xs r).getD i fill =
      if r.Has i then r.2.getD (i - r.1) fill else xs.getD i fill := by
  have hleft : ((xs ++ List.replicate (r.1 - xs.length) fill).take r.1).length = r.1 := by
    simp only [List.length_take, List.length_append, List.length_replicate]
    omega
  have hhas : r.Has i ↔ r.1 ≤ i ∧ i < r.1 + r.2.length := Iff.rfl
  simp only [overwrite, List.append_assoc, Range.finish]
  by_cases hlt : i < r.1
  · rw [List.getD_append _ _ _ _ (by omega), if_neg (by rw [hhas]; omega)]
    by_cases hin : i < xs.length
    · rw [List.getD_eq_getElem _ _ (by omega), List.getElem_take, List.getElem_append_left hin,
        List.getD_eq_getElem _ _ hin]
    · rw [List.getD_eq_getElem _ _ (by omega), List.getElem_take,
        List.getElem_append_right (by omega), List.getElem_replicate,
        List.getD_eq_default _ _ (by omega)]
  · rw [List.getD_append_right _ _ _ _ (by omega), hleft]
    by_cases hin : i < r.1 + r.2.length
    · rw [List.getD_append _ _ _ _ (by omega), if_pos (hhas.2 ⟨by omega, hin⟩)]
    · rw [List.getD_append_right _ _ _ _ (by omega), if_neg (by rw [hhas]; omega),
        List.getD_eq_getElem?_getD, List.getElem?_drop, ← List.getD_eq_getElem?_getD]
      congr 1
      omega

theorem patch_length (xs : List α) (r : Range α) :
    (patch fill xs r).length = if r.2 = [] then xs.length else max xs.length r.finish := by
  unfold patch
  split
  · rfl
  · exact overwrite_length fill xs r

theorem patch_getD (xs : List α) (r : Range α) (i : Nat) :
    (patch fill xs r).getD i fill = (overwrite fill xs r).getD i fill := by
  unfold patch
  split
  · next hempty =>
    have hout : ¬ r.Has i := by
      rintro ⟨hle, hlt⟩
      simp only [Range.finish, hempty, List.length_nil] at hlt
      omega
    rw [overwrite_getD, if_neg hout]
  · rfl

/-! ## All ranges -/

theorem reach_snoc (rs : List (Range α)) (r : Range α) :
    reach (rs ++ [r]) = max (reach rs) r.finish := by
  induction rs with
  | nil => simp [reach]
  | cons q rs ih =>
    have hcons : ∀ qs : List (Range α), reach (q :: qs) = max q.finish (reach qs) := fun _ => rfl
    rw [List.cons_append, hcons, ih, hcons, max_assoc]

theorem le_reach {rs : List (Range α)} {r : Range α} (h : r ∈ rs) : r.finish ≤ reach rs := by
  induction rs with
  | nil => cases h
  | cons q rs ih =>
    have hcons : reach (q :: rs) = max q.finish (reach rs) := rfl
    rw [hcons]
    rcases List.mem_cons.1 h with rfl | hmem
    · exact le_max_left _ _
    · exact le_trans (ih hmem) (le_max_right _ _)

theorem written_snoc (rs : List (Range α)) (r : Range α) :
    written (rs ++ [r]) = if r.2 = [] then written rs else max (written rs) r.finish := by
  unfold written
  rw [List.filter_append]
  split
  · next hempty => simp [hempty]
  · next hne =>
    have hkeep : [r].filter (fun r => r.2 ≠ []) = [r] := by simp [hne]
    rw [hkeep, reach_snoc]

theorem overwriteAll_snoc (xs : List α) (rs : List (Range α)) (r : Range α) :
    overwriteAll fill xs (rs ++ [r]) = overwrite fill (overwriteAll fill xs rs) r := by
  simp [overwriteAll]

theorem patchAll_snoc (xs : List α) (rs : List (Range α)) (r : Range α) :
    patchAll fill xs (rs ++ [r]) = patch fill (patchAll fill xs rs) r := by
  simp [patchAll]

theorem overwriteAll_length (xs : List α) (rs : List (Range α)) :
    (overwriteAll fill xs rs).length = max xs.length (reach rs) := by
  induction rs using List.reverseRecOn with
  | nil => simp [overwriteAll, reach]
  | append_singleton rs r ih =>
    rw [overwriteAll_snoc, overwrite_length, ih, reach_snoc, max_assoc]

theorem patchAll_length (xs : List α) (rs : List (Range α)) :
    (patchAll fill xs rs).length = max xs.length (written rs) := by
  induction rs using List.reverseRecOn with
  | nil => simp [patchAll, written, reach]
  | append_singleton rs r ih =>
    rw [patchAll_snoc, patch_length, ih, written_snoc]
    split
    · rfl
    · rw [max_assoc]

/-- A covered place ends up the same wherever the ranges are written, the others keep
what they held. -/
theorem overwriteAll_getD (xs ys : List α) (rs : List (Range α)) (i : Nat) :
    (overwriteAll fill xs rs).getD i fill =
      if Covered rs i then (patchAll fill ys rs).getD i fill else xs.getD i fill := by
  induction rs using List.reverseRecOn with
  | nil => simp [overwriteAll, Covered]
  | append_singleton rs r ih =>
    have hcovered : Covered (rs ++ [r]) i ↔ Covered rs i ∨ r.Has i := by
      simp [Covered, or_and_right, exists_or]
    rw [overwriteAll_snoc, patchAll_snoc, overwrite_getD, patch_getD, overwrite_getD, ih]
    by_cases hhas : r.Has i
    · rw [if_pos hhas, if_pos hhas, if_pos (hcovered.2 (Or.inr hhas))]
    · have hsame : Covered (rs ++ [r]) i ↔ Covered rs i := by simp [hcovered, hhas]
      simp only [hhas, if_false, hsame]

theorem patchAll_getD_of_not_covered (xs : List α) {rs : List (Range α)} {i : Nat}
    (h : ¬ Covered rs i) : (patchAll fill xs rs).getD i fill = xs.getD i fill := by
  induction rs using List.reverseRecOn with
  | nil => rfl
  | append_singleton rs r ih =>
    have hhas : ¬ r.Has i := fun hr => h ⟨r, by simp, hr⟩
    have hrs : ¬ Covered rs i := fun ⟨q, hq, hin⟩ => h ⟨q, by simp [hq], hin⟩
    rw [patchAll_snoc, patch_getD, overwrite_getD, if_neg hhas, ih hrs]

/-- Lists of one length that hold the same everywhere are equal. -/
theorem eq_of_getD {xs ys : List α} (hlen : xs.length = ys.length)
    (h : ∀ i, xs.getD i fill = ys.getD i fill) : xs = ys := by
  refine List.ext_getElem hlen fun i hx hy => ?_
  have hi := h i
  rwa [List.getD_eq_getElem _ _ hx, List.getD_eq_getElem _ _ hy] at hi

/-! ## Ranges beside each other -/

/-- A range behind the end is appended. -/
theorem patch_at_end (xs ys : List α) : patch fill xs (xs.length, ys) = xs ++ ys := by
  by_cases hys : ys = []
  · simp [patch, hys]
  · have hdrop : xs.drop (xs.length + ys.length) = [] := List.drop_eq_nil_of_le (by omega)
    simp [patch, hys, overwrite, Range.finish, hdrop]

/-- A range inside replaces as much as it brings. -/
theorem patch_mid (pre old new post : List α) (h : old.length = new.length) :
    patch fill (pre ++ (old ++ post)) (pre.length, new) = pre ++ (new ++ post) := by
  by_cases hnew : new = []
  · have hold : old = [] := List.eq_nil_of_length_eq_zero (by simp [h, hnew])
    simp [patch, hnew, hold]
  · have hgap : pre.length - (pre.length + (old.length + post.length)) = 0 := by omega
    have hdrop : (pre ++ (old ++ post)).drop (pre.length + new.length) = post := by
      rw [← h, ← List.append_assoc, ← List.length_append, List.drop_left]
    simp [patch, hnew, overwrite, Range.finish, hgap, hdrop]

/-- A range and the one right behind it are one range. -/
theorem patch_patch (xs : List α) (p : Nat) (ys zs : List α) :
    patch fill (patch fill xs (p, ys)) (p + ys.length, zs) = patch fill xs (p, ys ++ zs) := by
  by_cases hys : ys = []
  · simp [patch, hys]
  by_cases hzs : zs = []
  · simp [patch, hzs]
  have hboth : ys ++ zs ≠ [] := by simp [hys]
  refine eq_of_getD fill ?_ fun i => ?_
  · simp only [patch_length, if_neg hys, if_neg hzs, if_neg hboth, Range.finish,
      List.length_append]
    omega
  · have hhas : ∀ (q : Nat) (ws : List α), Range.Has (q, ws) i ↔ q ≤ i ∧ i < q + ws.length :=
      fun _ _ => Iff.rfl
    have hlen : (ys ++ zs).length = ys.length + zs.length := List.length_append
    rw [patch_getD, overwrite_getD, patch_getD, overwrite_getD, patch_getD, overwrite_getD]
    dsimp only
    by_cases hfirst : i < p
    · rw [if_neg (by rw [hhas]; omega), if_neg (by rw [hhas]; omega),
        if_neg (by rw [hhas]; omega)]
    by_cases hys' : i < p + ys.length
    · rw [if_neg (by rw [hhas]; omega), if_pos ((hhas _ _).2 (by omega)),
        if_pos ((hhas _ _).2 (by omega)), List.getD_append _ _ _ _ (by omega)]
    by_cases hzs' : i < p + ys.length + zs.length
    · rw [if_pos ((hhas _ _).2 (by omega)), if_pos ((hhas _ _).2 (by omega)),
        List.getD_append_right _ _ _ _ (by omega), Nat.sub_add_eq]
    · rw [if_neg (by rw [hhas]; omega), if_neg (by rw [hhas]; omega),
        if_neg (by rw [hhas]; omega)]

/-- What `xs` has to be for the ranges, written into an empty buffer, to make the same
of it as written over `xs`. -/
structure Fills (xs : List α) (rs : List (Range α)) : Prop where
  /-- Some range ends at the end of `xs` or beyond. -/
  reach : xs.length ≤ reach rs
  /-- No empty range lies beyond both `xs` and what is written. -/
  empties : Patch.reach rs ≤ max xs.length (written rs)
  /-- What no range covers is filling. -/
  uncovered : ∀ i < xs.length, ¬ Covered rs i → xs.getD i fill = fill

theorem overwriteAll_nil_eq_patchAll_iff (xs : List α) (rs : List (Range α)) :
    overwriteAll fill [] rs = patchAll fill xs rs ↔ Fills fill xs rs := by
  have hover := overwriteAll_length fill [] rs
  have hpatch := patchAll_length fill xs rs
  constructor
  · intro heq
    have hlen : reach rs = max xs.length (written rs) := by
      rw [← hpatch, ← heq, hover]
      simp
    constructor
    · omega
    · omega
    · intro i _ hout
      have hi := overwriteAll_getD fill [] xs rs i
      rw [if_neg hout, heq, patchAll_getD_of_not_covered fill xs hout] at hi
      simpa using hi
  · intro h
    have hsub : written rs ≤ reach rs := by
      clear h hover hpatch
      induction rs using List.reverseRecOn with
      | nil => simp [written, reach]
      | append_singleton rs r ih =>
        rw [written_snoc, reach_snoc]
        split <;> omega
    have hreach := h.reach
    have hempties := h.empties
    refine eq_of_getD fill ?_ fun i => ?_
    · rw [hover, hpatch]
      simp only [List.length_nil]
      omega
    · rw [overwriteAll_getD fill [] xs rs i]
      split
      · rfl
      · next hout =>
        rw [patchAll_getD_of_not_covered fill xs hout]
        by_cases hi : i < xs.length
        · rw [h.uncovered i hi hout]
          simp
        · have hbeyond : xs.getD i fill = fill := List.getD_eq_default _ _ (by omega)
          rw [hbeyond]
          simp

/-- Ranges that write nothing are no patch. -/
theorem patchAll_of_empty (xs : List α) {rs : List (Range α)} (h : ∀ r ∈ rs, r.2 = []) :
    patchAll fill xs rs = xs := by
  induction rs with
  | nil => rfl
  | cons r rs ih =>
    have hr : patch fill xs r = xs := if_pos (h r (by simp))
    rw [patchAll, List.foldl_cons, hr]
    exact ih fun q hq => h q (by simp [hq])

end DsdNexus.Patch
