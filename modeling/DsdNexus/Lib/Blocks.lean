import Mathlib.Data.List.Basic
import Mathlib.Tactic.Ring

/-! # Cutting a stream into blocks of one size

`fullBlocks n l` are the complete `n`-element blocks of `l`, `remainder n l` is
what is left after them. A buffer that is filled element by element and emptied
whenever it holds `n` elements computes exactly these two; the composition laws
below say how the cut of a stream follows from the cut of its parts.
-/

namespace DsdNexus.Blocks

variable {α : Type*}

/-- The complete blocks of `n` elements, in order. -/
def fullBlocks (n : Nat) (l : List α) : List (List α) :=
  if 0 < n ∧ n ≤ l.length then l.take n :: fullBlocks n (l.drop n) else []
termination_by l.length
decreasing_by simp only [List.length_drop]; omega

/-- The elements after the last complete block. -/
def remainder (n : Nat) (l : List α) : List α := l.drop (l.length / n * n)

theorem fullBlocks_of_short {n : Nat} {l : List α} (h : l.length < n) : fullBlocks n l = [] := by
  rw [fullBlocks, if_neg (by omega)]

theorem remainder_of_short {n : Nat} {l : List α} (h : l.length < n) : remainder n l = l := by
  simp [remainder, Nat.div_eq_of_lt h]

@[simp] theorem fullBlocks_nil (n : Nat) : fullBlocks n ([] : List α) = [] := by
  rw [fullBlocks, if_neg (by simp only [List.length_nil]; omega)]

@[simp] theorem remainder_nil (n : Nat) : remainder n ([] : List α) = [] := by
  simp [remainder]

theorem fullBlocks_block_append {n : Nat} {b l : List α} (hn : 0 < n) (hb : b.length = n) :
    fullBlocks n (b ++ l) = b :: fullBlocks n l := by
  rw [fullBlocks, if_pos ⟨hn, by rw [List.length_append]; omega⟩]
  simp [← hb]

theorem remainder_block_append {n : Nat} {b l : List α} (hn : 0 < n) (hb : b.length = n) :
    remainder n (b ++ l) = remainder n l := by
  have hdiv : (b.length + l.length) / n = l.length / n + 1 := by
    rw [hb, Nat.add_div_left _ hn]
  unfold remainder
  rw [List.length_append, hdiv, Nat.add_mul, Nat.one_mul, Nat.add_comm, ← hb, List.drop_append]
  simp

theorem remainder_length (n : Nat) (l : List α) : (remainder n l).length = l.length % n := by
  have h := Nat.div_add_mod l.length n
  rw [Nat.mul_comm] at h
  simp only [remainder, List.length_drop]
  omega

theorem remainder_length_lt {n : Nat} (hn : 0 < n) (l : List α) : (remainder n l).length < n := by
  rw [remainder_length]
  exact Nat.mod_lt _ hn

/-- Cutting a concatenation: the blocks of the front, then those of what the
front leaves over followed by the back. -/
theorem fullBlocks_append {n : Nat} (hn : 0 < n) (l m : List α) :
    fullBlocks n (l ++ m) = fullBlocks n l ++ fullBlocks n (remainder n l ++ m) := by
  induction hk : l.length using Nat.strongRecOn generalizing l with
  | ind k ih =>
    by_cases hs : l.length < n
    · rw [fullBlocks_of_short hs, remainder_of_short hs, List.nil_append]
    · have hb : (l.take n).length = n := by simp; omega
      have hl : l = l.take n ++ l.drop n := (List.take_append_drop n l).symm
      have hrec := ih (l.drop n).length (by simp only [List.length_drop]; omega) (l.drop n) rfl
      rw [hl, List.append_assoc, fullBlocks_block_append hn hb, fullBlocks_block_append hn hb,
        remainder_block_append hn hb, hrec]
      rfl

theorem remainder_append {n : Nat} (hn : 0 < n) (l m : List α) :
    remainder n (l ++ m) = remainder n (remainder n l ++ m) := by
  induction hk : l.length using Nat.strongRecOn generalizing l with
  | ind k ih =>
    by_cases hs : l.length < n
    · rw [remainder_of_short hs]
    · have hb : (l.take n).length = n := by simp; omega
      have hl : l = l.take n ++ l.drop n := (List.take_append_drop n l).symm
      have hrec := ih (l.drop n).length (by simp only [List.length_drop]; omega) (l.drop n) rfl
      rw [hl, List.append_assoc, remainder_block_append hn hb, remainder_block_append hn hb, hrec]

theorem remainder_of_dvd {n : Nat} {l : List α} (h : n ∣ l.length) : remainder n l = [] := by
  apply List.eq_nil_of_length_eq_zero
  rw [remainder_length]
  exact Nat.mod_eq_zero_of_dvd h

/-- A front of whole blocks leaves nothing over. -/
theorem fullBlocks_append_of_dvd {n : Nat} (hn : 0 < n) {l : List α} (m : List α)
    (h : n ∣ l.length) : fullBlocks n (l ++ m) = fullBlocks n l ++ fullBlocks n m := by
  rw [fullBlocks_append hn, remainder_of_dvd h, List.nil_append]

theorem length_of_mem_fullBlocks {n : Nat} {l b : List α} (h : b ∈ fullBlocks n l) :
    b.length = n := by
  induction hk : l.length using Nat.strongRecOn generalizing l with
  | ind k ih =>
    rw [fullBlocks] at h
    split at h
    · rename_i hc
      rcases List.mem_cons.mp h with rfl | h
      · simp; omega
      · exact ih (l.drop n).length (by simp only [List.length_drop]; omega) h rfl
    · cases h

theorem fullBlocks_length {n : Nat} (hn : 0 < n) (l : List α) :
    (fullBlocks n l).length = l.length / n := by
  induction hk : l.length using Nat.strongRecOn generalizing l with
  | ind k ih =>
    rw [fullBlocks]
    split
    · rename_i hc
      have hrec := ih (l.drop n).length (by simp only [List.length_drop]; omega) (l.drop n) rfl
      rw [List.length_cons, hrec, List.length_drop, ← hk, Nat.div_eq_sub_div hn hc.2]
    · rw [List.length_nil, Nat.div_eq_of_lt (by omega)]

theorem flatten_fullBlocks_append_remainder {n : Nat} (hn : 0 < n) (l : List α) :
    (fullBlocks n l).flatten ++ remainder n l = l := by
  induction hk : l.length using Nat.strongRecOn generalizing l with
  | ind k ih =>
    by_cases hs : l.length < n
    · rw [fullBlocks_of_short hs, remainder_of_short hs, List.flatten_nil, List.nil_append]
    · have hb : (l.take n).length = n := by simp; omega
      have hl : l = l.take n ++ l.drop n := (List.take_append_drop n l).symm
      have hrec := ih (l.drop n).length (by simp only [List.length_drop]; omega) (l.drop n) rfl
      rw [hl, fullBlocks_block_append hn hb, remainder_block_append hn hb, List.flatten_cons,
        List.append_assoc, hrec]

theorem flatten_fullBlocks_length {n : Nat} (hn : 0 < n) (l : List α) :
    (fullBlocks n l).flatten.length = l.length / n * n := by
  have hall := congrArg List.length (flatten_fullBlocks_append_remainder hn l)
  have hdm := Nat.div_add_mod l.length n
  rw [List.length_append, remainder_length] at hall
  rw [Nat.mul_comm]
  omega

theorem flatten_fullBlocks_of_dvd {n : Nat} (hn : 0 < n) {l : List α} (h : n ∣ l.length) :
    (fullBlocks n l).flatten = l := by
  have hall := flatten_fullBlocks_append_remainder hn l
  rwa [remainder_of_dvd h, List.append_nil] at hall

/-! ## The filling buffer -/

/-- One element enters the buffer; a buffer that reaches `n` elements leaves as
a block. -/
def push (n : Nat) (s : List (List α) × List α) (x : α) : List (List α) × List α :=
  if s.2.length + 1 = n then (s.1 ++ [s.2 ++ [x]], []) else (s.1, s.2 ++ [x])

/-- Feeding a whole list leaves the complete blocks emitted and the remainder buffered. -/
theorem foldl_push {n : Nat} (hn : 0 < n) (out : List (List α)) (buf xs : List α)
    (hb : buf.length < n) :
    xs.foldl (push n) (out, buf) =
      (out ++ fullBlocks n (buf ++ xs), remainder n (buf ++ xs)) := by
  induction xs generalizing out buf with
  | nil => simp [fullBlocks_of_short hb, remainder_of_short hb]
  | cons x xs ih =>
    have hassoc : buf ++ x :: xs = (buf ++ [x]) ++ xs := by simp
    rw [List.foldl_cons, hassoc]
    by_cases hfull : buf.length + 1 = n
    · have hblock : (buf ++ [x]).length = n := by simpa using hfull
      rw [push, if_pos hfull, ih _ _ (by simpa using hn), List.nil_append,
        fullBlocks_block_append hn hblock, remainder_block_append hn hblock]
      simp
    · rw [push, if_neg hfull, ih _ _ (by simp; omega)]

/-! ## The padded cut -/

/-- The last, partial block filled up with `z`; nothing when the cut is even. -/
def paddedRemainder (n : Nat) (z : α) (l : List α) : List (List α) :=
  if remainder n l = [] then []
  else [remainder n l ++ List.replicate (n - (remainder n l).length) z]

/-- All blocks of `l`, the last one padded with `z`. -/
def paddedBlocks (n : Nat) (z : α) (l : List α) : List (List α) :=
  fullBlocks n l ++ paddedRemainder n z l

theorem paddedRemainder_congr {n : Nat} {z : α} {l m : List α} (h : remainder n l = remainder n m) :
    paddedRemainder n z l = paddedRemainder n z m := by
  rw [paddedRemainder, paddedRemainder, h]

theorem paddedBlocks_append_of_dvd {n : Nat} (hn : 0 < n) (z : α) {l : List α} (m : List α)
    (h : n ∣ l.length) :
    paddedBlocks n z (l ++ m) = fullBlocks n l ++ paddedBlocks n z m := by
  have hr : remainder n (l ++ m) = remainder n m := by
    rw [remainder_append hn, remainder_of_dvd h, List.nil_append]
  rw [paddedBlocks, fullBlocks_append_of_dvd hn m h, paddedRemainder_congr hr, paddedBlocks,
    List.append_assoc]

theorem length_of_mem_paddedBlocks {n : Nat} (hn : 0 < n) {z : α} {l b : List α}
    (h : b ∈ paddedBlocks n z l) : b.length = n := by
  rcases List.mem_append.mp h with h | h
  · exact length_of_mem_fullBlocks h
  · rw [paddedRemainder] at h
    split at h
    · cases h
    · have hlt := remainder_length_lt hn l
      rw [List.mem_singleton.mp h, List.length_append, List.length_replicate]
      omega

theorem paddedBlocks_length {n : Nat} (hn : 0 < n) (z : α) (l : List α) :
    (paddedBlocks n z l).length = (l.length + n - 1) / n := by
  have hdm := Nat.div_add_mod l.length n
  have hr := remainder_length n l
  rw [paddedBlocks, List.length_append, fullBlocks_length hn, paddedRemainder]
  by_cases he : remainder n l = []
  · have hz : l.length % n = 0 := by rw [← hr, he, List.length_nil]
    rw [if_pos he, List.length_nil, Nat.add_zero]
    have hup : l.length + n - 1 = n * (l.length / n) + (n - 1) := by omega
    rw [hup, Nat.mul_add_div hn, Nat.div_eq_of_lt (show n - 1 < n by omega), Nat.add_zero]
  · have hpos : 0 < l.length % n := by
      rw [← hr]
      exact List.length_pos_iff.mpr he
    have hlt := Nat.mod_lt l.length hn
    rw [if_neg he, List.length_singleton]
    have hup : l.length + n - 1 = n * (l.length / n + 1) + (l.length % n - 1) := by
      rw [Nat.mul_add, Nat.mul_one]
      omega
    rw [hup, Nat.mul_add_div hn, Nat.div_eq_of_lt (show l.length % n - 1 < n by omega),
      Nat.add_zero]

end DsdNexus.Blocks
