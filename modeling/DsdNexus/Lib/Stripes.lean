import Mathlib.Algebra.Order.Ring.Nat
import DsdNexus.Lib.Slice

/-! # Pieces of joined blocks

Blocks of one size laid end to end, and pieces cut out of single blocks. Pieces that run
on from one another make up a range of the joined blocks.
-/

namespace DsdNexus.Stripes

variable {α : Type*}

/-- A stretch of one block. -/
structure Piece where
  block : Nat
  offset : Nat
  length : Nat
  deriving DecidableEq, Repr

def Piece.cut (g : Nat → List α) (x : Piece) : List α := slice (g x.block) x.offset x.length

/-- The same stretch `d` blocks on. -/
def Piece.shift (d : Nat) (x : Piece) : Piece := { x with block := d + x.block }

/-- The first `n` blocks, end to end. -/
def joined (g : Nat → List α) (n : Nat) : List α := (List.range n).flatMap g

/-- The pieces run on from the place `pos` of the joined blocks of size `size`. -/
def Runs (size : Nat) : Nat → List Piece → Prop
  | _, [] => True
  | pos, x :: xs =>
    size * x.block + x.offset = pos ∧ x.offset + x.length ≤ size ∧ Runs size (pos + x.length) xs

instance Runs.decidable (size : Nat) : ∀ pos xs, Decidable (Runs size pos xs)
  | _, [] => inferInstanceAs (Decidable True)
  | pos, x :: xs =>
    have := Runs.decidable size (pos + x.length) xs
    inferInstanceAs (Decidable (_ ∧ _ ∧ _))

variable {g : Nat → List α} {size n : Nat}

theorem joined_succ : joined g (n + 1) = joined g n ++ g n := by
  simp [joined, List.range_succ]

theorem joined_length (hsize : ∀ k < n, (g k).length = size) :
    (joined g n).length = size * n := by
  induction n with
  | zero => rfl
  | succ n ih =>
    rw [joined_succ, List.length_append, ih fun k hk => hsize k (by omega), hsize n (by omega),
      Nat.mul_succ]

theorem slice_add (xs : List α) (p v w : Nat) :
    slice xs p (v + w) = slice xs p v ++ slice xs (p + v) w := by
  rw [slice, slice, slice, List.take_add, List.drop_drop]

/-- A stretch of a block is a stretch of the joined blocks. -/
theorem slice_joined (hsize : ∀ k < n, (g k).length = size) {k p w : Nat} (hk : k < n)
    (hp : p + w ≤ size) : slice (joined g n) (size * k + p) w = slice (g k) p w := by
  induction n with
  | zero => exact absurd hk (Nat.not_lt_zero k)
  | succ n ih =>
    have hlen : (joined g n).length = size * n := joined_length fun i hi => hsize i (by omega)
    rw [joined_succ]
    rcases Nat.lt_succ_iff_lt_or_eq.1 hk with hlt | rfl
    · have hroom : size * k + size ≤ size * n := by
        rw [← Nat.mul_succ]
        exact Nat.mul_le_mul_left size hlt
      rw [slice_append_left (by omega), ih (fun i hi => hsize i (by omega)) hlt]
    · rw [← hlen, slice_append_right]

theorem flatMap_cut (hsize : ∀ k < n, (g k).length = size) {xs : List Piece} {pos : Nat}
    (hruns : Runs size pos xs) (hblocks : ∀ x ∈ xs, x.block < n) :
    xs.flatMap (Piece.cut g) = slice (joined g n) pos (xs.map Piece.length).sum := by
  induction xs generalizing pos with
  | nil => simp [slice]
  | cons x xs ih =>
    obtain ⟨hpos, hfits, hrest⟩ := hruns
    rw [List.flatMap_cons, List.map_cons, List.sum_cons, slice_add,
      ih hrest fun y hy => hblocks y (List.mem_cons_of_mem x hy), Piece.cut, ← hpos,
      slice_joined hsize (hblocks x List.mem_cons_self) hfits]

theorem Runs.shift {xs : List Piece} {pos : Nat} (h : Runs size pos xs) (d : Nat) :
    Runs size (size * d + pos) (xs.map (Piece.shift d)) := by
  induction xs generalizing pos with
  | nil => exact trivial
  | cons x xs ih =>
    obtain ⟨hpos, hfits, hrest⟩ := h
    refine ⟨?_, hfits, ?_⟩
    · simp only [Piece.shift]
      rw [Nat.mul_add]
      omega
    · have hnext := ih hrest
      rwa [← Nat.add_assoc] at hnext

end DsdNexus.Stripes
