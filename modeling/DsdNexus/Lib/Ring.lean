import Mathlib.Data.List.Basic
import Mathlib.Data.Nat.ModEq
import Mathlib.Tactic.Common

/-! # Ring buffers

A fixed number of slots holds a queue: `count` slots from `tail` on, wrapping
around, and `head` is the slot after the last of them. The fields keep the head
in place and every slot of the queue filled.
-/

namespace DsdNexus

/-- A ring buffer with `capacity` slots. -/
structure Ring (α : Type) (capacity : Nat) where
  slots : List (Option α)
  head : Nat
  tail : Nat
  count : Nat
  length_eq : slots.length = capacity
  tail_lt : tail < capacity
  count_le : count ≤ capacity
  head_eq : head = (tail + count) % capacity
  filled : ∀ i < count, (slots.getD ((tail + i) % capacity) none).isSome = true

namespace Ring

variable {α : Type} {capacity : Nat}

/-! ## Places -/

theorem place_inj {tail i j : Nat} (hi : i < capacity) (hj : j < capacity)
    (h : (tail + i) % capacity = (tail + j) % capacity) : i = j := by
  have hmod : i ≡ j [MOD capacity] := Nat.ModEq.add_left_cancel' tail h
  exact Nat.ModEq.eq_of_lt_of_lt hmod hi hj

theorem place_succ (tail i : Nat) :
    ((tail + 1) % capacity + i) % capacity = (tail + (i + 1)) % capacity := by
  rw [Nat.mod_add_mod, Nat.add_assoc, Nat.add_comm 1 i]

theorem getD_set_same {xs : List (Option α)} {i : Nat} (h : i < xs.length) (x : Option α) :
    (xs.set i x).getD i none = x := by
  simp [List.getD, h]

theorem getD_set_other {xs : List (Option α)} {i j : Nat} (h : i ≠ j) (x : Option α) :
    (xs.set i x).getD j none = xs.getD j none := by
  simp [List.getD, List.getElem?_set_ne h]

/-! ## The queue it holds -/

/-- The queue, from the oldest element on. -/
def contents (r : Ring α capacity) : List α :=
  (List.range r.count).filterMap fun i => r.slots.getD ((r.tail + i) % capacity) none

theorem contents_eq_nil {r : Ring α capacity} (h : r.count = 0) : r.contents = [] := by
  simp [contents, h]

/-- An empty ring. -/
def empty (h : 0 < capacity) : Ring α capacity where
  slots := List.replicate capacity none
  head := 0
  tail := 0
  count := 0
  length_eq := List.length_replicate
  tail_lt := h
  count_le := Nat.zero_le _
  head_eq := by simp
  filled := by simp

/-- The same slots with nothing in them. -/
def clear (r : Ring α capacity) : Ring α capacity := empty (Nat.zero_lt_of_lt r.tail_lt)

@[simp] theorem contents_empty (h : 0 < capacity) : (empty h : Ring α capacity).contents = [] := rfl

@[simp] theorem count_empty (h : 0 < capacity) : (empty h : Ring α capacity).count = 0 := rfl

@[simp] theorem contents_clear (r : Ring α capacity) : r.clear.contents = [] := rfl

@[simp] theorem count_clear (r : Ring α capacity) : r.clear.count = 0 := rfl

/-! ## Putting an element in -/

theorem push_filled {r : Ring α capacity} (h : r.count < capacity) (a : α) (i : Nat)
    (hi : i < r.count + 1) :
    ((r.slots.set r.head (some a)).getD ((r.tail + i) % capacity) none).isSome = true := by
  have hhead : r.head < r.slots.length := by
    rw [r.length_eq, r.head_eq]
    exact Nat.mod_lt _ (by omega)
  by_cases heq : i = r.count
  · rw [heq, ← r.head_eq, getD_set_same hhead]
    rfl
  · have hother : r.head ≠ (r.tail + i) % capacity := by
      intro hsame
      rw [r.head_eq] at hsame
      exact heq (place_inj h (by omega) hsame).symm
    rw [getD_set_other hother]
    exact r.filled i (by omega)

/-- Puts an element behind the queue of a ring that is not full. -/
def push (r : Ring α capacity) (h : r.count < capacity) (a : α) : Ring α capacity where
  slots := r.slots.set r.head (some a)
  head := (r.head + 1) % capacity
  tail := r.tail
  count := r.count + 1
  length_eq := by rw [List.length_set, r.length_eq]
  tail_lt := r.tail_lt
  count_le := h
  head_eq := by rw [r.head_eq, Nat.mod_add_mod, Nat.add_assoc]
  filled := push_filled h a

@[simp] theorem count_push (r : Ring α capacity) (h : r.count < capacity) (a : α) :
    (r.push h a).count = r.count + 1 := rfl

theorem contents_push (r : Ring α capacity) (h : r.count < capacity) (a : α) :
    (r.push h a).contents = r.contents ++ [a] := by
  have hhead : r.head < r.slots.length := by
    rw [r.length_eq, r.head_eq]
    exact Nat.mod_lt _ (by omega)
  have hlast : (r.slots.set r.head (some a)).getD ((r.tail + r.count) % capacity) none =
      some a := by
    rw [← r.head_eq, getD_set_same hhead]
  have hsame : ∀ i ∈ List.range r.count,
      (r.slots.set r.head (some a)).getD ((r.tail + i) % capacity) none =
        r.slots.getD ((r.tail + i) % capacity) none := by
    intro i hi
    have hi : i < r.count := List.mem_range.1 hi
    refine getD_set_other (fun heq => ?_) _
    rw [r.head_eq] at heq
    have := place_inj h (by omega) heq
    omega
  show (List.range (r.count + 1)).filterMap _ = _
  rw [List.range_succ, List.filterMap_append]
  show (List.range r.count).filterMap (fun i =>
    (r.slots.set r.head (some a)).getD ((r.tail + i) % capacity) none) ++ _ = _
  rw [List.filterMap_congr hsame]
  simp only [List.filterMap_cons, List.filterMap_nil]
  show _ ++ (match (r.slots.set r.head (some a)).getD ((r.tail + r.count) % capacity) none with
    | none => []
    | some b => [b]) = _
  rw [hlast]
  rfl

/-! ## Taking an element out -/

theorem pop_filled {r : Ring α capacity} (h : 0 < r.count) (i : Nat) (hi : i < r.count - 1) :
    ((r.slots.set r.tail none).getD (((r.tail + 1) % capacity + i) % capacity) none).isSome =
      true := by
  have hother : r.tail ≠ (r.tail + (i + 1)) % capacity := by
    intro hsame
    have hle := r.count_le
    have hzero : (r.tail + 0) % capacity = (r.tail + (i + 1)) % capacity := by
      rw [← hsame]
      exact Nat.mod_eq_of_lt r.tail_lt
    have := place_inj (by omega) (by omega) hzero
    omega
  rw [place_succ, getD_set_other hother]
  exact r.filled (i + 1) (by omega)

/-- Takes the oldest element out of a ring that is not empty. -/
def drop (r : Ring α capacity) (h : 0 < r.count) : Ring α capacity where
  slots := r.slots.set r.tail none
  head := r.head
  tail := (r.tail + 1) % capacity
  count := r.count - 1
  length_eq := by rw [List.length_set, r.length_eq]
  tail_lt := Nat.mod_lt _ (by have := r.count_le; omega)
  count_le := by have := r.count_le; omega
  head_eq := by rw [r.head_eq, place_succ, Nat.sub_add_cancel h]
  filled := pop_filled h

/-- The oldest element. -/
def front (r : Ring α capacity) (h : 0 < r.count) : α :=
  (r.slots.getD r.tail none).get (by
    have hfilled := r.filled 0 h
    rwa [Nat.add_zero, Nat.mod_eq_of_lt r.tail_lt] at hfilled)

@[simp] theorem count_drop (r : Ring α capacity) (h : 0 < r.count) :
    (r.drop h).count = r.count - 1 := rfl

theorem contents_drop (r : Ring α capacity) (h : 0 < r.count) :
    r.contents = r.front h :: (r.drop h).contents := by
  have hle := r.count_le
  obtain ⟨n, hn⟩ : ∃ n, r.count = n + 1 := ⟨r.count - 1, by omega⟩
  have hfront : r.slots.getD ((r.tail + 0) % capacity) none = some (r.front h) := by
    rw [Nat.add_zero, Nat.mod_eq_of_lt r.tail_lt, front, Option.some_get]
  have hrest : ∀ i ∈ List.range n,
      r.slots.getD ((r.tail + (i + 1)) % capacity) none =
        (r.slots.set r.tail none).getD (((r.tail + 1) % capacity + i) % capacity) none := by
    intro i hi
    have hi : i < n := List.mem_range.1 hi
    rw [place_succ]
    refine (getD_set_other (fun heq => ?_) _).symm
    have hzero : (r.tail + 0) % capacity = (r.tail + (i + 1)) % capacity := by
      rw [← heq]
      exact Nat.mod_eq_of_lt r.tail_lt
    have := place_inj (by omega) (by omega) hzero
    omega
  have hdrop : (r.drop h).contents = (List.range n).filterMap fun i =>
      (r.slots.set r.tail none).getD (((r.tail + 1) % capacity + i) % capacity) none := by
    show (List.range (r.count - 1)).filterMap _ = _
    rw [hn]
    rfl
  rw [hdrop, contents, hn, List.range_succ_eq_map, List.filterMap_cons, hfront, List.filterMap_map]
  exact congrArg _ (List.filterMap_congr hrest)

theorem contents_length (r : Ring α capacity) : r.contents.length = r.count := by
  generalize hn : r.count = n
  induction n generalizing r with
  | zero => simp [contents_eq_nil hn]
  | succ n ih =>
    have hpos : 0 < r.count := by omega
    rw [contents_drop r hpos, List.length_cons, ih (r.drop hpos) (by simp [hn])]

theorem contents_eq_nil_iff (r : Ring α capacity) : r.contents = [] ↔ r.count = 0 := by
  rw [← List.length_eq_zero_iff, contents_length]

/-! ## Taking several elements out -/

/-- Takes up to a number of elements out, none after one that meets `stop`. -/
def popWhile (stop : α → Bool) : Nat → Ring α capacity → List α × Ring α capacity
  | 0, r => ([], r)
  | n + 1, r =>
    if h : 0 < r.count then
      if stop (r.front h) then ([r.front h], r.drop h)
      else
        let rest := popWhile stop n (r.drop h)
        (r.front h :: rest.1, rest.2)
    else ([], r)

variable (stop : α → Bool)

/-- What is taken out and what is left is what was there. -/
theorem popWhile_append (n : Nat) (r : Ring α capacity) :
    (popWhile stop n r).1 ++ (popWhile stop n r).2.contents = r.contents := by
  induction n generalizing r with
  | zero => rfl
  | succ n ih =>
    by_cases h : 0 < r.count
    · by_cases hstop : stop (r.front h) = true
      · simp [popWhile, h, hstop, contents_drop r h]
      · simp [popWhile, h, hstop, contents_drop r h, ih]
    · simp [popWhile, h]

theorem popWhile_eq_nil_iff {n : Nat} (hn : 0 < n) (r : Ring α capacity) :
    (popWhile stop n r).1 = [] ↔ r.count = 0 := by
  cases n with
  | zero => omega
  | succ n =>
    by_cases h : 0 < r.count
    · by_cases hstop : stop (r.front h) = true
      · simp [popWhile, h, hstop]
        omega
      · simp [popWhile, h, hstop]
        omega
    · simp [popWhile, h]
      omega

end Ring

end DsdNexus
