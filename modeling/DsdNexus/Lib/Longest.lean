import Mathlib.Data.List.Induction

/-! # The first of the longest

A search that keeps the best match so far and replaces it only by a longer one.
-/

namespace DsdNexus.Longest

variable {α : Type*} (matchesIt : α → Bool) (size : α → Nat)

/-- One turn of the search, from the best match so far. -/
def better (best : Option α) (x : α) : Option α :=
  if matchesIt x && decide ((best.map size).getD 0 < size x) then some x else best

def longest (xs : List α) : Option α := xs.foldl (better matchesIt size) none

/-- What the search has found after `xs`. -/
structure Best (xs : List α) (best : Option α) : Prop where
  found : ∀ m, best = some m → m ∈ xs ∧ matchesIt m = true ∧ 0 < size m
  longest : ∀ x ∈ xs, matchesIt x = true → size x ≤ (best.map size).getD 0

theorem Best.better {xs : List α} {best : Option α} (h : Best matchesIt size xs best) (x : α) :
    Best matchesIt size (xs ++ [x]) (Longest.better matchesIt size best x) := by
  unfold Longest.better
  split
  · next hbetter =>
    simp only [Bool.and_eq_true, decide_eq_true_eq] at hbetter
    constructor
    · intro m hm
      cases hm
      exact ⟨by simp, hbetter.1, by omega⟩
    · intro y hy hmatch
      rcases List.mem_append.1 hy with hold | hnew
      · have hle := h.longest y hold hmatch
        simp only [Option.map_some, Option.getD_some]
        omega
      · have heq : y = x := by simpa using hnew
        simp [heq]
  · next hworse =>
    constructor
    · intro m hm
      obtain ⟨hmem, hrest⟩ := h.found m hm
      exact ⟨List.mem_append_left _ hmem, hrest⟩
    · intro y hy hmatch
      rcases List.mem_append.1 hy with hold | hnew
      · exact h.longest y hold hmatch
      · have heq : y = x := by simpa using hnew
        subst heq
        simp only [hmatch, Bool.true_and, decide_eq_true_eq] at hworse
        exact Nat.le_of_not_lt hworse

theorem longest_best (xs : List α) : Best matchesIt size xs (longest matchesIt size xs) := by
  unfold longest
  induction xs using List.reverseRecOn with
  | nil => exact ⟨nofun, nofun⟩
  | append_singleton xs x ih =>
    rw [List.foldl_append]
    exact ih.better matchesIt size x

/-- Where something matches, one of the longest matches is found. -/
theorem exists_longest {xs : List α} {x : α} (hmem : x ∈ xs) (hmatch : matchesIt x = true)
    (hpos : 0 < size x) : ∃ m, longest matchesIt size xs = some m ∧ m ∈ xs ∧
      matchesIt m = true ∧ ∀ y ∈ xs, matchesIt y = true → size y ≤ size m := by
  have hbest := longest_best matchesIt size xs
  cases hfound : longest matchesIt size xs with
  | none =>
    rw [hfound] at hbest
    have hle := hbest.longest x hmem hmatch
    simp only [Option.map_none, Option.getD_none] at hle
    omega
  | some m =>
    rw [hfound] at hbest
    obtain ⟨hm, hmm, -⟩ := hbest.found m rfl
    exact ⟨m, rfl, hm, hmm, fun y hy hym => by simpa using hbest.longest y hy hym⟩

end DsdNexus.Longest
