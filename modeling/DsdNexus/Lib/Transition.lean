import Mathlib.Data.List.Basic
import Mathlib.Tactic.Common

/-! # Runs of a transition system

A step takes a state and a label to the next state, or is not enabled there. A
run is a list of labels; a condition on the steps of a run and an invariant they
keep under it give the state the run ends in.
-/

namespace DsdNexus.Transition

variable {σ α : Type}

/-- The state after a run; `none` when a step of it is not enabled. -/
def run (step : σ → α → Option σ) : σ → List α → Option σ
  | s, [] => some s
  | s, a :: as => (step s a).bind fun s' => run step s' as

/-- Every step of the run meets the condition in the state it is taken in. -/
def Along (step : σ → α → Option σ) (P : σ → α → Prop) : σ → List α → Prop
  | _, [] => True
  | s, a :: as => P s a ∧ ∀ s', step s a = some s' → Along step P s' as

variable {step : σ → α → Option σ} {P : σ → α → Prop} {s s' : σ}

theorem run_append (as bs : List α) (s : σ) :
    run step s (as ++ bs) = (run step s as).bind fun s' => run step s' bs := by
  induction as generalizing s with
  | nil => rfl
  | cons a as ih =>
    cases hstep : step s a with
    | none => simp [run, hstep]
    | some s' => simp [run, hstep, ih]

theorem run_cons_some {a : α} {as : List α} (h : run step s (a :: as) = some s') :
    ∃ t, step s a = some t ∧ run step t as = some s' := Option.bind_eq_some_iff.mp h

instance Along.decidable [∀ s a, Decidable (P s a)] :
    ∀ (s : σ) (as : List α), Decidable (Along step P s as)
  | _, [] => isTrue trivial
  | s, a :: as =>
    match h : step s a with
    | none => decidable_of_iff (P s a) (by simp [Along, h])
    | some s' =>
      have := Along.decidable s' as
      decidable_of_iff (P s a ∧ Along step P s' as) (by simp [Along, h])

/-- A condition on the labels alone is met along every run of such labels. -/
theorem along_of_mem {Q : α → Prop} {as : List α} (h : ∀ a ∈ as, Q a) (s : σ) :
    Along step (fun _ a => Q a) s as := by
  induction as generalizing s with
  | nil => trivial
  | cons a as ih =>
    exact ⟨h a List.mem_cons_self, fun s' _ => ih (fun b hb => h b (List.mem_cons_of_mem a hb)) s'⟩

/-- A condition every step meets is met along every run. -/
theorem along_of_forall (h : ∀ s a, P s a) (s : σ) (as : List α) : Along step P s as := by
  induction as generalizing s with
  | nil => trivial
  | cons a as ih => exact ⟨h s a, fun s' _ => ih s'⟩

/-- Conditions that say the same of every step say the same of every run. -/
theorem along_congr {Q : σ → α → Prop} (h : ∀ s a, P s a ↔ Q s a) (s : σ) (as : List α) :
    Along step P s as ↔ Along step Q s as := by
  induction as generalizing s with
  | nil => exact Iff.rfl
  | cons a as ih => exact and_congr (h s a) (forall₂_congr fun s' _ => ih s')

theorem Along.append {as bs : List α} (has : Along step P s as)
    (hbs : ∀ s', run step s as = some s' → Along step P s' bs) : Along step P s (as ++ bs) := by
  induction as generalizing s with
  | nil => exact hbs s rfl
  | cons a as ih =>
    refine ⟨has.1, fun t ht => ih (has.2 t ht) fun s' hs' => hbs s' ?_⟩
    rw [run, ht]
    exact hs'

/-- What every step of a run keeps under the condition holds where the run ends. -/
theorem run_invariant {I : σ → Prop}
    (hstep : ∀ s a s', I s → P s a → step s a = some s' → I s') {as : List α}
    (h : I s) (halong : Along step P s as) (hrun : run step s as = some s') : I s' := by
  induction as generalizing s with
  | nil =>
    cases hrun
    exact h
  | cons a as ih =>
    obtain ⟨t, ht, hrest⟩ := run_cons_some hrun
    exact ih (hstep s a t h halong.1 ht) (halong.2 t ht) hrest

/-- What an invariant and the condition imply of a step holds along the run. -/
theorem Along.of_invariant {I : σ → Prop} {Q : σ → α → Prop}
    (hstep : ∀ s a s', I s → P s a → step s a = some s' → I s')
    (himp : ∀ s a, I s → P s a → Q s a) {as : List α} (h : I s) (halong : Along step P s as) :
    Along step Q s as := by
  induction as generalizing s with
  | nil => trivial
  | cons a as ih =>
    exact ⟨himp s a h halong.1, fun t ht => ih (hstep s a t h halong.1 ht) (halong.2 t ht)⟩

end DsdNexus.Transition
