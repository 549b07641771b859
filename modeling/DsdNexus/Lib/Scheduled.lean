import Mathlib.Data.List.Basic
import Mathlib.Tactic.Common

/-! # One process among others, driven by a schedule

A process shares a state with others that step on their own. It waits for
something to become available; at every wait the schedule says what the others
do first, and where the schedule ends the process is still waiting. `Delivers`
speaks about all schedules at once: every result meets the postcondition, and
every schedule has a continuation that lets the process finish.
-/

namespace DsdNexus.Scheduled

variable {σ : Type} {Act : Type}

/-- Computations over the shared state and the schedule; `none` is still waiting. -/
abbrev Proc (σ Act : Type) : Type → Type := StateT (σ × List (List Act)) Option

/-- The others act, burst after burst, until `take` succeeds. -/
def waitOn {β : Type} (step : σ → Act → σ) (take : σ → Option (β × σ)) :
    σ → List (List Act) → Option (β × (σ × List (List Act)))
  | _, [] => none
  | s, burst :: sched =>
    match take (burst.foldl step s) with
    | some (b, s') => some (b, (s', sched))
    | none => waitOn step take (burst.foldl step s) sched

/-- Wait until `take` succeeds. -/
def wait {β : Type} (step : σ → Act → σ) (take : σ → Option (β × σ)) : Proc σ Act β :=
  fun s => waitOn step take s.1 s.2

/-- The process stops here. -/
def stuck {β : Type} : Proc σ Act β := fun _ => none

/-- Whatever the others do, a result meets `Q`; and from every point on they can
act so that there is one. -/
structure Delivers {α : Type} (m : Proc σ Act α) (s : σ) (Q : α → σ → Prop) : Prop where
  sound : ∀ sched a s' rest, m (s, sched) = some (a, (s', rest)) → Q a s'
  extend : ∀ sched a s' rest, m (s, sched) = some (a, (s', rest)) →
    ∀ more, m (s, sched ++ more) = some (a, (s', rest ++ more))
  finishes : ∀ sched, ∃ more r, m (s, sched ++ more) = some r

variable {α β : Type} {s : σ}

theorem Delivers.pure {Q : α → σ → Prop} {a : α} (h : Q a s) :
    Delivers (Pure.pure a : Proc σ Act α) s Q := by
  constructor
  · intro sched b s' rest hrun
    have hrun : some (a, (s, sched)) = some (b, (s', rest)) := hrun
    obtain ⟨rfl, rfl, -⟩ : a = b ∧ s = s' ∧ sched = rest := by simpa using hrun
    exact h
  · intro sched b s' rest hrun more
    have hrun : some (a, (s, sched)) = some (b, (s', rest)) := hrun
    obtain ⟨rfl, rfl, rfl⟩ : a = b ∧ s = s' ∧ sched = rest := by simpa using hrun
    rfl
  · exact fun sched => ⟨[], _, rfl⟩

theorem Delivers.mono {m : Proc σ Act α} {Q R : α → σ → Prop} (h : Delivers m s Q)
    (hQR : ∀ a s', Q a s' → R a s') : Delivers m s R :=
  ⟨fun sched a s' rest hrun => hQR a s' (h.sound sched a s' rest hrun), h.extend, h.finishes⟩

theorem bind_eq_some {m : Proc σ Act α} {k : α → Proc σ Act β} {st : σ × List (List Act)}
    {r : β × (σ × List (List Act))} :
    (m >>= k) st = some r ↔ ∃ a st', m st = some (a, st') ∧ k a st' = some r := by
  change (m st).bind (fun p => k p.1 p.2) = some r ↔ _
  constructor
  · intro h
    obtain ⟨⟨a, st'⟩, hm, hk⟩ := Option.bind_eq_some_iff.mp h
    exact ⟨a, st', hm, hk⟩
  · rintro ⟨a, st', hm, hk⟩
    rw [hm]
    exact hk

theorem Delivers.bind {m : Proc σ Act α} {k : α → Proc σ Act β} {Q : α → σ → Prop}
    {R : β → σ → Prop} (hm : Delivers m s Q) (hk : ∀ a s', Q a s' → Delivers (k a) s' R) :
    Delivers (m >>= k) s R := by
  constructor
  · intro sched b s' rest hrun
    obtain ⟨a, ⟨s₁, rest₁⟩, hrun₁, hrun₂⟩ := bind_eq_some.mp hrun
    exact (hk a s₁ (hm.sound _ _ _ _ hrun₁)).sound _ _ _ _ hrun₂
  · intro sched b s' rest hrun more
    obtain ⟨a, ⟨s₁, rest₁⟩, hrun₁, hrun₂⟩ := bind_eq_some.mp hrun
    exact bind_eq_some.mpr ⟨a, (s₁, rest₁ ++ more), hm.extend _ _ _ _ hrun₁ more,
      (hk a s₁ (hm.sound _ _ _ _ hrun₁)).extend _ _ _ _ hrun₂ more⟩
  · intro sched
    obtain ⟨more₁, ⟨a, s₁, rest₁⟩, hrun₁⟩ := hm.finishes sched
    obtain ⟨more₂, r, hrun₂⟩ := (hk a s₁ (hm.sound _ _ _ _ hrun₁)).finishes rest₁
    refine ⟨more₁ ++ more₂, r, bind_eq_some.mpr ⟨a, (s₁, rest₁ ++ more₂), ?_, hrun₂⟩⟩
    rw [← List.append_assoc]
    exact hm.extend _ _ _ _ hrun₁ more₂

/-! ## Waiting -/

section

variable {step : σ → Act → σ} {take : σ → Option (β × σ)} {I : σ → Prop} {Q : β → σ → Prop}

theorem foldl_invariant (hstep : ∀ s a, I s → I (step s a)) (burst : List Act) {s : σ} (h : I s) :
    I (burst.foldl step s) := by
  induction burst generalizing s with
  | nil => exact h
  | cons a burst ih => exact ih (hstep s a h)

theorem waitOn_sound (hstep : ∀ s a, I s → I (step s a))
    (htake : ∀ s b s', I s → take s = some (b, s') → Q b s')
    {sched rest : List (List Act)} {s s' : σ} {b : β} (h : I s) (hrun : waitOn step take s sched = some (b, (s', rest))) : Q b s' := by
  induction sched generalizing s with
  | nil => simp [waitOn] at hrun
  | cons burst sched ih =>
    have hI := foldl_invariant hstep burst h
    rw [waitOn] at hrun
    split at hrun
    · next b' s₁ hsome =>
      obtain ⟨rfl, rfl, -⟩ : b' = b ∧ s₁ = s' ∧ sched = rest := by simpa using hrun
      exact htake _ _ _ hI hsome
    · exact ih hI hrun

theorem waitOn_extend {sched rest : List (List Act)} {s s' : σ} {b : β} (more : List (List Act))
    (hrun : waitOn step take s sched = some (b, (s', rest))) :
    waitOn step take s (sched ++ more) = some (b, (s', rest ++ more)) := by
  induction sched generalizing s with
  | nil => simp [waitOn] at hrun
  | cons burst sched ih =>
    rw [waitOn] at hrun
    rw [List.cons_append, waitOn]
    cases hsome : take (burst.foldl step s) with
    | none =>
      rw [hsome] at hrun
      exact ih hrun
    | some r =>
      rw [hsome] at hrun
      obtain ⟨rfl, rfl, rfl⟩ : r.1 = b ∧ r.2 = s' ∧ sched = rest := by simpa using hrun
      rfl

theorem waitOn_finishes (hstep : ∀ s a, I s → I (step s a))
    (hready : ∀ s, I s → ∃ (burst : List Act) (r : β × σ), take (burst.foldl step s) = some r)
    (sched : List (List Act)) {s : σ} (h : I s) :
    ∃ more r, waitOn step take s (sched ++ more) = some r := by
  induction sched generalizing s with
  | nil =>
    obtain ⟨burst, r, hr⟩ := hready s h
    exact ⟨[burst], (r.1, (r.2, [])), by simp [waitOn, hr]⟩
  | cons burst sched ih =>
    have hI := foldl_invariant hstep burst h
    cases hsome : take (burst.foldl step s) with
    | none =>
      obtain ⟨more, r, hr⟩ := ih hI
      exact ⟨more, r, by rw [List.cons_append, waitOn, hsome]; exact hr⟩
    | some r => exact ⟨[], (r.1, (r.2, sched ++ [])), by rw [List.cons_append, waitOn, hsome]⟩

/-- The rule for waiting: an invariant the others keep, under which what is
taken meets the postcondition and something can become available. -/
theorem Delivers.wait (hstep : ∀ s a, I s → I (step s a))
    (htake : ∀ s b s', I s → take s = some (b, s') → Q b s')
    (hready : ∀ s, I s → ∃ (burst : List Act) (r : β × σ), take (burst.foldl step s) = some r)
    (h : I s) : Delivers (Scheduled.wait step take) s Q :=
  ⟨fun _ _ _ _ hrun => waitOn_sound hstep htake h hrun,
    fun _ _ _ _ hrun more => waitOn_extend more hrun,
    fun sched => waitOn_finishes hstep hready sched h⟩

end

end DsdNexus.Scheduled
