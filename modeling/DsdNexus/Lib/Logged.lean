import DsdNexus.Lib.Program

/-! # Programs that note what they do

A logged program does what a program does and lists, in order, what it notes on the way.
Without its list it is the program it is a version of; what holds of every entry of the list
is told part by part.
-/

namespace DsdNexus

/-- A program with the list of what it notes. -/
def Logged (ω ε σ α : Type) : Type := σ → (Except ε α × σ) × List ω

namespace Logged

open Program

variable {ω ε σ τ α β : Type}

instance : Monad (Logged ω ε σ) where
  pure a := fun s => ((.ok a, s), [])
  bind m k := fun s =>
    match m s with
    | ((.ok a, t), log) => ((k a t).1, log ++ (k a t).2)
    | ((.error e, t), log) => ((.error e, t), log)

/-- Nothing is noted. -/
def lift (m : Program ε σ α) : Logged ω ε σ α := fun s => (m s, [])

/-- One entry, told from the state before. -/
def noting (entry : σ → ω) (m : Program ε σ α) : Logged ω ε σ α := fun s => (m s, [entry s])

/-- Over a part of the state. -/
def zoom (view : σ → τ) (put : τ → σ → σ) (m : Logged ω ε τ α) : Logged ω ε σ α := fun s =>
  (((m (view s)).1.1, put (m (view s)).1.2 s), (m (view s)).2)

/-- An error is a result like another. -/
def attempt (m : Logged ω ε σ α) : Logged ω ε σ (Except ε α) := fun s =>
  ((.ok (m s).1.1, (m s).1.2), (m s).2)

/-! ## Without the list -/

/-- The program it is a version of. -/
def erase (m : Logged ω ε σ α) : Program ε σ α := fun s => (m s).1

variable {m : Logged ω ε σ α} {k : α → Logged ω ε σ β}

@[simp] theorem erase_pure (a : α) : erase (pure a : Logged ω ε σ α) = pure a := rfl

@[simp] theorem erase_lift (m : Program ε σ α) : erase (lift m : Logged ω ε σ α) = m := rfl

@[simp] theorem erase_noting (entry : σ → ω) (m : Program ε σ α) :
    erase (noting entry m) = m := rfl

@[simp] theorem erase_zoom (view : σ → τ) (put : τ → σ → σ) (m : Logged ω ε τ α) :
    erase (zoom view put m) = Program.zoom view put (erase m) := rfl

@[simp] theorem erase_attempt_apply (m : Logged ω ε σ α) (s : σ) :
    erase (attempt m) s = (.ok (erase m s).1, (erase m s).2) := rfl

@[simp] theorem erase_bind : erase (m >>= k) = erase m >>= fun a => erase (k a) := by
  funext s
  change ((m >>= k) s).1 = (erase m >>= fun a => erase (k a)) s
  rw [bind_apply]
  unfold erase
  change (match m s with
    | ((.ok a, t), log) => ((k a t).1, log ++ (k a t).2)
    | ((.error e, t), log) => ((.error e, t), log)).1 = _
  rcases m s with ⟨⟨e | a, t⟩, log⟩ <;> rfl

@[simp] theorem erase_ite {p : Prop} [Decidable p] (m n : Logged ω ε σ α) :
    erase (if p then m else n) = if p then erase m else erase n := by
  split <;> rfl

/-! ## What holds of all entries -/

/-- Every entry noted from the state on has the property. -/
def All (P : ω → Prop) (m : Logged ω ε σ α) (s : σ) : Prop := ∀ w ∈ (m s).2, P w

variable {P : ω → Prop} {s : σ}

@[simp] theorem all_pure (a : α) : All P (pure a : Logged ω ε σ α) s := fun _ => nofun

@[simp] theorem all_lift (m : Program ε σ α) : All P (lift m : Logged ω ε σ α) s := fun _ => nofun

@[simp] theorem all_noting {entry : σ → ω} {m : Program ε σ α} :
    All P (noting entry m) s ↔ P (entry s) := List.forall_mem_singleton

@[simp] theorem all_zoom {view : σ → τ} {put : τ → σ → σ} {m : Logged ω ε τ α} :
    All P (zoom view put m) s ↔ All P m (view s) := Iff.rfl

@[simp] theorem all_attempt : All P (attempt m) s ↔ All P m s := Iff.rfl

theorem all_bind :
    All P (m >>= k) s ↔ All P m s ∧ ∀ a t, erase m s = (.ok a, t) → All P (k a) t := by
  have hbind : (m >>= k) s = match m s with
    | ((.ok a, t), log) => ((k a t).1, log ++ (k a t).2)
    | ((.error e, t), log) => ((.error e, t), log) := rfl
  unfold All erase
  rw [hbind]
  rcases m s with ⟨⟨e | a, t⟩, log⟩
  · simp
  · simp only [List.forall_mem_append, Prod.mk.injEq, Except.ok.injEq]
    exact and_congr_right fun _ => ⟨fun h a' t' heq => heq.1 ▸ heq.2 ▸ h, fun h => h a t ⟨rfl, rfl⟩⟩

/-- Behind a part that notes nothing. -/
theorem all_lift_bind {m : Program ε σ α} {k : α → Logged ω ε σ β} :
    All P (lift m >>= k) s ↔ ∀ a t, m s = (.ok a, t) → All P (k a) t := by
  rw [all_bind, erase_lift]
  exact and_iff_right (all_lift m)

/-- The same, where it is known what the part makes of the state and when. -/
theorem all_lift_bind_of {m : Program ε σ α} {k : α → Logged ω ε σ β} {c : Prop} {a : α} {t : σ}
    (h : ∀ b u, m s = (.ok b, u) ↔ c ∧ a = b ∧ t = u) :
    All P (lift m >>= k) s ↔ (c → All P (k a) t) := by
  rw [all_lift_bind]
  constructor
  · intro hall hc
    exact hall a t ((h a t).2 ⟨hc, rfl, rfl⟩)
  · intro hall b u hm
    obtain ⟨hc, rfl, rfl⟩ := (h b u).1 hm
    exact hall hc

theorem all_get_bind {k : σ → Logged ω ε σ β} : All P (lift get >>= k) s ↔ All P (k s) s :=
  (all_lift_bind_of (c := True) fun b u => by simp).trans (forall_prop_of_true trivial)

/-- Before a part that notes nothing amiss. -/
theorem all_bind_of (h : ∀ a t, All P (k a) t) : All P (m >>= k) s ↔ All P m s := by
  rw [all_bind]
  exact and_iff_left fun a t _ => h a t

theorem all_ite {p : Prop} [Decidable p] {m n : Logged ω ε σ α} :
    All P (if p then m else n) s ↔ if p then All P m s else All P n s := by
  split <;> rfl

end Logged

end DsdNexus
