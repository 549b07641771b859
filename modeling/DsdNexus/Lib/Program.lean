import Mathlib.Logic.Relation
import Mathlib.Tactic.Common

/-! # Programs over a state that may fail

A program takes a state to a result or an error, and to the state it leaves behind in
either case. The rules say what a sequence of programs does in terms of its parts, what
a whole program keeps whatever its outcome, and when a loop ends.
-/

namespace DsdNexus

/-- What is done in a state: a result or an error, and the state left behind. -/
def Program (ε σ α : Type) : Type := σ → Except ε α × σ

namespace Program

variable {ε σ τ α β : Type}

instance : Monad (Program ε σ) where
  pure a := fun s => (.ok a, s)
  bind m k := fun s =>
    match m s with
    | (.ok a, s') => k a s'
    | (.error e, s') => (.error e, s')

/-- Stop with an error. -/
def fail (e : ε) : Program ε σ α := fun s => (.error e, s)

def get : Program ε σ σ := fun s => (.ok s, s)

def modify (f : σ → σ) : Program ε σ Unit := fun s => (.ok (), f s)

/-- A program over a part of the state. -/
def zoom (view : σ → τ) (put : τ → σ → σ) (m : Program ε τ α) : Program ε σ α := fun s =>
  ((m (view s)).1, put (m (view s)).2 s)

/-- Stop with an error unless the condition holds. -/
def require (p : Prop) [Decidable p] (e : ε) : Program ε σ Unit :=
  if p then pure () else fail e

/-- Done only where the condition holds. -/
def when (p : Prop) [Decidable p] (m : Program ε σ Unit) : Program ε σ Unit :=
  if p then m else pure ()

variable {m : Program ε σ α} {k : α → Program ε σ β} {s s' : σ} {a : α}

@[simp] theorem pure_apply (a : α) (s : σ) : (pure a : Program ε σ α) s = (.ok a, s) := rfl

@[simp] theorem fail_apply (e : ε) (s : σ) : (fail e : Program ε σ α) s = (.error e, s) := rfl

@[simp] theorem get_apply (s : σ) : (get : Program ε σ σ) s = (.ok s, s) := rfl

@[simp] theorem modify_apply (f : σ → σ) (s : σ) :
    (modify f : Program ε σ Unit) s = (.ok (), f s) := rfl

theorem zoom_apply (view : σ → τ) (put : τ → σ → σ) (m : Program ε τ α) (s : σ) :
    zoom view put m s = ((m (view s)).1, put (m (view s)).2 s) := rfl

theorem require_of {p : Prop} [Decidable p] (h : p) (e : ε) :
    (require p e : Program ε σ Unit) = pure () := if_pos h

theorem require_of_not {p : Prop} [Decidable p] (h : ¬ p) (e : ε) :
    (require p e : Program ε σ Unit) = fail e := if_neg h

theorem when_of {p : Prop} [Decidable p] (h : p) (m : Program ε σ Unit) : when p m = m := if_pos h

theorem when_of_not {p : Prop} [Decidable p] (h : ¬ p) (m : Program ε σ Unit) :
    when p m = pure () := if_neg h

theorem bind_apply (m : Program ε σ α) (k : α → Program ε σ β) (s : σ) :
    (m >>= k) s = match m s with
      | (.ok a, s') => k a s'
      | (.error e, s') => (.error e, s') := rfl

/-- Behind a part that succeeds stands the rest of the program. -/
theorem bind_of_ok (h : m s = (.ok a, s')) : (m >>= k) s = k a s' := by
  simp only [bind_apply, h]

theorem bind_of_error {e : ε} (h : m s = (.error e, s')) : (m >>= k) s = (.error e, s') := by
  simp only [bind_apply, h]

/-- Parts may be put together in either order. -/
theorem bind_assoc {γ : Type} (m : Program ε σ α) (k : α → Program ε σ β)
    (l : β → Program ε σ γ) : m >>= k >>= l = m >>= fun a => k a >>= l := by
  funext s
  simp only [bind_apply]
  rcases m s with ⟨e | a, s'⟩ <;> rfl

/-- Behind a check that holds stands the rest of the program. -/
theorem require_bind {p : Prop} [Decidable p] {k : Unit → Program ε σ β} (h : p) (e : ε) (s : σ) :
    (require p e >>= k) s = k () s := by
  rw [require_of h]
  rfl

theorem require_bind_not {p : Prop} [Decidable p] {k : Unit → Program ε σ β} (h : ¬ p) (e : ε)
    (s : σ) : (require p e >>= k) s = (.error e, s) := by
  rw [require_of_not h]
  rfl

theorem bind_eq_ok {b : β} {t : σ} (h : (m >>= k) s = (.ok b, t)) :
    ∃ a s', m s = (.ok a, s') ∧ k a s' = (.ok b, t) := by
  simp only [bind_apply] at h
  split at h
  · next a s' hm => exact ⟨a, s', hm, h⟩
  · simp at h

theorem bind_eq_ok_iff {b : β} {t : σ} :
    (m >>= k) s = (.ok b, t) ↔ ∃ a s', m s = (.ok a, s') ∧ k a s' = (.ok b, t) :=
  ⟨bind_eq_ok, fun ⟨_, _, hm, hk⟩ => (bind_of_ok hm).trans hk⟩

/-- A program that does not fail has a result. -/
theorem exists_ok (h : (m s).1.toBool = true) : ∃ a s', m s = (.ok a, s') := by
  rcases hm : m s with ⟨e | a, s'⟩
  · rw [hm] at h
    cases h
  · exact ⟨a, s', rfl⟩

theorem require_eq_ok_iff {p : Prop} [Decidable p] {e : ε} {u : Unit} :
    (require p e : Program ε σ Unit) s = (.ok u, s') ↔ p ∧ s = s' := by
  unfold require
  split
  · next hp => simp [hp]
  · next hp => simp [hp]

theorem zoom_eq_ok_iff {view : σ → τ} {put : τ → σ → σ} {n : Program ε τ α} :
    zoom view put n s = (.ok a, s') ↔ ∃ t, n (view s) = (.ok a, t) ∧ put t s = s' := by
  rw [zoom_apply]
  constructor
  · intro h
    have hparts := Prod.mk.inj h
    exact ⟨(n (view s)).2, Prod.ext hparts.1 rfl, hparts.2⟩
  · rintro ⟨t, hn, rfl⟩
    rw [hn]

theorem require_eq_ok {p : Prop} [Decidable p] {e : ε} {u : Unit}
    (h : (require p e : Program ε σ Unit) s = (.ok u, s')) : p ∧ s' = s := by
  unfold require at h
  split at h
  · next hp =>
    cases h
    exact ⟨hp, rfl⟩
  · simp at h

/-! ## What a program keeps -/

/-- Whatever comes of the program, the state it leaves stands in the relation to the one
it started in. -/
def Keeps (R : σ → σ → Prop) (m : Program ε σ α) : Prop := ∀ s, R s (m s).2

variable {R : σ → σ → Prop}

theorem Keeps.pure [Std.Refl R] (a : α) : Keeps R (pure a : Program ε σ α) :=
  fun s => Std.Refl.refl s

theorem Keeps.fail [Std.Refl R] (e : ε) : Keeps R (fail e : Program ε σ α) :=
  fun s => Std.Refl.refl s

theorem Keeps.get [Std.Refl R] : Keeps R (get : Program ε σ σ) :=
  fun s => Std.Refl.refl s

theorem Keeps.require [Std.Refl R] (p : Prop) [Decidable p] (e : ε) :
    Keeps R (require p e : Program ε σ Unit) := by
  unfold Program.require
  split
  · exact Keeps.pure ()
  · exact Keeps.fail e

theorem Keeps.bind [IsTrans σ R] (hm : Keeps R m) (hk : ∀ a, Keeps R (k a)) :
    Keeps R (m >>= k) := by
  intro s
  have hs := hm s
  simp only [bind_apply]
  split
  · next a s' h =>
    rw [h] at hs
    exact IsTrans.trans _ _ _ hs (hk a s')
  · next e s' h =>
    rw [h] at hs
    exact hs

theorem Keeps.when [Std.Refl R] {p : Prop} [Decidable p] {m : Program ε σ Unit}
    (hm : Keeps R m) : Keeps R (when p m) := by
  unfold Program.when
  split
  · exact hm
  · exact Keeps.pure ()

theorem Keeps.ite {p : Prop} [Decidable p] {m n : Program ε σ α} (hm : p → Keeps R m)
    (hn : ¬ p → Keeps R n) : Keeps R (if p then m else n) := by
  by_cases h : p
  · rw [if_pos h]
    exact hm h
  · rw [if_neg h]
    exact hn h

/-- What a relation says of a part of two states. -/
def Through (view : σ → τ) (R : τ → τ → Prop) (s t : σ) : Prop := R (view s) (view t)

instance {view : σ → τ} {R : τ → τ → Prop} [Std.Refl R] : Std.Refl (Through view R) :=
  ⟨fun s => Std.Refl.refl (view s)⟩

instance {view : σ → τ} {R : τ → τ → Prop} [IsTrans τ R] : IsTrans σ (Through view R) :=
  ⟨fun _ _ _ h h' => IsTrans.trans (r := R) _ _ _ h h'⟩

theorem Keeps.zoom {view : σ → τ} {put : τ → σ → σ} {R : τ → τ → Prop} {n : Program ε τ α}
    (hput : ∀ t s, view (put t s) = t) (h : Keeps R n) :
    Keeps (Through view R) (zoom view put n) := by
  intro s
  unfold Through Program.zoom
  rw [hput]
  exact h (view s)

/-- A change that leaves the part alone. -/
theorem Keeps.modify {view : σ → τ} {R : τ → τ → Prop} [Std.Refl R] {f : σ → σ}
    (hf : ∀ s, view (f s) = view s) :
    Keeps (Through view R) (modify f : Program ε σ Unit) := by
  intro s
  unfold Through
  rw [modify_apply, hf]
  exact Std.Refl.refl _

end Program

/-! # Loops

A turn of a loop goes on to the next state of the loop or ends it with a result.
-/

namespace Loop

variable {σ ρ : Type} (turn : σ → σ ⊕ ρ)

/-- At most so many turns; `none` when the loop has not ended by then. -/
def iterate : Nat → σ → Option ρ
  | 0, _ => none
  | n + 1, s =>
    match turn s with
    | .inl s' => iterate n s'
    | .inr r => some r

/-- The states the loop comes to. -/
def Reaches : σ → σ → Prop := Relation.ReflTransGen fun s t => turn s = .inl t

/-- The loop ends with the result. -/
def Returns (s : σ) (r : ρ) : Prop := ∃ n, iterate turn n s = some r

variable {turn} {s t : σ} {r : ρ}

theorem iterate_succ_inl (h : turn s = .inl t) (n : Nat) :
    iterate turn (n + 1) s = iterate turn n t := by simp only [iterate, h]

theorem iterate_succ_inr (h : turn s = .inr r) (n : Nat) :
    iterate turn (n + 1) s = some r := by simp only [iterate, h]

theorem returns_of_inr (h : turn s = .inr r) : Returns turn s r := ⟨1, iterate_succ_inr h 0⟩

theorem returns_of_inl (h : turn s = .inl t) (ht : Returns turn t r) : Returns turn s r := by
  obtain ⟨n, hn⟩ := ht
  exact ⟨n + 1, (iterate_succ_inl h n).trans hn⟩

theorem Reaches.head (h : turn s = .inl t) {u : σ} (ht : Reaches turn t u) :
    Reaches turn s u := Relation.ReflTransGen.head h ht

theorem returns_of_reaches (h : Reaches turn s t) (ht : Returns turn t r) :
    Returns turn s r := by
  induction h using Relation.ReflTransGen.head_induction_on with
  | refl => exact ht
  | head hturn _ ih => exact returns_of_inl hturn ih

/-- More turns than needed change nothing. -/
theorem iterate_mono {n : Nat} (h : iterate turn n s = some r) {k : Nat} (hk : n ≤ k) :
    iterate turn k s = some r := by
  induction n generalizing s k with
  | zero => cases h
  | succ n ih =>
    obtain ⟨k, rfl⟩ : ∃ j, k = j + 1 := ⟨k - 1, by omega⟩
    cases hturn : turn s with
    | inl t =>
      rw [iterate_succ_inl hturn] at h ⊢
      exact ih h (by omega)
    | inr q =>
      rw [iterate_succ_inr hturn] at h ⊢
      exact h

theorem returns_unique {q : ρ} (h : Returns turn s r) (h' : Returns turn s q) : r = q := by
  obtain ⟨n, hn⟩ := h
  obtain ⟨k, hk⟩ := h'
  have hr := iterate_mono hn (Nat.le_max_left n k)
  rw [iterate_mono hk (Nat.le_max_right n k)] at hr
  exact (Option.some.inj hr).symm

/-- A turn that changes nothing is taken for ever. -/
theorem iterate_fixed (h : turn s = .inl s) (n : Nat) : iterate turn n s = none := by
  induction n with
  | zero => rfl
  | succ n ih => rw [iterate_succ_inl h, ih]

/-- What an invariant says of the last turn holds of the result. -/
theorem Returns.of_invariant {I : σ → Prop} {Q : ρ → Prop}
    (hstep : ∀ s t, I s → turn s = .inl t → I t) (hlast : ∀ s r, I s → turn s = .inr r → Q r)
    (h : I s) (hr : Returns turn s r) : Q r := by
  obtain ⟨n, hn⟩ := hr
  induction n generalizing s with
  | zero => cases hn
  | succ n ih =>
    cases hturn : turn s with
    | inl t =>
      rw [iterate_succ_inl hturn] at hn
      exact ih (hstep s t h hturn) hn
    | inr q =>
      rw [iterate_succ_inr hturn] at hn
      cases hn
      exact hlast s r h hturn

theorem Reaches.of_invariant {I : σ → Prop} (hstep : ∀ s t, I s → turn s = .inl t → I t)
    (h : I s) (hr : Reaches turn s t) : I t := by
  induction hr with
  | refl => exact h
  | tail _ hturn ih => exact hstep _ _ ih hturn

/-- A loop whose turns, from every state it comes to, lower a rank ends. -/
theorem returns_of_rank (rank : σ → Nat)
    (hrank : ∀ t u, Reaches turn s t → turn t = .inl u → rank u < rank t) :
    ∃ r, Returns turn s r := by
  induction hn : rank s using Nat.strongRecOn generalizing s with
  | _ n ih =>
    cases hturn : turn s with
    | inr r => exact ⟨r, returns_of_inr hturn⟩
    | inl t =>
      have hlt : rank t < n := hn ▸ hrank s t Relation.ReflTransGen.refl hturn
      obtain ⟨r, hr⟩ := ih (rank t) hlt (fun u v hu => hrank u v (Reaches.head hturn hu)) rfl
      exact ⟨r, returns_of_inl hturn hr⟩

end Loop

end DsdNexus
