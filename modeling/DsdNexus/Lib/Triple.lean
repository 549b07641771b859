import DsdNexus.Lib.Program

/-! # Pre- and postconditions of programs

A triple says what holds where a program ends with a result and what holds where it
stops with an error. The rules follow the way programs are put together; the rule of a
loop over a list takes an invariant counted by the elements done.
-/

namespace DsdNexus.Program

variable {ε ε' σ α β γ : Type}

/-- A loop over a list with the position of each element. -/
def forEach (xs : List γ) (f : γ → Nat → Program ε σ Unit) : Program ε σ Unit :=
  xs.zipIdx.forM fun x => f x.1 x.2

/-- A program whose errors are settled: a number for the way it ended, or another error. -/
def settle (done : Int) (f : ε → Except ε' Int) (m : Program ε σ Unit) : Program ε' σ Int :=
  fun s => match m s with
    | (.ok _, s') => (.ok done, s')
    | (.error e, s') => (f e, s')

theorem settle_of_ok {done : Int} {f : ε → Except ε' Int} {m : Program ε σ Unit} {s s' : σ}
    {u : Unit} (h : m s = (.ok u, s')) : settle done f m s = (.ok done, s') := by
  simp only [settle, h]

theorem settle_of_error {done : Int} {f : ε → Except ε' Int} {m : Program ε σ Unit} {s s' : σ}
    {e : ε} (h : m s = (.error e, s')) : settle done f m s = (f e, s') := by
  simp only [settle, h]

/-- Started in a state of the precondition, the program ends in a state of the one
postcondition with a result, or of the other with an error. -/
structure Triple (P : σ → Prop) (m : Program ε σ α) (Q : α → σ → Prop) (E : ε → σ → Prop) :
    Prop where
  ok : ∀ {s a s'}, P s → m s = (.ok a, s') → Q a s'
  error : ∀ {s e s'}, P s → m s = (.error e, s') → E e s'

variable {P P' : σ → Prop} {Q Q' : α → σ → Prop} {R : β → σ → Prop} {E E' : ε → σ → Prop}
  {m : Program ε σ α} {k : α → Program ε σ β}

theorem Triple.of_forall (h : ∀ s, P s →
    (∃ a s', m s = (.ok a, s') ∧ Q a s') ∨ ∃ e s', m s = (.error e, s') ∧ E e s') :
    Triple P m Q E := by
  constructor
  · intro s a s' hp hm
    rcases h s hp with ⟨b, t, hb, hq⟩ | ⟨e, t, he, _⟩
    · rw [hm] at hb
      cases hb
      exact hq
    · rw [hm] at he
      cases he
  · intro s e s' hp hm
    rcases h s hp with ⟨b, t, hb, _⟩ | ⟨d, t, hd, hq⟩
    · rw [hm] at hb
      cases hb
    · rw [hm] at hd
      cases hd
      exact hq

theorem Triple.conseq (h : Triple P m Q E) (hp : ∀ s, P' s → P s) (hq : ∀ a s, Q a s → Q' a s)
    (he : ∀ e s, E e s → E' e s) : Triple P' m Q' E' :=
  ⟨fun hs hm => hq _ _ (h.ok (hp _ hs) hm), fun hs hm => he _ _ (h.error (hp _ hs) hm)⟩

theorem Triple.weaken (h : Triple P m Q E) (hp : ∀ s, P' s → P s) : Triple P' m Q E :=
  h.conseq hp (fun _ _ hq => hq) (fun _ _ he => he)

theorem Triple.or (h : Triple P m Q E) (h' : Triple P' m Q E) :
    Triple (fun s => P s ∨ P' s) m Q E :=
  ⟨fun hs hm => hs.elim (h.ok · hm) (h'.ok · hm), fun hs hm => hs.elim (h.error · hm) (h'.error · hm)⟩

/-- What holds however the program ends holds of the state it leaves. -/
theorem Triple.leaves {R : σ → Prop} (h : Triple P m (fun _ => R) (fun _ => R)) {s : σ}
    (hs : P s) : R (m s).2 := by
  cases hms : m s with
  | mk r s' =>
    cases r with
    | ok a => exact h.ok hs hms
    | error e => exact h.error hs hms

theorem Triple.of_leaves {R : σ → Prop} (h : ∀ s, P s → R (m s).2) :
    Triple P m (fun _ => R) (fun _ => R) := by
  constructor
  · intro s a s' hs hms
    simpa only [hms] using h s hs
  · intro s e s' hs hms
    simpa only [hms] using h s hs

theorem Triple.and (h : Triple P m Q E) (h' : Triple P' m Q' E') :
    Triple (fun s => P s ∧ P' s) m (fun a s => Q a s ∧ Q' a s) (fun e s => E e s ∧ E' e s) :=
  ⟨fun hs hm => ⟨h.ok hs.1 hm, h'.ok hs.2 hm⟩, fun hs hm => ⟨h.error hs.1 hm, h'.error hs.2 hm⟩⟩

/-- What holds only under a condition still holds under it. -/
theorem Triple.imp (h : Triple P m Q fun _ _ => True) (q : Prop) :
    Triple (fun s => q → P s) m (fun a s => q → Q a s) (fun _ _ => True) :=
  ⟨fun hs hm hq => h.ok (hs hq) hm, fun _ _ => trivial⟩

/-- What does not speak of the state is still true afterwards. -/
theorem Triple.frame (h : Triple P m Q E) (q : Prop) :
    Triple (fun s => P s ∧ q) m (fun a s => Q a s ∧ q) E :=
  ⟨fun hs hm => ⟨h.ok hs.1 hm, hs.2⟩, fun hs hm => h.error hs.1 hm⟩

/-- What does not speak of the state is known in the program. -/
theorem Triple.assume {q : Prop} (h : q → Triple P m Q E) : Triple (fun s => P s ∧ q) m Q E :=
  ⟨fun hs hm => (h hs.2).ok hs.1 hm, fun hs hm => (h hs.2).error hs.1 hm⟩

theorem Triple.pure {a : α} (h : ∀ s, P s → Q a s) : Triple P (Pure.pure a : Program ε σ α) Q E :=
  .of_forall fun s hp => .inl ⟨a, s, rfl, h s hp⟩

theorem Triple.fail {e : ε} (h : ∀ s, P s → E e s) : Triple P (fail e : Program ε σ α) Q E :=
  .of_forall fun s hp => .inr ⟨e, s, rfl, h s hp⟩

theorem Triple.get {Q : σ → σ → Prop} (h : ∀ s, P s → Q s s) :
    Triple P (Program.get : Program ε σ σ) Q E :=
  .of_forall fun s hp => .inl ⟨s, s, rfl, h s hp⟩

theorem Triple.modify {f : σ → σ} {Q : Unit → σ → Prop} (h : ∀ s, P s → Q () (f s)) :
    Triple P (Program.modify f : Program ε σ Unit) Q E :=
  .of_forall fun s hp => .inl ⟨(), f s, rfl, h s hp⟩

theorem Triple.bind (hm : Triple P m Q E) (hk : ∀ a, Triple (Q a) (k a) R E) :
    Triple P (m >>= k) R E := by
  apply Triple.of_forall
  intro s hp
  cases hms : m s with
  | mk r s' =>
    cases r with
    | ok a =>
      rw [bind_of_ok hms]
      cases hks : k a s' with
      | mk r t =>
        cases r with
        | ok b => exact .inl ⟨b, t, rfl, (hk a).ok (hm.ok hp hms) hks⟩
        | error e => exact .inr ⟨e, t, rfl, (hk a).error (hm.ok hp hms) hks⟩
    | error e => exact .inr ⟨e, s', bind_of_error hms, hm.error hp hms⟩

/-- The state is looked at and the program goes on with it. -/
theorem Triple.inspect {k : σ → Program ε σ β} (h : ∀ t, P t → Triple (fun s => s = t) (k t) R E) :
    Triple P (Program.get >>= k) R E :=
  .of_forall fun s hp => by
    cases hks : k s s with
    | mk r t =>
      cases r with
      | ok b => exact .inl ⟨b, t, (bind_of_ok rfl).trans hks, (h s hp).ok rfl hks⟩
      | error e => exact .inr ⟨e, t, (bind_of_ok rfl).trans hks, (h s hp).error rfl hks⟩

theorem Triple.require {p : Prop} [Decidable p] {e : ε} {Q : Unit → σ → Prop}
    (ht : ∀ s, P s → p → Q () s) (hf : ∀ s, P s → ¬ p → E e s) :
    Triple P (Program.require p e) Q E := by
  by_cases hp : p
  · rw [require_of hp]
    exact .pure fun s hs => ht s hs hp
  · rw [require_of_not hp]
    exact .fail fun s hs => hf s hs hp

theorem Triple.requireThen {p : Prop} [Decidable p] {e : ε} {n : Program ε σ β}
    (ht : p → Triple P n R E) (hf : ¬ p → ∀ s, P s → E e s) :
    Triple P (Program.require p e >>= fun _ => n) R E := by
  by_cases hp : p
  · rw [require_of hp]
    exact ht hp
  · rw [require_of_not hp]
    exact (Triple.fail (Q := fun _ _ => False) (hf hp)).bind fun _ => ⟨nofun, nofun⟩

theorem Triple.when {p : Prop} [Decidable p] {m : Program ε σ Unit} {Q : Unit → σ → Prop}
    (ht : p → Triple P m Q E) (hf : ¬ p → ∀ s, P s → Q () s) :
    Triple P (Program.when p m) Q E := by
  by_cases hp : p
  · rw [when_of hp]
    exact ht hp
  · rw [when_of_not hp]
    exact .pure (hf hp)

theorem Triple.settle {done : Int} {f : ε → Except ε' Int} {m : Program ε σ Unit}
    {Q : Unit → σ → Prop} {R : Int → σ → Prop} {E' : ε' → σ → Prop} (h : Triple P m Q E)
    (hq : ∀ s, Q () s → R done s) (hok : ∀ e s code, E e s → f e = .ok code → R code s)
    (herror : ∀ e s e', E e s → f e = .error e' → E' e' s) :
    Triple P (settle done f m) R E' := by
  apply Triple.of_forall
  intro s hp
  cases hms : m s with
  | mk r s' =>
    cases r with
    | ok a => exact .inl ⟨done, s', settle_of_ok hms, hq s' (h.ok hp hms)⟩
    | error e =>
      have he := h.error hp hms
      have hrun : Program.settle done f m s = (f e, s') := settle_of_error hms
      cases hf : f e with
      | ok code => exact .inl ⟨code, s', hrun.trans (by rw [hf]), hok e s' code he hf⟩
      | error e' => exact .inr ⟨e', s', hrun.trans (by rw [hf]), herror e s' e' he hf⟩

/-- The rule of a loop: one element takes the invariant to the next count. -/
theorem Triple.forM {xs : List γ} {f : γ → Program ε σ Unit} (I : Nat → σ → Prop)
    (h : ∀ i x, xs[i]? = some x → Triple (I i) (f x) (fun _ => I (i + 1)) E) :
    Triple (I 0) (xs.forM f) (fun _ => I xs.length) E := by
  induction xs generalizing I with
  | nil => exact .pure fun _ hs => hs
  | cons x xs ih =>
    have hrest : Triple (I 1) (xs.forM f) (fun _ => I (xs.length + 1)) E :=
      ih (fun n => I (n + 1)) fun i y hy => h (i + 1) y (by simpa using hy)
    exact (h 0 x rfl).bind fun _ => hrest

theorem Triple.forEach {l : List γ} {f : γ → Nat → Program ε σ Unit} (I : Nat → σ → Prop)
    (h : ∀ i x, l[i]? = some x → Triple (I i) (f x i) (fun _ => I (i + 1)) E) :
    Triple (I 0) (forEach l f) (fun _ => I l.length) E := by
  rw [← List.length_zipIdx (l := l)]
  refine Triple.forM I fun i x hx => ?_
  rw [List.getElem?_zipIdx] at hx
  cases hget : l[i]? with
  | none => simp [hget] at hx
  | some y =>
    simp only [hget, Option.map_some, Nat.zero_add, Option.some.injEq] at hx
    subst hx
    exact h i y hget

end DsdNexus.Program
