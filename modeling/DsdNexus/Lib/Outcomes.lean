import DsdNexus.Lib.Scheduled

/-! # Outcomes of a computation

A procedure written once for several monads is specified once for all of them: in each
monad `Ends x s Q` says that `x`, begun in the state `s`, ends, and that every result and
every state it can leave meet `Q`. A pure computation leaves the state alone; a process among
others ends under every schedule that lets it.
-/

namespace DsdNexus.Scheduled

class Outcomes (m : Type → Type) [Monad m] (σ : outParam Type) where
  Ends : {α : Type} → m α → σ → (α → σ → Prop) → Prop
  pure : ∀ {α : Type} {a : α} {s : σ} {Q : α → σ → Prop}, Q a s → Ends (Pure.pure a) s Q
  bind : ∀ {α β : Type} {x : m α} {k : α → m β} {s : σ} {Q : α → σ → Prop} {R : β → σ → Prop},
    Ends x s Q → (∀ a s', Q a s' → Ends (k a) s' R) → Ends (x >>= k) s R
  mono : ∀ {α : Type} {x : m α} {s : σ} {Q R : α → σ → Prop},
    Ends x s Q → (∀ a s', Q a s' → R a s') → Ends x s R
  both : ∀ {α : Type} {x : m α} {s : σ} {Q R : α → σ → Prop},
    Ends x s Q → Ends x s R → Ends x s fun a s' => Q a s' ∧ R a s'

/-! ## Pure computations -/

/-- There is one outcome, and no state. -/
def Yields {α : Type} (x : Id α) (s : Unit) (Q : α → Unit → Prop) : Prop := Q x.run s

theorem Yields.pure {α : Type} {a : α} {s : Unit} {Q : α → Unit → Prop} (h : Q a s) :
    Yields (Pure.pure a) s Q := h

theorem Yields.bind {α β : Type} {x : Id α} {k : α → Id β} {s : Unit} {Q : α → Unit → Prop}
    {R : β → Unit → Prop} (hx : Yields x s Q) (hk : ∀ a s', Q a s' → Yields (k a) s' R) :
    Yields (x >>= k) s R := hk _ _ hx

theorem Yields.mono {α : Type} {x : Id α} {s : Unit} {Q R : α → Unit → Prop} (hx : Yields x s Q)
    (h : ∀ a s', Q a s' → R a s') : Yields x s R := h _ _ hx

theorem Yields.both {α : Type} {x : Id α} {s : Unit} {Q R : α → Unit → Prop} (hq : Yields x s Q)
    (hr : Yields x s R) : Yields x s fun a s' => Q a s' ∧ R a s' := ⟨hq, hr⟩

instance : Outcomes Id Unit := ⟨Yields, Yields.pure, Yields.bind, Yields.mono, Yields.both⟩

/-! ## Processes -/

theorem Delivers.both {σ Act α : Type} {x : Proc σ Act α} {s : σ} {Q R : α → σ → Prop}
    (hq : Delivers x s Q) (hr : Delivers x s R) : Delivers x s fun a s' => Q a s' ∧ R a s' :=
  ⟨fun sched a s' rest hrun => ⟨hq.sound sched a s' rest hrun, hr.sound sched a s' rest hrun⟩,
    hq.extend, hq.finishes⟩

instance {σ Act : Type} : Outcomes (Proc σ Act) σ :=
  ⟨Delivers, Delivers.pure, Delivers.bind, Delivers.mono, Delivers.both⟩

end DsdNexus.Scheduled
