import Mathlib.Data.List.Forall2
import DsdNexus.Lib.Endian
import DsdNexus.Lib.Slice

/-! # Reads of a bounded area of memory

Programs that stop with an error, the errors a program cannot stop with, and reads that
stop where they would leave the area they read from.
-/

namespace DsdNexus

/-! ## Programs that stop -/

namespace Attempt

variable {ε α β ι : Type}

/-- The program gives a result. -/
def Succeeds (x : Except ε α) : Prop := ∃ a, x = .ok a

/-- The program stops with none of these errors. -/
def Avoids (bad : ε → Prop) (x : Except ε α) : Prop := ∀ e, x = .error e → ¬ bad e

/-- The results of a program for each element, in order. -/
def collect (f : ι → Except ε α) : List ι → Except ε (List α)
  | [] => .ok []
  | i :: is => do
    let a ← f i
    let as ← collect f is
    .ok (a :: as)

variable {bad : ε → Prop} {x : Except ε α} {f : α → Except ε β} {a : α} {b : β} {e : ε}

theorem bind_of_ok (h : x = .ok a) : (x >>= f) = f a := by
  rw [h]
  rfl

theorem bind_eq_ok : (x >>= f) = .ok b ↔ ∃ a, x = .ok a ∧ f a = .ok b := by
  cases x with
  | error e => exact ⟨nofun, nofun⟩
  | ok a =>
    constructor
    · intro h
      exact ⟨a, rfl, h⟩
    · rintro ⟨a, ha, hb⟩
      cases ha
      exact hb

theorem succeeds_ok (a : α) : Succeeds (.ok a : Except ε α) := ⟨a, rfl⟩

theorem not_succeeds_error (e : ε) : ¬ Succeeds (.error e : Except ε α) := nofun

theorem succeeds_bind : Succeeds (x >>= f) ↔ ∃ a, x = .ok a ∧ Succeeds (f a) := by
  constructor
  · rintro ⟨b, hb⟩
    obtain ⟨a, ha, hf⟩ := bind_eq_ok.mp hb
    exact ⟨a, ha, b, hf⟩
  · rintro ⟨a, ha, b, hf⟩
    exact ⟨b, bind_eq_ok.mpr ⟨a, ha, hf⟩⟩

/-- A result that is only wrapped. -/
theorem succeeds_bind_ok {g : α → β} :
    Succeeds (x >>= fun a => (.ok (g a) : Except ε β)) ↔ Succeeds x := by
  rw [succeeds_bind]
  constructor
  · rintro ⟨a, ha, -⟩
    exact ⟨a, ha⟩
  · rintro ⟨a, ha⟩
    exact ⟨a, ha, succeeds_ok _⟩

theorem avoids_ok (a : α) : Avoids bad (.ok a) := nofun

theorem avoids_error : Avoids bad (.error e : Except ε α) ↔ ¬ bad e := by
  constructor
  · intro h
    exact h e rfl
  · intro h e' he
    cases he
    exact h

theorem Succeeds.avoids (h : Succeeds x) : Avoids bad x := by
  obtain ⟨a, rfl⟩ := h
  exact avoids_ok a

theorem avoids_bind :
    Avoids bad (x >>= f) ↔ Avoids bad x ∧ ∀ a, x = .ok a → Avoids bad (f a) := by
  cases x with
  | error e =>
    constructor
    · intro h
      exact ⟨avoids_error.mpr (h e rfl), nofun⟩
    · intro h e' he
      cases he
      exact h.1 e rfl
  | ok a =>
    constructor
    · intro h
      refine ⟨avoids_ok a, ?_⟩
      intro a' ha
      cases ha
      exact h
    · intro h
      exact h.2 a rfl

/-- Whatever stops the program is one of these errors. -/
def Only (bad : ε → Prop) (x : Except ε α) : Prop := ∀ e, x = .error e → bad e

theorem only_ok (a : α) : Only bad (.ok a) := nofun

theorem only_error (h : bad e) : Only bad (.error e : Except ε α) := by
  intro e' he
  cases he
  exact h

theorem only_bind (hx : Only bad x) (hf : ∀ a, Only bad (f a)) : Only bad (x >>= f) := by
  cases x with
  | error e => exact only_error (hx e rfl)
  | ok a => exact hf a

theorem only_collect {f : ι → Except ε α} (hf : ∀ i, Only bad (f i)) (is : List ι) :
    Only bad (collect f is) := by
  induction is with
  | nil => exact only_ok []
  | cons i is ih => exact only_bind (hf i) fun a => only_bind ih fun as => only_ok _

/-- A program that stops with nothing else avoids the errors where it succeeds. -/
theorem Only.avoids_iff (h : Only bad x) : Avoids bad x ↔ Succeeds x := by
  cases x with
  | error e =>
    constructor
    · intro havoids
      exact absurd (h e rfl) (havoids e rfl)
    · intro hsucceeds
      exact absurd hsucceeds (not_succeeds_error e)
  | ok a => exact ⟨fun _ => succeeds_ok a, fun _ => avoids_ok a⟩

theorem Only.avoids_bind_iff (h : Only bad x) :
    Avoids bad (x >>= f) ↔ ∃ a, x = .ok a ∧ Avoids bad (f a) := by
  rw [avoids_bind, h.avoids_iff]
  constructor
  · rintro ⟨⟨a, ha⟩, hf⟩
    exact ⟨a, ha, hf a ha⟩
  · rintro ⟨a, rfl, hf⟩
    refine ⟨succeeds_ok a, ?_⟩
    intro a' ha
    cases ha
    exact hf

theorem collect_eq_ok {f : ι → Except ε α} (is : List ι) {as : List α}
    (h : collect f is = .ok as) : List.Forall₂ (fun i a => f i = .ok a) is as := by
  induction is generalizing as with
  | nil =>
    cases h
    exact .nil
  | cons i is ih =>
    obtain ⟨a, ha, hrest⟩ := bind_eq_ok.mp h
    obtain ⟨rest, hcollect, has⟩ := bind_eq_ok.mp hrest
    cases has
    exact .cons ha (ih hcollect)

/-- The results of a program for every number below `n`. -/
theorem collect_range_eq_ok {f : Nat → Except ε α} {n : Nat} {as : List α}
    (h : collect f (List.range n) = .ok as) :
    as.length = n ∧ ∀ i, i < n → ∃ a, as[i]? = some a ∧ f i = .ok a := by
  have hall := collect_eq_ok _ h
  have hlen : as.length = n := by
    rw [← hall.length_eq, List.length_range]
  refine ⟨hlen, ?_⟩
  intro i hi
  have hget := hall.get (show i < (List.range n).length by rwa [List.length_range])
    (show i < as.length by omega)
  rw [List.get_eq_getElem, List.get_eq_getElem, List.getElem_range] at hget
  exact ⟨_, List.getElem?_eq_getElem (by omega), hget⟩

theorem collect_ok {f : ι → Except ε α} {g : ι → α} (is : List ι)
    (h : ∀ i ∈ is, f i = .ok (g i)) : collect f is = .ok (is.map g) := by
  induction is with
  | nil => rfl
  | cons i is ih =>
    rw [collect, bind_of_ok (h i List.mem_cons_self),
      bind_of_ok (ih fun j hj => h j (List.mem_cons_of_mem i hj))]
    rfl

theorem succeeds_collect {f : ι → Except ε α} (is : List ι) :
    Succeeds (collect f is) ↔ ∀ i ∈ is, Succeeds (f i) := by
  induction is with
  | nil => exact ⟨fun _ => nofun, fun _ => succeeds_ok []⟩
  | cons i is ih =>
    constructor
    · intro h
      obtain ⟨a, ha, hrest⟩ := succeeds_bind.mp h
      obtain ⟨rest, hcollect, -⟩ := succeeds_bind.mp hrest
      exact List.forall_mem_cons.mpr ⟨⟨a, ha⟩, ih.mp ⟨rest, hcollect⟩⟩
    · intro h
      obtain ⟨⟨a, ha⟩, his⟩ := List.forall_mem_cons.mp h
      obtain ⟨rest, hcollect⟩ := ih.mpr his
      exact succeeds_bind.mpr ⟨a, ha, succeeds_bind.mpr ⟨rest, hcollect, succeeds_ok _⟩⟩

end Attempt

/-! ## Reads -/

section Reads

open Endian

variable {ε : Type} (outside : ε)

/-- The `w` bytes of the area from `p` on. -/
def readBytes (mem : List UInt8) (p w : Nat) : Except ε (List UInt8) :=
  if p + w ≤ mem.length then .ok (slice mem p w) else .error outside

/-- The `w` bytes at `p` as a number, most significant first. -/
def readBe (mem : List UInt8) (p w : Nat) : Except ε Nat := do
  let bytes ← readBytes outside mem p w
  .ok (ofBe bytes)

variable {mem : List UInt8} {p w : Nat}

theorem readBytes_of_le (h : p + w ≤ mem.length) :
    readBytes outside mem p w = .ok (slice mem p w) := if_pos h

theorem succeeds_readBytes : Attempt.Succeeds (readBytes outside mem p w) ↔
    p + w ≤ mem.length := by
  unfold readBytes
  split
  · next h => exact ⟨fun _ => h, fun _ => Attempt.succeeds_ok _⟩
  · next h => exact ⟨fun hs => absurd hs (Attempt.not_succeeds_error _), fun hle => absurd hle h⟩

theorem readBytes_eq_ok {bytes : List UInt8} :
    readBytes outside mem p w = .ok bytes ↔ p + w ≤ mem.length ∧ bytes = slice mem p w := by
  unfold readBytes
  split
  · next h =>
    rw [Except.ok.injEq]
    exact ⟨fun heq => ⟨h, heq.symm⟩, fun heq => heq.2.symm⟩
  · next h => exact ⟨nofun, fun heq => absurd heq.1 h⟩

theorem only_readBytes {bad : ε → Prop} (h : bad outside) :
    Attempt.Only bad (readBytes outside mem p w) := by
  unfold readBytes
  split
  · exact Attempt.only_ok _
  · exact Attempt.only_error h

theorem only_readBe {bad : ε → Prop} (h : bad outside) :
    Attempt.Only bad (readBe outside mem p w) :=
  Attempt.only_bind (only_readBytes outside h) fun _ => Attempt.only_ok _

theorem readBe_of_le (h : p + w ≤ mem.length) :
    readBe outside mem p w = .ok (ofBe (slice mem p w)) := by
  rw [readBe, readBytes_of_le outside h]
  rfl

theorem succeeds_readBe : Attempt.Succeeds (readBe outside mem p w) ↔ p + w ≤ mem.length := by
  rw [readBe, Attempt.succeeds_bind]
  constructor
  · rintro ⟨bytes, hbytes, -⟩
    exact ((readBytes_eq_ok outside).mp hbytes).1
  · intro h
    exact ⟨_, readBytes_of_le outside h, Attempt.succeeds_ok _⟩

theorem readBe_eq_ok {n : Nat} :
    readBe outside mem p w = .ok n ↔ p + w ≤ mem.length ∧ n = ofBe (slice mem p w) := by
  rw [readBe, Attempt.bind_eq_ok]
  constructor
  · rintro ⟨bytes, hbytes, hn⟩
    obtain ⟨hle, rfl⟩ := (readBytes_eq_ok outside).mp hbytes
    cases hn
    exact ⟨hle, rfl⟩
  · rintro ⟨hle, rfl⟩
    exact ⟨_, readBytes_of_le outside hle, rfl⟩

end Reads

end DsdNexus
