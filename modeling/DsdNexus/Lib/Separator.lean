import Mathlib.Data.List.DropRight
import Mathlib.Data.List.Infix

/-! # Lists with a separator

Components joined by an element that occurs in none of them: the last component, and
where a pattern without the separator can occur.
-/

namespace DsdNexus.Separator

variable {α : Type*} {sep : α} {xs ys pat : List α}

/-- A prefix without the separator ends before it. -/
theorem prefix_of_prefix_append_cons (hpat : sep ∉ pat) (h : pat <+: xs ++ sep :: ys) :
    pat <+: xs := by
  rcases List.prefix_or_prefix_of_prefix h (List.prefix_append xs (sep :: ys)) with hp | hx
  · exact hp
  · obtain ⟨rest, rfl⟩ := hx
    rw [List.prefix_append_right_inj] at h
    cases rest with
    | nil => simp
    | cons c rest =>
      have hc : c = sep := (List.cons_prefix_cons.1 h).1
      exact absurd (by simp [hc]) hpat

/-- A pattern without the separator occurs on one side of it. -/
theorem infix_append_cons_iff (hpat : sep ∉ pat) :
    pat <:+: xs ++ sep :: ys ↔ pat <:+: xs ∨ pat <:+: ys := by
  constructor
  · intro h
    induction xs with
    | nil =>
      rcases List.infix_cons_iff.1 h with hp | hi
      · exact Or.inl (prefix_of_prefix_append_cons hpat hp).isInfix
      · exact Or.inr hi
    | cons c xs ih =>
      rcases List.infix_cons_iff.1 h with hp | hi
      · have hcxs : pat <+: c :: xs := prefix_of_prefix_append_cons hpat hp
        exact Or.inl hcxs.isInfix
      · exact (ih hi).imp_left fun hxs => List.infix_cons_iff.2 (Or.inr hxs)
  · rintro (h | h)
    · exact h.trans (List.prefix_append _ _).isInfix
    · exact h.trans ((List.suffix_cons sep ys).trans (List.suffix_append xs _)).isInfix

/-- The last component of a joined list. -/
theorem rtakeWhile_append_cons [DecidableEq α] (h : sep ∉ ys) :
    (xs ++ sep :: ys).rtakeWhile (· ≠ sep) = ys := by
  have hall : ∀ c ∈ ys.reverse, (fun c => decide (c ≠ sep)) c = true := by
    intro c hc
    have hne : c ≠ sep := fun heq => h (heq ▸ List.mem_reverse.1 hc)
    simpa using hne
  rw [List.rtakeWhile, List.reverse_append, List.reverse_cons, List.append_assoc,
    List.takeWhile_append_of_pos hall]
  simp

/-- Only the last separator counts. -/
theorem rtakeWhile_append_of_mem [DecidableEq α] (h : sep ∈ ys) :
    (xs ++ ys).rtakeWhile (· ≠ sep) = ys.rtakeWhile (· ≠ sep) := by
  obtain ⟨after, before, hrev, hafter⟩ := List.eq_append_cons_of_mem (List.mem_reverse.2 h)
  have hys : ys = before.reverse ++ sep :: after.reverse := by
    rw [← List.reverse_reverse ys, hrev]
    simp
  have hafter' : sep ∉ after.reverse := by simpa using hafter
  rw [hys, ← List.append_assoc, rtakeWhile_append_cons hafter', rtakeWhile_append_cons hafter']

/-- Joined lists agree only where their components do. -/
theorem append_cons_inj {xs' ys' : List α} (h : sep ∉ ys) (h' : sep ∉ ys')
    (heq : xs ++ sep :: ys = xs' ++ sep :: ys') : xs = xs' ∧ ys = ys' := by
  classical
  have hys : ys = ys' := by
    calc ys = (xs ++ sep :: ys).rtakeWhile (· ≠ sep) := (rtakeWhile_append_cons h).symm
      _ = (xs' ++ sep :: ys').rtakeWhile (· ≠ sep) := by rw [heq]
      _ = ys' := rtakeWhile_append_cons h'
  subst hys
  exact ⟨List.append_cancel_right heq, rfl⟩

/-- A joined list with something before its last separator does not start there. -/
theorem append_cons_ne_cons {ys' : List α} (hxs : xs ≠ []) (h : sep ∉ ys) (h' : sep ∉ ys') :
    xs ++ sep :: ys ≠ sep :: ys' := by
  intro heq
  have heq' : xs ++ sep :: ys = [] ++ sep :: ys' := heq
  exact hxs (append_cons_inj h h' heq').1

/-! ## One path below another -/

/-- What may follow a whole component. -/
def Tail (sep : α) (rest : List α) : Prop := rest = [] ∨ rest.head? = some sep

theorem Tail.of_isPrefix {rest rest' : List α} (h : Tail sep rest) (hpre : rest' <+: rest) :
    Tail sep rest' := by
  cases rest' with
  | nil => exact Or.inl rfl
  | cons c rest' =>
    obtain ⟨more, rfl⟩ := hpre
    rcases h with hnil | hhead
    · cases hnil
    · exact Or.inr hhead

/-- `path` is `base` or lies below it. -/
def Below (sep : α) (base path : List α) : Prop := ∃ rest, Tail sep rest ∧ path = base ++ rest

theorem Below.refl (base : List α) : Below sep base base :=
  ⟨[], Or.inl rfl, (List.append_nil base).symm⟩

theorem Below.isPrefix {base path : List α} (h : Below sep base path) : base <+: path := by
  obtain ⟨rest, -, rfl⟩ := h
  exact List.prefix_append base rest

/-- Of two bases of one path the longer lies below the shorter. -/
theorem Below.of_length_le {base base' path : List α} (h : Below sep base path)
    (h' : Below sep base' path) (hlen : base.length ≤ base'.length) : Below sep base base' := by
  obtain ⟨mid, rfl⟩ := List.prefix_of_prefix_length_le h.isPrefix h'.isPrefix hlen
  obtain ⟨rest, htail, heq⟩ := h
  obtain ⟨rest', -, rfl⟩ := h'
  refine ⟨mid, ?_, rfl⟩
  rw [List.append_assoc, List.append_cancel_left_eq] at heq
  rw [← heq] at htail
  cases mid with
  | nil => exact Or.inl rfl
  | cons c mid =>
    rcases htail with hnil | hhead
    · cases hnil
    · exact Or.inr hhead

/-- A base of a joined path is the whole of it or a base of the directory. -/
theorem Below.of_append_cons {base dir name : List α} (hname : sep ∉ name)
    (h : Below sep base (dir ++ sep :: name)) : base = dir ++ sep :: name ∨ Below sep base dir := by
  obtain ⟨rest, htail, heq⟩ := h
  rcases htail with rfl | hhead
  · exact Or.inl (by simpa using heq.symm)
  · right
    obtain ⟨below, rfl⟩ : ∃ below, rest = sep :: below := by
      cases rest with
      | nil => cases hhead
      | cons c below =>
        cases hhead
        exact ⟨below, rfl⟩
    rcases List.append_eq_append_iff.1 heq with ⟨mid, rfl, hmid⟩ | ⟨mid, rfl, hmid⟩
    · -- the base ends behind the last separator
      cases mid with
      | nil => exact ⟨[], Or.inl rfl, by simp⟩
      | cons c mid =>
        have hmem : sep ∈ name := by
          rw [(List.cons.inj hmid).2]
          simp
        exact absurd hmem hname
    · cases mid with
      | nil => exact ⟨[], Or.inl rfl, by simp⟩
      | cons c mid =>
        have hc : c = sep := (List.cons.inj hmid).1.symm
        exact ⟨c :: mid, Or.inr (by rw [hc]; rfl), rfl⟩

theorem rdropWhile_append_of_last {p : α → Bool} {c : α} (hc : p c = false) (xs ys : List α) :
    (xs ++ c :: ys).rdropWhile p = xs ++ c :: ys.rdropWhile p := by
  induction ys using List.reverseRecOn with
  | nil => rw [List.rdropWhile_concat_neg _ _ _ (by simp [hc]), List.rdropWhile_nil]
  | append_singleton ys y ih =>
    rw [← List.cons_append, ← List.append_assoc, List.rdropWhile_concat, List.rdropWhile_concat]
    split
    · exact ih
    · simp

end DsdNexus.Separator
