import Mathlib.Data.List.Nodup
import Mathlib.Logic.Function.Basic
import Mathlib.Tactic.Common

/-! # Nodes linked by pointers

`Leads next p l q` says that from `p` the pointers lead over the nodes `l` to `q`; a `Circular` is
a closed path in one direction with the same path backwards in the other. A change elsewhere
leaves a path as it is.
-/

namespace DsdNexus.Chain

variable {α : Type*}

/-- From `p` over the nodes `l` to `q`; `none` is no node. -/
def Leads (next : α → Option α) : Option α → List α → Option α → Prop
  | p, [], q => p = q
  | p, x :: l, q => p = some x ∧ Leads next (next x) l q

section Paths

variable {next next' : α → Option α} {p q : Option α} {l : List α} {x : α}

theorem Leads.append_iff {l' : List α} :
    Leads next p (l ++ l') q ↔ ∃ r, Leads next p l r ∧ Leads next r l' q := by
  induction l generalizing p with
  | nil => exact ⟨fun h => ⟨p, rfl, h⟩, fun ⟨_, hp, h⟩ => hp.symm ▸ h⟩
  | cons y l ih =>
    constructor
    · rintro ⟨hp, h⟩
      obtain ⟨r, hl, hl'⟩ := ih.1 h
      exact ⟨r, ⟨hp, hl⟩, hl'⟩
    · rintro ⟨r, ⟨hp, hl⟩, hl'⟩
      exact ⟨hp, ih.2 ⟨r, hl, hl'⟩⟩

theorem Leads.concat_iff : Leads next p (l ++ [x]) q ↔ Leads next p l (some x) ∧ next x = q := by
  rw [Leads.append_iff]
  constructor
  · rintro ⟨r, hl, rfl, hq⟩
    exact ⟨hl, hq⟩
  · rintro ⟨hl, hq⟩
    exact ⟨some x, hl, rfl, hq⟩

/-- The middle of a path. -/
theorem Leads.middle_iff {l' : List α} :
    Leads next p (l ++ x :: l') q ↔ Leads next p l (some x) ∧ Leads next (next x) l' q := by
  rw [Leads.append_iff]
  constructor
  · rintro ⟨r, hl, rfl, hl'⟩
    exact ⟨hl, hl'⟩
  · rintro ⟨hl, hl'⟩
    exact ⟨some x, hl, rfl, hl'⟩

/-- What is changed elsewhere does not matter. -/
theorem Leads.congr (h : Leads next p l q) (hsame : ∀ y ∈ l, next' y = next y) :
    Leads next' p l q := by
  induction l generalizing p with
  | nil => exact h
  | cons y l ih =>
    refine ⟨h.1, ?_⟩
    rw [hsame y List.mem_cons_self]
    exact ih h.2 fun z hz => hsame z (List.mem_cons_of_mem y hz)

/-- A path starts at its first node, or where it ends. -/
theorem Leads.start (h : Leads next p l (some x)) :
    ∃ y, p = some y ∧ (l ++ [x]).head? = some y := by
  cases l with
  | nil => exact ⟨x, h, rfl⟩
  | cons y l => exact ⟨y, h.1, rfl⟩

/-- The nodes up to a place are those of the pointers. -/
theorem Leads.unique {l' : List α} {e : Option α} (h : Leads next p l e) (h' : Leads next p l' e)
    (hout : ∀ y ∈ e, y ∉ l) (hout' : ∀ y ∈ e, y ∉ l') : l = l' := by
  induction l generalizing p l' with
  | nil =>
    cases l' with
    | nil => rfl
    | cons y l' =>
      have he : e = some y := Eq.trans (Eq.symm h) h'.1
      exact absurd List.mem_cons_self (hout' y he)
  | cons y l ih =>
    cases l' with
    | nil =>
      have he : e = some y := Eq.trans (Eq.symm h') h.1
      exact absurd List.mem_cons_self (hout y he)
    | cons z l' =>
      obtain rfl : y = z := Option.some.inj (h.1.symm.trans h'.1)
      rw [ih h.2 h'.2 (fun w hw hl => hout w hw (List.mem_cons_of_mem y hl))
        (fun w hw hl => hout' w hw (List.mem_cons_of_mem y hl))]

end Paths

/-- The head and the nodes behind it are linked in a circle, in both directions. -/
structure Circular (next prev : α → Option α) (head : α) (l : List α) : Prop where
  nodup : (head :: l).Nodup
  forward : Leads next (next head) l (some head)
  backward : Leads prev (prev head) l.reverse (some head)

section Rings

variable {next prev next' prev' : α → Option α} {head : α} {l : List α} {x : α}

theorem Circular.symm (h : Circular next prev head l) : Circular prev next head l.reverse where
  nodup := by
    have hnodup := h.nodup
    rw [List.nodup_cons] at hnodup ⊢
    rwa [List.mem_reverse, List.nodup_reverse]
  forward := h.backward
  backward := by
    rw [List.reverse_reverse]
    exact h.forward

theorem Circular.empty (hnext : next head = some head) (hprev : prev head = some head) :
    Circular next prev head [] where
  nodup := List.nodup_singleton head
  forward := hnext
  backward := hprev

theorem Circular.congr (h : Circular next prev head l) (hnext : ∀ y ∈ head :: l, next' y = next y)
    (hprev : ∀ y ∈ head :: l, prev' y = prev y) : Circular next' prev' head l where
  nodup := h.nodup
  forward := by
    rw [hnext head List.mem_cons_self]
    exact h.forward.congr fun y hy => hnext y (List.mem_cons_of_mem _ hy)
  backward := by
    rw [hprev head List.mem_cons_self]
    exact h.backward.congr fun y hy => hprev y (List.mem_cons_of_mem _ (List.mem_reverse.1 hy))

/-- The nodes of a ring are those of the pointers. -/
theorem Circular.unique {l' : List α} (h : Circular next prev head l)
    (h' : Circular next prev head l') :
    l = l' := by
  refine h.forward.unique h'.forward (fun y hy => ?_) fun y hy => ?_
  · obtain rfl : head = y := Option.some.inj hy
    exact (List.nodup_cons.1 h.nodup).1
  · obtain rfl : head = y := Option.some.inj hy
    exact (List.nodup_cons.1 h'.nodup).1

/-- The last node stands before the head; without nodes it is the head itself. -/
theorem Circular.prev_head (h : Circular next prev head l) :
    ∃ z, prev head = some z ∧ (head :: l).getLast? = some z := by
  obtain ⟨z, hz, hfirst⟩ := h.backward.start
  refine ⟨z, hz, ?_⟩
  rwa [← List.reverse_cons, List.head?_reverse] at hfirst

theorem Circular.next_head (h : Circular next prev head l) :
    ∃ z, next head = some z ∧ (l ++ [head]).head? = some z := h.forward.start

/-- A node put between the last one and the head. -/
theorem Circular.snoc {z : α} (h : Circular next prev head l) (hx : x ∉ head :: l)
    (hz : prev head = some z) (hlast : next' z = some x) (hnode : next' x = some head)
    (hhead : prev' head = some x) (hback : prev' x = some z)
    (hnext : ∀ y ∈ head :: l, y ≠ z → next' y = next y)
    (hprev : ∀ y ∈ l, prev' y = prev y) : Circular next' prev' head (l ++ [x]) := by
  obtain ⟨z', hz', hend⟩ := h.prev_head
  obtain rfl : z = z' := Option.some.inj (hz.symm.trans hz')
  constructor
  · rw [← List.cons_append, List.nodup_append_comm]
    exact List.nodup_cons.2 ⟨hx, h.nodup⟩
  · rw [Leads.concat_iff]
    refine ⟨?_, hnode⟩
    rcases List.eq_nil_or_concat' l with rfl | ⟨l, y, rfl⟩
    · obtain rfl : head = z := Option.some.inj hend
      exact hlast
    · have hy : y = z := by
        rw [← List.cons_append, List.getLast?_concat] at hend
        exact Option.some.inj hend
      subst hy
      have hnodup := h.nodup
      rw [← List.cons_append, List.nodup_append_comm] at hnodup
      have hout := (List.nodup_cons.1 hnodup).1
      have hforward := h.forward
      rw [Leads.concat_iff] at hforward ⊢
      refine ⟨?_, hlast⟩
      rw [hnext head List.mem_cons_self fun heq => hout (heq ▸ List.mem_cons_self)]
      refine hforward.1.congr fun w hw => hnext w ?_ ?_
      · exact List.mem_cons_of_mem _ (List.mem_append_left _ hw)
      · rintro rfl
        exact hout (List.mem_cons_of_mem _ hw)
  · rw [List.reverse_append]
    refine ⟨hhead, ?_⟩
    rw [hback, ← hz]
    exact h.backward.congr fun y hy => hprev y (List.mem_reverse.1 hy)

/-- One half of taking a node out: the node before it leads to the one behind it. -/
theorem Leads.join {l' : List α} {a : α} (hnodup : (head :: (l ++ x :: l')).Nodup)
    (h : Leads next (next head) (l ++ x :: l') (some head))
    (ha : (head :: l).getLast? = some a) (hjoin : next' a = next x)
    (hnext : ∀ y ∈ head :: (l ++ l'), y ≠ a → next' y = next y) :
    Leads next' (next' head) (l ++ l') (some head) := by
  have hhead := (List.nodup_cons.1 hnodup).1
  obtain ⟨hfront, hback⟩ := Leads.middle_iff.1 h
  rcases List.eq_nil_or_concat' l with rfl | ⟨l, b, rfl⟩
  · obtain rfl : head = a := Option.some.inj ha
    rw [hjoin]
    refine hback.congr fun y hy => hnext y (List.mem_cons_of_mem _ hy) ?_
    rintro rfl
    exact hhead (List.mem_append_right _ (List.mem_cons_of_mem _ hy))
  · obtain rfl : b = a := by
      rw [← List.cons_append, List.getLast?_concat] at ha
      exact Option.some.inj ha
    obtain ⟨hfront, -⟩ := Leads.concat_iff.1 hfront
    have hapart := (List.nodup_append.1 (List.nodup_cons.1 hnodup).2)
    have hleft := List.nodup_append.1 hapart.1
    rw [hnext head List.mem_cons_self fun heq =>
      hhead (List.mem_append_left _ (List.mem_append_right _ (List.mem_singleton.2 heq))),
      List.append_assoc, List.singleton_append, Leads.middle_iff, hjoin]
    constructor
    · refine hfront.congr fun y hy => hnext y ?_ ?_
      · exact List.mem_cons_of_mem _ (List.mem_append_left _ (List.mem_append_left _ hy))
      · rintro rfl
        exact hleft.2.2 y hy y (List.mem_singleton_self y) rfl
    · refine hback.congr fun y hy => hnext y ?_ ?_
      · exact List.mem_cons_of_mem _ (List.mem_append_right _ hy)
      · rintro rfl
        exact hapart.2.2 y (List.mem_append_right _ (List.mem_singleton_self y)) y
          (List.mem_cons_of_mem _ hy) rfl

/-- The neighbours of a node. -/
theorem Circular.neighbours {l' : List α} (h : Circular next prev head (l ++ x :: l')) :
    ∃ a b, prev x = some a ∧ next x = some b ∧ (head :: l).getLast? = some a ∧
      (l' ++ [head]).head? = some b := by
  have hback := h.backward
  rw [List.reverse_append, List.reverse_cons, List.append_assoc, List.singleton_append] at hback
  obtain ⟨a, ha, hlast⟩ := (Leads.middle_iff.1 hback).2.start
  obtain ⟨b, hb, hfirst⟩ := (Leads.middle_iff.1 h.forward).2.start
  refine ⟨a, b, ha, hb, ?_, hfirst⟩
  rwa [← List.reverse_cons, List.head?_reverse] at hlast

/-- A node taken out, its neighbours linked to each other. -/
theorem Circular.remove {l' : List α} {a b : α} (h : Circular next prev head (l ++ x :: l'))
    (ha : prev x = some a) (hb : next x = some b) (hforward : next' a = some b)
    (hbackward : prev' b = some a)
    (hnext : ∀ y ∈ head :: (l ++ l'), y ≠ a → next' y = next y)
    (hprev : ∀ y ∈ head :: (l ++ l'), y ≠ b → prev' y = prev y) :
    Circular next' prev' head (l ++ l') := by
  obtain ⟨a', b', ha', hb', hlast, hfirst⟩ := h.neighbours
  obtain rfl : a = a' := Option.some.inj (ha.symm.trans ha')
  obtain rfl : b = b' := Option.some.inj (hb.symm.trans hb')
  have hback := h.symm
  rw [List.reverse_append, List.reverse_cons, List.append_assoc, List.singleton_append] at hback
  refine ⟨?_, ?_, ?_⟩
  · exact h.nodup.sublist ((List.sublist_cons_self x l').append_left l |>.cons_cons head)
  · exact Leads.join h.nodup h.forward hlast (hforward.trans hb.symm) hnext
  · rw [List.reverse_append]
    refine Leads.join hback.nodup hback.forward ?_ (hbackward.trans ha.symm) fun y hy => hprev y ?_
    · rwa [← List.reverse_concat', List.getLast?_reverse]
    · rw [List.mem_cons, List.mem_append, List.mem_reverse, List.mem_reverse] at hy
      rw [List.mem_cons, List.mem_append]
      exact hy.imp_right Or.symm

end Rings

end DsdNexus.Chain
