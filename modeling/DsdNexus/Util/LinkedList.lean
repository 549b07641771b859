import DsdNexus.Lib.Chain

/-! # Intrusive lists

The circular lists of `ll.h`: every node has a pointer forwards and one backwards, and the list
is a node of its own. Following a null pointer is no result.
-/

namespace DsdNexus

open Chain

/-- The two pointers of every node, `ll_t`. -/
structure Links (α : Type) where
  next : α → Option α
  prev : α → Option α

namespace Links

variable {α : Type} [DecidableEq α] (m : Links α)

def setNext (p : α) (q : Option α) : Links α := { m with next := Function.update m.next p q }

def setPrev (p : α) (q : Option α) : Links α := { m with prev := Function.update m.prev p q }

@[simp] theorem setNext_next_self (p : α) (q : Option α) : (m.setNext p q).next p = q := by
  simp only [setNext, Function.update_self]

theorem setNext_next_of_ne {p y : α} (q : Option α) (h : y ≠ p) :
    (m.setNext p q).next y = m.next y := by
  simp only [setNext, Function.update_of_ne h]

@[simp] theorem setNext_prev (p : α) (q : Option α) : (m.setNext p q).prev = m.prev := rfl

@[simp] theorem setPrev_prev_self (p : α) (q : Option α) : (m.setPrev p q).prev p = q := by
  simp only [setPrev, Function.update_self]

theorem setPrev_prev_of_ne {p y : α} (q : Option α) (h : y ≠ p) :
    (m.setPrev p q).prev y = m.prev y := by
  simp only [setPrev, Function.update_of_ne h]

@[simp] theorem setPrev_next (p : α) (q : Option α) : (m.setPrev p q).next = m.next := rfl

end Links

section Operations

variable {α : Type} [DecidableEq α]

/-- `INIT_LIST_HEAD`. -/
def initListHead (m : Links α) (ptr : α) : Links α := (m.setNext ptr ptr).setPrev ptr ptr

/-- `list_insert`. -/
def listInsert (m : Links α) (n prev next : α) : Links α :=
  (((m.setPrev next n).setNext n next).setPrev n prev).setNext prev n

/-- `list_add_tail`. -/
def listAddTail (m : Links α) (n head : α) : Option (Links α) :=
  (m.prev head).map fun prev => listInsert m n prev head

/-- `list_join_nodes`. -/
def listJoinNodes (m : Links α) (prev next : α) : Links α := (m.setPrev next prev).setNext prev next

/-- `list_del`. -/
def listDel (m : Links α) (entry : α) : Option (Links α) := do
  let prev ← m.prev entry
  let next ← m.next entry
  pure (((listJoinNodes m prev next).setNext entry none).setPrev entry none)

/-- The nodes of a list, in order. -/
def IsList (m : Links α) (head : α) (nodes : List α) : Prop := Circular m.next m.prev head nodes

variable {m : Links α} {head : α} {nodes : List α}

theorem initListHead_isList (m : Links α) (head : α) : IsList (initListHead m head) head [] :=
  Circular.empty (m.setNext_next_self head head) ((m.setNext head head).setPrev_prev_self head head)

/-- A node of no list is put behind all others. -/
theorem listAddTail_isList (h : IsList m head nodes) {n : α} (hn : n ∉ head :: nodes) :
    ∃ m', listAddTail m n head = some m' ∧ IsList m' head (nodes ++ [n]) ∧
      ∀ y ∉ n :: head :: nodes, m'.next y = m.next y := by
  obtain ⟨z, hz, hlast⟩ := Circular.prev_head h
  have hmem : z ∈ head :: nodes := List.mem_of_getLast? hlast
  have hzn : z ≠ n := fun heq => hn (heq ▸ hmem)
  have hheadn : head ≠ n := fun heq => hn (heq ▸ List.mem_cons_self)
  have hnext : ∀ y, y ≠ z → y ≠ n → (listInsert m n z head).next y = m.next y := by
    intro y hyz hyn
    rw [listInsert, Links.setNext_next_of_ne _ _ hyz, Links.setPrev_next,
      Links.setNext_next_of_ne _ _ hyn, Links.setPrev_next]
  refine ⟨listInsert m n z head, by rw [listAddTail, hz]; rfl, ?_, ?_⟩
  · refine Circular.snoc h hn hz (Links.setNext_next_self _ _ _) ?_ ?_ ?_ ?_ ?_
    · rw [listInsert, Links.setNext_next_of_ne _ _ hzn.symm, Links.setPrev_next,
        Links.setNext_next_self]
    · rw [listInsert, Links.setNext_prev, Links.setPrev_prev_of_ne _ _ hheadn, Links.setNext_prev,
        Links.setPrev_prev_self]
    · rw [listInsert, Links.setNext_prev, Links.setPrev_prev_self]
    · exact fun y hy hyz => hnext y hyz fun heq => hn (heq ▸ hy)
    · intro y hy
      have hyhead : y ≠ head := fun heq => (List.nodup_cons.1 (Circular.nodup h)).1 (heq ▸ hy)
      have hyn : y ≠ n := fun heq => hn (heq ▸ List.mem_cons_of_mem _ hy)
      rw [listInsert, Links.setNext_prev, Links.setPrev_prev_of_ne _ _ hyn, Links.setNext_prev,
        Links.setPrev_prev_of_ne _ _ hyhead]
  · intro y hy
    refine hnext y ?_ fun heq => hy (heq ▸ List.mem_cons_self)
    rintro rfl
    exact hy (List.mem_cons_of_mem _ hmem)

/-- A node of the list is taken out. -/
theorem listDel_isList {front back : List α} {x : α} (h : IsList m head (front ++ x :: back)) :
    ∃ m', listDel m x = some m' ∧ IsList m' head (front ++ back) := by
  obtain ⟨a, b, ha, hb, hlast, hfirst⟩ := Circular.neighbours h
  have hx : x ∉ head :: (front ++ back) := by
    have hnodup := Circular.nodup h
    rw [← List.cons_append, List.nodup_middle] at hnodup
    exact (List.nodup_cons.1 hnodup).1
  have hax : a ≠ x := by
    rintro rfl
    exact hx (List.cons_subset_cons _ (List.subset_append_left _ _) (List.mem_of_getLast? hlast))
  have hbx : b ≠ x := by
    rintro rfl
    have hmem := List.mem_of_head? hfirst
    rw [List.mem_append, List.mem_singleton] at hmem
    rcases hmem with hmem | rfl
    · exact hx (List.mem_cons_of_mem _ (List.mem_append_right _ hmem))
    · exact hx List.mem_cons_self
  refine ⟨_, by rw [listDel, ha, hb]; rfl, ?_⟩
  refine Circular.remove h ha hb ?_ ?_ ?_ ?_
  · rw [Links.setPrev_next, Links.setNext_next_of_ne _ _ hax, listJoinNodes,
      Links.setNext_next_self]
  · rw [Links.setPrev_prev_of_ne _ _ hbx, Links.setNext_prev, listJoinNodes, Links.setNext_prev,
      Links.setPrev_prev_self]
  · intro y hy hya
    have hyx : y ≠ x := fun heq => hx (heq ▸ hy)
    rw [Links.setPrev_next, Links.setNext_next_of_ne _ _ hyx, listJoinNodes,
      Links.setNext_next_of_ne _ _ hya, Links.setPrev_next]
  · intro y hy hyb
    have hyx : y ≠ x := fun heq => hx (heq ▸ hy)
    rw [Links.setPrev_prev_of_ne _ _ hyx, Links.setNext_prev, listJoinNodes, Links.setNext_prev,
      Links.setPrev_prev_of_ne _ _ hyb]

end Operations

end DsdNexus
