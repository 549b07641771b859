import Mathlib.Order.Lattice
import Mathlib.Data.List.Nodup
import Mathlib.Data.Int.Basic

/-! # The balanced tree

`sa_tree_find`, `sa_tree_insert` and `sa_tree_enumerate`. An index of `child` is a Bool, and
a result of `none` is the use of a pointer that is null or was never set.
-/

namespace DsdNexus

/-- A tree, by the node at its root. -/
inductive AVTree (α : Type*) where
  | nil
  | node (child0 : AVTree α) (elem : α) (state : Int) (child1 : AVTree α)

namespace AVTree

variable {α : Type*}

def isNil : AVTree α → Bool
  | nil => true
  | node .. => false

/-- `state` of the root. -/
def state : AVTree α → Int
  | nil => 0
  | node _ _ st _ => st

/-- A node whose `child[i]` is `near`. -/
def mk (i : Bool) (near : AVTree α) (elem : α) (state : Int) (far : AVTree α) : AVTree α :=
  if i then node far elem state near else node near elem state far

/-- `next` after a write. -/
def noteNext (next : Bool → Option α) (i : Bool) (elem : α) : Bool → Option α :=
  fun j => if j = i then some elem else next j

/-- `sa_tree_find`: the element, and `next`; `cmp` already has the key. -/
def saTreeFind (cmp : α → Int) :
    AVTree α → (Bool → Option α) → Option α × (Bool → Option α)
  | nil, next => (none, next)
  | node child0 elem _ child1, next =>
    if cmp elem < 0 then saTreeFind cmp child0 (noteNext next true elem)
    else if 0 < cmp elem then saTreeFind cmp child1 (noteNext next false elem)
    else (some elem, (saTreeFind cmp child1 (saTreeFind cmp child0 next).2).2)

/-- The two rotations at a node whose `child[i]`, `near`, is too high. -/
def rotate (i : Bool) (near : AVTree α) (elem : α) (state : Int) (far : AVTree α) :
    Option (AVTree α) :=
  match near with
  | nil => none
  | node near0 nearElem nearState near1 =>
    let outer := if i then near1 else near0
    let inner := if i then near0 else near1
    if nearState * 2 = -state then
      match inner with
      | nil => none
      | node inner0 innerElem innerState inner1 =>
        let state0 := if 0 < innerState then -1 else 0
        let state1 := if innerState < 0 then 1 else 0
        let innerNear := if i then inner1 else inner0
        let innerFar := if i then inner0 else inner1
        some (mk i
          (mk i outer nearElem (if i then state1 else state0) innerNear) innerElem 0
          (mk i innerFar elem (if i then state0 else state1) far))
    else
      let tState := if nearState ≠ 0 then 0 else state / 2
      some (mk i outer nearElem (-tState) (mk i inner elem tState far))

/-- A node whose `state` has been adjusted, on the side of `near`. -/
def rebalance (i : Bool) (near : AVTree α) (elem : α) (state : Int) (far : AVTree α) :
    Option (AVTree α) :=
  if state % 2 = 0 ∧ state ≠ 0 then rotate i near elem state far
  else some (mk i near elem state far)

/-- What `sa_tree_insert` does with a node once `child[side]` has been seen to: `ret` is what
the call returned, and `next` is set if it holds a node. -/
def settle (side : Bool) (elem key : α) (state : Int) (other : AVTree α) :
    AVTree α × Option α × Bool → Option (AVTree α × Option α × Bool)
  | (t, some ret, next) => some (mk side t elem state other, some ret, next)
  | (t, none, next) =>
    let i := side ^^ next
    let near := if i = side then t else other
    let far := if i = side then other else t
    (rebalance i near elem (state + if i then 1 else -1) far).map fun root =>
      (root, if decide (root.state = 0) ^^ next then some key else none, next)

/-- `sa_tree_insert`: the tree, what is returned, and whether `next` holds a node. -/
def saTreeInsert (cmp : α → α → Int) :
    AVTree α → α → Bool → Option (AVTree α × Option α × Bool)
  | nil, key, next =>
    if next then some (node nil key 0 nil, none, false) else some (nil, some key, false)
  | node child0 elem state child1, key, next =>
    if cmp elem key < 0 then
      (saTreeInsert cmp child1 key next).bind (settle true elem key state child0)
    else if 0 < cmp elem key then
      (saTreeInsert cmp child0 key next).bind (settle false elem key state child1)
    else if next then some (node child0 elem state child1, some elem, next)
    else if ¬ child0.isNil then
      ((saTreeFind (cmp key) child0 fun _ => none).2 false).bind fun key =>
        (saTreeInsert cmp child0 key next).bind (settle false key key state child1)
    else if ¬ child1.isNil then
      ((saTreeFind (cmp key) child1 fun _ => none).2 true).bind fun key =>
        (saTreeInsert cmp child1 key next).bind (settle true key key state child0)
    else some (nil, none, true)

/-- `sa_tree_enumerate`, where `enu` may fail. -/
def saTreeEnumerate {σ : Type*} (cmp : α → Int) (enu : σ → α → Option σ) :
    AVTree α → σ → Option σ
  | nil, s => some s
  | node child0 elem _ child1, s =>
    (if 0 ≤ cmp elem then saTreeEnumerate cmp enu child0 s else some s).bind fun s =>
      (if cmp elem = 0 then enu s elem else some s).bind fun s =>
        if cmp elem ≤ 0 then saTreeEnumerate cmp enu child1 s else some s

/-- The elements in order. -/
def toList : AVTree α → List α
  | nil => []
  | node child0 elem _ child1 => child0.toList ++ elem :: child1.toList

@[simp] theorem toList_nil : (nil : AVTree α).toList = [] := rfl

@[simp] theorem toList_node (l r : AVTree α) (e : α) (st : Int) :
    (node l e st r).toList = l.toList ++ e :: r.toList := rfl

theorem saTreeEnumerate_all {σ : Type*} (enu : σ → α → Option σ) (t : AVTree α) (s : σ) :
    saTreeEnumerate (fun _ => 0) enu t s = t.toList.foldlM enu s := by
  induction t generalizing s with
  | nil => rfl
  | node l e st r ihl ihr =>
    simp only [saTreeEnumerate, if_true, toList_node, List.foldlM_append,
      List.foldlM_cons, ihl]
    congr 1
    funext s
    congr 1
    funext s
    exact ihr s

/-! ## Balance -/

def height : AVTree α → Nat
  | nil => 0
  | node l _ _ r => max l.height r.height + 1

/-- `state` is by how much `child[1]` is higher, by one at most. -/
def Balanced : AVTree α → Prop
  | nil => True
  | node l _ st r =>
    l.Balanced ∧ r.Balanced ∧ st = (r.height : Int) - l.height ∧ -1 ≤ st ∧ st ≤ 1

@[simp] theorem height_nil : (nil : AVTree α).height = 0 := rfl

@[simp] theorem height_node (l r : AVTree α) (e : α) (st : Int) :
    (node l e st r).height = max l.height r.height + 1 := rfl

@[simp] theorem balanced_nil : (nil : AVTree α).Balanced := trivial

@[simp] theorem balanced_node {l r : AVTree α} {e : α} {st : Int} :
    (node l e st r).Balanced ↔
      l.Balanced ∧ r.Balanced ∧ st = (r.height : Int) - l.height ∧ -1 ≤ st ∧ st ≤ 1 :=
  Iff.rfl

@[simp] theorem toList_mk (i : Bool) (near far : AVTree α) (e : α) (st : Int) :
    (mk i near e st far).toList =
      if i then far.toList ++ e :: near.toList else near.toList ++ e :: far.toList := by
  cases i <;> rfl

@[simp] theorem height_mk (i : Bool) (near far : AVTree α) (e : α) (st : Int) :
    (mk i near e st far).height = max near.height far.height + 1 := by
  cases i
  · rfl
  · rw [max_comm]
    rfl

@[simp] theorem state_mk (i : Bool) (near far : AVTree α) (e : α) (st : Int) :
    (mk i near e st far).state = st := by
  cases i <;> rfl

theorem balanced_mk {i : Bool} {near far : AVTree α} {e : α} {st : Int} :
    (mk i near e st far).Balanced ↔ near.Balanced ∧ far.Balanced ∧
      (st = if i then (near.height : Int) - far.height else far.height - near.height) ∧
      -1 ≤ st ∧ st ≤ 1 := by
  cases i
  · rfl
  · exact and_left_comm

/-- What a rotation leaves of a node whose `child[i]` is by two too high. -/
structure Rotated (i : Bool) (near : AVTree α) (elem : α) (far t : AVTree α) : Prop where
  balanced : t.Balanced
  elems : t.toList = (mk i near elem 0 far).toList
  height : near.state ≠ 0 ∧ t.state = 0 ∧ t.height = near.height ∨
    near.state = 0 ∧ t.state ≠ 0 ∧ t.height = near.height + 1

theorem rotate_double {i : Bool} {outer inner far : AVTree α} {elem nearElem : α}
    (houter : outer.Balanced) (hinner : inner.Balanced) (hfar : far.Balanced)
    (hhigh : inner.height = far.height + 1) (hlow : outer.height = far.height) :
    ∃ t, rotate i (mk i outer nearElem (if i then -1 else 1) inner) elem (if i then 2 else -2)
        far = some t ∧
      Rotated i (mk i outer nearElem (if i then -1 else 1) inner) elem far t := by
  cases inner with
  | nil => simp at hhigh
  | node inner0 innerElem innerState inner1 =>
    obtain ⟨h0, h1, hstate, hge, hle⟩ := hinner
    rw [height_node] at hhigh
    cases i with
    | false =>
      refine ⟨_, rfl, ?_, by simp [mk], Or.inl ⟨by simp, rfl, ?_⟩⟩
      · simp only [mk, balanced_node, houter, h0, h1, hfar, height_node, if_false,
          Bool.false_eq_true, true_and]
        split <;> split <;> omega
      · simp only [mk, height_node, if_false, Bool.false_eq_true]
        omega
    | true =>
      refine ⟨_, rfl, ?_, by simp [mk], Or.inl ⟨by simp, rfl, ?_⟩⟩
      · simp only [mk, balanced_node, houter, h0, h1, hfar, height_node, if_true, true_and]
        split <;> split <;> omega
      · simp only [mk, height_node, if_true]
        omega

theorem rotate_single {i : Bool} {outer inner far : AVTree α} {elem nearElem : α} {st : Int}
    (houter : outer.Balanced) (hinner : inner.Balanced) (hfar : far.Balanced)
    (hhigh : outer.height = far.height + 1)
    (hlow : inner.height = far.height ∨ inner.height = far.height + 1)
    (hst : st = if i then (outer.height : Int) - inner.height else inner.height - outer.height) :
    ∃ t, rotate i (mk i outer nearElem st inner) elem (if i then 2 else -2) far = some t ∧
      Rotated i (mk i outer nearElem st inner) elem far t := by
  cases i with
  | false =>
    refine ⟨_, if_neg ?_, ?_, by simp [mk], ?_⟩
    · simp only [Bool.false_eq_true, if_false] at hst ⊢
      omega
    · simp only [mk, balanced_node, houter, hinner, hfar, height_node, if_false,
        Bool.false_eq_true, true_and] at hst ⊢
      split <;> omega
    · simp only [mk, state, height_node, if_false, Bool.false_eq_true] at hst ⊢
      split <;> omega
  | true =>
    refine ⟨_, if_neg ?_, ?_, by simp [mk], ?_⟩
    · simp only [if_true] at hst ⊢
      omega
    · simp only [mk, balanced_node, houter, hinner, hfar, height_node, if_true,
        true_and] at hst ⊢
      split <;> omega
    · simp only [mk, state, height_node, if_true] at hst ⊢
      split <;> omega

theorem rotate_spec (i : Bool) (elem : α) {near far : AVTree α} (hnear : near.Balanced)
    (hfar : far.Balanced) (hheight : near.height = far.height + 2) :
    ∃ t, rotate i near elem (if i then 2 else -2) far = some t ∧ Rotated i near elem far t := by
  have hsides : ∃ outer nearElem st inner, near = mk i outer nearElem st inner := by
    cases near with
    | nil => simp at hheight
    | node near0 nearElem st near1 =>
      cases i
      · exact ⟨near0, nearElem, st, near1, rfl⟩
      · exact ⟨near1, nearElem, st, near0, rfl⟩
  obtain ⟨outer, nearElem, st, inner, rfl⟩ := hsides
  obtain ⟨houter, hinner, hst, hlow, hhigh⟩ := balanced_mk.1 hnear
  rw [height_mk] at hheight
  by_cases hdouble : inner.height = outer.height + 1
  · obtain rfl : st = if i then -1 else 1 := by
      cases i <;> simp only [Bool.false_eq_true, if_true, if_false] at hst ⊢ <;> omega
    exact rotate_double houter hinner hfar (by omega) (by omega)
  · have hinnerLow : inner.height ≤ outer.height := by
      cases i <;> simp only [Bool.false_eq_true, if_true, if_false] at hst <;> omega
    have hinnerHigh : outer.height ≤ inner.height + 1 := by
      cases i <;> simp only [Bool.false_eq_true, if_true, if_false] at hst <;> omega
    exact rotate_single houter hinner hfar (by omega) (by omega) hst

theorem rebalance_spec (i : Bool) (elem : α) {near far : AVTree α} {st : Int}
    (hnear : near.Balanced) (hfar : far.Balanced) (hlow : far.height ≤ near.height)
    (hhigh : near.height ≤ far.height + 2)
    (hst : st = if i then (near.height : Int) - far.height else far.height - near.height) :
    ∃ t, rebalance i near elem st far = some t ∧ t.Balanced ∧
      t.toList = (mk i near elem 0 far).toList ∧
      ((near.height = far.height + 2 ∧ near.state ≠ 0 ∧ t.state = 0 ∧ t.height = near.height) ∨
        (near.height = far.height + 2 ∧ near.state = 0 ∧ t.state ≠ 0 ∧
          t.height = near.height + 1) ∨
        near.height = far.height + 1 ∧ t.state ≠ 0 ∧ t.height = near.height + 1 ∨
        near.height = far.height ∧ t.state = 0 ∧ t.height = near.height + 1) := by
  unfold rebalance
  by_cases htwo : near.height = far.height + 2
  · obtain rfl : st = if i then 2 else -2 := by
      cases i <;> simp only [Bool.false_eq_true, if_true, if_false] at hst ⊢ <;> omega
    rw [if_pos (by cases i <;> decide)]
    obtain ⟨t, hrotate, hrotated⟩ := rotate_spec i elem hnear hfar htwo
    have hheight := hrotated.height
    refine ⟨t, hrotate, hrotated.balanced, hrotated.elems, ?_⟩
    omega
  · rw [if_neg (by cases i <;> simp only [Bool.false_eq_true, if_true, if_false] at hst <;> omega)]
    refine ⟨_, rfl, balanced_mk.2 ⟨hnear, hfar, hst, ?_, ?_⟩, by simp, ?_⟩
    · cases i <;> simp only [Bool.false_eq_true, if_true, if_false] at hst <;> omega
    · cases i <;> simp only [Bool.false_eq_true, if_true, if_false] at hst <;> omega
    · rw [height_mk, state_mk]
      cases i <;> simp only [Bool.false_eq_true, if_true, if_false] at hst <;> omega

theorem settle_grown (side : Bool) (elem key : α) (st : Int) (t other : AVTree α) :
    settle side elem key st other (t, none, false) =
      (rebalance side t elem (st + if side then 1 else -1) other).map fun root =>
        (root, if root.state = 0 then some key else none, false) := by
  cases side <;> simp [settle]

theorem settle_shrunk (side : Bool) (elem key : α) (st : Int) (t other : AVTree α) :
    settle side elem key st other (t, none, true) =
      (rebalance (!side) other elem (st + if side then -1 else 1) t).map fun root =>
        (root, if root.state = 0 then none else some key, true) := by
  cases side <;> simp [settle]

/-- What `ret` and `next` say of the height of a tree. -/
structure Resized (old new : AVTree α) (ret : Option α) (next : Bool) : Prop where
  kept : ret.isSome = true → new.height = old.height
  grown : ret = none → next = false →
    new.height = old.height + 1 ∧ (new.state ≠ 0 ∨ old.height = 0)
  shrunk : ret = none → next = true → new.height + 1 = old.height

theorem settle_spec (key : α) {side next : Bool} {old t other : AVTree α} {elem : α} {st : Int}
    {ret : Option α} (hb : (mk side old elem st other).Balanced) (ht : t.Balanced)
    (h : Resized old t ret next) :
    ∃ t' ret', settle side elem key st other (t, ret, next) = some (t', ret', next) ∧
      t'.Balanced ∧ Resized (mk side old elem st other) t' ret' next ∧
      t'.toList = (mk side t elem st other).toList := by
  obtain ⟨hold, hother, hst, hlow, hhigh⟩ := balanced_mk.1 hb
  cases ret with
  | some ret =>
    have hkept := h.kept rfl
    refine ⟨_, some ret, rfl, balanced_mk.2 ⟨ht, hother, hkept ▸ hst, hlow, hhigh⟩,
      ⟨fun _ => ?_, nofun, nofun⟩, rfl⟩
    rw [height_mk, height_mk, hkept]
  | none =>
    cases next with
    | false =>
      obtain ⟨hgrown, hstate⟩ := h.grown rfl rfl
      have hstate' : (st + if side then 1 else -1) =
          if side then (t.height : Int) - other.height else other.height - t.height := by
        cases side <;> simp only [Bool.false_eq_true, if_true, if_false] at hst ⊢ <;> omega
      have hdiff : other.height ≤ t.height ∧ t.height ≤ other.height + 2 := by
        cases side <;> simp only [Bool.false_eq_true, if_true, if_false] at hst <;> omega
      obtain ⟨root, hroot, hbalanced, helems, hheight⟩ := rebalance_spec side elem ht hother
        hdiff.1 hdiff.2 hstate'
      rw [settle_grown, hroot]
      refine ⟨root, _, rfl, hbalanced, ⟨fun hret => ?_, fun hret _ => ?_, nofun⟩, ?_⟩
      · have hzero : root.state = 0 := by
          by_contra hne
          rw [if_neg hne] at hret
          cases hret
        rw [height_mk]
        omega
      · have hne : root.state ≠ 0 := by
          intro hzero
          rw [if_pos hzero] at hret
          cases hret
        rw [height_mk]
        omega
      · rw [helems, toList_mk, toList_mk]
    | true =>
      have hshrunk := h.shrunk rfl rfl
      have hstate' : (st + if side then -1 else 1) =
          if !side then (other.height : Int) - t.height else t.height - other.height := by
        cases side <;> simp only [Bool.not_false, Bool.not_true, Bool.false_eq_true, if_true,
          if_false] at hst ⊢ <;> omega
      have hdiff : t.height ≤ other.height ∧ other.height ≤ t.height + 2 := by
        cases side <;> simp only [Bool.false_eq_true, if_true, if_false] at hst <;> omega
      obtain ⟨root, hroot, hbalanced, helems, hheight⟩ := rebalance_spec (!side) elem hother ht
        hdiff.1 hdiff.2 hstate'
      rw [settle_shrunk, hroot]
      refine ⟨root, _, rfl, hbalanced, ⟨fun hret => ?_, nofun, fun hret _ => ?_⟩, ?_⟩
      · have hne : root.state ≠ 0 := by
          intro hzero
          rw [if_pos hzero] at hret
          cases hret
        rw [height_mk]
        omega
      · have hzero : root.state = 0 := by
          by_contra hne
          rw [if_neg hne] at hret
          cases hret
        rw [height_mk]
        omega
      · rw [helems, toList_mk, toList_mk]
        cases side <;> rfl

/-! ## Order -/

section Order

variable {κ : Type*} [LinearOrder κ]

/-- `cmp` compares by a key. -/
structure ComparesBy (cmp : α → α → Int) (key : α → κ) : Prop where
  lt_iff : ∀ a b, cmp a b < 0 ↔ key a < key b
  gt_iff : ∀ a b, 0 < cmp a b ↔ key b < key a

/-- The keys increase. -/
def Ordered (key : α → κ) (t : AVTree α) : Prop := t.toList.Pairwise fun a b => key a < key b

variable {cmp : α → α → Int} {key : α → κ} {l r t : AVTree α} {e k : α} {st : Int}

theorem ordered_node : (node l e st r).Ordered key ↔
    l.Ordered key ∧ r.Ordered key ∧ (∀ a ∈ l.toList, key a < key e) ∧
      (∀ b ∈ r.toList, key e < key b) ∧ ∀ a ∈ l.toList, ∀ b ∈ r.toList, key a < key b := by
  simp only [Ordered, toList_node, List.pairwise_append, List.pairwise_cons, List.mem_cons]
  grind

/-- The element with the key. -/
theorem saTreeFind_eq {c : α → Int} {x : κ} (hlt : ∀ a, c a < 0 ↔ x < key a)
    (hgt : ∀ a, 0 < c a ↔ key a < x) (ht : t.Ordered key) (next : Bool → Option α) :
    (saTreeFind c t next).1 = t.toList.find? fun a => key a = x := by
  induction t generalizing next with
  | nil => rfl
  | node l e st r ihl ihr =>
    obtain ⟨hl, hr, hle, her, -⟩ := ordered_node.1 ht
    unfold saTreeFind
    rw [toList_node, List.find?_append]
    split
    · next hneg =>
      have hx := (hlt _).1 hneg
      have hright : (e :: r.toList).find? (fun a => key a = x) = none := by
        rw [List.find?_eq_none]
        intro a ha
        rcases List.mem_cons.1 ha with rfl | ha
        · simp [hx.ne']
        · simp [(hx.trans (her a ha)).ne']
      rw [ihl hl, hright, Option.or_none]
    · next hneg =>
      have hleft : ∀ a ∈ l.toList, key a ≠ x := by
        intro a ha heq
        exact hneg ((hlt _).2 (heq ▸ hle a ha))
      have hnone : l.toList.find? (fun a => key a = x) = none := by
        rw [List.find?_eq_none]
        simpa using hleft
      rw [hnone, Option.none_or]
      split
      · next hpos =>
        have hx := (hgt _).1 hpos
        rw [ihr hr, List.find?_cons_of_neg (by simp [hx.ne])]
      · next hpos =>
        have hx : key e = x :=
          le_antisymm (le_of_not_gt fun h => hneg ((hlt _).2 h))
            (le_of_not_gt fun h => hpos ((hgt _).2 h))
        rw [List.find?_cons_of_pos (by simp [hx])]

/-- No two elements have one key. -/
theorem Ordered.eq_of_key_eq (ho : t.Ordered key) {a b : α} (ha : a ∈ t.toList)
    (hb : b ∈ t.toList) (h : key a = key b) : a = b := by
  have hnodup : (t.toList.map key).Nodup := List.pairwise_map.2 (List.Pairwise.imp ne_of_lt ho)
  exact List.inj_on_of_nodup_map hnodup ha hb h

/-- `next[0]` behind a search for a key beyond all elements. -/
theorem saTreeFind_prev {c : α → Int} (h : ∀ a ∈ t.toList, 0 < c a) (next : Bool → Option α) :
    (saTreeFind c t next).2 false = t.toList.getLast?.or (next false) := by
  induction t generalizing next with
  | nil => rfl
  | node l e st r ihl ihr =>
    have he : 0 < c e := h e (by simp)
    unfold saTreeFind
    rw [if_neg (by omega), if_pos he, ihr fun a ha => h a (by simp [ha]), toList_node,
      List.getLast?_append, List.getLast?_cons]
    cases r.toList.getLast? <;> rfl

/-- `next[1]` behind one for a key before all of them. -/
theorem saTreeFind_next {c : α → Int} (h : ∀ a ∈ t.toList, c a < 0) (next : Bool → Option α) :
    (saTreeFind c t next).2 true = t.toList.head?.or (next true) := by
  induction t generalizing next with
  | nil => rfl
  | node l e st r ihl ihr =>
    unfold saTreeFind
    rw [if_pos (h e (by simp)), ihl fun a ha => h a (by simp [ha]), toList_node,
      List.head?_append]
    cases l.toList.head? <;> rfl

/-- A new element goes between those before it and those behind it. -/
theorem saTreeInsert_new (hcmp : ComparesBy cmp key) (hb : t.Balanced) (ho : t.Ordered key)
    (hnew : ∀ a ∈ t.toList, key a ≠ key k) :
    ∃ t' ret, saTreeInsert cmp t k true = some (t', ret, false) ∧ t'.Balanced ∧
      Resized t t' ret false ∧
      ∃ xs ys, t.toList = xs ++ ys ∧ t'.toList = xs ++ k :: ys ∧
        (∀ a ∈ xs, key a < key k) ∧ ∀ b ∈ ys, key k < key b := by
  induction t with
  | nil =>
    exact ⟨_, none, rfl, by simp, ⟨nofun, fun _ _ => ⟨rfl, Or.inr rfl⟩, nofun⟩, [], [], rfl, rfl,
      nofun, nofun⟩
  | node l e st r ihl ihr =>
    obtain ⟨hbl, hbr, hst⟩ := hb
    obtain ⟨hol, hor, hle, her, hlr⟩ := ordered_node.1 ho
    simp only [toList_node, List.mem_append, List.mem_cons] at hnew
    unfold saTreeInsert
    split
    · next hlt =>
      have hek := (hcmp.lt_iff _ _).1 hlt
      obtain ⟨r', ret, hrun, hbr', hresized, xs, ys, hxs, hys, hbefore, hbehind⟩ :=
        ihr hbr hor fun a ha => hnew a (Or.inr (Or.inr ha))
      rw [hrun]
      obtain ⟨t', ret', hsettle, hbalanced, hresized', helems⟩ :=
        settle_spec k (show (mk true r e st l).Balanced from ⟨hbl, hbr, hst⟩) hbr'
          hresized
      refine ⟨t', ret', hsettle, hbalanced, hresized', l.toList ++ e :: xs, ys, ?_, ?_, ?_,
        hbehind⟩
      · rw [toList_node, hxs, List.append_assoc, List.cons_append]
      · rw [helems, toList_mk, hys]
        simp
      · intro a ha
        rcases List.mem_append.1 ha with ha | ha
        · exact (hle a ha).trans hek
        · rcases List.mem_cons.1 ha with rfl | ha
          · exact hek
          · exact hbefore a ha
    · next hle' =>
      have hke : key k < key e :=
        lt_of_le_of_ne (le_of_not_gt fun h => hle' ((hcmp.lt_iff _ _).2 h))
          (hnew e (Or.inr (Or.inl rfl))).symm
      rw [if_pos ((hcmp.gt_iff _ _).2 hke)]
      obtain ⟨l', ret, hrun, hbl', hresized, xs, ys, hxs, hys, hbefore, hbehind⟩ :=
        ihl hbl hol fun a ha => hnew a (Or.inl ha)
      rw [hrun]
      obtain ⟨t', ret', hsettle, hbalanced, hresized', helems⟩ :=
        settle_spec k (show (mk false l e st r).Balanced from ⟨hbl, hbr, hst⟩) hbl'
          hresized
      refine ⟨t', ret', hsettle, hbalanced, hresized', xs, ys ++ e :: r.toList, ?_, ?_, hbefore,
        ?_⟩
      · rw [toList_node, hxs, List.append_assoc]
      · rw [helems, toList_mk, hys]
        simp
      · intro b hb
        rcases List.mem_append.1 hb with hb | hb
        · exact hbehind b hb
        · rcases List.mem_cons.1 hb with rfl | hb
          · exact hke
          · exact hke.trans (her b hb)

theorem toList_ne_nil (h : ¬ t.isNil = true) : t.toList ≠ [] := by
  cases t with
  | nil => exact absurd rfl h
  | node l e st r => simp

/-- In an ordered tree an element with the key of the last one is the last one. -/
theorem Ordered.last_eq (ho : t.Ordered key) {p a : α} {xs ys : List α}
    (hp : t.toList.getLast? = some p) (hxs : t.toList = xs ++ a :: ys) (ha : key a = key p) :
    ys = [] ∧ a = p := by
  unfold Ordered at ho
  rw [hxs, List.getLast?_append, List.getLast?_cons, Option.some_or, Option.some.injEq] at hp
  rw [hxs, List.pairwise_append, List.pairwise_cons] at ho
  cases hys : ys.getLast? with
  | none =>
    rw [hys] at hp
    exact ⟨List.getLast?_eq_none_iff.1 hys, hp⟩
  | some b =>
    rw [hys] at hp
    obtain rfl : b = p := hp
    exact absurd ha (ho.2.1.1 b (List.mem_of_getLast? hys)).ne

/-- And one with the key of the first is the first. -/
theorem Ordered.first_eq (ho : t.Ordered key) {p a : α} {xs ys : List α}
    (hp : t.toList.head? = some p) (hxs : t.toList = xs ++ a :: ys) (ha : key a = key p) :
    xs = [] ∧ a = p := by
  unfold Ordered at ho
  rw [hxs] at hp ho
  cases xs with
  | nil => exact ⟨rfl, Option.some.inj hp⟩
  | cons b xs =>
    obtain rfl : b = p := Option.some.inj hp
    exact absurd ha (List.rel_of_pairwise_cons ho (by simp)).ne'

/-- The element with the key is taken out, and its node is given back. -/
theorem saTreeInsert_remove (hcmp : ComparesBy cmp key) (hb : t.Balanced) (ho : t.Ordered key)
    (hmem : ∃ a ∈ t.toList, key a = key k) :
    ∃ t' ret, saTreeInsert cmp t k false = some (t', ret, true) ∧ t'.Balanced ∧
      Resized t t' ret true ∧
      ∃ xs a ys, t.toList = xs ++ a :: ys ∧ key a = key k ∧ t'.toList = xs ++ ys := by
  induction t generalizing k with
  | nil => simp at hmem
  | node l e st r ihl ihr =>
    obtain ⟨hbl, hbr, hst⟩ := hb
    obtain ⟨hol, hor, hle, her, hlr⟩ := ordered_node.1 ho
    obtain ⟨m, hm, hmk⟩ := hmem
    simp only [toList_node, List.mem_append, List.mem_cons] at hm
    unfold saTreeInsert
    split
    · next hlt =>
      have hek := (hcmp.lt_iff _ _).1 hlt
      have hmr : m ∈ r.toList := by
        rcases hm with hm | rfl | hm
        · exact absurd hmk ((hle m hm).trans hek).ne
        · exact absurd hmk hek.ne
        · exact hm
      obtain ⟨r', ret, hrun, hbr', hresized, xs, a, ys, hxs, ha, hys⟩ := ihr hbr hor ⟨m, hmr, hmk⟩
      rw [hrun]
      obtain ⟨t', ret', hsettle, hbalanced, hresized', helems⟩ :=
        settle_spec k (show (mk true r e st l).Balanced from ⟨hbl, hbr, hst⟩) hbr'
          hresized
      refine ⟨t', ret', hsettle, hbalanced, hresized', l.toList ++ e :: xs, a, ys, ?_, ha, ?_⟩
      · rw [toList_node, hxs, List.append_assoc, List.cons_append]
      · rw [helems, toList_mk, hys]
        simp
    · next hge =>
      split
      · next hgt =>
        have hke := (hcmp.gt_iff _ _).1 hgt
        have hml : m ∈ l.toList := by
          rcases hm with hm | rfl | hm
          · exact hm
          · exact absurd hmk hke.ne'
          · exact absurd hmk (hke.trans (her m hm)).ne'
        obtain ⟨l', ret, hrun, hbl', hresized, xs, a, ys, hxs, ha, hys⟩ :=
          ihl hbl hol ⟨m, hml, hmk⟩
        rw [hrun]
        obtain ⟨t', ret', hsettle, hbalanced, hresized', helems⟩ :=
          settle_spec k (show (mk false l e st r).Balanced from ⟨hbl, hbr, hst⟩) hbl'
            hresized
        refine ⟨t', ret', hsettle, hbalanced, hresized', xs, a, ys ++ e :: r.toList, ?_, ha, ?_⟩
        · rw [toList_node, hxs, List.append_assoc, List.cons_append]
        · rw [helems, toList_mk, hys]
          simp
      · next hle' =>
        have hek : key e = key k :=
          le_antisymm (le_of_not_gt fun h => hle' ((hcmp.gt_iff _ _).2 h))
            (le_of_not_gt fun h => hge ((hcmp.lt_iff _ _).2 h))
        rw [if_neg (by simp)]
        split
        · next hl =>
          -- the last element on the left comes in its place
          obtain ⟨p, hp⟩ := Option.isSome_iff_exists.1 (List.getLast?_isSome.2 (toList_ne_nil hl))
          rw [saTreeFind_prev (fun a ha => (hcmp.gt_iff _ _).2 (hek ▸ hle a ha)), hp]
          obtain ⟨l', ret, hrun, hbl', hresized, xs, a, ys, hxs, ha, hys⟩ :=
            ihl (k := p) hbl hol ⟨p, List.mem_of_getLast? hp, rfl⟩
          obtain ⟨rfl, rfl⟩ := hol.last_eq hp hxs ha
          rw [Option.some_or, Option.bind_some, hrun, Option.bind_some]
          obtain ⟨t', ret', hsettle, hbalanced, hresized', helems⟩ :=
            settle_spec a (show (mk false l a st r).Balanced from ⟨hbl, hbr, hst⟩) hbl'
              hresized
          refine ⟨t', ret', hsettle, hbalanced,
            ⟨hresized'.kept, hresized'.grown, hresized'.shrunk⟩, l.toList, e, r.toList, rfl, hek,
            ?_⟩
          rw [helems, toList_mk, hys, hxs]
          simp
        · next hl =>
          split
          · next hr =>
            -- the first element on the right
            obtain ⟨p, hp⟩ := Option.isSome_iff_exists.1 (List.isSome_head?.2 (toList_ne_nil hr))
            rw [saTreeFind_next (fun b hb => (hcmp.lt_iff _ _).2 (hek ▸ her b hb)), hp]
            obtain ⟨r', ret, hrun, hbr', hresized, xs, a, ys, hxs, ha, hys⟩ :=
              ihr (k := p) hbr hor ⟨p, List.mem_of_head? hp, rfl⟩
            obtain ⟨rfl, rfl⟩ := hor.first_eq hp hxs ha
            rw [Option.some_or, Option.bind_some, hrun, Option.bind_some]
            obtain ⟨t', ret', hsettle, hbalanced, hresized', helems⟩ :=
              settle_spec a (show (mk true r a st l).Balanced from ⟨hbl, hbr, hst⟩) hbr'
                hresized
            refine ⟨t', ret', hsettle, hbalanced,
              ⟨hresized'.kept, hresized'.grown, hresized'.shrunk⟩, l.toList, e, r.toList, rfl, hek,
              ?_⟩
            rw [helems, toList_mk, hys, hxs]
            simp
          · next hr =>
            have hleaf : ∀ {u : AVTree α}, ¬ ¬ u.isNil = true → u = nil := by
              intro u hu
              cases u with
              | nil => rfl
              | node => simp [isNil] at hu
            rw [hleaf hl, hleaf hr]
            exact ⟨nil, none, rfl, trivial, ⟨nofun, nofun, fun _ _ => rfl⟩, [], e, [], rfl, hek,
              rfl⟩

end Order

end AVTree

end DsdNexus
