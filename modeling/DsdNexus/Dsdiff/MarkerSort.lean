import DsdNexus.Dsdiff.Types
import DsdNexus.Util.LinkedList
import Mathlib.Data.List.Sort

/-! # DSDIFF: sorting the markers

`dsdiff_marker_list_sort` cuts the circle of the list open, sorts the chain by halves and puts
its nodes back one by one. Every loop has a number of turns it may take; no result is a null
pointer followed or a loop that has not ended by then.
-/

namespace DsdNexus.Dsdiff

open Chain

/-! ## The order of the markers -/

/-- `DSDIFF_MARK_TRACK_START`. -/
def markTrackStart : UInt16 := 0

/-- `dsdiff_marker_to_samples`; the sum has room in 64 bits. -/
def markerToSamples (entry : MarkerEntry) : Nat :=
  entry.time.hours.toNat * 3600 * entry.sampleRate.toNat +
    entry.time.minutes.toNat * 60 * entry.sampleRate.toNat +
    entry.time.seconds.toNat * entry.sampleRate.toNat + entry.time.samples.toNat

/-- `dsdiff_marker_compare`. -/
def markerCompare (entry1 entry2 : MarkerEntry) : Int :=
  if markerToSamples entry1 < markerToSamples entry2 then -1
  else if markerToSamples entry2 < markerToSamples entry1 then 1
  else if entry1.markType = markTrackStart ∧ entry2.markType ≠ markTrackStart then -1
  else if entry1.markType ≠ markTrackStart ∧ entry2.markType = markTrackStart then 1
  else 0

/-! ## The chain -/

section Chains

variable {α : Type} [DecidableEq α]

/-- `tail->next = node`, where the tail is the head on the stack until a node is linked. -/
def linkTail (m : Links α) (first tail node : Option α) : Links α × Option α :=
  match tail with
  | none => (m, node)
  | some t => (m.setNext t node, first)

/-- The loop of `dsdiff_marker_list_merge`, with the `next` of the head on the stack; what is
left of one chain is attached when the other one is empty. -/
def mergeLoop (compare : α → α → Int) :
    Nat → Links α → Option α → Option α → Option α → Option α → Option (Links α × Option α)
  | 0, _, _, _, _, _ => none
  | _ + 1, m, first, tail, none, right => linkTail m first tail right
  | _ + 1, m, first, tail, some left, none => linkTail m first tail left
  | n + 1, m, first, tail, some left, some right =>
    if compare left right ≤ 0 then
      let linked := linkTail m first tail left
      mergeLoop compare n linked.1 linked.2 left (linked.1.next left) right
    else
      let linked := linkTail m first tail right
      mergeLoop compare n linked.1 linked.2 right left (linked.1.next right)

/-- The loop of `dsdiff_marker_list_split`: the slow pointer when the fast one is at the end. -/
def splitLoop (m : Links α) : Nat → α → Option α → Option α
  | 0, _, _ => none
  | n + 1, slow, fast =>
    match fast.bind m.next with
    | none => slow
    | some fast => (m.next slow).bind fun slow => splitLoop m n slow (m.next fast)

/-- `dsdiff_marker_list_split`. -/
def markerListSplit (n : Nat) (m : Links α) (head : α) : Option (Links α × Option α) :=
  (splitLoop m n head (m.next head)).map fun slow => (m.setNext slow none, m.next slow)

/-- `dsdiff_marker_list_merge_sort`. -/
def markerListMergeSort (compare : α → α → Int) :
    Nat → Links α → Option α → Option (Links α × Option α)
  | 0, _, _ => none
  | n + 1, m, head =>
    match head with
    | none => some (m, none)
    | some first =>
      if m.next first = none then some (m, head)
      else do
        let (m, mid) ← markerListSplit n m first
        let (m, sortedLeft) ← markerListMergeSort compare n m first
        let (m, sortedRight) ← markerListMergeSort compare n m mid
        mergeLoop compare n m none none sortedLeft sortedRight

/-- Step 1 of `dsdiff_marker_list_sort`: the last node leads nowhere. -/
def cutLoop (sentinel : α) : Nat → Links α → α → Option (Links α)
  | 0, _, _ => none
  | n + 1, m, current =>
    if current = sentinel then some m
    else (m.next current).bind fun next =>
      cutLoop sentinel n (m.setNext current (if next = sentinel then none else next)) next

/-- Step 3: the nodes of the chain are put behind each other. -/
def rebuildLoop (sentinel : α) : Nat → Links α → Option α → Option (Links α)
  | 0, _, _ => none
  | _ + 1, m, none => some m
  | n + 1, m, some current => (listAddTail m current sentinel).bind fun m' =>
      rebuildLoop sentinel n m' (m.next current)

/-- `dsdiff_marker_list_sort`. -/
def sortLinks (compare : α → α → Int) (n : Nat) (m : Links α) (sentinel : α) (count : UInt32) :
    Option (Links α) :=
  if count ≤ 1 then some m
  else do
    let first ← m.next sentinel
    let m ← cutLoop sentinel n m first
    let (m, sorted) ← markerListMergeSort compare n m first
    rebuildLoop sentinel n (initListHead m sentinel) sorted

/-! ### Merging -/

/-- What is linked behind the tail, and that nothing else is changed but the nodes named. -/
structure LinkedBehind (m : Links α) (first tail : Option α) (l touched : List α) (m' : Links α)
    (first' : Option α) : Prop where
  path : Leads m'.next (tail.elim first' m'.next) l none
  first_eq : tail ≠ none → first' = first
  prev_eq : m'.prev = m.prev
  next_eq : ∀ y ∉ touched, tail ≠ some y → m'.next y = m.next y

theorem linkTail_behind {m : Links α} {first tail p : Option α} {l : List α}
    (h : Leads m.next p l none) (htail : ∀ t ∈ tail, t ∉ l) (touched : List α) :
    LinkedBehind m first tail l touched (linkTail m first tail p).1
      (linkTail m first tail p).2 := by
  cases tail with
  | none => exact ⟨h, fun hne => absurd rfl hne, rfl, fun _ _ _ => rfl⟩
  | some t =>
    refine ⟨?_, fun _ => rfl, rfl, fun y _ hy => ?_⟩
    · dsimp only [linkTail, Option.elim]
      rw [Links.setNext_next_self]
      refine h.congr fun y hy => m.setNext_next_of_ne p ?_
      rintro rfl
      exact htail y rfl hy
    · exact m.setNext_next_of_ne p fun heq => hy (heq ▸ rfl)

theorem linkTail_next {m : Links α} {first tail p : Option α} {y : α} (h : tail ≠ some y) :
    (linkTail m first tail p).1.next y = m.next y := by
  cases tail with
  | none => rfl
  | some t => exact m.setNext_next_of_ne p fun heq => h (heq ▸ rfl)

/-- A chain apart from the tail is left as it is. -/
theorem linkTail_apart {m : Links α} {first tail p : Option α} {l : List α}
    (h : Leads m.next p l none) (hfree : ∀ z ∈ l, tail ≠ some z) (q : Option α) :
    Leads (linkTail m first tail q).1.next p l none :=
  h.congr fun z hz => linkTail_next (hfree z hz)

/-- The same behind its first node. -/
theorem linkTail_behind_first {m : Links α} {first tail : Option α} {x : α} {l : List α}
    (h : Leads m.next (m.next x) l none) (hfree : ∀ z ∈ x :: l, tail ≠ some z) (q : Option α) :
    Leads (linkTail m first tail q).1.next ((linkTail m first tail q).1.next x) l none := by
  rw [linkTail_next (hfree x List.mem_cons_self)]
  exact linkTail_apart h (fun z hz => hfree z (List.mem_cons_of_mem x hz)) q

/-- A node linked behind the tail is the tail of what follows. -/
theorem LinkedBehind.cons {m m' : Links α} {first first' tail : Option α} {x : α}
    {l touched touched' : List α} (htail : ∀ t ∈ tail, t ∉ touched') (hx : x ∈ touched')
    (hsub : touched ⊆ touched')
    (h : LinkedBehind (linkTail m first tail x).1 (linkTail m first tail x).2 (some x) l touched
      m' first') : LinkedBehind m first tail (x :: l) touched' m' first' := by
  have hfirst := h.first_eq (Option.some_ne_none x)
  have hkept : ∀ y ∉ touched', m'.next y = (linkTail m first tail x).1.next y := fun y hy =>
    h.next_eq y (fun hmem => hy (hsub hmem)) fun heq => hy (Option.some.inj heq ▸ hx)
  cases tail with
  | none =>
    exact ⟨⟨hfirst, h.path⟩, fun hne => absurd rfl hne, h.prev_eq, fun y hy _ => hkept y hy⟩
  | some t =>
    refine ⟨⟨?_, h.path⟩, fun _ => hfirst, h.prev_eq, fun y hy hyt => ?_⟩
    · exact (hkept t (htail t rfl)).trans (m.setNext_next_self t x)
    · exact (hkept y hy).trans (linkTail_next hyt)

section Merging

variable {compare : α → α → Int}

/-- The order the chain is sorted by. -/
def InOrder (compare : α → α → Int) (a b : α) : Bool := compare a b ≤ 0

/-- Two chains apart from each other and from the tail are merged behind it. -/
theorem mergeLoop_behind {n : Nat} {m : Links α} {first tail left right : Option α}
    {l r : List α} (hn : l.length + r.length < n) (hl : Leads m.next left l none)
    (hr : Leads m.next right r none) (hnodup : (l ++ r).Nodup) (htail : ∀ t ∈ tail, t ∉ l ++ r) :
    ∃ m' first', mergeLoop compare n m first tail left right = some (m', first') ∧
      LinkedBehind m first tail (l.merge r (InOrder compare)) (l ++ r) m' first' := by
  induction n generalizing m first tail left right l r with
  | zero => exact absurd hn (Nat.not_lt_zero _)
  | succ n ih =>
    cases l with
    | nil =>
      obtain rfl : left = none := hl
      refine ⟨_, _, rfl, ?_⟩
      rw [List.nil_merge]
      exact linkTail_behind hr htail _
    | cons x l =>
      obtain ⟨rfl, hl⟩ := hl
      cases r with
      | nil =>
        obtain rfl : right = none := hr
        refine ⟨_, _, rfl, ?_⟩
        rw [List.merge_right]
        rw [List.append_nil] at htail ⊢
        exact linkTail_behind (show Leads m.next (some x) (x :: l) none from ⟨rfl, hl⟩) htail _
      | cons y r =>
        obtain ⟨rfl, hr⟩ := hr
        have hfree : ∀ z ∈ x :: l ++ y :: r, tail ≠ some z := fun z hz heq => htail z heq hz
        by_cases hle : compare x y ≤ 0
        · obtain ⟨hx, hrest⟩ := List.nodup_cons.1 hnodup
          have hleft : ∀ z ∈ x :: l, tail ≠ some z := fun z hz =>
            hfree z (List.mem_append_left _ hz)
          obtain ⟨m', first', hrun, hlinked⟩ := ih (by simp at hn ⊢; omega)
            (linkTail_behind_first hl hleft x)
            (linkTail_apart (l := y :: r) ⟨rfl, hr⟩
              (fun z hz => hfree z (List.mem_append_right _ hz)) x)
            hrest fun t ht => Option.some.inj ht ▸ hx
          refine ⟨m', first', by rw [mergeLoop, if_pos hle]; exact hrun, ?_⟩
          rw [List.cons_merge_cons_pos _ _ _ (decide_eq_true hle)]
          exact hlinked.cons htail List.mem_cons_self (List.subset_cons_self _ _)
        · obtain ⟨hy, hrest⟩ := List.nodup_cons.1 (List.nodup_middle.1 hnodup)
          have hright : ∀ z ∈ y :: r, tail ≠ some z := fun z hz =>
            hfree z (List.mem_append_right _ hz)
          obtain ⟨m', first', hrun, hlinked⟩ := ih (by simp at hn ⊢; omega)
            (linkTail_apart (l := x :: l) ⟨rfl, hl⟩
              (fun z hz => hfree z (List.mem_append_left _ hz)) y)
            (linkTail_behind_first hr hright y)
            hrest fun t ht => Option.some.inj ht ▸ hy
          refine ⟨m', first', by rw [mergeLoop, if_neg hle]; exact hrun, ?_⟩
          rw [List.cons_merge_cons_neg _ _ _ (by simpa [InOrder] using hle)]
          exact hlinked.cons htail (List.mem_append_right _ List.mem_cons_self)
            ((List.sublist_cons_self y r).append_left (x :: l)).subset

/-! ### Sorting the chain -/

omit [DecidableEq α] in
/-- The slow pointer takes half as many steps as there are nodes before the fast one. -/
theorem splitLoop_at {n : Nat} {m : Links α} {slow : α} {fast : Option α} {a f : List α}
    (hn : f.length < n) (ha : Leads m.next (m.next slow) a none) (hf : Leads m.next fast f none)
    (hle : f.length ≤ a.length) :
    ∃ front node back, slow :: a = front ++ node :: back ∧ front.length = f.length / 2 ∧
      splitLoop m n slow fast = some node := by
  induction n generalizing slow fast a f with
  | zero => exact absurd hn (Nat.not_lt_zero _)
  | succ n ih =>
    rcases f with - | ⟨x, - | ⟨y, f⟩⟩
    · obtain rfl : fast = none := hf
      exact ⟨[], slow, a, rfl, by simp, rfl⟩
    · obtain ⟨rfl, hend⟩ := hf
      refine ⟨[], slow, a, rfl, by simp, ?_⟩
      have hlast : m.next x = none := hend
      simp only [splitLoop, Option.bind_some, hlast]
    · obtain ⟨rfl, hx, hf⟩ := hf
      cases a with
      | nil => simp at hle
      | cons z a =>
        obtain ⟨hz, ha⟩ := ha
        obtain ⟨front, node, back, hsplit, hlength, hrun⟩ := ih (by simp at hn; omega) ha hf
          (by simp at hle; omega)
        refine ⟨slow :: front, node, back, by rw [hsplit]; rfl, ?_, ?_⟩
        · rw [List.length_cons, hlength, List.length_cons, List.length_cons]
          omega
        · simp only [splitLoop, Option.bind_some, hx, hz]
          exact hrun

/-- The chain is cut behind the first half. -/
theorem markerListSplit_halves {n : Nat} {m : Links α} {head : α} {l : List α}
    (hn : l.length < n) (h : Leads m.next (m.next head) l none) (hnodup : (head :: l).Nodup) :
    ∃ m' mid, markerListSplit n m head = some (m', mid) ∧
      Leads m'.next (some head) ((head :: l).take ((l.length + 2) / 2)) none ∧
      Leads m'.next mid ((head :: l).drop ((l.length + 2) / 2)) none ∧ m'.prev = m.prev ∧
      ∀ y ∉ head :: l, m'.next y = m.next y := by
  obtain ⟨front, node, back, hsplit, hlength, hrun⟩ := splitLoop_at hn h h (Nat.le_refl _)
  have hhalf : (l.length + 2) / 2 = (front ++ [node]).length := by
    rw [List.length_append, hlength, List.length_singleton]
    omega
  have hlist : head :: l = (front ++ [node]) ++ back := by
    rw [hsplit, List.append_assoc]
    rfl
  have hpath : Leads m.next (some head) (front ++ node :: back) none := hsplit ▸ ⟨rfl, h⟩
  obtain ⟨hfront, hback⟩ := Leads.middle_iff.1 hpath
  rw [hsplit] at hnodup
  obtain ⟨hfrontNodup, hbackNodup, hapart⟩ := List.nodup_append.1 hnodup
  have hnode := (List.nodup_cons.1 hbackNodup).1
  refine ⟨m.setNext node none, m.next node, ?_, ?_, ?_, rfl, ?_⟩
  · rw [markerListSplit, hrun]
    rfl
  · rw [hlist, hhalf, List.take_left, Leads.concat_iff]
    refine ⟨hfront.congr fun y hy => m.setNext_next_of_ne _ ?_, m.setNext_next_self node none⟩
    rintro rfl
    exact hapart y hy y List.mem_cons_self rfl
  · rw [hlist, hhalf, List.drop_left]
    refine hback.congr fun y hy => m.setNext_next_of_ne _ ?_
    rintro rfl
    exact hnode hy
  · intro y hy
    refine m.setNext_next_of_ne _ ?_
    rintro rfl
    rw [hsplit] at hy
    exact hy (List.mem_append_right _ List.mem_cons_self)

omit [DecidableEq α] in
/-- The first half is the longer one. -/
theorem mergeSort_halves (le : α → α → Bool) (a b : α) (l : List α) :
    (a :: b :: l).mergeSort le =
      (((a :: b :: l).take ((l.length + 3) / 2)).mergeSort le).merge
        (((a :: b :: l).drop ((l.length + 3) / 2)).mergeSort le) le := by
  rw [List.mergeSort]
  simp only [List.MergeSort.Internal.splitInTwo_fst, List.MergeSort.Internal.splitInTwo_snd,
    List.length_cons]

/-- A chain is sorted, and nothing but the pointers of its nodes is changed. -/
theorem markerListMergeSort_sorts {n : Nat} {m : Links α} {head : Option α} {l : List α}
    (hn : l.length + 1 < n) (h : Leads m.next head l none) (hnodup : l.Nodup) :
    ∃ m' head', markerListMergeSort compare n m head = some (m', head') ∧
      Leads m'.next head' (l.mergeSort (InOrder compare)) none ∧ m'.prev = m.prev ∧
      ∀ y ∉ l, m'.next y = m.next y := by
  induction n generalizing m head l with
  | zero => exact absurd hn (Nat.not_lt_zero _)
  | succ n ih =>
    rcases l with - | ⟨a, - | ⟨b, l⟩⟩
    · obtain rfl : head = none := h
      exact ⟨m, none, rfl, by rw [List.mergeSort_nil]; rfl, rfl, fun _ _ => rfl⟩
    · obtain ⟨rfl, hend⟩ := h
      refine ⟨m, some a, if_pos hend, ?_, rfl, fun _ _ => rfl⟩
      rw [List.mergeSort_singleton]
      exact ⟨rfl, hend⟩
    · obtain ⟨rfl, hb⟩ := h
      have hmore : m.next a ≠ none := by
        rw [hb.1]
        exact Option.some_ne_none b
      have hcount : (a :: b :: l).length = (b :: l).length + 1 := rfl
      have hsize : (b :: l).length < n := by omega
      obtain ⟨m₁, mid, hsplit, hleft, hright, hprev₁, hnext₁⟩ :=
        markerListSplit_halves hsize hb hnodup
      have hwhole := List.take_append_drop (((b :: l).length + 2) / 2) (a :: b :: l)
      have hfew : ((a :: b :: l).take (((b :: l).length + 2) / 2)).length ≤ (b :: l).length := by
        simp only [List.length_take, List.length_cons]
        omega
      have hfew' : ((a :: b :: l).drop (((b :: l).length + 2) / 2)).length ≤ (b :: l).length := by
        simp only [List.length_drop, List.length_cons]
        omega
      have hsorted : (a :: b :: l).mergeSort (InOrder compare) = _ := mergeSort_halves _ a b l
      have hhalf : (l.length + 3) / 2 = ((b :: l).length + 2) / 2 := rfl
      rw [hhalf] at hsorted
      generalize (a :: b :: l).take (((b :: l).length + 2) / 2) = front at *
      generalize (a :: b :: l).drop (((b :: l).length + 2) / 2) = back at *
      have hin : ∀ y, y ∈ a :: b :: l ↔ y ∈ front ∨ y ∈ back := fun y =>
        hwhole ▸ List.mem_append
      have hparts := hwhole.symm ▸ hnodup
      obtain ⟨hnodup₁, hnodup₂, hapart⟩ := List.nodup_append.1 hparts
      obtain ⟨m₂, left, hrun₁, hleft, hprev₂, hnext₂⟩ := ih (by omega) hleft hnodup₁
      have hright : Leads m₂.next mid back none := hright.congr fun y hy =>
        hnext₂ y fun hmem => hapart y hmem y hy rfl
      obtain ⟨m₃, right, hrun₂, hright, hprev₃, hnext₃⟩ := ih (by omega) hright hnodup₂
      have hleft : Leads m₃.next left (front.mergeSort (InOrder compare)) none :=
        hleft.congr fun y hy =>
          hnext₃ y fun hmem => hapart y (List.mem_mergeSort.1 hy) y hmem rfl
      have hperm : (front.mergeSort (InOrder compare) ++ back.mergeSort (InOrder compare)).Perm
          (front ++ back) :=
        (List.mergeSort_perm front _).append (List.mergeSort_perm back _)
      have hlength := congrArg List.length hwhole
      rw [List.length_append] at hlength
      have hroom : (front.mergeSort (InOrder compare)).length +
          (back.mergeSort (InOrder compare)).length < n := by
        rw [List.length_mergeSort, List.length_mergeSort]
        omega
      obtain ⟨m₄, first, hmerge, hlinked⟩ : ∃ m' first',
          mergeLoop compare n m₃ none none left right = some (m', first') ∧
            LinkedBehind m₃ none none _ _ m' first' :=
        mergeLoop_behind hroom hleft hright (hperm.nodup_iff.2 hparts)
          fun t ht => absurd ht (Option.not_mem_none t)
      refine ⟨m₄, first, ?_, hsorted ▸ hlinked.path, ?_, ?_⟩
      · rw [markerListMergeSort]
        simp only [if_neg hmore, hsplit, hrun₁, hrun₂, Option.bind_eq_bind, Option.bind_some]
        exact hmerge
      · exact hlinked.prev_eq.trans (hprev₃.trans (hprev₂.trans hprev₁))
      · intro y hy
        have hout := (hin y).not.1 hy
        rw [hlinked.next_eq y (fun hmem => hout (List.mem_append.1 (hperm.subset hmem)))
          (Option.some_ne_none y).symm, hnext₃ y fun hmem => hout (.inr hmem),
          hnext₂ y fun hmem => hout (.inl hmem), hnext₁ y hy]

/-! ### The circle -/

/-- The circle is cut open before the sentinel. -/
theorem cutLoop_cuts {n : Nat} {m : Links α} {sentinel c : α} {l : List α} (hn : l.length + 1 < n)
    (h : Leads m.next (some c) (c :: l) (some sentinel)) (hs : sentinel ∉ c :: l)
    (hnodup : (c :: l).Nodup) :
    ∃ m', cutLoop sentinel n m c = some m' ∧ Leads m'.next (some c) (c :: l) none ∧
      ∀ y ∉ c :: l, m'.next y = m.next y := by
  induction l generalizing n m c with
  | nil =>
    obtain ⟨n, rfl⟩ : ∃ k, n = k + 2 := ⟨n - 2, by simp at hn; omega⟩
    have hc : c ≠ sentinel := fun heq => hs (heq ▸ List.mem_cons_self)
    have hend : m.next c = some sentinel := h.2
    refine ⟨m.setNext c none, ?_, ⟨rfl, m.setNext_next_self c none⟩, fun y hy => ?_⟩
    · simp only [cutLoop, if_neg hc, hend, Option.bind_some, if_true]
    · exact m.setNext_next_of_ne none fun heq => hy (heq ▸ List.mem_cons_self)
  | cons d l ih =>
    obtain ⟨n, rfl⟩ : ∃ k, n = k + 1 := ⟨n - 1, by omega⟩
    obtain ⟨-, hd, hrest⟩ := h
    obtain ⟨hcl, hnodup⟩ := List.nodup_cons.1 hnodup
    have hc : c ≠ sentinel := fun heq => hs (heq ▸ List.mem_cons_self)
    have hds : d ≠ sentinel := fun heq => hs (heq ▸ List.mem_cons_of_mem c List.mem_cons_self)
    have hkept : ∀ y ∈ d :: l, (m.setNext c (some d)).next y = m.next y := fun y hy =>
      m.setNext_next_of_ne _ fun heq => hcl (heq ▸ hy)
    obtain ⟨m', hrun, hpath, hnext⟩ := ih (m := m.setNext c (some d)) (by simp at hn; omega)
      (Leads.congr (show Leads m.next (some d) (d :: l) (some sentinel) from ⟨rfl, hrest⟩) hkept)
      (fun hmem => hs (List.mem_cons_of_mem c hmem)) hnodup
    refine ⟨m', ?_, ⟨rfl, ?_⟩, fun y hy => ?_⟩
    · simp only [cutLoop, if_neg hc, hd, Option.bind_some, if_neg hds]
      exact hrun
    · rw [hnext c hcl, Links.setNext_next_self]
      exact hpath
    · rw [hnext y fun hmem => hy (List.mem_cons_of_mem c hmem)]
      exact m.setNext_next_of_ne _ fun heq => hy (heq ▸ List.mem_cons_self)

/-- The nodes of the chain are put behind those of the list. -/
theorem rebuildLoop_rebuilds {n : Nat} {m : Links α} {sentinel : α} {p : Option α}
    {l done : List α} (hn : l.length < n) (h : Leads m.next p l none)
    (hlist : IsList m sentinel done) (hnodup : (sentinel :: (done ++ l)).Nodup) :
    ∃ m', rebuildLoop sentinel n m p = some m' ∧ IsList m' sentinel (done ++ l) := by
  induction l generalizing n m p done with
  | nil =>
    obtain ⟨n, rfl⟩ : ∃ k, n = k + 1 := ⟨n - 1, by simp at hn; omega⟩
    obtain rfl : p = none := h
    exact ⟨m, rfl, (List.append_nil done).symm ▸ hlist⟩
  | cons c l ih =>
    obtain ⟨n, rfl⟩ : ∃ k, n = k + 1 := ⟨n - 1, by simp at hn; omega⟩
    obtain ⟨rfl, h⟩ := h
    rw [← List.cons_append] at hnodup
    obtain ⟨hc, hrest⟩ := List.nodup_cons.1 (List.nodup_middle.1 hnodup)
    have hfree : c ∉ sentinel :: done := fun hmem => hc (List.mem_append_left _ hmem)
    obtain ⟨m', hadd, hlist, hnext⟩ := listAddTail_isList hlist hfree
    have happend : done ++ c :: l = (done ++ [c]) ++ l := by simp
    have hpath : Leads m'.next (m.next c) l none := by
      refine h.congr fun y hy => hnext y ?_
      rw [List.mem_cons]
      rintro (rfl | hmem)
      · exact hc (List.mem_append_right _ hy)
      · exact (List.nodup_append.1 hrest).2.2 y hmem y hy rfl
    rw [List.cons_append, happend] at hnodup
    obtain ⟨m'', hrun, hdone⟩ := ih (by simp at hn; omega) hpath hlist hnodup
    refine ⟨m'', ?_, happend ▸ hdone⟩
    simp only [rebuildLoop, hadd, Option.bind_some]
    exact hrun

/-- The list is sorted, where its count says whether it has more than one node. -/
theorem sortLinks_sorts {n : Nat} {m : Links α} {sentinel : α} {nodes : List α} {count : UInt32}
    (hn : nodes.length + 1 < n) (h : IsList m sentinel nodes)
    (hcount : count ≤ 1 ↔ nodes.length ≤ 1) :
    ∃ m', sortLinks compare n m sentinel count = some m' ∧
      IsList m' sentinel (nodes.mergeSort (InOrder compare)) := by
  by_cases hfew : count ≤ 1
  · refine ⟨m, if_pos hfew, ?_⟩
    have hlength := hcount.1 hfew
    rcases nodes with - | ⟨a, - | ⟨b, l⟩⟩
    · rwa [List.mergeSort_nil]
    · rwa [List.mergeSort_singleton]
    · simp at hlength
  · have hlength := hcount.not.1 hfew
    rcases nodes with - | ⟨c, l⟩
    · simp at hlength
    · obtain ⟨hs, hnodup⟩ := List.nodup_cons.1 (Circular.nodup h)
      have hfirst := (Circular.forward h).1
      have hcircle : Leads m.next (some c) (c :: l) (some sentinel) := hfirst ▸ Circular.forward h
      have hroom : l.length + 1 < n := Nat.lt_of_succ_lt hn
      obtain ⟨m₁, hcut, hchain, -⟩ := cutLoop_cuts hroom hcircle hs hnodup
      obtain ⟨m₂, sorted, hsort, hsorted, -, -⟩ := markerListMergeSort_sorts hn hchain hnodup
      have hperm := List.mergeSort_perm (c :: l) (InOrder compare)
      have hapart : sentinel ∉ (c :: l).mergeSort (InOrder compare) := fun hmem =>
        hs (List.mem_mergeSort.1 hmem)
      have hpath : Leads (initListHead m₂ sentinel).next sorted
          ((c :: l).mergeSort (InOrder compare)) none := by
        refine hsorted.congr fun y hy => m₂.setNext_next_of_ne _ ?_
        rintro rfl
        exact hapart hy
      have hsize : ((c :: l).mergeSort (InOrder compare)).length < n := by
        rw [List.length_mergeSort]
        exact hroom
      obtain ⟨m₃, hrebuild, hlist⟩ := rebuildLoop_rebuilds hsize hpath
        (initListHead_isList m₂ sentinel) (List.nodup_cons.2 ⟨hapart, hperm.nodup_iff.2 hnodup⟩)
      refine ⟨m₃, ?_, hlist⟩
      simp only [sortLinks, if_neg hfew, hfirst, hcut, hsort, Option.bind_eq_bind,
        Option.bind_some]
      exact hrebuild

end Merging

end Chains

end DsdNexus.Dsdiff
