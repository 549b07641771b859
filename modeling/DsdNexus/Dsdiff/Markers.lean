import DsdNexus.Dsdiff.MarkerSort

/-! # DSDIFF: the list of markers

`dsdiff_markers.c`. The markers stand for a sequence: adding, removing and getting one is what
it is for the sequence, and sorting orders it by time without exchanging equal markers. The
count has 32 bits.
-/

namespace DsdNexus.Dsdiff

open Chain

/-- `dsdiff_marker_list_t`: the links and the entry of every node, and the count; the list
itself is one of the nodes. -/
structure MarkerList (α : Type) where
  links : Links α
  entryAt : α → MarkerEntry
  count : UInt32

/-- What `dsdiff_marker_entry_create` makes of a marker. -/
def markerEntryOf (marker : Marker) (sampleRate : UInt32) : MarkerEntry :=
  ⟨marker.time, marker.markType, cstring marker.markerText, sampleRate⟩

/-- What `dsdiff_marker_list_get` copies to the marker of its caller. -/
def MarkerEntry.copyTo (entry : MarkerEntry) (marker : Marker) : Marker :=
  { marker with markType := entry.markType, time := entry.time, markerText := entry.markerText }

namespace MarkerList

variable {α : Type} [DecidableEq α]

/-- `dsdiff_marker_list_add`, with the entry created for the marker, where there is memory. -/
def add (list : MarkerList α) (head : α) (entry : Option α) (marker : Marker)
    (sampleRate : UInt32) : Option (Except Error Unit × MarkerList α) :=
  match entry with
  | none => some (.error .outOfMemory, list)
  | some node =>
    (listAddTail (initListHead list.links node) node head).map fun links =>
      (.ok (), { links := links,
                 entryAt := Function.update list.entryAt node (markerEntryOf marker sampleRate),
                 count := list.count + 1 })

/-- The loop over the entries: the one with the index, if there is one. -/
def findLoop (m : Links α) (head : α) (index : UInt32) :
    Nat → Option α → UInt32 → Option (Option α)
  | n + 1, some entry, i =>
    if entry = head then some none
    else if i = index then some entry
    else findLoop m head index n (m.next entry) (i + 1)
  | _, _, _ => none

/-- `dsdiff_marker_list_remove`. -/
def remove (n : Nat) (list : MarkerList α) (head : α) (index : UInt32) :
    Option (Except Error Unit × MarkerList α) :=
  if list.count ≤ index then some (.error .invalidArg, list)
  else
    (findLoop list.links head index n (list.links.next head) 0).bind fun found =>
      match found with
      | none => some (.error .invalidArg, list)
      | some entry => (listDel list.links entry).map fun links =>
          (.ok (), { list with links := links, count := list.count - 1 })

/-- `dsdiff_marker_list_get`: the marker and the sample rate; there is memory for the text. -/
def get (n : Nat) (list : MarkerList α) (head : α) (index : UInt32) (marker : Marker) :
    Option (Except Error (Marker × UInt32)) :=
  if list.count - 1 < index then some (.error .invalidArg)
  else
    (findLoop list.links head index n (list.links.next head) 0).map fun found =>
      match found with
      | none => .error .invalidArg
      | some entry => .ok ((list.entryAt entry).copyTo marker, (list.entryAt entry).sampleRate)

/-- `dsdiff_marker_list_sort`. -/
def sort (n : Nat) (list : MarkerList α) (head : α) : Option (MarkerList α) :=
  (sortLinks (fun a b => markerCompare (list.entryAt a) (list.entryAt b)) n list.links head
    list.count).map fun links => { list with links := links }

/-- The list is well formed and stands for the sequence. -/
def Holds (list : MarkerList α) (head : α) (entries : List MarkerEntry) : Prop :=
  ∃ nodes, IsList list.links head nodes ∧ nodes.map list.entryAt = entries ∧
    list.count = UInt32.ofNat entries.length

/-- Adding, removing and getting a marker is what it is for the sequence. -/
structure ActsOn (list : MarkerList α) (head : α) (entries : List MarkerEntry) : Prop where
  add : ∀ node marker sampleRate, (∀ nodes, IsList list.links head nodes → node ∉ head :: nodes) →
    ∃ list', list.add head (some node) marker sampleRate = some (.ok (), list') ∧
      list'.Holds head (entries ++ [markerEntryOf marker sampleRate])
  remove : ∀ (n : Nat) (index : UInt32), entries.length < n →
    (index.toNat < entries.length → ∃ list', list.remove n head index = some (.ok (), list') ∧
      list'.Holds head (entries.eraseIdx index.toNat)) ∧
    (entries.length ≤ index.toNat → list.remove n head index = some (.error .invalidArg, list))
  get : ∀ (n : Nat) (index : UInt32) (marker : Marker), entries.length < n →
    list.get n head index marker = some (entries[index.toNat]?.elim (.error .invalidArg)
      fun entry => .ok (entry.copyTo marker, entry.sampleRate))

/-! ## Single calls -/

variable {list : MarkerList α} {head : α} {nodes : List α} {entries : List MarkerEntry}

/-- Initialising the links of a node leaves a list it is not in. -/
theorem initListHead_apart {m : Links α} {node : α} (h : IsList m head nodes)
    (hnode : node ∉ head :: nodes) : IsList (initListHead m node) head nodes := by
  have hne : ∀ y ∈ head :: nodes, y ≠ node := fun y hy heq => hnode (heq ▸ hy)
  refine Circular.congr h (fun y hy => ?_) fun y hy => ?_
  · exact m.setNext_next_of_ne _ (hne y hy)
  · exact (m.setNext node node).setPrev_prev_of_ne _ (hne y hy)

/-- The entry of a new node stands behind the others. -/
theorem map_update_concat (entryAt : α → MarkerEntry) {node : α} (h : node ∉ nodes)
    (entry : MarkerEntry) :
    (nodes ++ [node]).map (Function.update entryAt node entry) = nodes.map entryAt ++ [entry] := by
  rw [List.map_append, List.map_singleton, Function.update_self]
  congr 1
  refine List.map_congr_left fun y hy => Function.update_of_ne ?_ _ _
  rintro rfl
  exact h hy

theorem holds_add (h : IsList list.links head nodes) (hentries : nodes.map list.entryAt = entries)
    (hcount : list.count = UInt32.ofNat entries.length) {node : α} (hnode : node ∉ head :: nodes)
    (marker : Marker) (sampleRate : UInt32) :
    ∃ list', list.add head (some node) marker sampleRate = some (.ok (), list') ∧
      IsList list'.links head (nodes ++ [node]) ∧
      (nodes ++ [node]).map list'.entryAt = entries ++ [markerEntryOf marker sampleRate] ∧
      list'.count = UInt32.ofNat (entries ++ [markerEntryOf marker sampleRate]).length := by
  obtain ⟨links, hadd, hlist, -⟩ := listAddTail_isList (initListHead_apart h hnode) hnode
  refine ⟨_, by simp only [add, hadd]; rfl, hlist, ?_, ?_⟩
  · rw [← hentries]
    exact map_update_concat _ (fun hmem => hnode (List.mem_cons_of_mem _ hmem)) _
  · rw [List.length_append, List.length_singleton, UInt32.ofNat_add, hcount]
    rfl

theorem findLoop_at {m : Links α} {index i : UInt32} {n : Nat} {p : Option α}
    (h : Leads m.next p nodes (some head)) (hhead : head ∉ nodes) (hn : nodes.length < n)
    (hroom : i.toNat + nodes.length < 2 ^ 32) (hi : i.toNat ≤ index.toNat) :
    findLoop m head index n p i = some nodes[index.toNat - i.toNat]? := by
  induction nodes generalizing n p i with
  | nil =>
    obtain ⟨n, rfl⟩ : ∃ k, n = k + 1 := ⟨n - 1, by simp at hn; omega⟩
    obtain rfl : p = some head := h
    simp [findLoop]
  | cons c l ih =>
    obtain ⟨n, rfl⟩ : ∃ k, n = k + 1 := ⟨n - 1, by omega⟩
    obtain ⟨rfl, h⟩ := h
    have hc : c ≠ head := fun heq => hhead (heq ▸ List.mem_cons_self)
    rw [findLoop, if_neg hc]
    split
    · next heq =>
      rw [heq, Nat.sub_self]
      rfl
    · next hne =>
      have hlt : i.toNat < index.toNat := by
        have hne' : i.toNat ≠ index.toNat := fun heq => hne (UInt32.toNat_inj.1 heq)
        omega
      have hnext : (i + 1).toNat = i.toNat + 1 := by
        rw [UInt32.toNat_add]
        simp at hroom ⊢
        omega
      rw [ih h (fun hmem => hhead (List.mem_cons_of_mem c hmem)) (by simp at hn; omega)
        (by rw [hnext]; simp at hroom; omega) (by omega), hnext]
      have hindex : index.toNat - i.toNat = index.toNat - (i.toNat + 1) + 1 := by omega
      rw [hindex, List.getElem?_cons_succ]

theorem find_eq (h : IsList list.links head nodes) {n : Nat} (hn : nodes.length < n)
    (hlength : nodes.length < 2 ^ 32) (index : UInt32) :
    findLoop list.links head index n (list.links.next head) 0 = some nodes[index.toNat]? := by
  have hzero : (0 : UInt32).toNat = 0 := rfl
  have hfound : findLoop list.links head index n (list.links.next head) 0 =
      some nodes[index.toNat - (0 : UInt32).toNat]? :=
    findLoop_at (Circular.forward h) (List.nodup_cons.1 (Circular.nodup h)).1 hn (by omega)
      (by omega)
  rwa [hzero, Nat.sub_zero] at hfound

omit [DecidableEq α] in
/-- The count is the length, as long as it does not wrap. -/
theorem count_toNat (hcount : list.count = UInt32.ofNat entries.length)
    (hlength : entries.length < 2 ^ 32) : list.count.toNat = entries.length := by
  rw [hcount, UInt32.toNat_ofNat']
  exact Nat.mod_eq_of_lt hlength

theorem holds_remove (h : IsList list.links head nodes)
    (hcount : list.count.toNat = nodes.length) {n : Nat} (hn : nodes.length < n)
    {index : UInt32} (hin : index.toNat < nodes.length) :
    ∃ list', list.remove n head index = some (.ok (), list') ∧
      list'.Holds head ((nodes.map list.entryAt).eraseIdx index.toNat) := by
  have hlength := list.count.toNat_lt
  have hsplit : nodes = nodes.take index.toNat ++ nodes[index.toNat] ::
      nodes.drop (index.toNat + 1) := by
    rw [List.getElem_cons_drop, List.take_append_drop]
  obtain ⟨links, hdel, hlist⟩ := listDel_isList (hsplit ▸ h)
  have hless : ¬ list.count ≤ index := by
    rw [UInt32.le_iff_toNat_le]
    omega
  have hone : (1 : UInt32) ≤ list.count := by
    rw [UInt32.le_iff_toNat_le]
    exact (Nat.zero_le _).trans_lt (hcount ▸ hin)
  refine ⟨{ list with links := links, count := list.count - 1 }, ?_, nodes.eraseIdx index.toNat,
    ?_, ?_, ?_⟩
  · simp only [remove, if_neg hless, find_eq h hn (by omega), List.getElem?_eq_getElem hin, hdel,
      Option.bind_some, Option.map_some]
  · rwa [List.eraseIdx_eq_take_drop_succ]
  · rw [List.eraseIdx_eq_take_drop_succ, List.eraseIdx_eq_take_drop_succ, List.map_append,
      List.map_take, List.map_drop]
  · rw [← UInt32.toNat_inj, UInt32.toNat_sub_of_le _ _ hone, hcount, UInt32.toNat_ofNat',
      List.length_eraseIdx, List.length_map, if_pos hin]
    exact (Nat.mod_eq_of_lt (by omega)).symm

theorem get_eq (h : IsList list.links head nodes) (hcount : list.count.toNat = nodes.length)
    {n : Nat} (hn : nodes.length < n) (index : UInt32) (marker : Marker) :
    list.get n head index marker = some ((nodes.map list.entryAt)[index.toNat]?.elim
      (.error .invalidArg) fun entry => .ok (entry.copyTo marker, entry.sampleRate)) := by
  have hlength := list.count.toNat_lt
  unfold get
  split
  · next hbeyond =>
    have hout : nodes.length ≤ index.toNat := by
      -- Without any markers the greatest index is no limit, and no index is beyond it.
      have hindex := index.toNat_lt
      have hone : (1 : UInt32).toNat = 1 := rfl
      rw [UInt32.lt_iff_toNat_lt, UInt32.toNat_sub] at hbeyond
      omega
    rw [List.getElem?_eq_none (by rwa [List.length_map])]
    rfl
  · rw [find_eq h hn (by omega), Option.map_some, List.getElem?_map]
    cases nodes[index.toNat]? <;> rfl

/-- The list acts as the sequence it stands for, as long as the count does not wrap. -/
theorem Holds.actsOn (h : list.Holds head entries) (hlength : entries.length < 2 ^ 32) :
    list.ActsOn head entries := by
  obtain ⟨nodes, hlist, rfl, hcount⟩ := h
  have htoNat := count_toNat hcount hlength
  rw [List.length_map] at htoNat
  refine ⟨fun node marker sampleRate hnode => ?_, fun n index hn => ⟨fun hin => ?_, fun hout => ?_⟩,
    fun n index marker hn => ?_⟩
  · obtain ⟨list', hadd, hlist', hentries, hcount'⟩ :=
      holds_add hlist rfl hcount (hnode nodes hlist) marker sampleRate
    exact ⟨list', hadd, nodes ++ [node], hlist', hentries, hcount'⟩
  · rw [List.length_map] at hn hin
    exact holds_remove hlist htoNat hn hin
  · rw [List.length_map] at hout
    exact if_pos (UInt32.le_iff_toNat_le.2 (htoNat.trans_le hout))
  · rw [List.length_map] at hn
    exact get_eq hlist htoNat hn index marker

/-! ## Sorting -/

/-- Earlier, or at the same time and no other marker before the start of a track. -/
def Before (a b : MarkerEntry) : Prop :=
  markerToSamples a < markerToSamples b ∨ markerToSamples a = markerToSamples b ∧
    (a.markType = markTrackStart ∨ b.markType ≠ markTrackStart)

/-- Markers with the same time that both start a track or both do not. -/
def Alike (a b : MarkerEntry) : Prop :=
  markerToSamples a = markerToSamples b ∧
    (a.markType = markTrackStart ↔ b.markType = markTrackStart)

instance (a b : MarkerEntry) : Decidable (Alike a b) := inferInstanceAs (Decidable (_ ∧ _))

/-- The same markers, in order, those alike in the order they had. -/
structure StablySorted (before after : List MarkerEntry) : Prop where
  perm : after.Perm before
  ordered : after.Pairwise Before
  stable : ∀ a, after.filter (fun b => Alike a b) = before.filter fun b => Alike a b

theorem markerCompare_le_zero_iff (a b : MarkerEntry) : markerCompare a b ≤ 0 ↔ Before a b := by
  unfold markerCompare Before
  split_ifs <;> grind

theorem inOrder_iff (a b : MarkerEntry) : InOrder markerCompare a b = true ↔ Before a b := by
  rw [InOrder, decide_eq_true_iff, markerCompare_le_zero_iff]

theorem before_trans (a b c : MarkerEntry) (h : InOrder markerCompare a b = true)
    (h' : InOrder markerCompare b c = true) : InOrder markerCompare a c = true := by
  rw [inOrder_iff] at h h' ⊢
  unfold Before at *
  grind

theorem before_total (a b : MarkerEntry) :
    (InOrder markerCompare a b || InOrder markerCompare b a) = true := by
  rw [Bool.or_eq_true, inOrder_iff, inOrder_iff]
  unfold Before
  grind

/-- The merge sort of the sequence keeps the order of markers that are alike. -/
theorem mergeSort_stablySorted (entries : List MarkerEntry) :
    StablySorted entries (entries.mergeSort (InOrder markerCompare)) := by
  have hperm := List.mergeSort_perm entries (InOrder markerCompare)
  refine ⟨hperm, ?_, fun a => ?_⟩
  · exact (List.pairwise_mergeSort before_trans before_total entries).imp
      fun h => (inOrder_iff _ _).1 h
  · have halike : (entries.filter fun b => Alike a b).Pairwise
        fun b c => InOrder markerCompare b c = true := by
      rw [List.pairwise_filter]
      refine List.pairwise_of_forall fun b c hb hc => (inOrder_iff b c).2 ?_
      simp only [Alike, Before] at hb hc ⊢
      grind
    have hsub := (List.sublist_mergeSort before_trans before_total halike
      List.filter_sublist).filter fun b => Alike a b
    simp only [List.filter_filter, Bool.and_self] at hsub
    exact (hsub.eq_of_length (hperm.filter _).length_eq.symm).symm

/-- A list whose count is its length is sorted in as many turns as it has markers, and a few. -/
theorem sort_holds (h : list.Holds head entries) (hlength : entries.length < 2 ^ 32) {n : Nat}
    (hn : entries.length + 1 < n) :
    ∃ list', list.sort n head = some list' ∧
      list'.Holds head (entries.mergeSort (InOrder markerCompare)) := by
  obtain ⟨nodes, hlist, rfl, hcount⟩ := h
  have htoNat := count_toNat hcount hlength
  rw [List.length_map] at hn htoNat
  have hone : (1 : UInt32).toNat = 1 := rfl
  have hmany : list.count ≤ 1 ↔ nodes.length ≤ 1 := by
    rw [UInt32.le_iff_toNat_le, htoNat, hone]
  let compare : α → α → Int := fun a b => markerCompare (list.entryAt a) (list.entryAt b)
  obtain ⟨links, hsort, hsorted⟩ : ∃ m', sortLinks compare n list.links head list.count = some m' ∧
      IsList m' head (nodes.mergeSort (InOrder compare)) := sortLinks_sorts hn hlist hmany
  refine ⟨{ list with links := links }, by rw [sort, hsort]; rfl, _, hsorted, ?_, ?_⟩
  · exact List.map_mergeSort fun a _ b _ => rfl
  · rw [List.length_mergeSort]
    exact hcount

/-- Fewer than 2 ^ 32 markers act as a sequence and are sorted stably, and act as the sorted
sequence afterwards. -/
theorem marker_list_sorts (h : list.Holds head entries) (hlength : entries.length < 2 ^ 32) :
    list.ActsOn head entries ∧
      ∀ n, entries.length + 1 < n → ∃ list' sorted, list.sort n head = some list' ∧
        list'.Holds head sorted ∧ StablySorted entries sorted ∧ list'.ActsOn head sorted := by
  refine ⟨h.actsOn hlength, fun n hn => ?_⟩
  obtain ⟨list', hsort, hsorted⟩ := sort_holds h hlength hn
  refine ⟨list', _, hsort, hsorted, mergeSort_stablySorted entries, hsorted.actsOn ?_⟩
  rwa [List.length_mergeSort]

/-- A marker so many samples from the start. -/
def markerAt (samples : UInt32) : MarkerEntry := ⟨⟨0, 0, 0, samples⟩, markTrackStart, [], 2822400⟩

/-- Two markers in nodes 1 and 2, the later one first. -/
def lateFirst : MarkerList Nat where
  links := ⟨fun y => some ((y + 1) % 3), fun y => some ((y + 2) % 3)⟩
  entryAt := fun y => markerAt (if y = 1 then 1 else 0)
  count := 2

theorem lateFirst_holds : lateFirst.Holds 0 [markerAt 1, markerAt 0] := by
  exact ⟨[1, 2], ⟨by decide, ⟨rfl, rfl, rfl⟩, ⟨rfl, rfl, rfl⟩⟩, rfl, rfl⟩

theorem marker_list_sorts_lateFirst : [markerAt 1, markerAt 0].length < 2 ^ 32 ∧
    ∃ list' sorted, lateFirst.sort 4 0 = some list' ∧ list'.Holds 0 sorted ∧
      StablySorted [markerAt 1, markerAt 0] sorted ∧ list'.ActsOn 0 sorted :=
  ⟨by decide, (marker_list_sorts lateFirst_holds (by decide)).2 4 (by decide)⟩

/-! ## More markers than the count can tell -/

/-- Every sequence can be built, node by node. -/
theorem exists_list (entries : List MarkerEntry) :
    ∃ (list : MarkerList Nat) (nodes : List Nat), IsList list.links 0 nodes ∧
      nodes.map list.entryAt = entries ∧ list.count = UInt32.ofNat entries.length ∧
      ∀ y ∈ nodes, y ≤ entries.length := by
  induction entries using List.reverseRecOn with
  | nil =>
    exact ⟨⟨initListHead ⟨fun _ => none, fun _ => none⟩ 0, fun _ => ⟨⟨0, 0, 0, 0⟩, 0, [], 0⟩, 0⟩,
      [], initListHead_isList _ 0, rfl, rfl, fun y hy => absurd hy List.not_mem_nil⟩
  | append_singleton entries entry ih =>
    obtain ⟨list, nodes, hlist, hentries, hcount, hbound⟩ := ih
    have hfresh : entries.length + 1 ∉ nodes := fun hmem => by
      have hle := hbound _ hmem
      omega
    have hnode : entries.length + 1 ∉ 0 :: nodes := by
      rw [List.mem_cons]
      rintro (hzero | hmem)
      · omega
      · exact hfresh hmem
    obtain ⟨links, -, hlist', -⟩ := listAddTail_isList hlist hnode
    refine ⟨⟨links, Function.update list.entryAt (entries.length + 1) entry, list.count + 1⟩,
      nodes ++ [entries.length + 1], hlist', ?_, ?_, fun y hy => ?_⟩
    · rw [← hentries]
      exact map_update_concat _ (hentries ▸ hfresh) _
    · rw [List.length_append, List.length_singleton, UInt32.ofNat_add, hcount]
      rfl
    · rw [List.length_append, List.length_singleton]
      rcases List.mem_append.1 hy with hold | hnew
      · exact Nat.le_succ_of_le (hbound y hold)
      · exact (List.mem_singleton.1 hnew).le

omit [DecidableEq α] in
/-- A list stands for one sequence. -/
theorem Holds.unique {entries' : List MarkerEntry} (h : list.Holds head entries)
    (h' : list.Holds head entries') : entries = entries' := by
  obtain ⟨nodes, hlist, rfl, -⟩ := h
  obtain ⟨nodes', hlist', rfl, -⟩ := h'
  rw [Circular.unique hlist hlist']

/-- With 2 ^ 32 markers the count is zero, and nothing is sorted. -/
theorem many_markers_unsorted : ¬ ∀ (list : MarkerList Nat) (entries : List MarkerEntry),
    list.Holds 0 entries → ∀ n, entries.length + 1 < n → ∃ list' sorted,
      list.sort n 0 = some list' ∧ list'.Holds 0 sorted ∧ StablySorted entries sorted := by
  intro h
  obtain ⟨list, nodes, hlist, hentries, hcount, -⟩ :=
    exists_list (markerAt 1 :: List.replicate (2 ^ 32 - 1) (markerAt 0))
  have hholds : list.Holds 0 _ := ⟨nodes, hlist, hentries, hcount⟩
  obtain ⟨list', sorted, hsort, hsorted, hstable⟩ := h list _ hholds _ (Nat.lt_succ_self _)
  have hzero : list.count = 0 := by
    rw [hcount, List.length_cons, List.length_replicate]
    rfl
  have hsame : ∀ n, list.sort n 0 = some list := fun n => by
    rw [sort, sortLinks, if_pos (by rw [hzero]; decide)]
    rfl
  obtain rfl : list = list' := Option.some.inj ((hsame _).symm.trans hsort)
  have hordered := hstable.ordered
  rw [← hholds.unique hsorted] at hordered
  have hfirst := (List.pairwise_cons.1 hordered).1 (markerAt 0)
    (List.mem_replicate.2 ⟨by decide, rfl⟩)
  have hlate : ¬ Before (markerAt 1) (markerAt 0) := by
    simp [Before, markerToSamples, markerAt]
  exact hlate hfirst

end MarkerList

end DsdNexus.Dsdiff
