import DsdNexus.Dsdpipe.TagsFiniteMap

/-! # Calls on metadata tags

Whatever is called on the containers of a store, each of them stays a finite map: the store
refines a list of maps on which the same calls are insertions, removals, copies and unions.
-/

namespace DsdNexus.Dsdpipe

/-- What a call does on the maps. -/
def TagCall.onMaps (ms : List TagMap) : TagCall → TagAnswer × List TagMap
  | create => (.container (some ms.length), ms ++ [∅])
  | set i key value =>
    match ms[i]? with
    | none => (.code (-1), ms)
    | some m =>
      if key.bytes = [] then (.code (-1), ms) else (.code 0, ms.set i (m.insert key value))
  | remove i key =>
    match ms[i]? with
    | none => (.code (-1), ms)
    | some m => if key ∈ m then (.code 0, ms.set i (m.erase key)) else (.code (-1), ms)
  | clear i => (.void, ms.set i ∅)
  | copy src =>
    match ms[src]? with
    | none => (.container none, ms)
    | some m => (.container (some ms.length), ms ++ [m])
  | merge dest src overwrite =>
    match ms[dest]?, ms[src]? with
    | some d, some m => (.code 0, ms.set dest (if overwrite then m ∪ d else d ∪ m))
    | _, _ => (.code (-1), ms)

/-- A run of calls on the maps, with the answers. -/
def mapTagCalls (ms : List TagMap) : List TagCall → List TagAnswer × List TagMap
  | [] => ([], ms)
  | call :: calls =>
    let r := call.onMaps ms
    (r.1 :: (mapTagCalls r.2 calls).1, (mapTagCalls r.2 calls).2)

/-- Each container stands for its map, and no entry is in two of them. -/
structure Refines (s : TagStore) (ms : List TagMap) : Prop where
  length : s.containers.length = ms.length
  holds : ∀ (i : Nat) (tags : MetadataTags) (m : TagMap),
    s.containers[i]? = some tags → ms[i]? = some m → Holds s.heap tags m
  apart : ∀ (i j : Nat) (tags tags' : MetadataTags), i ≠ j → s.containers[i]? = some tags →
    s.containers[j]? = some tags' → ∀ a ∈ tags.root.toList, a ∉ tags'.root.toList

theorem refines_empty : Refines .empty [] := ⟨rfl, nofun, nofun⟩

section Store

variable {s : TagStore} {ms : List TagMap} {i : Nat} {key value : CString}

theorem Refines.none_iff (hs : Refines s ms) : s.containers[i]? = none ↔ ms[i]? = none := by
  rw [List.getElem?_eq_none_iff, List.getElem?_eq_none_iff, hs.length]

theorem Refines.container (hs : Refines s ms) {m : TagMap} (hm : ms[i]? = some m) :
    ∃ tags, s.containers[i]? = some tags ∧ Holds s.heap tags m := by
  cases htags : s.containers[i]? with
  | none =>
    rw [hs.none_iff.1 htags] at hm
    cases hm
  | some tags => exact ⟨tags, rfl, hs.holds i tags m htags hm⟩

/-- A change confined to one container. -/
theorem Refines.update (hs : Refines s ms) {h' : TagHeap} {tags tags' : MetadataTags}
    {m : TagMap} (htags : s.containers[i]? = some tags) (hm : Holds h' tags' m)
    (hconf : Confined s.heap h' tags tags') :
    Refines ⟨h', s.containers.set i tags'⟩ (ms.set i m) where
  length := by simp [hs.length]
  holds := by
    intro j t n ht hn
    dsimp only at ht
    by_cases hij : i = j
    · subst hij
      have hlt := (List.getElem?_eq_some_iff.1 htags).1
      rw [List.getElem?_set_self hlt] at ht
      rw [List.getElem?_set_self (hs.length ▸ hlt)] at hn
      cases ht
      cases hn
      exact hm
    · rw [List.getElem?_set_ne hij] at ht hn
      have hj := hs.holds j t n ht hn
      exact hj.frame hconf.fresh fun a ha =>
        hconf.frame a (hj.fresh a ha) (hs.apart j i t tags (Ne.symm hij) ht htags a ha)
  apart := by
    have hnew : ∀ j t, j ≠ i → s.containers[j]? = some t → ∀ a ∈ t.root.toList,
        a ∉ tags'.root.toList := by
      intro j t hj ht a ha hin
      obtain ⟨n, hn⟩ : ∃ n, ms[j]? = some n := by
        have hlt := (List.getElem?_eq_some_iff.1 ht).1
        exact ⟨_, List.getElem?_eq_getElem (hs.length ▸ hlt)⟩
      rcases hconf.taken a hin with hold | hge
      · exact hs.apart j i t tags hj ht htags a ha hold
      · exact absurd ((hs.holds j t n ht hn).fresh a ha) (Nat.not_lt.2 hge)
    intro j k t t' hjk ht ht' a ha
    dsimp only at ht ht'
    by_cases hj : i = j
    · subst hj
      rw [List.getElem?_set_self (List.getElem?_eq_some_iff.1 htags).1] at ht
      rw [List.getElem?_set_ne hjk] at ht'
      cases ht
      exact fun hin => hnew k t' hjk.symm ht' a hin ha
    · rw [List.getElem?_set_ne hj] at ht
      by_cases hk : i = k
      · subst hk
        rw [List.getElem?_set_self (List.getElem?_eq_some_iff.1 htags).1] at ht'
        cases ht'
        exact hnew j t hjk ht a ha
      · rw [List.getElem?_set_ne hk] at ht'
        exact hs.apart j k t t' hjk ht ht' a ha

theorem Refines.create (hs : Refines s ms) :
    Refines { s with containers := s.containers ++ [.create] } (ms ++ [∅]) where
  length := by simp [hs.length]
  holds := by
    intro i tags m htags hm
    dsimp only at htags
    rw [List.getElem?_append] at htags hm
    by_cases hi : i < s.containers.length
    · rw [if_pos hi] at htags
      rw [if_pos (hs.length ▸ hi)] at hm
      exact hs.holds i tags m htags hm
    · rw [if_neg hi] at htags
      rw [if_neg (hs.length ▸ hi)] at hm
      obtain rfl := List.mem_singleton.1 (List.mem_of_getElem? htags)
      obtain rfl := List.mem_singleton.1 (List.mem_of_getElem? hm)
      exact Holds.create s.heap
  apart := by
    intro i j tags tags' hij htags htags' a ha
    dsimp only at htags htags'
    rw [List.getElem?_append] at htags htags'
    split at htags
    · split at htags'
      · exact hs.apart i j tags tags' hij htags htags' a ha
      · obtain rfl := List.mem_singleton.1 (List.mem_of_getElem? htags')
        exact List.not_mem_nil
    · obtain rfl := List.mem_singleton.1 (List.mem_of_getElem? htags)
      cases ha

theorem Refines.set_spec (hs : Refines s ms) {m : TagMap} (hm : ms[i]? = some m)
    (hkey : key.bytes ≠ []) (value : CString) :
    ∃ tags h' tags', s.containers[i]? = some tags ∧
      s.set i key value = some (0, ⟨h', s.containers.set i tags'⟩) ∧
      Refines ⟨h', s.containers.set i tags'⟩ (ms.set i (m.insert key value)) ∧
      Confined s.heap h' tags tags' := by
  obtain ⟨tags, htags, hholds⟩ := hs.container hm
  obtain ⟨h', tags', hset, hholds', hconf⟩ := hholds.set hkey value
  refine ⟨tags, h', tags', htags, ?_, hs.update htags hholds' hconf, hconf⟩
  unfold TagStore.set
  rw [htags]
  dsimp only
  rw [hset, Option.map_some]

/-! ## Copies and merges -/

/-- An entry of another map. -/
def mergeEntry (overwrite : Bool) (m : TagMap) (p : CString × CString) : TagMap :=
  if ¬ overwrite ∧ p.1 ∈ m then m else m.insert p.1 p.2

theorem lookup_foldl_mergeEntry {pairs : List (CString × CString)}
    (hnodup : (pairs.map Prod.fst).Nodup) (d : TagMap) (k v : CString) :
    ((pairs.foldl (mergeEntry true) d).lookup k = some v ↔
      (k, v) ∈ pairs ∨ k ∉ pairs.map Prod.fst ∧ d.lookup k = some v) := by
  induction pairs generalizing d with
  | nil => simp
  | cons p pairs ih =>
    obtain ⟨k', v'⟩ := p
    rw [List.map_cons, List.nodup_cons] at hnodup
    have hout : ∀ w, (k', w) ∉ pairs := fun w hw => hnodup.1 (List.mem_map.2 ⟨_, hw, rfl⟩)
    rw [List.foldl_cons, ih hnodup.2]
    simp only [mergeEntry, not_true_eq_false, false_and, if_false, List.mem_cons, List.map_cons,
      Prod.mk.injEq, not_or]
    by_cases hk : k = k'
    · subst hk
      simp [hout v, hnodup.1, Finmap.lookup_insert, eq_comm]
    · simp [hk, Finmap.lookup_insert_of_ne]

theorem lookup_foldl_mergeEntry_keep {pairs : List (CString × CString)}
    (hnodup : (pairs.map Prod.fst).Nodup) (d : TagMap) (k v : CString) :
    ((pairs.foldl (mergeEntry false) d).lookup k = some v ↔
      d.lookup k = some v ∨ k ∉ d ∧ (k, v) ∈ pairs) := by
  induction pairs generalizing d with
  | nil => simp
  | cons p pairs ih =>
    obtain ⟨k', v'⟩ := p
    rw [List.map_cons, List.nodup_cons] at hnodup
    have hout : ∀ w, (k', w) ∉ pairs := fun w hw => hnodup.1 (List.mem_map.2 ⟨_, hw, rfl⟩)
    rw [List.foldl_cons, ih hnodup.2]
    simp only [mergeEntry, Bool.false_eq_true, not_false_iff, true_and, List.mem_cons,
      Prod.mk.injEq]
    by_cases hmem : k' ∈ d
    · rw [if_pos hmem]
      by_cases hk : k = k'
      · subst hk
        simp [hmem]
      · simp [hk]
    · rw [if_neg hmem, Finmap.mem_insert]
      by_cases hk : k = k'
      · subst hk
        simp [hmem, Finmap.lookup_eq_none.2 hmem, Finmap.lookup_insert, eq_comm, hout]
      · simp [hk, Finmap.lookup_insert_of_ne]

/-- All the entries of a map make it a union. -/
theorem foldl_mergeEntry {pairs : List (CString × CString)} {m : TagMap}
    (hnodup : (pairs.map Prod.fst).Nodup) (hm : ∀ k v, (k, v) ∈ pairs ↔ m.lookup k = some v)
    (overwrite : Bool) (d : TagMap) :
    pairs.foldl (mergeEntry overwrite) d = if overwrite then m ∪ d else d ∪ m := by
  have hkeys : ∀ k, k ∈ pairs.map Prod.fst ↔ k ∈ m := by
    intro k
    rw [Finmap.mem_iff, List.mem_map]
    constructor
    · rintro ⟨⟨k, v⟩, hp, rfl⟩
      exact ⟨v, (hm k v).1 hp⟩
    · rintro ⟨v, hv⟩
      exact ⟨(k, v), (hm k v).2 hv, rfl⟩
  refine Finmap.ext_lookup fun k => Option.ext fun v => ?_
  cases overwrite with
  | true =>
    rw [lookup_foldl_mergeEntry hnodup, if_pos rfl, hkeys, hm]
    exact Finmap.mem_lookup_union.symm
  | false =>
    rw [lookup_foldl_mergeEntry_keep hnodup, if_neg Bool.false_ne_true, hm]
    exact Finmap.mem_lookup_union.symm

/-- `merge_enum_cb` over entries outside the destination. -/
theorem Refines.foldlM_mergeEnumCb {dest : Nat} (overwrite : Bool) {h : TagHeap} {d : TagMap}
    {as : List Nat} (hs : Refines s ms) (hd : ms[dest]? = some d)
    (hsame : ∀ a ∈ as, ∃ e, h.entries a = some e ∧ s.heap.entries a = some e ∧ e.key.bytes ≠ [])
    (hapart : ∀ a ∈ as, a < s.heap.fresh ∧
      ∀ tags, s.containers[dest]? = some tags → a ∉ tags.root.toList) :
    ∃ s', as.foldlM (TagStore.mergeEnumCb dest overwrite) (s, 0) = some (s', 0) ∧
      Refines s' (ms.set dest ((h.pairs as).foldl (mergeEntry overwrite) d)) := by
  induction as generalizing s ms d with
  | nil =>
    refine ⟨s, rfl, ?_⟩
    obtain ⟨hlt, rfl⟩ := List.getElem?_eq_some_iff.1 hd
    rwa [show h.pairs [] = [] from rfl, List.foldl_nil, List.set_getElem_self]
  | cons a as ih =>
    obtain ⟨e, he, hse, hkey⟩ := hsame a (by simp)
    obtain ⟨tags, htags, hholds⟩ := hs.container hd
    have hhas : s.has dest e.key = true ↔ e.key ∈ d := by
      unfold TagStore.has
      rw [htags]
      exact hholds.answersAs.has _
    rw [List.foldlM_cons, pairs_cons he, List.foldl_cons]
    unfold TagStore.mergeEnumCb
    dsimp only
    rw [hse, Option.bind_some]
    unfold mergeEntry
    simp only [hhas]
    by_cases hskip : ¬ overwrite = true ∧ e.key ∈ d
    · rw [if_pos hskip, if_pos hskip]
      exact ih hs hd (fun b hb => hsame b (by simp [hb])) fun b hb => hapart b (by simp [hb])
    · rw [if_neg hskip, if_neg hskip]
      obtain ⟨tags₀, h', tags', htags₀, hset, hrefines, hconf⟩ := hs.set_spec hd hkey e.value
      rw [htags] at htags₀
      cases htags₀
      have hlt := (List.getElem?_eq_some_iff.1 htags).1
      rw [hset, Option.map_some]
      obtain ⟨s', hrun, hfinal⟩ := ih (s := ⟨h', s.containers.set dest tags'⟩) hrefines
        (List.getElem?_set_self (hs.length ▸ hlt))
        (fun b hb => by
          obtain ⟨e', hhe, hse', hne⟩ := hsame b (by simp [hb])
          obtain ⟨hfresh, hout⟩ := hapart b (by simp [hb])
          exact ⟨e', hhe, (hconf.frame b hfresh (hout tags htags)).trans hse', hne⟩)
        (fun b hb => by
          obtain ⟨hfresh, hout⟩ := hapart b (by simp [hb])
          refine ⟨hfresh.trans_le hconf.fresh, fun t ht hin => ?_⟩
          dsimp only at ht
          rw [List.getElem?_set_self hlt] at ht
          cases ht
          rcases hconf.taken b hin with hold | hge
          · exact hout tags htags hold
          · exact absurd hfresh (Nat.not_lt.2 hge))
      rw [List.set_set] at hfinal
      exact ⟨s', hrun, hfinal⟩

/-- The entries of a container, for a destination that is another one. -/
theorem Refines.merge_other (hs : Refines s ms) {dest : Nat} {d m : TagMap}
    {tags : MetadataTags} (hd : ms[dest]? = some d) (hm : Holds s.heap tags m)
    (hother : ∀ t, s.containers[dest]? = some t → ∀ a ∈ tags.root.toList, a ∉ t.root.toList)
    (overwrite : Bool) :
    ∃ s', tags.root.toList.foldlM (TagStore.mergeEnumCb dest overwrite) (s, 0) = some (s', 0) ∧
      Refines s' (ms.set dest (if overwrite then m ∪ d else d ∪ m)) := by
  have hlive : ∀ a ∈ tags.root.toList, ∃ e, s.heap.entries a = some e := fun a ha =>
    (hm.live a ha).imp fun _ he => he.1
  have hnodup : ((s.heap.pairs tags.root.toList).map Prod.fst).Nodup := by
    rw [pairs_map_fst hlive]
    exact List.pairwise_map.2 (List.Pairwise.imp ne_of_lt hm.ordered)
  obtain ⟨s', hrun, hrefines⟩ := hs.foldlM_mergeEnumCb overwrite (h := s.heap) hd
    (fun a ha => (hm.live a ha).imp fun _ he => ⟨he.1, he⟩)
    fun a ha => ⟨hm.fresh a ha, fun t ht => hother t ht a ha⟩
  rw [foldl_mergeEntry hnodup fun k v => mem_pairs.trans (hm.lookup k v).symm] at hrefines
  exact ⟨s', hrun, hrefines⟩

/-- The entries of a container, for that container: the tree that is walked stays. -/
theorem merge_self {m : TagMap} {tags : MetadataTags}
    (htags : s.containers[i]? = some tags) (hm : Holds s.heap tags m) (overwrite : Bool)
    {as : List Nat} (has : ∀ a ∈ as, a ∈ tags.root.toList) :
    as.foldlM (TagStore.mergeEnumCb i overwrite) (s, 0) = some (s, 0) := by
  induction as with
  | nil => rfl
  | cons a as ih =>
    obtain ⟨e, he, -⟩ := hm.live a (has a (by simp))
    have hset : s.set i e.key e.value = some (0, s) := by
      unfold TagStore.set
      rw [htags]
      dsimp only
      rw [hm.set_same (has a (by simp)) he, Option.map_some]
      obtain ⟨hlt, rfl⟩ := List.getElem?_eq_some_iff.1 htags
      rw [List.set_getElem_self]
    have hstep : TagStore.mergeEnumCb i overwrite (s, 0) a = some (s, 0) := by
      unfold TagStore.mergeEnumCb
      dsimp only
      rw [he, Option.bind_some, hset]
      split <;> rfl
    rw [List.foldlM_cons, hstep]
    exact ih fun b hb => has b (by simp [hb])

theorem enumerate_of_foldlM {σ : Type*} {enu : σ → Nat → Option σ} {root : AVTree Nat} {ctx r : σ}
    (h : root.toList.foldlM enu ctx = some r) :
    (if root.isNil then some ctx else root.saTreeEnumerate (fun _ => 0) enu ctx) = some r := by
  rw [AVTree.saTreeEnumerate_all, h]
  cases root with
  | nil => exact h
  | node l e st r => rfl

theorem TagStore.copyEnumCb_eq (dest : Nat) : copyEnumCb dest = mergeEnumCb dest true := by
  funext ctx entry
  simp [copyEnumCb, mergeEnumCb]

/-- `metadata_tags_copy` -/
theorem Refines.copy_spec (hs : Refines s ms) {src : Nat} {m : TagMap} (hm : ms[src]? = some m) :
    ∃ s', s.copy src = some (some ms.length, s') ∧ Refines s' (ms ++ [m]) := by
  obtain ⟨tags, htags, hholds⟩ := hs.container hm
  have hnew : (s.containers ++ [MetadataTags.create])[s.containers.length]? = some .create :=
    List.getElem?_concat_length
  have hempty : (ms ++ [(∅ : TagMap)])[s.containers.length]? = some ∅ := by
    rw [hs.length]
    exact List.getElem?_concat_length
  obtain ⟨s', hrun, hrefines⟩ := hs.create.merge_other hempty hholds
    (fun t ht a _ hin => by
      dsimp only at ht
      rw [hnew] at ht
      cases ht
      cases hin) true
  rw [if_pos rfl, Finmap.union_empty, hs.length, List.set_append_right _ _ le_rfl,
    Nat.sub_self] at hrefines
  refine ⟨s', ?_, hrefines⟩
  unfold TagStore.copy
  rw [htags]
  dsimp only
  rw [TagStore.copyEnumCb_eq, enumerate_of_foldlM hrun, Option.bind_some, if_neg (by simp),
    hs.length]

/-- `metadata_tags_merge` -/
theorem Refines.merge_spec (hs : Refines s ms) {dest src : Nat} {d m : TagMap}
    (hd : ms[dest]? = some d) (hm : ms[src]? = some m) (overwrite : Bool) :
    ∃ s', s.merge dest src overwrite = some (0, s') ∧
      Refines s' (ms.set dest (if overwrite then m ∪ d else d ∪ m)) := by
  obtain ⟨dtags, hdtags, -⟩ := hs.container hd
  obtain ⟨tags, htags, hholds⟩ := hs.container hm
  have hmerge : ∃ s', tags.root.toList.foldlM (TagStore.mergeEnumCb dest overwrite) (s, 0) =
        some (s', 0) ∧
      Refines s' (ms.set dest (if overwrite then m ∪ d else d ∪ m)) := by
    by_cases hself : src = dest
    · subst hself
      rw [hm] at hd
      cases hd
      refine ⟨s, merge_self htags hholds overwrite fun _ ha => ha, ?_⟩
      have hunion : d ∪ d = d := by
        refine Finmap.ext_lookup fun k => Option.ext fun v => ?_
        rw [show (d ∪ d).lookup k = some v ↔ _ from Finmap.mem_lookup_union]
        exact ⟨fun h => h.elim id And.right, Or.inl⟩
      rw [hunion, ite_self]
      obtain ⟨hlt, rfl⟩ := List.getElem?_eq_some_iff.1 hm
      rwa [List.set_getElem_self]
    · exact hs.merge_other hd hholds
        (fun t ht a ha => hs.apart src dest tags t hself htags ht a ha) overwrite
  obtain ⟨s', hrun, hrefines⟩ := hmerge
  refine ⟨s', ?_, hrefines⟩
  unfold TagStore.merge
  rw [hdtags, htags]
  dsimp only
  have henum := enumerate_of_foldlM hrun
  split
  · next hnil =>
    rw [if_pos hnil] at henum
    cases henum
    rfl
  · next hnil =>
    rw [if_neg hnil] at henum
    rw [henum, Option.map_some]

/-- A call does on the store what it does on the maps. -/
theorem Refines.run (hs : Refines s ms) (call : TagCall) :
    ∃ s', call.run s = some ((call.onMaps ms).1, s') ∧ Refines s' (call.onMaps ms).2 := by
  cases call with
  | create => exact ⟨_, by simp [TagCall.run, TagCall.onMaps, hs.length], hs.create⟩
  | set i key value =>
    unfold TagCall.run TagCall.onMaps
    dsimp only
    cases hm : ms[i]? with
    | none =>
      refine ⟨s, ?_, hs⟩
      rw [TagStore.set, hs.none_iff.2 hm]
      rfl
    | some m =>
      by_cases hkey : key.bytes = []
      · obtain ⟨tags, htags, -⟩ := hs.container hm
        simp only [if_pos hkey]
        refine ⟨s, ?_, hs⟩
        obtain ⟨hlt, rfl⟩ := List.getElem?_eq_some_iff.1 htags
        rw [TagStore.set, htags]
        dsimp only
        rw [MetadataTags.set, if_pos hkey]
        simp
      · obtain ⟨tags, h', tags', -, hset, hrefines, -⟩ := hs.set_spec hm hkey value
        simp only [if_neg hkey]
        exact ⟨_, by rw [hset]; rfl, hrefines⟩
  | remove i key =>
    unfold TagCall.run TagCall.onMaps
    dsimp only
    cases hm : ms[i]? with
    | none =>
      refine ⟨s, ?_, hs⟩
      rw [TagStore.remove, hs.none_iff.2 hm]
      rfl
    | some m =>
      obtain ⟨tags, htags, hholds⟩ := hs.container hm
      rw [TagStore.remove, htags]
      by_cases hkey : key ∈ m
      · obtain ⟨h', tags', hremove, hholds', hconf⟩ := hholds.remove hkey
        dsimp only
        rw [hremove, if_pos hkey]
        exact ⟨_, rfl, hs.update htags hholds' hconf⟩
      · dsimp only
        rw [hholds.remove_missing hkey, if_neg hkey]
        refine ⟨s, ?_, hs⟩
        obtain ⟨hlt, rfl⟩ := List.getElem?_eq_some_iff.1 htags
        simp
  | clear i =>
    unfold TagCall.run TagCall.onMaps
    dsimp only
    cases htags : s.containers[i]? with
    | none =>
      refine ⟨s, ?_, ?_⟩
      · rw [TagStore.clear, htags]
        rfl
      · rwa [List.set_eq_of_length_le]
        exact hs.length ▸ List.getElem?_eq_none_iff.1 htags
    | some tags =>
      obtain ⟨h', tags', hclear, hholds, hconf⟩ := MetadataTags.clear_spec s.heap tags
      rw [TagStore.clear, htags]
      dsimp only
      rw [hclear]
      exact ⟨_, rfl, hs.update htags hholds hconf⟩
  | copy src =>
    unfold TagCall.run TagCall.onMaps
    dsimp only
    cases hm : ms[src]? with
    | none =>
      refine ⟨s, ?_, hs⟩
      rw [TagStore.copy, hs.none_iff.2 hm]
      rfl
    | some m =>
      obtain ⟨s', hcopy, hrefines⟩ := hs.copy_spec hm
      exact ⟨s', by rw [hcopy]; rfl, hrefines⟩
  | merge dest src overwrite =>
    unfold TagCall.run TagCall.onMaps
    dsimp only
    cases hd : ms[dest]? with
    | none =>
      refine ⟨s, ?_, hs⟩
      rw [TagStore.merge, hs.none_iff.2 hd]
      rfl
    | some d =>
      obtain ⟨dtags, hdtags, -⟩ := hs.container hd
      cases hm : ms[src]? with
      | none =>
        refine ⟨s, ?_, hs⟩
        rw [TagStore.merge, hdtags, hs.none_iff.2 hm]
        rfl
      | some m =>
        obtain ⟨s', hmerge, hrefines⟩ := hs.merge_spec hd hm overwrite
        exact ⟨s', by rw [hmerge]; rfl, hrefines⟩

theorem Refines.runTagCalls (hs : Refines s ms) (calls : List TagCall) :
    ∃ s', Dsdpipe.runTagCalls s calls = some ((mapTagCalls ms calls).1, s') ∧
      Refines s' (mapTagCalls ms calls).2 := by
  induction calls generalizing s ms with
  | nil => exact ⟨s, rfl, hs⟩
  | cons call calls ih =>
    obtain ⟨s', hrun, hrefines⟩ := hs.run call
    obtain ⟨s'', hrest, hfinal⟩ := ih hrefines
    refine ⟨s'', ?_, hfinal⟩
    unfold Dsdpipe.runTagCalls
    rw [hrun, Option.bind_some, hrest, Option.map_some]
    rfl

end Store

/-- Whatever is called, the answers are those of the maps, and so is what the containers hold
in the end. -/
theorem tags_finite_maps (calls : List TagCall) :
    ∃ s, runTagCalls .empty calls = some ((mapTagCalls [] calls).1, s) ∧
      s.containers.length = (mapTagCalls [] calls).2.length ∧
      ∀ (i : Nat) (tags : MetadataTags) (m : TagMap), s.containers[i]? = some tags →
        (mapTagCalls [] calls).2[i]? = some m → AnswersAs s.heap tags m := by
  obtain ⟨s, hrun, hrefines⟩ := refines_empty.runTagCalls calls
  exact ⟨s, hrun, hrefines.length, fun i tags m htags hm =>
    (hrefines.holds i tags m htags hm).answersAs⟩

end DsdNexus.Dsdpipe
