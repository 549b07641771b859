import DsdNexus.Dsdpipe.MetadataTags
import Mathlib.Data.Finmap
import Mathlib.Data.List.Sort

/-! # Metadata tags as finite maps

A container on the heap stands for a finite map from keys to values. Calls do on the maps what
they do on the containers, whichever order they come in.
-/

namespace DsdNexus.Dsdpipe

/-! ## The order of `strcmp` -/

namespace CString

/-- The values of the bytes. -/
def codes (s : CString) : List Nat := s.bytes.map UInt8.toNat

theorem codes_injective : Function.Injective codes := by
  intro s t h
  have hbytes : s.bytes = t.bytes :=
    List.map_injective_iff.2 (fun a b hab => UInt8.toNat_inj.1 hab) h
  cases s
  cases t
  congr

instance : LinearOrder CString := LinearOrder.lift' codes codes_injective

theorem lt_iff {s t : CString} : s < t ↔ s.codes < t.codes := Iff.rfl

end CString

theorem strcmp_swap (a b : Bytes) : strcmp b a = -strcmp a b := by
  induction a generalizing b with
  | nil => cases b <;> simp [strcmp]
  | cons x a ih =>
    cases b with
    | nil => simp [strcmp]
    | cons y b =>
      unfold strcmp
      by_cases hxy : x = y
      · rw [if_pos hxy, if_pos hxy.symm, ih]
      · rw [if_neg hxy, if_neg (Ne.symm hxy), Int.neg_sub]

theorem strcmp_neg_iff {a b : Bytes} (hb : 0 ∉ b) :
    strcmp a b < 0 ↔ a.map UInt8.toNat < b.map UInt8.toNat := by
  induction a generalizing b with
  | nil =>
    cases b with
    | nil => simp [strcmp]
    | cons y b =>
      have hy : y.toNat ≠ 0 := fun h =>
        have hzero : 0 = y := UInt8.toNat_inj.1 h.symm
        hb (List.mem_cons.2 (Or.inl hzero))
      simp only [strcmp, List.map_nil, List.map_cons, List.nil_lt_cons, iff_true]
      omega
  | cons x a ih =>
    cases b with
    | nil =>
      simp only [strcmp, List.map_nil, List.map_cons, List.not_lt_nil, iff_false]
      omega
    | cons y b =>
      simp only [List.mem_cons, not_or] at hb
      rw [List.map_cons, List.map_cons, List.cons_lt_cons_iff]
      unfold strcmp
      by_cases hxy : x = y
      · subst hxy
        simp [ih hb.2]
      · have hne : x.toNat ≠ y.toNat := fun h => hxy (UInt8.toNat_inj.1 h)
        simp only [if_neg hxy, hne, false_and, or_false]
        omega

theorem strcmp_lt_iff (s t : CString) : strcmp s.bytes t.bytes < 0 ↔ s < t :=
  strcmp_neg_iff t.noNul

theorem strcmp_gt_iff (s t : CString) : 0 < strcmp s.bytes t.bytes ↔ t < s := by
  rw [← strcmp_lt_iff, strcmp_swap s.bytes t.bytes]
  omega

theorem TagHeap.comparesBy (h : TagHeap) : AVTree.ComparesBy h.tagEntryCmp h.key :=
  ⟨fun _ _ => strcmp_lt_iff _ _, fun _ _ => strcmp_gt_iff _ _⟩

/-! ## The maps -/

/-- What a container is for. -/
abbrev TagMap := Finmap fun _ : CString => CString

/-- The container stands for the map. -/
structure Holds (h : TagHeap) (tags : MetadataTags) (m : TagMap) : Prop where
  balanced : tags.root.Balanced
  ordered : tags.root.Ordered h.key
  fresh : ∀ a ∈ tags.root.toList, a < h.fresh
  live : ∀ a ∈ tags.root.toList, ∃ e, h.entries a = some e ∧ e.key.bytes ≠ []
  count : tags.count = tags.root.toList.length
  lookup : ∀ k v, m.lookup k = some v ↔ ∃ a ∈ tags.root.toList, h.entries a = some ⟨k, v⟩

/-- A change of the heap that is one of a single container. -/
structure Confined (h h' : TagHeap) (old new : MetadataTags) : Prop where
  fresh : h.fresh ≤ h'.fresh
  frame : ∀ a < h.fresh, a ∉ old.root.toList → h'.entries a = h.entries a
  taken : ∀ a ∈ new.root.toList, a ∈ old.root.toList ∨ h.fresh ≤ a

section Container

variable {h h' : TagHeap} {tags tags' : MetadataTags} {m : TagMap} {key value : CString}

theorem TagHeap.key_eq {e : TagEntry} {a : Nat} (he : h.entries a = some e) : h.key a = e.key := by
  unfold TagHeap.key
  rw [he]

theorem TagHeap.key_congr {a b : Nat} (he : h'.entries a = h.entries b) : h'.key a = h.key b := by
  unfold TagHeap.key
  rw [he]

theorem Confined.refl (h : TagHeap) (tags : MetadataTags) : Confined h h tags tags :=
  ⟨le_rfl, fun _ _ _ => rfl, fun _ ha => Or.inl ha⟩

theorem ordered_congr {t : AVTree Nat} {f g : Nat → CString} (hfg : ∀ a ∈ t.toList, f a = g a)
    (ht : t.Ordered f) : t.Ordered g := by
  refine List.Pairwise.imp_of_mem (fun ha hb hab => ?_) ht
  rwa [← hfg _ ha, ← hfg _ hb]

/-- Nothing else on the heap matters to a container. -/
theorem Holds.frame (hm : Holds h tags m) (hfresh : h.fresh ≤ h'.fresh)
    (hframe : ∀ a ∈ tags.root.toList, h'.entries a = h.entries a) : Holds h' tags m where
  balanced := hm.balanced
  ordered := ordered_congr (fun a ha => (TagHeap.key_congr (hframe a ha)).symm) hm.ordered
  fresh := fun a ha => (hm.fresh a ha).trans_le hfresh
  live := fun a ha => by
    rw [hframe a ha]
    exact hm.live a ha
  count := hm.count
  lookup := fun k v => by
    rw [hm.lookup]
    constructor
    · rintro ⟨a, ha, he⟩
      exact ⟨a, ha, (hframe a ha).trans he⟩
    · rintro ⟨a, ha, he⟩
      exact ⟨a, ha, (hframe a ha).symm.trans he⟩

theorem Holds.create (h : TagHeap) : Holds h .create ∅ where
  balanced := trivial
  ordered := List.Pairwise.nil
  fresh := nofun
  live := nofun
  count := rfl
  lookup := fun k v => by
    simp [MetadataTags.create]

theorem Holds.find_eq (hm : Holds h tags m) (key : CString) :
    tags.find h key = tags.root.toList.find? fun a => h.key a = key := by
  have hfind := AVTree.saTreeFind_eq (c := fun a => strcmp key.bytes (h.key a).bytes)
    (fun _ => strcmp_lt_iff _ _) (fun _ => strcmp_gt_iff _ _) hm.ordered fun _ => none
  exact hfind.trans (by congr!)

theorem Holds.find_eq_some (hm : Holds h tags m) {a : Nat} :
    tags.find h key = some a ↔ a ∈ tags.root.toList ∧ h.key a = key := by
  rw [hm.find_eq]
  constructor
  · intro hfind
    exact ⟨List.mem_of_find?_eq_some hfind, by simpa using List.find?_some hfind⟩
  · rintro ⟨ha, rfl⟩
    cases hfind : tags.root.toList.find? fun b => h.key b = h.key a with
    | none => simpa using List.find?_eq_none.1 hfind a ha
    | some b =>
      have hb : h.key b = h.key a := by simpa using List.find?_some hfind
      rw [hm.ordered.eq_of_key_eq (List.mem_of_find?_eq_some hfind) ha hb]

theorem Holds.find_eq_none (hm : Holds h tags m) :
    tags.find h key = none ↔ ∀ a ∈ tags.root.toList, h.key a ≠ key := by
  rw [hm.find_eq, List.find?_eq_none]
  simp

/-- The entry with a key of the map. -/
theorem Holds.entry (hm : Holds h tags m) {a : Nat} (ha : a ∈ tags.root.toList) :
    ∃ v, h.entries a = some ⟨h.key a, v⟩ ∧ m.lookup (h.key a) = some v := by
  obtain ⟨⟨k, v⟩, he, -⟩ := hm.live a ha
  have hk := TagHeap.key_eq he
  subst hk
  exact ⟨v, he, (hm.lookup _ _).2 ⟨a, ha, he⟩⟩

theorem Holds.mem_iff (hm : Holds h tags m) : key ∈ m ↔ ∃ a ∈ tags.root.toList, h.key a = key := by
  rw [Finmap.mem_iff]
  constructor
  · rintro ⟨v, hv⟩
    obtain ⟨a, ha, he⟩ := (hm.lookup _ _).1 hv
    exact ⟨a, ha, TagHeap.key_eq he⟩
  · rintro ⟨a, ha, rfl⟩
    obtain ⟨v, -, hv⟩ := hm.entry ha
    exact ⟨v, hv⟩

theorem Holds.key_ne_nil (hm : Holds h tags m) (hkey : key ∈ m) : key.bytes ≠ [] := by
  obtain ⟨a, ha, rfl⟩ := hm.mem_iff.1 hkey
  obtain ⟨e, he, hne⟩ := hm.live a ha
  rwa [TagHeap.key_eq he]

/-- A set of a key that is there. -/
theorem Holds.setValue (hm : Holds h tags m) {a : Nat} (ha : a ∈ tags.root.toList)
    (hkey : h.key a = key) (value : CString) :
    Holds (h.setValue a value) tags (m.insert key value) := by
  obtain ⟨v, he, -⟩ := hm.entry ha
  rw [hkey] at he
  have hkeys : ∀ b, (h.setValue a value).key b = h.key b := by
    intro b
    by_cases hb : b = a
    · subst hb
      rw [hkey]
      exact TagHeap.key_eq (e := ⟨key, value⟩) (by simp [TagHeap.setValue, he])
    · exact TagHeap.key_congr (by simp [TagHeap.setValue, hb])
  refine ⟨hm.balanced, ordered_congr (fun b _ => (hkeys b).symm) hm.ordered, hm.fresh, ?_,
    hm.count, fun k v' => ?_⟩
  · intro b hb
    obtain ⟨e, heb, hne⟩ := hm.live b hb
    by_cases hba : b = a
    · subst hba
      exact ⟨⟨key, value⟩, by simp [TagHeap.setValue, he], by rwa [← hkey, TagHeap.key_eq heb]⟩
    · exact ⟨e, by simp [TagHeap.setValue, hba, heb], hne⟩
  · by_cases hk : k = key
    · subst hk
      rw [Finmap.lookup_insert, Option.some.injEq]
      constructor
      · rintro rfl
        exact ⟨a, ha, by simp [TagHeap.setValue, he]⟩
      · rintro ⟨b, hb, heb⟩
        have hba : b = a :=
          hm.ordered.eq_of_key_eq hb ha (by rw [hkey, ← hkeys, TagHeap.key_eq heb])
        subst hba
        simp [TagHeap.setValue, he] at heb
        exact heb
    · rw [Finmap.lookup_insert_of_ne _ hk, hm.lookup]
      refine exists_congr fun b => and_congr_right fun hb => ?_
      by_cases hba : b = a
      · subst hba
        simp [TagHeap.setValue, he, Ne.symm hk]
      · simp [TagHeap.setValue, hba]

theorem TagHeap.entries_create (h : TagHeap) (key value : CString) (a : Nat) :
    (h.create key value).entries a = if a = h.fresh then some ⟨key, value⟩ else h.entries a := rfl

/-- A set of a new key. -/
theorem Holds.insert (hm : Holds h tags m) (hkey : key.bytes ≠ []) (hnew : key ∉ m)
    (value : CString) :
    ∃ root ret, tags.root.saTreeInsert (h.create key value).tagEntryCmp h.fresh true =
        some (root, ret, false) ∧
      Holds (h.create key value) ⟨root, tags.count + 1⟩ (m.insert key value) ∧
      ∀ a ∈ root.toList, a ∈ tags.root.toList ∨ a = h.fresh := by
  have hframe : ∀ a ∈ tags.root.toList, (h.create key value).entries a = h.entries a := by
    intro a ha
    rw [TagHeap.entries_create, if_neg (hm.fresh a ha).ne]
  have hheld : Holds (h.create key value) tags m := hm.frame (Nat.le_succ _) hframe
  have hentry : (h.create key value).entries h.fresh = some ⟨key, value⟩ := by
    rw [TagHeap.entries_create, if_pos rfl]
  have hfresh : (h.create key value).key h.fresh = key := TagHeap.key_eq hentry
  obtain ⟨root, ret, hrun, hbalanced, -, xs, ys, hxs, hys, hbefore, hbehind⟩ :=
    AVTree.saTreeInsert_new (k := h.fresh) (h.create key value).comparesBy hheld.balanced
      hheld.ordered fun a ha hne => hnew (hheld.mem_iff.2 ⟨a, ha, hne.trans hfresh⟩)
  have hmem : ∀ a, a ∈ root.toList ↔ a ∈ tags.root.toList ∨ a = h.fresh := by
    intro a
    rw [hys, hxs]
    simp only [List.mem_append, List.mem_cons]
    tauto
  refine ⟨root, ret, hrun, ⟨hbalanced, ?_, fun a ha => ?_, fun a ha => ?_, ?_, fun k v => ?_⟩,
    fun a ha => (hmem a).1 ha⟩
  · have hold := hheld.ordered
    unfold AVTree.Ordered at hold ⊢
    rw [hxs, List.pairwise_append] at hold
    rw [hys, List.pairwise_append, List.pairwise_cons]
    refine ⟨hold.1, ⟨hbehind, hold.2.1⟩, fun a ha b hb => ?_⟩
    rcases List.mem_cons.1 hb with rfl | hb
    · exact hbefore a ha
    · exact hold.2.2 a ha b hb
  · rcases (hmem a).1 ha with ha | rfl
    · exact hheld.fresh a ha
    · exact Nat.lt_succ_self _
  · rcases (hmem a).1 ha with ha | rfl
    · exact hheld.live a ha
    · exact ⟨_, hentry, hkey⟩
  · rw [hys, hm.count, hxs]
    simp only [List.length_append, List.length_cons]
    omega
  · by_cases hk : k = key
    · subst hk
      rw [Finmap.lookup_insert, Option.some.injEq]
      constructor
      · rintro rfl
        exact ⟨h.fresh, (hmem _).2 (Or.inr rfl), hentry⟩
      · rintro ⟨a, ha, he⟩
        rcases (hmem a).1 ha with ha | rfl
        · exact absurd (hheld.mem_iff.2 ⟨a, ha, TagHeap.key_eq he⟩) hnew
        · rw [hentry] at he
          cases he
          rfl
    · rw [Finmap.lookup_insert_of_ne _ hk, hheld.lookup]
      constructor
      · rintro ⟨a, ha, he⟩
        exact ⟨a, (hmem a).2 (Or.inl ha), he⟩
      · rintro ⟨a, ha, he⟩
        rcases (hmem a).1 ha with ha | rfl
        · exact ⟨a, ha, he⟩
        · rw [hentry] at he
          cases he
          exact absurd rfl hk

/-- `metadata_tags_set` -/
theorem Holds.set (hm : Holds h tags m) (hkey : key.bytes ≠ []) (value : CString) :
    ∃ h' tags', tags.set h key value = some (0, h', tags') ∧
      Holds h' tags' (m.insert key value) ∧ Confined h h' tags tags' := by
  unfold MetadataTags.set
  rw [if_neg hkey]
  cases hfind : tags.find h key with
  | some a =>
    obtain ⟨ha, hak⟩ := hm.find_eq_some.1 hfind
    refine ⟨_, _, rfl, hm.setValue ha hak value, le_rfl, fun b _ hb => ?_, fun b hb => Or.inl hb⟩
    have hba : b ≠ a := fun h => hb (h ▸ ha)
    simp [TagHeap.setValue, hba]
  | none =>
    have hnew : key ∉ m := fun hmem => by
      obtain ⟨a, ha, hak⟩ := hm.mem_iff.1 hmem
      exact hm.find_eq_none.1 hfind a ha hak
    obtain ⟨root, ret, hrun, hholds, htaken⟩ := hm.insert hkey hnew value
    dsimp only
    rw [hrun]
    refine ⟨_, _, rfl, hholds, Nat.le_succ _, fun b hb _ => ?_, fun b hb => ?_⟩
    · rw [TagHeap.entries_create, if_neg hb.ne]
    · exact (htaken b hb).imp_right fun h => h.ge

/-- A set of the value that is there. -/
theorem Holds.set_same (hm : Holds h tags m) {a : Nat} {e : TagEntry}
    (ha : a ∈ tags.root.toList) (he : h.entries a = some e) :
    tags.set h e.key e.value = some (0, h, tags) := by
  have hkey := TagHeap.key_eq he
  have hne : e.key.bytes ≠ [] := hm.key_ne_nil (hm.mem_iff.2 ⟨a, ha, hkey⟩)
  have hsame : h.setValue a e.value = h := by
    unfold TagHeap.setValue
    congr 1
    funext b
    by_cases hb : b = a
    · simp [hb, he]
    · simp [hb]
  unfold MetadataTags.set
  rw [if_neg hne, hm.find_eq_some.2 ⟨ha, hkey⟩]
  dsimp only
  rw [hsame]

/-- `metadata_tags_remove` of a key that is there. -/
theorem Holds.remove (hm : Holds h tags m) (hkey : key ∈ m) :
    ∃ h' tags', tags.remove h key = some (0, h', tags') ∧
      Holds h' tags' (m.erase key) ∧ Confined h h' tags tags' := by
  obtain ⟨a, ha, rfl⟩ := hm.mem_iff.1 hkey
  obtain ⟨root, ret, hrun, hbalanced, -, xs, b, ys, hxs, hb, hys⟩ :=
    AVTree.saTreeInsert_remove h.comparesBy hm.balanced hm.ordered ⟨a, ha, rfl⟩
  obtain rfl : b = a := hm.ordered.eq_of_key_eq (by rw [hxs]; simp) ha hb
  have hord := hm.ordered
  unfold AVTree.Ordered at hord
  rw [hxs, List.pairwise_append, List.pairwise_cons] at hord
  have hout : ∀ c ∈ root.toList, c ∈ tags.root.toList ∧ c ≠ b := by
    intro c hc
    rw [hys, List.mem_append] at hc
    rw [hxs]
    rcases hc with hc | hc
    · exact ⟨by simp [hc], fun h => (hord.2.2 c hc b (by simp)).ne (by rw [h])⟩
    · exact ⟨by simp [hc], fun h => (hord.2.1.1 c hc).ne (by rw [h])⟩
  have hin : ∀ c ∈ tags.root.toList, c ≠ b → c ∈ root.toList := by
    intro c hc hcb
    rw [hxs] at hc
    rw [hys]
    simp only [List.mem_append, List.mem_cons] at hc ⊢
    tauto
  have hfree : ∀ c, c ≠ b → (h.free b).entries c = h.entries c := by
    intro c hc
    simp [TagHeap.free, hc]
  unfold MetadataTags.remove
  rw [if_neg (hm.key_ne_nil hkey), hm.find_eq_some.2 ⟨ha, rfl⟩]
  dsimp only
  rw [hrun]
  refine ⟨_, _, rfl, ⟨hbalanced, ?_, fun c hc => hm.fresh c (hout c hc).1, fun c hc => ?_, ?_,
    fun k v => ?_⟩, le_rfl, fun c _ hc => hfree c fun h => hc (h ▸ ha),
    fun c hc => Or.inl (hout c hc).1⟩
  · refine ordered_congr (fun c hc => (TagHeap.key_congr (hfree c (hout c hc).2)).symm) ?_
    unfold AVTree.Ordered
    rw [hys, List.pairwise_append]
    exact ⟨hord.1, hord.2.1.2, fun c hc d hd => hord.2.2 c hc d (List.mem_cons_of_mem _ hd)⟩
  · rw [hfree c (hout c hc).2]
    exact hm.live c (hout c hc).1
  · have hcount := hm.count
    rw [hxs] at hcount
    rw [hys]
    simp only [List.length_append, List.length_cons] at hcount ⊢
    omega
  · by_cases hk : k = h.key b
    · subst hk
      rw [Finmap.lookup_erase]
      refine ⟨nofun, ?_⟩
      rintro ⟨c, hc, he⟩
      rw [hfree c (hout c hc).2] at he
      exact absurd (hm.ordered.eq_of_key_eq (hout c hc).1 ha (TagHeap.key_eq he)) (hout c hc).2
    · rw [Finmap.lookup_erase_ne hk, hm.lookup]
      constructor
      · rintro ⟨c, hc, he⟩
        have hcb : c ≠ b := fun h => hk (by rw [← h, TagHeap.key_eq he])
        exact ⟨c, hin c hc hcb, (hfree c hcb).trans he⟩
      · rintro ⟨c, hc, he⟩
        rw [hfree c (hout c hc).2] at he
        exact ⟨c, (hout c hc).1, he⟩

theorem Holds.remove_missing (hm : Holds h tags m) (hkey : key ∉ m) :
    tags.remove h key = some (-1, h, tags) := by
  unfold MetadataTags.remove
  split
  · rfl
  · have hfind : tags.find h key = none :=
      hm.find_eq_none.2 fun a ha hak => hkey (hm.mem_iff.2 ⟨a, ha, hak⟩)
    rw [hfind]

/-- What is freed with a tree. -/
theorem freeAll_eq (h : TagHeap) (root : AVTree Nat) :
    ∃ h', MetadataTags.freeAll h root = some h' ∧ h'.fresh = h.fresh ∧
      ∀ a, a ∉ root.toList → h'.entries a = h.entries a := by
  unfold MetadataTags.freeAll
  rw [AVTree.saTreeEnumerate_all]
  generalize root.toList = as
  induction as generalizing h with
  | nil => exact ⟨h, rfl, rfl, fun _ _ => rfl⟩
  | cons b as ih =>
    obtain ⟨h', hrun, hfresh, hframe⟩ := ih (h.free b)
    refine ⟨h', hrun, hfresh, fun a ha => ?_⟩
    simp only [List.mem_cons, not_or] at ha
    rw [hframe a ha.2]
    simp [TagHeap.free, ha.1]

/-- `metadata_tags_clear` -/
theorem MetadataTags.clear_spec (h : TagHeap) (tags : MetadataTags) :
    ∃ h' tags', tags.clear h = some (h', tags') ∧ Holds h' tags' ∅ ∧ Confined h h' tags tags' := by
  unfold MetadataTags.clear
  obtain ⟨h', hfree, hfresh, hframe⟩ := freeAll_eq h tags.root
  cases hroot : tags.root with
  | nil =>
    exact ⟨h, ⟨.nil, 0⟩, rfl, Holds.create h, le_rfl, fun _ _ _ => rfl, nofun⟩
  | node l e st r =>
    rw [if_neg (by simp [AVTree.isNil]), ← hroot, hfree]
    exact ⟨h', _, rfl, Holds.create h', hfresh.ge, fun a _ ha => hframe a ha, nofun⟩

/-! ## The answers -/

/-- What a callback is called for and leaves, up to its first answer other than 0. -/
def visitUntil {σ : Type} (callback : σ → CString → CString → σ × Int) :
    σ → List (CString × CString) → σ
  | ctx, [] => ctx
  | ctx, p :: rest =>
    let r := callback ctx p.1 p.2
    if r.2 = 0 then visitUntil callback r.1 rest else r.1

/-- The container answers as the map. -/
structure AnswersAs (h : TagHeap) (tags : MetadataTags) (m : TagMap) : Prop where
  get : ∀ key, tags.get h key = m.lookup key
  has : ∀ key, tags.has h key = true ↔ key ∈ m
  count : tags.count = m.keys.card
  enumerate : ∃ pairs : List (CString × CString),
    pairs.Pairwise (fun p q => strcmp p.1.bytes q.1.bytes < 0) ∧
      (∀ k v, (k, v) ∈ pairs ↔ m.lookup k = some v) ∧
      ∀ {σ : Type} (ctx : σ) (callback : σ → CString → CString → σ × Int),
        tags.enumerate h ctx callback = some (visitUntil callback ctx pairs)

theorem Holds.get_eq (hm : Holds h tags m) (key : CString) : tags.get h key = m.lookup key := by
  unfold MetadataTags.get
  split
  · next hkey =>
    rw [eq_comm, Finmap.lookup_eq_none]
    exact fun hmem => hm.key_ne_nil hmem hkey
  · cases hfind : tags.find h key with
    | none =>
      rw [Option.bind_none, eq_comm, Finmap.lookup_eq_none]
      intro hmem
      obtain ⟨a, ha, hak⟩ := hm.mem_iff.1 hmem
      exact hm.find_eq_none.1 hfind a ha hak
    | some a =>
      obtain ⟨ha, rfl⟩ := hm.find_eq_some.1 hfind
      obtain ⟨v, he, hv⟩ := hm.entry ha
      rw [hv, Option.bind_some, he, Option.map_some]

/-- The entries at addresses, in their order. -/
def TagHeap.pairs (h : TagHeap) (as : List Nat) : List (CString × CString) :=
  (as.filterMap h.entries).map fun e => (e.key, e.value)

theorem mem_pairs {as : List Nat} {k v : CString} :
    (k, v) ∈ h.pairs as ↔ ∃ a ∈ as, h.entries a = some ⟨k, v⟩ := by
  unfold TagHeap.pairs
  simp only [List.mem_map, List.mem_filterMap]
  constructor
  · rintro ⟨⟨k', v'⟩, ⟨a, ha, he⟩, heq⟩
    cases heq
    exact ⟨a, ha, he⟩
  · rintro ⟨a, ha, he⟩
    exact ⟨⟨k, v⟩, ⟨a, ha, he⟩, rfl⟩

theorem pairs_cons {a : Nat} {as : List Nat} {e : TagEntry} (he : h.entries a = some e) :
    h.pairs (a :: as) = (e.key, e.value) :: h.pairs as := by
  unfold TagHeap.pairs
  rw [List.filterMap_cons, he, List.map_cons]

/-- The keys of the entries are those of the addresses. -/
theorem pairs_map_fst {as : List Nat} (hlive : ∀ a ∈ as, ∃ e, h.entries a = some e) :
    (h.pairs as).map Prod.fst = as.map h.key := by
  induction as with
  | nil => rfl
  | cons a as ih =>
    obtain ⟨e, he⟩ := hlive a (by simp)
    rw [pairs_cons he, List.map_cons, List.map_cons, ih fun b hb => hlive b (by simp [hb]),
      TagHeap.key_eq he]

/-- Once it has stopped, the callback is not called again. -/
theorem foldlM_enumUserCb_stopped {σ : Type} {callback : σ → CString → CString → σ × Int}
    (ctx : σ) (as : List Nat) :
    as.foldlM (MetadataTags.enumUserCb h callback) (ctx, true) = some (ctx, true) := by
  induction as with
  | nil => rfl
  | cons a as ih => exact ih

theorem foldlM_enumUserCb {σ : Type} (callback : σ → CString → CString → σ × Int) (ctx : σ)
    {as : List Nat} (hlive : ∀ a ∈ as, ∃ e, h.entries a = some e) :
    ∃ stopped, as.foldlM (MetadataTags.enumUserCb h callback) (ctx, false) =
      some (visitUntil callback ctx (h.pairs as), stopped) := by
  induction as generalizing ctx with
  | nil => exact ⟨false, rfl⟩
  | cons a as ih =>
    obtain ⟨e, he⟩ := hlive a (by simp)
    have hstep : MetadataTags.enumUserCb h callback (ctx, false) a =
        some ((callback ctx e.key e.value).1, decide ((callback ctx e.key e.value).2 ≠ 0)) := by
      simp [MetadataTags.enumUserCb, he]
    rw [List.foldlM_cons, hstep, pairs_cons he]
    unfold visitUntil
    by_cases hzero : (callback ctx e.key e.value).2 = 0
    · rw [if_pos hzero, hzero]
      exact ih _ fun b hb => hlive b (by simp [hb])
    · rw [if_neg hzero]
      simp only [hzero, ne_eq, not_false_iff, decide_true]
      exact ⟨true, foldlM_enumUserCb_stopped _ _⟩

theorem Holds.answersAs (hm : Holds h tags m) : AnswersAs h tags m where
  get := hm.get_eq
  has := fun key => by
    unfold MetadataTags.has
    rw [hm.get_eq, Finmap.lookup_isSome]
  count := by
    have hnodup : (tags.root.toList.map h.key).Nodup :=
      List.pairwise_map.2 (List.Pairwise.imp ne_of_lt hm.ordered)
    have hkeys : m.keys = (tags.root.toList.map h.key).toFinset := by
      ext k
      rw [Finmap.mem_keys, hm.mem_iff, List.mem_toFinset, List.mem_map]
    rw [hkeys, List.toFinset_card_of_nodup hnodup, List.length_map, hm.count]
  enumerate := by
    have hlive : ∀ a ∈ tags.root.toList, ∃ e, h.entries a = some e := fun a ha =>
      (hm.live a ha).imp fun _ he => he.1
    refine ⟨h.pairs tags.root.toList, ?_, fun k v => mem_pairs.trans (hm.lookup k v).symm,
      fun ctx callback => ?_⟩
    · have hsorted : ((h.pairs tags.root.toList).map Prod.fst).Pairwise (· < ·) := by
        rw [pairs_map_fst hlive]
        exact List.pairwise_map.2 hm.ordered
      exact (List.pairwise_map.1 hsorted).imp fun hlt => (strcmp_lt_iff _ _).2 hlt
    · unfold MetadataTags.enumerate
      obtain ⟨stopped, hrun⟩ := foldlM_enumUserCb callback ctx hlive
      rw [AVTree.saTreeEnumerate_all, hrun]
      cases tags.root with
      | nil => rfl
      | node l e st r => rfl

end Container

end DsdNexus.Dsdpipe
