import DsdNexus.Overlay.ListingResolves

/-! # One entry of a scan

What `_readdir_source_callback` makes of an entry: it shows the entry under its own name,
takes it for a disc, or passes over it. Which of the three does not depend on what has been
scanned before.
-/

namespace DsdNexus.Overlay

open Vfs

/-! ## Kinds of entries -/

/-- `full_path`. -/
def fullPathOf (source : Bytes) (e : DirEntry) : Bytes := source ++ slash :: e.name

/-- The callback looks at an entry: it is not one of the two dots, and its path fits. -/
def Considered (source : Bytes) (e : DirEntry) : Prop :=
  ¬ (e.name = ascii "." ∨ e.name = ascii "..") ∧
    source.length + 1 + e.name.length < overlayMaxPath

/-- An entry that is hidden for its extension. -/
def HasIsoName (ctx : OverlayCtx) (source : Bytes) (e : DirEntry) : Prop :=
  ¬ e.isDir ∧ isIsoFile ctx (fullPathOf source e)

/-- An entry that is shown under its own name. -/
def Shown (ctx : OverlayCtx) (source : Bytes) (e : DirEntry) : Prop :=
  Considered source e ∧ ¬ HasIsoName ctx source e ∧ ¬ isSidecarName e.name

/-- An entry that is shown as a folder. -/
def IsDisc (ctx : OverlayCtx) (fs : SourceFs) (source : Bytes) (e : DirEntry) : Prop :=
  Considered source e ∧ HasIsoName ctx source e ∧
    ((findIsoMount ctx (fullPathOf source e)).isSome ∨
      fs (fullPathOf source e) = some (.file true))

instance (source : Bytes) (e : DirEntry) : Decidable (Considered source e) :=
  inferInstanceAs (Decidable (_ ∧ _))

instance (ctx : OverlayCtx) (source : Bytes) (e : DirEntry) : Decidable (HasIsoName ctx source e) :=
  inferInstanceAs (Decidable (_ ∧ _))

instance (ctx : OverlayCtx) (source : Bytes) (e : DirEntry) : Decidable (Shown ctx source e) :=
  inferInstanceAs (Decidable (_ ∧ _))

instance (ctx : OverlayCtx) (fs : SourceFs) (source : Bytes) (e : DirEntry) :
    Decidable (IsDisc ctx fs source e) :=
  inferInstanceAs (Decidable (_ ∧ _))

section

variable {ctx ctx' : OverlayCtx} {fs : SourceFs} {dir source : Bytes} {scan : Scan} {e : DirEntry}

theorem Shown.not_isDisc (h : Shown ctx source e) : ¬ IsDisc ctx fs source e :=
  fun hdisc => h.2.1 hdisc.2.1

theorem scanEntry_of_shown (hsource : buildSourcePath scan.ctx dir = some source)
    (h : Shown scan.ctx source e) :
    scanEntry fs dir scan e =
      { scan with
        seen := e.name :: scan.seen
        listed := scan.listed ++ [.source e.name e.isDir] } := by
  obtain ⟨⟨hdots, hfits⟩, hiso, hsidecar⟩ := h
  unfold HasIsoName fullPathOf at hiso
  unfold scanEntry
  rw [if_neg hdots]
  simp only [hsource]
  rw [if_neg (by omega), if_neg hiso, if_neg hsidecar]

theorem scanEntry_of_isDisc (hsource : buildSourcePath scan.ctx dir = some source)
    (h : IsDisc scan.ctx fs source e) :
    scanEntry fs dir scan e = scanIso dir (fullPathOf source e) e scan := by
  obtain ⟨⟨hdots, hfits⟩, hiso, hdisc⟩ := h
  unfold HasIsoName fullPathOf at hiso
  unfold fullPathOf at hdisc ⊢
  unfold scanEntry
  rw [if_neg hdots]
  simp only [hsource]
  rw [if_neg (by omega), if_pos hiso, if_pos hdisc]

theorem scanEntry_of_neither (hsource : buildSourcePath scan.ctx dir = some source)
    (hshown : ¬ Shown scan.ctx source e) (hdisc : ¬ IsDisc scan.ctx fs source e) :
    scanEntry fs dir scan e = scan := by
  unfold scanEntry
  split
  · rfl
  next hdots =>
  simp only [hsource]
  split
  · rfl
  next hfits =>
  have hconsidered : Considered source e := ⟨hdots, by omega⟩
  split
  · next hiso =>
    rw [if_neg]
    exact fun hfound => hdisc ⟨hconsidered, hiso, hfound⟩
  · next hiso =>
    rw [if_pos]
    by_contra hsidecar
    exact hshown ⟨hconsidered, hiso, hsidecar⟩

/-! ## What a scan keeps -/

/-- Two contexts that differ in their mounts only. -/
def SameRules (ctx ctx' : OverlayCtx) : Prop := ctx' = { ctx with isoMounts := ctx'.isoMounts }

theorem SameRules.refl (ctx : OverlayCtx) : SameRules ctx ctx := rfl

theorem SameRules.trans {ctx'' : OverlayCtx} (h : SameRules ctx ctx') (h' : SameRules ctx' ctx'') :
    SameRules ctx ctx'' := by
  unfold SameRules at h h' ⊢
  rw [h', h]

theorem SameRules.buildSourcePath (h : SameRules ctx ctx') (vpath : Bytes) :
    buildSourcePath ctx' vpath = Overlay.buildSourcePath ctx vpath := by
  rw [h]
  rfl

theorem SameRules.isIsoFile (h : SameRules ctx ctx') (path : Bytes) :
    isIsoFile ctx' path = Overlay.isIsoFile ctx path := by
  rw [h]
  rfl

theorem SameRules.shown_iff (h : SameRules ctx ctx') : Shown ctx' source e ↔ Shown ctx source e := by
  simp only [Shown, HasIsoName, h.isIsoFile]

theorem getOrCreateIso_sameRules (ctx : OverlayCtx) (isoPath parent name : Bytes) (alloc : Bool) :
    SameRules ctx (getOrCreateIso ctx isoPath parent name alloc).2 := by
  rcases getOrCreateIso_cases ctx isoPath parent name alloc with ⟨m, -, -, heq⟩ | heq | ⟨-, heq⟩
  · rw [heq]
    exact SameRules.refl ctx
  · rw [heq]
    exact SameRules.refl ctx
  · rw [heq]
    rfl

theorem scanIso_sameRules (dir isoPath : Bytes) (e : DirEntry) (scan : Scan) :
    SameRules scan.ctx (scanIso dir isoPath e scan).ctx := by
  unfold scanIso
  split
  · exact SameRules.refl _
  · exact getOrCreateIso_sameRules _ _ _ _ _

theorem scanEntry_sameRules (hsource : buildSourcePath scan.ctx dir = some source) :
    SameRules scan.ctx (scanEntry fs dir scan e).ctx := by
  by_cases hshown : Shown scan.ctx source e
  · rw [scanEntry_of_shown hsource hshown]
    exact SameRules.refl _
  by_cases hdisc : IsDisc scan.ctx fs source e
  · rw [scanEntry_of_isDisc hsource hdisc]
    exact scanIso_sameRules _ _ _ _
  · rw [scanEntry_of_neither hsource hshown hdisc]
    exact SameRules.refl _

/-! ## The entries of the source -/

theorem source_mem_scanIso (dir isoPath : Bytes) (e : DirEntry) (scan : Scan) (name : Bytes)
    (isDir : Bool) :
    ListedEntry.source name isDir ∈ (scanIso dir isoPath e scan).listed ↔
      ListedEntry.source name isDir ∈ scan.listed := by
  unfold scanIso
  split
  · exact Iff.rfl
  · simp only
    split
    · simp
    · exact Iff.rfl

theorem source_mem_scanEntry (hsource : buildSourcePath scan.ctx dir = some source) (name : Bytes)
    (isDir : Bool) :
    ListedEntry.source name isDir ∈ (scanEntry fs dir scan e).listed ↔
      ListedEntry.source name isDir ∈ scan.listed ∨
        (Shown scan.ctx source e ∧ e.name = name ∧ e.isDir = isDir) := by
  by_cases hshown : Shown scan.ctx source e
  · rw [scanEntry_of_shown hsource hshown]
    simp [hshown, eq_comm]
  simp only [hshown, false_and, or_false]
  by_cases hdisc : IsDisc scan.ctx fs source e
  · rw [scanEntry_of_isDisc hsource hdisc]
    exact source_mem_scanIso _ _ _ _ _ _
  · rw [scanEntry_of_neither hsource hshown hdisc]

theorem source_mem_scan (hsource : buildSourcePath scan.ctx dir = some source)
    (entries : List DirEntry) (name : Bytes) (isDir : Bool) :
    ListedEntry.source name isDir ∈ (entries.foldl (scanEntry fs dir) scan).listed ↔
      ListedEntry.source name isDir ∈ scan.listed ∨
        ∃ e ∈ entries, Shown scan.ctx source e ∧ e.name = name ∧ e.isDir = isDir := by
  induction entries generalizing scan with
  | nil => simp
  | cons e entries ih =>
    have hrules : SameRules scan.ctx (scanEntry fs dir scan e).ctx := scanEntry_sameRules hsource
    rw [List.foldl_cons, ih (by rw [hrules.buildSourcePath, hsource]), source_mem_scanEntry hsource]
    simp only [hrules.shown_iff, List.exists_mem_cons_iff, or_assoc]

/-! ## A directory of the source -/

/-- A virtual path of a directory of the source, spelled without a slash at its end. -/
structure SourceDirectory (ctx : OverlayCtx) (fs : SourceFs) (dir source : Bytes) : Prop where
  source_eq : Overlay.buildSourcePath ctx dir = some source
  isDirectory : fs source = some .directory
  notMounted : findIsoByVpath ctx dir = none
  canonical : dir = [slash] ∨ dir.rdropWhile (· = slash) = dir

theorem SourceDirectory.readdir_eq (h : SourceDirectory ctx fs dir source)
    (entries : List DirEntry) :
    overlayReaddir ctx fs dir entries =
      ((entries.foldl (scanEntry fs dir) ⟨ctx, [], []⟩).listed,
        (entries.foldl (scanEntry fs dir) ⟨ctx, [], []⟩).ctx) := by
  simp only [overlayReaddir, h.notMounted, h.source_eq, h.isDirectory, if_true]

theorem SourceDirectory.source_mem_iff (h : SourceDirectory ctx fs dir source)
    (entries : List DirEntry) (name : Bytes) (isDir : Bool) :
    ListedEntry.source name isDir ∈ (overlayReaddir ctx fs dir entries).1 ↔
      ∃ e ∈ entries, Shown ctx source e ∧ e.name = name ∧ e.isDir = isDir := by
  rw [h.readdir_eq, source_mem_scan h.source_eq]
  simp

end

end DsdNexus.Overlay
