import DsdNexus.Overlay.Listing
import DsdNexus.Overlay.WritePatch

/-! # Where a flush commits

The open reads the area and the track from the path inside the ISO and looks for the
stereo area first; the flush reads them again from the path the handle keeps, which starts
at the root and is cut off, and looks for the multi-channel area only.
-/

namespace DsdNexus.Overlay

open Vfs

/-! ## The life of a handle -/

/-- The calls on an open handle that reach its tag. -/
inductive FileOp where
  | write (r : WriteRequest)
  | flush (alloc : Bool) (steps : SaveSteps)

def FileOp.apply : Id3State × OverlayFile → FileOp → Id3State × OverlayFile
  | (s, file), .write r => (s, (overlayWrite file r).2)
  | (s, file), .flush alloc steps => overlayFlush s file alloc steps

/-- `sacd_vfs_set_id3_overlay` and the save behind it. -/
def commitTo (s : Id3State) (area : VfsArea) (trackNum : UInt8) (tag : Bytes) (alloc : Bool)
    (steps : SaveSteps) : Id3State :=
  let set := setId3Overlay s.ctx area trackNum.toNat tag alloc
  if set.1 = .ok then (saveId3Overlay steps { s with ctx := set.2 }).2 else { s with ctx := set.2 }

/-- A flush or a close makes what has been written the tag of one track, whatever the
state of the tags. -/
def CommitsTo (file : OverlayFile) (area : VfsArea) (trackNum : UInt8) : Prop :=
  ∀ (s : Id3State) (alloc : Bool) (steps : SaveSteps) (ending : Ending),
    finish s file alloc steps ending = commitTo s area trackNum file.id3WriteBuf alloc steps

/-- No call changes the path a handle keeps. -/
theorem FileOp.apply_vpath (p : Id3State × OverlayFile) (op : FileOp) :
    (op.apply p).2.vpath = p.2.vpath := by
  cases op with
  | write r =>
    rcases overlayWrite_spec p.2 r with ⟨-, hfile⟩ | ⟨-, hfile⟩
    · simp only [FileOp.apply, hfile]
    · simp only [FileOp.apply, hfile]
  | flush alloc steps =>
    simp only [FileOp.apply, overlayFlush]
    split <;> rfl

theorem foldl_apply_vpath (ops : List FileOp) (p : Id3State × OverlayFile) :
    (ops.foldl FileOp.apply p).2.vpath = p.2.vpath := by
  induction ops generalizing p with
  | nil => rfl
  | cons op ops ih => rw [List.foldl_cons, ih, FileOp.apply_vpath]

/-! ## The committed track -/

/-- A flush is a commit to the track it reads from its path, if that has a number. -/
theorem finish_of_dirty (s : Id3State) {file : OverlayFile} (hdirty : file.id3Dirty = true)
    (hbuf : file.id3WriteBuf ≠ []) (alloc : Bool) (steps : SaveSteps) (ending : Ending) :
    finish s file alloc steps ending =
      if (flushTarget file.vpath).2 = 0 then s
      else commitTo s (flushTarget file.vpath).1 (flushTarget file.vpath).2 file.id3WriteBuf alloc
        steps := by
  rw [finish_eq, overlayFlush, if_pos ⟨hdirty, hbuf⟩]
  rfl

/-- A disc with two areas and as many tracks as a byte can number, and no tags. -/
private def untagged : Id3State :=
  ⟨⟨⟨true, fun _ => true, fun _ => 255⟩, true, fun _ _ => .empty⟩, none⟩

/-- A save that finds no memory for its document. -/
private def noDocument : SaveSteps where
  docInit := false
  root := false
  areaNode := fun _ => false
  trackNode := fun _ _ => false
  base64 := fun _ _ => false
  id3Node := fun _ _ => false
  fopen := false
  printed := none
  remove := false

/-- What a commit leaves on the disc without tags is found in the entry of its track only. -/
private theorem id3Cache_commitTo_untagged (area : VfsArea) {t : UInt8} (ht : t ≠ 0)
    {tag : Bytes} (htag : tag ≠ []) (a : VfsArea) (i : Nat) :
    ((commitTo untagged area t tag true noDocument).ctx.id3Cache a i).data =
      if a = area ∧ i = t.toNat - 1 then some tag else none := by
  have hnum : t.toNat ≠ 0 := fun h => ht (UInt8.toNat_inj.1 h)
  have hcheck : checkTrack untagged.ctx area t.toNat = .ok := by
    have hlt := t.toNat_lt
    exact checkTrack_of_hasTrack rfl hnum ⟨rfl, show t.toNat - 1 < 255 by omega⟩
  have hset : setId3Overlay untagged.ctx area t.toNat tag true =
      (.ok, untagged.ctx.setEntry area (t.toNat - 1) ⟨some tag, true, true, false⟩) := by
    rw [setId3Overlay, if_neg (by simpa using htag), if_neg (by simp [hcheck])]
    rfl
  have hsave : ∀ s : Id3State, s.ctx.isOpen = true → s.ctx.sidecarPath = true →
      s.sidecar = none → (saveId3Overlay noDocument s).2 = s := by
    intro s hopen hpath hnone
    rw [saveId3Overlay, if_neg (by simp [hopen]), if_neg (by simp [hpath])]
    split
    · simp [noDocument]
    · rfl
  rw [commitTo, hset]
  simp only [if_true]
  rw [hsave _ rfl rfl rfl]
  simp only [VfsCtx.setEntry_id3Cache]
  split <;> rfl

/-- A flush commits to a track exactly when its own reading of the path gives that track. -/
theorem commitsTo_iff {file : OverlayFile} (hdirty : file.id3Dirty = true)
    (hbuf : file.id3WriteBuf ≠ []) (area : VfsArea) {t : UInt8} (ht : t ≠ 0) :
    CommitsTo file area t ↔ flushTarget file.vpath = (area, t) := by
  constructor
  · intro h
    have hsame := h untagged true noDocument .flush
    rw [finish_of_dirty _ hdirty hbuf] at hsame
    have hentry := congrArg (fun s => (s.ctx.id3Cache area (t.toNat - 1)).data) hsame
    simp only [id3Cache_commitTo_untagged area ht hbuf, and_self, if_true] at hentry
    split at hentry
    · cases hentry
    · next hnum =>
      rw [id3Cache_commitTo_untagged _ hnum hbuf] at hentry
      split at hentry
      · next hand =>
        have hpos : t.toNat ≠ 0 := fun hz => ht (UInt8.toNat_inj.1 hz)
        have hpos' : (flushTarget file.vpath).2.toNat ≠ 0 := fun hz => hnum (UInt8.toNat_inj.1 hz)
        have hsucc : (flushTarget file.vpath).2.toNat = t.toNat := by omega
        exact Prod.ext hand.1.symm (UInt8.toNat_inj.1 hsucc)
      · cases hentry
  · intro h s alloc steps ending
    rw [finish_of_dirty s hdirty hbuf, h, if_neg ht]

/-! ## The two readings of a path -/

/-- The path inside an ISO is what follows the display name, from a slash on. -/
theorem innerPathOf_spec {m : IsoMount} {path inner : Bytes} (h : innerPathOf m path = some inner) :
    slash ∈ inner ∧ ∃ dir, path = dir ++ inner := by
  obtain ⟨above, hrel⟩ : ∃ above, path = above ++
      (if (path.drop m.parentVpath.length).head? = some slash then
        (path.drop m.parentVpath.length).tail else path.drop m.parentVpath.length) := by
    have hpath := (List.take_append_drop m.parentVpath.length path).symm
    split
    · refine ⟨path.take (m.parentVpath.length + 1), ?_⟩
      rw [List.tail_drop, List.take_append_drop]
    · exact ⟨_, hpath⟩
  simp only [innerPathOf] at h
  generalize (if (path.drop m.parentVpath.length).head? = some slash then
    (path.drop m.parentVpath.length).tail else path.drop m.parentVpath.length) = rel at h hrel
  split at h
  · next hmem =>
    cases h
    refine ⟨?_, above ++ rel.takeWhile (· ≠ slash), ?_⟩
    · have hsplit := List.takeWhile_append_dropWhile (p := (· ≠ slash)) (l := rel)
      rw [← hsplit, List.mem_append] at hmem
      rcases hmem with hname | hinner
      · exact absurd (List.mem_takeWhile_imp hname) (by simp)
      · exact hinner
    · rw [List.append_assoc, List.takeWhile_append_dropWhile, ← hrel]
  · cases h

/-- The readings agree: a path that names the stereo area inside the ISO does not name the
other one anywhere in what the handle keeps of it, and what is cut off a path too long for
the handle changes neither the area nor the number. -/
def ReadAlike (path inner : Bytes) : Prop :=
  ¬ (strstr inner (areaName .stereo) = true ∧
      strstr (strlcpy path overlayMaxPath) (areaName .multichannel) = true) ∧
    (overlayMaxPath ≤ path.length →
      (strstr inner (areaName .stereo) = true ∨
        strstr (strlcpy path overlayMaxPath) (areaName .multichannel) = true) ∧
      scanTrackNum (baseName (strlcpy path overlayMaxPath)) = scanTrackNum (baseName path))

instance (path inner : Bytes) : Decidable (ReadAlike path inner) :=
  inferInstanceAs (Decidable (_ ∧ _))

/-- The areas agree. -/
theorem area_eq_iff (stored : Bytes) {inner : Bytes} {area : VfsArea}
    (h : pathArea inner = some area) :
    (if strstr stored (areaName .multichannel) then VfsArea.multichannel else .stereo) = area ↔
      ¬ (strstr inner (areaName .stereo) = true ∧ strstr stored (areaName .multichannel) = true) ∧
        (strstr inner (areaName .stereo) = true ∨
          strstr stored (areaName .multichannel) = true) := by
  unfold pathArea at h
  cases hmc : strstr stored (areaName .multichannel) with
  | true =>
    split at h
    · next hst =>
      cases h
      simp [hst]
    · next hst =>
      split at h
      · cases h
        simpa using hst
      · cases h
  | false =>
    split at h
    · next hst =>
      cases h
      simp [hst]
    · next hst =>
      split at h
      · cases h
        simpa using hst
      · cases h

theorem flushTarget_eq_iff {vfs : PathCtx} {path dir inner : Bytes} {opened : OpenFile}
    (hpath : path = dir ++ inner) (hinner : slash ∈ inner) (hopen : fileOpen vfs inner = .ok opened) :
    flushTarget (strlcpy path overlayMaxPath) = (opened.area, opened.trackNum) ↔
      ReadAlike path inner := by
  obtain ⟨harea, -, hscan, hnum, -⟩ := (fileOpen_ok_iff vfs inner opened).1 hopen
  have hbase : baseName path = baseName inner := by
    rw [hpath, baseName_append_of_mem dir hinner]
  have htrack : (scanTrackNum (baseName (strlcpy path overlayMaxPath))).getD 0 = opened.trackNum ↔
      scanTrackNum (baseName (strlcpy path overlayMaxPath)) = scanTrackNum (baseName path) := by
    rw [hbase, hscan]
    cases scanTrackNum (baseName (strlcpy path overlayMaxPath)) with
    | none =>
      simp only [Option.getD_none, reduceCtorEq, iff_false]
      exact fun h => hnum h.symm
    | some t => simp
  rw [flushTarget, Prod.mk.injEq, area_eq_iff _ harea, htrack, ReadAlike]
  by_cases hlen : path.length < overlayMaxPath
  · -- nothing is cut off, and the name of the area inside the ISO is in the whole path
    have hstored : strlcpy path overlayMaxPath = path := strlcpy_of_length_lt hlen
    have hone : strstr inner (areaName .stereo) = true ∨
        strstr path (areaName .multichannel) = true := by
      unfold pathArea at harea
      split at harea
      · next hst => exact Or.inl hst
      · split at harea
        · next hmc =>
          rw [hpath]
          exact Or.inr (strstr_append_left dir hmc)
        · cases harea
    simp only [hstored, hone, and_true, Nat.not_le.2 hlen, false_imp_iff]
  · simp only [Nat.not_lt.1 hlen, true_imp_iff]
    exact and_assoc

/-- Whatever has been written to a track of an ISO, a flush or a close commits it to the
track that was opened exactly when the two readings of the path agree. -/
theorem flush_commits_opened_iff {ctx : OverlayCtx} {fs : SourceFs} {path inner : Bytes}
    {m : IsoMount} (hpath : overlayOpen ctx fs path = .mount m (some inner)) {vfs : PathCtx}
    {opened : OpenFile} (hopen : fileOpen vfs inner = .ok opened) {writable : Bool}
    {s s' : Id3State} {file : OverlayFile} (ops : List FileOp)
    (hrun : ops.foldl FileOp.apply (s, .create path writable opened) = (s', file))
    (hdirty : file.id3Dirty = true) (hbuf : file.id3WriteBuf ≠ []) :
    CommitsTo file opened.area opened.trackNum ↔ ReadAlike path inner := by
  have hinner : innerPathOf m path = some inner := by
    unfold overlayOpen at hpath
    split at hpath
    · simp only [Target.mount.injEq] at hpath
      rw [← hpath.1]
      exact hpath.2
    · split at hpath
      · split at hpath <;> cases hpath
      · cases hpath
  obtain ⟨hslash, dir, hdir⟩ := innerPathOf_spec hinner
  have hvpath : file.vpath = strlcpy path overlayMaxPath := by
    have hkept := foldl_apply_vpath ops (s, .create path writable opened)
    rw [hrun] at hkept
    exact hkept
  have hnum : opened.trackNum ≠ 0 := ((fileOpen_ok_iff vfs inner opened).1 hopen).2.2.2.1
  rw [commitsTo_iff hdirty hbuf opened.area hnum, hvpath]
  exact flushTarget_eq_iff hdir hslash hopen

/-! ## A folder that names the other area -/

/-- An ISO of the given name in `/src`. -/
private def mountAs (name : Bytes) : IsoMount :=
  .create (ascii "/src/" ++ name ++ ascii ".iso") [slash] name

private def stereoTrackPath : Bytes := ascii "/Album/Stereo/01. Theme.dsf"

private def sourceCtx (name : Bytes) : OverlayCtx := ⟨ascii "/src", true, true, 0, [mountAs name]⟩

private theorem fileOpen_stereoTrack : fileOpen stereoMix stereoTrackPath = .ok oneTrackOpen :=
  (fileOpen_ok_iff stereoMix stereoTrackPath oneTrackOpen).2
    ⟨by decide, by decide, by decide, by decide, by decide, shortTrack, rfl, rfl⟩

private def writeByte : FileOp := .write (writeAt 16476 [9] (by decide) (by decide))

private def noTags : Id3State := .start oneTrackIso none

/-- The handle after one byte has been written to the metadata region. -/
private def oneByteWritten (path : Bytes) : OverlayFile :=
  ([writeByte].foldl FileOp.apply (noTags, .create path true oneTrackOpen)).2

/-- A disc whose name says nothing about areas. -/
theorem flush_commits_opened_disc :
    CommitsTo (oneByteWritten (ascii "/Disc" ++ stereoTrackPath)) .stereo 1 := by
  have hpath : overlayOpen (sourceCtx (ascii "Disc")) (fun _ => none)
      (ascii "/Disc" ++ stereoTrackPath) =
      .mount (mountAs (ascii "Disc")) (some stereoTrackPath) := by decide
  have hrun : [writeByte].foldl FileOp.apply
      (noTags, .create (ascii "/Disc" ++ stereoTrackPath) true oneTrackOpen) =
      (noTags, oneByteWritten (ascii "/Disc" ++ stereoTrackPath)) := rfl
  exact (flush_commits_opened_iff hpath fileOpen_stereoTrack _ hrun (by decide) (by decide)).2
    (by decide)

/-- The stereo track of a disc called `Multi-channel` is opened, and the flush goes to the
multi-channel area. -/
theorem multichannel_folder_not_commitsTo :
    overlayOpen (sourceCtx (ascii "Multi-channel")) (fun _ => none)
        (ascii "/Multi-channel" ++ stereoTrackPath) =
      .mount (mountAs (ascii "Multi-channel")) (some stereoTrackPath) ∧
    fileOpen stereoMix stereoTrackPath = .ok oneTrackOpen ∧
    (oneByteWritten (ascii "/Multi-channel" ++ stereoTrackPath)).id3Dirty = true ∧
    ¬ CommitsTo (oneByteWritten (ascii "/Multi-channel" ++ stereoTrackPath))
      oneTrackOpen.area oneTrackOpen.trackNum := by
  refine ⟨by decide, fileOpen_stereoTrack, by decide, ?_⟩
  rw [commitsTo_iff (by decide) (by decide) _ (by decide)]
  decide

end DsdNexus.Overlay
