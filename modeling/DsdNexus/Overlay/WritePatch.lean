import DsdNexus.Lib.Patch
import DsdNexus.Overlay.Write
import DsdNexus.Vfs.Id3Overlay
import DsdNexus.Vfs.NamespaceConsistent

/-! # When writes patch the tag

The writes to a handle are held against the patch of the tag the track had. What is
staged is the ranges written into an empty buffer, so the tag keeps nothing of its own;
and it goes to the track the path names, which need not be the one that was opened.
-/

namespace DsdNexus.Overlay

open Vfs Patch

/-! ## Staged writes -/

/-- Where a request ends in the file. -/
def WriteRequest.writeEnd (r : WriteRequest) : Nat := r.offset + r.data.length

/-- The part of a request in the metadata region, counted from its start. -/
def WriteRequest.range (metadataOffset : Nat) (r : WriteRequest) : Range UInt8 :=
  (r.offset - metadataOffset, r.data.drop (metadataOffset - r.offset))

theorem WriteRequest.writeEnd_mod (r : WriteRequest) :
    (r.offset + r.data.length) % 2 ^ 64 = r.writeEnd := by
  have hoffset := r.offset_lt
  have hlength := r.length_lt
  exact Nat.mod_eq_of_lt (by omega)

theorem WriteRequest.range_of_writeEnd_le {r : WriteRequest} {metadataOffset : Nat}
    (h : r.writeEnd ≤ metadataOffset) : r.range metadataOffset = (0, []) := by
  unfold writeEnd at h
  have hdrop : r.data.drop (metadataOffset - r.offset) = [] := List.drop_eq_nil_of_le (by omega)
  have hoffset : r.offset - metadataOffset = 0 := by omega
  rw [range, hdrop, hoffset]

theorem stage_eq_overwrite (buf : Bytes) (r : Range UInt8) :
    stage buf r.1 r.2 = overwrite 0 buf r := by
  simp only [stage, overwrite, Range.finish]
  split
  · next hgrow =>
    have hleft : (buf ++ List.replicate (r.1 - buf.length) 0).drop (r.1 + r.2.length) = [] := by
      refine List.drop_eq_nil_of_le ?_
      simp only [List.length_append, List.length_replicate]
      omega
    have hright : buf.drop (r.1 + r.2.length) = [] := List.drop_eq_nil_of_le (by omega)
    rw [hleft, hright]
  · next hkeep =>
    have hgap : r.1 - buf.length = 0 := by omega
    rw [hgap, List.replicate_zero, List.append_nil]

/-- A write into the metadata region stages its range there. -/
theorem overlayWrite_of_lt {file : OverlayFile} {r : WriteRequest} (hwritable : file.writable = true)
    (hend : file.metadataOffset < r.writeEnd) :
    overlayWrite file r =
      if file.id3WriteBuf.length < (r.range file.metadataOffset).finish ∧ ¬ r.alloc then
        (.memory, file)
      else
        (.ok, { file with
          id3WriteBuf := overwrite 0 file.id3WriteBuf (r.range file.metadataOffset)
          id3Dirty := true }) := by
  have hstart : (if r.offset < file.metadataOffset then file.metadataOffset else r.offset) =
      max r.offset file.metadataOffset := by
    split <;> omega
  have hskip : max r.offset file.metadataOffset - r.offset = file.metadataOffset - r.offset := by
    omega
  have hoffset : max r.offset file.metadataOffset - file.metadataOffset =
      r.offset - file.metadataOffset := by
    omega
  have htake : (r.data.drop (file.metadataOffset - r.offset)).take
      (r.data.length - (file.metadataOffset - r.offset)) =
        r.data.drop (file.metadataOffset - r.offset) :=
    List.take_of_length_le (by rw [List.length_drop])
  simp only [overlayWrite, r.writeEnd_mod, hstart, hskip, hoffset, htake]
  rw [if_neg (by simp [hwritable]), if_neg (by omega), ← stage_eq_overwrite]
  rfl

/-- An accepted write overwrites its range in the buffer; a refused one changes nothing. -/
theorem overlayWrite_spec (file : OverlayFile) (r : WriteRequest) :
    (overlayWrite file r).1 ≠ .ok ∧ (overlayWrite file r).2 = file ∨
      (overlayWrite file r).1 = .ok ∧ (overlayWrite file r).2 = { file with
        id3WriteBuf := overwrite 0 file.id3WriteBuf (r.range file.metadataOffset)
        id3Dirty := file.id3Dirty || decide (file.metadataOffset < r.writeEnd) } := by
  by_cases hwritable : file.writable = true
  · by_cases hend : file.metadataOffset < r.writeEnd
    · rw [overlayWrite_of_lt hwritable hend]
      split
      · left
        simp
      · right
        simp [hend]
    · right
      have hle : r.writeEnd ≤ file.metadataOffset := by omega
      have hsame : overwrite 0 file.id3WriteBuf (r.range file.metadataOffset) =
          file.id3WriteBuf := by
        simp [WriteRequest.range_of_writeEnd_le hle, overwrite, Range.finish]
      rw [hsame, decide_eq_false hend, Bool.or_false]
      refine ⟨?_, ?_⟩
      · rw [overlayWrite, r.writeEnd_mod, if_neg (by simp [hwritable]), if_pos hle]
      · rw [overlayWrite, r.writeEnd_mod, if_neg (by simp [hwritable]), if_pos hle]
  · left
    simp [overlayWrite, hwritable]

/-- After a sequence of writes the buffer holds the accepted ranges. -/
theorem writeAll_snd (file : OverlayFile) (rs : List WriteRequest) :
    (writeAll file rs).2 = { file with
      id3WriteBuf := overwriteAll 0 file.id3WriteBuf
        ((writeAll file rs).1.map (·.range file.metadataOffset))
      id3Dirty := file.id3Dirty ||
        (writeAll file rs).1.any fun r => decide (file.metadataOffset < r.writeEnd) } := by
  induction rs generalizing file with
  | nil => simp [writeAll, overwriteAll]
  | cons r rs ih =>
    simp only [writeAll]
    rcases overlayWrite_spec file r with ⟨hrefused, hfile⟩ | ⟨hok, hfile⟩
    · rw [if_neg hrefused, hfile]
      exact ih file
    · rw [if_pos hok, ih, hfile]
      simp [overwriteAll, Bool.or_assoc]

/-! ## Tags -/

/-- The tag `sacd_vfs_get_id3_tag` returns when memory suffices, empty where it fails. -/
def tagOf (render : VfsArea → Nat → Bytes) (ctx : VfsCtx) (area : VfsArea) (trackNum : Nat) :
    Bytes :=
  (getId3Tag render ctx area trackNum ⟨true, true, true, true⟩).2.1

/-- The tag of an entry. -/
def entryTag (e : CacheEntry) (rendered : Bytes) : Bytes :=
  match e.valid, e.data with
  | true, some data => data
  | _, _ => rendered

theorem tagOf_eq {ctx : VfsCtx} {area : VfsArea} {trackNum : Nat}
    (h : checkTrack ctx area trackNum = .ok) (render : VfsArea → Nat → Bytes) :
    tagOf render ctx area trackNum =
      entryTag (ctx.id3Cache area (trackNum - 1)) (render area trackNum) := by
  cases hvalid : (ctx.id3Cache area (trackNum - 1)).valid with
  | false =>
    by_cases hempty : render area trackNum = []
    · simp [tagOf, getId3Tag, h, entryTag, hvalid, hempty]
    · simp [tagOf, getId3Tag, h, entryTag, hvalid, hempty]
  | true =>
    cases hdata : (ctx.id3Cache area (trackNum - 1)).data with
    | none =>
      by_cases hempty : render area trackNum = []
      · simp [tagOf, getId3Tag, h, entryTag, hvalid, hdata, hempty]
      · simp [tagOf, getId3Tag, h, entryTag, hvalid, hdata, hempty]
    | some data => simp [tagOf, getId3Tag, h, entryTag, hvalid, hdata]

/-- A save leaves every tag as it is. -/
theorem tagOf_save (render : VfsArea → Nat → Bytes) (steps : SaveSteps) (s : Id3State)
    {area : VfsArea} {trackNum : Nat} (h : checkTrack s.ctx area trackNum = .ok) :
    tagOf render (saveId3Overlay steps s).2.ctx area trackNum = tagOf render s.ctx area trackNum := by
  have hmark : tagOf render (markSaved steps s.ctx) area trackNum =
      tagOf render s.ctx area trackNum := by
    have hcheck : checkTrack (markSaved steps s.ctx) area trackNum = .ok := h
    rw [tagOf_eq hcheck, tagOf_eq h]
    simp only [markSaved, saveTrack, entryTag]
    split_ifs <;> rfl
  rcases saveId3Overlay_cases steps s with he | ⟨-, -, -, he⟩ |
    ⟨-, -, -, -, ⟨-, he⟩ | ⟨-, -, he⟩⟩
  · rw [he]
  · rw [he]
  · rw [he]
    exact hmark
  · rw [he]
    exact hmark

theorem tagOf_set (render : VfsArea → Nat → Bytes) {ctx : VfsCtx} {area : VfsArea} {trackNum : Nat}
    (h : checkTrack ctx area trackNum = .ok) (a : VfsArea) (n : Nat) {buffer : Bytes}
    (hbuffer : buffer ≠ []) (alloc : Bool) :
    tagOf render (setId3Overlay ctx a n buffer alloc).2 area trackNum =
      if a = area ∧ n = trackNum then (if alloc then buffer else render area trackNum)
      else tagOf render ctx area trackNum := by
  rcases setId3Overlay_cases ctx a n buffer alloc with ⟨hsame, hnot⟩ | ⟨-, hcheck, hset⟩
  · have hother : ¬ (a = area ∧ n = trackNum) := by
      rintro ⟨rfl, rfl⟩
      rcases hnot with hnil | hbad
      · exact hbuffer hnil
      · exact hbad h
    rw [hsame, if_neg hother]
  · have hn := (checkTrack_ok hcheck).1
    have hnum := (checkTrack_ok h).1
    have hcheck' : ∀ e, checkTrack (ctx.setEntry a (n - 1) e) area trackNum = .ok := fun _ => h
    rw [hset, tagOf_eq (hcheck' _), tagOf_eq h, VfsCtx.setEntry_id3Cache]
    by_cases hsame : a = area ∧ n = trackNum
    · obtain ⟨rfl, rfl⟩ := hsame
      cases alloc with
      | true => simp [entryTag]
      | false => simp [entryTag]
    · have hentry : ¬ (area = a ∧ trackNum - 1 = n - 1) := by
        rintro ⟨harea, hindex⟩
        exact hsame ⟨harea.symm, by omega⟩
      rw [if_neg hentry, if_neg hsame]

/-! ## The commit -/

/-- The flush reaches the track that was opened, and finds the memory. -/
def Lands (file : OverlayFile) (alloc : Bool) : Prop :=
  flushTarget file.vpath = (file.area, file.trackNum) ∧ alloc = true

instance (file : OverlayFile) (alloc : Bool) : Decidable (Lands file alloc) :=
  inferInstanceAs (Decidable (_ ∧ _))

/-- The tag of the opened track after a flush that does not land: it is lost where the
memory for it was not found, and not touched where another track was written. -/
def tagKept (render : VfsArea → Nat → Bytes) (s : Id3State) (file : OverlayFile) : Bytes :=
  if flushTarget file.vpath = (file.area, file.trackNum) then
    render file.area file.trackNum.toNat
  else tagOf render s.ctx file.area file.trackNum.toNat

/-- A flush of staged writes makes the buffer the tag, if it lands. -/
theorem tagOf_overlayFlush (render : VfsArea → Nat → Bytes) {s : Id3State} {file : OverlayFile}
    (h : checkTrack s.ctx file.area file.trackNum.toNat = .ok) (hdirty : file.id3Dirty = true)
    (hbuf : file.id3WriteBuf ≠ []) (alloc : Bool) (steps : SaveSteps) :
    tagOf render (overlayFlush s file alloc steps).1.ctx file.area file.trackNum.toNat =
      if Lands file alloc then file.id3WriteBuf else tagKept render s file := by
  have hsame : flushTarget file.vpath = (file.area, file.trackNum) ↔
      (flushTarget file.vpath).1 = file.area ∧
        (flushTarget file.vpath).2.toNat = file.trackNum.toNat := by
    rw [Prod.ext_iff, UInt8.toNat_inj]
  have hset := tagOf_set render h (flushTarget file.vpath).1 (flushTarget file.vpath).2.toNat hbuf
    alloc
  have hgoal : tagOf render (setId3Overlay s.ctx (flushTarget file.vpath).1
      (flushTarget file.vpath).2.toNat file.id3WriteBuf alloc).2 file.area file.trackNum.toNat =
        if Lands file alloc then file.id3WriteBuf else tagKept render s file := by
    by_cases htarget : flushTarget file.vpath = (file.area, file.trackNum)
    · have hlands : Lands file alloc ↔ alloc = true :=
        ⟨fun hland => hland.2, fun halloc => ⟨htarget, halloc⟩⟩
      rw [hset, if_pos (hsame.1 htarget), tagKept, if_pos htarget]
      simp only [hlands]
    · have hlands : ¬ Lands file alloc := fun hland => htarget hland.1
      rw [hset, if_neg (fun hand => htarget (hsame.2 hand)), if_neg hlands, tagKept,
        if_neg htarget]
  have hcheck : checkTrack (setId3Overlay s.ctx (flushTarget file.vpath).1
      (flushTarget file.vpath).2.toNat file.id3WriteBuf alloc).2 file.area file.trackNum.toNat =
        .ok := by
    rcases setId3Overlay_cases s.ctx (flushTarget file.vpath).1 (flushTarget file.vpath).2.toNat
      file.id3WriteBuf alloc with ⟨heq, -⟩ | ⟨-, -, heq⟩
    · rw [heq]
      exact h
    · rw [heq]
      exact h
  simp only [overlayFlush, hdirty, hbuf, ne_eq, not_false_eq_true, and_self, if_true]
  by_cases hzero : (flushTarget file.vpath).2 = 0
  · have hnum : file.trackNum ≠ 0 := by
      intro hz
      exact (checkTrack_ok h).1 (by rw [hz]; rfl)
    have hmiss : flushTarget file.vpath ≠ (file.area, file.trackNum) := by
      intro heq
      rw [heq] at hzero
      exact hnum hzero
    rw [if_pos hzero, tagKept, if_neg hmiss, if_neg]
    rintro ⟨hland, -⟩
    exact hmiss hland
  · rw [if_neg hzero]
    split
    · rw [tagOf_save render steps _ hcheck]
      exact hgoal
    · exact hgoal

theorem finish_eq (s : Id3State) (file : OverlayFile) (alloc : Bool) (steps : SaveSteps)
    (ending : Ending) : finish s file alloc steps ending = (overlayFlush s file alloc steps).1 := by
  cases ending <;> rfl

/-! ## A run of writes -/

/-- A track opened, written to and flushed or closed. -/
structure WriteRun where
  render : VfsArea → Nat → Bytes
  state : Id3State
  opened : OpenFile
  path : Bytes
  writable : Bool
  requests : List WriteRequest
  alloc : Bool
  steps : SaveSteps
  ending : Ending

namespace WriteRun

variable (run : WriteRun)

def file : OverlayFile := .create run.path run.writable run.opened

def accepted : List WriteRequest := (writeAll run.file run.requests).1

/-- What the accepted writes put into the metadata region. -/
def ranges : List (Range UInt8) := run.accepted.map (·.range run.file.metadataOffset)

def tagBefore : Bytes := tagOf run.render run.state.ctx run.opened.area run.opened.trackNum.toNat

def tagAfter : Bytes :=
  tagOf run.render
    (finish run.state (writeAll run.file run.requests).2 run.alloc run.steps run.ending).ctx
    run.opened.area run.opened.trackNum.toNat

/-- The tag read back is the tag before with the written ranges in place. -/
def PatchesTag : Prop := run.tagAfter = patchAll 0 run.tagBefore run.ranges

/-- No accepted write reaches the metadata region. -/
def StaysOut : Prop := ∀ r ∈ run.accepted, r.writeEnd ≤ run.file.metadataOffset

end WriteRun

theorem WriteRequest.range_finish (r : WriteRequest) {metadataOffset : Nat}
    (h : metadataOffset < r.writeEnd) :
    (r.range metadataOffset).finish = r.writeEnd - metadataOffset := by
  unfold writeEnd at h ⊢
  simp only [Range.finish, range, List.length_drop]
  omega

/-- Writes to a track patch its tag exactly when none reaches the tag, or the flush lands
and the ranges fill the tag, or it does not and the patch makes no difference. -/
theorem writes_patch_tag_iff (run : WriteRun)
    (h : checkTrack run.state.ctx run.opened.area run.opened.trackNum.toNat = .ok) :
    run.PatchesTag ↔ run.StaysOut ∨
      (Lands run.file run.alloc ∧ Fills 0 run.tagBefore run.ranges) ∨
      (¬ Lands run.file run.alloc ∧
        patchAll 0 run.tagBefore run.ranges = tagKept run.render run.state run.file) := by
  have hafter := writeAll_snd run.file run.requests
  unfold WriteRun.PatchesTag WriteRun.tagAfter
  rw [finish_eq]
  by_cases hout : run.StaysOut
  · have hempty : ∀ r ∈ run.ranges, r.2 = [] := by
      intro r hr
      obtain ⟨q, hq, rfl⟩ := List.mem_map.1 hr
      rw [WriteRequest.range_of_writeEnd_le (hout q hq)]
    have hclean : (writeAll run.file run.requests).2.id3Dirty = false := by
      rw [hafter]
      simp only [Bool.or_eq_false_iff, List.any_eq_false, decide_eq_true_eq]
      exact ⟨rfl, fun r hr => not_lt.2 (hout r hr)⟩
    have hsame : (overlayFlush run.state (writeAll run.file run.requests).2 run.alloc
        run.steps).1 = run.state := by
      simp [overlayFlush, hclean]
    rw [hsame, patchAll_of_empty 0 run.tagBefore hempty]
    exact iff_of_true rfl (Or.inl hout)
  · obtain ⟨r, hr, hend⟩ : ∃ r ∈ run.accepted, run.file.metadataOffset < r.writeEnd := by
      simpa [WriteRun.StaysOut] using hout
    have hdirty : (writeAll run.file run.requests).2.id3Dirty = true := by
      rw [hafter]
      simp only [Bool.or_eq_true, List.any_eq_true, decide_eq_true_eq]
      exact Or.inr ⟨r, hr, hend⟩
    have hbuf : (writeAll run.file run.requests).2.id3WriteBuf = overwriteAll 0 [] run.ranges := by
      rw [hafter]
      rfl
    have hne : (writeAll run.file run.requests).2.id3WriteBuf ≠ [] := by
      have hreach : (r.range run.file.metadataOffset).finish ≤ reach run.ranges :=
        le_reach (List.mem_map_of_mem hr)
      rw [r.range_finish hend] at hreach
      intro hnil
      have hlen := overwriteAll_length 0 [] run.ranges
      rw [← hbuf, hnil] at hlen
      simp only [List.length_nil] at hlen
      omega
    have htag := tagOf_overlayFlush run.render
      (show checkTrack run.state.ctx (writeAll run.file run.requests).2.area
        (writeAll run.file run.requests).2.trackNum.toNat = .ok by rw [hafter]; exact h)
      hdirty hne run.alloc run.steps
    have hfile : (writeAll run.file run.requests).2.vpath = run.file.vpath ∧
        (writeAll run.file run.requests).2.area = run.opened.area ∧
        (writeAll run.file run.requests).2.trackNum = run.opened.trackNum := by
      rw [hafter]
      exact ⟨rfl, rfl, rfl⟩
    have hlands : Lands (writeAll run.file run.requests).2 run.alloc ↔ Lands run.file run.alloc := by
      unfold Lands
      rw [hfile.1, hfile.2.1, hfile.2.2]
      rfl
    have hkept : tagKept run.render run.state (writeAll run.file run.requests).2 =
        tagKept run.render run.state run.file := by
      unfold tagKept
      rw [hfile.1, hfile.2.1, hfile.2.2]
      rfl
    rw [hfile.2.1, hfile.2.2, hkept, hbuf] at htag
    rw [htag]
    by_cases hland : Lands run.file run.alloc
    · rw [if_pos (hlands.2 hland), overwriteAll_nil_eq_patchAll_iff]
      simp [hout, hland]
    · rw [if_neg (mt hlands.1 hland)]
      simp [hout, hland, eq_comm]

/-- Every write to a writable handle is accepted as long as there is memory. -/
theorem writeAll_fst_of_alloc {file : OverlayFile} (hwritable : file.writable = true)
    {rs : List WriteRequest} (halloc : ∀ r ∈ rs, r.alloc = true) : (writeAll file rs).1 = rs := by
  induction rs generalizing file with
  | nil => rfl
  | cons r rs ih =>
    have hok : (overlayWrite file r).1 = .ok := by
      have hr := halloc r (by simp)
      simp only [overlayWrite, hwritable, hr, not_true_eq_false, and_false, if_false]
      split <;> rfl
    have hwritable' : (overlayWrite file r).2.writable = true := by
      rcases overlayWrite_spec file r with ⟨hrefused, -⟩ | ⟨-, hfile⟩
      · exact absurd hok hrefused
      · rw [hfile]
        exact hwritable
    simp only [writeAll, hok, if_true]
    rw [ih hwritable' fun q hq => halloc q (by simp [hq])]

/-- Where the ISO lies at `isoVpath`, the flush names the track the open has resolved
unless that is a stereo track with the other area named somewhere in its path. -/
theorem flushTarget_eq_opened_iff {ctx : PathCtx} {isoVpath inner : Bytes} {opened : OpenFile}
    (hopen : fileOpen ctx inner = .ok opened) (hinner : slash ∈ inner)
    (hlen : (isoVpath ++ inner).length < overlayMaxPath) (writable : Bool) :
    flushTarget (OverlayFile.create (isoVpath ++ inner) writable opened).vpath =
        (opened.area, opened.trackNum) ↔
      (opened.area = .stereo → strstr (isoVpath ++ inner) (areaName .multichannel) = false) := by
  obtain ⟨harea, -, hscan, -⟩ := (fileOpen_ok_iff ctx inner opened).1 hopen
  have hnum : (scanTrackNum (baseName (isoVpath ++ inner))).getD 0 = opened.trackNum := by
    rw [baseName_append_of_mem isoVpath hinner, hscan]
    rfl
  simp only [OverlayFile.create, strlcpy_of_length_lt hlen, flushTarget, hnum, Prod.mk.injEq,
    and_true]
  cases hopened : opened.area with
  | stereo => cases hmc : strstr (isoVpath ++ inner) (areaName .multichannel) <;> simp
  | multichannel =>
    have hmc : strstr inner (areaName .multichannel) = true := by
      rw [hopened] at harea
      unfold pathArea at harea
      split at harea
      · cases harea
      split at harea
      · assumption
      · cases harea
    simp [strstr_append_left isoVpath hmc]

/-! ## One byte of a tag -/

def oneTrackOpen : OpenFile := ⟨.stereo, 1, sacdVfsFileOpen shortTrack⟩

/-- Track 1 of a disc, with a tag of two bytes, written to in the metadata region. -/
def twoByteTag (requests : List WriteRequest) : WriteRun where
  render := fun _ _ => []
  state := (Id3State.start oneTrackIso none).apply (fun _ _ => []) (.set .stereo 1 [1, 2] true)
  opened := oneTrackOpen
  path := ascii "/Disc/Album/Stereo/01. Theme.dsf"
  writable := true
  requests := requests
  alloc := true
  steps := .allOk
  ending := .flush

/-- The metadata region starts at 16476. -/
def writeAt (offset : Nat) (data : Bytes) (h : offset < 2 ^ 63) (hlen : data.length < 2 ^ 63) :
    WriteRequest := ⟨offset, data, true, h, hlen⟩

/-- The first byte of the tag is written: the second is gone. -/
theorem firstByte_not_patchesTag :
    ¬ (twoByteTag [writeAt 16476 [9] (by decide) (by decide)]).PatchesTag := by
  unfold WriteRun.PatchesTag
  decide

/-- Two writes replace the tag as a whole, out of order. -/
theorem wholeTag_patchesTag :
    (twoByteTag [writeAt 16477 [8, 7] (by decide) (by decide),
      writeAt 16476 [9] (by decide) (by decide)]).PatchesTag :=
  (writes_patch_tag_iff _ (by decide)).2
    (Or.inr (Or.inl ⟨by decide, ⟨by decide, by decide, by decide⟩⟩))

end DsdNexus.Overlay
