import Mathlib.Data.List.Infix
import Mathlib.Data.List.InsertIdx
import DsdNexus.Dsdiff.DsdAudio
import DsdNexus.Dsdiff.Markers
import DsdNexus.Dsdiff.Reopened

/-! # DSDIFF: what is written is read again

A file of DSD audio, with whatever calls for the audio and the chunks behind it stand between
`dsdiff_create` and `dsdiff_finalize`, and what `dsdiff_open` says of it.
-/

namespace DsdNexus.Dsdiff

open Program FileProgram

/-! ## The other setters -/

/-- `dsdiff_add_dsd_marker`; the text is copied by `sa_strdup`. -/
def addDsdMarker (h : Handle) (marker : Marker) : Except Error Handle := do
  checkWritable h h.diinChunkPos
  if maxAllocSize < (cstring marker.markerText).length + 1 then throw .outOfMemory
  return { h with markers := markerListAdd h.markers marker h.sampleRate }

/-- `dsdiff_delete_comment`; an index without a comment is no error. -/
def deleteComment (h : Handle) (commentIndex : Int32) : Handle :=
  if (h.commentCount.toNat : Int) ≤ commentIndex.toInt ∨ commentIndex.toInt < 0 then h
  else { h with
    comments := h.comments.eraseIdx commentIndex.toInt.toNat, commentCount := h.commentCount - 1 }

/-- `dsdiff_get_dsd_marker_count`. -/
def getDsdMarkerCount (h : Handle) : Int32 := (UInt32.ofNat h.markers.length).toInt32

/-- `dsdiff_delete_dsd_marker`. -/
def deleteDsdMarker (h : Handle) (markerIndex : Int32) : Handle :=
  if (getDsdMarkerCount h).toInt ≤ markerIndex.toInt ∨ markerIndex.toInt < 0 then h
  else { h with markers := h.markers.eraseIdx markerIndex.toInt.toNat }

/-- `dsdiff_sort_dsd_markers`; the list is sorted as `MarkerList.sort` does. -/
def sortDsdMarkers (h : Handle) : Handle :=
  if 1 < (getDsdMarkerCount h).toInt then
    { h with
      markers := h.markers.mergeSort (InOrder markerCompare)
      diinChunkPos := if h.mode = .modify then 0 else h.diinChunkPos }
  else h

/-- `sizeof(uint8_t *)`. -/
def pointerSize : Nat := 8

/-- `dsdiff_set_track_id3_tag`. The count for the greatest index of all wraps to zero, and the
tag is stored outside the array. -/
def setTrackId3Tag (h : Handle) (trackIndex : UInt32) (tagData : Bytes) : Except Error Handle := do
  if tagData = [] then throw .invalidArg
  if h.mode ≠ .write ∧ h.mode ≠ .modify then throw .modeReadOnly
  if trackIndex + 1 = 0 then throw .undefined
  if h.trackId3Tags.length < (trackIndex + 1).toNat ∧
      maxAllocSize < (trackIndex + 1).toNat * pointerSize then throw .outOfMemory
  if maxAllocSize < tagData.length then throw .outOfMemory
  return { h with trackId3Tags := putTrackTag h.trackId3Tags trackIndex.toNat tagData }

/-- `dsdiff_clear_track_id3_tag`; `none` is `DSDIFF_ERROR_TRACK_INDEX_INVALID`. -/
def clearTrackId3Tag (h : Handle) (trackIndex : UInt32) : Option Handle :=
  if h.trackId3Tags.length ≤ trackIndex.toNat then none
  else some { h with trackId3Tags := h.trackId3Tags.set trackIndex.toNat [] }

/-- What goes wrong when the tag of a track is asked for. -/
inductive TrackTagError where
  | trackIndexInvalid
  | noTrackId3
  | outOfMemory
deriving DecidableEq

/-- `dsdiff_get_track_id3_tag`. -/
def getTrackId3Tag (h : Handle) (trackIndex : UInt32) : Except TrackTagError Bytes :=
  if h.trackId3Tags.length ≤ trackIndex.toNat then .error .trackIndexInvalid
  else if h.trackId3Tags.getD trackIndex.toNat [] = [] then .error .noTrackId3
  else if maxAllocSize < (h.trackId3Tags.getD trackIndex.toNat []).length then .error .outOfMemory
  else .ok (h.trackId3Tags.getD trackIndex.toNat [])

/-! ## Calls -/

/-- A call on a file that is being written. -/
inductive Call where
  | data (buffer : Bytes)
  | comment (comment : Comment)
  | deleteComment (commentIndex : Int32)
  | id3Tag (tagData : Bytes)
  | trackId3Tag (trackIndex : UInt32) (tagData : Bytes)
  | clearTrackId3Tag (trackIndex : UInt32)
  | manufacturer (manufacturer : Manufacturer)
  | emid (emid : Bytes)
  | discArtist (discArtist : Bytes)
  | discTitle (discTitle : Bytes)
  | marker (marker : Marker)
  | deleteMarker (markerIndex : Int32)
  | sortMarkers

/-- A setter does nothing with the file. -/
def ofSetter (r : Except Error Handle) : Io Handle :=
  match r with
  | .ok h => pure h
  | .error e => fail e

/-- A call; an index that has no tag to clear is an argument that is refused. -/
def Call.run (h : Handle) : Call → Io Handle
  | .data buffer => writeDsdData h buffer
  | .comment c => ofSetter (addComment h c)
  | .deleteComment commentIndex => pure (Dsdiff.deleteComment h commentIndex)
  | .id3Tag tagData => ofSetter (setId3Tag h tagData)
  | .trackId3Tag trackIndex tagData => ofSetter (setTrackId3Tag h trackIndex tagData)
  | .clearTrackId3Tag trackIndex =>
    ofSetter ((Dsdiff.clearTrackId3Tag h trackIndex).elim (.error .invalidArg) .ok)
  | .manufacturer m => ofSetter (setManufacturer h m)
  | .emid text => ofSetter (setEmid h text)
  | .discArtist text => ofSetter (setDiscArtist h text)
  | .discTitle text => ofSetter (setDiscTitle h text)
  | .marker m => ofSetter (addDsdMarker h m)
  | .deleteMarker markerIndex => pure (deleteDsdMarker h markerIndex)
  | .sortMarkers => pure (sortDsdMarkers h)

def runCalls (h : Handle) : List Call → Io Handle
  | [] => pure h
  | call :: calls => do
    let h ← call.run h
    runCalls h calls

/-- A file of DSD audio with these calls. -/
def writeDsd (h : Handle) (channelCount sampleBits : UInt16) (sampleRate : UInt32)
    (calls : List Call) : Io Handle := do
  let h ← create h .dsd channelCount sampleBits sampleRate
  let h ← runCalls h calls
  finalize h

/-- The handles on which a file can be created. -/
inductive Prepared : Handle → Prop
  | new : Prepared new
  | startTimecode {h h' : Handle} {startTimecode : Timecode} :
    Prepared h → setStartTimecode h startTimecode = .ok h' → Prepared h'
  | loudspeakerConfig {h h' : Handle} {loudspeakerConfig : UInt16} :
    Prepared h → setLoudspeakerConfig h loudspeakerConfig = .ok h' → Prepared h'

/-! ## What the calls are to leave behind -/

/-- What is to be in a file. -/
structure Held where
  audio : Bytes := []
  comments : List Comment := []
  id3Tag : Bytes := []
  trackId3Tags : List Bytes := []
  manufacturer : Option Manufacturer := none
  emid : Option Bytes := none
  discArtist : Option Bytes := none
  discTitle : Option Bytes := none
  markers : List MarkerEntry := []

def Held.call (sampleRate : UInt32) (held : Held) : Call → Held
  | .data buffer => { held with audio := held.audio ++ buffer }
  | .comment comment => { held with comments := held.comments ++ [comment] }
  | .deleteComment commentIndex =>
    if commentIndex.toInt < 0 then held
    else { held with comments := held.comments.eraseIdx commentIndex.toInt.toNat }
  | .id3Tag tagData => { held with id3Tag := tagData }
  | .trackId3Tag trackIndex tagData =>
    { held with trackId3Tags := putTrackTag held.trackId3Tags trackIndex.toNat tagData }
  | .clearTrackId3Tag trackIndex =>
    { held with trackId3Tags := held.trackId3Tags.set trackIndex.toNat [] }
  | .manufacturer manufacturer => { held with manufacturer := some manufacturer }
  | .emid emid => { held with emid := some emid }
  | .discArtist discArtist => { held with discArtist := some discArtist }
  | .discTitle discTitle => { held with discTitle := some discTitle }
  | .marker marker => { held with markers := held.markers ++ [markerEntryOf marker sampleRate] }
  | .deleteMarker markerIndex =>
    if markerIndex.toInt < 0 then held
    else { held with markers := held.markers.eraseIdx markerIndex.toInt.toNat }
  | .sortMarkers => { held with markers := held.markers.mergeSort (InOrder markerCompare) }

/-- What the calls put into a file of this rate. -/
def heldOf (sampleRate : UInt32) (calls : List Call) : Held :=
  calls.foldl (Held.call sampleRate) {}

/-- No more comments and markers than can be counted. -/
def Held.Counted (held : Held) : Prop :=
  held.comments.length < 2 ^ 16 ∧ held.markers.length < 2 ^ 31

instance (held : Held) : Decidable held.Counted := inferInstanceAs (Decidable (_ ∧ _))

/-- The text of a comment in the handle: as much of it as its length says. -/
def Comment.copied (comment : Comment) : Comment :=
  { comment with
    text := if comment.text ≠ [] ∧ 0 < comment.textLength then
      comment.text.take comment.textLength.toNat else [] }

/-- A comment as it is read from the file. -/
def Comment.kept (comment : Comment) : Comment := comment.copied.stored

/-- A comment whose length is that of its text comes back as it was. -/
theorem Comment.kept_eq {comment : Comment} (htext : 0 ∉ comment.text)
    (hlength : comment.textLength.toNat = comment.text.length) : comment.kept = comment := by
  have hcopied : comment.copied = comment := by
    rw [Comment.copied, hlength, List.take_length]
    split
    · rfl
    · next hnone =>
      have hempty : comment.text = [] := by
        by_contra hsome
        refine hnone ⟨hsome, UInt32.lt_iff_toNat_lt.2 ?_⟩
        rw [hlength]
        exact List.length_pos_iff.2 hsome
      rw [← hempty]
  rw [Comment.kept, hcopied, Comment.stored, cstring_of_not_mem htext, ← hlength,
    UInt32.ofNat_toNat]

def Manufacturer.copied (manufacturer : Manufacturer) : Bytes × Bytes × UInt32 :=
  (manufacturer.manId, manufacturer.data.take manufacturer.dataSize.toNat, manufacturer.dataSize)

/-- As many bytes are there as the call is told. -/
def Call.Fine : Call → Prop
  | .manufacturer m => m.dataSize.toNat ≤ m.data.length
  | _ => True

/-! ## Successful setters -/

section Setters

variable {h h' : Handle} {f f' : ByteFile}

theorem ofSetter_eq_ok {r : Except Error Handle} (hrun : ofSetter r f = (.ok h', f')) :
    r = .ok h' ∧ f' = f := by
  cases r with
  | ok h => cases hrun; exact ⟨rfl, rfl⟩
  | error e => cases hrun

theorem copyText_eq_ok {text copy : Bytes} (hcopy : copyText text = .ok copy) :
    copy = text ∧ Holdable text := by
  unfold copyText at hcopy
  split at hcopy
  · cases hcopy
  · split at hcopy
    · cases hcopy
    · next hfits =>
      cases hcopy
      exact ⟨rfl, Nat.not_lt.1 hfits⟩

theorem bind_ok_iff {α β : Type} {r : Except Error α} {k : α → Except Error β} {b : β} :
    (r >>= k) = .ok b ↔ ∃ a, r = .ok a ∧ k a = .ok b := by
  cases r with
  | ok a => exact ⟨fun hk => ⟨a, rfl, hk⟩, fun ⟨_, ha, hk⟩ => by cases ha; exact hk⟩
  | error e => exact ⟨fun hk => (by cases hk), fun ⟨_, ha, _⟩ => (by cases ha)⟩

/-- The setters of the three texts of DIIN. -/
theorem setText_eq_ok {pos : Nat} {text : Bytes} {g : Bytes → Handle}
    (hset : (do
      checkWritable h pos
      let copy ← copyText (cstring text)
      return g copy) = .ok h') : Holdable (cstring text) ∧ h' = g (cstring text) := by
  obtain ⟨_, -, hset⟩ := bind_ok_iff.1 hset
  obtain ⟨copy, hcopy, hset⟩ := bind_ok_iff.1 hset
  obtain ⟨rfl, hfits⟩ := copyText_eq_ok hcopy
  cases hset
  exact ⟨hfits, rfl⟩

/-- A check that was passed. -/
theorem unless_throw_eq_ok {α : Type} {p : Prop} [Decidable p] {e : Error}
    {k : PUnit → Except Error α} {a : α} (h : (if p then throw e >>= k else k ()) = .ok a) :
    ¬ p ∧ k () = .ok a := by
  split at h
  · cases h
  · next hp => exact ⟨hp, h⟩

theorem setId3Tag_eq_ok {tagData : Bytes} (hset : setId3Tag h tagData = .ok h') :
    tagData.length ≤ maxAllocSize ∧ h' = { h with id3Tag := tagData } := by
  unfold setId3Tag at hset
  obtain ⟨-, hset⟩ := unless_throw_eq_ok hset
  obtain ⟨_, -, hset⟩ := bind_ok_iff.1 hset
  obtain ⟨hfits, hset⟩ := unless_throw_eq_ok hset
  cases hset
  exact ⟨Nat.not_lt.1 hfits, rfl⟩

theorem setTrackId3Tag_eq_ok {trackIndex : UInt32} {tagData : Bytes}
    (hset : setTrackId3Tag h trackIndex tagData = .ok h') :
    trackIndex + 1 ≠ 0 ∧ tagData.length ≤ maxAllocSize ∧
      h' = { h with trackId3Tags := putTrackTag h.trackId3Tags trackIndex.toNat tagData } := by
  unfold setTrackId3Tag at hset
  obtain ⟨-, hset⟩ := unless_throw_eq_ok hset
  obtain ⟨-, hset⟩ := unless_throw_eq_ok hset
  obtain ⟨hcount, hset⟩ := unless_throw_eq_ok hset
  obtain ⟨-, hset⟩ := unless_throw_eq_ok hset
  obtain ⟨hfits, hset⟩ := unless_throw_eq_ok hset
  cases hset
  exact ⟨hcount, Nat.not_lt.1 hfits, rfl⟩

theorem clearTrackId3Tag_eq_ok {trackIndex : UInt32}
    (hset : (clearTrackId3Tag h trackIndex).elim (Except.error Error.invalidArg) Except.ok =
      .ok h') :
    h' = { h with trackId3Tags := h.trackId3Tags.set trackIndex.toNat [] } := by
  unfold clearTrackId3Tag at hset
  split at hset
  · cases hset
  · cases hset
    rfl

theorem setManufacturer_eq_ok {manufacturer : Manufacturer}
    (hset : setManufacturer h manufacturer = .ok h') :
    (manufacturer.data.take manufacturer.dataSize.toNat).length ≤ maxAllocSize ∧
      h' = { h with
        manufacturerId := manufacturer.manId
        manufacturerData := manufacturer.data.take manufacturer.dataSize.toNat
        manufacturerDataSize := manufacturer.dataSize, hasManufacturer := true } := by
  obtain ⟨_, -, hset⟩ := bind_ok_iff.1 hset
  obtain ⟨hfits, hset⟩ := unless_throw_eq_ok hset
  have hdata : (if 0 < manufacturer.dataSize then
      manufacturer.data.take manufacturer.dataSize.toNat else []) =
      manufacturer.data.take manufacturer.dataSize.toNat := by
    split
    · rfl
    · next hnone =>
      have hzero : manufacturer.dataSize.toNat = 0 := by
        rw [UInt32.lt_iff_toNat_lt] at hnone
        exact Nat.eq_zero_of_not_pos hnone
      rw [hzero, List.take_zero]
  rw [hdata] at hfits hset
  cases hset
  exact ⟨Nat.not_lt.1 hfits, rfl⟩

theorem addDsdMarker_eq_ok {marker : Marker} (hset : addDsdMarker h marker = .ok h') :
    Holdable (cstring marker.markerText) ∧
      h' = { h with markers := h.markers ++ [markerEntryOf marker h.sampleRate] } := by
  obtain ⟨_, -, hset⟩ := bind_ok_iff.1 hset
  obtain ⟨hfits, hset⟩ := unless_throw_eq_ok hset
  cases hset
  exact ⟨Nat.not_lt.1 hfits, rfl⟩

theorem addComment_eq_ok {comment : Comment} (hset : addComment h comment = .ok h') :
    Holdable comment.copied.text ∧
      h' = { h with
        comments := h.comments ++ [comment.copied], commentCount := h.commentCount + 1 } := by
  obtain ⟨_, -, hset⟩ := bind_ok_iff.1 hset
  rw [Comment.copied]
  split at hset
  · next hsome =>
    rw [if_pos hsome]
    obtain ⟨-, hset⟩ := unless_throw_eq_ok hset
    obtain ⟨copy, hcopy, hset⟩ := bind_ok_iff.1 hset
    obtain ⟨rfl, hfits⟩ := copyText_eq_ok hcopy
    cases hset
    exact ⟨hfits, rfl⟩
  · next hnone =>
    rw [if_neg hnone]
    cases hset
    exact ⟨show [].length + 1 ≤ maxAllocSize by decide, rfl⟩

end Setters

/-! ## Writing -/

/-- A handle and a file that hold what is to be in the file. -/
structure HeldBy (p : Properties) (held : Held) (h : Handle) (f : ByteFile) : Prop where
  writing : Writing p h
  content : f.content = p.head 0 0 ++ (soundHead p.audioType 0 0 0 ++ held.audio)
  atEnd : f.pos = f.content.length
  room : f.content.length ≤ ByteFile.offMax
  soundDataSize : h.soundDataSize = held.audio.length
  comments : h.comments = held.comments.map Comment.copied
  commentCount : h.commentCount = UInt16.ofNat held.comments.length
  id3Tag : h.id3Tag = held.id3Tag
  trackId3Tags : h.trackId3Tags = held.trackId3Tags
  trackCount : held.trackId3Tags.length < 2 ^ 32
  manufacturer : noted h.hasManufacturer
    (h.manufacturerId, h.manufacturerData, h.manufacturerDataSize) =
      held.manufacturer.map Manufacturer.copied
  emid : storedText h.hasEmid h.emid = held.emid.map cstring
  discArtist : storedText h.hasDiscArtist h.discArtist = held.discArtist.map cstring
  discTitle : storedText h.hasDiscTitle h.discTitle = held.discTitle.map cstring
  markers : h.markers = held.markers
  copied : ∀ entry ∈ held.markers, entry.stored p.sampleRate = entry
  fits : h.Fits

section Writing

variable {p : Properties} {held : Held} {h h' : Handle} {f f' : ByteFile}

theorem HeldBy.file_eq (hw : HeldBy p held h f) : f = ⟨f.content, f.content.length⟩ := by
  rw [← hw.atEnd]

theorem writeDsdData_step (hw : HeldBy p held h f) {buffer : Bytes}
    (hrun : writeDsdData h buffer f = (.ok h', f')) :
    HeldBy p (held.call p.sampleRate (.data buffer)) h' f' := by
  unfold writeDsdData at hrun
  obtain ⟨_, _, hcheck, hrun⟩ := bind_eq_ok hrun
  obtain ⟨-, rfl⟩ := require_eq_ok_iff.1 hcheck
  obtain ⟨_, _, hcheck, hrun⟩ := bind_eq_ok hrun
  obtain ⟨-, rfl⟩ := require_eq_ok_iff.1 hcheck
  obtain ⟨_, _, hcheck, hrun⟩ := bind_eq_ok hrun
  obtain ⟨-, rfl⟩ := require_eq_ok_iff.1 hcheck
  by_cases hnone : buffer = []
  · rw [if_pos hnone] at hrun
    cases hrun
    rw [Held.call, hnone, List.append_nil]
    exact hw
  · rw [if_neg hnone] at hrun
    obtain ⟨_, _, hcheck, hrun⟩ := bind_eq_ok hrun
    obtain ⟨-, rfl⟩ := require_eq_ok_iff.1 hcheck
    obtain ⟨_, _, hwrite, hrun⟩ := bind_eq_ok hrun
    rw [hw.file_eq] at hwrite
    obtain ⟨-, rfl, hroom⟩ := (ioWriteBytes_prints buffer).at_end hw.room hwrite
    cases hrun
    exact { hw with
      writing := { hw.writing with }
      content := by
        show f.content ++ buffer = _
        rw [hw.content]
        simp only [Held.call, List.append_assoc]
      atEnd := rfl
      room := hroom
      soundDataSize := by
        show h.soundDataSize + buffer.length = (held.audio ++ buffer).length
        rw [hw.soundDataSize, List.length_append]
      fits := { hw.fits with } }

theorem holdable_cstring {text : Bytes} (h : Holdable text) : Holdable (cstring text) :=
  Nat.le_trans (Nat.succ_le_succ (List.takeWhile_sublist _).length_le) h

theorem holdable_twice {text : Bytes} (h : Holdable (cstring text)) :
    Holdable (cstring (cstring text)) := by rwa [cstring_cstring]

theorem storedText_copy (text : Bytes) :
    storedText true (some (cstring text)) = (some text).map cstring :=
  congrArg some (cstring_cstring text)

theorem addComment_step (hw : HeldBy p held h f) {comment : Comment}
    (hset : addComment h comment = .ok h') :
    HeldBy p (held.call p.sampleRate (.comment comment)) h' f := by
  obtain ⟨hfits, rfl⟩ := addComment_eq_ok hset
  exact { hw with
    writing := { hw.writing with }
    comments := by
      show h.comments ++ [comment.copied] = (held.comments ++ [comment]).map Comment.copied
      rw [hw.comments, List.map_append]
      rfl
    commentCount := by
      show h.commentCount + 1 = UInt16.ofNat (held.comments ++ [comment]).length
      rw [hw.commentCount, List.length_append, UInt16.ofNat_add]
      rfl
    fits := { hw.fits with
      commentTexts := by
        intro c hc
        rcases List.mem_append.1 hc with hc | hc
        · exact hw.fits.commentTexts c hc
        · rw [List.mem_singleton.1 hc]
          exact holdable_cstring hfits } }

theorem mem_putTrackTag {tags : List Bytes} {index : Nat} {tag t : Bytes}
    (ht : t ∈ putTrackTag tags index tag) : t ∈ tags ∨ t = [] ∨ t = tag := by
  rcases List.mem_or_eq_of_mem_set ht with hmem | rfl
  · rcases List.mem_append.1 hmem with hmem | hmem
    · exact .inl hmem
    · exact .inr (.inl (List.eq_of_mem_replicate hmem))
  · exact .inr (.inr rfl)

/-- The tags of the tracks are changed to some that fit a buffer. -/
theorem HeldBy.retag (hw : HeldBy p held h f) {tags : List Bytes} (hcount : tags.length < 2 ^ 32)
    (hfits : ∀ tag ∈ tags, tag.length ≤ maxAllocSize) :
    HeldBy p { held with trackId3Tags := tags } { h with trackId3Tags := tags } f :=
  { hw with
    writing := { hw.writing with }
    trackId3Tags := rfl
    trackCount := hcount
    fits := { hw.fits with trackId3Tags := hfits } }

theorem setTrackId3Tag_step (hw : HeldBy p held h f) {trackIndex : UInt32} {tagData : Bytes}
    (hset : setTrackId3Tag h trackIndex tagData = .ok h') :
    HeldBy p (held.call p.sampleRate (.trackId3Tag trackIndex tagData)) h' f := by
  obtain ⟨hcount, hfits, rfl⟩ := setTrackId3Tag_eq_ok hset
  rw [hw.trackId3Tags]
  have hlast : trackIndex.toNat + 1 < 2 ^ 32 := by
    have hindex := trackIndex.toNat_lt
    by_contra hwrap
    refine hcount (UInt32.toNat_inj.1 ?_)
    rw [UInt32.toNat_add, show (1 : UInt32).toNat = 1 from rfl,
      show (0 : UInt32).toNat = 0 from rfl]
    omega
  refine hw.retag ?_ fun tag htag => ?_
  · have hcount := hw.trackCount
    rw [putTrackTag, List.length_set, List.length_append, List.length_replicate]
    omega
  rcases mem_putTrackTag htag with hmem | rfl | rfl
  · exact hw.fits.trackId3Tags tag (hw.trackId3Tags ▸ hmem)
  · exact Nat.zero_le _
  · exact hfits

theorem clearTrackId3Tag_step (hw : HeldBy p held h f) {trackIndex : UInt32}
    (hset : (clearTrackId3Tag h trackIndex).elim (Except.error Error.invalidArg) Except.ok =
      .ok h') : HeldBy p (held.call p.sampleRate (.clearTrackId3Tag trackIndex)) h' f := by
  obtain rfl := clearTrackId3Tag_eq_ok hset
  rw [hw.trackId3Tags]
  refine hw.retag (by rw [List.length_set]; exact hw.trackCount) fun tag htag => ?_
  rcases List.mem_or_eq_of_mem_set htag with hmem | rfl
  · exact hw.fits.trackId3Tags tag (hw.trackId3Tags ▸ hmem)
  · exact Nat.zero_le _

theorem markerEntryOf_stored (marker : Marker) (sampleRate : UInt32) :
    (markerEntryOf marker sampleRate).stored sampleRate = markerEntryOf marker sampleRate := by
  rw [MarkerEntry.stored, markerEntryOf, cstring_cstring]

/-- The markers are changed to some that fit a buffer. -/
theorem HeldBy.mark (hw : HeldBy p held h f) {markers : List MarkerEntry} {diinChunkPos : Nat}
    (hall : ∀ entry ∈ markers, entry.stored p.sampleRate = entry ∧
      Holdable (cstring entry.markerText)) :
    HeldBy p { held with markers := markers }
      { h with markers := markers, diinChunkPos := diinChunkPos } f :=
  { hw with
    writing := { hw.writing with }
    markers := rfl
    copied := fun entry hentry => (hall entry hentry).1
    fits := { hw.fits with markers := fun entry hentry => (hall entry hentry).2 } }

theorem HeldBy.marked (hw : HeldBy p held h f) {entry : MarkerEntry}
    (hentry : entry ∈ held.markers) :
    entry.stored p.sampleRate = entry ∧ Holdable (cstring entry.markerText) :=
  ⟨hw.copied entry hentry, hw.fits.markers entry (hw.markers ▸ hentry)⟩

theorem addDsdMarker_step (hw : HeldBy p held h f) {marker : Marker}
    (hset : addDsdMarker h marker = .ok h') :
    HeldBy p (held.call p.sampleRate (.marker marker)) h' f := by
  obtain ⟨hfits, rfl⟩ := addDsdMarker_eq_ok hset
  rw [hw.markers, congrArg (markerEntryOf marker) hw.writing.sampleRate]
  have hall : ∀ entry ∈ held.markers ++ [markerEntryOf marker p.sampleRate],
      entry.stored p.sampleRate = entry ∧ Holdable (cstring entry.markerText) := by
    intro entry hentry
    rcases List.mem_append.1 hentry with hentry | hentry
    · exact hw.marked hentry
    · rw [List.mem_singleton.1 hentry]
      exact ⟨markerEntryOf_stored marker _, holdable_twice hfits⟩
  exact hw.mark hall

/-- The count of the markers is their number. -/
theorem HeldBy.markerCount (hw : HeldBy p held h f) (hcounted : held.Counted) :
    (getDsdMarkerCount h).toInt = held.markers.length := by
  rw [getDsdMarkerCount, hw.markers, UInt32.toInt32_ofNat']
  exact Int32.toInt_ofNat_of_lt hcounted.2

theorem deleteDsdMarker_step (hw : HeldBy p held h f) (hcounted : held.Counted)
    (markerIndex : Int32) :
    HeldBy p (held.call p.sampleRate (.deleteMarker markerIndex)) (deleteDsdMarker h markerIndex)
      f := by
  rw [deleteDsdMarker, hw.markerCount hcounted, Held.call]
  by_cases hnegative : markerIndex.toInt < 0
  · rw [if_pos hnegative, if_pos (.inr hnegative)]
    exact hw
  · rw [if_neg hnegative]
    have hall : ∀ entry ∈ held.markers.eraseIdx markerIndex.toInt.toNat, _ :=
      fun entry hentry => hw.marked (List.mem_of_mem_eraseIdx hentry)
    split
    · next hbeyond =>
      have hnone : held.markers.eraseIdx markerIndex.toInt.toNat = held.markers :=
        List.eraseIdx_of_length_le (by omega)
      rw [hnone]
      exact hw
    · rw [hw.markers]
      exact hw.mark hall

theorem sortDsdMarkers_step (hw : HeldBy p held h f) (hcounted : held.Counted) :
    HeldBy p (held.call p.sampleRate .sortMarkers) (sortDsdMarkers h) f := by
  rw [sortDsdMarkers, hw.markerCount hcounted, Held.call]
  split
  · rw [hw.markers]
    exact hw.mark fun entry hentry => hw.marked (List.mem_mergeSort.1 hentry)
  · next hfew =>
    have hsame : held.markers.mergeSort (InOrder markerCompare) = held.markers :=
      List.mergeSort_of_pairwise (by
        have hlength : held.markers.length ≤ 1 := by omega
        rcases hmarkers : held.markers with _ | ⟨entry, _ | ⟨next, rest⟩⟩
        · exact List.Pairwise.nil
        · exact List.pairwise_singleton _ entry
        · rw [hmarkers] at hlength
          simp at hlength)
    rw [hsame]
    exact hw

theorem deleteComment_step (hw : HeldBy p held h f) (hcounted : held.Counted)
    (commentIndex : Int32) :
    HeldBy p (held.call p.sampleRate (.deleteComment commentIndex))
      (deleteComment h commentIndex) f := by
  have hcount : h.commentCount.toNat = held.comments.length := by
    rw [hw.commentCount, UInt16.toNat_ofNat', Nat.mod_eq_of_lt hcounted.1]
  rw [deleteComment, hcount, Held.call]
  by_cases hnegative : commentIndex.toInt < 0
  · rw [if_pos hnegative, if_pos (.inr hnegative)]
    exact hw
  · rw [if_neg hnegative]
    split
    · next hbeyond =>
      have hnone : held.comments.eraseIdx commentIndex.toInt.toNat = held.comments :=
        List.eraseIdx_of_length_le (by omega)
      rw [hnone]
      exact hw
    · next hin =>
      have hless : commentIndex.toInt.toNat < held.comments.length := by omega
      exact { hw with
        writing := { hw.writing with }
        comments := by
          show h.comments.eraseIdx _ = (held.comments.eraseIdx _).map Comment.copied
          rw [hw.comments, List.eraseIdx_map]
        commentCount := by
          show h.commentCount - 1 = UInt16.ofNat (held.comments.eraseIdx _).length
          rw [hw.commentCount, List.length_eraseIdx, if_pos hless]
          obtain ⟨rest, hrest⟩ : ∃ rest, held.comments.length = rest + 1 :=
            ⟨held.comments.length - 1, by omega⟩
          rw [hrest, UInt16.ofNat_add, Nat.add_sub_cancel]
          exact UInt16.add_sub_cancel _ _
        fits := { hw.fits with
          commentTexts := fun c hc => hw.fits.commentTexts c (List.mem_of_mem_eraseIdx hc) } }

/-- A successful call leaves behind what it is to. -/
theorem Call.step (hw : HeldBy p held h f) (hcounted : held.Counted) {call : Call}
    (hfine : call.Fine)
    (hrun : call.run h f = (.ok h', f')) : HeldBy p (held.call p.sampleRate call) h' f' := by
  cases call with
  | data buffer => exact writeDsdData_step hw hrun
  | comment comment =>
    obtain ⟨hset, rfl⟩ := ofSetter_eq_ok hrun
    exact addComment_step hw hset
  | deleteComment commentIndex =>
    cases hrun
    exact deleteComment_step hw hcounted commentIndex
  | id3Tag tagData =>
    obtain ⟨hset, rfl⟩ := ofSetter_eq_ok hrun
    obtain ⟨hfits, rfl⟩ := setId3Tag_eq_ok hset
    exact { hw with
      writing := { hw.writing with }
      id3Tag := rfl
      fits := { hw.fits with id3Tag := hfits } }
  | trackId3Tag trackIndex tagData =>
    obtain ⟨hset, rfl⟩ := ofSetter_eq_ok hrun
    exact setTrackId3Tag_step hw hset
  | clearTrackId3Tag trackIndex =>
    obtain ⟨hset, rfl⟩ := ofSetter_eq_ok hrun
    exact clearTrackId3Tag_step hw hset
  | manufacturer manufacturer =>
    obtain ⟨hset, rfl⟩ := ofSetter_eq_ok hrun
    obtain ⟨hfits, rfl⟩ := setManufacturer_eq_ok hset
    exact { hw with
      writing := { hw.writing with }
      manufacturer := rfl
      fits := { hw.fits with
        manufacturerId := manufacturer.fourBytes
        manufacturerData := List.length_take_of_le hfine
        manufacturerRoom := hfits } }
  | emid text =>
    obtain ⟨hset, rfl⟩ := ofSetter_eq_ok hrun
    obtain ⟨hfits, rfl⟩ := setText_eq_ok hset
    exact { hw with
      writing := { hw.writing with }
      emid := storedText_copy text
      fits := { hw.fits with emid := holdable_twice hfits } }
  | discArtist text =>
    obtain ⟨hset, rfl⟩ := ofSetter_eq_ok hrun
    obtain ⟨hfits, rfl⟩ := setText_eq_ok hset
    exact { hw with
      writing := { hw.writing with }
      discArtist := storedText_copy text
      fits := { hw.fits with discArtist := holdable_twice hfits } }
  | discTitle text =>
    obtain ⟨hset, rfl⟩ := ofSetter_eq_ok hrun
    obtain ⟨hfits, rfl⟩ := setText_eq_ok hset
    exact { hw with
      writing := { hw.writing with }
      discTitle := storedText_copy text
      fits := { hw.fits with discTitle := holdable_twice hfits } }
  | marker marker =>
    obtain ⟨hset, rfl⟩ := ofSetter_eq_ok hrun
    exact addDsdMarker_step hw hset
  | deleteMarker markerIndex =>
    cases hrun
    exact deleteDsdMarker_step hw hcounted markerIndex
  | sortMarkers =>
    cases hrun
    exact sortDsdMarkers_step hw hcounted

/-- So does a run of them, as long as comments and markers can be counted. -/
theorem runCalls_run (hw : HeldBy p held h f) {calls : List Call}
    (hfine : ∀ call ∈ calls, call.Fine)
    (hcounted : ∀ before, before <+: calls → (before.foldl (Held.call p.sampleRate) held).Counted)
    (hrun : runCalls h calls f = (.ok h', f')) :
    HeldBy p (calls.foldl (Held.call p.sampleRate) held) h' f' := by
  induction calls generalizing held h f with
  | nil =>
    cases hrun
    exact hw
  | cons call calls ih =>
    obtain ⟨g, f₁, hfirst, hrest⟩ := bind_eq_ok hrun
    have hstep : HeldBy p (held.call p.sampleRate call) g f₁ :=
      call.step hw (hcounted [] List.nil_prefix) (hfine call List.mem_cons_self) hfirst
    exact ih hstep (fun c hc => hfine c (List.mem_cons_of_mem call hc))
      (fun before hbefore => hcounted (call :: before) ((List.prefix_cons_inj call).2 hbefore))
      hrest

/-- A handle before a file is created on it: it has no metadata but those of PROP. -/
theorem prepared_eq (hprepared : Prepared h) :
    ∃ hasTimecode startTimecode hasLoudspeakerConfig loudspeakerConfig, h = { new with
      hasTimecode := hasTimecode, startTimecode := startTimecode
      hasLoudspeakerConfig := hasLoudspeakerConfig, loudspeakerConfig := loudspeakerConfig } := by
  induction hprepared with
  | new => exact ⟨_, _, _, _, rfl⟩
  | startTimecode _ hset ih =>
    obtain ⟨hasTimecode, startTimecode, hasLoudspeakerConfig, loudspeakerConfig, rfl⟩ := ih
    cases hset
    exact ⟨_, _, _, _, rfl⟩
  | loudspeakerConfig _ hset ih =>
    obtain ⟨hasTimecode, startTimecode, hasLoudspeakerConfig, loudspeakerConfig, rfl⟩ := ih
    cases hset
    exact ⟨_, _, _, _, rfl⟩

/-- A new file holds nothing. -/
theorem created_heldBy (hprepared : Prepared h) {channelCount sampleBits : UInt16}
    {sampleRate : UInt32}
    (hcreate : create h .dsd channelCount sampleBits sampleRate ⟨[], 0⟩ = (.ok h', f)) :
    HeldBy (createdProperties h .dsd channelCount sampleRate) {} h' f ∧
      (createdProperties h .dsd channelCount sampleRate).Fine := by
  obtain ⟨hcount, hknown, ⟨loudspeakerChunkPos, rfl⟩, hcontent, hend, hroom⟩ :=
    create_eq_ok hcreate
  have hwriting : Writing (createdProperties h .dsd channelCount sampleRate) _ :=
    createdHandle_writing hcount hknown loudspeakerChunkPos
  obtain ⟨hasTimecode, startTimecode, hasLoudspeakerConfig, loudspeakerConfig, rfl⟩ :=
    prepared_eq hprepared
  refine ⟨{
    writing := hwriting
    content := hcontent.trans (congrArg _ (List.append_nil _).symm)
    atEnd := hend
    room := hroom
    soundDataSize := rfl
    comments := rfl
    commentCount := rfl
    id3Tag := rfl
    trackId3Tags := rfl
    trackCount := by decide
    manufacturer := rfl
    emid := rfl
    discArtist := rfl
    discTitle := rfl
    markers := rfl
    copied := List.forall_mem_nil _
    fits := ?_ }, ?_⟩
  · have hnone : Holdable (cstring []) :=
      show (cstring []).length + 1 ≤ maxAllocSize by decide
    exact {
      commentTexts := List.forall_mem_nil _
      id3Tag := Nat.zero_le _
      trackId3Tags := List.forall_mem_nil _
      manufacturerId := rfl
      manufacturerData := rfl
      manufacturerRoom := Nat.zero_le _
      emid := hnone
      discArtist := hnone
      discTitle := hnone
      markers := List.forall_mem_nil _ }
  · exact ⟨(by decide : (0x01050000 : UInt32).toNat / 2 ^ 24 = 1), hwriting.someChannels,
      hwriting.fewChannels, hwriting.channels, hwriting.known⟩

end Writing

/-! ## Reading it again -/

/-- The tags of the file and of its tracks, without the empty ones. -/
def Held.storedTags (held : Held) : List Bytes :=
  (held.id3Tag :: held.trackId3Tags).filter fun tag => tag ≠ []

/-- What a file with these properties is to say of itself, once it is opened. -/
def Held.contents (held : Held) (p : Properties) : Contents where
  version := p.version
  isDstFormat := false
  sampleRate := p.sampleRate
  channelCount := UInt16.ofNat p.channelIds.length
  channelIds := some p.channelIds
  timecode := p.finalized.timecode
  loudspeaker := p.loudspeaker
  soundDataSize := held.audio.length
  soundDataStartPos := p.soundStart
  soundDataEndPos := p.soundStart + held.audio.length
  sampleFrameCount := held.audio.length / (UInt16.ofNat p.channelIds.length).toNat
  commentCount := UInt16.ofNat held.comments.length
  comments := held.comments.map Comment.kept
  id3Tag := held.storedTags.headD []
  trackId3Tags := held.storedTags.tail
  manufacturer := held.manufacturer.map Manufacturer.copied
  emid := held.emid.map cstring
  discArtist := held.discArtist.map cstring
  discTitle := held.discTitle.map cstring
  markers := held.markers

section Reading

variable {p : Properties} {held : Held} {h h' : Handle} {f : ByteFile}

theorem HeldBy.reopened_eq (hw : HeldBy p held h f) :
    h.reopened p held.audio.length = held.contents p := by
  have hmarkers : (h.markers.map fun entry => entry.stored p.sampleRate) = held.markers := by
    rw [hw.markers, List.map_congr_left hw.copied, List.map_id']
  have hcomments : h.comments.map Comment.stored = held.comments.map Comment.kept := by
    rw [hw.comments, List.map_map]
    rfl
  have htags : h.storedTags = held.storedTags := by
    rw [Handle.storedTags, hw.id3Tag, hw.trackId3Tags]
    rfl
  rw [Handle.reopened, Held.contents, hmarkers, hcomments, htags, hw.commentCount,
    hw.manufacturer, hw.emid, hw.discArtist, hw.discTitle]

theorem HeldBy.storable (hw : HeldBy p held h f) (hcounted : held.Counted) : h.Storable where
  toFits := hw.fits
  comments := by
    rw [hw.comments, List.length_map, hw.commentCount, UInt16.toNat_ofNat',
      Nat.mod_eq_of_lt hcounted.1]

/-- A file that was finalized is closed as it is. -/
theorem ioClose_at_end {mode : FileMode} (hend : f.pos = f.content.length) :
    ioClose mode f = f.content := by
  rw [ioClose, ByteFile.truncate, hend, List.take_length, Nat.sub_self, List.replicate_zero,
    List.append_nil, ite_self]

/-- What reads of so many bytes deliver. -/
def readsFrom (s : OpenHandle) (counts : List UInt32) : Bytes :=
  (callsFrom s (counts.map .read)).flatMap fun step => delivered (step.2.run step.1).1

/-- Reads one behind the other deliver the sound data in order, and nothing behind their end. -/
theorem readsFrom_eq {s : OpenHandle} (hs : ReadsAudio s)
    (hroom : s.handle.soundDataEndPos ≤ s.io.content.length) (counts : List UInt32) :
    readsFrom s counts = (s.io.content.drop s.io.pos).take
      (min (counts.map UInt32.toNat).sum (s.handle.soundDataEndPos - s.io.pos)) := by
  induction counts generalizing s with
  | nil =>
    rw [List.map_nil, List.sum_nil, Nat.zero_min, List.take_zero]
    rfl
  | cons count counts ih =>
    obtain ⟨hstart, hend⟩ := hs.inSound
    have hfine : (DsdCall.read count).Fine s := by
      show s.io.pos + min count.toNat (s.handle.soundDataEndPos - s.io.pos) ≤ s.io.content.length
      omega
    have hexact : (DsdCall.read count).Exact s := read_exact hs hfine
    obtain ⟨hhandle, hcontent⟩ := hexact.kept
    obtain ⟨next, hnext⟩ : ∃ next, ((DsdCall.read count).run s).2 = next := ⟨_, rfl⟩
    rw [hnext] at hhandle hcontent
    have hposition : (next.io.pos : Int) =
        clampToSound s.handle ((DsdCall.read count).target s) := hnext ▸ hexact.position
    have hmoved : next.io.pos =
        s.io.pos + min count.toNat (s.handle.soundDataEndPos - s.io.pos) := by
      rw [clampToSound, DsdCall.target] at hposition
      omega
    have hrest : readsFrom next counts = _ :=
      ih (hnext ▸ hs.next hexact) (by rwa [hhandle, hcontent])
    have hfirst : delivered ((DsdCall.read count).run s).1 = (s.io.content.drop s.io.pos).take
        (min count.toNat (s.handle.soundDataEndPos - s.io.pos)) := hexact.delivered
    have hsplit : readsFrom s (count :: counts) =
        delivered ((DsdCall.read count).run s).1 ++ readsFrom next counts := by
      rw [← hnext]
      rfl
    rw [hsplit, hfirst, hrest, hhandle, hcontent, hmoved, ← List.drop_drop, ← List.take_add]
    congr 1
    rw [List.map_cons, List.sum_cons]
    omega

/-- A finalized file opens and says what it holds, and reads deliver its audio. -/
theorem HeldBy.opens (hw : HeldBy p held h f) (hcounted : held.Counted) (hp : p.Fine)
    (hdsd : p.audioType = .dsd) {nameLen : Nat → Nat}
    (hname : ∀ pos, (compressionName p.audioType).length ≤ nameLen pos) {g : ByteFile}
    (hrun : finalize h f = (.ok h', g)) :
    ∃ fuel s, dsdiffOpen nameLen fuel (ioClose h'.mode g) = some (.ok s) ∧
      s.handle.contents = held.contents p ∧ ∀ counts : List UInt32,
        readsFrom s counts = held.audio.take (counts.map UInt32.toNat).sum := by
  rw [hw.file_eq] at hrun
  obtain ⟨rfl, hcontent, hend, hroom⟩ := finalize_layout hw.writing hw.content hw.room hrun
  have hkind : h.isDstFormat = false := by
    rw [hw.writing.isDstFormat, hdsd]
    rfl
  obtain ⟨fuel, s, hopen, hsays, hplace⟩ :=
    finalized_opens hp hdsd (hw.storable hcounted) hkind hname
      (congrArg List.length hcontent.symm) hroom hw.soundDataSize
  rw [hw.reopened_eq] at hsays
  rw [← hcontent] at hopen hplace
  obtain ⟨front, hfront, hsplit⟩ :=
    finalizedFile_split hdsd h held.audio g.content.length
  rw [← hcontent] at hsplit
  have hfirst : s.handle.soundDataStartPos = p.soundStart :=
    congrArg Contents.soundDataStartPos hsays
  have hlast : s.handle.soundDataEndPos = p.soundStart + held.audio.length :=
    congrArg Contents.soundDataEndPos hsays
  have hread : ReadsAudio s := readsAudio_of_open hopen hroom
    (congrArg Contents.isDstFormat hsays) (by omega)
  rw [ioClose_at_end hend]
  refine ⟨fuel, s, hopen, hsays, fun counts => ?_⟩
  have hinside : s.handle.soundDataEndPos ≤ s.io.content.length := by
    rw [hplace, hlast, hsplit, List.length_append, List.length_append]
    omega
  rw [readsFrom_eq hread hinside, hplace, hlast, Nat.add_sub_cancel_left, hsplit, ← hfront,
    List.drop_left, List.take_append_of_le_length (Nat.min_le_right _ _), List.take_eq_take_min,
    Nat.min_eq_left (Nat.min_le_right _ _), ← List.take_eq_take_min]

end Reading

/-! ## Places -/

/-- Without the empty ones everything keeps its place exactly when nothing stands behind an
empty one. -/
theorem filter_keeps_places_iff {α : Type} [DecidableEq α] (d : α) (l : List α) :
    (∀ i, (l.filter fun a => a ≠ d).getD i d = l.getD i d) ↔
      ∀ i j, i < j → l.getD i d = d → l.getD j d = d := by
  induction l with
  | nil => exact ⟨fun _ _ _ _ _ => rfl, fun _ _ => rfl⟩
  | cons a l ih =>
    by_cases ha : a = d
    · have hfilter : (a :: l).filter (fun a => a ≠ d) = l.filter fun a => a ≠ d := by
        rw [List.filter_cons, if_neg (by simpa using ha)]
      rw [hfilter]
      constructor
      · intro hplaces
        -- The first that is kept would stand in the place of an empty one.
        have hnone : l.filter (fun a => a ≠ d) = [] := by
          rcases hkept : l.filter (fun a => a ≠ d) with _ | ⟨b, rest⟩
          · rfl
          · have hb : b ∈ l.filter fun a => a ≠ d := hkept ▸ List.mem_cons_self
            have hfirst := hplaces 0
            rw [hkept] at hfirst
            exact absurd (hfirst.trans ha) (of_decide_eq_true (List.mem_filter.1 hb).2)
        intro i j _ _
        rw [← hplaces j, hnone]
        rfl
      · intro hbehind
        have hall : ∀ b ∈ l, b = d := by
          intro b hb
          obtain ⟨i, hi, rfl⟩ := List.getElem_of_mem hb
          have hplace := hbehind 0 (i + 1) (Nat.succ_pos i) ha
          rwa [List.getD_cons_succ, List.getD_eq_getElem _ _ hi] at hplace
        have hnone : l.filter (fun a => a ≠ d) = [] :=
          List.filter_eq_nil_iff.2 fun b hb => by simp [hall b hb]
        intro i
        rw [hnone]
        cases i with
        | zero => exact ha.symm
        | succ i => exact (hbehind 0 (i + 1) (Nat.succ_pos i) ha).symm
    · have hfilter : (a :: l).filter (fun a => a ≠ d) = a :: l.filter fun a => a ≠ d := by
        rw [List.filter_cons, if_pos (by simpa using ha)]
      rw [hfilter]
      constructor
      · intro hplaces i j hij hi
        have hrest := ih.1 fun k => hplaces (k + 1)
        cases i with
        | zero => exact absurd hi ha
        | succ i =>
          obtain ⟨j, rfl⟩ : ∃ k, j = k + 1 := ⟨j - 1, by omega⟩
          exact hrest i j (by omega) hi
      · intro hbehind i
        have hrest := ih.2 fun i j hij hi => hbehind (i + 1) (j + 1) (by omega) hi
        cases i with
        | zero => rfl
        | succ i => exact hrest i

/-! ## Written and opened -/

section RoundTrip

variable {nameLen : Nat → Nat} {channelCount sampleBits : UInt16} {sampleRate : UInt32}
  {calls : List Call} {h h' : Handle} {f : ByteFile}

/-- Before it is finalized the file holds what the calls put into it. -/
theorem writeDsd_held (hprepared : Prepared h) (hfine : ∀ call ∈ calls, call.Fine)
    (hcounted : ∀ before, before <+: calls → (heldOf sampleRate before).Counted)
    (hrun : writeDsd h channelCount sampleBits sampleRate calls ⟨[], 0⟩ = (.ok h', f)) :
    ∃ written g, HeldBy (createdProperties h .dsd channelCount sampleRate) (heldOf sampleRate calls)
        written g ∧ (createdProperties h .dsd channelCount sampleRate).Fine ∧
      finalize written g = (.ok h', f) := by
  obtain ⟨created, f₁, hcreate, hrun⟩ := bind_eq_ok hrun
  obtain ⟨written, f₂, hcalls, hrun⟩ := bind_eq_ok hrun
  obtain ⟨hw, hp⟩ := created_heldBy hprepared hcreate
  exact ⟨written, f₂, runCalls_run hw hfine hcounted hcalls, hp, hrun⟩

/-- A marker a second into the file. -/
def secondMarker : Marker := ⟨⟨0, 0, 1, 0⟩, markTrackStart, 0, 0, 0, 5, [83, 116, 97, 114, 116]⟩

/-- Audio in two pieces, two comments of which one is deleted, a marker, a title, and the tags of
the file and of its second track. -/
def stereoCalls : List Call :=
  [.data [1, 2], .comment ⟨2004, 2, 3, 4, 5, 6, 7, 2, [72, 105]⟩,
    .comment ⟨2005, 2, 3, 4, 5, 6, 7, 1, [33]⟩, .id3Tag [73, 68, 51], .trackId3Tag 1 [9],
    .marker secondMarker, .discTitle [84], .deleteComment 0, .data [3, 4, 5, 6, 7, 8]]

theorem stereoCalls_fine : ∀ call ∈ stereoCalls, call.Fine := by
  simp [stereoCalls, Call.Fine]

theorem stereoCalls_counted {before : List Call} (h : before <+: stereoCalls) :
    (heldOf 2822400 before).Counted :=
  (by decide : ∀ before ∈ stereoCalls.inits, (heldOf 2822400 before).Counted) before
    ((List.mem_inits before stereoCalls).2 h)

/-- A file that opens opens the same however many turns more it is given. -/
theorem dsdiffOpen_unique {fuel fuel' : Nat} {content : Bytes} {r r' : Except Error OpenHandle}
    (h : dsdiffOpen nameLen fuel content = some r)
    (h' : dsdiffOpen nameLen fuel' content = some r') : r = r' := by
  obtain ⟨o, ho, rfl⟩ := Option.map_eq_some_iff.1 h
  obtain ⟨o', ho', rfl⟩ := Option.map_eq_some_iff.1 h'
  have hsame : o = o' := by
    unfold parseFile at ho ho'
    generalize parseHead _ = head at ho ho'
    obtain ⟨_ | chunkSize, env⟩ := head
    · exact Option.some.inj (ho.symm.trans ho')
    · exact Loop.returns_unique ⟨fuel, ho⟩ ⟨fuel', ho'⟩
  rw [hsame]

/-- The tag of a track, where there is one and a buffer can hold it. -/
theorem getTrackId3Tag_toOption {h : Handle} (hfits : ∀ tag ∈ h.trackId3Tags,
    tag.length ≤ maxAllocSize) (trackIndex : UInt32) :
    (getTrackId3Tag h trackIndex).toOption =
      (some (h.trackId3Tags.getD trackIndex.toNat [])).filter fun tag => tag ≠ [] := by
  have hroom : ¬ maxAllocSize < (h.trackId3Tags.getD trackIndex.toNat []).length := by
    rw [Nat.not_lt, List.getD_eq_getElem?_getD]
    rcases htag : h.trackId3Tags[trackIndex.toNat]? with _ | tag
    · exact Nat.zero_le _
    · exact hfits tag (List.mem_of_getElem? htag)
  rw [getTrackId3Tag, if_neg hroom]
  split
  · next hout =>
    rw [List.getD_eq_default _ _ hout]
    rfl
  · split
    · next hnone =>
      rw [hnone]
      rfl
    · next hsome =>
      rw [Option.filter_some, if_pos (by simpa using hsome)]
      rfl

/-- Two handles have the same tags for all tracks when these are the same, one by one. -/
theorem trackTags_eq_iff {h g : Handle} (hfits : ∀ tag ∈ h.trackId3Tags, tag.length ≤ maxAllocSize)
    (gfits : ∀ tag ∈ g.trackId3Tags, tag.length ≤ maxAllocSize)
    (hcount : h.trackId3Tags.length < 2 ^ 32) (gcount : g.trackId3Tags.length < 2 ^ 32) :
    (∀ trackIndex, (getTrackId3Tag h trackIndex).toOption =
        (getTrackId3Tag g trackIndex).toOption) ↔
      ∀ i, h.trackId3Tags.getD i [] = g.trackId3Tags.getD i [] := by
  have hone : ∀ tag tag' : Bytes, (some tag).filter (fun tag => tag ≠ []) =
      (some tag').filter (fun tag => tag ≠ []) ↔ tag = tag' := by
    intro tag tag'
    rcases tag with _ | ⟨a, tag⟩ <;> rcases tag' with _ | ⟨b, tag'⟩ <;> simp [Option.filter_some]
  simp only [getTrackId3Tag_toOption hfits, getTrackId3Tag_toOption gfits, hone]
  constructor
  · intro hall i
    by_cases hi : i < 2 ^ 32
    · have hindex := hall (UInt32.ofNat i)
      rwa [UInt32.toNat_ofNat', Nat.mod_eq_of_lt hi] at hindex
    · rw [List.getD_eq_default _ _ (by omega), List.getD_eq_default _ _ (by omega)]
  · exact fun hall trackIndex => hall trackIndex.toNat

/-- A handle with the tags of another that are there has them in their places exactly when none
stands behind a missing one. -/
theorem keeps_owners_iff {h g : Handle} (hid3 : g.id3Tag = h.storedTags.headD [])
    (htracks : g.trackId3Tags = h.storedTags.tail)
    (hfits : ∀ tag ∈ h.id3Tag :: h.trackId3Tags, tag.length ≤ maxAllocSize)
    (hcount : h.trackId3Tags.length < 2 ^ 32) :
    (g.id3Tag = h.id3Tag ∧ ∀ trackIndex, (getTrackId3Tag g trackIndex).toOption =
        (getTrackId3Tag h trackIndex).toOption) ↔
      ∀ i j, i < j → (h.id3Tag :: h.trackId3Tags).getD i [] = [] →
        (h.id3Tag :: h.trackId3Tags).getD j [] = [] := by
  have hless := List.length_filter_le (fun tag : Bytes => decide (tag ≠ []))
    (h.id3Tag :: h.trackId3Tags)
  rw [List.length_cons] at hless
  have gfits : ∀ tag ∈ g.trackId3Tags, tag.length ≤ maxAllocSize := by
    rw [htracks]
    exact fun tag htag => hfits tag (List.mem_filter.1 (List.mem_of_mem_tail htag)).1
  have gcount : g.trackId3Tags.length < 2 ^ 32 := by
    rw [htracks, List.length_tail, Handle.storedTags]
    omega
  have hfirst : g.id3Tag = h.storedTags.getD 0 [] := by
    rw [hid3]
    cases h.storedTags <;> rfl
  have hrest : ∀ i, g.trackId3Tags.getD i [] = h.storedTags.getD (i + 1) [] := by
    intro i
    rw [htracks]
    cases h.storedTags <;> rfl
  rw [trackTags_eq_iff gfits (List.forall_mem_cons.1 hfits).2 gcount hcount,
    ← filter_keeps_places_iff, hfirst]
  simp only [hrest]
  constructor
  · rintro ⟨hfile, htags⟩ i
    cases i with
    | zero => exact hfile
    | succ i => exact htags i
  · exact fun hplaces => ⟨hplaces 0, fun i => hplaces (i + 1)⟩

/-- The tags of the file and of every track are read back as theirs exactly when, in this order,
no tag stands behind a missing one. -/
theorem tags_keep_owners_iff (hprepared : Prepared h) (hfine : ∀ call ∈ calls, call.Fine)
    (hcounted : ∀ before, before <+: calls → (heldOf sampleRate before).Counted)
    (hname : ∀ pos, (compressionName .dsd).length ≤ nameLen pos)
    (hrun : writeDsd h channelCount sampleBits sampleRate calls ⟨[], 0⟩ = (.ok h', f))
    {fuel : Nat} {s : OpenHandle}
    (hopen : dsdiffOpen nameLen fuel (ioClose h'.mode f) = some (.ok s)) :
    (s.handle.id3Tag = h'.id3Tag ∧ ∀ trackIndex, (getTrackId3Tag s.handle trackIndex).toOption =
        (getTrackId3Tag h' trackIndex).toOption) ↔
      ∀ i j, i < j → (h'.id3Tag :: h'.trackId3Tags).getD i [] = [] →
        (h'.id3Tag :: h'.trackId3Tags).getD j [] = [] := by
  obtain ⟨written, g, hw, hp, hfinalize⟩ := writeDsd_held hprepared hfine hcounted hrun
  obtain ⟨fuel', s', hopen', hsays, -⟩ :=
    hw.opens (hcounted calls List.prefix_rfl) hp rfl hname hfinalize
  obtain rfl : s = s' := Except.ok.inj (dsdiffOpen_unique hopen hopen')
  rw [hw.file_eq] at hfinalize
  have hhandle := (finalize_layout hw.writing hw.content hw.room hfinalize).1
  have hid3 : h'.id3Tag = written.id3Tag := by rw [hhandle]; rfl
  have htracks : h'.trackId3Tags = written.trackId3Tags := by rw [hhandle]; rfl
  have hstored : h'.storedTags = (heldOf sampleRate calls).storedTags := by
    rw [Handle.storedTags, Held.storedTags, hid3, htracks, hw.id3Tag, hw.trackId3Tags]
  refine keeps_owners_iff ?_ ?_ ?_ ?_
  · rw [hstored]
    exact congrArg Contents.id3Tag hsays
  · rw [hstored]
    exact congrArg Contents.trackId3Tags hsays
  · rw [hid3, htracks]
    exact List.forall_mem_cons.2 ⟨hw.fits.id3Tag, hw.fits.trackId3Tags⟩
  · rw [htracks, hw.trackId3Tags]
    exact hw.trackCount

/-- The tag of a track of a file that has none of its own comes back as that of the file. -/
theorem tags_keep_owners_iff_stereo : ∃ h' f fuel s,
    writeDsd new 2 1 2822400 [.data [1, 2], .trackId3Tag 0 [9]] ⟨[], 0⟩ = (.ok h', f) ∧
      dsdiffOpen (fun _ => 255) fuel (ioClose h'.mode f) = some (.ok s) ∧
      ¬ (s.handle.id3Tag = h'.id3Tag ∧ ∀ trackIndex,
        (getTrackId3Tag s.handle trackIndex).toOption =
          (getTrackId3Tag h' trackIndex).toOption) := by
  have hcheck : (writeDsd new 2 1 2822400 [.data [1, 2], .trackId3Tag 0 [9]] ⟨[], 0⟩).1.toOption.any
      (fun h => h.id3Tag :: h.trackId3Tags = [[], [9]]) = true := by decide +kernel
  obtain ⟨h', f, hrun⟩ := exists_ok (show (writeDsd new 2 1 2822400
    [.data [1, 2], .trackId3Tag 0 [9]] ⟨[], 0⟩).1.toBool = true by decide +kernel)
  have htags : h'.id3Tag :: h'.trackId3Tags = [[], [9]] := by
    rw [hrun] at hcheck
    exact of_decide_eq_true hcheck
  have hfine : ∀ call ∈ [Call.data [1, 2], .trackId3Tag 0 [9]], call.Fine := by simp [Call.Fine]
  have hcounted : ∀ before, before <+: [Call.data [1, 2], .trackId3Tag 0 [9]] →
      (heldOf 2822400 before).Counted := fun before hbefore =>
    (by decide : ∀ before ∈ [Call.data [1, 2], .trackId3Tag 0 [9]].inits,
      (heldOf 2822400 before).Counted) before ((List.mem_inits before _).2 hbefore)
  have hname : ∀ pos : Nat, (compressionName .dsd).length ≤ (fun _ : Nat => 255) pos :=
    fun _ => (by decide : (compressionName .dsd).length ≤ 255)
  obtain ⟨written, g, hw, hp, hfinalize⟩ := writeDsd_held .new hfine hcounted hrun
  obtain ⟨fuel, s, hopen, -⟩ := hw.opens (hcounted _ List.prefix_rfl) hp rfl hname hfinalize
  refine ⟨h', f, fuel, s, hrun, hopen, fun hkept => ?_⟩
  have hbehind := (tags_keep_owners_iff .new hfine hcounted hname hrun hopen).1 hkept 0 1
    Nat.zero_lt_one
  rw [htags] at hbehind
  exact absurd (hbehind rfl) (by decide)

end RoundTrip

end DsdNexus.Dsdiff
