import DsdNexus.Dsdpipe.Metadata
import Mathlib.Algebra.Order.BigOperators.Group.List

/-! # The ID3 tag of a DSF file

`build_id3_tag` fills a buffer with frames as far as they fit, and puts a header before them.
-/

namespace DsdNexus.Dsdpipe

/-- `write_syncsafe_int` -/
def writeSyncsafeInt (value : UInt32) : Bytes :=
  [((value >>> 21) &&& 0x7F).toUInt8, ((value >>> 14) &&& 0x7F).toUInt8,
    ((value >>> 7) &&& 0x7F).toUInt8, (value &&& 0x7F).toUInt8]

/-- `write_id3_text_frame`: what is written to a buffer of `bufSize` bytes. -/
def writeId3TextFrame (frameId text : Bytes) (bufSize : Nat) : Bytes :=
  if text = [] then []
  else
    let frameSize := 1 + text.length
    if bufSize < 10 + frameSize then []
    else frameId ++ writeSyncsafeInt (UInt32.ofNat frameSize) ++ [0, 0] ++ [3] ++ text

/-- `write_id3_track_frame` -/
def writeId3TrackFrame (trackNum trackTotal : UInt8) (bufSize : Nat) : Bytes :=
  let trackStr := if 0 < trackTotal then
      decimal trackNum.toNat ++ ascii "/" ++ decimal trackTotal.toNat
    else decimal trackNum.toNat
  writeId3TextFrame (ascii "TRCK") trackStr bufSize

/-- `write_id3_year_frame` -/
def writeId3YearFrame (year : UInt16) (bufSize : Nat) : Bytes :=
  if year = 0 then []
  else writeId3TextFrame (ascii "TYER") (decimal year.toNat) bufSize

/-- A frame is written behind those that are there; the first ten bytes are left free. -/
def appendFrame (bufSize : Nat) (frames : Bytes) (write : Nat → Bytes) : Bytes :=
  frames ++ write (bufSize - (10 + frames.length))

/-- The same for a text, where there is one. -/
def appendText (bufSize : Nat) (frames : Bytes) (frameId : Bytes) : Option CString → Bytes
  | some text => appendFrame bufSize frames (writeId3TextFrame frameId text.bytes)
  | none => frames

/-- The frames `build_id3_tag` writes. -/
def buildFrames (bufSize : Nat) (albumMeta trackMeta : Option Metadata) : Bytes :=
  let frames := appendText bufSize [] (ascii "TIT2") (trackMeta.bind Metadata.trackTitle)
  let frames := match trackMeta.bind Metadata.trackPerformer with
    | some text => appendText bufSize frames (ascii "TPE1") (some text)
    | none => appendText bufSize frames (ascii "TPE1") (albumMeta.bind Metadata.albumArtist)
  let frames := appendText bufSize frames (ascii "TALB") (albumMeta.bind Metadata.albumTitle)
  let frames := appendText bufSize frames (ascii "TPE2") (albumMeta.bind Metadata.albumArtist)
  let frames := match trackMeta with
    | some m => if 0 < m.trackNumber then
        appendFrame bufSize frames (writeId3TrackFrame m.trackNumber m.trackTotal) else frames
    | none => frames
  let frames := match albumMeta with
    | some m => if 0 < m.year then appendFrame bufSize frames (writeId3YearFrame m.year)
        else frames
    | none => frames
  let frames := match trackMeta.bind Metadata.genre with
    | some text => appendText bufSize frames (ascii "TCON") (some text)
    | none => appendText bufSize frames (ascii "TCON") (albumMeta.bind Metadata.genre)
  let frames := appendText bufSize frames (ascii "TCOM") (trackMeta.bind Metadata.trackComposer)
  let frames := match trackMeta with
    | some m => if m.isrc.bytes ≠ [] then
        appendText bufSize frames (ascii "TSRC") (some m.isrc) else frames
    | none => frames
  appendText bufSize frames (ascii "TPUB") (albumMeta.bind Metadata.albumPublisher)

/-- `build_id3_tag`: the bytes of the tag; none where it returns 0. -/
def buildId3Tag (bufSize : Nat) (albumMeta trackMeta : Option Metadata) : Bytes :=
  if bufSize < 128 then []
  else
    let frames := buildFrames bufSize albumMeta trackMeta
    if frames = [] then []
    else ascii "ID3" ++ [4, 0, 0] ++ writeSyncsafeInt (UInt32.ofNat frames.length) ++ frames

/-! ## What a tag has to be -/

/-- A field with the id of its frame. -/
structure Id3Field where
  frameId : Bytes
  text : Bytes
deriving DecidableEq

/-- The text of the track number. -/
def trackText (m : Metadata) : Option Bytes :=
  if m.trackNumber = 0 then none
  else if m.trackTotal = 0 then some (decimal m.trackNumber.toNat)
  else some (decimal m.trackNumber.toNat ++ ascii "/" ++ decimal m.trackTotal.toNat)

/-- A field that is there and is not empty. -/
def fieldOf (frameId : Bytes) (text : Option Bytes) : List Id3Field :=
  match text with
  | some text => if text = [] then [] else [⟨frameId, text⟩]
  | none => []

/-- The fields of a track and its album that a tag covers, without the empty ones. -/
def coveredFields (albumMeta trackMeta : Option Metadata) : List Id3Field :=
  let albumText := fun (f : Metadata → Option CString) => (albumMeta.bind f).map CString.bytes
  let trackText' := fun (f : Metadata → Option CString) => (trackMeta.bind f).map CString.bytes
  fieldOf (ascii "TIT2") (trackText' Metadata.trackTitle) ++
    fieldOf (ascii "TPE1") (trackText' Metadata.trackPerformer <|> albumText Metadata.albumArtist) ++
    fieldOf (ascii "TALB") (albumText Metadata.albumTitle) ++
    fieldOf (ascii "TPE2") (albumText Metadata.albumArtist) ++
    fieldOf (ascii "TRCK") (trackMeta.bind trackText) ++
    fieldOf (ascii "TYER") (albumMeta.bind fun m =>
      if m.year = 0 then none else some (decimal m.year.toNat)) ++
    fieldOf (ascii "TCON") (trackText' Metadata.genre <|> albumText Metadata.genre) ++
    fieldOf (ascii "TCOM") (trackText' Metadata.trackComposer) ++
    fieldOf (ascii "TSRC") (trackMeta.map fun m => m.isrc.bytes) ++
    fieldOf (ascii "TPUB") (albumText Metadata.albumPublisher)

/-- A syncsafe number. -/
def readSyncsafe (bytes : Bytes) : Nat := bytes.foldl (fun n b => n * 128 + b.toNat % 128) 0

/-- The bytes are a frame of the field, whose size is that of its content. -/
def IsFrameOf (field : Id3Field) (bytes : Bytes) : Prop :=
  ∃ size, bytes = field.frameId ++ size ++ [0, 0] ++ [3] ++ field.text ∧ size.length = 4 ∧
    readSyncsafe size = 1 + field.text.length

/-- A tag of the fields, each in one frame, in a buffer of `bufSize` bytes. -/
def IsTagOf (fields : List Id3Field) (bufSize : Nat) (tag : Bytes) : Prop :=
  ∃ size frames, tag = ascii "ID3" ++ [4, 0, 0] ++ size ++ frames.flatten ∧ size.length = 4 ∧
    readSyncsafe size = frames.flatten.length ∧ List.Forall₂ IsFrameOf fields frames ∧
    (fields.map Id3Field.frameId).Nodup ∧ tag.length ≤ bufSize

/-- The bytes of the frame of a field. -/
def Id3Field.frameLength (field : Id3Field) : Nat := 11 + field.text.length

/-! ## Syncsafe numbers -/

@[simp] theorem length_writeSyncsafeInt (value : UInt32) : (writeSyncsafeInt value).length = 4 := rfl

theorem readSyncsafe_writeSyncsafeInt (value : UInt32) :
    readSyncsafe (writeSyncsafeInt value) = value.toNat % 2 ^ 28 := by
  simp only [readSyncsafe, writeSyncsafeInt, List.foldl_cons, List.foldl_nil, UInt32.toNat_toUInt8,
    UInt32.toNat_and, UInt32.toNat_shiftRight]
  have h7F (n : Nat) : n &&& (127 : UInt32).toNat = n % 128 := Nat.and_two_pow_sub_one_eq_mod n 7
  simp only [h7F, Nat.shiftRight_eq_div_pow]
  simp
  omega

theorem readSyncsafe_ofNat {n : Nat} (hn : n < 2 ^ 28) :
    readSyncsafe (writeSyncsafeInt (UInt32.ofNat n)) = n := by
  rw [readSyncsafe_writeSyncsafeInt, UInt32.toNat_ofNat_of_lt' (by unfold UInt32.size; omega)]
  exact Nat.mod_eq_of_lt hn

/-- Four bytes hold 28 bits. -/
theorem readSyncsafe_lt {size : Bytes} (hsize : size.length = 4) : readSyncsafe size < 2 ^ 28 := by
  match size, hsize with
  | [a, b, c, d], _ =>
      simp only [readSyncsafe, List.foldl_cons, List.foldl_nil]
      omega

/-! ## The frames that fit -/

/-- The fields a tag covers in the order they are written, in `bufSize` bytes that hold
`frames`. -/
def writeFields (bufSize : Nat) (frames : Bytes) (fields : List Id3Field) : Bytes :=
  fields.foldl (fun frames f => appendFrame bufSize frames (writeId3TextFrame f.frameId f.text)) frames

theorem writeFields_append (bufSize : Nat) (frames : Bytes) (fields later : List Id3Field) :
    writeFields bufSize frames (fields ++ later) =
      writeFields bufSize (writeFields bufSize frames fields) later := List.foldl_append

theorem writeFields_fieldOf (bufSize : Nat) (frames frameId text : Bytes) :
    writeFields bufSize frames (fieldOf frameId (some text)) =
      appendFrame bufSize frames (writeId3TextFrame frameId text) := by
  by_cases htext : text = []
  · simp [fieldOf, writeFields, appendFrame, writeId3TextFrame, htext]
  · simp [fieldOf, writeFields, htext]

@[simp] theorem writeFields_fieldOf_none (bufSize : Nat) (frames frameId : Bytes) :
    writeFields bufSize frames (fieldOf frameId none) = frames := rfl

theorem appendText_eq (bufSize : Nat) (frames frameId : Bytes) (text : Option CString) :
    appendText bufSize frames frameId text =
      writeFields bufSize frames (fieldOf frameId (text.map CString.bytes)) := by
  cases text with
  | none => rfl
  | some text => exact (writeFields_fieldOf ..).symm

/-- A text of the track, and that of the album in its place. -/
theorem appendText_orElse (bufSize : Nat) (frames frameId : Bytes) (text other : Option CString) :
    (match text with
      | some text => appendText bufSize frames frameId (some text)
      | none => appendText bufSize frames frameId other) =
      writeFields bufSize frames
        (fieldOf frameId (text.map CString.bytes <|> other.map CString.bytes)) := by
  cases text with
  | none => simpa using appendText_eq bufSize frames frameId other
  | some text => exact appendText_eq bufSize frames frameId (some text)

theorem appendTrack_eq (bufSize : Nat) (frames : Bytes) (trackMeta : Option Metadata) :
    (match trackMeta with
      | some m => if 0 < m.trackNumber then
          appendFrame bufSize frames (writeId3TrackFrame m.trackNumber m.trackTotal) else frames
      | none => frames) =
      writeFields bufSize frames (fieldOf (ascii "TRCK") (trackMeta.bind trackText)) := by
  cases trackMeta with
  | none => rfl
  | some m =>
      by_cases hnumber : m.trackNumber = 0
      · simp [trackText, hnumber]
      · have hpos : 0 < m.trackNumber := UInt8.pos_iff_ne_zero.mpr hnumber
        by_cases htotal : m.trackTotal = 0
        · simp only [hpos, if_true, Option.bind_some, trackText, hnumber, if_false, htotal,
            writeFields_fieldOf]
          rfl
        · have htpos : 0 < m.trackTotal := UInt8.pos_iff_ne_zero.mpr htotal
          simp only [hpos, if_true, Option.bind_some, trackText, hnumber, if_false, htotal,
            writeFields_fieldOf]
          simp only [appendFrame, writeId3TrackFrame, htpos, if_true]

theorem appendYear_eq (bufSize : Nat) (frames : Bytes) (albumMeta : Option Metadata) :
    (match albumMeta with
      | some m => if 0 < m.year then appendFrame bufSize frames (writeId3YearFrame m.year)
          else frames
      | none => frames) =
      writeFields bufSize frames (fieldOf (ascii "TYER") (albumMeta.bind fun m =>
        if m.year = 0 then none else some (decimal m.year.toNat))) := by
  cases albumMeta with
  | none => rfl
  | some m =>
      by_cases hyear : m.year = 0
      · simp [hyear]
      · have hpos : 0 < m.year := UInt16.pos_iff_ne_zero.mpr hyear
        simp only [hpos, if_true, Option.bind_some, hyear, if_false, writeFields_fieldOf]
        simp only [appendFrame, writeId3YearFrame, hyear, if_false]

theorem appendIsrc_eq (bufSize : Nat) (frames : Bytes) (trackMeta : Option Metadata) :
    (match trackMeta with
      | some m => if m.isrc.bytes ≠ [] then
          appendText bufSize frames (ascii "TSRC") (some m.isrc) else frames
      | none => frames) =
      writeFields bufSize frames (fieldOf (ascii "TSRC") (trackMeta.map fun m => m.isrc.bytes)) := by
  cases trackMeta with
  | none => rfl
  | some m =>
      by_cases hisrc : m.isrc.bytes = []
      · simp [fieldOf, hisrc, writeFields]
      · simp only [ne_eq, hisrc, not_false_eq_true, if_true, Option.map_some]
        exact appendText_eq bufSize frames (ascii "TSRC") (some m.isrc)

theorem buildFrames_eq (bufSize : Nat) (albumMeta trackMeta : Option Metadata) :
    buildFrames bufSize albumMeta trackMeta =
      writeFields bufSize [] (coveredFields albumMeta trackMeta) := by
  simp only [buildFrames, appendText_orElse, appendTrack_eq, appendYear_eq, appendIsrc_eq]
  simp only [appendText_eq, coveredFields, writeFields_append]

/-- The bytes of the frame of a field. -/
def Id3Field.frame (f : Id3Field) : Bytes :=
  f.frameId ++ writeSyncsafeInt (UInt32.ofNat (1 + f.text.length)) ++ [0, 0] ++ [3] ++ f.text

/-- A field with a text, under an id of four bytes. -/
def Id3Field.Proper (f : Id3Field) : Prop := f.frameId.length = 4 ∧ f.text ≠ []

theorem Id3Field.length_frame {f : Id3Field} (hf : f.Proper) : f.frame.length = f.frameLength := by
  simp only [frame, frameLength, List.length_append, length_writeSyncsafeInt, hf.1,
    List.length_cons, List.length_nil]

theorem Id3Field.writeId3TextFrame_eq {f : Id3Field} (hf : f.Proper) (room : Nat) :
    writeId3TextFrame f.frameId f.text room = if f.frameLength ≤ room then f.frame else [] := by
  have heq : 10 + (1 + f.text.length) = f.frameLength := by unfold frameLength; omega
  simp only [writeId3TextFrame, hf.2, if_false, heq, ← Nat.not_le, ite_not, frame]

/-- The fields that are written where there is room for `room` bytes: one that does not fit is
left out, and the later ones are tried in its place. -/
def fitting : Nat → List Id3Field → List Id3Field
  | _, [] => []
  | room, f :: fields =>
      if f.frameLength ≤ room then f :: fitting (room - f.frameLength) fields
      else fitting room fields

theorem writeFields_eq {fields : List Id3Field} (hfields : ∀ f ∈ fields, f.Proper) (bufSize : Nat)
    (frames : Bytes) :
    writeFields bufSize frames fields = frames ++
      ((fitting (bufSize - (10 + frames.length)) fields).map Id3Field.frame).flatten := by
  induction fields generalizing frames with
  | nil => simp [writeFields, fitting]
  | cons f fields ih =>
      have hf := hfields f List.mem_cons_self
      have hcons : writeFields bufSize frames (f :: fields) = writeFields bufSize
          (appendFrame bufSize frames (writeId3TextFrame f.frameId f.text)) fields := rfl
      rw [hcons, ih fun g hg => hfields g (List.mem_cons_of_mem f hg), appendFrame,
        Id3Field.writeId3TextFrame_eq hf, fitting]
      by_cases hfit : f.frameLength ≤ bufSize - (10 + frames.length)
      · have hroom : bufSize - (10 + (frames ++ f.frame).length) =
            bufSize - (10 + frames.length) - f.frameLength := by
          rw [List.length_append, Id3Field.length_frame hf]
          omega
        simp only [if_pos hfit, hroom, List.map_cons, List.flatten_cons, List.append_assoc]
      · simp only [if_neg hfit, List.append_nil]

/-- The bytes the frames of the fields take. -/
def framesLength (fields : List Id3Field) : Nat := (fields.map Id3Field.frameLength).sum

theorem length_frames {fields : List Id3Field} (hfields : ∀ f ∈ fields, f.Proper) :
    (fields.map Id3Field.frame).flatten.length = framesLength fields := by
  induction fields with
  | nil => rfl
  | cons f fields ih =>
      simp only [List.map_cons, List.flatten_cons, List.length_append, framesLength, List.sum_cons,
        Id3Field.length_frame (hfields f List.mem_cons_self)]
      have hrest := ih fun g hg => hfields g (List.mem_cons_of_mem f hg)
      unfold framesLength at hrest
      omega

/-- Where all of them fit, none is left out. -/
theorem fitting_of_le {fields : List Id3Field} {room : Nat} (h : framesLength fields ≤ room) :
    fitting room fields = fields := by
  induction fields generalizing room with
  | nil => rfl
  | cons f fields ih =>
      have hsum : framesLength (f :: fields) = f.frameLength + framesLength fields := rfl
      rw [fitting, if_pos (by omega), ih (by omega)]

theorem fitting_eq_nil_iff {fields : List Id3Field} {room : Nat} :
    fitting room fields = [] ↔ ∀ f ∈ fields, room < f.frameLength := by
  induction fields with
  | nil => simp [fitting]
  | cons f fields ih =>
      by_cases hfit : f.frameLength ≤ room
      · simp [fitting, hfit]
      · simp [fitting, hfit, ih, Nat.lt_of_not_le hfit]

/-! ## The tag -/

theorem mem_fieldOf {frameId : Bytes} {text : Option Bytes} {f : Id3Field}
    (hf : f ∈ fieldOf frameId text) : f.frameId = frameId ∧ f.text ≠ [] := by
  cases text with
  | none => cases hf
  | some text =>
      by_cases htext : text = []
      · simp [fieldOf, htext] at hf
      · simp only [fieldOf, htext, if_false, List.mem_singleton] at hf
        exact hf ▸ ⟨rfl, htext⟩

theorem coveredFields_proper (albumMeta trackMeta : Option Metadata) :
    ∀ f ∈ coveredFields albumMeta trackMeta, f.Proper := by
  intro f hf
  simp only [coveredFields, List.mem_append, or_assoc] at hf
  rcases hf with hf | hf | hf | hf | hf | hf | hf | hf | hf | hf
  all_goals exact ⟨by rw [(mem_fieldOf hf).1]; rfl, (mem_fieldOf hf).2⟩

/-- The ids of the frames in the order they are written. -/
def frameIds : List Bytes :=
  [ascii "TIT2", ascii "TPE1", ascii "TALB", ascii "TPE2", ascii "TRCK", ascii "TYER",
    ascii "TCON", ascii "TCOM", ascii "TSRC", ascii "TPUB"]

theorem frameIds_nodup : frameIds.Nodup := by decide

theorem fieldOf_sublist (frameId : Bytes) (text : Option Bytes) :
    ((fieldOf frameId text).map Id3Field.frameId).Sublist [frameId] := by
  cases text with
  | none => exact List.nil_sublist _
  | some text => by_cases htext : text = [] <;> simp [fieldOf, htext]

theorem coveredFields_sublist (albumMeta trackMeta : Option Metadata) :
    ((coveredFields albumMeta trackMeta).map Id3Field.frameId).Sublist frameIds := by
  simp only [coveredFields, List.map_append]
  exact ((((((((fieldOf_sublist _ _).append (fieldOf_sublist _ _)).append
    (fieldOf_sublist _ _)).append (fieldOf_sublist _ _)).append (fieldOf_sublist _ _)).append
    (fieldOf_sublist _ _)).append (fieldOf_sublist _ _)).append (fieldOf_sublist _ _)).append
    (fieldOf_sublist _ _) |>.append (fieldOf_sublist _ _)

theorem buildId3Tag_eq {bufSize : Nat} (hsize : 128 ≤ bufSize)
    (albumMeta trackMeta : Option Metadata) :
    buildId3Tag bufSize albumMeta trackMeta =
      let kept := fitting (bufSize - 10) (coveredFields albumMeta trackMeta)
      let frames := (kept.map Id3Field.frame).flatten
      if kept = [] then []
      else ascii "ID3" ++ [4, 0, 0] ++ writeSyncsafeInt (UInt32.ofNat frames.length) ++ frames := by
  have hframes := writeFields_eq (coveredFields_proper albumMeta trackMeta) bufSize []
  simp only [List.nil_append, List.length_nil, Nat.add_zero] at hframes
  have hempty : ((fitting (bufSize - 10) (coveredFields albumMeta trackMeta)).map
      Id3Field.frame).flatten = [] ↔
      fitting (bufSize - 10) (coveredFields albumMeta trackMeta) = [] := by
    rw [List.flatten_eq_nil_iff]
    constructor
    · intro h
      refine List.eq_nil_iff_forall_not_mem.mpr fun f hf => ?_
      have := h f.frame (List.mem_map_of_mem hf)
      simp [Id3Field.frame] at this
    · intro h
      simp [h]
  simp only [buildId3Tag, Nat.not_lt.mpr hsize, if_false, buildFrames_eq, hframes, hempty]

/-- No tag is made exactly when no frame fits. -/
theorem buildId3Tag_eq_nil_iff {bufSize : Nat} (hsize : 128 ≤ bufSize)
    (albumMeta trackMeta : Option Metadata) :
    buildId3Tag bufSize albumMeta trackMeta = [] ↔
      ∀ f ∈ coveredFields albumMeta trackMeta, bufSize < 10 + f.frameLength := by
  have hnone : fitting (bufSize - 10) (coveredFields albumMeta trackMeta) = [] ↔
      ∀ f ∈ coveredFields albumMeta trackMeta, bufSize < 10 + f.frameLength := by
    rw [fitting_eq_nil_iff]
    exact forall₂_congr fun f _ => by omega
  rw [buildId3Tag_eq hsize, ← hnone]
  by_cases h : fitting (bufSize - 10) (coveredFields albumMeta trackMeta) = []
  · simp [h]
  · simp [h, ascii]

theorem length_of_isFrameOf {f : Id3Field} (hf : f.Proper) {bytes : Bytes} (h : IsFrameOf f bytes) :
    bytes.length = f.frameLength := by
  obtain ⟨size, rfl, hsize, -⟩ := h
  simp only [List.length_append, hf.1, hsize, List.length_cons, List.length_nil,
    Id3Field.frameLength]

theorem length_of_areFramesOf {fields : List Id3Field} (hfields : ∀ f ∈ fields, f.Proper)
    {frames : List Bytes} (h : List.Forall₂ IsFrameOf fields frames) :
    frames.flatten.length = framesLength fields := by
  induction h with
  | nil => rfl
  | @cons f bytes fields frames hframe _ ih =>
      have hsum : framesLength (f :: fields) = f.frameLength + framesLength fields := rfl
      rw [List.flatten_cons, List.length_append, hsum,
        length_of_isFrameOf (hfields f List.mem_cons_self) hframe,
        ih fun g hg => hfields g (List.mem_cons_of_mem f hg)]

/-- A tag of all the fields is no longer than its buffer and than 28 bits can tell. -/
theorem IsTagOf.framesLength_le {fields : List Id3Field} (hfields : ∀ f ∈ fields, f.Proper)
    {bufSize : Nat} {tag : Bytes} (h : IsTagOf fields bufSize tag) :
    framesLength fields + 10 ≤ bufSize ∧ framesLength fields < 2 ^ 28 := by
  obtain ⟨size, frames, rfl, hsize, hread, hframes, -, hle⟩ := h
  have hlength := length_of_areFramesOf hfields hframes
  have hmagic : (ascii "ID3").length = 3 := rfl
  simp only [List.length_append, hsize, hmagic, List.length_cons, List.length_nil] at hle
  have hlt := readSyncsafe_lt hsize
  omega

theorem frameLength_le_framesLength {fields : List Id3Field} {f : Id3Field} (hf : f ∈ fields) :
    f.frameLength ≤ framesLength fields :=
  List.single_le_sum (fun _ _ => Nat.zero_le _) _ (List.mem_map_of_mem hf)

theorem isFrameOf_frame {f : Id3Field} (hlt : f.frameLength < 2 ^ 28) : IsFrameOf f f.frame :=
  ⟨_, rfl, rfl, readSyncsafe_ofNat (by unfold Id3Field.frameLength at hlt; omega)⟩

theorem areFramesOf {fields : List Id3Field} (hlt : framesLength fields < 2 ^ 28) :
    List.Forall₂ IsFrameOf fields (fields.map Id3Field.frame) := by
  rw [List.forall₂_map_right_iff, List.forall₂_same]
  exact fun f hf => isFrameOf_frame (Nat.lt_of_le_of_lt (frameLength_le_framesLength hf) hlt)

/-- Where all the frames fit, the tag has them all. -/
theorem buildId3Tag_complete {bufSize : Nat} {albumMeta trackMeta : Option Metadata}
    (hsize : 128 ≤ bufSize)
    (hfit : framesLength (coveredFields albumMeta trackMeta) + 10 ≤ bufSize)
    (hlt : framesLength (coveredFields albumMeta trackMeta) < 2 ^ 28)
    (hfields : coveredFields albumMeta trackMeta ≠ []) :
    IsTagOf (coveredFields albumMeta trackMeta) bufSize
      (buildId3Tag bufSize albumMeta trackMeta) := by
  have hproper := coveredFields_proper albumMeta trackMeta
  have hlength := length_frames hproper
  have hkept : fitting (bufSize - 10) (coveredFields albumMeta trackMeta) =
      coveredFields albumMeta trackMeta := fitting_of_le (by omega)
  rw [buildId3Tag_eq hsize]
  simp only [hkept, hfields, if_false]
  refine ⟨_, _, rfl, rfl, ?_, areFramesOf hlt,
    (coveredFields_sublist albumMeta trackMeta).nodup frameIds_nodup, ?_⟩
  · rw [hlength]
    exact readSyncsafe_ofNat hlt
  · have hmagic : (ascii "ID3").length = 3 := rfl
    simp only [List.length_append, length_writeSyncsafeInt, hmagic, hlength, List.length_cons,
      List.length_nil]
    omega

/-- A tag tells every field exactly when no frame is refused while another is written, and
28 bits can tell its size. -/
theorem buildId3Tag_tells_iff (bufSize : Nat) (albumMeta trackMeta : Option Metadata) :
    (buildId3Tag bufSize albumMeta trackMeta = [] ∨
        IsTagOf (coveredFields albumMeta trackMeta) bufSize
          (buildId3Tag bufSize albumMeta trackMeta)) ↔
      bufSize < 128 ∨
        (∀ f ∈ coveredFields albumMeta trackMeta, bufSize < 10 + f.frameLength) ∨
        (framesLength (coveredFields albumMeta trackMeta) + 10 ≤ bufSize ∧
          framesLength (coveredFields albumMeta trackMeta) < 2 ^ 28) := by
  by_cases hsize : bufSize < 128
  · simp [buildId3Tag, hsize]
  · have hle : 128 ≤ bufSize := Nat.not_lt.mp hsize
    rw [buildId3Tag_eq_nil_iff hle]
    constructor
    · rintro (h | h)
      · exact .inr (.inl h)
      · exact .inr (.inr (h.framesLength_le (coveredFields_proper albumMeta trackMeta)))
    · rintro (h | h | ⟨hfit, hlt⟩)
      · exact absurd h hsize
      · exact .inl h
      · by_cases hfields : coveredFields albumMeta trackMeta = []
        · exact .inl (by simp [hfields])
        · exact .inr (buildId3Tag_complete hle hfit hlt hfields)

/-- A title of `n` bytes, and a name of the album that is short. -/
private def titleOf (n : Nat) : Metadata :=
  { trackTitle := some ⟨List.replicate n 0x41, fun h => absurd (List.eq_of_mem_replicate h) (by decide)⟩ }

private def shortAlbum : Metadata := { albumTitle := some ⟨ascii "B", by decide⟩ }

private theorem fields_titleOf {n : Nat} (hn : 0 < n) :
    coveredFields (some shortAlbum) (some (titleOf n)) =
      [⟨ascii "TIT2", List.replicate n 0x41⟩, ⟨ascii "TALB", ascii "B"⟩] := by
  have hne : List.replicate n (0x41 : UInt8) ≠ [] := by simp; omega
  have halbum : ascii "B" ≠ [] := by decide
  simp [coveredFields, titleOf, shortAlbum, fieldOf, hne, halbum, emptyString, trackText]

private theorem framesLength_titleOf {n : Nat} (hn : 0 < n) :
    framesLength (coveredFields (some shortAlbum) (some (titleOf n))) = n + 23 := by
  have halbum : (ascii "B").length = 1 := rfl
  rw [fields_titleOf hn]
  simp only [framesLength, Id3Field.frameLength, List.map_cons, List.map_nil, List.sum_cons,
    List.sum_nil, List.length_replicate, halbum]
  omega

/-- A title of 8192 bytes does not fit in the buffer the sink has, and a tag is made without
it. -/
theorem long_title_dropped :
    ¬ ∀ (bufSize : Nat) (albumMeta trackMeta : Option Metadata),
      buildId3Tag bufSize albumMeta trackMeta = [] ∨
        IsTagOf (coveredFields albumMeta trackMeta) bufSize
          (buildId3Tag bufSize albumMeta trackMeta) := by
  intro h
  have hpos : 0 < 8192 := by decide
  rcases h 8192 (some shortAlbum) (some (titleOf 8192)) with h | h
  · have halbum := (buildId3Tag_eq_nil_iff (by decide) _ _).mp h ⟨ascii "TALB", ascii "B"⟩
      (by rw [fields_titleOf hpos]; exact List.mem_cons_of_mem _ List.mem_cons_self)
    revert halbum
    decide
  · have hle := (h.framesLength_le (coveredFields_proper _ _)).1
    rw [framesLength_titleOf hpos] at hle
    omega

end DsdNexus.Dsdpipe
