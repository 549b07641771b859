import DsdNexus.Dsdiff.ChunkBytes
import DsdNexus.Dsdiff.Handle

/-! # DSDIFF: the metadata in the file

What `dsdiff_finalize` puts behind the sound data: the bytes of each chunk, and that a file
that stands at its end has them appended, in the order of the writer.
-/

namespace DsdNexus.Dsdiff

open Program FileProgram Endian

/-! ## The pieces -/

section Pieces

theorem ioWriteBytes_emits (bytes : Bytes) : Emits (ioWriteBytes bytes) bytes := emits_emit _ _

theorem ioWriteUint8_emits (data : UInt8) : Emits (ioWriteUint8 data) (toBe 1 data.toNat) :=
  emits_emit _ _

theorem ioWriteUint16Be_emits (data : UInt16) :
    Emits (ioWriteUint16Be data) (toBe 2 data.toNat) := emits_emit _ _

theorem ioWriteUint32Be_emits (data : UInt32) :
    Emits (ioWriteUint32Be data) (toBe 4 data.toNat) := emits_emit _ _

theorem ioWriteUint64Be_emits (data : Nat) : Emits (ioWriteUint64Be data) (toBe 8 data) :=
  emits_emit _ _

theorem writeChunkHead_emits (type : ChunkType) (chunkSize : Nat) :
    Emits (writeChunkHead type chunkSize) (chunkHead type chunkSize) :=
  (ioWriteBytes_emits _).bind fun _ => ioWriteUint64Be_emits _

theorem writePadOf_emits (size : Nat) : Emits (writePadOf size) (padBytes size) := by
  unfold writePadOf padBytes
  split
  · exact ioWriteUint8_emits 0
  · exact Emits.pure ()

end Pieces

/-! ## Comments -/

/-- A comment as it is stored: its length is that of the text. -/
def commentBytes (comment : Comment) : Bytes :=
  toBe 2 comment.year.toNat ++ (toBe 1 comment.month.toNat ++ (toBe 1 comment.day.toNat ++
    (toBe 1 comment.hour.toNat ++ (toBe 1 comment.minute.toNat ++
    (toBe 2 comment.commentType.toNat ++ (toBe 2 comment.commentRef.toNat ++
    (toBe 4 (UInt32.ofNat (cstring comment.text).length).toNat ++
    (cstring comment.text ++ padBytes (cstring comment.text).length))))))))

def comtChunk (commentCount : UInt16) (comments : List Comment) : Bytes :=
  chunkHead .comt (2 + ((comments.take commentCount.toNat).map Comment.size).sum) ++
    (toBe 2 commentCount.toNat ++ (comments.take commentCount.toNat).flatMap commentBytes)

theorem writeComment_emits (comment : Comment) :
    Emits (writeComment comment) (commentBytes comment) :=
  (ioWriteUint16Be_emits _).bind fun _ => (ioWriteUint8_emits _).bind fun _ =>
  (ioWriteUint8_emits _).bind fun _ => (ioWriteUint8_emits _).bind fun _ =>
  (ioWriteUint8_emits _).bind fun _ => (ioWriteUint16Be_emits _).bind fun _ =>
  (ioWriteUint16Be_emits _).bind fun _ => (ioWriteUint32Be_emits _).bind fun _ =>
  (ioWriteBytes_emits _).bind fun _ => writePadOf_emits _

theorem writeComments_emits (comments : List Comment) :
    Emits (writeComments comments) (comments.flatMap commentBytes) := by
  induction comments with
  | nil => exact Emits.pure ()
  | cons comment comments ih => exact (writeComment_emits comment).bind fun _ => ih

theorem chunkWriteComt_emits (commentCount : UInt16) (comments : List Comment) :
    Emits (chunkWriteComt commentCount comments) (comtChunk commentCount comments) :=
  (writeChunkHead_emits _ _).bind fun _ => (ioWriteUint16Be_emits _).bind fun _ =>
    writeComments_emits _

/-! ## DIIN -/

def emidChunk (emid : Bytes) : Bytes :=
  chunkHead .emid emid.length ++ (emid ++ padBytes emid.length)

/-- DIAR and DITI. -/
def countedTextChunk (type : ChunkType) (text : Bytes) : Bytes :=
  chunkHead type (text.length + 4 + text.length % 2) ++
    (toBe 4 (UInt32.ofNat text.length).toNat ++ (text ++ padBytes text.length))

def markChunk (marker : Marker) : Bytes :=
  chunkHead .mark ((cstring marker.markerText).length + 22 +
      (cstring marker.markerText).length % 2) ++
    (toBe 2 marker.time.hours.toNat ++ (toBe 1 marker.time.minutes.toNat ++
    (toBe 1 marker.time.seconds.toNat ++ (toBe 4 marker.time.samples.toNat ++
    (toBe 4 marker.offset.toNat ++ (toBe 2 marker.markType.toNat ++
    (toBe 2 marker.markChannel.toNat ++ (toBe 2 marker.trackFlags.toNat ++
    (toBe 4 (UInt32.ofNat (cstring marker.markerText).length).toNat ++
    (cstring marker.markerText ++ padBytes (cstring marker.markerText).length))))))))))

theorem chunkWriteEmid_emits (emid : Bytes) : Emits (chunkWriteEmid emid) (emidChunk emid) :=
  (writeChunkHead_emits _ _).bind fun _ => (ioWriteBytes_emits _).bind fun _ =>
    writePadOf_emits _

theorem writeCountedText_emits (type : ChunkType) (text : Bytes) :
    Emits (writeCountedText type text) (countedTextChunk type text) :=
  .check <| (writeChunkHead_emits _ _).bind fun _ => (ioWriteUint32Be_emits _).bind fun _ =>
    (ioWriteBytes_emits _).bind fun _ => writePadOf_emits _

theorem chunkWriteMark_emits (marker : Marker) :
    Emits (chunkWriteMark marker) (markChunk marker) :=
  (writeChunkHead_emits _ _).bind fun _ => (ioWriteUint16Be_emits _).bind fun _ =>
  (ioWriteUint8_emits _).bind fun _ => (ioWriteUint8_emits _).bind fun _ =>
  (ioWriteUint32Be_emits _).bind fun _ => (ioWriteUint32Be_emits _).bind fun _ =>
  (ioWriteUint16Be_emits _).bind fun _ => (ioWriteUint16Be_emits _).bind fun _ =>
  (ioWriteUint16Be_emits _).bind fun _ => (ioWriteUint32Be_emits _).bind fun _ =>
  (ioWriteBytes_emits _).bind fun _ => writePadOf_emits _

/-- The chunk of a text the handle has. -/
def textBytes (has : Bool) (text : Option Bytes) (chunk : Bytes → Bytes) : Bytes :=
  if has then chunk (cstring (text.getD [])) else []

/-- What stands in DIIN. -/
def diinContents (h : Handle) : Bytes :=
  textBytes h.hasEmid h.emid emidChunk ++
    (h.markers.flatMap (fun entry => markChunk entry.marker) ++
    (textBytes h.hasDiscArtist h.discArtist (countedTextChunk .diar) ++
    textBytes h.hasDiscTitle h.discTitle (countedTextChunk .diti)))

def diinBytes (h : Handle) : Bytes :=
  if h.hasEmid ∨ h.hasDiscArtist ∨ h.hasDiscTitle ∨ h.markers ≠ [] then
    chunkHead .diin (diinContents h).length ++ diinContents h
  else []

theorem writeText_emits {has : Bool} {text : Option Bytes} {write : Bytes → Io Unit}
    {chunk : Bytes → Bytes} (hwrite : ∀ text, Emits (write text) (chunk text)) :
    Emits (writeText has text write) (textBytes has text chunk) := by
  refine Emits.when ?_
  cases text with
  | none =>
    intro f a g h
    cases h
  | some text => exact hwrite _

theorem writeMarkers_emits (entries : List MarkerEntry) :
    Emits (writeMarkers entries) (entries.flatMap fun entry => markChunk entry.marker) := by
  induction entries with
  | nil => exact Emits.pure ()
  | cons entry entries ih => exact (chunkWriteMark_emits entry.marker).bind fun _ => ih

theorem writeDiinContents_emits (h : Handle) :
    Emits (writeDiinContents h) (diinContents h) :=
  (writeText_emits chunkWriteEmid_emits).bind fun _ => (writeMarkers_emits _).bind fun _ =>
  (writeText_emits (writeCountedText_emits .diar)).bind fun _ =>
    writeText_emits (writeCountedText_emits .diti)

theorem ioSeekSet_of_le {p : Nat} (h : p ≤ ByteFile.offMax) (content : Bytes) (pos : Nat) :
    ioSeekSet p ⟨content, pos⟩ = (.ok (), ⟨content, p⟩) := by
  have hsigned : int64 p = p := int64_of_lt (by unfold ByteFile.offMax at h; omega)
  rw [ioSeekSet, hsigned]
  exact seek_of_le Error.seekFailed h ⟨content, pos⟩

/-- DIIN goes to the end of the file, with its size in the head that is written again. -/
theorem writeDiin_at_end (h : Handle) {pre : Bytes} {u : Unit} {f : ByteFile}
    (hpre : pre.length ≤ ByteFile.offMax) (hrun : writeDiin h ⟨pre, pre.length⟩ = (.ok u, f)) :
    f = ⟨pre ++ diinBytes h, (pre ++ diinBytes h).length⟩ ∧
      (pre ++ diinBytes h).length ≤ ByteFile.offMax := by
  unfold writeDiin diinBytes at *
  by_cases hany : h.hasEmid ∨ h.hasDiscArtist ∨ h.hasDiscTitle ∨ h.markers ≠ []
  · rw [when_of hany] at hrun
    rw [if_pos hany]
    rw [bind_of_ok (tell_apply _)] at hrun
    obtain ⟨_, f₁, hhead, hrun⟩ := bind_eq_ok hrun
    obtain ⟨rfl, hroom₁⟩ := (writeChunkHead_emits _ _).at_end hhead hpre
    obtain ⟨_, f₂, hcontents, hrun⟩ := bind_eq_ok hrun
    obtain ⟨rfl, hroom₂⟩ := (writeDiinContents_emits h).at_end hcontents hroom₁
    rw [bind_of_ok (tell_apply _), bind_of_ok (ioSeekSet_of_le hpre _ _)] at hrun
    have hsize : (pre ++ chunkHead .diin 0 ++ diinContents h).length - pre.length - 12 =
        (diinContents h).length := by
      rw [List.length_append, List.length_append, chunkHead_length (by decide)]
      omega
    have hlength : (chunkHead .diin 0).length =
        (chunkHead .diin (diinContents h).length).length := by
      rw [chunkHead_length (by decide), chunkHead_length (by decide)]
    have hwhole : (pre ++ chunkHead .diin 0 ++ diinContents h).length =
        (pre ++ (chunkHead .diin (diinContents h).length ++ diinContents h)).length := by
      rw [List.append_assoc, List.length_append, List.length_append, List.length_append,
        List.length_append, hlength]
    have hrewrite : chunkWriteDiinHeader (diinContents h).length
        ⟨pre ++ (chunkHead .diin 0 ++ diinContents h), pre.length⟩ = _ :=
      (writeChunkHead_prints .diin (diinContents h).length).writes.over pre (diinContents h)
        hlength (by
          rw [hwhole, List.length_append, List.length_append] at hroom₂
          omega)
    rw [← List.append_assoc] at hrewrite
    rw [hsize, bind_of_ok hrewrite, ioSeekSet_of_le hroom₂] at hrun
    cases hrun
    rw [hwhole] at hroom₂ ⊢
    exact ⟨rfl, hroom₂⟩
  · rw [when_of_not hany] at hrun
    rw [if_neg hany]
    cases hrun
    rw [List.append_nil]
    exact ⟨rfl, hpre⟩

/-! ## The index, tags and the manufacturer -/

def indexBytes (index : Index) : Bytes := toBe 8 index.offset ++ toBe 4 index.length.toNat

/-- DSTI. -/
def dstiChunk (indexes : List Index) : Bytes :=
  chunkHead .dsti (indexes.length * 12) ++ indexes.flatMap indexBytes

def indexChunk (h : Handle) : Bytes :=
  if h.isDstFormat ∧ h.dstFrameCount ≠ 0 ∧ h.mode ≠ .modify then
    dstiChunk (h.indexes.take h.dstFrameCount.toNat)
  else []

def id3Chunk (tagData : Bytes) : Bytes :=
  chunkHead .id3 tagData.length ++ (tagData ++ padBytes tagData.length)

/-- The tags of the tracks that have one. -/
def trackId3Bytes (tags : List Bytes) : Bytes :=
  tags.flatMap fun tag => if tag ≠ [] then id3Chunk tag else []

def manfChunk (manId data : Bytes) (dataSize : UInt32) : Bytes :=
  chunkHead .manf (4 + dataSize.toNat) ++ (manId ++ (data ++ padBytes dataSize.toNat))

theorem writeIndexes_emits (indexes : List Index) :
    Emits (writeIndexes indexes) (indexes.flatMap indexBytes) := by
  induction indexes with
  | nil => exact Emits.pure ()
  | cons index indexes ih =>
    have hfirst := (ioWriteUint64Be_emits index.offset).bind fun _ =>
      ioWriteUint32Be_emits index.length
    rw [List.flatMap_cons, indexBytes, List.append_assoc]
    exact (ioWriteUint64Be_emits index.offset).bind fun _ =>
      (ioWriteUint32Be_emits index.length).bind fun _ => ih

theorem writeIndex_emits (h : Handle) : Emits (writeIndex h) (indexChunk h) :=
  Emits.when ((writeChunkHead_emits _ _).bind fun _ => writeIndexes_emits _)

theorem chunkWriteId3_emits (tagData : Bytes) : Emits (chunkWriteId3 tagData) (id3Chunk tagData) :=
  .check <| (writeChunkHead_emits _ _).bind fun _ => (ioWriteBytes_emits _).bind fun _ =>
    writePadOf_emits _

theorem writeTrackId3s_emits (tags : List Bytes) :
    Emits (writeTrackId3s tags) (trackId3Bytes tags) := by
  induction tags with
  | nil => exact Emits.pure ()
  | cons tag tags ih => exact (Emits.when (chunkWriteId3_emits tag)).bind fun _ => ih

theorem chunkWriteManf_emits (manId data : Bytes) (dataSize : UInt32) :
    Emits (chunkWriteManf manId data dataSize) (manfChunk manId data dataSize) :=
  (writeChunkHead_emits _ _).bind fun _ => (ioWriteBytes_emits _).bind fun _ =>
    (ioWriteBytes_emits _).bind fun _ => writePadOf_emits _

/-! ## All of it -/

def commentsBytes (h : Handle) : Bytes :=
  if h.commentCount ≠ 0 then comtChunk h.commentCount h.comments else []

def fileId3Bytes (h : Handle) : Bytes := if h.id3Tag ≠ [] then id3Chunk h.id3Tag else []

def manufacturerBytes (h : Handle) : Bytes :=
  if h.hasManufacturer then manfChunk h.manufacturerId h.manufacturerData h.manufacturerDataSize
  else []

/-- What goes behind the sound data and its pad byte. -/
def metadataBytes (h : Handle) : Bytes :=
  diinBytes h ++ (indexChunk h ++ (commentsBytes h ++ (fileId3Bytes h ++
    (trackId3Bytes h.trackId3Tags ++ manufacturerBytes h))))

/-- In write mode each chunk may be written. -/
theorem isChunkWritable_of_write {h : Handle} (hmode : h.mode = .write) (position : Nat) :
    isChunkWritable h position = true := by
  simp [isChunkWritable, hmode]

theorem Emits.when_writable {p : Prop} [Decidable p] {b : Bool} {m : Io Unit} {xs : Bytes}
    (hm : Emits m xs) (hb : b = true) : Emits (when (p ∧ b = true) m) (if p then xs else []) := by
  have h := Emits.when (p := p ∧ b = true) hm
  simpa only [hb, and_true] using h

theorem writeMetadata_at_end {h : Handle} (hmode : h.mode = .write) {pre : Bytes} {u : Unit}
    {f : ByteFile} (hpre : pre.length ≤ ByteFile.offMax)
    (hrun : writeMetadata h ⟨pre, pre.length⟩ = (.ok u, f)) :
    f = ⟨pre ++ (padBytes h.soundDataSize ++ metadataBytes h),
        (pre ++ (padBytes h.soundDataSize ++ metadataBytes h)).length⟩ ∧
      (pre ++ (padBytes h.soundDataSize ++ metadataBytes h)).length ≤ ByteFile.offMax := by
  have hall := isChunkWritable_of_write hmode
  unfold writeMetadata at hrun
  obtain ⟨_, f₁, hpad, hrun⟩ := bind_eq_ok hrun
  obtain ⟨rfl, hroom₁⟩ := (writePadOf_emits _).at_end hpad hpre
  obtain ⟨_, f₂, hdiin, hrun⟩ := bind_eq_ok hrun
  rw [when_of (hall _)] at hdiin
  obtain ⟨rfl, hroom₂⟩ := writeDiin_at_end h hroom₁ hdiin
  have hrest : Emits (do
      writeIndex h
      when (h.commentCount ≠ 0 ∧ isChunkWritable h h.commentChunkPos)
        (chunkWriteComt h.commentCount h.comments)
      when (h.id3Tag ≠ [] ∧ isChunkWritable h h.id3ChunkPos) (chunkWriteId3 h.id3Tag)
      writeTrackId3s h.trackId3Tags
      when (h.hasManufacturer ∧ isChunkWritable h h.manufacturerChunkPos)
        (chunkWriteManf h.manufacturerId h.manufacturerData h.manufacturerDataSize))
      (indexChunk h ++ (commentsBytes h ++ (fileId3Bytes h ++
        (trackId3Bytes h.trackId3Tags ++ manufacturerBytes h)))) := by
    exact (writeIndex_emits h).bind fun _ =>
      (Emits.when_writable (chunkWriteComt_emits _ _) (hall _)).bind fun _ =>
      (Emits.when_writable (chunkWriteId3_emits _) (hall _)).bind fun _ =>
      (writeTrackId3s_emits _).bind fun _ =>
        Emits.when_writable (chunkWriteManf_emits _ _ _) (hall _)
  have hend := hrest.at_end hrun hroom₂
  simpa only [metadataBytes, List.append_assoc] using hend

end DsdNexus.Dsdiff
