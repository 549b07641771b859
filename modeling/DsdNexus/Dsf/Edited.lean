import DsdNexus.Dsf.RoundTrip

/-! # DSF: a file that is finalized again

`dsf_finalize` takes the place of its file for the end of the audio. Right after writing it
is; a second call finds the file behind the metadata, and in modify mode it stands where
opening, reads and seeks have left it.
-/

namespace DsdNexus

/-- Bytes that stand in front are not touched by what is written behind them. -/
theorem Patch.patch_behind {α : Type} (fill : α) (pre xs ys : List α) (q : Nat) :
    patch fill (pre ++ xs) (pre.length + q, ys) = pre ++ patch fill xs (q, ys) := by
  have hgap : pre.length + q - (pre.length + xs.length) = q - xs.length := by omega
  by_cases hnone : ys = []
  · rw [patch, patch, if_pos hnone, if_pos hnone]
  · rw [patch, patch, if_neg hnone, if_neg hnone, overwrite, overwrite, List.length_append, hgap,
      Range.finish, Range.finish, List.append_assoc pre, List.take_length_add_append,
      Nat.add_assoc, List.drop_length_add_append, List.append_assoc, List.append_assoc,
      List.append_assoc]

namespace ByteFile

theorem truncate_behind (pre xs : List UInt8) (q : Nat) :
    truncate ⟨pre ++ xs, pre.length + q⟩ = pre ++ truncate ⟨xs, q⟩ := by
  have hgap : pre.length + q - (pre.length + xs.length) = q - xs.length := by omega
  simp only [truncate, List.length_append, hgap, List.take_length_add_append, List.append_assoc]

/-- What is written last is the end of the file that is cut off behind it. -/
theorem write_truncate (f : ByteFile) (bytes : List UInt8) :
    (f.write bytes).truncate = f.truncate ++ bytes := by
  by_cases hnone : bytes = []
  · rw [hnone, write_nil, List.append_nil]
  · have hfront : ((f.content ++ List.replicate (f.pos - f.content.length) 0).take f.pos).length =
        f.pos := by
      rw [List.length_take, List.length_append, List.length_replicate]
      omega
    have hcontent : (f.write bytes).content =
        (f.content ++ List.replicate (f.pos - f.content.length) 0).take f.pos ++ bytes ++
          f.content.drop (f.pos + bytes.length) := by
      rw [write, Patch.patch, if_neg hnone]
      rfl
    have hkept : (f.content ++ List.replicate (f.pos - f.content.length) 0).take f.pos =
        f.truncate := by
      rw [truncate, List.take_append, List.take_replicate]
      congr 2
      omega
    have hends : f.pos + bytes.length - (f.write bytes).content.length = 0 := by
      rw [hcontent, List.length_append, List.length_append, hfront]
      omega
    rw [truncate, write_pos, hends, List.replicate_zero, List.append_nil, hcontent,
      List.take_left' (by rw [List.length_append, hfront]), hkept]

end ByteFile

namespace Dsf

open Program FileProgram Endian Blocks
open Vfs (columnsOf)

/-! ## What finalizing does to a file -/

/-- The handle after `dsf_finalize`, which took the audio for so many bytes. -/
def Handle.finalized (h : Handle) (q : Nat) : Handle :=
  { h with info := { h.info with
      audioDataSize := q
      fileSize := headSize + q + h.metadata.length
      metadataOffset := offsetOf h.metadata (headSize + q) } }

/-- The numbers it writes over those of the file. -/
def Numbers.finalized (n : Numbers) (h : Handle) (q : Nat) : Numbers where
  fileSize := headSize + q + h.metadata.length
  metadataOffset := if h.metadata = [] then n.metadataOffset else headSize + q
  sampleCount := h.info.sampleCount
  chunkSize := dataChunkHeaderSize + q

section Finalize

variable {info : FileInfo} {n : Numbers} {body : Bytes} {h : Handle} {q : Nat}

theorem layout_front (info : FileInfo) (n : Numbers) (body : Bytes) :
    layout info n body = layout info n [] ++ body := by rw [layout_append, List.nil_append]

theorem layout_front_length (info : FileInfo) (n : Numbers) :
    (layout info n []).length = headSize := layout_length info n []

/-- The metadata are written where the file stands. -/
theorem writeMetadataOf_layout (info : FileInfo) (n : Numbers) (body : Bytes)
    {metadata : Bytes} (hle : metadata.length ≤ maxReasonableMetadataSize)
    (hroom : headSize + q + metadata.length ≤ ByteFile.offMax) :
    writeMetadataOf metadata ⟨layout info n body, headSize + q⟩ =
      (.ok (offsetOf metadata (headSize + q)),
        ⟨layout info n (Patch.patch 0 body (q, metadata)), headSize + q + metadata.length⟩) := by
  have hpatch : Patch.patch 0 (layout info n body) (headSize + q, metadata) =
      layout info n (Patch.patch 0 body (q, metadata)) := by
    rw [layout_front, layout_front info n (Patch.patch _ _ _), ← layout_front_length info n,
      Patch.patch_behind]
  by_cases hnone : metadata = []
  · rw [hnone, writeMetadataOf, if_neg (by simp)]
    rfl
  · have hwrite : ioWriteBytes metadata ⟨layout info n body, headSize + q⟩ =
        (.ok (), ⟨layout info n (Patch.patch 0 body (q, metadata)),
          headSize + q + metadata.length⟩) := by
      rw [← hpatch]
      exact if_pos hroom
    rw [writeMetadataOf, if_pos hnone, chunkWriteMetadata, require_bind hnone, require_bind hle,
      bind_of_ok (tell_apply _), offsetOf, if_neg hnone]
    exact bind_of_ok hwrite

theorem updateOffset_layout (info : FileInfo) (n : Numbers) (body metadata : Bytes) {pos : Nat}
    (hpos : pos ≤ ByteFile.offMax) :
    when (0 < offsetOf metadata (headSize + q))
        (chunkUpdateMetadataOffset (offsetOf metadata (headSize + q)))
        ⟨layout info n body, pos⟩ =
      (.ok (), ⟨layout info { n with
        metadataOffset := if metadata = [] then n.metadataOffset else headSize + q } body,
        pos⟩) := by
  by_cases hnone : metadata = []
  · rw [offsetOf, if_pos hnone, when_of_not (Nat.lt_irrefl 0), if_pos hnone]
    rfl
  · have hhead : 0 < headSize + q := Nat.add_pos_left (by decide) q
    rw [offsetOf, if_neg hnone, when_of hhead, if_neg hnone,
      chunkUpdateMetadataOffset_layout info n body hpos]

/-- Where nothing is buffered, what lies before the place of the file is taken for the audio,
and the metadata are written there. -/
theorem finalize_layout (info : FileInfo) (n : Numbers) (body : Bytes)
    (hmode : h.mode = .write ∨ h.mode = .modify) (hclean : h.bytesBuffered = 0)
    (hle : h.metadata.length ≤ maxReasonableMetadataSize)
    (hroom : headSize + q + h.metadata.length ≤ ByteFile.offMax) :
    finalize ⟨h, ⟨layout info n body, headSize + q⟩⟩ =
      (.ok (), ⟨h.finalized q, ⟨layout info (n.finalized h q)
        (Patch.patch 0 body (q, h.metadata)), headSize + q + h.metadata.length⟩⟩) := by
  have hpos : headSize + q ≤ ByteFile.offMax := by omega
  have hmax : ByteFile.offMax = 2 ^ 63 - 1 := rfl
  have hsize : uint64 ((headSize + q : Nat) -
      (dsdChunkSize + fmtChunkSize + dataChunkHeaderSize : Nat)) = q := by
    have hhead : dsdChunkSize + fmtChunkSize + dataChunkHeaderSize = headSize := rfl
    have hdiff : ((headSize + q : Nat) : Int) - (headSize : Nat) = q := by omega
    rw [hhead, hdiff, uint64_of_nat (by omega)]
  have hfit : q + dataChunkHeaderSize < 2 ^ 64 := by
    have hheader : dataChunkHeaderSize = 12 := rfl
    omega
  have hnothing : ¬ (h.mode = .write ∧ 0 < h.bytesBuffered) := by omega
  have hdata := chunkUpdateDataSize_layout info n body hpos hfit
  have hsamples := chunkUpdateSampleCount_layout info
    { n with chunkSize := dataChunkHeaderSize + q } body hpos h.info.sampleCount
  have hput := writeMetadataOf_layout info
    { n with sampleCount := h.info.sampleCount, chunkSize := dataChunkHeaderSize + q } body
    hle hroom
  have hfile := chunkUpdateFileSize_layout info
    { n with sampleCount := h.info.sampleCount, chunkSize := dataChunkHeaderSize + q }
    (Patch.patch 0 body (q, h.metadata)) hroom (headSize + q + h.metadata.length)
  have hoffset := updateOffset_layout info
    { n with
      fileSize := headSize + q + h.metadata.length
      sampleCount := h.info.sampleCount, chunkSize := dataChunkHeaderSize + q }
    (Patch.patch 0 body (q, h.metadata)) h.metadata (q := q) hroom
  rw [finalize, bind_of_ok (get_apply _), require_bind hmode, when_of_not hnothing]
  simp only [bind_apply, pure_apply, liftIo, zoom_apply, tell_apply, hsize, hdata, update,
    modify_apply, get_apply, hsamples, hput, hfile, hoffset]
  rfl

/-- What is closed then is the head, as many bytes as the place said, and the metadata. -/
theorem dsfClose_finalized (hmode : h.mode = .write ∨ h.mode = .modify) (n' : Numbers)
    (metadata : Bytes) :
    dsfClose ⟨h, ⟨layout info n' (Patch.patch 0 body (q, metadata)),
        headSize + q + metadata.length⟩⟩ =
      layout info n' (ByteFile.truncate ⟨body, q⟩ ++ metadata) := by
  have hwrite := ByteFile.write_truncate ⟨body, q⟩ metadata
  have hfront := ByteFile.truncate_behind (layout info n' []) (Patch.patch 0 body (q, metadata))
    (q + metadata.length)
  rw [layout_front_length, ← Nat.add_assoc] at hfront
  rw [dsfClose, ioClose, if_pos hmode, layout_front, hfront, layout_front info n' (_ ++ _),
    ← hwrite]
  rfl

/-- At the end of the file nothing is lost. -/
theorem finalize_at_end (info : FileInfo) (n : Numbers) (body : Bytes)
    (hmode : h.mode = .write ∨ h.mode = .modify) (hclean : h.bytesBuffered = 0)
    (hle : h.metadata.length ≤ maxReasonableMetadataSize)
    (hroom : headSize + (body ++ h.metadata).length ≤ ByteFile.offMax) :
    finalize ⟨h, ⟨layout info n body, headSize + body.length⟩⟩ =
      (.ok (), ⟨h.finalized body.length, ⟨layout info (n.finalized h body.length)
        (body ++ h.metadata), headSize + (body ++ h.metadata).length⟩⟩) := by
  rw [List.length_append, ← Nat.add_assoc] at hroom ⊢
  rw [finalize_layout info n body hmode hclean hle hroom, Patch.patch_at_end]

theorem dsfClose_at_end (hmode : h.mode = .write ∨ h.mode = .modify) :
    dsfClose ⟨h, ⟨layout info n body, headSize + body.length⟩⟩ = layout info n body := by
  rw [dsfClose, ioClose, if_pos hmode]
  exact (ByteFile.truncate_eq_iff _).2 (layout_length info n body).symm

end Finalize

/-! ## Finalizing twice -/

section Twice

variable {info : FileInfo} {audio tag : Bytes} {s : OpenHandle}

/-- Finalizing is writing the last block and then finalizing a handle with empty buffers. -/
theorem Given.flushed (h : Given info audio tag s) (hc : 0 < info.channelCount.toNat)
    (hsize : dataChunkHeaderSize + roundUp (groupSize info.channelCount.toNat) audio.length ≤
      maxReasonableChunkSize) {body : Bytes}
    (hbody : audioBytes info.channelCount.toNat (columnsOf info.channelCount.toNat audio) = body) :
    ∃ handle : Handle, handle.mode = .write ∧ handle.bytesBuffered = 0 ∧ handle.metadata = tag ∧
      handle.info.sampleCount = audio.length / info.channelCount.toNat * samplesPerByte info ∧
      Dsf.finalize s = Dsf.finalize ⟨handle,
        ⟨layout info ⟨0, 0, 0, dataChunkHeaderSize⟩ body, headSize + body.length⟩⟩ := by
  have hlength := audioBytes_columnsOf_length hc h.whole
  have hmode : s.handle.mode = .write ∨ s.handle.mode = .modify := .inl h.holds.mode
  have hmax : maxReasonableChunkSize + headSize ≤ ByteFile.offMax := by decide
  rcases flush_outcome h.holds with ⟨t, hflush, hflushed, hmetadata, hcount⟩ | ⟨hroom, -⟩
  · rw [hbody] at hflushed
    have hnothing : ¬ (t.handle.mode = .write ∧ 0 < t.handle.bytesBuffered) := by
      rw [hflushed.bytesBuffered]
      exact fun hsome => Nat.lt_irrefl 0 hsome.2
    have hwritten : t.handle.mode = .write ∨ t.handle.mode = .modify := .inl hflushed.mode
    have hsame : Dsf.finalize s = Dsf.finalize t := by
      rw [Dsf.finalize, bind_of_ok (get_apply s), require_bind hmode, bind_of_ok hflush,
        bind_of_ok (get_apply t), require_bind hwritten, when_of_not hnothing]
      rfl
    refine ⟨t.handle, hflushed.mode, hflushed.bytesBuffered, hmetadata.trans h.metadata, ?_, ?_⟩
    · rw [hcount, h.sampleCount, h.samplesWritten]
    · rw [hsame, ← hflushed.io]
  · rw [hlength] at hroom
    omega

/-- A second call appends the metadata again and counts the first ones to the audio. -/
theorem Given.finalize_finalize (h : Given info audio tag s) (hc : 0 < info.channelCount.toNat)
    (hsize : dataChunkHeaderSize + roundUp (groupSize info.channelCount.toNat) audio.length ≤
      maxReasonableChunkSize) :
    ∃ t u, Dsf.finalize s = (.ok (), t) ∧ Dsf.finalize t = (.ok (), u) ∧
      (dsfClose u = dsfClose t ↔ tag = []) := by
  generalize hbody : audioBytes info.channelCount.toNat
    (columnsOf info.channelCount.toNat audio) = body
  obtain ⟨handle, hmode, hclean, htag, -, hfinal⟩ := h.flushed hc hsize hbody
  have hlength := audioBytes_columnsOf_length hc h.whole
  rw [hbody] at hlength
  have hshort := h.short
  rw [← htag] at hshort ⊢
  have hmax : headSize + maxReasonableChunkSize + maxReasonableMetadataSize +
      maxReasonableMetadataSize ≤ ByteFile.offMax := by decide
  have hwrite : handle.mode = .write ∨ handle.mode = .modify := .inl hmode
  have hfirst := finalize_at_end info ⟨0, 0, 0, dataChunkHeaderSize⟩ body hwrite hclean hshort
    (by rw [List.length_append]; omega)
  let t := handle.finalized body.length
  let n := Numbers.finalized ⟨0, 0, 0, dataChunkHeaderSize⟩ handle body.length
  have hsecond := finalize_at_end info n (body ++ handle.metadata) (h := t) hwrite hclean hshort (by
      have hsame : t.metadata = handle.metadata := rfl
      rw [List.length_append, List.length_append, hsame]
      omega)
  refine ⟨_, _, hfinal.trans hfirst, hsecond, ?_⟩
  rw [dsfClose_at_end (h := handle.finalized _) hwrite,
    dsfClose_at_end (h := t.finalized _) hwrite]
  constructor
  · intro hsame
    have hlong := congrArg List.length hsame
    have hsum : (body ++ handle.metadata ++ t.metadata).length =
        (body ++ handle.metadata).length + t.metadata.length := List.length_append
    rw [layout_length, layout_length, hsum] at hlong
    exact List.eq_nil_of_length_eq_zero (Nat.add_left_cancel (Nat.add_left_cancel hlong))
  · intro hnone
    have hnothing : t.metadata = [] := hnone
    have hnumbers : n.finalized t (body ++ handle.metadata).length = n := by
      simp [n, t, Numbers.finalized, Handle.finalized, hnone]
    rw [hnumbers, hnothing, List.append_nil]

end Twice

/-! ## Editing the metadata -/

/-- A call on a file that is open for editing. -/
inductive EditOp where
  | read (n : Nat)
  | seek (byteOffset : Int) (origin : SeekDir)
  | start
  | metadata (buffer : Bytes)

def EditOp.run : EditOp → OnHandle Unit
  | .read n => do
    let _ ← readAudioData n
    pure ()
  | .seek byteOffset origin => seekAudioData byteOffset origin
  | .start => seekToAudioStart
  | .metadata buffer => writeMetadata buffer

/-- The handle after the calls, those that fail among them. -/
def edited (edits : List EditOp) (s : OpenHandle) : OpenHandle :=
  edits.foldl (fun s op => (op.run s).2) s

/-- The metadata given last, where they are there and not too long; `tag` where there are none. -/
def EditOp.tag (tag : Bytes) : EditOp → Bytes
  | .metadata buffer =>
    if buffer ≠ [] ∧ buffer.length ≤ maxReasonableMetadataSize then buffer else tag
  | _ => tag

def editedTag (edits : List EditOp) (tag : Bytes) : Bytes := edits.foldl EditOp.tag tag

section Edit

variable {info : FileInfo} {samples : Nat} {audio old tag : Bytes} {s s' : OpenHandle}

/-- Only the read buffer and the place of the file have changed. -/
structure Looked (s s' : OpenHandle) : Prop where
  content : s'.io.content = s.io.content
  handle : ∃ buffer pos, s'.handle = { s.handle with readBuffer := buffer, readBufferPos := pos }

theorem Looked.refl (s : OpenHandle) : Looked s s := ⟨rfl, s.handle.readBuffer, _, rfl⟩

theorem looked_seekInvalidating {m : Io Unit} (h : Keeps SameBytes m) (s : OpenHandle) :
    Looked s (seekInvalidating m s).2 := by
  have hsame : (m s.io).2.content = s.io.content := h s.io
  rw [seekInvalidating, bind_apply, liftIo, zoom_apply]
  generalize m s.io = r at hsame
  obtain ⟨e | u, f⟩ := r
  · exact ⟨hsame, s.handle.readBuffer, _, rfl⟩
  · exact ⟨hsame, _, _, rfl⟩

theorem looked_seekAudioData (byteOffset : Int) (origin : SeekDir)
    (hmode : s.handle.mode = .modify) : Looked s (seekAudioData byteOffset origin s).2 := by
  have hopen : s.handle.mode = .read ∨ s.handle.mode = .modify := .inr hmode
  rw [seekAudioData, bind_of_ok (get_apply s), require_bind hopen]
  cases origin with
  | set => exact looked_seekInvalidating (sameBytes_seek _ _ _) s
  | cur => exact looked_seekInvalidating (sameBytes_seekBy _ _) s
  | «end» => exact looked_seekInvalidating (sameBytes_seek _ _ _) s

theorem looked_seekToAudioStart (hmode : s.handle.mode = .modify) :
    Looked s (seekToAudioStart s).2 := by
  have hopen : s.handle.mode = .read ∨ s.handle.mode = .modify := .inr hmode
  rw [seekToAudioStart, bind_of_ok (get_apply s), require_bind hopen]
  exact looked_seekInvalidating (sameBytes_seek _ _ _) s

theorem looked_read (hc : 0 < s.handle.info.channelCount.toNat) (hmode : s.handle.mode = .modify)
    (n : Nat) : Looked s ((EditOp.read n).run s).2 := by
  have hread := readAudioLoop_delivers n n s hc (Nat.le_refl n)
  rw [EditOp.run, bind_of_ok (readAudioData_of_mode (.inr hmode) n)]
  exact ⟨hread.content, hread.frame⟩

/-- A finished file that is being edited. -/
structure Editing (info : FileInfo) (samples : Nat) (audio old tag : Bytes) (s : OpenHandle) :
    Prop where
  mode : s.handle.mode = .modify
  record : s.handle.info = (reopened info samples audio old).info
  clean : s.handle.bytesBuffered = 0
  content : s.io.content = layout info (finished audio old samples) (audio ++ old)
  metadata : s.handle.metadata = tag
  short : tag.length ≤ maxReasonableMetadataSize
  replaced : tag = [] → old = []

theorem Editing.looked (h : Editing info samples audio old tag s) (hlooked : Looked s s') :
    Editing info samples audio old tag s' := by
  obtain ⟨hcontent, buffer, pos, hhandle⟩ := hlooked
  constructor
  case mode => rw [hhandle]; exact h.mode
  case record => rw [hhandle]; exact h.record
  case clean => rw [hhandle]; exact h.clean
  case content => exact hcontent.trans h.content
  case metadata => rw [hhandle]; exact h.metadata
  case short => exact h.short
  case replaced => exact h.replaced

theorem Editing.run (h : Editing info samples audio old tag s)
    (hc : 0 < info.channelCount.toNat) (op : EditOp) :
    Editing info samples audio old (op.tag tag) (op.run s).2 := by
  have hopen : s.handle.mode = .write ∨ s.handle.mode = .modify := .inr h.mode
  cases op with
  | read n => exact h.looked (looked_read (by rw [h.record]; exact hc) h.mode n)
  | seek byteOffset origin => exact h.looked (looked_seekAudioData byteOffset origin h.mode)
  | start => exact h.looked (looked_seekToAudioStart h.mode)
  | metadata buffer =>
    rw [EditOp.run, EditOp.tag, writeMetadata, bind_of_ok (get_apply s)]
    by_cases hne : buffer ≠ []
    · by_cases hshort : buffer.length ≤ maxReasonableMetadataSize
      · have halloc : buffer.length ≤ maxAllocSize := hshort.trans (by decide)
        rw [if_pos ⟨hne, hshort⟩, require_bind hne, require_bind hopen, require_bind hshort,
          saMalloc]
        simp only [bind_apply, liftIo, zoom_apply, require_of halloc, pure_apply, update,
          modify_apply]
        exact ⟨h.mode, h.record, h.clean, h.content, rfl, hshort, fun hnone => absurd hnone hne⟩
      · rw [if_neg fun hok => hshort hok.2, require_bind hne, require_bind hopen,
          require_bind_not hshort]
        exact h
    · rw [if_neg fun hok => hne hok.1, require_bind_not hne]
      exact h

theorem Editing.edited (hc : 0 < info.channelCount.toNat) (edits : List EditOp)
    (h : Editing info samples audio old tag s) :
    Editing info samples audio old (editedTag edits tag) (Dsf.edited edits s) := by
  induction edits generalizing tag s with
  | nil => exact h
  | cons op edits ih => exact ih (h.run hc op)

/-- The size of the data chunk is what its field says. -/
theorem storedDataSize_layout (info : FileInfo) {n : Numbers} (hn : n.chunkSize < 2 ^ 64)
    (body : Bytes) : storedDataSize (layout info n body) = n.chunkSize - dataChunkHeaderSize := by
  have hsplit : layout info n body =
      dsdStart ++ (toLe 8 n.fileSize ++ (toLe 8 n.metadataOffset ++ (fmtStart info ++
        (toLe 8 n.sampleCount ++ (fmtEnd info ++ dataChunkId))))) ++
      (toLe 8 n.chunkSize ++ body) := by
    simp only [layout, List.append_assoc]
  have hlength : (dsdStart ++ (toLe 8 n.fileSize ++ (toLe 8 n.metadataOffset ++ (fmtStart info ++
      (toLe 8 n.sampleCount ++ (fmtEnd info ++ dataChunkId)))))).length = 84 := by
    simp only [List.length_append, dsdStart_length, toLe_length, fmtStart_length, fmtEnd_length,
      dataChunkId_length]
  have hslice : slice (layout info n body) 84 8 = toLe 8 n.chunkSize := by
    rw [hsplit, slice, ← hlength, List.drop_left, List.take_left' (toLe_length 8 _)]
  rw [storedDataSize, field, hslice, ofLe_toLe_of_lt (hn.trans_eq two_pow_64)]

theorem Editing.finalize (h : Editing info samples audio old tag s) {q : Nat}
    (hpos : s.io.pos = headSize + q) (hroom : headSize + q + tag.length ≤ ByteFile.offMax) :
    ∃ e, Dsf.finalize s = (.ok (), e) ∧
      dsfClose e = layout info ((finished audio old samples).finalized s.handle q)
        (ByteFile.truncate ⟨audio ++ old, q⟩ ++ tag) := by
  have hmode : s.handle.mode = .write ∨ s.handle.mode = .modify := .inr h.mode
  have hfinal := finalize_layout info (finished audio old samples) (audio ++ old) (q := q)
    hmode h.clean (h.metadata.symm ▸ h.short)
    (by rw [h.metadata]; exact hroom)
  have hio : s.io = ⟨layout info (finished audio old samples) (audio ++ old), headSize + q⟩ := by
    rw [← h.content, ← hpos]
  rw [← hio] at hfinal
  refine ⟨_, hfinal, ?_⟩
  rw [dsfClose_finalized (h := s.handle.finalized q) hmode, h.metadata]

/-- Where the file stands at the end of the audio, its numbers are those of a finished file. -/
theorem Editing.numbers (h : Editing info samples audio old tag s) :
    (finished audio old samples).finalized s.handle audio.length =
      finished audio tag samples := by
  have hsamples : s.handle.info.sampleCount = samples := by rw [h.record]; rfl
  rw [Numbers.finalized, h.metadata, hsamples, finished, finished, offsetOf, offsetOf]
  congr 1
  by_cases hnone : tag = []
  · rw [if_pos hnone, if_pos hnone, if_pos (h.replaced hnone)]
  · rw [if_neg hnone, if_neg hnone]

/-- The edited file has the audio exactly where the file stood at the end of it. -/
theorem Editing.readsBack_iff (h : Editing info samples audio old tag s) (hinfo : info.Writable)
    (hchunk : dataChunkHeaderSize + audio.length ≤ maxReasonableChunkSize)
    (hgroups : groupSize info.channelCount.toNat ∣ audio.length) (hsamples64 : samples < 2 ^ 64)
    (hsamples : info.bitsPerSample ≠ 1 ∨
      audio.length = calculateAudioDataSize info.channelCount samples info.bitsPerSample)
    (hshort : old.length ≤ maxReasonableMetadataSize) (hbehind : headSize ≤ s.io.pos)
    (hinside : s.io.pos ≤ s.io.content.length) :
    ∃ e, Dsf.finalize s = (.ok (), e) ∧
      ((∃ u, dsfOpen (dsfClose e) = .ok u ∧
          ReadsBack info samples (playback info.channelCount.toNat audio) tag u) ↔
        s.io.pos = headSize + audio.length) := by
  have hc := channelCount_pos hinfo
  have hmax : headSize + maxReasonableChunkSize + maxReasonableMetadataSize +
      maxReasonableMetadataSize ≤ ByteFile.offMax := by decide
  have htag := h.short
  obtain ⟨q, hpos⟩ := Nat.exists_eq_add_of_le hbehind
  rw [h.content, layout_length, List.length_append, hpos] at hinside
  obtain ⟨e, hfinal, hclose⟩ := h.finalize hpos (by omega)
  refine ⟨e, hfinal, ?_⟩
  rw [hclose, hpos]
  constructor
  · rintro ⟨u, hopen, hback⟩
    have hopened := (IsOpen.opened (.inl hopen)).1
    have hsmall : ((finished audio old samples).finalized s.handle q).chunkSize < 2 ^ 64 := by
      have hoff : ByteFile.offMax = 2 ^ 63 - 1 := rfl
      simp only [Numbers.finalized]
      omega
    have hsize := hback.audioDataSize
    have hstored := storedDataSize_layout info hsmall
      (ByteFile.truncate ⟨audio ++ old, q⟩ ++ tag)
    rw [hopened.audioDataSize, hstored, playback_length hc, Nat.div_mul_cancel hgroups] at hsize
    have hq : q = audio.length := (Nat.add_sub_cancel_left _ _).symm.trans hsize
    rw [hq]
  · intro hend
    obtain rfl : q = audio.length := Nat.add_left_cancel hend
    have hkept : ByteFile.truncate ⟨audio ++ old, audio.length⟩ = audio := by
      simp [ByteFile.truncate]
    rw [h.numbers, hkept]
    exact finished_readsBack hinfo hchunk hgroups htag hsamples64 hsamples

/-- A file that was given this, finalized and closed is opened for editing. -/
theorem Given.openModify (h : Given info audio tag s) (hinfo : info.Writable)
    (hsize : dataChunkHeaderSize + roundUp (groupSize info.channelCount.toNat) audio.length ≤
      maxReasonableChunkSize) {body : Bytes}
    (hbody : audioBytes info.channelCount.toNat (columnsOf info.channelCount.toNat audio) = body)
    {samples : Nat}
    (hcount : audio.length / info.channelCount.toNat * samplesPerByte info = samples) :
    ∃ t m, Dsf.finalize s = (.ok (), t) ∧ dsfOpenModify (dsfClose t) = .inl m ∧
      (dsfClose t).length = headSize + (body ++ tag).length ∧
      m.io.pos = reopenedAt body tag ∧ Editing info samples body tag tag m := by
  have hc := channelCount_pos hinfo
  have hlength := audioBytes_columnsOf_length hc h.whole
  have hsamples := samples_fill hc h.whole (by omega)
  have hsamples64 := samples_lt hc hsize
  obtain ⟨t, hfinal, hmode, hio⟩ := h.finalize hc hsize
  rw [← hlength] at hsize hio
  rw [hbody, hcount] at hio hsamples
  rw [hbody] at hsize
  rw [hcount] at hsamples64
  have hclose := dsfClose_of_end hmode hio (by
    rw [layout_length, List.length_append, Nat.add_assoc])
  have hread := finished_open hinfo hsize h.short hsamples64 hsamples
  have hopen : dsfOpenModify (layout info (finished body tag samples) (body ++ tag)) =
      .inl ⟨{ reopened info samples body tag with mode := .modify },
        ⟨layout info (finished body tag samples) (body ++ tag), reopenedAt body tag⟩⟩ := by
    simp only [dsfOpenModify, hread]
  refine ⟨t, _, hfinal, by rw [hclose]; exact hopen, ?_, rfl, ?_⟩
  · rw [hclose, layout_length]
  · exact ⟨rfl, rfl, rfl, rfl, rfl, h.short, id⟩

/-- In a file that was given this audio, the audio is kept exactly where the file stood at
the end of it. -/
theorem Editing.keeps_iff {given : Bytes} (hinfo : info.Writable)
    (hwhole : given.length % info.channelCount.toNat = 0)
    (hsize : dataChunkHeaderSize + roundUp (groupSize info.channelCount.toNat) given.length ≤
      maxReasonableChunkSize)
    (h : Editing info (given.length / info.channelCount.toNat * samplesPerByte info)
      (audioBytes info.channelCount.toNat (columnsOf info.channelCount.toNat given)) old tag s)
    (hshort : old.length ≤ maxReasonableMetadataSize) (hbehind : headSize ≤ s.io.pos)
    (hinside : s.io.pos ≤ s.io.content.length) :
    ∃ e, Dsf.finalize s = (.ok (), e) ∧
      ((∃ u, dsfOpen (dsfClose e) = .ok u ∧
          ReadsBack info (given.length / info.channelCount.toNat * samplesPerByte info)
            (paddedAudio info.channelCount.toNat given) tag u) ↔
        s.io.pos = headSize + (paddedAudio info.channelCount.toNat given).length) := by
  have hc := channelCount_pos hinfo
  have hlength := audioBytes_columnsOf_length hc hwhole
  have hround := le_roundUp (groupSize_pos hc) given.length
  have hiff := h.readsBack_iff hinfo (hlength.symm ▸ hsize) (hlength.symm ▸ dvd_roundUp _ _)
    (samples_lt hc hsize) (samples_fill hc hwhole (by omega)) hshort hbehind hinside
  rwa [playback_audioBytes hc hwhole, hlength, ← paddedAudio_length hc] at hiff

theorem writeMetadata_io (buffer : Bytes) (s : OpenHandle) :
    (writeMetadata buffer s).2.io = s.io := by
  rw [writeMetadata, bind_of_ok (get_apply s), require, require, require, saMalloc, require]
  split
  · split
    · split
      · split <;> rfl
      · rfl
    · rfl
  · rfl

/-- Metadata alone do not move the file. -/
theorem edited_metadata_io (tags : List Bytes) (s : OpenHandle) :
    (edited (tags.map .metadata) s).io = s.io := by
  induction tags generalizing s with
  | nil => rfl
  | cons buffer tags ih => exact (ih _).trans (writeMetadata_io buffer s)

end Edit

section Made

variable {sampleRate channelType channelCount bitsPerSample : UInt32} {s : OpenHandle}
  {ops : List WriteOp}

/-- Finalizing a second time before the file is closed changes nothing exactly where there
are no metadata. -/
theorem finalize_twice_iff
    (hcreate : dsfCreate sampleRate channelType channelCount bitsPerSample = .ok s)
    (hops : ∀ op ∈ ops, op.Accepted channelCount.toNat)
    (hsize : dataChunkHeaderSize + roundUp (groupSize channelCount.toNat) (audioOf ops).length ≤
      maxReasonableChunkSize) :
    ∃ t u, (runOps ops >>= fun _ => finalize) s = (.ok (), t) ∧ finalize t = (.ok (), u) ∧
      (dsfClose u = dsfClose t ↔ tagOf ops [] = []) := by
  obtain ⟨r, hrun, hgiven⟩ := given_of_create hcreate hops hsize
  obtain ⟨t, u, hfirst, hsecond, hiff⟩ :=
    hgiven.finalize_finalize (channelCount_pos (writable_of_create hcreate)) hsize
  exact ⟨t, u, (bind_of_ok hrun).trans hfirst, hsecond, hiff⟩

/-- A new file that was finalized and closed, opened for editing. -/
theorem editing_of_create
    (hcreate : dsfCreate sampleRate channelType channelCount bitsPerSample = .ok s)
    (hops : ∀ op ∈ ops, op.Accepted channelCount.toNat)
    (hsize : dataChunkHeaderSize + roundUp (groupSize channelCount.toNat) (audioOf ops).length ≤
      maxReasonableChunkSize) {body : Bytes}
    (hbody : audioBytes channelCount.toNat (columnsOf channelCount.toNat (audioOf ops)) = body) :
    ∃ t m, (runOps ops >>= fun _ => finalize) s = (.ok (), t) ∧
      dsfOpenModify (dsfClose t) = .inl m ∧
      (audioOf ops).length % channelCount.toNat = 0 ∧
      (tagOf ops []).length ≤ maxReasonableMetadataSize ∧
      (dsfClose t).length = headSize + (body ++ tagOf ops []).length ∧
      m.io.pos = reopenedAt body (tagOf ops []) ∧
      Editing (createInfo sampleRate channelType channelCount bitsPerSample)
        ((audioOf ops).length / channelCount.toNat * if bitsPerSample = 1 then 8 else 1) body
        (tagOf ops []) (tagOf ops []) m := by
  obtain ⟨r, hrun, hgiven⟩ := given_of_create hcreate hops hsize
  obtain ⟨t, m, hfinal, hopen, hrest⟩ :=
    hgiven.openModify (writable_of_create hcreate) hsize hbody rfl
  exact ⟨t, m, (bind_of_ok hrun).trans hfinal, hopen, hgiven.whole, hgiven.short, hrest⟩

/-- Whatever is read and sought in between, a file whose metadata are edited has its audio
afterwards exactly where `dsf_finalize` found it at the end of the audio. -/
theorem edit_keeps_audio_iff
    (hcreate : dsfCreate sampleRate channelType channelCount bitsPerSample = .ok s)
    (hops : ∀ op ∈ ops, op.Accepted channelCount.toNat)
    (hsize : dataChunkHeaderSize + roundUp (groupSize channelCount.toNat) (audioOf ops).length ≤
      maxReasonableChunkSize) :
    ∃ t m, (runOps ops >>= fun _ => finalize) s = (.ok (), t) ∧
      dsfOpenModify (dsfClose t) = .inl m ∧
      ∀ edits, headSize ≤ (edited edits m).io.pos →
        (edited edits m).io.pos ≤ (dsfClose t).length →
        ∃ e, finalize (edited edits m) = (.ok (), e) ∧
          ((∃ u, dsfOpen (dsfClose e) = .ok u ∧
              ReadsBack (createInfo sampleRate channelType channelCount bitsPerSample)
                ((audioOf ops).length / channelCount.toNat * if bitsPerSample = 1 then 8 else 1)
                (paddedAudio channelCount.toNat (audioOf ops))
                (editedTag edits (tagOf ops [])) u) ↔
            (edited edits m).io.pos =
              headSize + (paddedAudio channelCount.toNat (audioOf ops)).length) := by
  have hinfo := writable_of_create hcreate
  obtain ⟨t, m, hmade, hopen, hwhole, hshort, hlength, -, hediting⟩ :=
    editing_of_create hcreate hops hsize rfl
  refine ⟨t, m, hmade, hopen, fun edits hbehind hinside => ?_⟩
  have hedited := hediting.edited (channelCount_pos hinfo) edits
  have hcontent : (edited edits m).io.pos ≤ (edited edits m).io.content.length := by
    rwa [hedited.content, layout_length, ← hlength]
  exact hedited.keeps_iff hinfo hwhole hsize hshort hbehind hcontent

/-- Without reads and seeks only a file without audio and without metadata stays what it was. -/
theorem plain_edit_keeps_iff
    (hcreate : dsfCreate sampleRate channelType channelCount bitsPerSample = .ok s)
    (hops : ∀ op ∈ ops, op.Accepted channelCount.toNat)
    (hsize : dataChunkHeaderSize + roundUp (groupSize channelCount.toNat) (audioOf ops).length ≤
      maxReasonableChunkSize) :
    ∃ t m, (runOps ops >>= fun _ => finalize) s = (.ok (), t) ∧
      dsfOpenModify (dsfClose t) = .inl m ∧
      ∀ tags : List Bytes, ∃ e, finalize (edited (tags.map .metadata) m) = (.ok (), e) ∧
        ((∃ u, dsfOpen (dsfClose e) = .ok u ∧
            ReadsBack (createInfo sampleRate channelType channelCount bitsPerSample)
              ((audioOf ops).length / channelCount.toNat * if bitsPerSample = 1 then 8 else 1)
              (paddedAudio channelCount.toNat (audioOf ops))
              (editedTag (tags.map .metadata) (tagOf ops [])) u) ↔
          audioOf ops = [] ∧ tagOf ops [] = []) := by
  have hinfo := writable_of_create hcreate
  have hc : 0 < channelCount.toNat := channelCount_pos hinfo
  obtain ⟨t, m, hmade, hopen, hwhole, hshort, hlength, hpos, hediting⟩ :=
    editing_of_create hcreate hops hsize rfl
  refine ⟨t, m, hmade, hopen, fun tags => ?_⟩
  have hio := edited_metadata_io tags m
  have hedited := hediting.edited hc (tags.map .metadata)
  have hround := le_roundUp (groupSize_pos hc) (audioOf ops).length
  have hbytes := audioBytes_columnsOf_length hc hwhole
  have hbehind : headSize ≤ m.io.pos := by
    rw [hpos, reopenedAt]
    split
    · exact Nat.le_refl _
    · exact Nat.le_add_right _ _
  have hinside : m.io.pos ≤ m.io.content.length := by
    rw [hpos, reopenedAt, hediting.content, layout_length]
    split
    · exact Nat.le_add_right _ _
    · exact Nat.le_refl _
  obtain ⟨e, hfinal, hiff⟩ := hedited.keeps_iff hinfo hwhole hsize hshort
    (by rwa [hio]) (by rwa [hio])
  refine ⟨e, hfinal, hiff.trans ?_⟩
  have hchannels : (createInfo sampleRate channelType channelCount bitsPerSample).channelCount =
      channelCount := rfl
  have hsum :
      (audioBytes channelCount.toNat (columnsOf channelCount.toNat (audioOf ops)) ++
        tagOf ops []).length =
      (audioBytes channelCount.toNat (columnsOf channelCount.toNat (audioOf ops))).length +
        (tagOf ops []).length := List.length_append
  rw [hio, hpos, reopenedAt, hchannels, paddedAudio_length hc]
  by_cases hnone : tagOf ops [] = []
  · rw [if_pos hnone]
    constructor
    · intro hend
      exact ⟨List.eq_nil_of_length_eq_zero (by omega), hnone⟩
    · rintro ⟨hempty, -⟩
      rw [hempty, List.length_nil, roundUp_zero (groupSize_pos hc), Nat.add_zero]
  · have hsome := List.length_pos_iff.2 hnone
    rw [if_neg hnone]
    exact iff_of_false (by omega) fun hempty => hnone hempty.2

end Made

/-- A file without metadata. -/
theorem finalize_twice_iff_stereo : ∃ t u,
    (runOps [.audio [1, 2]] >>= fun _ => finalize) (created (createInfo 2822400 2 2 1)) =
        (.ok (), t) ∧ finalize t = (.ok (), u) ∧
      (dsfClose u = dsfClose t ↔ tagOf [.audio [1, 2]] [] = []) :=
  finalize_twice_iff (dsfCreate_eq createInfo_stereo_writable) (by simp [WriteOp.Accepted])
    (by decide)

/-- Metadata that are replaced where the file stands at the start of an empty audio. -/
theorem edit_keeps_audio_iff_stereo : ∃ t m e,
    (runOps [.metadata [9]] >>= fun _ => finalize) (created (createInfo 2822400 2 2 1)) =
        (.ok (), t) ∧ dsfOpenModify (dsfClose t) = .inl m ∧
      finalize (edited [.start, .metadata [7]] m) = (.ok (), e) ∧
      ∃ u, dsfOpen (dsfClose e) = .ok u ∧
        ReadsBack (createInfo 2822400 2 2 1) 0 (paddedAudio 2 []) [7] u := by
  have haccepted : ∀ op ∈ [WriteOp.metadata [9]], op.Accepted 2 := by
    simp [WriteOp.Accepted, maxReasonableMetadataSize]
  obtain ⟨t, m, hmade, hopen, hedits⟩ := edit_keeps_audio_iff
    (dsfCreate_eq createInfo_stereo_writable) haccepted (by decide)
  obtain ⟨hopened, hmode⟩ := IsOpen.opened (.inr hopen)
  have hstart : (edited [.start, .metadata [7]] m).io.pos = headSize := by
    show (writeMetadata [7] (seekToAudioStart m).2).2.io.pos = headSize
    rw [writeMetadata_io, hopened.seekToAudioStart_eq hmode]
  obtain ⟨e, hfinal, hiff⟩ := hedits [.start, .metadata [7]] hstart.ge
    (hstart.trans_le hopened.long)
  exact ⟨t, m, e, hmade, hopen, hfinal, hiff.2 (hstart.trans (by decide))⟩

/-- Metadata that are set where a file with audio was just opened. -/
theorem plain_edit_keeps_iff_stereo : ∃ t m e,
    (runOps [.audio [1, 2]] >>= fun _ => finalize) (created (createInfo 2822400 2 2 1)) =
        (.ok (), t) ∧ dsfOpenModify (dsfClose t) = .inl m ∧
      finalize (edited [.metadata [7]] m) = (.ok (), e) ∧
      ¬ ∃ u, dsfOpen (dsfClose e) = .ok u ∧
        ReadsBack (createInfo 2822400 2 2 1) 8 (paddedAudio 2 [1, 2]) [7] u := by
  obtain ⟨t, m, hmade, hopen, hedits⟩ := plain_edit_keeps_iff
    (dsfCreate_eq createInfo_stereo_writable)
    (show ∀ op ∈ [WriteOp.audio [1, 2]], op.Accepted 2 by simp [WriteOp.Accepted]) (by decide)
  obtain ⟨e, hfinal, hiff⟩ := hedits [[7]]
  refine ⟨t, m, e, hmade, hopen, hfinal, fun hkept => ?_⟩
  obtain ⟨hempty, -⟩ := hiff.1 hkept
  cases hempty

end Dsf

end DsdNexus
