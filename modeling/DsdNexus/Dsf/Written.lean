import DsdNexus.Dsf.Audio

/-! # DSF: the file that is written

`dsf_create`, any calls that write audio or metadata, `dsf_finalize` and `dsf_close`. The
file is the head with its numbers, the blocks of the columns and the metadata; where there
is no room for them, some call has failed.
-/

namespace DsdNexus.Dsf

open Program FileProgram Endian Blocks
open Vfs (Column columnsOf interleave bufferedColumns zeroColumn interleave_length
  bufferedColumns_length columnsOf_length)

/-! ## Creating a file -/

section Create

theorem writes_uint32 (n : UInt32) : Writes (ioWriteUint32Le n) (toLe 4 n.toNat) () :=
  writes_emit _ _

theorem writes_uint64 (n : Nat) : Writes (ioWriteUint64Le n) (toLe 8 n) () := writes_emit _ _

theorem writes_chunkId (id : Bytes) : Writes (ioWriteChunkId id) id () := writes_emit _ _

theorem writes_dsdHeader (fileSize metadataOffset : Nat) :
    Writes (chunkWriteDsdHeader fileSize metadataOffset)
      (dsdStart ++ (toLe 8 fileSize ++ toLe 8 metadataOffset)) () := by
  have h : Writes (chunkWriteDsdHeader fileSize metadataOffset)
      (dsdChunkId ++ (toLe 8 dsdChunkSize ++ (toLe 8 fileSize ++ toLe 8 metadataOffset))) () :=
    (writes_chunkId _).bind <| (writes_uint64 _).bind <| (writes_uint64 _).bind <| writes_uint64 _
  rwa [← List.append_assoc] at h

theorem writes_fmt {info : FileInfo} (h : info.Writable) :
    Writes (chunkWriteFmt info) (fmtStart info ++ (toLe 8 info.sampleCount ++ fmtEnd info)) () := by
  have hwrite : Writes (chunkWriteFmt info)
      (fmtChunkId ++ (toLe 8 fmtChunkSize ++ (toLe 4 info.formatVersion.toNat ++
        (toLe 4 info.formatId.toNat ++ (toLe 4 info.channelType.toNat ++
        (toLe 4 info.channelCount.toNat ++ (toLe 4 info.samplingFrequency.toNat ++
        (toLe 4 info.bitsPerSample.toNat ++ (toLe 8 info.sampleCount ++
        (toLe 4 info.blockSizePerChannel.toNat ++ toLe 4 (0 : UInt32).toNat)))))))))) () :=
    .check h.version <| .check h.formatId <| .check h.channelType <| .check h.channelCount <|
    .check h.samplingFrequency <| .check h.bitsPerSample <| .check h.blockSize <|
    (writes_chunkId _).bind <| (writes_uint64 _).bind <| (writes_uint32 _).bind <|
    (writes_uint32 _).bind <| (writes_uint32 _).bind <| (writes_uint32 _).bind <|
    (writes_uint32 _).bind <| (writes_uint32 _).bind <| (writes_uint64 _).bind <|
    (writes_uint32 _).bind <| writes_uint32 0
  simpa only [fmtStart, fmtEnd, List.append_assoc] using hwrite

/-- The empty head. -/
theorem writeFileStructure_layout {h : Handle} (hinfo : h.info.Writable)
    (hcount : h.info.sampleCount = 0) :
    writeFileStructure ⟨h, ⟨[], 0⟩⟩ =
      (.ok (), ⟨{ h with info := { h.info with audioDataOffset := headSize } },
        ⟨layout h.info ⟨0, 0, 0, dataChunkHeaderSize⟩ [], headSize⟩⟩) := by
  let first := dsdStart ++ (toLe 8 0 ++ toLe 8 0)
  let second := first ++ (fmtStart h.info ++ (toLe 8 0 ++ fmtEnd h.info))
  have hfirst : chunkWriteDsdHeader 0 0 ⟨[], 0⟩ = (.ok (), ⟨first, first.length⟩) :=
    (writes_dsdHeader 0 0).at_end [] (by simp [dsdStart_length]; decide)
  have hsecond : chunkWriteFmt h.info ⟨first, first.length⟩ = (.ok (), ⟨second, second.length⟩) := by
    have hfmt := writes_fmt hinfo
    rw [hcount] at hfmt
    refine hfmt.at_end _ ?_
    simp only [first, List.length_append, dsdStart_length, toLe_length, fmtStart_length,
      fmtEnd_length]
    decide
  have hthird : chunkWriteDataHeader 0 ⟨second, second.length⟩ =
      (.ok headSize, ⟨layout h.info ⟨0, 0, 0, dataChunkHeaderSize⟩ [], headSize⟩) := by
    have hadd : uint64Add dataChunkHeaderSize 0 = some dataChunkHeaderSize := rfl
    have hlength : second.length = 80 := by
      simp only [second, first, List.length_append, dsdStart_length, toLe_length, fmtStart_length,
        fmtEnd_length]
    have hid := (writes_chunkId dataChunkId).at_end second
      (by rw [hlength, dataChunkId_length]; decide)
    have hsize := (writes_uint64 dataChunkHeaderSize).at_end (second ++ dataChunkId)
      (by rw [List.length_append, hlength, dataChunkId_length, toLe_length]; decide)
    have hcontent : second ++ dataChunkId ++ toLe 8 dataChunkHeaderSize =
        layout h.info ⟨0, 0, 0, dataChunkHeaderSize⟩ [] := by
      simp only [second, first, layout, List.append_assoc, List.append_nil]
    rw [hcontent, layout_length] at hsize
    rw [chunkWriteDataHeader, hadd]
    simp only
    rw [require_bind (by decide), bind_of_ok hid, bind_of_ok hsize]
    rfl
  simp only [writeFileStructure, bind_apply, liftIo, zoom_apply, get_apply, update, modify_apply,
    hfirst, hsecond, hthird]

variable {sampleRate channelType channelCount bitsPerSample : UInt32}

/-- The handle of a file that has been created. -/
def created (info : FileInfo) : OpenHandle :=
  ⟨{ reset with info := { info with audioDataOffset := headSize }, mode := .write },
    ⟨layout info ⟨0, 0, 0, dataChunkHeaderSize⟩ [], headSize⟩⟩

theorem dsfCreate_eq (h : (createInfo sampleRate channelType channelCount bitsPerSample).Writable) :
    dsfCreate sampleRate channelType channelCount bitsPerSample =
      .ok (created (createInfo sampleRate channelType channelCount bitsPerSample)) := by
  have hrate : ¬ isValidSampleRate sampleRate = false := ne_of_eq_of_ne h.samplingFrequency nofun
  have htype : ¬ isValidChannelType channelType = false := ne_of_eq_of_ne h.channelType nofun
  have hcount : ¬ isValidChannelCount channelCount = false := ne_of_eq_of_ne h.channelCount nofun
  have hbits : ¬ isValidBitsPerSample bitsPerSample = false := ne_of_eq_of_ne h.bitsPerSample nofun
  have hhead := writeFileStructure_layout
    (h := { reset with info := createInfo sampleRate channelType channelCount bitsPerSample }) h rfl
  rw [dsfCreate, if_neg hrate, if_neg htype, if_neg hcount, if_neg hbits]
  simp only [hhead]
  rfl

/-- What `dsf_create` accepts, `dsf_chunk_write_fmt` writes. -/
theorem writable_of_create {s : OpenHandle}
    (h : dsfCreate sampleRate channelType channelCount bitsPerSample = .ok s) :
    (createInfo sampleRate channelType channelCount bitsPerSample).Writable := by
  unfold dsfCreate at h
  split at h
  · cases h
  split at h
  · cases h
  split at h
  · cases h
  split at h
  · cases h
  next hrate htype hcount hbits =>
    exact ⟨rfl, rfl, Bool.eq_true_of_not_eq_false htype, Bool.eq_true_of_not_eq_false hcount,
      Bool.eq_true_of_not_eq_false hrate, Bool.eq_true_of_not_eq_false hbits, rfl⟩

theorem created_holds (info : FileInfo) : Holds info [] (created info) := by
  have hnone : fullBytes info.channelCount.toNat [] = [] := by simp [fullBytes, emitted]
  refine ⟨rfl, rfl, rfl, ?_, ?_, ?_⟩
  · rw [hnone]
    rfl
  · rw [hnone]
    decide
  · rw [remainder_nil]
    rfl

end Create

/-! ## Finalizing it -/

/-- A handle in write mode with nothing in its buffers. -/
structure Flushed (info : FileInfo) (audio : Bytes) (s : OpenHandle) : Prop where
  mode : s.handle.mode = .write
  io : s.io = ⟨layout info ⟨0, 0, 0, dataChunkHeaderSize⟩ audio, headSize + audio.length⟩
  room : headSize + audio.length ≤ ByteFile.offMax
  bytesBuffered : s.handle.bytesBuffered = 0

section Finalize

variable {info : FileInfo} {columns : List Column} {s : OpenHandle}

/-- Behind the complete blocks stands the padded one. -/
theorem audioBytes_eq (channelCount : Nat) (columns : List Column) :
    audioBytes channelCount columns = fullBytes channelCount columns ++
      emitted channelCount
        (paddedRemainder blockSizePerChannel (zeroColumn channelCount) columns) :=
  emitted_append _ _ _

/-- The flush writes the last block, padded. -/
theorem flush_outcome (h : Holds info columns s) :
    (∃ s', (when (s.handle.mode = .write ∧ 0 < s.handle.bytesBuffered) flushAudioData) s =
          (.ok (), s') ∧ Flushed info (audioBytes info.channelCount.toNat columns) s' ∧
        s'.handle.metadata = s.handle.metadata ∧
        s'.handle.info.sampleCount = s.handle.info.sampleCount) ∨
      ByteFile.offMax < headSize + (audioBytes info.channelCount.toNat columns).length ∧
        ∃ e s', (when (s.handle.mode = .write ∧ 0 < s.handle.bytesBuffered) flushAudioData) s =
          (.error e, s') := by
  have hc : s.handle.info.channelCount.toNat = info.channelCount.toNat := by rw [h.channelCount]
  have hbuffered := h.bytesBuffered
  have hlength := remainder_length blockSizePerChannel columns
  rw [audioBytes_eq]
  by_cases hempty : s.handle.bytesBuffered = 0
  · have hnone : remainder blockSizePerChannel columns = [] :=
      List.eq_nil_of_length_eq_zero (by omega)
    have hbytes : fullBytes info.channelCount.toNat columns ++ emitted info.channelCount.toNat
        (paddedRemainder blockSizePerChannel (zeroColumn info.channelCount.toNat) columns) =
        fullBytes info.channelCount.toNat columns := by
      rw [paddedRemainder, if_pos hnone]
      exact List.append_nil _
    rw [hbytes, when_of_not (by omega)]
    exact .inl ⟨s, rfl, ⟨h.mode, h.io, h.room, hempty⟩, rfl, rfl⟩
  · have hsome : remainder blockSizePerChannel columns ≠ [] := by
      intro hnil
      rw [hnil, List.length_nil] at hlength
      omega
    have hgroup : blockGroup s.handle s.handle.bytesBuffered blockSizePerChannel =
        emitted info.channelCount.toNat
          (paddedRemainder blockSizePerChannel (zeroColumn info.channelCount.toNat) columns) := by
      rw [paddedRemainder, if_neg hsome, blockGroup, hc, h.buffered, hbuffered, ← hlength]
      simp [emitted]
    have hio : s.io = ⟨layout info ⟨0, 0, 0, dataChunkHeaderSize⟩
          (fullBytes info.channelCount.toNat columns),
        (layout info ⟨0, 0, 0, dataChunkHeaderSize⟩
          (fullBytes info.channelCount.toNat columns)).length⟩ := by
      rw [layout_length]
      exact h.io
    have hle : s.handle.bytesBuffered ≤ blockSizePerChannel := by
      rw [hbuffered]
      exact (Nat.mod_lt _ (by decide)).le
    have hblock : (if true = true then blockSizePerChannel else s.handle.bytesBuffered) =
        blockSizePerChannel := rfl
    have hpos : 0 < s.handle.bytesBuffered := Nat.pos_of_ne_zero hempty
    rw [when_of ⟨h.mode, hpos⟩, flushAudioData, bind_of_ok (get_apply s), require_bind h.mode,
      when_of hpos]
    rcases writeBlockGroup_outcome hio s.handle.bytesBuffered true hblock hle with
      ⟨⟨bytesWritten, hwrite⟩, hroom⟩ | ⟨hroom, e, t, hwrite⟩
    · rw [layout_append, hgroup, layout_length] at hwrite hroom
      exact .inl ⟨_, bind_of_ok hwrite, ⟨h.mode, rfl, hroom, rfl⟩, rfl, rfl⟩
    · rw [layout_append, hgroup, layout_length] at hroom
      exact .inr ⟨hroom, e, t, bind_of_error hwrite⟩

/-- Where the metadata start, 0 for none. -/
def offsetOf (metadata : Bytes) (start : Nat) : Nat := if metadata = [] then 0 else start

/-- The metadata go to the end of the file, or there is no room for them. -/
theorem writeMetadataOf_outcome {metadata pre : Bytes}
    (hle : metadata.length ≤ maxReasonableMetadataSize) (hroom : pre.length ≤ ByteFile.offMax) :
    (writeMetadataOf metadata ⟨pre, pre.length⟩ =
        (.ok (offsetOf metadata pre.length), ⟨pre ++ metadata, (pre ++ metadata).length⟩) ∧
        (pre ++ metadata).length ≤ ByteFile.offMax) ∨
      ByteFile.offMax < (pre ++ metadata).length ∧
        ∃ e io, writeMetadataOf metadata ⟨pre, pre.length⟩ = (.error e, io) := by
  by_cases hnone : metadata = []
  · left
    rw [hnone, writeMetadataOf, if_neg (by simp), List.append_nil]
    exact ⟨rfl, hroom⟩
  · rw [writeMetadataOf, if_pos hnone, chunkWriteMetadata, require_bind hnone, require_bind hle,
      bind_of_ok (tell_apply _), List.length_append, offsetOf, if_neg hnone]
    by_cases hfits : pre.length + metadata.length ≤ ByteFile.offMax
    · have hwrite := (writes_emit Error.write metadata).at_end pre hfits
      rw [List.length_append] at hwrite
      exact .inl ⟨bind_of_ok hwrite, hfits⟩
    · have hwrite : ioWriteBytes metadata ⟨pre, pre.length⟩ = (.error .write, ⟨pre, pre.length⟩) :=
        if_neg hfits
      exact .inr ⟨by omega, _, _, bind_of_error hwrite⟩

/-- The numbers of a finished file. -/
def finished (audio metadata : Bytes) (sampleCount : Nat) : Numbers where
  fileSize := headSize + audio.length + metadata.length
  metadataOffset := offsetOf metadata (headSize + audio.length)
  sampleCount := sampleCount
  chunkSize := dataChunkHeaderSize + audio.length

/-- The offset is written where there is one; it is 0 before. -/
theorem offset_written (info : FileInfo) {n : Numbers} (body : Bytes) {pos : Nat} (offset : Nat)
    (hpos : pos ≤ ByteFile.offMax) (hnone : n.metadataOffset = 0) :
    when (0 < offset) (chunkUpdateMetadataOffset offset) ⟨layout info n body, pos⟩ =
      (.ok (), ⟨layout info { n with metadataOffset := offset } body, pos⟩) := by
  by_cases hoffset : 0 < offset
  · rw [when_of hoffset, chunkUpdateMetadataOffset_layout info n body hpos offset]
  · have hzero : offset = 0 := by omega
    rw [when_of_not hoffset, hzero, ← hnone]
    rfl

/-- `dsf_finalize` completes the file, or there is no room for it. -/
theorem finalize_outcome (h : Holds info columns s)
    (hle : s.handle.metadata.length ≤ maxReasonableMetadataSize) {audio : Bytes}
    (haudio : audioBytes info.channelCount.toNat columns = audio) :
    (∃ s', finalize s = (.ok (), s') ∧ s'.handle.mode = .write ∧
        s'.io = ⟨layout info (finished audio s.handle.metadata s.handle.info.sampleCount)
          (audio ++ s.handle.metadata), headSize + audio.length + s.handle.metadata.length⟩ ∧
        headSize + audio.length + s.handle.metadata.length ≤ ByteFile.offMax) ∨
      ByteFile.offMax < headSize + audio.length + s.handle.metadata.length ∧
        ∃ e s', finalize s = (.error e, s') := by
  have hwrite : s.handle.mode = .write ∨ s.handle.mode = .modify := .inl h.mode
  rw [finalize, bind_of_ok (get_apply s), require_bind hwrite]
  rcases flush_outcome h with ⟨t, hflush, hflushed, hmetadata, hcount⟩ | ⟨hroom, e, t, hflush⟩
  · rw [haudio] at hflushed
    have hroom := hflushed.room
    have hsmall : headSize + audio.length < 2 ^ 63 := hroom.trans_lt (by decide)
    have hsize : uint64 ((headSize + audio.length : Nat) -
        (dsdChunkSize + fmtChunkSize + dataChunkHeaderSize : Nat)) = audio.length := by
      have hhead : dsdChunkSize + fmtChunkSize + dataChunkHeaderSize = headSize := rfl
      have hdiff : ((headSize + audio.length : Nat) : Int) - (headSize : Nat) = audio.length := by
        omega
      rw [hhead, hdiff, uint64_of_nat (by omega)]
    have hfit : audio.length + dataChunkHeaderSize < 2 ^ 64 := by
      simp only [dataChunkHeaderSize, headSize] at hsmall ⊢
      omega
    have hdata := chunkUpdateDataSize_layout info ⟨0, 0, 0, dataChunkHeaderSize⟩ audio hroom hfit
    have hsamples := chunkUpdateSampleCount_layout info
      ⟨0, 0, 0, dataChunkHeaderSize + audio.length⟩ audio hroom s.handle.info.sampleCount
    have hlength := layout_length info
      ⟨0, 0, s.handle.info.sampleCount, dataChunkHeaderSize + audio.length⟩ audio
    have hend := writeMetadataOf_outcome hle (hlength.trans_le hroom)
    rw [layout_append, hlength, layout_length, List.length_append, ← Nat.add_assoc] at hend
    rw [bind_of_ok hflush]
    rcases hend with ⟨hput, hfits⟩ | ⟨hfull, e, io, hput⟩
    · left
      have hfile := chunkUpdateFileSize_layout info
        ⟨0, 0, s.handle.info.sampleCount, dataChunkHeaderSize + audio.length⟩
        (audio ++ s.handle.metadata) hfits
        (headSize + audio.length + s.handle.metadata.length)
      have hoffset := offset_written info
        (n := ⟨headSize + audio.length + s.handle.metadata.length, 0, s.handle.info.sampleCount,
          dataChunkHeaderSize + audio.length⟩) (audio ++ s.handle.metadata)
        (offsetOf s.handle.metadata (headSize + audio.length)) hfits rfl
      simp only [bind_apply, liftIo, zoom_apply, tell_apply, hflushed.io, hsize, hdata, update,
        modify_apply, get_apply, hcount, hsamples, hmetadata, hput, hfile, hoffset]
      exact ⟨_, rfl, hflushed.mode, rfl, hfits⟩
    · right
      refine ⟨hfull, e, ?_⟩
      simp only [bind_apply, liftIo, zoom_apply, tell_apply, hflushed.io, hsize, hdata, update,
        modify_apply, get_apply, hcount, hsamples, hmetadata, hput]
      exact ⟨_, rfl⟩
  · rw [haudio] at hroom
    exact .inr ⟨Nat.lt_add_right _ hroom, e, t, bind_of_error hflush⟩

end Finalize

end DsdNexus.Dsf
