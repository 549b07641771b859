import DsdNexus.Dsdiff.Layout
import DsdNexus.Dsdiff.Skips

/-! # DSDIFF: the accounts of a DST file

While frames are written the handle counts the bytes and the frames of DST and notes where
each frame stands. Finalizing puts the counts into the head of DST and the notes into DSTI.
-/

namespace DsdNexus.Dsdiff

open Program FileProgram Endian

/-! ## The chunks of DST -/

/-- A frame, or the CRC of one. -/
inductive DstChunk where
  | frame (data : Bytes)
  | crc (data : Bytes)
deriving DecidableEq

namespace DstChunk

def data : DstChunk → Bytes
  | frame data => data
  | crc data => data

def type : DstChunk → ChunkType
  | frame _ => .dstf
  | crc _ => .dstc

/-- The chunk as it stands in the file. -/
def bytes (chunk : DstChunk) : Bytes :=
  chunkHead chunk.type chunk.data.length ++ (chunk.data ++ padBytes chunk.data.length)

/-- The frame, where the chunk is one. -/
def frame? : DstChunk → Option Bytes
  | frame data => some data
  | crc _ => none

end DstChunk

/-- The frames among the chunks. -/
def framesOf (chunks : List DstChunk) : List Bytes := chunks.filterMap DstChunk.frame?

/-- The index of chunks that stand at the place. -/
def frameIndex : Nat → List DstChunk → List Index
  | _, [] => []
  | start, .frame data :: chunks =>
    ⟨start + 12, UInt32.ofNat data.length⟩ ::
      frameIndex (start + (DstChunk.frame data).bytes.length) chunks
  | start, .crc data :: chunks => frameIndex (start + (DstChunk.crc data).bytes.length) chunks

/-- The chunks as the handle counts them. -/
def countedSpace (chunks : List DstChunk) : Nat :=
  (chunks.map fun chunk => chunkSpace chunk.data.length).sum

section Chunks

theorem DstChunk.bytes_length (chunk : DstChunk) :
    chunk.bytes.length = chunk.data.length + 12 + chunk.data.length % 2 := by
  have htype : chunk.type ≠ .unknown := by
    cases chunk <;> exact ChunkType.noConfusion
  rw [DstChunk.bytes, List.length_append, List.length_append, chunkHead_length htype,
    padBytes_length]
  omega

theorem framesOf_append (chunks more : List DstChunk) :
    framesOf (chunks ++ more) = framesOf chunks ++ framesOf more :=
  List.filterMap_append

theorem frameIndex_append (start : Nat) (chunks more : List DstChunk) :
    frameIndex start (chunks ++ more) =
      frameIndex start chunks ++
        frameIndex (start + (chunks.flatMap DstChunk.bytes).length) more := by
  induction chunks generalizing start with
  | nil => rfl
  | cons chunk chunks ih =>
    cases chunk with
    | frame data =>
      simp only [List.cons_append, frameIndex, ih, List.flatMap_cons, List.length_append,
        Nat.add_assoc]
    | crc data =>
      simp only [List.cons_append, frameIndex, ih, List.flatMap_cons, List.length_append,
        Nat.add_assoc]

theorem frameIndex_length (start : Nat) (chunks : List DstChunk) :
    (frameIndex start chunks).length = (framesOf chunks).length := by
  induction chunks generalizing start with
  | nil => rfl
  | cons chunk chunks ih =>
    cases chunk with
    | frame data => exact congrArg Nat.succ (ih _)
    | crc data => exact ih _

theorem countedSpace_append (chunks more : List DstChunk) :
    countedSpace (chunks ++ more) = countedSpace chunks + countedSpace more := by
  rw [countedSpace, List.map_append, List.sum_append]
  rfl

/-- A chunk is counted in 32 bits. -/
theorem chunkSpace_le (chunk : DstChunk) :
    chunkSpace chunk.data.length ≤ chunk.bytes.length := by
  rw [chunk.bytes_length, chunkSpace]
  omega

theorem chunkSpace_eq_iff {chunk : DstChunk} (h : chunk.data.length < 2 ^ 32) :
    chunkSpace chunk.data.length = chunk.bytes.length ↔ chunk.data.length + 12 < 2 ^ 32 := by
  rw [chunk.bytes_length, chunkSpace]
  omega

theorem countedSpace_le (chunks : List DstChunk) :
    countedSpace chunks ≤ (chunks.flatMap DstChunk.bytes).length := by
  induction chunks with
  | nil => exact Nat.le_refl 0
  | cons chunk chunks ih =>
    have hchunk := chunkSpace_le chunk
    rw [countedSpace, List.map_cons, List.sum_cons, List.flatMap_cons, List.length_append]
    exact Nat.add_le_add hchunk ih

/-- The count is right where no chunk is too large for it. -/
theorem countedSpace_eq_iff {chunks : List DstChunk}
    (h : ∀ chunk ∈ chunks, chunk.data.length < 2 ^ 32) :
    countedSpace chunks = (chunks.flatMap DstChunk.bytes).length ↔
      ∀ chunk ∈ chunks, chunk.data.length + 12 < 2 ^ 32 := by
  induction chunks with
  | nil => exact ⟨fun _ chunk hmem => absurd hmem (List.not_mem_nil), fun _ => rfl⟩
  | cons chunk chunks ih =>
    have hrest := ih fun c hc => h c (List.mem_cons_of_mem _ hc)
    have hfirst := chunkSpace_eq_iff (h chunk List.mem_cons_self)
    have hle := chunkSpace_le chunk
    have hle' := countedSpace_le chunks
    have hsum : countedSpace (chunk :: chunks) =
        chunkSpace chunk.data.length + countedSpace chunks := by
      rw [countedSpace, List.map_cons, List.sum_cons]
      rfl
    rw [hsum, List.flatMap_cons, List.length_append, List.forall_mem_cons, ← hrest, ← hfirst]
    omega

end Chunks

/-! ## Writing frames -/

/-- A call that writes a frame. -/
inductive DstWrite where
  | frame (dstData : Bytes)
  | frameWithCrc (dstData crcData : Bytes)
deriving DecidableEq

namespace DstWrite

def run (h : Handle) : DstWrite → Io Handle
  | frame dstData => writeDstFrame h dstData
  | frameWithCrc dstData crcData => writeDstFrameWithCrc h dstData crcData

def dstData : DstWrite → Bytes
  | frame dstData => dstData
  | frameWithCrc dstData _ => dstData

/-- The CRC that comes with the frame; without one it is empty. -/
def crcData : DstWrite → Bytes
  | frame _ => []
  | frameWithCrc _ crcData => crcData

/-- The sizes are given in 32 bits. -/
def Fits (w : DstWrite) : Prop := w.dstData.length < 2 ^ 32 ∧ w.crcData.length < 2 ^ 32

end DstWrite

/-- The calls in their order. -/
def writeDstFrames (h : Handle) : List DstWrite → Io Handle
  | [] => pure h
  | w :: calls => do
    let h ← w.run h
    writeDstFrames h calls

/-- A file with these frames. -/
def writeDst (h : Handle) (channelCount sampleBits : UInt16) (sampleRate : UInt32)
    (calls : List DstWrite) : Io Handle := do
  let h ← create h .dst channelCount sampleBits sampleRate
  let h ← writeDstFrames h calls
  finalize h

def frameChunk (dstData : Bytes) : List DstChunk := if dstData = [] then [] else [.frame dstData]

def crcChunk (crcData : Bytes) : List DstChunk := if crcData = [] then [] else [.crc crcData]

/-- The chunks that the calls put into DST. Frames have CRCs if the file had no frame when
the first CRC came. -/
def dstChunks : Bool → Bool → List DstWrite → List DstChunk
  | _, _, [] => []
  | someFrame, hasCrc, .frame dstData :: calls =>
    frameChunk dstData ++ dstChunks (someFrame || dstData ≠ []) hasCrc calls
  | someFrame, hasCrc, .frameWithCrc dstData crcData :: calls =>
    (frameChunk dstData ++ if hasCrc || !someFrame then crcChunk crcData else []) ++
      dstChunks (someFrame || dstData ≠ []) (hasCrc || !someFrame) calls

/-- Chunks that stand in DST, and a handle and a file that go with them. -/
structure DstWriting (p : Properties) (frameRate : UInt16) (chunks : List DstChunk) (h : Handle)
    (f : ByteFile) : Prop where
  writing : Writing p h
  isDst : p.audioType = .dst
  content : f.content = p.head 0 0 ++ (soundHead p.audioType 0 0 frameRate ++
    chunks.flatMap DstChunk.bytes)
  atEnd : f.pos = f.content.length
  room : f.content.length ≤ ByteFile.offMax
  dstFrameCount : h.dstFrameCount.toNat = (framesOf chunks).length
  soundDataSize : h.soundDataSize = 18 + countedSpace chunks
  indexes : h.indexes = frameIndex (p.soundStart + 18) chunks
  reserved : h.dstFrameCount.toNat ≤ h.reservedIndexCount.toNat
  affordable : h.reservedIndexCount.toNat * indexSize ≤ maxAllocSize

/-- A handle whose index is empty, as a new one's is. -/
structure Unindexed (h : Handle) : Prop where
  indexes : h.indexes = []
  reservedIndexCount : h.reservedIndexCount = 0

section Writing

variable {p : Properties} {frameRate : UInt16} {chunks : List DstChunk} {h h' : Handle}
  {f f' : ByteFile}

/-- Where the next chunk of DST goes. -/
theorem DstWriting.end_eq (hw : DstWriting p frameRate chunks h f) :
    f.content.length = p.soundStart + 18 + (chunks.flatMap DstChunk.bytes).length := by
  rw [hw.content, List.length_append, List.length_append, head_length, soundHead_length,
    if_pos hw.isDst, Properties.soundStart]
  omega

theorem DstWriting.file_eq (hw : DstWriting p frameRate chunks h f) :
    f = ⟨f.content, f.content.length⟩ := by
  rw [← hw.atEnd]

/-- A chunk that stands at the end of DST. -/
theorem DstWriting.append_content (hw : DstWriting p frameRate chunks h f)
    (more : List DstChunk) :
    f.content ++ more.flatMap DstChunk.bytes = p.head 0 0 ++
      (soundHead p.audioType 0 0 frameRate ++ (chunks ++ more).flatMap DstChunk.bytes) := by
  rw [hw.content, List.flatMap_append]
  simp only [List.append_assoc]

theorem chunkWriteDstf_at_end {pre data : Bytes} {position : Nat}
    (hpre : pre.length ≤ ByteFile.offMax)
    (hrun : chunkWriteDstf data ⟨pre, pre.length⟩ = (.ok position, f)) :
    f = ⟨pre ++ (DstChunk.frame data).bytes, (pre ++ (DstChunk.frame data).bytes).length⟩ ∧
      (pre ++ (DstChunk.frame data).bytes).length ≤ ByteFile.offMax ∧
      position = pre.length + 12 := by
  obtain ⟨_, _, hwrite, hrun⟩ := bind_eq_ok hrun
  obtain ⟨-, rfl, hroom⟩ := (writeChunkHead_prints _ _).at_end hpre hwrite
  have hrun := tell_then hrun
  obtain ⟨_, _, hwrite, hrun⟩ := bind_eq_ok hrun
  obtain ⟨-, rfl, hroom⟩ := (ioWriteBytes_prints _).at_end hroom hwrite
  obtain ⟨_, _, hwrite, hrun⟩ := bind_eq_ok hrun
  obtain ⟨-, rfl, hroom⟩ := (writePadOf_prints _).at_end hroom hwrite
  cases hrun
  have hbytes : pre ++ chunkHead .dstf data.length ++ data ++ padBytes data.length =
      pre ++ (DstChunk.frame data).bytes := by
    simp only [DstChunk.bytes, DstChunk.type, DstChunk.data, List.append_assoc]
  rw [hbytes] at hroom ⊢
  refine ⟨rfl, hroom, ?_⟩
  rw [List.length_append, chunkHead_length (by decide)]

theorem chunkWriteDstc_prints (data : Bytes) :
    Prints (chunkWriteDstc data) (DstChunk.crc data).bytes () :=
  (writeChunkHead_prints _ _).bind <| (ioWriteBytes_prints _).bind <| writePadOf_prints _

theorem DstWriting.frameCount_lt (hw : DstWriting p frameRate chunks h f) :
    h.dstFrameCount.toNat + 1 < 2 ^ 32 := by
  have hle := hw.reserved
  have haffordable := hw.affordable
  unfold indexSize maxAllocSize at haffordable
  omega

/-- The list of the notes has room for the next one. -/
theorem grown_reserved (hreserved : h.dstFrameCount.toNat ≤ h.reservedIndexCount.toNat)
    (haffordable : h.reservedIndexCount.toNat * indexSize ≤ maxAllocSize) {frameCount : UInt32}
    (hcount : frameCount.toNat = h.dstFrameCount.toNat + 1)
    (hgrow : frameCount < h.reservedIndexCount ∨
      (if h.reservedIndexCount ≤ frameCount then h.reservedIndexCount + 1000
        else h.reservedIndexCount).toNat * indexSize ≤ maxAllocSize) :
    frameCount.toNat ≤ (if h.reservedIndexCount ≤ frameCount then h.reservedIndexCount + 1000
        else h.reservedIndexCount).toNat ∧
      (if h.reservedIndexCount ≤ frameCount then h.reservedIndexCount + 1000
        else h.reservedIndexCount).toNat * indexSize ≤ maxAllocSize := by
  by_cases hfull : h.reservedIndexCount ≤ frameCount
  · have hmore : (h.reservedIndexCount + 1000).toNat = h.reservedIndexCount.toNat + 1000 := by
      rw [UInt32.toNat_add, show (1000 : UInt32).toNat = 1000 from rfl, Nat.mod_eq_of_lt]
      unfold indexSize maxAllocSize at haffordable
      omega
    have hnot : ¬ frameCount < h.reservedIndexCount := UInt32.not_lt.2 hfull
    rw [if_pos hfull] at hgrow ⊢
    refine ⟨?_, hgrow.resolve_left hnot⟩
    rw [hmore, hcount]
    omega
  · rw [if_neg hfull]
    exact ⟨Nat.le_of_lt (UInt32.lt_iff_toNat_lt.1 (UInt32.not_le.1 hfull)), haffordable⟩

/-- A frame that is written is counted and noted; an empty one is not written. -/
theorem writeDstFrameInternal_step (hw : DstWriting p frameRate chunks h f) {data : Bytes}
    (hrun : writeDstFrameInternal h data f = (.ok h', f')) :
    DstWriting p frameRate (chunks ++ frameChunk data) h' f' ∧ h'.hasCrc = h.hasCrc := by
  unfold writeDstFrameInternal at hrun
  obtain ⟨_, _, hcheck, hrun⟩ := bind_eq_ok hrun
  obtain ⟨-, rfl⟩ := require_eq_ok_iff.1 hcheck
  obtain ⟨_, _, hcheck, hrun⟩ := bind_eq_ok hrun
  obtain ⟨-, rfl⟩ := require_eq_ok_iff.1 hcheck
  obtain ⟨_, _, hcheck, hrun⟩ := bind_eq_ok hrun
  obtain ⟨-, rfl⟩ := require_eq_ok_iff.1 hcheck
  by_cases hdata : data = []
  · rw [if_pos hdata] at hrun
    cases hrun
    rw [frameChunk, if_pos hdata, List.append_nil]
    exact ⟨hw, rfl⟩
  · rw [if_neg hdata] at hrun
    obtain ⟨_, _, hcheck, hrun⟩ := bind_eq_ok hrun
    obtain ⟨-, rfl⟩ := require_eq_ok_iff.1 hcheck
    obtain ⟨position, _, hwrite, hrun⟩ := bind_eq_ok hrun
    have hfile := hw.file_eq
    rw [hfile] at hwrite
    obtain ⟨rfl, hroom, rfl⟩ := chunkWriteDstf_at_end hw.room hwrite
    obtain ⟨_, _, hcheck, hrun⟩ := bind_eq_ok hrun
    obtain ⟨hreserved, rfl⟩ := require_eq_ok_iff.1 hcheck
    cases hrun
    have hcontent := hw.append_content [.frame data]
    rw [List.flatMap_cons, List.flatMap_nil, List.append_nil] at hcontent
    have hfew := hw.frameCount_lt
    have hcount : (h.dstFrameCount + 1).toNat = h.dstFrameCount.toNat + 1 := by
      rw [UInt32.toNat_add, show (1 : UInt32).toNat = 1 from rfl, Nat.mod_eq_of_lt hfew]
    have hframe : frameChunk data = [.frame data] := if_neg hdata
    have hgrown := grown_reserved hw.reserved hw.affordable hcount hreserved
    have hstart := hw.end_eq
    rw [hframe]
    refine ⟨{
      writing := { hw.writing with }
      isDst := hw.isDst
      content := hcontent
      atEnd := rfl
      room := hroom
      dstFrameCount := ?_
      soundDataSize := ?_
      indexes := ?_
      reserved := hgrown.1
      affordable := hgrown.2 }, rfl⟩
    · rw [framesOf_append, List.length_append, ← hw.dstFrameCount]
      exact hcount
    · rw [countedSpace_append, ← Nat.add_assoc, ← hw.soundDataSize]
      rfl
    · rw [frameIndex_append, ← hw.indexes, ← hstart]
      rfl

theorem dstWriting_crc (hw : DstWriting p frameRate chunks h f) {data : Bytes} {u : Unit}
    (hne : data ≠ []) (hrun : chunkWriteDstc data f = (.ok u, f')) :
    DstWriting p frameRate (chunks ++ crcChunk data)
      { h with soundDataSize := h.soundDataSize + chunkSpace data.length } f' := by
  have hfile := hw.file_eq
  rw [hfile] at hrun
  obtain ⟨-, rfl, hroom⟩ := (chunkWriteDstc_prints data).at_end hw.room hrun
  have hcontent := hw.append_content [.crc data]
  rw [List.flatMap_cons, List.flatMap_nil, List.append_nil] at hcontent
  have hchunk : crcChunk data = [.crc data] := if_neg hne
  rw [hchunk]
  refine {
    writing := { hw.writing with }
    isDst := hw.isDst
    content := hcontent
    atEnd := rfl
    room := hroom
    dstFrameCount := ?_
    soundDataSize := ?_
    indexes := ?_
    reserved := hw.reserved
    affordable := hw.affordable }
  · rw [framesOf_append]
    exact hw.dstFrameCount.trans (congrArg List.length (List.append_nil _).symm)
  · rw [countedSpace_append, ← Nat.add_assoc, ← hw.soundDataSize]
    rfl
  · rw [frameIndex_append]
    exact hw.indexes.trans (List.append_nil _).symm

/-- Whether a frame was written yet. -/
def someFrame (chunks : List DstChunk) : Bool := framesOf chunks ≠ []

theorem DstWriting.frameCount_eq_zero_iff (hw : DstWriting p frameRate chunks h f) :
    h.dstFrameCount = 0 ↔ someFrame chunks = false := by
  have hcount := hw.dstFrameCount
  rw [someFrame, decide_eq_false_iff_not, not_not, ← List.length_eq_zero_iff, ← hcount,
    ← UInt32.toNat_inj]
  rfl

theorem someFrame_append_frame (chunks : List DstChunk) (data : Bytes) :
    someFrame (chunks ++ frameChunk data) = (someFrame chunks || decide (data ≠ [])) := by
  unfold someFrame frameChunk
  rw [framesOf_append]
  by_cases hdata : data = []
  · simp [hdata, framesOf]
  · simp [hdata, framesOf, DstChunk.frame?]

theorem someFrame_append_crc (chunks : List DstChunk) (data : Bytes) :
    someFrame (chunks ++ crcChunk data) = someFrame chunks := by
  unfold someFrame crcChunk
  rw [framesOf_append]
  by_cases hdata : data = []
  · simp [hdata, framesOf]
  · simp [hdata, framesOf, DstChunk.frame?]

/-- A call puts its chunks behind those that stand in DST. -/
theorem DstWrite.run_step (hw : DstWriting p frameRate chunks h f) {w : DstWrite}
    (hrun : w.run h f = (.ok h', f')) :
    ∃ more, DstWriting p frameRate (chunks ++ more) h' f' ∧
      ∀ calls, dstChunks (someFrame chunks) h.hasCrc (w :: calls) =
        more ++ dstChunks (someFrame (chunks ++ more)) h'.hasCrc calls := by
  cases w with
  | frame dstData =>
    obtain ⟨_, _, hcheck, hrun⟩ := bind_eq_ok hrun
    obtain ⟨-, rfl⟩ := require_eq_ok_iff.1 hcheck
    obtain ⟨hw', hcrc⟩ := writeDstFrameInternal_step hw hrun
    refine ⟨frameChunk dstData, hw', fun calls => ?_⟩
    rw [someFrame_append_frame, hcrc]
    rfl
  | frameWithCrc dstData crcData =>
    obtain ⟨g, hg⟩ : ∃ g, (if h.dstFrameCount = 0 then { h with hasCrc := true } else h) = g :=
      ⟨_, rfl⟩
    have hstart : DstWriting p frameRate chunks g f := by
      rw [← hg]
      split
      · exact { hw with writing := { hw.writing with } }
      · exact hw
    have hhas : g.hasCrc = (h.hasCrc || !someFrame chunks) := by
      rw [← hg]
      by_cases hnone : h.dstFrameCount = 0
      · rw [if_pos hnone, hw.frameCount_eq_zero_iff.1 hnone]
        exact (Bool.or_true _).symm
      · rw [if_neg hnone, Bool.eq_true_of_not_eq_false (mt hw.frameCount_eq_zero_iff.2 hnone)]
        exact (Bool.or_false _).symm
    simp only [DstWrite.run, writeDstFrameWithCrc, hg] at hrun
    obtain ⟨g', f₁, hframe, hrun⟩ := bind_eq_ok hrun
    obtain ⟨hw', hcrc⟩ := writeDstFrameInternal_step hstart hframe
    have hnow : (h.hasCrc || !someFrame chunks) = g'.hasCrc := (hcrc.trans hhas).symm
    by_cases hwrite : g'.hasCrc = true ∧ crcData ≠ []
    · rw [if_pos hwrite] at hrun
      obtain ⟨_, f₂, hdstc, hrun⟩ := bind_eq_ok hrun
      cases hrun
      refine ⟨frameChunk dstData ++ crcChunk crcData, ?_, fun calls => ?_⟩
      · rw [← List.append_assoc]
        exact dstWriting_crc hw' hwrite.2 hdstc
      · rw [← List.append_assoc, someFrame_append_crc, someFrame_append_frame, dstChunks, hnow,
          if_pos hwrite.1]
    · rw [if_neg hwrite] at hrun
      cases hrun
      refine ⟨frameChunk dstData, hw', fun calls => ?_⟩
      have hnone : (if h'.hasCrc = true then crcChunk crcData else []) = [] := by
        split
        · next hyes => exact if_pos (not_not.1 fun hne => hwrite ⟨hyes, hne⟩)
        · rfl
      rw [someFrame_append_frame, dstChunks, hnow, hnone, List.append_nil]

/-- The calls put their chunks into DST. -/
theorem writeDstFrames_run (hw : DstWriting p frameRate chunks h f) {calls : List DstWrite}
    (hrun : writeDstFrames h calls f = (.ok h', f')) :
    DstWriting p frameRate (chunks ++ dstChunks (someFrame chunks) h.hasCrc calls) h' f' := by
  induction calls generalizing chunks h f with
  | nil =>
    cases hrun
    rw [dstChunks, List.append_nil]
    exact hw
  | cons w calls ih =>
    obtain ⟨g, f₁, hfirst, hrest⟩ := bind_eq_ok hrun
    obtain ⟨more, hw', hchunks⟩ := DstWrite.run_step hw hfirst
    have hfinal := ih hw' hrest
    rw [hchunks, ← List.append_assoc]
    exact hfinal

/-- The chunks of calls are no larger than what the calls are given. -/
theorem dstChunks_lt {calls : List DstWrite} (hfits : ∀ w ∈ calls, w.Fits)
    (someFrame hasCrc : Bool) :
    ∀ chunk ∈ dstChunks someFrame hasCrc calls, chunk.data.length < 2 ^ 32 := by
  have hframe : ∀ data : Bytes, data.length < 2 ^ 32 →
      ∀ chunk ∈ frameChunk data, chunk.data.length < 2 ^ 32 := by
    intro data hdata chunk hchunk
    unfold frameChunk at hchunk
    split at hchunk
    · cases hchunk
    · rw [List.mem_singleton.1 hchunk]
      exact hdata
  have hcrc : ∀ data : Bytes, data.length < 2 ^ 32 →
      ∀ chunk ∈ crcChunk data, chunk.data.length < 2 ^ 32 := by
    intro data hdata chunk hchunk
    unfold crcChunk at hchunk
    split at hchunk
    · cases hchunk
    · rw [List.mem_singleton.1 hchunk]
      exact hdata
  induction calls generalizing someFrame hasCrc with
  | nil =>
    intro chunk hchunk
    cases hchunk
  | cons w calls ih =>
    have hw := hfits w List.mem_cons_self
    have hrest := fun some has => ih (fun w hmem => hfits w (List.mem_cons_of_mem _ hmem)) some has
    intro chunk hchunk
    cases w with
    | frame dstData =>
      rcases List.mem_append.1 hchunk with hmem | hmem
      · exact hframe dstData hw.1 chunk hmem
      · exact hrest _ _ chunk hmem
    | frameWithCrc dstData crcData =>
      rcases List.mem_append.1 hchunk with hmem | hmem
      · rcases List.mem_append.1 hmem with hmem | hmem
        · exact hframe dstData hw.1 chunk hmem
        · split at hmem
          · exact hcrc crcData hw.2 chunk hmem
          · cases hmem
      · exact hrest _ _ chunk hmem

end Writing

/-! ## The finalized file -/

/-- The file says of the chunks in DST what they are. The contents of DST start at the
place: FRTE, and then the chunks. -/
structure Accounted (content : Bytes) (start : Nat) (chunks : List DstChunk) : Prop where
  contents : (content.drop (start + 18)).take (chunks.flatMap DstChunk.bytes).length =
    chunks.flatMap DstChunk.bytes
  chunkSize : fieldAt content (start - 8) 8 = 18 + (chunks.flatMap DstChunk.bytes).length
  frameCount : fieldAt content (start + 12) 4 = (framesOf chunks).length
  index : framesOf chunks ≠ [] → ∃ before rest,
    content = before ++ (dstiChunk (frameIndex (start + 18) chunks) ++ rest)
  entries : ∀ (i : Nat) (data : Bytes), (framesOf chunks)[i]? = some data →
    ∃ entry : Index, (frameIndex (start + 18) chunks)[i]? = some entry ∧
      entry.length = UInt32.ofNat data.length ∧
      (content.drop entry.offset).take data.length = data

theorem fieldAt_mid {content front xs rest : Bytes} {place width : Nat}
    (hcontent : content = front ++ (xs ++ rest)) (hplace : place = front.length)
    (hwidth : xs.length = width) : fieldAt content place width = ofBe xs := by
  subst hcontent hplace hwidth
  rw [fieldAt, List.drop_left, List.take_left]

/-- An entry of the index says where its frame is. -/
theorem frameIndex_payload (pre : Bytes) {post : Bytes} {chunks : List DstChunk} {i : Nat}
    {data : Bytes} (hdata : (framesOf chunks)[i]? = some data) :
    ∃ entry : Index, (frameIndex pre.length chunks)[i]? = some entry ∧
      entry.length = UInt32.ofNat data.length ∧
      ((pre ++ (chunks.flatMap DstChunk.bytes ++ post)).drop entry.offset).take data.length =
        data := by
  induction chunks generalizing pre i with
  | nil => cases hdata
  | cons chunk chunks ih =>
    have hlength : pre.length + chunk.bytes.length = (pre ++ chunk.bytes).length :=
      (List.length_append).symm
    have hwhole : pre ++ ((chunk :: chunks).flatMap DstChunk.bytes ++ post) =
        (pre ++ chunk.bytes) ++ (chunks.flatMap DstChunk.bytes ++ post) := by
      simp only [List.flatMap_cons, List.append_assoc]
    cases chunk with
    | crc crcData =>
      obtain ⟨entry, hentry, hsize, hread⟩ := ih (pre ++ (DstChunk.crc crcData).bytes) hdata
      rw [← hlength] at hentry
      exact ⟨entry, hentry, hsize, hwhole ▸ hread⟩
    | frame frameData =>
      cases i with
      | zero =>
        cases hdata
        refine ⟨_, rfl, rfl, ?_⟩
        have hplace : pre.length + 12 = (pre ++ chunkHead .dstf data.length).length := by
          rw [List.length_append, chunkHead_length (by decide)]
        have hbytes : pre ++ ((DstChunk.frame data :: chunks).flatMap DstChunk.bytes ++ post) =
            (pre ++ chunkHead .dstf data.length) ++ (data ++ (padBytes data.length ++
              (chunks.flatMap DstChunk.bytes ++ post))) := by
          simp only [List.flatMap_cons, DstChunk.bytes, DstChunk.type, DstChunk.data,
            List.append_assoc]
        rw [hbytes, hplace, List.drop_left, List.take_left]
      | succ i =>
        obtain ⟨entry, hentry, hsize, hread⟩ :=
          ih (i := i) (pre ++ (DstChunk.frame frameData).bytes) hdata
        rw [← hlength] at hentry
        exact ⟨entry, hentry, hsize, hwhole ▸ hread⟩

section Finalized

variable {p : Properties} {frameRate : UInt16} {chunks : List DstChunk} {h h' : Handle}
  {f : ByteFile}

theorem DstWriting.indexChunk_eq {g : ByteFile} (hw : DstWriting p frameRate chunks h g)
    (hsome : framesOf chunks ≠ []) :
    indexChunk h = dstiChunk (frameIndex (p.soundStart + 18) chunks) := by
  have hformat : h.isDstFormat = true := by
    rw [hw.writing.isDstFormat, hw.isDst]
    rfl
  have hcount : h.dstFrameCount ≠ 0 := by
    intro hzero
    have hnone := hw.frameCount_eq_zero_iff.1 hzero
    rw [someFrame, decide_eq_false_iff_not, not_not] at hnone
    exact hsome hnone
  have hmode : h.mode ≠ .modify := by
    rw [hw.writing.mode]
    decide
  rw [indexChunk, if_pos ⟨hformat, hcount, hmode⟩, hw.indexes, hw.dstFrameCount,
    ← frameIndex_length (p.soundStart + 18) chunks, List.take_length]

theorem soundHead_of_dst {type : AudioType} (hdst : type = .dst) (size : Nat)
    (frameCount : UInt32) (rate : UInt16) :
    soundHead type size frameCount rate = ChunkType.dst.fourcc ++ (toBe 8 size ++
      (chunkHead .frte 6 ++ (toBe 4 frameCount.toNat ++ toBe 2 rate.toNat))) := by
  rw [soundHead, if_pos hdst]
  simp only [chunkHead, frteChunk, List.append_assoc]

/-- What a finalized file says of its frames, but for the size of DST. -/
theorem DstWriting.accounted {g : ByteFile} (hw : DstWriting p frameRate chunks h g)
    (hcontent : f.content = p.finalizedFile h (chunks.flatMap DstChunk.bytes) f.content.length)
    (hroom : f.content.length ≤ ByteFile.offMax) :
    Accounted f.content p.soundStart chunks ↔
      18 + countedSpace chunks = 18 + (chunks.flatMap DstChunk.bytes).length := by
  obtain ⟨content, pos⟩ := f
  dsimp only at hcontent hroom ⊢
  obtain ⟨head, hhead⟩ : ∃ head, p.finalized.head (content.length - 12) (4 + p.prop.length) =
      head := ⟨_, rfl⟩
  have hstart : p.soundStart = head.length + 12 := by
    rw [← hhead, head_length, prop_finalized_length, Properties.soundStart]
    omega
  rw [Properties.finalizedFile, hhead, soundHead_of_dst hw.isDst] at hcontent
  have hcount := hw.dstFrameCount
  have hsize := hw.soundDataSize
  have hle := countedSpace_le chunks
  have hlength := congrArg List.length hcontent
  simp only [List.length_append, toBe_length] at hlength
  have hsizeField : fieldAt content (p.soundStart - 8) 8 = 18 + countedSpace chunks := by
    have hmid : content = (head ++ ChunkType.dst.fourcc) ++ (toBe 8 h.soundDataSize ++
        (chunkHead .frte 6 ++ (toBe 4 h.dstFrameCount.toNat ++ (toBe 2 h.dstFrameRate.toNat ++
          (chunks.flatMap DstChunk.bytes ++ (padBytes h.soundDataSize ++ metadataBytes h)))))) := by
      rw [hcontent]
      simp only [List.append_assoc]
    have hplace : p.soundStart - 8 = (head ++ ChunkType.dst.fourcc).length := by
      rw [hstart, List.length_append, ChunkType.fourcc_length (by decide)]
      omega
    rw [fieldAt_mid hmid hplace (toBe_length _ _), ofBe_toBe_of_lt, hsize]
    unfold ByteFile.offMax at hroom
    omega
  have hcountField : fieldAt content (p.soundStart + 12) 4 = (framesOf chunks).length := by
    have hmid : content = (head ++ (ChunkType.dst.fourcc ++ (toBe 8 h.soundDataSize ++
        chunkHead .frte 6))) ++ (toBe 4 h.dstFrameCount.toNat ++ (toBe 2 h.dstFrameRate.toNat ++
          (chunks.flatMap DstChunk.bytes ++ (padBytes h.soundDataSize ++ metadataBytes h)))) := by
      rw [hcontent]
      simp only [List.append_assoc]
    have hplace : p.soundStart + 12 = (head ++ (ChunkType.dst.fourcc ++ (toBe 8 h.soundDataSize ++
        chunkHead .frte 6))).length := by
      simp only [hstart, List.length_append, ChunkType.fourcc_length (show ChunkType.dst ≠ .unknown
        by decide), toBe_length, chunkHead_length (show ChunkType.frte ≠ .unknown by decide)]
    rw [fieldAt_mid hmid hplace (toBe_length _ _), ofBe_toBe_of_lt h.dstFrameCount.toNat_lt, hcount]
  have hmid : content = (head ++ soundHead p.audioType h.soundDataSize h.dstFrameCount
      h.dstFrameRate) ++ (chunks.flatMap DstChunk.bytes ++
        (padBytes h.soundDataSize ++ metadataBytes h)) := by
    rw [hcontent, soundHead_of_dst hw.isDst]
    simp only [List.append_assoc]
  have hplace : p.soundStart + 18 = (head ++ soundHead p.audioType h.soundDataSize h.dstFrameCount
      h.dstFrameRate).length := by
    rw [List.length_append, soundHead_length, if_pos hw.isDst, hstart]
  constructor
  · intro haccounted
    rw [← hsizeField]
    exact haccounted.chunkSize
  · intro heq
    refine {
      contents := ?_
      chunkSize := hsizeField.trans heq
      frameCount := hcountField
      index := ?_
      entries := ?_ }
    · rw [hplace, hmid, List.drop_left, List.take_left]
    · intro hsome
      rw [← hw.indexChunk_eq hsome]
      refine ⟨(head ++ soundHead p.audioType h.soundDataSize h.dstFrameCount h.dstFrameRate) ++
        (chunks.flatMap DstChunk.bytes ++ (padBytes h.soundDataSize ++ diinBytes h)),
        commentsBytes h ++ (fileId3Bytes h ++ (trackId3Bytes h.trackId3Tags ++
          manufacturerBytes h)), ?_⟩
      rw [hmid, metadataBytes]
      simp only [List.append_assoc]
    · intro i data hdata
      rw [hplace, hmid]
      exact frameIndex_payload _ hdata

/-- A new file has no frame yet. -/
theorem created_dstWriting {channelCount sampleBits : UInt16} {sampleRate : UInt32}
    (hfresh : Unindexed h)
    (hcreate : create h .dst channelCount sampleBits sampleRate ⟨[], 0⟩ = (.ok h', f)) :
    DstWriting (createdProperties h .dst channelCount sampleRate) h.dstFrameRate [] h' f ∧
      h'.hasCrc = h.hasCrc := by
  obtain ⟨hcount, hknown, ⟨loudspeakerChunkPos, rfl⟩, hcontent, hend, hroom⟩ :=
    create_eq_ok hcreate
  refine ⟨{
    writing := createdHandle_writing hcount hknown loudspeakerChunkPos
    isDst := rfl
    content := hcontent.trans (congrArg _ (List.append_nil _).symm)
    atEnd := hend
    room := hroom
    dstFrameCount := rfl
    soundDataSize := rfl
    indexes := hfresh.indexes
    reserved := Nat.zero_le _
    affordable := ?_ }, rfl⟩
  have hnone : (createdHandle h (createdProperties h .dst channelCount sampleRate) channelCount
      loudspeakerChunkPos).reservedIndexCount = 0 := hfresh.reservedIndexCount
  rw [hnone]
  exact Nat.zero_le _

/-- What a file with frames says of them is right if and only if DST has its size. -/
theorem writeDst_accounted {channelCount sampleBits : UInt16} {sampleRate : UInt32}
    {calls : List DstWrite} (hfresh : Unindexed h)
    (hrun : writeDst h channelCount sampleBits sampleRate calls ⟨[], 0⟩ = (.ok h', f)) :
    Accounted f.content h'.soundDataStartPos (dstChunks false h.hasCrc calls) ↔
      18 + countedSpace (dstChunks false h.hasCrc calls) =
        18 + ((dstChunks false h.hasCrc calls).flatMap DstChunk.bytes).length := by
  obtain ⟨h₁, f₁, hcreate, hrun⟩ := bind_eq_ok hrun
  obtain ⟨h₂, f₂, hframes, hrun⟩ := bind_eq_ok hrun
  obtain ⟨hw, hcrc⟩ := created_dstWriting hfresh hcreate
  have hw' := writeDstFrames_run hw hframes
  rw [hcrc] at hw'
  have hfile := hw'.file_eq
  rw [hfile] at hrun
  obtain ⟨rfl, hcontent, -, hroom⟩ := finalize_layout hw'.writing hw'.content hw'.room hrun
  exact hw'.accounted hcontent hroom

end Finalized

section Accounting

variable {h h' : Handle} {f : ByteFile} {channelCount sampleBits : UInt16} {sampleRate : UInt32}
  {calls : List DstWrite}

/-- The size, the count and the index of DST are those of its chunks if and only if each chunk
can be counted in 32 bits. -/
theorem dst_accounting_iff (hfresh : Unindexed h) (hfits : ∀ w ∈ calls, w.Fits)
    (hrun : writeDst h channelCount sampleBits sampleRate calls ⟨[], 0⟩ = (.ok h', f)) :
    Accounted f.content h'.soundDataStartPos (dstChunks false h.hasCrc calls) ↔
      ∀ chunk ∈ dstChunks false h.hasCrc calls, chunk.data.length + 12 < 2 ^ 32 := by
  rw [writeDst_accounted hfresh hrun, Nat.add_left_cancel_iff]
  exact countedSpace_eq_iff (dstChunks_lt hfits false h.hasCrc)

/-- Two frames with their CRCs, the first of an odd size. -/
theorem dst_accounting_iff_two :
    ∃ h' f, writeDst new 2 1 2822400
        [.frameWithCrc [1, 2, 3] [4, 5], .frameWithCrc [6, 7] [8]] ⟨[], 0⟩ = (.ok h', f) ∧
      Accounted f.content h'.soundDataStartPos
        [.frame [1, 2, 3], .crc [4, 5], .frame [6, 7], .crc [8]] := by
  obtain ⟨h', f, hrun⟩ := exists_ok (show (writeDst new 2 1 2822400
    [.frameWithCrc [1, 2, 3] [4, 5], .frameWithCrc [6, 7] [8]] ⟨[], 0⟩).1.toBool = true by
      decide +kernel)
  have hfits : ∀ w ∈ [DstWrite.frameWithCrc [1, 2, 3] [4, 5], .frameWithCrc [6, 7] [8]],
      w.Fits := by
    intro w hw
    simp only [List.mem_cons, List.not_mem_nil, or_false] at hw
    rcases hw with rfl | rfl <;> exact ⟨by decide, by decide⟩
  exact ⟨h', f, hrun, (dst_accounting_iff ⟨rfl, rfl⟩ hfits hrun).2 (by decide)⟩

/-! ### A frame that is too large -/

theorem chunkWriteDstf_at_room {pre data : Bytes}
    (hroom : (pre ++ (DstChunk.frame data).bytes).length ≤ ByteFile.offMax) :
    chunkWriteDstf data ⟨pre, pre.length⟩ = (.ok (pre.length + 12),
      ⟨pre ++ (DstChunk.frame data).bytes, (pre ++ (DstChunk.frame data).bytes).length⟩) := by
  have hhead := (writeChunkHead_prints .dstf data.length).writes.at_end pre
  have hdata := (ioWriteBytes_prints data).writes.at_end (pre ++ chunkHead .dstf data.length)
  have hpad := (writePadOf_prints data.length).writes.at_end
    (pre ++ chunkHead .dstf data.length ++ data)
  have hbytes : pre ++ chunkHead .dstf data.length ++ data ++ padBytes data.length =
      pre ++ (DstChunk.frame data).bytes := by
    simp only [DstChunk.bytes, DstChunk.type, DstChunk.data, List.append_assoc]
  have hplace : (pre ++ chunkHead .dstf data.length).length = pre.length + 12 := by
    rw [List.length_append, chunkHead_length (by decide)]
  have hlength := congrArg List.length hbytes
  simp only [List.length_append] at hlength hroom hhead hdata hpad
  rw [chunkWriteDstf, bind_of_ok (hhead (by omega)), bind_of_ok (tell_apply _)]
  simp only [← List.length_append] at hdata hpad ⊢
  rw [bind_of_ok (hdata (by simp only [List.length_append]; omega)),
    bind_of_ok (hpad (by simp only [List.length_append]; omega)), hbytes, hplace]
  rfl

/-- The first frame of a file is written where there is room for it. -/
theorem writeDstFrame_of_room {p : Properties} {frameRate : UInt16}
    (hw : DstWriting p frameRate [] h f) (hcrc : h.hasCrc = false) {data : Bytes}
    (hdata : data ≠ []) (hsize : data.length < 2 ^ 32)
    (hroom : f.content.length + data.length + 13 ≤ ByteFile.offMax)
    (hfresh : Unindexed h) (hplain : Plain h) :
    ∃ h' f', writeDstFrame h data f = (.ok h', f') ∧ Plain h' ∧
      f'.content.length ≤ f.content.length + data.length + 13 := by
  have hmode := hw.writing.mode
  have hformat : h.isDstFormat = true := by
    rw [hw.writing.isDstFormat, hw.isDst]
    rfl
  have hcount : h.dstFrameCount = 0 := hw.frameCount_eq_zero_iff.2 rfl
  have hlimit : h.soundDataSize + data.length ≤ maxDataSize := by
    rw [hw.soundDataSize, countedSpace, maxDataSize]
    simp only [List.map_nil, List.sum_nil]
    omega
  have hbytes : (f.content ++ (DstChunk.frame data).bytes).length ≤
      f.content.length + data.length + 13 := by
    rw [List.length_append, DstChunk.bytes_length, DstChunk.data]
    omega
  have hwrite := chunkWriteDstf_at_room (hbytes.trans hroom)
  have hgrow : h.dstFrameCount + 1 < h.reservedIndexCount ∨
      (if h.reservedIndexCount ≤ h.dstFrameCount + 1 then h.reservedIndexCount + 1000
        else h.reservedIndexCount).toNat * indexSize ≤ maxAllocSize := by
    rw [hcount, hfresh.reservedIndexCount]
    decide
  have hfile := hw.file_eq
  rw [hfile, writeDstFrame, require_bind hcrc, writeDstFrameInternal,
    require_bind (by rw [hmode]; decide), require_bind hmode, require_bind hformat, if_neg hdata,
    require_bind hlimit, bind_of_ok hwrite]
  dsimp only
  rw [require_bind hgrow]
  exact ⟨_, _, rfl, { hplain with }, hbytes⟩

/-- A file with one frame is written where there is room for it. -/
theorem writeDst_one {data : Bytes} (hdata : data ≠ []) (hsize : data.length < 2 ^ 32) :
    ∃ h' f', writeDst new 2 1 2822400 [.frame data] ⟨[], 0⟩ = (.ok h', f') := by
  obtain ⟨h₁, f₁, hcreate⟩ := exists_ok (show (create new .dst 2 1 2822400 ⟨[], 0⟩).1.toBool = true
    by decide +kernel)
  have hshort : f₁.content.length ≤ 1000 := by
    have hfile : (create new .dst 2 1 2822400 ⟨[], 0⟩).2.content.length ≤ 1000 := by
      decide +kernel
    rwa [hcreate] at hfile
  obtain ⟨hw, hcrc⟩ := created_dstWriting ⟨rfl, rfl⟩ hcreate
  obtain ⟨hfresh, hplain⟩ : Unindexed h₁ ∧ Plain h₁ := by
    obtain ⟨-, -, ⟨_, rfl⟩, -⟩ := create_eq_ok hcreate
    have hdiin : ¬ (new.hasEmid ∨ new.hasDiscArtist ∨ new.hasDiscTitle ∨ new.markers ≠ []) := by
      decide
    exact ⟨⟨rfl, rfl⟩, ⟨hdiin, rfl, rfl, rfl, rfl⟩⟩
  have hroom : f₁.content.length + data.length + 13 ≤ 2 ^ 33 := by omega
  obtain ⟨h₂, f₂, hframe, hplain₂, hlength⟩ :=
    writeDstFrame_of_room hw hcrc hdata hsize (hroom.trans (by decide)) hfresh hplain
  have hframes : writeDstFrames h₁ [.frame data] f₁ = (.ok h₂, f₂) := bind_of_ok hframe
  have hw₂ := writeDstFrames_run hw hframes
  have hchunks : [] ++ dstChunks (someFrame []) h₁.hasCrc [.frame data] = [.frame data] := by
    rw [List.nil_append, dstChunks, dstChunks, List.append_nil]
    exact if_neg hdata
  rw [hchunks] at hw₂
  have hindex : (metadataBytes h₂).length = 24 := by
    have hsome : framesOf [DstChunk.frame data] ≠ [] := List.cons_ne_nil _ _
    rw [metadataBytes_of_plain hplain₂, hw₂.indexChunk_eq hsome, dstiChunk, List.length_append,
      chunkHead_length (by decide)]
    rfl
  have hpad := padBytes_length h₂.soundDataSize
  have htotal : (f₂.content ++ (padBytes h₂.soundDataSize ++ metadataBytes h₂)).length ≤
      2 ^ 34 := by
    rw [List.length_append, List.length_append, hindex, hpad]
    omega
  have hoff : (2 : Nat) ^ 34 ≤ ByteFile.offMax := by decide
  have hmetadata := (writeMetadata_of_plain hplain₂).writes.at_end f₂.content
    (by
      rw [← List.length_append]
      exact htotal.trans hoff)
  have hfinal := finalize_of_metadata hw₂.writing hw₂.content hmetadata (htotal.trans hoff) rfl
  have hfile := hw₂.file_eq
  rw [← hfile] at hfinal
  exact ⟨_, _, (bind_of_ok hcreate).trans ((bind_of_ok hframes).trans hfinal)⟩

/-- A frame of `UINT32_MAX` - 11 bytes is counted as if it had none. -/
theorem large_frame_unaccounted :
    ∃ h' f, writeDst new 2 1 2822400 [.frame (List.replicate (2 ^ 32 - 12) 0)] ⟨[], 0⟩ =
        (.ok h', f) ∧
      ¬ Accounted f.content h'.soundDataStartPos [.frame (List.replicate (2 ^ 32 - 12) 0)] := by
  obtain ⟨data, hdata⟩ : ∃ data : Bytes, List.replicate (2 ^ 32 - 12) 0 = data := ⟨_, rfl⟩
  have hlength : data.length = 2 ^ 32 - 12 := by rw [← hdata, List.length_replicate]
  have hne : data ≠ [] := List.ne_nil_of_length_pos (by omega)
  rw [hdata]
  obtain ⟨h', f, hrun⟩ := writeDst_one hne (by omega)
  have hchunks : dstChunks false new.hasCrc [.frame data] = [.frame data] := by
    rw [dstChunks, dstChunks, List.append_nil]
    exact if_neg hne
  have haccounted := writeDst_accounted ⟨rfl, rfl⟩ hrun
  rw [hchunks, Nat.add_left_cancel_iff, countedSpace_eq_iff] at haccounted
  · refine ⟨h', f, hrun, fun hgood => ?_⟩
    have hsmall := haccounted.1 hgood _ List.mem_cons_self
    rw [DstChunk.data] at hsmall
    omega
  · intro chunk hchunk
    rw [List.mem_singleton.1 hchunk, DstChunk.data]
    omega

end Accounting

end DsdNexus.Dsdiff
