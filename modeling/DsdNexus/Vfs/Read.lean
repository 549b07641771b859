import DsdNexus.Vfs.Transform

/-! # Reading and seeking a virtual file

`sacd_vfs_file_read` serves one region after another; `sacd_vfs_file_seek`
repositions the audio state to the last frame at which frames and blocks meet.
Both are written once for the two kinds of handle: the audio region reader and
the restart of the pipeline are passed in, a handle without threads reads with
`readAudioRegion` and restarts nothing.
-/

namespace DsdNexus.Vfs

/-- A status, the bytes stored in the caller's buffer, the handle afterwards. -/
structure ReadResult where
  status : Status
  data : Bytes
  file : VfsFile

/-- `file->position += n`. -/
def VfsFile.advance (f : VfsFile) (n : Nat) : VfsFile := { f with position := f.position + n }

@[simp] theorem VfsFile.advance_position (f : VfsFile) (n : Nat) :
    (f.advance n).position = f.position + n := rfl

/-! ## The three regions -/

/-- `_read_header_region`. -/
def readHeaderRegion (f : VfsFile) (size : Nat) : ReadResult :=
  let headerRemaining := f.dsfHeaderSize - f.position
  let toRead := min size headerRemaining
  ⟨.ok, (f.dsfHeader.drop f.position).take toRead, f.advance toRead⟩

/-- `_read_metadata_region`. -/
def readMetadataRegion (t : Track) (f : VfsFile) (size : Nat) : ReadResult :=
  if f.info.metadataSize = 0 then ⟨.eof, [], f⟩
  else match t.id3Tag with
    | none => ⟨.format, [], f⟩
    | some id3 =>
      let metaOffset := f.position - f.info.metadataOffset
      if id3.length ≤ metaOffset then ⟨.eof, [], f⟩
      else
        let toRead := min size (id3.length - metaOffset)
        ⟨.ok, (id3.drop metaOffset).take toRead, f.advance toRead⟩

/-- What the transform buffer still holds. -/
def VfsFile.pending (f : VfsFile) : Bytes :=
  (f.transformBuffer.take f.transformBufferLen).drop f.transformBufferPos

/-- `n` bytes leave the transform buffer for the caller. -/
def VfsFile.consume (f : VfsFile) (n : Nat) : VfsFile :=
  { f with transformBufferPos := f.transformBufferPos + n, position := f.position + n }

def VfsFile.nextFrame (f : VfsFile) : VfsFile := { f with currentFrame := f.currentFrame + 1 }

@[simp] theorem VfsFile.nextFrame_currentFrame (f : VfsFile) :
    f.nextFrame.currentFrame = f.currentFrame + 1 := rfl

/-- After a seek, skip bytes to align with the target position. -/
def skipAfterSeek (f : VfsFile) : VfsFile :=
  if 0 < f.seekSkipBytes ∧ 0 < f.transformBufferLen then
    let skip := min f.seekSkipBytes f.transformBufferLen
    { f with transformBufferPos := skip, seekSkipBytes := f.seekSkipBytes - skip }
  else f

@[simp] theorem skipAfterSeek_endFrame (f : VfsFile) :
    (skipAfterSeek f).endFrame = f.endFrame := by
  unfold skipAfterSeek; split <;> rfl

@[simp] theorem skipAfterSeek_currentFrame (f : VfsFile) :
    (skipAfterSeek f).currentFrame = f.currentFrame := by
  unfold skipAfterSeek; split <;> rfl

/-- The DST decoding step; `none` where the handle has no decoder, the decoder
fails or it returns no bytes. -/
def decodeFrame (t : Track) (f : VfsFile) (frame : Bytes) : Option Bytes :=
  if f.info.frameFormat = .dst then
    if f.dstDecoder then
      match t.dstDecode frame with
      | some decoded => if decoded.length = 0 then none else some decoded
      | none => none
    else none
  else some frame

/-- The loop of `_read_audio_region`; `totalRead` are the bytes stored so far. -/
def readAudioLoop (t : Track) (f : VfsFile) (size : Nat) (totalRead : Bytes) : ReadResult :=
  if 0 < size ∧ f.position < f.info.metadataOffset then
    if f.transformBufferPos < f.transformBufferLen then
      let toCopy := min size (f.transformBufferLen - f.transformBufferPos)
      readAudioLoop t (f.consume toCopy) (size - toCopy)
        (totalRead ++ (f.transformBuffer.drop f.transformBufferPos).take toCopy)
    else if f.endFrame ≤ f.currentFrame then
      if 0 < f.bytesBuffered then readAudioLoop t (flushBlockBuffers f) size totalRead
      else ⟨.ok, totalRead, f⟩
    else
      match t.soundData f.currentFrame with
      | none => ⟨.ok, totalRead, { f with audioEarlyEof := true }⟩
      | some frame =>
        let f' := f.nextFrame
        match decodeFrame t f' frame with
        | none =>
          if 0 < totalRead.length then ⟨.ok, totalRead, f'⟩ else ⟨.dstDecode, [], f'⟩
        | some data => readAudioLoop t (skipAfterSeek (transformDsdFrame f' data)) size totalRead
  else ⟨.ok, totalRead, f⟩
termination_by (size, f.endFrame - f.currentFrame, f.bytesBuffered)
decreasing_by
  all_goals simp_wf
  · apply Prod.Lex.left
    omega
  · have hf := flushBlockBuffers_frame f
    rw [hf.2.2.1, hf.2.2.2.1]
    apply Prod.Lex.right
    apply Prod.Lex.right
    simp [flushBlockBuffers, *]
  · apply Prod.Lex.right
    apply Prod.Lex.left
    simp only [VfsFile.nextFrame]
    omega

/-- Audio that ended early: the rest of the region is DSD silence. -/
def fillGap (f : VfsFile) (size : Nat) : ReadResult :=
  if size = 0 then ⟨.ok, [], f⟩
  else
    let toFill := min (f.info.metadataOffset - f.position) size
    ⟨.ok, List.replicate toFill 0x96, f.advance toFill⟩

/-- `_read_audio_region` of a handle without threads. -/
def readAudioRegion (t : Track) (f : VfsFile) (size : Nat) : ReadResult :=
  if f.audioEarlyEof ∧ f.position < f.info.metadataOffset then fillGap f size
  else readAudioLoop t f size []

/-! ## The read call -/

section

variable {m : Type → Type} [Monad m]

def readRegion (t : Track) (readAudio : VfsFile → Nat → m ReadResult) (f : VfsFile)
    (size : Nat) : m ReadResult :=
  if f.position < f.dsfHeaderSize then pure (readHeaderRegion f size)
  else if f.position < f.info.metadataOffset then readAudio f size
  else pure (readMetadataRegion t f size)

/-- The loop of `sacd_vfs_file_read`. A turn that stores nothing is followed by
at most one more that stores nothing, so twice the request is fuel enough. -/
def fileReadLoop (t : Track) (readAudio : VfsFile → Nat → m ReadResult) :
    Nat → VfsFile → Nat → Bytes → m ReadResult
  | 0, f, _, totalRead => pure ⟨.ok, totalRead, f⟩
  | fuel + 1, f, remaining, totalRead =>
    if 0 < remaining ∧ f.position < f.info.totalSize then do
      let r ← readRegion t readAudio f remaining
      if r.status ≠ .ok ∧ r.status ≠ .eof then
        if 0 < totalRead.length then pure ⟨.ok, totalRead, r.file⟩
        else pure ⟨r.status, [], r.file⟩
      else if r.data.length = 0 then
        -- the gap is filled on the next turn
        if r.file.audioEarlyEof ∧ r.file.position < r.file.info.metadataOffset then
          fileReadLoop t readAudio fuel r.file (remaining - r.data.length) (totalRead ++ r.data)
        else pure ⟨.ok, totalRead ++ r.data, r.file⟩
      else fileReadLoop t readAudio fuel r.file (remaining - r.data.length) (totalRead ++ r.data)
    else pure ⟨.ok, totalRead, f⟩

/-- `sacd_vfs_file_read`. -/
def sacdVfsFileRead (t : Track) (readAudio : VfsFile → Nat → m ReadResult) (f : VfsFile)
    (size : Nat) : m ReadResult :=
  if f.info.totalSize ≤ f.position then pure ⟨.eof, [], f⟩
  else fileReadLoop t readAudio (2 * size + 1) f size []

/-! ## The seek call -/

inductive Whence where
  | set | cur | fromEnd | other
  deriving DecidableEq, Repr

/-- The position a seek asks for; `none` for an unknown whence. -/
def seekTarget (position totalSize : Nat) (offset : Int) : Whence → Option Int
  | .set => some offset
  | .cur => some (position + offset)
  | .fromEnd => some (totalSize + offset)
  | .other => none

/-- Output bytes of 128 frames: 147 whole block groups. -/
def outputPerAlignment (channelCount : Nat) : Nat :=
  frameBlockAlignment * frameSize64 / dsfBlockSize * (dsfBlockSize * channelCount)

/-- The state reset of `sacd_vfs_file_seek` once the position is known to move. -/
def repositionAudio (f : VfsFile) (newPos : Nat) : VfsFile :=
  let f := { f with
    position := newPos
    audioEarlyEof := false
    transformBufferPos := 0
    transformBufferLen := 0
    seekSkipBytes := 0 }
  if f.position < f.dsfHeaderSize then
    { f with currentFrame := f.startFrame, bytesBuffered := 0 }
  else if f.position < f.info.metadataOffset then
    let audioOffset := f.position - f.dsfHeaderSize
    let bytesPerBlockGroup := dsfBlockSize * f.info.channelCount
    let alignmentGroup := audioOffset / outputPerAlignment f.info.channelCount
    let alignedFrame := alignmentGroup * frameBlockAlignment
    if f.endFrame < f.startFrame + alignedFrame then
      let alignedOutputPos :=
        (f.endFrame - f.startFrame) * frameSize64 / dsfBlockSize * bytesPerBlockGroup
      { f with
        currentFrame := f.endFrame
        bytesBuffered := 0
        seekSkipBytes := audioOffset - alignedOutputPos }
    else
      let alignedOutputPos := alignmentGroup * outputPerAlignment f.info.channelCount
      { f with
        currentFrame := f.startFrame + alignedFrame
        bytesBuffered := 0
        seekSkipBytes := audioOffset - alignedOutputPos }
  else
    { f with currentFrame := f.endFrame, bytesBuffered := 0 }

/-- `sacd_vfs_file_seek`; `restart` is the exchange with the reader thread. -/
def sacdVfsFileSeek (restart : Nat → m Unit) (f : VfsFile) (offset : Int) (whence : Whence) :
    m (Status × VfsFile) :=
  match seekTarget f.position f.info.totalSize offset whence with
  | none => pure (.invalidParameter, f)
  | some newPos =>
    if newPos < 0 then pure (.seek, f)
    else if newPos.toNat = f.position then pure (.ok, f)
    else do
      let f' := repositionAudio f newPos.toNat
      restart f'.currentFrame
      pure (.ok, f')

end

/-! ## A handle without threads -/

def fileRead (t : Track) (f : VfsFile) (size : Nat) : ReadResult :=
  sacdVfsFileRead (m := Id) t (readAudioRegion t) f size

def fileSeek (f : VfsFile) (offset : Int) (whence : Whence) : Status × VfsFile :=
  sacdVfsFileSeek (m := Id) (fun _ => ()) f offset whence

/-- The calls a caller makes on an open handle. -/
inductive Op where
  | seek (offset : Int) (whence : Whence)
  | read (size : Nat)
  deriving DecidableEq, Repr

def Op.run (t : Track) (f : VfsFile) : Op → VfsFile
  | .seek offset whence => (fileSeek f offset whence).2
  | .read size => (fileRead t f size).file

/-- The handle after a history of calls. -/
def runOps (t : Track) (ops : List Op) : VfsFile := ops.foldl (Op.run t) (sacdVfsFileOpen t)

end DsdNexus.Vfs
