import DsdNexus.Dsdiff.Skips
import DsdNexus.Lib.Logged

/-! # DSDIFF: what is read into buffers

The chunk readers allocate a buffer of a size they compute from a length in the file, and
read into it as many bytes as that length says; a DST frame and its CRC are read into the
buffers of the caller. The readers are repeated here with a note of each read and of the room
there is for it.
-/

namespace DsdNexus.Dsdiff

open Program FileProgram Logged

/-- A read into a buffer: the room of the buffer, and what is put into it. -/
structure Fill where
  room : Nat
  filled : Nat
deriving DecidableEq

def Fill.Fits (x : Fill) : Prop := x.filled ≤ x.room

instance (x : Fill) : Decidable x.Fits := inferInstanceAs (Decidable (_ ≤ _))

/-- A program that notes what it reads into buffers. -/
abbrev Filling (σ α : Type) : Type := Logged Fill Error σ α

/-- `dsdiff_io_read_bytes`. -/
def fillBytes (room byteCount : Nat) : Filling ByteFile (List UInt8) :=
  noting (fun io => ⟨room, (io.read byteCount).1.length⟩) (ioReadBytes byteCount)

/-- `dsdiff_io_read_string`: behind all of the characters a terminator is put. -/
def fillString (room length : Nat) : Filling ByteFile (List UInt8) :=
  noting (fun io => ⟨room, (io.read length).1.length +
    if (io.read length).1.length = length then 1 else 0⟩)
    (if length < room then ioReadBytes length else fail .undefined)

/-- The room of what `sa_malloc` returns, at least a byte. -/
def roomOf (size : Nat) : Nat := max 1 size

def fillText (numChars : UInt32) : Filling ByteFile (List UInt8) := do
  lift (saMalloc (numChars + 1).toNat)
  fillString (roomOf (numChars + 1).toNat) numChars.toNat

def fillTextOf (numChars : UInt32) : Filling ByteFile (List UInt8) :=
  if 0 < numChars then fillText numChars else pure []

/-- There is room for a text and its terminator unless their number wraps around. -/
theorem lt_roomOf_iff (numChars : UInt32) :
    numChars.toNat < roomOf (numChars + 1).toNat ↔ numChars.toNat ≠ 2 ^ 32 - 1 := by
  have hlt := numChars.toNat_lt
  have hone : (1 : UInt32).toNat = 1 := rfl
  unfold roomOf
  rw [UInt32.toNat_add, hone]
  omega

theorem erase_fillText (numChars : UInt32) : erase (fillText numChars) = readText numChars := by
  funext io
  simp only [fillText, fillString, readText, erase_bind, erase_lift, erase_noting]
  by_cases hmax : numChars = 0xFFFFFFFF
  · subst hmax
    rfl
  · have hchars : numChars.toNat ≠ 2 ^ 32 - 1 := fun h => hmax (UInt32.toNat_inj.1 h)
    have hsum : numChars + 1 ≠ 0 := by
      intro hzero
      refine hmax ?_
      rw [← UInt32.add_sub_cancel numChars 1, hzero]
      rfl
    rw [require_bind hsum, if_pos ((lt_roomOf_iff numChars).2 hchars)]

theorem erase_fillTextOf (numChars : UInt32) :
    erase (fillTextOf numChars) = readTextOf numChars := by
  simp only [fillTextOf, readTextOf, erase_ite, erase_fillText, erase_pure]

/-! ## The readers -/

def fillComment : Filling ByteFile Comment := do
  let year ← lift ioReadUint16Be
  let month ← lift ioReadUint8
  let day ← lift ioReadUint8
  let hour ← lift ioReadUint8
  let minute ← lift ioReadUint8
  let commentType ← lift ioReadUint16Be
  let commentRef ← lift ioReadUint16Be
  let textLen ← lift ioReadUint32Be
  let text ← fillTextOf textLen
  lift (readPadOf textLen.toNat)
  pure ⟨year, month, day, hour, minute, commentType, commentRef, textLen, text⟩

def fillComments : Nat → Filling ByteFile (List Comment)
  | 0 => pure []
  | n + 1 => do
    let comment ← fillComment
    let comments ← fillComments n
    pure (comment :: comments)

/-- `dsdiff_chunk_read_comt`. -/
def fillComt : Filling ByteFile (List Comment) := do
  let _ ← lift ioReadUint64Be
  let num ← lift ioReadUint16Be
  fillComments num.toNat

/-- `dsdiff_chunk_read_emid`. -/
def fillEmid : Filling ByteFile (List UInt8) := do
  let chunkSize ← lift ioReadUint64Be
  let text ← fillText (UInt32.ofNat chunkSize)
  lift (readPadOf (UInt32.ofNat chunkSize).toNat)
  pure text

/-- `dsdiff_chunk_read_diar` and `dsdiff_chunk_read_diti`. -/
def fillCountedText : Filling ByteFile (List UInt8) := do
  let _ ← lift ioReadUint64Be
  let numChars ← lift ioReadUint32Be
  let text ← fillText numChars
  lift (readPadOf numChars.toNat)
  pure text

/-- `dsdiff_chunk_read_mark`. -/
def fillMark : Filling ByteFile Marker := do
  let chunkSize ← lift ioReadUint64Be
  let hours ← lift ioReadUint16Be
  let minutes ← lift ioReadUint8
  let seconds ← lift ioReadUint8
  let samples ← lift ioReadUint32Be
  let offset ← lift ioReadUint32Be
  let markType ← lift ioReadUint16Be
  let markChannel ← lift ioReadUint16Be
  let trackFlags ← lift ioReadUint16Be
  let textLen ← lift ioReadUint32Be
  lift (require ((textLen + 22).toNat = chunkSize ∨ (textLen + 22 + 1).toNat = chunkSize)
    .invalidFile)
  let text ← fillTextOf textLen
  lift (readPadOf textLen.toNat)
  pure ⟨⟨hours, minutes, seconds, samples⟩, markType, markChannel, trackFlags, offset, textLen,
    text⟩

/-- `dsdiff_chunk_read_id3`. -/
def fillId3 : Filling ByteFile (List UInt8) := do
  let chunkDataSize ← lift ioReadUint64Be
  if chunkDataSize = 0 then
    pure []
  else
    lift (saMalloc chunkDataSize)
    let tag ← fillBytes (roomOf chunkDataSize) chunkDataSize
    lift (readPadOf chunkDataSize)
    pure tag

theorem erase_fillComment : erase fillComment = readComment := by
  simp only [fillComment, readComment, erase_bind, erase_lift, erase_pure, erase_fillTextOf]

theorem erase_fillComments (n : Nat) : erase (fillComments n) = readComments n := by
  induction n with
  | zero => rfl
  | succ n ih =>
    simp only [fillComments, readComments, erase_bind, erase_pure, erase_fillComment, ih]

theorem erase_fillComt : erase fillComt = chunkReadComt := by
  simp only [fillComt, chunkReadComt, erase_bind, erase_lift, erase_fillComments]

theorem erase_fillEmid : erase fillEmid = chunkReadEmid := by
  simp only [fillEmid, chunkReadEmid, erase_bind, erase_lift, erase_pure, erase_fillText]

theorem erase_fillCountedText : erase fillCountedText = readCountedText := by
  simp only [fillCountedText, readCountedText, erase_bind, erase_lift, erase_pure,
    erase_fillText]

theorem erase_fillMark : erase fillMark = chunkReadMark := by
  simp only [fillMark, chunkReadMark, erase_bind, erase_lift, erase_pure, erase_fillTextOf]

theorem erase_fillId3 : erase fillId3 = chunkReadId3 := by
  funext io
  simp only [fillId3, chunkReadId3, fillBytes, erase_bind, erase_lift, erase_pure,
    erase_ite, erase_noting]

/-- A reader of the file, for an open handle. -/
def ofIo {α : Type} (m : Filling ByteFile α) : Filling OpenHandle α :=
  Logged.zoom OpenHandle.io (fun io s => { s with io := io }) m

/-- `dsdiff_chunk_read_manf`, into the handle. -/
def fillManf : Filling OpenHandle Unit := do
  let pos ← lift (liftIo tell)
  lift (update fun h => { h with
    manufacturerChunkPos := pos - 4, manufacturerData := [], manufacturerDataSize := 0 })
  let chunkSize ← lift (liftIo ioReadUint64Be)
  lift (require (4 ≤ chunkSize) .invalidChunk)
  let manId ← ofIo (fillBytes 4 4)
  lift (update fun h => { h with manufacturerId := manId })
  let manDataSize := UInt32.ofNat (chunkSize - 4)
  lift (liftIo (saMalloc manDataSize.toNat))
  let manData ← ofIo (fillBytes (roomOf manDataSize.toNat) manDataSize.toNat)
  lift (liftIo (readPadOf chunkSize))
  lift (update fun h => { h with
    manufacturerData := manData, manufacturerDataSize := manDataSize, hasManufacturer := true })

theorem erase_fillManf : erase fillManf = readManf := by
  funext s
  simp only [fillManf, readManf, ofIo, fillBytes, erase_bind, erase_lift,
    erase_zoom, erase_noting]
  rfl

/-! ## DST frames -/

/-- `dsdiff_chunk_read_dstf`, into a buffer of the caller. -/
def fillDstf (maxFrameSize : UInt32) : Filling ByteFile (List UInt8) := do
  let frameSize ← lift ioReadUint64Be
  let frameData ← fillBytes maxFrameSize.toNat (frameSize % 2 ^ 32)
  lift (require (frameData.length = frameSize) .unexpectedEof)
  lift (readPadOf frameSize)
  pure frameData

/-- `dsdiff_chunk_read_dstc`, likewise. -/
def fillDstc (maxCrcSize : UInt32) : Filling ByteFile (List UInt8) := do
  let crcSize ← lift ioReadUint64Be
  let crcData ← fillBytes maxCrcSize.toNat crcSize
  lift (readPadOf crcSize)
  pure crcData

/-- `chunk_id` behind `dsdiff_chunk_read_header`, whether it fails or not. -/
def nextChunkId : Io ChunkType := fun io =>
  match chunkReadHeader io with
  | (.ok chunkId, io) => (.ok chunkId, io)
  | (.error _, io) => (.ok .unknown, io)

/-- The file is left in front of the data of the next frame, or where the sound data start. -/
def leaveFrame (h : Handle) (chunkId : ChunkType) : Io Unit := fun io =>
  if chunkId = .dstf then (.ok (), io) else (.ok (), (ioSeekSet h.soundDataStartPos io).2)

/-- `dsdiff_read_dst_frame`. -/
def readDstFrame (h : Handle) (maxFrameSize : UInt32) : Filling ByteFile (List UInt8) := do
  let dstData ← fillDstf maxFrameSize
  let chunkId ← lift nextChunkId
  if chunkId = .dstc then
    let skipped ← attempt (lift chunkSkip)
    let chunkId ← lift (if skipped = .ok () then nextChunkId else pure .dstc)
    lift (leaveFrame h chunkId)
    pure dstData
  else
    lift (leaveFrame h chunkId)
    pure dstData

/-- `dsdiff_read_dst_frame_with_crc`: the frame and its CRC. -/
def readDstFrameWithCrc (h : Handle) (maxFrameSize maxCrcSize : UInt32) :
    Filling ByteFile (List UInt8 × List UInt8) := do
  let dstData ← fillDstf maxFrameSize
  let chunkId ← lift nextChunkId
  if chunkId = .dstc then
    let crcData ← attempt (fillDstc maxCrcSize)
    let chunkId ← lift (if crcData.toBool then nextChunkId else pure .dstc)
    lift (leaveFrame h chunkId)
    pure (dstData, crcData.toOption.getD [])
  else
    lift (leaveFrame h chunkId)
    pure (dstData, [])

theorem erase_fillDstf (maxFrameSize : UInt32) : erase (fillDstf maxFrameSize) = chunkReadDstf := by
  simp only [fillDstf, chunkReadDstf, fillBytes, erase_bind, erase_lift, erase_pure, erase_noting]

theorem erase_fillDstc (maxCrcSize : UInt32) : erase (fillDstc maxCrcSize) = chunkReadDstc := by
  simp only [fillDstc, chunkReadDstc, fillBytes, erase_bind, erase_lift, erase_pure, erase_noting]

/-! ## Calls that fill a buffer -/

/-- The readers, and the calls that read a frame. -/
inductive FillingCall where
  | comt | emid | diar | diti | mark | manf | id3
  | dstFrame (maxFrameSize : UInt32)
  | dstFrameWithCrc (maxFrameSize maxCrcSize : UInt32)
deriving DecidableEq

def FillingCall.run : FillingCall → Filling OpenHandle Unit
  | .comt => do
    let _ ← ofIo fillComt
    pure ()
  | .emid => do
    let _ ← ofIo fillEmid
    pure ()
  | .diar | .diti => do
    let _ ← ofIo fillCountedText
    pure ()
  | .mark => do
    let _ ← ofIo fillMark
    pure ()
  | .manf => fillManf
  | .id3 => do
    let _ ← ofIo fillId3
    pure ()
  | .dstFrame maxFrameSize => do
    let s ← lift get
    let _ ← ofIo (readDstFrame s.handle maxFrameSize)
    pure ()
  | .dstFrameWithCrc maxFrameSize maxCrcSize => do
    let s ← lift get
    let _ ← ofIo (readDstFrameWithCrc s.handle maxFrameSize maxCrcSize)
    pure ()

/-- All that a call reads into a buffer fits in it. -/
def FillingCall.Fits (q : FillingCall) (s : OpenHandle) : Prop := All Fill.Fits q.run s

/-- A text of this length that stands at the place: where its size with the terminator wraps
around, no more than a byte is left of the file. -/
def TextFits (content : List UInt8) (p length : Nat) : Prop :=
  length = 2 ^ 32 - 1 → content.length ≤ p + 1

/-- The same of so many comments from the place on, as far as they are reached: no longer text
than can be allocated is passed. -/
def CommentsFit (content : List UInt8) : Nat → Nat → Prop
  | 0, _ => True
  | n + 1, p => TextFits content (p + 14) (fieldAt content (p + 10) 4) ∧
    (fieldAt content (p + 10) 4 < maxAllocSize → CommentsFit content n
      (p + 14 + fieldAt content (p + 10) 4 + fieldAt content (p + 10) 4 % 2))

/-- The data of a frame chunk whose size field is at the place, as far as they are there. -/
def FrameFits (content : List UInt8) (p : Nat) (maxFrameSize : UInt32) : Prop :=
  min (fieldAt content p 8 % 2 ^ 32) (content.length - (p + 8)) ≤ maxFrameSize.toNat

/-- Where the chunk behind that frame starts. -/
def behindFrame (content : List UInt8) (p : Nat) : Nat :=
  p + 8 + fieldAt content p 8 + fieldAt content p 8 % 2

/-- The CRC behind the frame, where there is one. -/
def CrcFits (content : List UInt8) (p : Nat) (maxCrcSize : UInt32) : Prop :=
  fieldAt content p 8 < 2 ^ 32 → typeAt content (behindFrame content p) = .dstc →
    min (fieldAt content (behindFrame content p + 4) 8)
      (content.length - (behindFrame content p + 12)) ≤ maxCrcSize.toNat

/-- What the length fields ahead of the file have to be for a call. -/
def FillingCall.Bounded (content : List UInt8) (p : Nat) : FillingCall → Prop
  | .comt => CommentsFit content (fieldAt content (p + 8) 2) (p + 10)
  | .emid => TextFits content (p + 8) (fieldAt content p 8 % 2 ^ 32)
  | .diar | .diti => TextFits content (p + 12) (fieldAt content (p + 8) 4)
  | .mark => fieldAt content p 8 = 21 ∨ fieldAt content p 8 = 22 →
    TextFits content (p + 30) (fieldAt content (p + 26) 4)
  | .manf | .id3 => True
  | .dstFrame maxFrameSize => FrameFits content p maxFrameSize
  | .dstFrameWithCrc maxFrameSize maxCrcSize => FrameFits content p maxFrameSize ∧
    CrcFits content p maxCrcSize

end DsdNexus.Dsdiff
