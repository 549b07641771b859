import DsdNexus.Dsdiff.Handle

/-! # DSDIFF: parsing a file

`dsdiff_parse_frm8` runs over the chunks of the file, and within PROP and DIIN a loop of
its own runs over theirs. A turn of the parser is one turn of the loop it is in; turns
are taken until the outer loop ends, which they need not do.
-/

namespace DsdNexus.Dsdiff

open Program FileProgram

/-- A handle with its file. -/
structure OpenHandle where
  handle : Handle
  io : ByteFile
deriving DecidableEq

/-- What is done with an open handle. An error leaves the handle as far as it got. -/
abbrev Dsd := Program Error OpenHandle

def liftIo {α : Type} (m : Io α) : Dsd α := zoom OpenHandle.io (fun io s => { s with io := io }) m

def update (f : Handle → Handle) : Dsd Unit := modify fun s => { s with handle := f s.handle }

/-- What comes of `dsdiff_parse_frm8`. -/
abbrev Outcome := Except Error Unit × OpenHandle

/-- What `dsdiff_parse_frm8` counts of the chunks, and where its loop stops. -/
structure Frm8 where
  chunkSize : Nat
  fverCount : Nat := 0
  propCount : Nat := 0
  dsdCount : Nat := 0
  dstCount : Nat := 0
  comtCount : Nat := 0
  diinCount : Nat := 0
  frm8Count : Nat := 0
  id3Count : Nat := 0
deriving DecidableEq

/-- The same for `dsdiff_parse_prop`. -/
structure PropLoop where
  endPos : Nat
  fsCount : Nat := 0
  chnlCount : Nat := 0
  cmprCount : Nat := 0
  abssCount : Nat := 0
  lscoCount : Nat := 0
deriving DecidableEq

/-- The loop the parser is in, within that of FRM8. -/
inductive Inner where
  | prop (l : PropLoop)
  | diin (endPos : Nat)
deriving DecidableEq

structure Parse where
  env : OpenHandle
  frm8 : Frm8
  inner : Option Inner
deriving DecidableEq

/-! ## What is read of each chunk -/

def readFver : Dsd Unit := do
  update fun h => { h with formatVersion := 0 }
  let version ← liftIo chunkReadFver
  update fun h => { h with formatVersion := version }

/-- `dsdiff_chunk_read_snd_header`, into the handle. -/
def readSndHeader : Dsd Unit := do
  update fun h => { h with soundDataSize := 0, soundDataStartPos := 0, soundDataEndPos := 0 }
  let chunkSize ← liftIo ioReadUint64Be
  update fun h => { h with soundDataSize := chunkSize }
  let dataStartPos ← liftIo tell
  update fun h => { h with soundDataStartPos := dataStartPos }
  liftIo (ioSeekCur chunkSize)
  let dataStopPos ← liftIo tell
  update fun h => { h with soundDataEndPos := dataStopPos }
  liftIo (readPadOf chunkSize)

def readDsd : Dsd Unit := do
  readSndHeader
  update fun h => { h with sampleFrameCount := h.soundDataSize / h.channelCount.toNat }

/-- The next chunk has to be of the type. -/
def expectChunk (type : ChunkType) : Io Unit := fun io =>
  match chunkReadHeader io with
  | (.ok chunkId, io) => if chunkId = type then (.ok (), io) else (.error .invalidFile, io)
  | (.error _, io) => (.error .invalidFile, io)

/-- `dsdiff_chunk_read_frte`, into the handle. -/
def readFrte : Dsd Unit := do
  let chunkSize ← liftIo ioReadUint64Be
  require (chunkSize = 6) .invalidChunk
  let frameCount ← liftIo ioReadUint32Be
  update fun h => { h with dstFrameCount := frameCount }
  let frameRate ← liftIo ioReadUint16Be
  update fun h => { h with dstFrameRate := frameRate }

/-- The CRC chunk behind the first frame, where there is one. Its size is read, and then
`dsdiff_chunk_skip` reads another size. -/
def skipDstc : Dsd Unit := fun s =>
  match chunkReadHeader s.io with
  | (.ok .dstc, io) =>
    let h := { s.handle with hasCrc := true }
    match chunkGetDstcSize io with
    | (.ok dstcSize, io) =>
      liftIo chunkSkip ⟨{ h with crcSize := UInt32.ofNat dstcSize }, io⟩
    | (.error _, io) => (.ok (), ⟨h, io⟩)
  | (_, io) => (.ok (), ⟨s.handle, io⟩)

/-- `dsdiff_parse_dst`: of the frames only the first is passed over. -/
def parseDst : Dsd Unit := do
  let (_, startPos) ← liftIo chunkReadDstHeader
  update fun h => { h with soundDataStartPos := startPos + 22 }
  liftIo (expectChunk .frte)
  readFrte
  let s ← get
  if s.handle.dstFrameCount < 2 then
    pure ()
  else
    liftIo (expectChunk .dstf)
    liftIo chunkSkip
    skipDstc

def readDst : Dsd Unit := do
  parseDst
  let dstDataEnd ← liftIo tell
  update fun h => { h with dstDataEnd := dstDataEnd }

/-- `dsdiff_chunk_read_dsti_header`, into the handle. -/
def readDstiHeader : Dsd Unit := do
  update fun h => { h with indexFileSize := 0, indexFileStart := 0, indexFileEnd := 0 }
  let chunkSize ← liftIo ioReadUint64Be
  update fun h => { h with indexFileSize := chunkSize }
  let dataStartPos ← liftIo tell
  update fun h => { h with indexFileStart := dataStartPos }
  liftIo (ioSeekCur chunkSize)
  let dataStopPos ← liftIo tell
  update fun h => { h with indexFileEnd := dataStopPos }
  liftIo (readPadOf chunkSize)

def readDsti : Dsd Unit := do
  readDstiHeader
  let dstDataEnd ← liftIo tell
  update fun h => { h with dstDataEnd := dstDataEnd, hasIndex := true }

def readComt : Dsd Unit := do
  let pos ← liftIo tell
  update fun h => { h with commentChunkPos := pos - 4, commentCount := 0, comments := [] }
  let comments ← liftIo chunkReadComt
  update fun h => { h with commentCount := UInt16.ofNat comments.length, comments := comments }

/-- The first ID3 chunk is the tag of the file. -/
def readFileId3 : Dsd Unit := do
  let pos ← liftIo tell
  update fun h => { h with id3ChunkPos := pos - 4, id3Tag := [] }
  let tag ← liftIo chunkReadId3
  update fun h => { h with id3Tag := tag }

/-- The list, grown with empty tags where it is too short, with the tag at the index. -/
def putTrackTag (tags : List (List UInt8)) (index : Nat) (tag : List UInt8) : List (List UInt8) :=
  (tags ++ List.replicate (index + 1 - tags.length) []).set index tag

/-- Those behind it are the tags of the tracks. -/
def readTrackId3 (index : Nat) : Dsd Unit := do
  let tag ← liftIo chunkReadId3
  if tag = [] then
    pure ()
  else
    update fun h => { h with trackId3Tags := putTrackTag h.trackId3Tags index tag }

/-- `dsdiff_chunk_read_manf`, into the handle. -/
def readManf : Dsd Unit := do
  let pos ← liftIo tell
  update fun h => { h with
    manufacturerChunkPos := pos - 4, manufacturerData := [], manufacturerDataSize := 0 }
  let chunkSize ← liftIo ioReadUint64Be
  require (4 ≤ chunkSize) .invalidChunk
  let manId ← liftIo (ioReadBytes 4)
  update fun h => { h with manufacturerId := manId }
  let manDataSize := UInt32.ofNat (chunkSize - 4)
  liftIo (saMalloc manDataSize.toNat)
  let manData ← liftIo (ioReadBytes manDataSize.toNat)
  liftIo (readPadOf chunkSize)
  update fun h => { h with
    manufacturerData := manData, manufacturerDataSize := manDataSize, hasManufacturer := true }

def readFs : Dsd Unit := do
  update fun h => { h with sampleRate := 0 }
  let sampleRate ← liftIo chunkReadFs
  update fun h => { h with sampleRate := sampleRate }

def readChnl : Dsd Unit := do
  let pos ← liftIo tell
  update fun h => { h with channelChunkPos := pos - 4, channelCount := 0, channelIds := none }
  let (channelCount, channelIds) ← liftIo chunkReadChnl
  update fun h => { h with channelCount := channelCount, channelIds := some channelIds }

def readCmpr (nameLen : Nat) : Dsd Unit := do
  let compressionType ← liftIo (chunkReadCmpr nameLen 256)
  require (compressionType = .dsd ∨ compressionType = .dst) .unsupportedCompression
  update fun h => { h with isDstFormat := compressionType = .dst }

def readAbss : Dsd Unit := do
  let pos ← liftIo tell
  update fun h => { h with timecodeChunkPos := pos - 4 }
  let startTimecode ← liftIo chunkReadAbss
  update fun h => { h with startTimecode := startTimecode, hasTimecode := true }

def readLsco : Dsd Unit := do
  let pos ← liftIo tell
  update fun h => { h with loudspeakerChunkPos := pos - 4 }
  let loudspeakerConfig ← liftIo chunkReadLsco
  update fun h => { h with loudspeakerConfig := loudspeakerConfig, hasLoudspeakerConfig := true }

def readEmid : Dsd Unit := do
  update fun h => { h with emid := none }
  let emid ← liftIo chunkReadEmid
  update fun h => { h with emid := some emid, hasEmid := true }

def readDiar : Dsd Unit := do
  update fun h => { h with discArtist := none }
  let discArtist ← liftIo chunkReadDiar
  update fun h => { h with discArtist := some discArtist, hasDiscArtist := true }

def readDiti : Dsd Unit := do
  update fun h => { h with discTitle := none }
  let discTitle ← liftIo chunkReadDiti
  update fun h => { h with discTitle := some discTitle, hasDiscTitle := true }

/-- `dsdiff_marker_list_add`, which copies the time, the type and the text of a marker. -/
def markerListAdd (markers : List MarkerEntry) (marker : Marker) (sampleRate : UInt32) :
    List MarkerEntry :=
  markers ++ [⟨marker.time, marker.markType, cstring marker.markerText, sampleRate⟩]

def readMark : Dsd Unit := do
  let marker ← liftIo chunkReadMark
  update fun h => { h with markers := markerListAdd h.markers marker h.sampleRate }

/-! ## The loops -/

/-- The checks behind the loop of `dsdiff_parse_frm8`. -/
def Frm8.check (l : Frm8) (isDstFormat : Bool) : Except Error Unit :=
  if l.frm8Count ≠ 0 then .error .invalidFile
  else if l.fverCount ≠ 1 then .error .invalidFile
  else if 1 < l.propCount ∨ 1 < l.comtCount ∨ 1 < l.diinCount then .error .invalidFile
  else if isDstFormat then
    if l.dstCount ≠ 1 ∨ l.dsdCount ≠ 0 then .error .invalidFile else .ok ()
  else
    if l.dsdCount ≠ 1 ∨ l.dstCount ≠ 0 then .error .invalidFile else .ok ()

/-- The outer loop goes on after a success; an error ends it, and is lost. -/
def Parse.resume (s : Parse) : Except Error Unit → Parse ⊕ Outcome
  | .ok () => .inl s
  | .error _ => .inr (s.frm8.check s.env.handle.isDstFormat, s.env)

/-- A chunk of the outer loop is read and counted. -/
def Parse.call (s : Parse) (m : Dsd Unit) (count : Frm8 → Frm8) : Parse ⊕ Outcome :=
  { s with env := (m s.env).2, frm8 := count s.frm8 }.resume (m s.env).1

/-- `dsdiff_parse_prop` returns to the outer loop. -/
def Parse.leaveProp (s : Parse) (ret : Except Error Unit) : Parse ⊕ Outcome :=
  { s with inner := none, frm8 := { s.frm8 with propCount := s.frm8.propCount + 1 } }.resume ret

/-- `dsdiff_parse_diin` returns. -/
def Parse.leaveDiin (s : Parse) (ret : Except Error Unit) : Parse ⊕ Outcome :=
  { s with inner := none, frm8 := { s.frm8 with diinCount := s.frm8.diinCount + 1 } }.resume ret

/-- A chunk within PROP is read. -/
def Parse.propCall (s : Parse) (l : PropLoop) (m : Dsd Unit) : Parse ⊕ Outcome :=
  match m s.env with
  | (.ok (), env) => .inl { s with env := env, inner := some (.prop l) }
  | (.error e, env) => { s with env := env }.leaveProp (.error e)

/-- A chunk within DIIN is read. -/
def Parse.diinCall (s : Parse) (m : Dsd Unit) : Parse ⊕ Outcome :=
  match m s.env with
  | (.ok (), env) => .inl { s with env := env }
  | (.error e, env) => { s with env := env }.leaveDiin (.error e)

/-- Where the loop over PROP is left because no chunk is there any more. -/
def PropLoop.check (l : PropLoop) : Except Error Unit :=
  if l.fsCount ≠ 1 ∨ l.chnlCount ≠ 1 ∨ l.cmprCount ≠ 1 then .error .invalidFile
  else if 1 < l.abssCount ∨ 1 < l.lscoCount then .error .invalidFile
  else .ok ()

/-- The `switch` of `dsdiff_parse_prop`, behind the id. -/
def propChunk (nameLen : Nat → Nat) (s : Parse) (l : PropLoop) : ChunkType → Parse ⊕ Outcome
  | .fs => s.propCall { l with fsCount := l.fsCount + 1 } readFs
  | .chnl => s.propCall { l with chnlCount := l.chnlCount + 1 } readChnl
  | .cmpr => s.propCall { l with cmprCount := l.cmprCount + 1 } (readCmpr (nameLen s.env.io.pos))
  | .abss => s.propCall { l with abssCount := l.abssCount + 1 } readAbss
  | .lsco => s.propCall { l with lscoCount := l.lscoCount + 1 } readLsco
  | _ => s.propCall l (liftIo chunkSkip)

/-- A turn of the loop of `dsdiff_parse_prop`. -/
def propTurn (nameLen : Nat → Nat) (s : Parse) (l : PropLoop) : Parse ⊕ Outcome :=
  if l.endPos ≤ s.env.io.pos then
    s.leaveProp (if s.env.io.pos = l.endPos then .ok () else .error .unexpectedEof)
  else
    match chunkReadHeader s.env.io with
    | (.error _, io) => { s with env := { s.env with io := io } }.leaveProp l.check
    | (.ok chunkId, io) => propChunk nameLen { s with env := { s.env with io := io } } l chunkId

/-- The `switch` of `dsdiff_parse_diin`, behind the id. -/
def diinChunk (s : Parse) : ChunkType → Parse ⊕ Outcome
  | .emid => s.diinCall readEmid
  | .diar => s.diinCall readDiar
  | .diti => s.diinCall readDiti
  | .mark => s.diinCall readMark
  | _ => s.diinCall (liftIo chunkSkip)

/-- A turn of the loop of `dsdiff_parse_diin`. -/
def diinTurn (s : Parse) (endPos : Nat) : Parse ⊕ Outcome :=
  if endPos ≤ s.env.io.pos then
    s.leaveDiin (if s.env.io.pos = endPos then .ok () else .error .unexpectedEof)
  else
    match chunkReadHeader s.env.io with
    | (.error _, io) => { s with env := { s.env with io := io } }.leaveDiin (.ok ())
    | (.ok chunkId, io) => diinChunk { s with env := { s.env with io := io } } chunkId

/-- The major version in a handle. -/
def majorVersion (h : Handle) : Nat := h.formatVersion.toNat / 2 ^ 24

/-- FVER: another major version ends the parse at once. -/
def fverChunk (s : Parse) : Parse ⊕ Outcome :=
  match readFver s.env with
  | (.ok (), env) =>
    if majorVersion env.handle ≠ 1 then .inr (.error .invalidVersion, env)
    else .inl { s with env := env, frm8 := { s.frm8 with fverCount := s.frm8.fverCount + 1 } }
  | (.error e, env) =>
    { s with env := env, frm8 := { s.frm8 with fverCount := s.frm8.fverCount + 1 } }.resume
      (.error e)

/-- PROP: its loop is entered behind its head. The bound is computed in 64 bits. -/
def propEnter (s : Parse) : Parse ⊕ Outcome :=
  match chunkReadPropHeader s.env.io with
  | (.ok chunkSize, io) =>
    .inl { s with
      env := ⟨{ s.env.handle with propChunkSize := chunkSize }, io⟩,
      inner := some (.prop { endPos := (io.pos + chunkSize + (2 ^ 64 - 4)) % 2 ^ 64 }) }
  | (.error e, io) => { s with env := { s.env with io := io } }.leaveProp (.error e)

/-- DIIN, likewise. -/
def diinEnter (s : Parse) : Parse ⊕ Outcome :=
  let h := { s.env.handle with diinChunkPos := s.env.io.pos - 4 }
  match chunkReadDiinHeader s.env.io with
  | (.ok chunkSize, io) =>
    .inl { s with env := ⟨h, io⟩, inner := some (.diin ((io.pos + chunkSize) % 2 ^ 64)) }
  | (.error e, io) => { s with env := ⟨h, io⟩ }.leaveDiin (.error e)

/-- The `switch` of `dsdiff_parse_frm8`, behind the id. -/
def frm8Chunk (s : Parse) : ChunkType → Parse ⊕ Outcome
  | .frm8 => s.call (pure ()) fun l => { l with frm8Count := l.frm8Count + 1 }
  | .fver => fverChunk s
  | .prop => propEnter s
  | .diin => diinEnter s
  | .dsd => s.call readDsd fun l => { l with dsdCount := l.dsdCount + 1 }
  | .dst => s.call readDst fun l => { l with dstCount := l.dstCount + 1 }
  | .dsti => s.call readDsti fun l => { l with dstCount := l.dstCount + 1 }
  | .comt => s.call readComt fun l => { l with comtCount := l.comtCount + 1 }
  | .id3 =>
    s.call (if s.frm8.id3Count = 0 then readFileId3 else readTrackId3 (s.frm8.id3Count - 1))
      fun l => { l with id3Count := l.id3Count + 1 }
  | .manf => s.call readManf id
  | _ => s.call (liftIo chunkSkip) id

/-- A turn of the loop of `dsdiff_parse_frm8`. -/
def frm8Turn (s : Parse) : Parse ⊕ Outcome :=
  if s.frm8.chunkSize < s.env.io.pos then
    .inr (s.frm8.check s.env.handle.isDstFormat, s.env)
  else
    match chunkReadHeader s.env.io with
    | (.error _, io) =>
      .inr (s.frm8.check s.env.handle.isDstFormat, { s.env with io := io })
    | (.ok chunkId, io) => frm8Chunk { s with env := { s.env with io := io } } chunkId

/-- A turn of the loop the parser is in. -/
def parseTurn (nameLen : Nat → Nat) (s : Parse) : Parse ⊕ Outcome :=
  match s.inner with
  | none => frm8Turn s
  | some (.prop l) => propTurn nameLen s l
  | some (.diin endPos) => diinTurn s endPos

/-! ## Opening a file -/

/-- `dsdiff_parse_file` up to the loop: the size of FRM8. -/
def parseHead : Dsd Nat := do
  let chunkId ← liftIo chunkReadHeader
  require (chunkId = .frm8) .invalidFile
  let (chunkSize, fileType) ← liftIo chunkReadFrm8Header
  let s ← get
  require (chunkSize ≤ s.io.content.length) .invalidFile
  update fun h => { h with isDstFormat := fileType = .dst }
  pure chunkSize

/-- `dsdiff_parse_file` with at most so many turns, on a fresh handle in the mode. -/
def parseFile (nameLen : Nat → Nat) (fuel : Nat) (mode : FileMode) (content : List UInt8) :
    Option Outcome :=
  match parseHead ⟨{ new with mode := mode }, ⟨content, 0⟩⟩ with
  | (.ok chunkSize, env) =>
    Loop.iterate (parseTurn nameLen) fuel ⟨env, { chunkSize := chunkSize }, none⟩
  | (.error e, env) => some (.error e, env)

/-- `dsdiff_seek_dsd_start` in a file that is open for reading. -/
def seekDsdStart (h : Handle) : Io Unit :=
  if h.isDstFormat then ioSeekSet h.soundDataStartPos
  else ioSeekSet (min h.soundDataStartPos h.soundDataEndPos)

/-- `dsdiff_open`, on the bytes of the file. -/
def dsdiffOpen (nameLen : Nat → Nat) (fuel : Nat) (content : List UInt8) :
    Option (Except Error OpenHandle) :=
  (parseFile nameLen fuel .read content).map fun r =>
    match r.1 with
    | .error e => .error e
    | .ok () =>
      match seekDsdStart r.2.handle r.2.io with
      | (.ok (), io) => .ok { r.2 with io := io }
      | (.error e, _) => .error e

/-- `dsdiff_modify`: an open handle, or an error and the bytes of the file once the handle
was closed again. -/
def dsdiffModify (nameLen : Nat → Nat) (fuel : Nat) (content : List UInt8) :
    Option (OpenHandle ⊕ Error × List UInt8) :=
  (parseFile nameLen fuel .modify content).map fun r =>
    match r.1 with
    | .error e => .inr (e, ioClose .modify r.2.io)
    | .ok () =>
      match ioSeekSet (if r.2.handle.isDstFormat then r.2.handle.dstDataEnd
          else r.2.handle.soundDataEndPos) r.2.io with
      | (.ok (), io) => .inl { r.2 with io := io }
      | (.error e, io) => .inr (e, ioClose .modify io)

end DsdNexus.Dsdiff
