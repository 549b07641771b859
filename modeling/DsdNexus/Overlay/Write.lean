import DsdNexus.Vfs.Namespace

/-! # Writing to a virtual file

Only the tag behind the audio of a virtual file can be written. The writes are staged
in a buffer of the handle, which starts out empty; a flush makes the buffer the overlay
of the track it reads from the stored path.
-/

namespace DsdNexus.Overlay

open Vfs

/-- `sacd_overlay_error_t`. -/
inductive OverlayStatus where
  | ok | invalidParameter | notFound | io | memory | access
  | notDir | isDir | tooManyOpen | notSacd | alreadyMounted
  deriving DecidableEq, Repr

/-- `SACD_OVERLAY_MAX_PATH`. -/
def overlayMaxPath : Nat := 1024

/-- `sacd_overlay_file_t` of a virtual file: what the open has resolved, and the staged
writes. -/
structure OverlayFile where
  writable : Bool
  vpath : Bytes
  area : VfsArea
  trackNum : UInt8
  metadataOffset : Nat
  id3WriteBuf : Bytes
  id3Dirty : Bool
  deriving DecidableEq, Repr

/-- The handle `sacd_overlay_open` makes of an open file in an ISO. -/
def OverlayFile.create (path : Bytes) (writable : Bool) (opened : OpenFile) : OverlayFile where
  writable := writable
  vpath := strlcpy path overlayMaxPath
  area := opened.area
  trackNum := opened.trackNum
  metadataOffset := opened.file.info.metadataOffset
  id3WriteBuf := []
  id3Dirty := false

/-- One call of `sacd_overlay_write`, and whether its `realloc` succeeds. The caller's
offset is a file offset of 64 bits with a sign, and so is the size of an object. -/
structure WriteRequest where
  offset : Nat
  data : Bytes
  alloc : Bool
  offset_lt : offset < 2 ^ 63
  length_lt : data.length < 2 ^ 63

/-- The buffer with `written` at an offset of the region. What `realloc` adds beyond the
zeros that fill the gap is written next. -/
def stage (buf : Bytes) (id3Offset : Nat) (written : Bytes) : Bytes :=
  let requiredSize := id3Offset + written.length
  let grown :=
    if buf.length < requiredSize then buf ++ List.replicate (id3Offset - buf.length) 0 else buf
  grown.take id3Offset ++ written ++ grown.drop requiredSize

/-- `sacd_overlay_write` on a virtual file. -/
def overlayWrite (file : OverlayFile) (r : WriteRequest) : OverlayStatus × OverlayFile :=
  let size := r.data.length
  let writeEnd := (r.offset + size) % 2 ^ 64
  if ¬ file.writable then (.access, file)
  else if writeEnd ≤ file.metadataOffset then (.ok, file)
  else
    let id3Start := if r.offset < file.metadataOffset then file.metadataOffset else r.offset
    let skipBytes := id3Start - r.offset
    let written := (r.data.drop skipBytes).take (size - skipBytes)
    let id3Offset := id3Start - file.metadataOffset
    if file.id3WriteBuf.length < id3Offset + written.length ∧ ¬ r.alloc then (.memory, file)
    else
      (.ok, { file with id3WriteBuf := stage file.id3WriteBuf id3Offset written, id3Dirty := true })

/-- A sequence of writes: those that are accepted, and the handle after them. -/
def writeAll (file : OverlayFile) : List WriteRequest → List WriteRequest × OverlayFile
  | [] => ([], file)
  | r :: rest =>
    let result := overlayWrite file r
    let after := writeAll result.2 rest
    (if result.1 = .ok then r :: after.1 else after.1, after.2)

/-- The area and the track a flush reads from the stored path; a name without a number
leaves the track 0. -/
def flushTarget (vpath : Bytes) : VfsArea × UInt8 :=
  (if strstr vpath (areaName .multichannel) then .multichannel else .stereo,
    (scanTrackNum (baseName vpath)).getD 0)

/-- `sacd_overlay_flush` on a virtual file; `alloc` is the copy of the tag, `steps` is
the save of the sidecar. -/
def overlayFlush (s : Id3State) (file : OverlayFile) (alloc : Bool) (steps : SaveSteps) :
    Id3State × OverlayFile :=
  if file.id3Dirty ∧ file.id3WriteBuf ≠ [] then
    let target := flushTarget file.vpath
    let set := setId3Overlay s.ctx target.1 target.2.toNat file.id3WriteBuf alloc
    let after :=
      if target.2 = 0 then s
      else if set.1 = .ok then (saveId3Overlay steps { s with ctx := set.2 }).2
      else { s with ctx := set.2 }
    (after, { file with id3Dirty := false })
  else (s, file)

/-- `sacd_overlay_close`, as far as the tags are concerned; the handle is gone. -/
def overlayClose (s : Id3State) (file : OverlayFile) (alloc : Bool) (steps : SaveSteps) :
    Id3State :=
  (overlayFlush s file alloc steps).1

/-- The two calls that end a sequence of writes. -/
inductive Ending where
  | flush | close
  deriving DecidableEq, Repr

def finish (s : Id3State) (file : OverlayFile) (alloc : Bool) (steps : SaveSteps) :
    Ending → Id3State
  | .flush => (overlayFlush s file alloc steps).1
  | .close => overlayClose s file alloc steps

end DsdNexus.Overlay
