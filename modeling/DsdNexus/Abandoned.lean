import DsdNexus.Dsdiff.Turns
import DsdNexus.Dsf.Opened

/-! # A modify that is refused or abandoned

Parsing reads and seeks, and leaves the bytes of the file alone. Closing a file that was
opened for modification cuts it off where the parser stopped, so the file is left alone
exactly where that is its end.
-/

namespace DsdNexus.Dsdiff

open Program FileProgram

/-- What `dsdiff_parse_file` leaves behind has the bytes of the file. -/
theorem parseFile_content {nameLen : Nat → Nat} {fuel : Nat} {mode : FileMode}
    {content : List UInt8} {r : Outcome} (h : parseFile nameLen fuel mode content = some r) :
    r.2.io.content = content :=
  parseFile_keeps (R := OfIo SameBytes) h

end DsdNexus.Dsdiff

namespace DsdNexus

open FileProgram Endian

/-! ## Closing again -/

/-- The file behind `dsdiff_modify` and, where that succeeded, `dsdiff_close`. -/
def Dsdiff.afterModify (nameLen : Nat → Nat) (fuel : Nat) (content : List UInt8) :
    Option (List UInt8) :=
  (dsdiffModify nameLen fuel content).map fun r =>
    match r with
    | .inl s => ioClose .modify s.io
    | .inr (_, bytes) => bytes

/-- The file behind `dsf_open_modify` and, where that succeeded, `dsf_close`. -/
def Dsf.afterOpenModify (content : List UInt8) : List UInt8 :=
  match dsfOpenModify content with
  | .inl s => dsfClose s
  | .inr (_, bytes) => bytes

/-- Where a parsed file stands when it is closed: at the end of the sound data, or where
the parser stopped. -/
def Dsdiff.Outcome.stop (r : Dsdiff.Outcome) : Nat :=
  match r.1 with
  | .error _ => r.2.io.pos
  | .ok () =>
    (ByteFile.target (int64 (if r.2.handle.isDstFormat then r.2.handle.dstDataEnd
      else r.2.handle.soundDataEndPos)) 0).getD r.2.io.pos

theorem Dsdiff.afterModify_eq {nameLen : Nat → Nat} {fuel : Nat} {content : List UInt8}
    {r : Outcome} (h : parseFile nameLen fuel .modify content = some r) :
    afterModify nameLen fuel content = some (ByteFile.mk content r.stop).truncate := by
  have hcontent := parseFile_content h
  obtain ⟨ret, ⟨handle, io⟩⟩ := r
  obtain ⟨bytes, pos⟩ := io
  cases hcontent
  simp only [afterModify, dsdiffModify, h, Option.map_some]
  cases ret with
  | error e => rfl
  | ok u =>
    simp only [Outcome.stop, ioSeekSet, seek]
    cases ByteFile.target (int64 (if handle.isDstFormat then handle.dstDataEnd
        else handle.soundDataEndPos)) 0 with
    | none => rfl
    | some p => rfl

theorem Dsf.afterOpenModify_eq (content : List UInt8) :
    afterOpenModify content =
      (ByteFile.mk content (readFileStructure ⟨reset, ⟨content, 0⟩⟩).2.io.pos).truncate := by
  have hcontent : (readFileStructure ⟨reset, ⟨content, 0⟩⟩).2.io.content = content :=
    sameBytes_readFileStructure _
  unfold afterOpenModify dsfOpenModify
  generalize readFileStructure ⟨reset, ⟨content, 0⟩⟩ = r at hcontent
  obtain ⟨ret, ⟨handle, io⟩⟩ := r
  obtain ⟨bytes, pos⟩ := io
  cases hcontent
  cases ret with
  | error e => rfl
  | ok u => rfl

/-- A file of another kind. -/
def riffFile : List UInt8 := makeMarker 'R' 'I' 'F' 'F' ++ [4, 0, 0, 0]

/-- A DSF file of one channel with four bytes of audio and no metadata. -/
def shortDsfFile : List UInt8 :=
  Dsf.dsdChunkId ++ toLe 8 28 ++ toLe 8 96 ++ toLe 8 0 ++
    Dsf.fmtChunkId ++ toLe 8 52 ++ toLe 4 1 ++ toLe 4 0 ++ toLe 4 1 ++ toLe 4 1 ++
    toLe 4 2822400 ++ toLe 4 1 ++ toLe 8 32 ++ toLe 4 4096 ++ toLe 4 0 ++
    Dsf.dataChunkId ++ toLe 8 16 ++ [1, 2, 3, 4]

set_option maxRecDepth 1024

end DsdNexus
