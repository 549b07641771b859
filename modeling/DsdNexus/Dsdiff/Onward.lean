import DsdNexus.Dsdiff.Parse

/-! # DSDIFF: what reading keeps

What every read of bytes keeps, each reader of a chunk keeps, whatever the chunk holds and
wherever reading it stops: no reader changes the bytes of the file, and those that do not
seek never go back.
-/

namespace DsdNexus.Dsdiff

open Program FileProgram

/-- A relation that reading so many bytes keeps. -/
class Reading (R : ByteFile → ByteFile → Prop) : Prop extends Std.Refl R, IsTrans ByteFile R where
  readExact : ∀ (e : Error) (n : Nat), Keeps R (readExact e n)

/-- A relation that seeking keeps as well. -/
class Seeking (R : ByteFile → ByteFile → Prop) : Prop extends Reading R where
  seek : ∀ (e : Error) (offset : Int) (base : Nat), Keeps R (seek e offset base)

instance : Reading Onward := ⟨onward_readExact⟩

instance : Seeking SameBytes where
  readExact e n := Onward.sameBytes (onward_readExact e n)
  seek := sameBytes_seek

/-- The bytes are the same, and the position stays within the range of an offset. -/
def InRange (f g : ByteFile) : Prop :=
  g.content = f.content ∧ (f.content.length ≤ ByteFile.offMax → f.pos ≤ ByteFile.offMax →
    g.pos ≤ ByteFile.offMax)

instance : Std.Refl InRange := ⟨fun _ => ⟨rfl, fun _ h => h⟩⟩

instance : IsTrans ByteFile InRange :=
  ⟨fun _ _ _ h h' => ⟨h'.1.trans h.1, fun hlen hpos =>
    h'.2 (h.1 ▸ hlen) (h.2 hlen hpos)⟩⟩

theorem inRange_readExact (e : Error) (n : Nat) : Keeps InRange (readExact e n) := by
  intro f
  have hread : (readExact e n f).2 = (f.read n).2 := by
    unfold readExact
    split <;> rfl
  rw [hread]
  refine ⟨rfl, fun hlen hpos => ?_⟩
  have hlength := f.read_length n
  rw [f.read_pos n]
  omega

theorem inRange_seek (e : Error) (offset : Int) (base : Nat) :
    Keeps InRange (seek e offset base) := by
  intro f
  unfold FileProgram.seek ByteFile.target
  split
  · next p htarget =>
    split at htarget
    · next hrange =>
      cases htarget
      exact ⟨rfl, fun _ _ => by dsimp only; omega⟩
    · cases htarget
  · exact ⟨rfl, fun _ hpos => hpos⟩

instance : Seeking InRange where
  readExact := inRange_readExact
  seek := inRange_seek

variable {R : ByteFile → ByteFile → Prop}

theorem keeps_tell [Std.Refl R] : Keeps R (tell : Io Nat) := fun f => Std.Refl.refl f

theorem keeps_seekBy [Seeking R] (e : Error) (offset : Int) : Keeps R (seekBy e offset) :=
  fun f => Seeking.seek e offset f.pos f

section Readers

variable [Reading R]

/-! ## Numbers and strings -/

theorem keeps_ioReadBytes (n : Nat) : Keeps R (ioReadBytes n) :=
  Reading.readExact _ n

theorem keeps_ioReadUint8 : Keeps R ioReadUint8 :=
  (keeps_ioReadBytes 1).bind fun _ => Keeps.pure _

theorem keeps_ioReadUint16Be : Keeps R ioReadUint16Be :=
  (keeps_ioReadBytes 2).bind fun _ => Keeps.pure _

theorem keeps_ioReadUint32Be : Keeps R ioReadUint32Be :=
  (keeps_ioReadBytes 4).bind fun _ => Keeps.pure _

theorem keeps_ioReadUint64Be : Keeps R ioReadUint64Be :=
  (keeps_ioReadBytes 8).bind fun _ => Keeps.pure _

theorem keeps_readPadOf (size : Nat) : Keeps R (readPadOf size) :=
  Keeps.ite (fun _ => keeps_ioReadUint8.bind fun _ => Keeps.pure ()) fun _ => Keeps.pure ()

theorem keeps_ioReadPstring (length bufferSize : Nat) :
    Keeps R (ioReadPstring length bufferSize) :=
  keeps_ioReadUint8.bind fun _ => (Keeps.require _ _).bind fun _ =>
    (Keeps.require _ _).bind fun _ => (keeps_ioReadBytes _).bind fun _ =>
      (keeps_readPadOf _).bind fun _ => Keeps.pure _

theorem keeps_readText (numChars : UInt32) : Keeps R (readText numChars) :=
  (Keeps.require _ _).bind fun _ => (Keeps.require _ _).bind fun _ => keeps_ioReadBytes _

theorem keeps_readTextOf (numChars : UInt32) : Keeps R (readTextOf numChars) :=
  Keeps.ite (fun _ => keeps_readText numChars) fun _ => Keeps.pure []

/-! ## Chunks -/

theorem keeps_chunkReadHeader : Keeps R chunkReadHeader :=
  (keeps_ioReadBytes 4).bind fun _ => Keeps.pure _

theorem keeps_chunkReadFrm8Header : Keeps R chunkReadFrm8Header := by
  refine keeps_ioReadUint64Be.bind fun _ => keeps_chunkReadHeader.bind fun chunkType => ?_
  cases chunkType <;> first | exact Keeps.pure _ | exact Keeps.fail _

theorem keeps_chunkReadFver : Keeps R chunkReadFver :=
  keeps_ioReadUint64Be.bind fun _ => (Keeps.require _ _).bind fun _ => keeps_ioReadUint32Be

theorem keeps_chunkReadFs : Keeps R chunkReadFs := keeps_chunkReadFver

theorem keeps_chunkReadPropHeader : Keeps R chunkReadPropHeader :=
  keeps_ioReadUint64Be.bind fun _ => (keeps_ioReadBytes 4).bind fun _ =>
    (Keeps.require _ _).bind fun _ => Keeps.pure _

theorem keeps_readChannelIds (n : Nat) : Keeps R (readChannelIds n) := by
  induction n with
  | zero => exact Keeps.pure []
  | succ n ih => exact (keeps_ioReadBytes 4).bind fun _ => ih.bind fun _ => Keeps.pure _

theorem keeps_chunkReadChnl : Keeps R chunkReadChnl :=
  keeps_ioReadUint64Be.bind fun _ => keeps_ioReadUint16Be.bind fun _ =>
    (Keeps.require _ _).bind fun _ => (keeps_readChannelIds _).bind fun _ => Keeps.pure _

theorem keeps_chunkReadCmpr (nameLen nameBufferSize : Nat) :
    Keeps R (chunkReadCmpr nameLen nameBufferSize) :=
  keeps_ioReadUint64Be.bind fun _ => (keeps_ioReadBytes 4).bind fun _ =>
    (Keeps.require _ _).bind fun _ => (keeps_ioReadPstring _ _).bind fun _ => Keeps.pure _

theorem keeps_chunkReadAbss : Keeps R chunkReadAbss :=
  keeps_ioReadUint64Be.bind fun _ => (Keeps.require _ _).bind fun _ =>
    keeps_ioReadUint16Be.bind fun _ => keeps_ioReadUint8.bind fun _ =>
      keeps_ioReadUint8.bind fun _ => keeps_ioReadUint32Be.bind fun _ => Keeps.pure _

theorem keeps_chunkReadLsco : Keeps R chunkReadLsco :=
  keeps_ioReadUint64Be.bind fun _ => (Keeps.require _ _).bind fun _ => keeps_ioReadUint16Be

theorem keeps_chunkReadDstHeader : Keeps R chunkReadDstHeader :=
  keeps_ioReadUint64Be.bind fun _ => keeps_tell.bind fun _ => Keeps.pure _

theorem keeps_readComment : Keeps R readComment :=
  keeps_ioReadUint16Be.bind fun _ => keeps_ioReadUint8.bind fun _ =>
    keeps_ioReadUint8.bind fun _ => keeps_ioReadUint8.bind fun _ =>
      keeps_ioReadUint8.bind fun _ => keeps_ioReadUint16Be.bind fun _ =>
        keeps_ioReadUint16Be.bind fun _ => keeps_ioReadUint32Be.bind fun _ =>
          (keeps_readTextOf _).bind fun _ => (keeps_readPadOf _).bind fun _ => Keeps.pure _

theorem keeps_readComments (n : Nat) : Keeps R (readComments n) := by
  induction n with
  | zero => exact Keeps.pure []
  | succ n ih => exact keeps_readComment.bind fun _ => ih.bind fun _ => Keeps.pure _

theorem keeps_chunkReadComt : Keeps R chunkReadComt :=
  keeps_ioReadUint64Be.bind fun _ => keeps_ioReadUint16Be.bind fun _ => keeps_readComments _

theorem keeps_chunkReadEmid : Keeps R chunkReadEmid :=
  keeps_ioReadUint64Be.bind fun _ => (keeps_readText _).bind fun _ =>
    (keeps_readPadOf _).bind fun _ => Keeps.pure _

theorem keeps_readCountedText : Keeps R readCountedText :=
  keeps_ioReadUint64Be.bind fun _ => keeps_ioReadUint32Be.bind fun _ =>
    (keeps_readText _).bind fun _ => (keeps_readPadOf _).bind fun _ => Keeps.pure _

theorem keeps_chunkReadMark : Keeps R chunkReadMark :=
  keeps_ioReadUint64Be.bind fun _ => keeps_ioReadUint16Be.bind fun _ =>
    keeps_ioReadUint8.bind fun _ => keeps_ioReadUint8.bind fun _ =>
      keeps_ioReadUint32Be.bind fun _ => keeps_ioReadUint32Be.bind fun _ =>
        keeps_ioReadUint16Be.bind fun _ => keeps_ioReadUint16Be.bind fun _ =>
          keeps_ioReadUint16Be.bind fun _ => keeps_ioReadUint32Be.bind fun _ =>
            (Keeps.require _ _).bind fun _ => (keeps_readTextOf _).bind fun _ =>
              (keeps_readPadOf _).bind fun _ => Keeps.pure _

theorem keeps_chunkReadId3 : Keeps R chunkReadId3 :=
  keeps_ioReadUint64Be.bind fun _ => Keeps.ite (fun _ => Keeps.pure []) fun _ =>
    (Keeps.require _ _).bind fun _ => (keeps_ioReadBytes _).bind fun _ =>
      (keeps_readPadOf _).bind fun _ => Keeps.pure _

end Readers

theorem keeps_ioSeekSet [Seeking R] (offset : Nat) : Keeps R (ioSeekSet offset) :=
  Seeking.seek _ _ _

theorem keeps_chunkSkip [Seeking R] : Keeps R chunkSkip :=
  keeps_ioReadUint64Be.bind fun _ => (keeps_seekBy _ _).bind fun _ => keeps_readPadOf _

/-! ## The handle -/

/-- What a relation says of the files of two handles. -/
abbrev OfIo (R : ByteFile → ByteFile → Prop) : OpenHandle → OpenHandle → Prop :=
  Through OpenHandle.io R

theorem Keeps.liftIo {α : Type} {m : Io α} (h : Keeps R m) : Keeps (OfIo R) (liftIo m) :=
  Keeps.zoom (fun _ _ => rfl) h

theorem keeps_update [Std.Refl R] (f : Handle → Handle) : Keeps (OfIo R) (update f) :=
  Keeps.modify fun _ => rfl

/-- A reader of the handle: something is noted, something read, something noted. -/
theorem keeps_noted {α : Type} [Std.Refl R] [IsTrans ByteFile R] {m : Io α} (h : Keeps R m)
    (f : Handle → Handle) (g : α → Handle → Handle) :
    Keeps (OfIo R) (do
      update f
      let a ← liftIo m
      update (g a)) :=
  (keeps_update f).bind fun _ => (Keeps.liftIo h).bind fun _ => keeps_update _

section Noted

variable [Reading R]

theorem keeps_readFver : Keeps (OfIo R) readFver := keeps_noted keeps_chunkReadFver _ _

theorem keeps_readFs : Keeps (OfIo R) readFs := keeps_noted keeps_chunkReadFs _ _

theorem keeps_readEmid : Keeps (OfIo R) readEmid := keeps_noted keeps_chunkReadEmid _ _

theorem keeps_readDiar : Keeps (OfIo R) readDiar := keeps_noted keeps_readCountedText _ _

theorem keeps_readDiti : Keeps (OfIo R) readDiti := keeps_noted keeps_readCountedText _ _

theorem keeps_readMark : Keeps (OfIo R) readMark :=
  (Keeps.liftIo keeps_chunkReadMark).bind fun _ => keeps_update _

theorem keeps_readChnl : Keeps (OfIo R) readChnl :=
  (Keeps.liftIo keeps_tell).bind fun _ => keeps_noted keeps_chunkReadChnl _ _

theorem keeps_readAbss : Keeps (OfIo R) readAbss :=
  (Keeps.liftIo keeps_tell).bind fun _ => keeps_noted keeps_chunkReadAbss _ _

theorem keeps_readLsco : Keeps (OfIo R) readLsco :=
  (Keeps.liftIo keeps_tell).bind fun _ => keeps_noted keeps_chunkReadLsco _ _

theorem keeps_readCmpr (nameLen : Nat) : Keeps (OfIo R) (readCmpr nameLen) :=
  (Keeps.liftIo (keeps_chunkReadCmpr _ _)).bind fun _ => (Keeps.require _ _).bind fun _ =>
    keeps_update _

theorem keeps_readComt : Keeps (OfIo R) readComt :=
  (Keeps.liftIo keeps_tell).bind fun _ => keeps_noted keeps_chunkReadComt _ _

theorem keeps_readFileId3 : Keeps (OfIo R) readFileId3 :=
  (Keeps.liftIo keeps_tell).bind fun _ => keeps_noted keeps_chunkReadId3 _ _

theorem keeps_readTrackId3 (index : Nat) : Keeps (OfIo R) (readTrackId3 index) :=
  (Keeps.liftIo keeps_chunkReadId3).bind fun _ =>
    Keeps.ite (fun _ => Keeps.pure ()) fun _ => keeps_update _

theorem keeps_readManf : Keeps (OfIo R) readManf :=
  (Keeps.liftIo keeps_tell).bind fun _ => (keeps_update _).bind fun _ =>
    (Keeps.liftIo keeps_ioReadUint64Be).bind fun _ => (Keeps.require _ _).bind fun _ =>
      (Keeps.liftIo (keeps_ioReadBytes 4)).bind fun _ => (keeps_update _).bind fun _ =>
        (Keeps.liftIo (Keeps.require _ _)).bind fun _ =>
          (Keeps.liftIo (keeps_ioReadBytes _)).bind fun _ =>
            (Keeps.liftIo (keeps_readPadOf _)).bind fun _ => keeps_update _

theorem keeps_expectChunk (type : ChunkType) : Keeps R (expectChunk type) := by
  intro io
  have h := keeps_chunkReadHeader (R := R) io
  unfold expectChunk
  split
  · next heq =>
    rw [heq] at h
    split <;> exact h
  · next heq =>
    rw [heq] at h
    exact h

theorem keeps_readFrte : Keeps (OfIo R) readFrte :=
  (Keeps.liftIo keeps_ioReadUint64Be).bind fun _ => (Keeps.require _ _).bind fun _ =>
    (Keeps.liftIo keeps_ioReadUint32Be).bind fun _ => (keeps_update _).bind fun _ =>
      (Keeps.liftIo keeps_ioReadUint16Be).bind fun _ => keeps_update _

end Noted

/-! ## The readers that seek -/

section Seekers

variable [Seeking R]

theorem keeps_readSndHeader : Keeps (OfIo R) readSndHeader :=
  (keeps_update _).bind fun _ =>
    (Keeps.liftIo (keeps_ioReadUint64Be)).bind fun _ =>
      (keeps_update _).bind fun _ => (Keeps.liftIo (keeps_tell)).bind fun _ =>
        (keeps_update _).bind fun _ => (Keeps.liftIo (keeps_seekBy _ _)).bind fun _ =>
          (Keeps.liftIo (keeps_tell)).bind fun _ =>
            (keeps_update _).bind fun _ => Keeps.liftIo (keeps_readPadOf _)

theorem keeps_readDstiHeader : Keeps (OfIo R) readDstiHeader :=
  (keeps_update _).bind fun _ =>
    (Keeps.liftIo (keeps_ioReadUint64Be)).bind fun _ =>
      (keeps_update _).bind fun _ => (Keeps.liftIo (keeps_tell)).bind fun _ =>
        (keeps_update _).bind fun _ => (Keeps.liftIo (keeps_seekBy _ _)).bind fun _ =>
          (Keeps.liftIo (keeps_tell)).bind fun _ =>
            (keeps_update _).bind fun _ => Keeps.liftIo (keeps_readPadOf _)

theorem keeps_readDsd : Keeps (OfIo R) readDsd :=
  keeps_readSndHeader.bind fun _ => keeps_update _

theorem keeps_readDsti : Keeps (OfIo R) readDsti :=
  keeps_readDstiHeader.bind fun _ =>
    (Keeps.liftIo (keeps_tell)).bind fun _ => keeps_update _

theorem keeps_skipDstc : Keeps (OfIo R) skipDstc := by
  intro s
  have hheader : R s.io (chunkReadHeader s.io).2 := keeps_chunkReadHeader s.io
  unfold skipDstc
  split
  · next io heq =>
    rw [heq] at hheader
    have hsize : R io (chunkGetDstcSize io).2 := keeps_ioReadUint64Be io
    dsimp only
    split
    · next io' heq' =>
      rw [heq'] at hsize
      exact IsTrans.trans (r := R) _ _ _ hheader (IsTrans.trans (r := R) _ _ _ hsize
        (keeps_chunkSkip io'))
    · next io' heq' =>
      rw [heq'] at hsize
      exact IsTrans.trans (r := R) _ _ _ hheader hsize
  · next heq =>
    rw [heq] at hheader
    exact hheader

theorem keeps_parseDst : Keeps (OfIo R) parseDst :=
  (Keeps.liftIo (keeps_chunkReadDstHeader)).bind fun _ =>
    (keeps_update _).bind fun _ =>
      (Keeps.liftIo (keeps_expectChunk _)).bind fun _ =>
        (keeps_readFrte).bind fun _ => Keeps.get.bind fun _ =>
          Keeps.ite (fun _ => Keeps.pure ()) fun _ =>
            (Keeps.liftIo (keeps_expectChunk _)).bind fun _ =>
              (Keeps.liftIo keeps_chunkSkip).bind fun _ => keeps_skipDstc

theorem keeps_readDst : Keeps (OfIo R) readDst :=
  keeps_parseDst.bind fun _ =>
    (Keeps.liftIo (keeps_tell)).bind fun _ => keeps_update _

end Seekers

end DsdNexus.Dsdiff
