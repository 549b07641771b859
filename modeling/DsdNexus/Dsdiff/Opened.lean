import DsdNexus.Dsdiff.Turns

/-! # DSDIFF: an opened file

What holds of every handle `dsdiff_open` returns: the places it notes are places a file can
have, and the table of the DST index is not there yet.
-/

namespace DsdNexus.Dsdiff

open Program FileProgram

/-- What a parser that runs in a mode never changes of the handle. -/
structure Handle.Parsed (mode : FileMode) (h : Handle) : Prop where
  mode : h.mode = mode
  indexes : h.indexes = []
  reservedIndexCount : h.reservedIndexCount = 0

/-- A handle as the parser keeps it, with a file that stands within its range. -/
structure Parsed (mode : FileMode) (s : OpenHandle) : Prop where
  handle : s.handle.Parsed mode
  pos_le : s.io.content.length ≤ ByteFile.offMax → s.io.pos ≤ ByteFile.offMax
  end_le : s.io.content.length ≤ ByteFile.offMax →
    s.handle.soundDataEndPos ≤ ByteFile.offMax

/-- From one such handle to another. -/
def Onto (mode : FileMode) (s t : OpenHandle) : Prop := Parsed mode s → Parsed mode t

instance {mode : FileMode} : Std.Refl (Onto mode) := ⟨fun _ h => h⟩

instance {mode : FileMode} : IsTrans OpenHandle (Onto mode) := ⟨fun _ _ _ h h' hs => h' (h hs)⟩

/-- What the readers of the other chunks leave as it is. -/
def Handle.kept (h : Handle) : FileMode × List Index × UInt32 × Nat × Bool × UInt32 :=
  (h.mode, h.indexes, h.reservedIndexCount, h.soundDataEndPos, h.hasIndex, h.dstFrameCount)

/-- A relation that does not see what else is noted in the handle, nor how far a read goes. -/
class Noting (R : OpenHandle → OpenHandle → Prop) : Prop extends Std.Refl R,
    IsTrans OpenHandle R where
  liftIo : ∀ {α : Type} {m : Io α}, Keeps InRange m → Keeps R (liftIo m)
  update : ∀ {f : Handle → Handle}, (∀ h, (f h).kept = h.kept) → Keeps R (update f)

section Readers

variable {R : OpenHandle → OpenHandle → Prop} [Noting R] {α : Type}

theorem noting_noted {m : Io α} (h : Keeps InRange m) {f : Handle → Handle}
    {g : α → Handle → Handle} (hf : Keeps R (update f)) (hg : ∀ a, Keeps R (update (g a))) :
    Keeps R (do
      update f
      let a ← liftIo m
      update (g a)) :=
  hf.bind fun _ => (Noting.liftIo h).bind hg

theorem noting_tell : Keeps R (liftIo tell) := Noting.liftIo keeps_tell

theorem noting_readManf : Keeps R readManf :=
  noting_tell.bind fun _ => (Noting.update (by intro h; rfl)).bind fun _ =>
    (Noting.liftIo keeps_ioReadUint64Be).bind fun _ => (Keeps.require _ _).bind fun _ =>
      (Noting.liftIo (keeps_ioReadBytes 4)).bind fun _ =>
        (Noting.update (by intro h; rfl)).bind fun _ =>
          (Noting.liftIo (Keeps.require _ _)).bind fun _ =>
            (Noting.liftIo (keeps_ioReadBytes _)).bind fun _ =>
              (Noting.liftIo (keeps_readPadOf _)).bind fun _ =>
                Noting.update (by intro h; rfl)

instance : AsideParsing R where
  header := Noting.liftIo keeps_chunkReadHeader
  frm8Header := Noting.liftIo keeps_chunkReadFrm8Header
  format _ := Noting.update (by intro h; rfl)
  skip := Noting.liftIo keeps_chunkSkip
  fver := noting_noted keeps_chunkReadFver (Noting.update (by intro h; rfl))
    fun _ => Noting.update (by intro h; rfl)
  comt := noting_tell.bind fun _ => noting_noted keeps_chunkReadComt
    (Noting.update (by intro h; rfl)) fun _ => Noting.update (by intro h; rfl)
  fileId3 := noting_tell.bind fun _ => noting_noted keeps_chunkReadId3
    (Noting.update (by intro h; rfl)) fun _ => Noting.update (by intro h; rfl)
  trackId3 _ := (Noting.liftIo keeps_chunkReadId3).bind fun _ =>
    Keeps.ite (fun _ => Keeps.pure ()) fun _ => Noting.update (by intro h; rfl)
  manf := noting_readManf
  propHeader := Noting.liftIo keeps_chunkReadPropHeader
  propSize _ := Noting.update (by intro h; rfl)
  fs := noting_noted keeps_chunkReadFs (Noting.update (by intro h; rfl))
    fun _ => Noting.update (by intro h; rfl)
  chnl := noting_tell.bind fun _ => noting_noted keeps_chunkReadChnl
    (Noting.update (by intro h; rfl)) fun _ => Noting.update (by intro h; rfl)
  cmpr _ := (Noting.liftIo (keeps_chunkReadCmpr _ _)).bind fun _ =>
    (Keeps.require _ _).bind fun _ => Noting.update (by intro h; rfl)
  abss := noting_tell.bind fun _ => noting_noted keeps_chunkReadAbss
    (Noting.update (by intro h; rfl)) fun _ => Noting.update (by intro h; rfl)
  lsco := noting_tell.bind fun _ => noting_noted keeps_chunkReadLsco
    (Noting.update (by intro h; rfl)) fun _ => Noting.update (by intro h; rfl)
  diinHeader := Noting.liftIo keeps_ioReadUint64Be
  diinPos _ := Noting.update (by intro h; rfl)
  emid := noting_noted keeps_chunkReadEmid (Noting.update (by intro h; rfl))
    fun _ => Noting.update (by intro h; rfl)
  diar := noting_noted keeps_readCountedText (Noting.update (by intro h; rfl))
    fun _ => Noting.update (by intro h; rfl)
  diti := noting_noted keeps_readCountedText (Noting.update (by intro h; rfl))
    fun _ => Noting.update (by intro h; rfl)
  mark := (Noting.liftIo keeps_chunkReadMark).bind fun _ =>
    Noting.update (by intro h; rfl)

end Readers

/-! ## The sound data -/

section Sound

variable {mode : FileMode} {α : Type}

theorem Parsed.of_kept {s t : OpenHandle} (hs : Parsed mode s)
    (hparsed : t.handle.Parsed mode) (hend : t.handle.soundDataEndPos = s.handle.soundDataEndPos)
    (hio : InRange s.io t.io) : Parsed mode t := by
  obtain ⟨hcontent, hpos⟩ := hio
  exact ⟨hparsed, fun hlen => hpos (hcontent ▸ hlen) (hs.pos_le (hcontent ▸ hlen)),
    fun hlen => hend.trans_le (hs.end_le (hcontent ▸ hlen))⟩

/-- What an update of the DST fields leaves. -/
theorem onto_update {f : Handle → Handle} (hf : ∀ h : Handle, (f h).mode = h.mode ∧
    (f h).indexes = h.indexes ∧ (f h).reservedIndexCount = h.reservedIndexCount ∧
    (f h).soundDataEndPos = h.soundDataEndPos) : Keeps (Onto mode) (update f) := by
  intro s hs
  obtain ⟨hmode, hindexes, hreserved, hend⟩ := hf s.handle
  exact hs.of_kept ⟨hmode.trans hs.handle.mode, hindexes.trans hs.handle.indexes,
    hreserved.trans hs.handle.reservedIndexCount⟩ hend ⟨rfl, fun _ hpos => hpos⟩

instance : Noting (Onto mode) where
  liftIo h s hs := hs.of_kept hs.handle rfl (h s.io)
  update hf := onto_update fun h => by
    have hkept := hf h
    simp only [Handle.kept, Prod.mk.injEq] at hkept
    exact ⟨hkept.1, hkept.2.1, hkept.2.2.1, hkept.2.2.2.1⟩

/-- The end of the sound data is where the file stands. -/
theorem onto_soundDataEndPos : Keeps (Onto mode) (do
    let dataStopPos ← liftIo tell
    update fun h => { h with soundDataEndPos := dataStopPos }) :=
  fun _ hs => ⟨⟨hs.handle.mode, hs.handle.indexes, hs.handle.reservedIndexCount⟩, hs.pos_le,
    hs.pos_le⟩

theorem onto_readSndHeader : Keeps (Onto mode) readSndHeader := by
  have hzero : Keeps (Onto mode) (update fun h => { h with
      soundDataSize := 0, soundDataStartPos := 0, soundDataEndPos := 0 }) := fun _ hs =>
    ⟨⟨hs.handle.mode, hs.handle.indexes, hs.handle.reservedIndexCount⟩, hs.pos_le,
      fun _ => Nat.zero_le _⟩
  refine hzero.bind fun _ => (Noting.liftIo keeps_ioReadUint64Be).bind fun _ =>
    (Noting.update (by intro h; rfl)).bind fun _ => noting_tell.bind fun _ =>
      (Noting.update (by intro h; rfl)).bind fun _ =>
        (Noting.liftIo (keeps_seekBy _ _)).bind fun _ => ?_
  exact onto_soundDataEndPos.bind fun _ => Noting.liftIo (keeps_readPadOf _)

theorem onto_readFrte : Keeps (Onto mode) readFrte :=
  (Noting.liftIo keeps_ioReadUint64Be).bind fun _ => (Keeps.require _ _).bind fun _ =>
    (Noting.liftIo keeps_ioReadUint32Be).bind fun _ =>
      (onto_update (by intro h; exact ⟨rfl, rfl, rfl, rfl⟩)).bind fun _ =>
        (Noting.liftIo keeps_ioReadUint16Be).bind fun _ =>
          Noting.update (by intro h; rfl)

/-- What `skipDstc` notes is none of what a relation sees. -/
theorem skipDstc_handle (s : OpenHandle) :
    ∃ hasCrc crcSize, (skipDstc s).2.handle = { s.handle with hasCrc, crcSize } := by
  unfold skipDstc
  split
  · dsimp only
    split
    · exact ⟨true, _, rfl⟩
    · exact ⟨true, s.handle.crcSize, rfl⟩
  · exact ⟨s.handle.hasCrc, s.handle.crcSize, rfl⟩

theorem onto_skipDstc : Keeps (Onto mode) skipDstc := by
  intro s hs
  obtain ⟨hasCrc, crcSize, hhandle⟩ := skipDstc_handle s
  refine hs.of_kept ?_ ?_ (keeps_skipDstc (R := InRange) s)
  · rw [hhandle]
    exact ⟨hs.handle.mode, hs.handle.indexes, hs.handle.reservedIndexCount⟩
  · rw [hhandle]

theorem onto_parseDst : Keeps (Onto mode) parseDst :=
  (Noting.liftIo keeps_chunkReadDstHeader).bind fun _ =>
    (Noting.update (by intro h; rfl)).bind fun _ =>
      (Noting.liftIo (keeps_expectChunk _)).bind fun _ => onto_readFrte.bind fun _ =>
        Keeps.get.bind fun _ => Keeps.ite (fun _ => Keeps.pure ()) fun _ =>
          (Noting.liftIo (keeps_expectChunk _)).bind fun _ =>
            (Noting.liftIo keeps_chunkSkip).bind fun _ => onto_skipDstc

theorem onto_readDstiHeader : Keeps (Onto mode) readDstiHeader :=
  (Noting.update (by intro h; rfl)).bind fun _ =>
    (Noting.liftIo keeps_ioReadUint64Be).bind fun _ =>
      (Noting.update (by intro h; rfl)).bind fun _ => noting_tell.bind fun _ =>
        (Noting.update (by intro h; rfl)).bind fun _ =>
          (Noting.liftIo (keeps_seekBy _ _)).bind fun _ => noting_tell.bind fun _ =>
            (Noting.update (by intro h; rfl)).bind fun _ =>
              Noting.liftIo (keeps_readPadOf _)

instance : Parsing (Onto mode) where
  dsd := onto_readSndHeader.bind fun _ => Noting.update (by intro h; rfl)
  dst := onto_parseDst.bind fun _ => noting_tell.bind fun _ =>
    Noting.update (by intro h; rfl)
  dsti := onto_readDstiHeader.bind fun _ => noting_tell.bind fun _ =>
    onto_update (by intro h; exact ⟨rfl, rfl, rfl, rfl⟩)

end Sound

/-! ## Opening -/

section Opening

variable {nameLen : Nat → Nat} {fuel : Nat} {content : List UInt8}

theorem parseFile_parsed {mode : FileMode} {r : Outcome}
    (h : parseFile nameLen fuel mode content = some r) : Parsed mode r.2 :=
  parseFile_keeps (R := Onto mode) h
    ⟨⟨rfl, rfl, rfl⟩, fun _ => Nat.zero_le _, fun _ => Nat.zero_le _⟩

/-- What `dsdiff_open` returns: the parse went through, and the file stands at the start of
the sound data. -/
theorem dsdiffOpen_eq_ok {s : OpenHandle} (h : dsdiffOpen nameLen fuel content = some (.ok s)) :
    ∃ env, parseFile nameLen fuel .read content = some (.ok (), env) ∧
      seekDsdStart env.handle env.io = (.ok (), s.io) ∧ s.handle = env.handle := by
  obtain ⟨⟨ret, env⟩, hparse, hret⟩ := Option.map_eq_some_iff.1 h
  cases ret with
  | error e => cases hret
  | ok u =>
    dsimp only at hret
    split at hret
    · next io hseek =>
      cases hret
      exact ⟨env, hparse, hseek, rfl⟩
    · cases hret

theorem dsdiffOpen_parsed {s : OpenHandle} (h : dsdiffOpen nameLen fuel content = some (.ok s)) :
    Parsed .read s ∧ s.io.content = content := by
  obtain ⟨env, hparse, hseek, hhandle⟩ := dsdiffOpen_eq_ok h
  have hparsed := parseFile_parsed hparse
  have hbytes : env.io.content = content := parseFile_keeps (R := OfIo SameBytes) hparse
  have hrange : InRange env.io s.io := by
    have hkeeps : Keeps InRange (seekDsdStart env.handle) :=
      Keeps.ite (fun _ => keeps_ioSeekSet _) fun _ => keeps_ioSeekSet _
    have hseeks := hkeeps env.io
    rwa [hseek] at hseeks
  refine ⟨⟨hhandle ▸ hparsed.handle, fun hlen => ?_, fun hlen => ?_⟩, hrange.1.trans hbytes⟩
  · rw [hrange.1] at hlen
    exact hrange.2 hlen (hparsed.pos_le hlen)
  · rw [hrange.1] at hlen
    rw [hhandle]
    exact hparsed.end_le hlen

/-- An opened file that passes a check. -/
theorem dsdiffOpen_of_check (check : OpenHandle → Bool)
    (h : (dsdiffOpen nameLen fuel content).any (fun r => r.toOption.any check) = true) :
    ∃ s, dsdiffOpen nameLen fuel content = some (.ok s) ∧ check s = true := by
  rcases hopen : dsdiffOpen nameLen fuel content with _ | e | s
  · rw [hopen] at h
    cases h
  · rw [hopen] at h
    cases h
  · rw [hopen] at h
    exact ⟨s, rfl, h⟩

end Opening

end DsdNexus.Dsdiff
