import DsdNexus.Dsdiff.Terminates

/-! # DSDIFF: what a turn of the parser keeps

What every reader of a chunk keeps, a turn keeps whichever chunk it reads, and with it the
whole parse.
-/

namespace DsdNexus.Dsdiff

open Program FileProgram

/-- A relation that every reader of a chunk keeps, but for those of the sound data. -/
class AsideParsing (R : OpenHandle → OpenHandle → Prop) : Prop extends Std.Refl R,
    IsTrans OpenHandle R where
  header : Keeps R (liftIo chunkReadHeader)
  frm8Header : Keeps R (liftIo chunkReadFrm8Header)
  format : ∀ isDstFormat : Bool, Keeps R (update fun h => { h with isDstFormat := isDstFormat })
  skip : Keeps R (liftIo chunkSkip)
  fver : Keeps R readFver
  comt : Keeps R readComt
  fileId3 : Keeps R readFileId3
  trackId3 : ∀ index, Keeps R (readTrackId3 index)
  manf : Keeps R readManf
  propHeader : Keeps R (liftIo chunkReadPropHeader)
  propSize : ∀ size : Nat, Keeps R (update fun h => { h with propChunkSize := size })
  fs : Keeps R readFs
  chnl : Keeps R readChnl
  cmpr : ∀ nameLen, Keeps R (readCmpr nameLen)
  abss : Keeps R readAbss
  lsco : Keeps R readLsco
  diinHeader : Keeps R (liftIo chunkReadDiinHeader)
  diinPos : ∀ pos : Nat, Keeps R (update fun h => { h with diinChunkPos := pos })
  emid : Keeps R readEmid
  diar : Keeps R readDiar
  diti : Keeps R readDiti
  mark : Keeps R readMark

/-- A relation that those keep as well. -/
class Parsing (R : OpenHandle → OpenHandle → Prop) : Prop extends AsideParsing R where
  dsd : Keeps R readDsd
  dst : Keeps R readDst
  dsti : Keeps R readDsti

instance {R : ByteFile → ByteFile → Prop} [Seeking R] : Parsing (OfIo R) where
  header := Keeps.liftIo keeps_chunkReadHeader
  frm8Header := Keeps.liftIo keeps_chunkReadFrm8Header
  format _ := keeps_update _
  skip := Keeps.liftIo keeps_chunkSkip
  fver := keeps_readFver
  dsd := keeps_readDsd
  dst := keeps_readDst
  dsti := keeps_readDsti
  comt := keeps_readComt
  fileId3 := keeps_readFileId3
  trackId3 := keeps_readTrackId3
  manf := keeps_readManf
  propHeader := Keeps.liftIo keeps_chunkReadPropHeader
  propSize _ := keeps_update _
  fs := keeps_readFs
  chnl := keeps_readChnl
  cmpr := keeps_readCmpr
  abss := keeps_readAbss
  lsco := keeps_readLsco
  diinHeader := Keeps.liftIo keeps_ioReadUint64Be
  diinPos _ := keeps_update _
  emid := keeps_readEmid
  diar := keeps_readDiar
  diti := keeps_readDiti
  mark := keeps_readMark

/-! ## What a turn leaves behind -/

/-- The handle and the file as a turn leaves them, whatever comes of the turn. -/
def envOf : Parse ⊕ Outcome → OpenHandle
  | .inl t => t.env
  | .inr r => r.2

/-- Whatever comes of a turn, what holds then of the counts and of the handle with its file;
an end without an error has passed the checks. -/
def Ends (P : Frm8 → OpenHandle → Prop) : Parse ⊕ Outcome → Prop
  | .inl t => P t.frm8 t.env
  | .inr r => ∃ l, P l r.2 ∧ (r.1 = .ok () → l.check r.2.handle.isDstFormat = .ok ())

theorem ends_resume {P : Frm8 → OpenHandle → Prop} {s : Parse} (h : P s.frm8 s.env)
    (ret : Except Error Unit) : Ends P (s.resume ret) := by
  cases ret with
  | ok _ => exact h
  | error _ => exact ⟨s.frm8, h, id⟩

section Turns

variable {R : OpenHandle → OpenHandle → Prop}

theorem header_keeps [AsideParsing R] (s : OpenHandle) :
    R s { s with io := (chunkReadHeader s.io).2 } := AsideParsing.header s

variable {P : Frm8 → OpenHandle → Prop}

/-- What the readers of the other chunks leave alone: it depends on the handle as far as they
keep it, and on the counts of the sound data. -/
structure Aside (R : OpenHandle → OpenHandle → Prop) (P : Frm8 → OpenHandle → Prop) : Prop where
  next : ∀ {l l' : Frm8} {s t : OpenHandle}, P l s → R s t → l'.dsdCount = l.dsdCount →
    l'.dstCount = l.dstCount → P l' t

section Calls

variable {s : Parse} {m : Dsd Unit}

theorem ends_call (haside : Aside R P) (hs : P s.frm8 s.env) (hm : Keeps R m)
    {count : Frm8 → Frm8} (hdsd : (count s.frm8).dsdCount = s.frm8.dsdCount)
    (hdst : (count s.frm8).dstCount = s.frm8.dstCount) : Ends P (s.call m count) := by
  refine ends_resume ?_ _
  exact haside.next hs (hm s.env) hdsd hdst

theorem ends_leaveProp (haside : Aside R P) [Std.Refl R] (hs : P s.frm8 s.env)
    (ret : Except Error Unit) : Ends P (s.leaveProp ret) := by
  refine ends_resume ?_ _
  exact haside.next hs (Std.Refl.refl _) rfl rfl

theorem ends_leaveDiin (haside : Aside R P) [Std.Refl R] (hs : P s.frm8 s.env)
    (ret : Except Error Unit) : Ends P (s.leaveDiin ret) := by
  refine ends_resume ?_ _
  exact haside.next hs (Std.Refl.refl _) rfl rfl

theorem ends_propCall (haside : Aside R P) [Std.Refl R] (hs : P s.frm8 s.env) (hm : Keeps R m)
    (l : PropLoop) : Ends P (s.propCall l m) := by
  have hnext : P s.frm8 (m s.env).2 := haside.next hs (hm s.env) rfl rfl
  unfold Parse.propCall
  generalize m s.env = read at hnext
  obtain ⟨e | _, env⟩ := read
  · exact ends_leaveProp haside hnext _
  · exact hnext

theorem ends_diinCall (haside : Aside R P) [Std.Refl R] (hs : P s.frm8 s.env)
    (hm : Keeps R m) : Ends P (s.diinCall m) := by
  have hnext : P s.frm8 (m s.env).2 := haside.next hs (hm s.env) rfl rfl
  unfold Parse.diinCall
  generalize m s.env = read at hnext
  obtain ⟨e | _, env⟩ := read
  · exact ends_leaveDiin haside hnext _
  · exact hnext

end Calls

variable [AsideParsing R]

theorem ends_fverChunk (haside : Aside R P) {s : Parse} (hs : P s.frm8 s.env) :
    Ends P (fverChunk s) := by
  have hread : P { s.frm8 with fverCount := s.frm8.fverCount + 1 } (readFver s.env).2 :=
    haside.next hs (AsideParsing.fver s.env) rfl rfl
  unfold fverChunk
  generalize readFver s.env = read at hread
  obtain ⟨e | _, env⟩ := read
  · exact ends_resume hread _
  · dsimp only
    split
    · exact ⟨_, hread, fun hok => by cases hok⟩
    · exact hread

theorem ends_propEnter (haside : Aside R P) {s : Parse} (hs : P s.frm8 s.env) :
    Ends P (propEnter s) := by
  have hread : P s.frm8 ⟨s.env.handle, (chunkReadPropHeader s.env.io).2⟩ :=
    haside.next hs (AsideParsing.propHeader s.env) rfl rfl
  unfold propEnter
  generalize chunkReadPropHeader s.env.io = read at hread
  obtain ⟨e | size, io⟩ := read
  · exact ends_leaveProp (s := { s with env := ⟨s.env.handle, io⟩ }) haside hread _
  · exact haside.next hread (AsideParsing.propSize size ⟨s.env.handle, io⟩) rfl rfl

theorem ends_diinEnter (haside : Aside R P) {s : Parse} (hs : P s.frm8 s.env) :
    Ends P (diinEnter s) := by
  obtain ⟨h, hh⟩ : ∃ h, { s.env.handle with diinChunkPos := s.env.io.pos - 4 } = h := ⟨_, rfl⟩
  have hpos : R s.env ⟨h, s.env.io⟩ := hh ▸ AsideParsing.diinPos (s.env.io.pos - 4) s.env
  have hread : P s.frm8 ⟨h, (chunkReadDiinHeader s.env.io).2⟩ :=
    haside.next (haside.next hs hpos rfl rfl) (AsideParsing.diinHeader ⟨h, s.env.io⟩) rfl rfl
  unfold diinEnter
  rw [hh]
  generalize chunkReadDiinHeader s.env.io = read at hread
  obtain ⟨e | size, io⟩ := read
  · exact ends_leaveDiin (s := { s with env := ⟨h, io⟩ }) haside hread _
  · exact hread

/-- A reader of sound data leaves the property behind, with its chunk counted. -/
structure OfSound (P : Frm8 → OpenHandle → Prop) : Prop where
  dsd : ∀ {l s}, P l s → P { l with dsdCount := l.dsdCount + 1 } (readDsd s).2
  dst : ∀ {l s}, P l s → P { l with dstCount := l.dstCount + 1 } (readDst s).2
  dsti : ∀ {l s}, P l s → P { l with dstCount := l.dstCount + 1 } (readDsti s).2

theorem ends_frm8Chunk (haside : Aside R P) (hsound : OfSound P) {s : Parse}
    (hs : P s.frm8 s.env) (type : ChunkType) : Ends P (frm8Chunk s type) := by
  unfold frm8Chunk
  split
  · exact ends_call haside hs (Keeps.pure ()) rfl rfl
  · exact ends_fverChunk haside hs
  · exact ends_propEnter haside hs
  · exact ends_diinEnter haside hs
  · exact ends_resume (hsound.dsd hs) _
  · exact ends_resume (hsound.dst hs) _
  · exact ends_resume (hsound.dsti hs) _
  · exact ends_call haside hs AsideParsing.comt rfl rfl
  · exact ends_call haside hs
      (Keeps.ite (fun _ => AsideParsing.fileId3) fun _ => AsideParsing.trackId3 _) rfl rfl
  · exact ends_call haside hs AsideParsing.manf rfl rfl
  · exact ends_call haside hs AsideParsing.skip rfl rfl

theorem ends_propChunk (haside : Aside R P) (nameLen : Nat → Nat) {s : Parse}
    (hs : P s.frm8 s.env) (l : PropLoop) (type : ChunkType) :
    Ends P (propChunk nameLen s l type) := by
  unfold propChunk
  split
  · exact ends_propCall haside hs AsideParsing.fs _
  · exact ends_propCall haside hs AsideParsing.chnl _
  · exact ends_propCall haside hs (AsideParsing.cmpr _) _
  · exact ends_propCall haside hs AsideParsing.abss _
  · exact ends_propCall haside hs AsideParsing.lsco _
  · exact ends_propCall haside hs AsideParsing.skip _

theorem ends_diinChunk (haside : Aside R P) {s : Parse} (hs : P s.frm8 s.env)
    (type : ChunkType) : Ends P (diinChunk s type) := by
  unfold diinChunk
  split
  · exact ends_diinCall haside hs AsideParsing.emid
  · exact ends_diinCall haside hs AsideParsing.diar
  · exact ends_diinCall haside hs AsideParsing.diti
  · exact ends_diinCall haside hs AsideParsing.mark
  · exact ends_diinCall haside hs AsideParsing.skip

/-- A turn keeps what the readers of the sound data keep and the others leave alone. -/
theorem ends_parseTurn (haside : Aside R P) (hsound : OfSound P) (nameLen : Nat → Nat)
    {s : Parse} (hs : P s.frm8 s.env) : Ends P (parseTurn nameLen s) := by
  have hheader : P s.frm8 { s.env with io := (chunkReadHeader s.env.io).2 } :=
    haside.next hs (header_keeps s.env) rfl rfl
  unfold parseTurn
  split
  · unfold frm8Turn
    generalize chunkReadHeader s.env.io = read at hheader
    split
    · exact ⟨s.frm8, hs, id⟩
    · obtain ⟨e | type, io⟩ := read
      · exact ⟨s.frm8, hheader, id⟩
      · exact ends_frm8Chunk haside hsound hheader type
  · unfold propTurn
    generalize chunkReadHeader s.env.io = read at hheader
    split
    · exact ends_leaveProp haside hs _
    · obtain ⟨e | type, io⟩ := read
      · exact ends_leaveProp haside hheader _
      · exact ends_propChunk haside nameLen hheader _ type
  · unfold diinTurn
    generalize chunkReadHeader s.env.io = read at hheader
    split
    · exact ends_leaveDiin haside hs _
    · obtain ⟨e | type, io⟩ := read
      · exact ends_leaveDiin haside hheader _
      · exact ends_diinChunk haside hheader type

theorem parseHead_keeps : Keeps R parseHead :=
  AsideParsing.header.bind fun _ => (Keeps.require _ _).bind fun _ =>
    AsideParsing.frm8Header.bind fun _ => Keeps.get.bind fun _ =>
      (Keeps.require _ _).bind fun _ => (AsideParsing.format _).bind fun _ => Keeps.pure _

/-- So does a parse that went through, whose counts have passed the checks. -/
theorem parseFile_ends (haside : Aside R P) (hsound : OfSound P) {nameLen : Nat → Nat}
    {fuel : Nat} {mode : FileMode} {content : List UInt8} {env : OpenHandle}
    (h : parseFile nameLen fuel mode content = some (.ok (), env))
    (hstart : ∀ chunkSize, P { chunkSize := chunkSize } ⟨{ new with mode := mode }, ⟨content, 0⟩⟩) :
    ∃ l, P l env ∧ l.check env.handle.isDstFormat = .ok () := by
  have hhead := parseHead_keeps (R := R) ⟨{ new with mode := mode }, ⟨content, 0⟩⟩
  unfold parseFile at h
  split at h
  · next chunkSize env₀ heq =>
    rw [heq] at hhead
    have hends : Ends P (.inr (.ok (), env)) := by
      refine Loop.Returns.of_invariant (I := fun s => P s.frm8 s.env)
        (Q := fun q => Ends P (.inr q)) (fun s t hs ht => ?_) (fun s q hs hq => ?_)
        (haside.next (hstart chunkSize) hhead rfl rfl) ⟨fuel, h⟩
      · have hturn := ends_parseTurn haside hsound nameLen hs
        rwa [ht] at hturn
      · have hturn := ends_parseTurn haside hsound nameLen hs
        rwa [hq] at hturn
    obtain ⟨l, hl, hcheck⟩ := hends
    exact ⟨l, hl, hcheck rfl⟩
  · cases h

end Turns

/-! ## What every reader keeps -/

section Keeps

variable {R : OpenHandle → OpenHandle → Prop} [Parsing R]

/-- A turn keeps what every reader keeps. -/
theorem parseTurn_keeps (nameLen : Nat → Nat) (s : Parse) :
    R s.env (envOf (parseTurn nameLen s)) := by
  have hends := ends_parseTurn (R := R) (P := fun _ t => R s.env t)
    ⟨fun hs ht _ _ => IsTrans.trans (r := R) _ _ _ hs ht⟩
    ⟨fun hs => IsTrans.trans (r := R) _ _ _ hs (Parsing.dsd _),
      fun hs => IsTrans.trans (r := R) _ _ _ hs (Parsing.dst _),
      fun hs => IsTrans.trans (r := R) _ _ _ hs (Parsing.dsti _)⟩ nameLen
    (Std.Refl.refl s.env)
  generalize parseTurn nameLen s = r at hends
  cases r with
  | inl t => exact hends
  | inr q => exact hends.choose_spec.1

/-- So does the whole parse. -/
theorem parseFile_keeps {nameLen : Nat → Nat} {fuel : Nat} {mode : FileMode}
    {content : List UInt8} {r : Outcome} (h : parseFile nameLen fuel mode content = some r) :
    R ⟨{ new with mode := mode }, ⟨content, 0⟩⟩ r.2 := by
  have hhead := parseHead_keeps (R := R) ⟨{ new with mode := mode }, ⟨content, 0⟩⟩
  unfold parseFile at h
  split at h
  · next chunkSize env heq =>
    rw [heq] at hhead
    refine Loop.Returns.of_invariant
      (I := fun s => R ⟨{ new with mode := mode }, ⟨content, 0⟩⟩ s.env)
      (Q := fun q => R ⟨{ new with mode := mode }, ⟨content, 0⟩⟩ q.2)
      (fun s t hs ht => ?_) (fun s q hs hq => ?_) hhead ⟨fuel, h⟩
    · have hturn := parseTurn_keeps (R := R) nameLen s
      rw [ht] at hturn
      exact IsTrans.trans (r := R) _ _ _ hs hturn
    · have hturn := parseTurn_keeps (R := R) nameLen s
      rw [hq] at hturn
      exact IsTrans.trans (r := R) _ _ _ hs hturn
  · next e env heq =>
    rw [heq] at hhead
    cases h
    exact hhead

end Keeps

end DsdNexus.Dsdiff
