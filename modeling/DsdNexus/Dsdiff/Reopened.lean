import DsdNexus.Dsdiff.ParseBack

/-! # DSDIFF: a finalized file that is opened

The parser goes through the chunks of a file of DSD audio in the order in which they are
written, and comes to its end with what the handle of the writer held.
-/

namespace DsdNexus.Dsdiff

open Program FileProgram Endian Loop

section Head

variable {nameLen : Nat → Nat} {pos : Nat} {c : Contents} {l : Frm8} {q : PropLoop}

/-! ## The head -/

theorem passes_fver {version : UInt32} (hmajor : version.toNat / 2 ^ 24 = 1) :
    Passes nameLen pos (fverBytes version) ⟨c, l, none⟩
      ⟨{ c with version := version }, { l with fverCount := l.fverCount + 1 }, none⟩ := by
  intro h pre post hcontents hpre hle hmax
  obtain rfl : h.contents = c := hcontents
  rw [fverBytes_length] at hle hmax
  have hbytes : fverBytes version =
      ChunkType.fver.fourcc ++ (toBe 8 4 ++ toBe 4 version.toNat) := by
    rw [fverBytes, chunkHead, List.append_assoc]
  have hcode : (pre ++ ChunkType.fver.fourcc).length = pos + 4 := by
    rw [List.length_append, hpre, ChunkType.fourcc_length (by decide)]
  have hread := readFver_notes version h (pre ++ ChunkType.fver.fourcc) post
    (by rw [hcode]; simp only [List.length_append, toBe_length]; omega)
  have hturn : ¬ l.chunkSize < (between h pre (ChunkType.fver.fourcc ++
      ((toBe 8 4 ++ toBe 4 version.toNat) ++ post))).io.pos := by
    have hplace : pos + 16 ≤ l.chunkSize + 12 := hle
    show ¬ l.chunkSize < pre.length
    omega
  refine ⟨{ h with formatVersion := version }, rfl, ?_⟩
  rw [hbytes, List.append_assoc, ← List.append_assoc pre]
  refine Reaches.head ?_ .refl
  simp only [parseTurn, frm8Turn, if_neg hturn, header_between (show ChunkType.fver ≠ .unknown by
    decide), frm8Chunk, fverChunk]
  have henv : (⟨(between h pre (ChunkType.fver.fourcc ++
      ((toBe 8 4 ++ toBe 4 version.toNat) ++ post))).handle,
      (between h (pre ++ ChunkType.fver.fourcc)
        ((toBe 8 4 ++ toBe 4 version.toNat) ++ post)).io⟩ : OpenHandle) =
      between h (pre ++ ChunkType.fver.fourcc)
        ((toBe 8 4 ++ toBe 4 version.toNat) ++ post) := rfl
  rw [henv, hread]
  exact if_neg (not_not.2 hmajor)

theorem chunkReadPropHeader_reads {size : Nat} (h : size < 2 ^ 64) :
    Reads chunkReadPropHeader (toBe 8 size ++ (ChunkType.snd.fourcc ++ [])) size :=
  (ioReadUint64Be_reads h).bind ((ioReadChunkId_reads rfl).bind
    (Reads.check rfl (Reads.pure size)))

/-- PROP is entered, up to the end of so many bytes. -/
theorem passes_propEnter (n : Nat) (hn : pos + 16 + n ≤ ByteFile.offMax) :
    Passes nameLen pos (propHead (4 + n)) ⟨c, l, none⟩
      ⟨c, l, some (.prop { endPos := pos + 16 + n })⟩ := by
  intro h pre post hcontents hpre hle hmax
  have hlimit : ByteFile.offMax = 2 ^ 63 - 1 := rfl
  rw [propHead_length] at hle hmax
  have hbytes : propHead (4 + n) = ChunkType.prop.fourcc ++
      (toBe 8 (4 + n) ++ (ChunkType.snd.fourcc ++ [])) := by
    rw [propHead, chunkHead, List.append_assoc, List.append_nil]
  have hcode : (pre ++ ChunkType.prop.fourcc).length = pos + 4 := by
    rw [List.length_append, hpre, ChunkType.fourcc_length (by decide)]
  have hsize : 4 + n < 2 ^ 64 := by omega
  have hread := chunkReadPropHeader_reads hsize (pre ++ ChunkType.prop.fourcc) post
  have hturn : ¬ l.chunkSize < (between h pre (ChunkType.prop.fourcc ++
      ((toBe 8 (4 + n) ++ (ChunkType.snd.fourcc ++ [])) ++ post))).io.pos := by
    have hplace : pos + 16 ≤ l.chunkSize + 12 := hle
    show ¬ l.chunkSize < pre.length
    omega
  refine ⟨{ h with propChunkSize := 4 + n }, hcontents, ?_⟩
  rw [hbytes, List.append_assoc, ← List.append_assoc pre]
  refine Reaches.head ?_ .refl
  simp only [parseTurn, frm8Turn, if_neg hturn, header_between (show ChunkType.prop ≠ .unknown by
    decide), frm8Chunk, propEnter]
  have hio : (between h (pre ++ ChunkType.prop.fourcc)
      ((toBe 8 (4 + n) ++ (ChunkType.snd.fourcc ++ [])) ++ post)).io =
      ⟨(pre ++ ChunkType.prop.fourcc) ++
        ((toBe 8 (4 + n) ++ (ChunkType.snd.fourcc ++ [])) ++ post),
        (pre ++ ChunkType.prop.fourcc).length⟩ := rfl
  rw [hio, hread]
  have hend : (pos + 4 + (toBe 8 (4 + n) ++ (ChunkType.snd.fourcc ++ [])).length + (4 + n) +
      (2 ^ 64 - 4)) % 2 ^ 64 = pos + 16 + n := by
    have hlength : (toBe 8 (4 + n) ++ (ChunkType.snd.fourcc ++ [])).length = 12 := by
      rw [List.length_append, toBe_length]
      rfl
    rw [hlength]
    omega
  simp only [hcode, hend]
  rw [← hcode, between_behind]
  rfl

/-- It is left where its bytes end. -/
theorem passes_propLeave (hend : q.endPos = pos) :
    Passes nameLen pos [] ⟨c, l, some (.prop q)⟩
      ⟨c, { l with propCount := l.propCount + 1 }, none⟩ := by
  intro h pre post hcontents hpre hle hmax
  refine ⟨h, hcontents, Reaches.head ?_ .refl⟩
  rw [List.append_nil]
  have hturn : q.endPos ≤ (between h pre ([] ++ post)).io.pos := (hend.trans hpre.symm).le
  have hsame : (between h pre ([] ++ post)).io.pos = q.endPos := hpre.trans hend.symm
  simp only [parseTurn, propTurn, if_pos hturn, if_pos hsame]
  rfl

theorem passes_fs (sampleRate : UInt32) :
    Passes nameLen pos (fsChunk sampleRate) ⟨c, l, some (.prop q)⟩
      ⟨{ c with sampleRate := sampleRate }, l,
        some (.prop { q with fsCount := q.fsCount + 1 })⟩ :=
  (turning_propCall (by decide) fun _ _ => rfl).passes (readFs_notes sampleRate)
    (by rintro _ ⟨⟩; rfl)

theorem passes_chnl {ids : List ChannelId} (hsome : 1 ≤ ids.length) (hfew : ids.length ≤ 1000)
    (hids : ∀ id ∈ ids, IsChannel id) :
    Passes nameLen pos (storedChnl ids) ⟨c, l, some (.prop q)⟩
      ⟨{ c with channelCount := UInt16.ofNat ids.length, channelIds := some ids }, l,
        some (.prop { q with chnlCount := q.chnlCount + 1 })⟩ := by
  have hbytes : storedChnl ids = chunkHead .chnl (2 + (ids.map storedCharacters).length * 4) ++
      (toBe 2 (ids.map storedCharacters).length ++ (ids.map storedCharacters).flatten) := by
    rw [storedChnl, chnlBytes, chunkHead, List.append_assoc]
  rw [hbytes]
  exact (turning_propCall (by decide) fun _ _ => rfl).passes (readChnl_notes hsome hfew hids)
    (by rintro _ ⟨⟩; rfl)

theorem compressionName_short (type : AudioType) : (compressionName type).length ≤ 14 := by
  cases type <;> decide

/-- The name of the compression is admitted where the limit that is on the stack admits it. -/
theorem passes_cmpr {type : AudioType} (hknown : type ≠ .unknown)
    (hname : (compressionName type).length ≤ nameLen (pos + 4)) :
    Passes nameLen pos (cmprChunk type (compressionName type)) ⟨c, l, some (.prop q)⟩
      ⟨{ c with isDstFormat := type = .dst }, l,
        some (.prop { q with cmprCount := q.cmprCount + 1 })⟩ := by
  have hshort := compressionName_short type
  exact (turning_propCall (by decide) fun env henv => by rw [← henv]; rfl).passes
    (readCmpr_notes hknown (by omega) hname) (by rintro _ ⟨⟩; rfl)

theorem passes_timecode (timecode : Option Timecode) :
    Passes nameLen pos (timecode.elim [] abssChunk) ⟨c, l, some (.prop q)⟩
      ⟨{ c with timecode := timecode.or c.timecode }, l,
        some (.prop { q with abssCount := q.abssCount + timecode.toList.length })⟩ := by
  cases timecode with
  | none => exact Passes.refl _
  | some timecode =>
    exact (turning_propCall (by decide) fun _ _ => rfl).passes (readAbss_notes timecode)
      (by rintro _ ⟨⟩; rfl)

theorem passes_loudspeaker (config : Option UInt16) :
    Passes nameLen pos (config.elim [] lscoChunk) ⟨c, l, some (.prop q)⟩
      ⟨{ c with loudspeaker := config.or c.loudspeaker }, l,
        some (.prop { q with lscoCount := q.lscoCount + config.toList.length })⟩ := by
  cases config with
  | none => exact Passes.refl _
  | some config =>
    exact (turning_propCall (by decide) fun _ _ => rfl).passes (readLsco_notes config)
      (by rintro _ ⟨⟩; rfl)

/-- What the head of a file says. -/
structure Properties.Fine (p : Properties) : Prop where
  major : p.version.toNat / 2 ^ 24 = 1
  someChannels : 1 ≤ p.channelIds.length
  fewChannels : p.channelIds.length ≤ 1000
  channels : ∀ id ∈ p.channelIds, IsChannel id
  known : p.audioType ≠ .unknown

/-- What is noted of the head. -/
def Properties.noted (p : Properties) (c : Contents) : Contents :=
  { c with
    sampleRate := p.sampleRate
    channelCount := UInt16.ofNat p.channelIds.length
    channelIds := some p.channelIds
    isDstFormat := p.audioType = .dst
    timecode := p.timecode.or c.timecode
    loudspeaker := p.loudspeaker.or c.loudspeaker }

/-- The parser goes through the chunks of PROP one after another. -/
theorem passes_propChunks {p : Properties} (hp : p.Fine)
    (hname : ∀ pos, (compressionName p.audioType).length ≤ nameLen pos) :
    ∃ q', q'.endPos = q.endPos ∧ Passes nameLen pos p.prop ⟨c, l, some (.prop q)⟩
      ⟨p.noted c, l, some (.prop q')⟩ := by
  refine ⟨_, ?_, ((passes_fs p.sampleRate).append ((passes_chnl hp.someChannels hp.fewChannels
    hp.channels).append (passes_cmpr hp.known (hname _)) id) id).append
    ((passes_timecode p.timecode).append (passes_loudspeaker p.loudspeaker) id) id⟩
  rfl

theorem passes_prop {p : Properties} (hp : p.Fine)
    (hname : ∀ pos, (compressionName p.audioType).length ≤ nameLen pos)
    (hroom : pos + 16 + p.prop.length ≤ ByteFile.offMax) :
    Passes nameLen pos (propHead (4 + p.prop.length) ++ p.prop) ⟨c, l, none⟩
      ⟨p.noted c, { l with propCount := l.propCount + 1 }, none⟩ := by
  obtain ⟨q, hend, hchunks⟩ : ∃ q : PropLoop, q.endPos = pos + 16 + p.prop.length ∧
      Passes nameLen (pos + 16) p.prop
        ⟨c, l, some (.prop { endPos := pos + 16 + p.prop.length })⟩
        ⟨p.noted c, l, some (.prop q)⟩ :=
    passes_propChunks (q := { endPos := pos + 16 + p.prop.length }) hp hname
  have henter : Passes nameLen pos (propHead (4 + p.prop.length)) ⟨c, l, none⟩
      ⟨c, l, some (.prop { endPos := pos + 16 + p.prop.length })⟩ := passes_propEnter _ hroom
  have hplace : pos + 16 = pos + (propHead (4 + p.prop.length)).length := by rw [propHead_length]
  have hwithin : pos + (propHead (4 + p.prop.length)).length + p.prop.length ≤
      pos + 16 + p.prop.length := by rw [propHead_length]
  rw [hplace] at hchunks
  have hinside := henter.append hchunks fun _ => hwithin
  have hleave : Passes nameLen (pos + 16 + p.prop.length) [] ⟨p.noted c, l, some (.prop q)⟩
      ⟨p.noted c, { l with propCount := l.propCount + 1 }, none⟩ := passes_propLeave hend
  have hlength : pos + 16 + p.prop.length =
      pos + (propHead (4 + p.prop.length) ++ p.prop).length := by
    rw [List.length_append, propHead_length, Nat.add_assoc]
  rw [hlength] at hleave
  have hall := hinside.append hleave fun _ => (hend.trans hlength).ge
  rwa [List.append_nil] at hall

/-- The sound data are passed over, and where they stand is noted. -/
theorem passes_dsd (audio : Bytes) :
    Passes nameLen pos (chunkHead .dsd audio.length ++ (audio ++ padBytes audio.length))
      ⟨c, l, none⟩
      ⟨{ c with
          soundDataSize := audio.length
          soundDataStartPos := pos + 12
          soundDataEndPos := pos + 12 + audio.length
          sampleFrameCount := audio.length / c.channelCount.toNat },
        { l with dsdCount := l.dsdCount + 1 }, none⟩ :=
  (turning_call (by decide) (fun l => { l with dsdCount := l.dsdCount + 1 }) fun _ => rfl).passes
    (readDsd_notes audio) (by rintro _ ⟨⟩; rfl)

end Head

/-! ## The metadata -/

section Metadata

variable {nameLen : Nat → Nat} {pos endPos : Nat} {c : Contents} {l : Frm8}

theorem passes_emid {emid : Bytes} (h : Holdable emid) :
    Passes nameLen pos (emidChunk emid) ⟨c, l, some (.diin endPos)⟩
      ⟨{ c with emid := some emid }, l, some (.diin endPos)⟩ :=
  (turning_diinCall (by decide) fun _ => rfl).passes (readEmid_notes h) (by rintro _ ⟨⟩; rfl)

theorem passes_diar {text : Bytes} (h : Holdable text) :
    Passes nameLen pos (countedTextChunk .diar text) ⟨c, l, some (.diin endPos)⟩
      ⟨{ c with discArtist := some text }, l, some (.diin endPos)⟩ :=
  (turning_diinCall (by decide) fun _ => rfl).passes (readDiar_notes h _) (by rintro _ ⟨⟩; rfl)

theorem passes_diti {text : Bytes} (h : Holdable text) :
    Passes nameLen pos (countedTextChunk .diti text) ⟨c, l, some (.diin endPos)⟩
      ⟨{ c with discTitle := some text }, l, some (.diin endPos)⟩ :=
  (turning_diinCall (by decide) fun _ => rfl).passes (readDiti_notes h _) (by rintro _ ⟨⟩; rfl)

theorem cstring_cstring (bytes : Bytes) : cstring (cstring bytes) = cstring bytes :=
  cstring_of_not_mem fun hmem => by simpa using List.mem_takeWhile_imp hmem

/-- A marker of the list as it comes back: its rate is that of the file. -/
def MarkerEntry.stored (entry : MarkerEntry) (sampleRate : UInt32) : MarkerEntry :=
  { entry with markerText := cstring entry.markerText, sampleRate := sampleRate }

theorem passes_mark {entry : MarkerEntry} (h : Holdable (cstring entry.markerText)) :
    Passes nameLen pos (markChunk entry.marker) ⟨c, l, some (.diin endPos)⟩
      ⟨{ c with markers := c.markers ++ [entry.stored c.sampleRate] }, l,
        some (.diin endPos)⟩ := by
  have hread : Reads chunkReadMark _ entry.marker.stored := chunkReadMark_reads h
  refine (turning_diinCall (by decide) fun _ => rfl).passes
    (notes_of_reads hread fun marker h =>
      { h with markers := markerListAdd h.markers marker h.sampleRate }) ?_
  rintro h ⟨⟩
  have hentry : markerListAdd h.markers entry.marker.stored h.sampleRate =
      h.markers ++ [entry.stored h.sampleRate] := by
    show h.markers ++ [⟨entry.time, entry.markType, cstring (cstring entry.markerText), _⟩] = _
    rw [cstring_cstring]
    rfl
  exact congrArg (fun markers => { h.contents with markers := markers }) hentry

theorem passes_marks {entries : List MarkerEntry}
    (h : ∀ entry ∈ entries, Holdable (cstring entry.markerText)) :
    Passes nameLen pos (entries.flatMap fun entry => markChunk entry.marker)
      ⟨c, l, some (.diin endPos)⟩
      ⟨{ c with markers := c.markers ++ entries.map fun entry => entry.stored c.sampleRate }, l,
        some (.diin endPos)⟩ := by
  induction entries generalizing pos c with
  | nil =>
    rw [List.map_nil, List.append_nil]
    exact Passes.refl _
  | cons entry entries ih =>
    have hfirst : Passes nameLen pos (markChunk entry.marker) ⟨c, l, some (.diin endPos)⟩ _ :=
      passes_mark (h entry List.mem_cons_self)
    have hall := hfirst.append (ih fun e he => h e (List.mem_cons_of_mem entry he)) id
    rwa [List.append_assoc] at hall

/-- A text as it comes back. -/
def storedText (has : Bool) (text : Option Bytes) : Option Bytes :=
  if has then some (cstring (text.getD [])) else none

theorem passes_text {has : Bool} {text : Option Bytes} {chunk : Bytes → Bytes}
    {f : Option Bytes → Stage} {old : Option Bytes}
    (hchunk : ∀ text, Holdable text → Passes nameLen pos (chunk text) (f old) (f (some text)))
    (h : Holdable (cstring (text.getD []))) :
    Passes nameLen pos (textBytes has text chunk) (f old) (f ((storedText has text).or old)) := by
  cases has with
  | true => exact hchunk _ h
  | false => exact Passes.refl _

/-- The metadata of a handle fit the buffers of a reader. -/
structure Handle.Fits (h : Handle) : Prop where
  commentTexts : ∀ comment ∈ h.comments, Holdable (cstring comment.text)
  id3Tag : h.id3Tag.length ≤ maxAllocSize
  trackId3Tags : ∀ tag ∈ h.trackId3Tags, tag.length ≤ maxAllocSize
  manufacturerId : h.manufacturerId.length = 4
  manufacturerData : h.manufacturerData.length = h.manufacturerDataSize.toNat
  manufacturerRoom : h.manufacturerData.length ≤ maxAllocSize
  emid : Holdable (cstring (h.emid.getD []))
  discArtist : Holdable (cstring (h.discArtist.getD []))
  discTitle : Holdable (cstring (h.discTitle.getD []))
  markers : ∀ entry ∈ h.markers, Holdable (cstring entry.markerText)

/-- The same, with all its comments counted. -/
structure Handle.Storable (h : Handle) : Prop extends h.Fits where
  comments : h.comments.length = h.commentCount.toNat

/-- What is noted of DIIN. -/
def Handle.notedDiin (h : Handle) (c : Contents) : Contents :=
  { c with
    emid := (storedText h.hasEmid h.emid).or c.emid
    markers := c.markers ++ h.markers.map fun entry => entry.stored c.sampleRate
    discArtist := (storedText h.hasDiscArtist h.discArtist).or c.discArtist
    discTitle := (storedText h.hasDiscTitle h.discTitle).or c.discTitle }

theorem passes_diinContents {h : Handle} (hh : h.Storable) :
    Passes nameLen pos (diinContents h) ⟨c, l, some (.diin endPos)⟩
      ⟨h.notedDiin c, l, some (.diin endPos)⟩ :=
  (passes_text (f := fun text => ⟨{ c with emid := text }, l, some (.diin endPos)⟩)
    (fun _ => passes_emid) hh.emid).append
    ((passes_marks hh.markers).append
      ((passes_text (f := fun text => ⟨{ c with
          emid := (storedText h.hasEmid h.emid).or c.emid
          markers := c.markers ++ h.markers.map fun entry => entry.stored c.sampleRate
          discArtist := text }, l, some (.diin endPos)⟩) (fun _ => passes_diar)
          hh.discArtist).append
        (passes_text (f := fun text => ⟨{ c with
          emid := (storedText h.hasEmid h.emid).or c.emid
          markers := c.markers ++ h.markers.map fun entry => entry.stored c.sampleRate
          discArtist := (storedText h.hasDiscArtist h.discArtist).or c.discArtist
          discTitle := text }, l, some (.diin endPos)⟩) (fun _ => passes_diti) hh.discTitle) id)
      id) id

/-- DIIN is entered, up to the end of so many bytes. -/
theorem passes_diinEnter (n : Nat) (hn : pos + 12 + n ≤ ByteFile.offMax) :
    Passes nameLen pos (chunkHead .diin n) ⟨c, l, none⟩ ⟨c, l, some (.diin (pos + 12 + n))⟩ := by
  intro h pre post hcontents hpre hle hmax
  have hlimit : ByteFile.offMax = 2 ^ 63 - 1 := rfl
  rw [chunkHead_length (by decide)] at hle hmax
  have hcode : (pre ++ ChunkType.diin.fourcc).length = pos + 4 := by
    rw [List.length_append, hpre, ChunkType.fourcc_length (by decide)]
  have hsize : n < 2 ^ 64 := by omega
  have hread := ioReadUint64Be_reads hsize (pre ++ ChunkType.diin.fourcc) post
  have hturn : ¬ l.chunkSize < (between h pre (ChunkType.diin.fourcc ++
      (toBe 8 n ++ post))).io.pos := by
    have hplace : pos + 12 ≤ l.chunkSize + 12 := hle
    show ¬ l.chunkSize < pre.length
    omega
  refine ⟨{ h with diinChunkPos := pos + 4 - 4 }, hcontents, ?_⟩
  rw [chunkHead, List.append_assoc, ← List.append_assoc pre]
  refine Reaches.head ?_ .refl
  simp only [parseTurn, frm8Turn, if_neg hturn, header_between (show ChunkType.diin ≠ .unknown by
    decide), frm8Chunk, diinEnter, chunkReadDiinHeader]
  have hio : (between h (pre ++ ChunkType.diin.fourcc) (toBe 8 n ++ post)).io =
      ⟨(pre ++ ChunkType.diin.fourcc) ++ (toBe 8 n ++ post),
        (pre ++ ChunkType.diin.fourcc).length⟩ := rfl
  rw [hio, hread]
  have hend : (pos + 4 + (toBe 8 n).length + n) % 2 ^ 64 = pos + 12 + n := by
    rw [toBe_length]
    omega
  simp only [hcode, hend]
  rw [← hcode, between_behind]
  rfl

theorem passes_diinLeave :
    Passes nameLen pos [] ⟨c, l, some (.diin pos)⟩
      ⟨c, { l with diinCount := l.diinCount + 1 }, none⟩ := by
  intro h pre post hcontents hpre hle hmax
  refine ⟨h, hcontents, Reaches.head ?_ .refl⟩
  rw [List.append_nil]
  have hsame : (between h pre ([] ++ post)).io.pos = pos := hpre
  simp only [parseTurn, diinTurn, if_pos hsame.ge, if_pos hsame]
  rfl

theorem passes_diin {h : Handle} (hh : h.Storable)
    (hroom : pos + (diinBytes h).length ≤ ByteFile.offMax) :
    ∃ n, n ≤ 1 ∧ Passes nameLen pos (diinBytes h) ⟨c, l, none⟩
      ⟨h.notedDiin c, { l with diinCount := l.diinCount + n }, none⟩ := by
  unfold diinBytes at hroom ⊢
  split
  · next hany =>
    rw [if_pos hany, List.length_append, chunkHead_length (by decide), ← Nat.add_assoc] at hroom
    have henter : Passes nameLen pos (chunkHead .diin (diinContents h).length) ⟨c, l, none⟩
        ⟨c, l, some (.diin (pos + 12 + (diinContents h).length))⟩ := passes_diinEnter _ hroom
    have hchunks : Passes nameLen (pos + 12) (diinContents h)
        ⟨c, l, some (.diin (pos + 12 + (diinContents h).length))⟩
        ⟨h.notedDiin c, l, some (.diin (pos + 12 + (diinContents h).length))⟩ :=
      passes_diinContents hh
    have hhead : pos + 12 = pos + (chunkHead .diin (diinContents h).length).length := by
      rw [chunkHead_length (by decide)]
    rw [hhead] at hchunks henter
    have hinside := henter.append hchunks fun _ => Nat.le_refl _
    have hlength : pos + (chunkHead .diin (diinContents h).length).length +
        (diinContents h).length =
        pos + (chunkHead .diin (diinContents h).length ++ diinContents h).length := by
      rw [List.length_append, Nat.add_assoc]
    rw [hlength] at hinside
    have hall := hinside.append passes_diinLeave fun _ => Nat.le_refl _
    rw [List.append_nil] at hall
    exact ⟨1, Nat.le_refl 1, hall⟩
  · next hnone =>
    rw [not_or, not_or, not_or, not_not] at hnone
    obtain ⟨hemid, hartist, htitle, hmarkers⟩ := hnone
    have hsame : h.notedDiin c = c := by
      rw [Handle.notedDiin, storedText, if_neg hemid, storedText, if_neg hartist, storedText,
        if_neg htitle, hmarkers, List.map_nil, List.append_nil]
      rfl
    rw [hsame]
    exact ⟨0, Nat.zero_le 1, Passes.refl _⟩

/-- What is noted of the comments. -/
def Handle.notedComments (h : Handle) (c : Contents) : Contents :=
  { c with commentCount := h.commentCount, comments := h.comments.map Comment.stored }

theorem passes_comments {h : Handle} (hh : h.Storable) (hcount : c.commentCount = 0)
    (hcomments : c.comments = []) :
    ∃ n, n ≤ 1 ∧ Passes nameLen pos (commentsBytes h) ⟨c, l, none⟩
      ⟨h.notedComments c, { l with comtCount := l.comtCount + n }, none⟩ := by
  unfold commentsBytes
  split
  · have htake : h.comments.take h.commentCount.toNat = h.comments := by
      rw [← hh.comments, List.take_length]
    rw [comtChunk, htake]
    exact ⟨1, Nat.le_refl 1,
      (turning_call (by decide) (fun l => { l with comtCount := l.comtCount + 1 })
        fun _ => rfl).passes (readComt_notes hh.comments hh.commentTexts _)
          (by rintro _ ⟨⟩; rfl)⟩
  · next hnone =>
    have hzero := not_not.1 hnone
    have hempty : h.comments = [] := List.eq_nil_of_length_eq_zero (by
      rw [hh.comments, hzero]
      rfl)
    have hsame : h.notedComments c = c := by
      rw [Handle.notedComments, hzero, hempty, List.map_nil, ← hcount, ← hcomments]
    rw [hsame]
    exact ⟨0, Nat.zero_le 1, Passes.refl _⟩

/-- The tags of a handle in the order in which they are stored, without the empty ones. -/
def Handle.storedTags (h : Handle) : List Bytes :=
  (h.id3Tag :: h.trackId3Tags).filter fun tag => tag ≠ []

theorem id3Bytes_eq (h : Handle) :
    fileId3Bytes h ++ trackId3Bytes h.trackId3Tags = h.storedTags.flatMap id3Chunk := by
  have htracks : ∀ tags : List Bytes, trackId3Bytes tags =
      (tags.filter fun tag => tag ≠ []).flatMap id3Chunk := by
    intro tags
    induction tags with
    | nil => rfl
    | cons tag tags ih =>
      rw [trackId3Bytes, List.flatMap_cons, List.filter_cons]
      by_cases hsome : tag ≠ []
      · rw [if_pos hsome, if_pos (decide_eq_true hsome), List.flatMap_cons, ← ih, trackId3Bytes]
      · rw [if_neg hsome, if_neg (by simpa using hsome), ← ih, trackId3Bytes, List.nil_append]
  rw [Handle.storedTags, ← htracks, trackId3Bytes, trackId3Bytes, List.flatMap_cons, fileId3Bytes]

theorem Handle.Storable.tags {h : Handle} (hh : h.Storable) : ∀ tag ∈ h.storedTags, Tag tag := by
  intro tag htag
  obtain ⟨hmem, hsome⟩ := List.mem_filter.1 htag
  refine ⟨of_decide_eq_true hsome, ?_⟩
  rcases List.mem_cons.1 hmem with rfl | hmem
  · exact hh.id3Tag
  · exact hh.trackId3Tags tag hmem

/-- The tags read so far: the first is that of the file, the others those of the tracks. -/
def tagStage (c : Contents) (l : Frm8) (tags : List Bytes) : Stage :=
  ⟨{ c with id3Tag := tags.headD [], trackId3Tags := tags.tail },
    { l with id3Count := tags.length }, none⟩

theorem tagStage_nil (hid3 : c.id3Tag = []) (htracks : c.trackId3Tags = [])
    (hnone : l.id3Count = 0) : tagStage c l [] = ⟨c, l, none⟩ := by
  obtain ⟨⟩ := c
  obtain ⟨⟩ := l
  cases hid3
  cases htracks
  cases hnone
  rfl

theorem putTrackTag_behind (tags : List Bytes) (tag : Bytes) :
    putTrackTag tags tags.length tag = tags ++ [tag] := by
  have hlength : tags.length + 1 - tags.length = 1 := Nat.add_sub_cancel_left ..
  rw [putTrackTag, hlength, List.set_append_right _ _ (Nat.le_refl _), Nat.sub_self]
  rfl

theorem passes_id3 {tag : Bytes} (h : Tag tag) (done : List Bytes) :
    Passes nameLen pos (id3Chunk tag) (tagStage c l done) (tagStage c l (done ++ [tag])) := by
  cases done with
  | nil =>
    refine (turning_call (by decide) (fun l => { l with id3Count := l.id3Count + 1 })
      fun _ => rfl).passes (readFileId3_notes h) ?_
    intro h hcontents
    exact congrArg (fun d : Contents => { d with id3Tag := tag }) hcontents
  | cons first rest =>
    have hstage : tagStage c l (first :: rest ++ [tag]) = ⟨{ c with
        id3Tag := first, trackId3Tags := rest ++ [tag] },
        { l with id3Count := (first :: rest).length + 1 }, none⟩ := by
      rw [tagStage, List.length_append]
      rfl
    rw [hstage]
    refine (turning_call (by decide) (fun l => { l with id3Count := l.id3Count + 1 })
      fun _ => rfl).passes (readTrackId3_notes h rest.length) ?_
    intro h hcontents
    have htags : h.trackId3Tags = rest := congrArg Contents.trackId3Tags hcontents
    rw [htags, putTrackTag_behind]
    exact congrArg (fun d : Contents => { d with trackId3Tags := rest ++ [tag] }) hcontents

theorem passes_tags {tags : List Bytes} (h : ∀ tag ∈ tags, Tag tag) (done : List Bytes) :
    Passes nameLen pos (tags.flatMap id3Chunk) (tagStage c l done)
      (tagStage c l (done ++ tags)) := by
  induction tags generalizing pos done with
  | nil =>
    rw [List.append_nil]
    exact Passes.refl _
  | cons tag tags ih =>
    have hrest : Passes nameLen (pos + (id3Chunk tag).length) (tags.flatMap id3Chunk)
        (tagStage c l (done ++ [tag])) _ :=
      ih (fun t ht => h t (List.mem_cons_of_mem tag ht)) (done ++ [tag])
    rw [List.append_assoc] at hrest
    exact (passes_id3 (h tag List.mem_cons_self) done).append hrest id

/-- What is noted of the manufacturer. -/
def Handle.notedManufacturer (h : Handle) (c : Contents) : Contents :=
  { c with
    manufacturer := (noted h.hasManufacturer
      (h.manufacturerId, h.manufacturerData, h.manufacturerDataSize)).or c.manufacturer }

theorem passes_manufacturer {h : Handle} (hh : h.Storable) :
    Passes nameLen pos (manufacturerBytes h) ⟨c, l, none⟩ ⟨h.notedManufacturer c, l, none⟩ := by
  unfold manufacturerBytes Handle.notedManufacturer
  cases h.hasManufacturer with
  | true =>
    exact (turning_call (by decide) id fun _ => rfl).passes
      (readManf_notes hh.manufacturerId hh.manufacturerData hh.manufacturerRoom)
      (by rintro _ ⟨⟩; rfl)
  | false => exact Passes.refl _

/-- What is noted of all the metadata behind the sound data. -/
def Handle.notedMetadata (h : Handle) (c : Contents) : Contents :=
  h.notedManufacturer { h.notedComments (h.notedDiin c) with
    id3Tag := h.storedTags.headD [], trackId3Tags := h.storedTags.tail }

/-- In a file of DSD audio the tags stand behind the comments, and there is no index. -/
theorem metadataBytes_dsd {h : Handle} (hdsd : h.isDstFormat = false) :
    metadataBytes h = diinBytes h ++ (commentsBytes h ++
      (h.storedTags.flatMap id3Chunk ++ manufacturerBytes h)) := by
  have hindex : indexChunk h = [] := by
    rw [indexChunk, hdsd]
    exact if_neg fun hall => Bool.false_ne_true hall.1
  rw [metadataBytes, hindex, List.nil_append, ← List.append_assoc (fileId3Bytes h), id3Bytes_eq]

/-- The parser goes through the metadata of a file of DSD audio. -/
theorem passes_metadata {h : Handle} (hh : h.Storable) (hdsd : h.isDstFormat = false)
    (hcount : c.commentCount = 0) (hcomments : c.comments = []) (hid3 : c.id3Tag = [])
    (htracks : c.trackId3Tags = []) (hnone : l.id3Count = 0)
    (hroom : pos + (metadataBytes h).length ≤ ByteFile.offMax) :
    ∃ diin comt, diin ≤ 1 ∧ comt ≤ 1 ∧ Passes nameLen pos (metadataBytes h) ⟨c, l, none⟩
      ⟨h.notedMetadata c, { l with
        diinCount := l.diinCount + diin, comtCount := l.comtCount + comt
        id3Count := h.storedTags.length }, none⟩ := by
  rw [metadataBytes_dsd hdsd, List.length_append] at hroom
  obtain ⟨diin, hdiin, hpass₁⟩ : ∃ diin, diin ≤ 1 ∧ Passes nameLen pos (diinBytes h) ⟨c, l, none⟩
      ⟨h.notedDiin c, { l with diinCount := l.diinCount + diin }, none⟩ :=
    passes_diin hh (by omega)
  obtain ⟨comt, hcomt, hpass₂⟩ : ∃ comt, comt ≤ 1 ∧ Passes nameLen (pos + (diinBytes h).length)
      (commentsBytes h) ⟨h.notedDiin c, { l with diinCount := l.diinCount + diin }, none⟩
      ⟨h.notedComments (h.notedDiin c), { l with
        diinCount := l.diinCount + diin, comtCount := l.comtCount + comt }, none⟩ :=
    passes_comments hh hcount hcomments
  have hpass₃ : Passes nameLen (pos + (diinBytes h).length + (commentsBytes h).length)
      (h.storedTags.flatMap id3Chunk)
      (tagStage (h.notedComments (h.notedDiin c)) { l with
        diinCount := l.diinCount + diin, comtCount := l.comtCount + comt } []) _ :=
    passes_tags hh.tags []
  have hnil : tagStage (h.notedComments (h.notedDiin c)) { l with
      diinCount := l.diinCount + diin, comtCount := l.comtCount + comt } [] =
      ⟨h.notedComments (h.notedDiin c), { l with
        diinCount := l.diinCount + diin, comtCount := l.comtCount + comt }, none⟩ :=
    tagStage_nil hid3 htracks hnone
  rw [hnil, List.nil_append] at hpass₃
  rw [metadataBytes_dsd hdsd]
  exact ⟨diin, comt, hdiin, hcomt,
    hpass₁.append (hpass₂.append (hpass₃.append (passes_manufacturer hh) id) id) id⟩

end Metadata

/-! ## The whole file -/

section File

variable {nameLen : Nat → Nat} {p : Properties} {h : Handle} {audio : Bytes}

/-- What a file says once it is opened, of so many bytes of audio. -/
def Handle.reopened (h : Handle) (p : Properties) (size : Nat) : Contents where
  version := p.version
  isDstFormat := false
  sampleRate := p.sampleRate
  channelCount := UInt16.ofNat p.channelIds.length
  channelIds := some p.channelIds
  timecode := p.finalized.timecode
  loudspeaker := p.loudspeaker
  soundDataSize := size
  soundDataStartPos := p.soundStart
  soundDataEndPos := p.soundStart + size
  sampleFrameCount := size / (UInt16.ofNat p.channelIds.length).toNat
  commentCount := h.commentCount
  comments := h.comments.map Comment.stored
  id3Tag := h.storedTags.headD []
  trackId3Tags := h.storedTags.tail
  manufacturer := noted h.hasManufacturer
    (h.manufacturerId, h.manufacturerData, h.manufacturerDataSize)
  emid := storedText h.hasEmid h.emid
  discArtist := storedText h.hasDiscArtist h.discArtist
  discTitle := storedText h.hasDiscTitle h.discTitle
  markers := h.markers.map fun entry => entry.stored p.sampleRate

/-- A fresh handle that reads a file of DSD audio. -/
def opening : Handle := { new with mode := .read, isDstFormat := false }

theorem chunkReadFrm8Header_reads {size : Nat} (h : size < 2 ^ 64) :
    Reads chunkReadFrm8Header (toBe 8 size ++ (ChunkType.dsd.fourcc ++ [])) (size, .dsd) :=
  (ioReadUint64Be_reads h).bind ((chunkReadHeader_reads (by decide)).bind (Reads.pure _))

theorem parseHead_reads {size : Nat} {rest : Bytes} (h : size < 2 ^ 64)
    (hle : size ≤ 16 + rest.length) :
    parseHead ⟨{ new with mode := .read }, ⟨frm8Head size ++ rest, 0⟩⟩ =
      (.ok size, between opening (frm8Head size) rest) := by
  have hfrm8 : frm8Head size ++ rest = [] ++ (ChunkType.frm8.fourcc ++
      ((toBe 8 size ++ (ChunkType.dsd.fourcc ++ [])) ++ rest)) := by
    simp only [frm8Head, chunkHead, List.append_assoc, List.nil_append]
  have hid := chunkReadHeader_reads (show ChunkType.frm8 ≠ .unknown by decide) []
    ((toBe 8 size ++ (ChunkType.dsd.fourcc ++ [])) ++ rest)
  have hbody := chunkReadFrm8Header_reads h ([] ++ ChunkType.frm8.fourcc) rest
  rw [List.append_assoc, ← hfrm8] at hbody
  rw [← hfrm8] at hid
  have hcontent : size ≤ (frm8Head size ++ rest).length := by
    rw [List.length_append, frm8Head_length]
    exact hle
  have hlength : (toBe 8 size ++ (ChunkType.dsd.fourcc ++ [])).length = 12 := by
    rw [List.length_append, toBe_length]
    rfl
  rw [hlength] at hbody
  have hfirst : liftIo chunkReadHeader ⟨{ new with mode := .read }, ⟨frm8Head size ++ rest, 0⟩⟩ =
      (.ok .frm8, ⟨{ new with mode := .read }, ⟨frm8Head size ++ rest, 4⟩⟩) := by
    rw [liftIo, zoom_apply]
    exact congrArg (fun r : Except Error ChunkType × ByteFile =>
      (r.1, (⟨{ new with mode := .read }, r.2⟩ : OpenHandle))) hid
  have hsecond : liftIo chunkReadFrm8Header
      ⟨{ new with mode := .read }, ⟨frm8Head size ++ rest, 4⟩⟩ =
      (.ok (size, .dsd), ⟨{ new with mode := .read }, ⟨frm8Head size ++ rest, 16⟩⟩) := by
    rw [liftIo, zoom_apply]
    exact congrArg (fun r : Except Error (Nat × AudioType) × ByteFile =>
      (r.1, (⟨{ new with mode := .read }, r.2⟩ : OpenHandle))) hbody
  rw [parseHead, bind_of_ok hfirst, require_bind rfl, bind_of_ok hsecond]
  dsimp only
  rw [bind_of_ok (get_apply _), require_bind hcontent, between, frm8Head_length]
  rfl

theorem finalizedFile_dsd (hdsd : p.audioType = .dsd) (hsize : h.soundDataSize = audio.length)
    (total : Nat) :
    p.finalizedFile h audio total = frm8Head (total - 12) ++ (fverBytes p.version ++
      ((propHead (4 + p.finalized.prop.length) ++ p.finalized.prop) ++
        ((chunkHead .dsd audio.length ++ (audio ++ padBytes audio.length)) ++
          metadataBytes h))) := by
  have hkind : ¬ p.audioType = .dst := by
    rw [hdsd]
    decide
  rw [Properties.finalizedFile, Properties.head, soundHead, if_neg hkind, hsize,
    prop_finalized_length]
  simp only [List.append_assoc]
  rfl

theorem fine_finalized (hp : p.Fine) : p.finalized.Fine :=
  ⟨hp.major, hp.someChannels, hp.fewChannels, hp.channels, hp.known⟩

/-- Behind the form of the file the parser goes through all its chunks. -/
theorem passes_file (hp : p.Fine) (hdsd : p.audioType = .dsd) (hh : h.Storable)
    (hformat : h.isDstFormat = false)
    (hname : ∀ pos, (compressionName p.audioType).length ≤ nameLen pos) {total : Nat}
    (hroom : (p.finalizedFile h audio total).length ≤ ByteFile.offMax)
    (hsize : h.soundDataSize = audio.length) {size : Nat} :
    ∃ l : Frm8, l.chunkSize = size ∧ l.check false = .ok () ∧
      Passes nameLen 16 (fverBytes p.version ++
        ((propHead (4 + p.finalized.prop.length) ++ p.finalized.prop) ++
          ((chunkHead .dsd audio.length ++ (audio ++ padBytes audio.length)) ++
            metadataBytes h))) ⟨opening.contents, { chunkSize := size }, none⟩
        ⟨h.reopened p audio.length, l, none⟩ := by
  have hhead : (propHead (4 + p.finalized.prop.length) ++ p.finalized.prop).length =
      16 + p.finalized.prop.length := by rw [List.length_append, propHead_length]
  rw [finalizedFile_dsd hdsd hsize, List.length_append, frm8Head_length, List.length_append,
    fverBytes_length, List.length_append, hhead, List.length_append] at hroom
  obtain ⟨pos, hpos⟩ : ∃ pos, 16 + (fverBytes p.version).length +
      (propHead (4 + p.finalized.prop.length) ++ p.finalized.prop).length = pos := ⟨_, rfl⟩
  have hplace : pos = 48 + p.finalized.prop.length := by
    rw [← hpos, fverBytes_length, hhead]
    omega
  have hstart : pos + 12 = p.soundStart := by
    rw [hplace, Properties.soundStart, prop_finalized_length]
    omega
  have hfver : Passes nameLen 16 (fverBytes p.version) ⟨opening.contents, { chunkSize := size },
      none⟩ ⟨_, { chunkSize := size, fverCount := 1 }, none⟩ := passes_fver hp.major
  have hprop : Passes nameLen (16 + (fverBytes p.version).length)
      (propHead (4 + p.finalized.prop.length) ++ p.finalized.prop)
      ⟨{ opening.contents with version := p.version }, { chunkSize := size, fverCount := 1 }, none⟩
      ⟨_, { chunkSize := size, fverCount := 1, propCount := 1 }, none⟩ :=
    passes_prop (fine_finalized hp) hname (by rw [fverBytes_length]; omega)
  obtain ⟨c, hc⟩ : ∃ c : Contents, { p.finalized.noted { opening.contents with
      version := p.version } with
      soundDataSize := audio.length
      soundDataStartPos := pos + 12
      soundDataEndPos := pos + 12 + audio.length
      sampleFrameCount := audio.length / (UInt16.ofNat p.channelIds.length).toNat } = c := ⟨_, rfl⟩
  have hsound : Passes nameLen pos
      (chunkHead .dsd audio.length ++ (audio ++ padBytes audio.length))
      ⟨p.finalized.noted { opening.contents with version := p.version },
        { chunkSize := size, fverCount := 1, propCount := 1 }, none⟩
      ⟨c, { chunkSize := size, fverCount := 1, propCount := 1, dsdCount := 1 }, none⟩ :=
    hc ▸ passes_dsd audio
  have hcount : c.commentCount = 0 := by rw [← hc]; rfl
  have hcomments : c.comments = [] := by rw [← hc]; rfl
  have hid3 : c.id3Tag = [] := by rw [← hc]; rfl
  have htracks : c.trackId3Tags = [] := by rw [← hc]; rfl
  obtain ⟨diin, comt, hdiin, hcomt, hmetadata⟩ : ∃ diin comt, diin ≤ 1 ∧ comt ≤ 1 ∧
      Passes nameLen (pos + (chunkHead .dsd audio.length ++
        (audio ++ padBytes audio.length)).length) (metadataBytes h)
        ⟨c, { chunkSize := size, fverCount := 1, propCount := 1, dsdCount := 1 }, none⟩
        ⟨h.notedMetadata c, {
          chunkSize := size, fverCount := 1, propCount := 1, dsdCount := 1
          diinCount := 0 + diin, comtCount := 0 + comt, id3Count := h.storedTags.length },
          none⟩ :=
    passes_metadata hh hformat hcount hcomments hid3 htracks rfl (by omega)
  have hcontents : h.notedMetadata c = h.reopened p audio.length := by
    have hkind : decide (p.finalized.audioType = .dst) = false :=
      decide_eq_false (by show ¬ p.audioType = .dst; rw [hdsd]; decide)
    rw [← hc, hstart]
    simp only [Handle.notedMetadata, Handle.notedManufacturer, Handle.notedComments,
      Handle.notedDiin, Properties.noted, Handle.reopened, hkind,
      show opening.contents.timecode = none from rfl,
      show opening.contents.loudspeaker = none from rfl,
      show opening.contents.manufacturer = none from rfl,
      show opening.contents.emid = none from rfl,
      show opening.contents.discArtist = none from rfl,
      show opening.contents.discTitle = none from rfl, Option.or_none]
    rfl
  rw [hcontents] at hmetadata
  have hrest := hprop.append (hpos ▸ hsound.append hmetadata id) id
  refine ⟨_, rfl, ?_, hfver.append hrest id⟩
  have hfew : ¬ (1 < 1 ∨ 1 < 0 + comt ∨ 1 < 0 + diin) := by omega
  exact (if_neg (not_not.2 rfl)).trans <| (if_neg (not_not.2 rfl)).trans <| if_neg hfew

/-- The parser comes to the end of the file, and its handle says what was written. -/
theorem finalized_parses (hp : p.Fine) (hdsd : p.audioType = .dsd) (hh : h.Storable)
    (hformat : h.isDstFormat = false)
    (hname : ∀ pos, (compressionName p.audioType).length ≤ nameLen pos) {total : Nat}
    (htotal : (p.finalizedFile h audio total).length = total) (hroom : total ≤ ByteFile.offMax)
    (hsize : h.soundDataSize = audio.length) :
    ∃ fuel env, parseFile nameLen fuel .read (p.finalizedFile h audio total) =
        some (.ok (), env) ∧ env.handle.contents = h.reopened p audio.length ∧
      env.io.content = p.finalizedFile h audio total := by
  obtain ⟨l, hchunkSize, hcheck, hpass⟩ : ∃ l : Frm8, l.chunkSize = total - 12 ∧
      l.check false = .ok () ∧ Passes nameLen 16 _ _ _ :=
    passes_file hp hdsd hh hformat hname (htotal.trans_le hroom) hsize
  have hmax : ByteFile.offMax = 2 ^ 63 - 1 := rfl
  rw [finalizedFile_dsd hdsd hsize] at htotal ⊢
  generalize fverBytes p.version ++ ((propHead (4 + p.finalized.prop.length) ++
    p.finalized.prop) ++ ((chunkHead .dsd audio.length ++ (audio ++ padBytes audio.length)) ++
      metadataBytes h)) = rest at htotal hpass ⊢
  rw [List.length_append, frm8Head_length] at htotal
  have hhead : parseHead ⟨{ new with mode := .read }, ⟨frm8Head (total - 12) ++ rest, 0⟩⟩ =
      (.ok (total - 12), between opening (frm8Head (total - 12)) rest) :=
    parseHead_reads (by omega) (by omega)
  obtain ⟨h', hcontents, hreaches⟩ := hpass opening (frm8Head (total - 12)) [] rfl
    (frm8Head_length _) (by show 16 + rest.length ≤ total - 12 + 12; omega) (by omega)
  rw [List.append_nil] at hreaches
  have hformat' : h'.isDstFormat = false := congrArg Contents.isDstFormat hcontents
  have hplace : l.chunkSize < (between h' (frm8Head (total - 12) ++ rest) []).io.pos := by
    show l.chunkSize < (frm8Head (total - 12) ++ rest).length
    rw [List.length_append, frm8Head_length, hchunkSize]
    omega
  have hlast : parseTurn nameLen ⟨between h' (frm8Head (total - 12) ++ rest) [], l, none⟩ =
      .inr (.ok (), between h' (frm8Head (total - 12) ++ rest) []) := by
    simp only [parseTurn, frm8Turn, if_pos hplace]
    rw [between, hformat', hcheck]
  obtain ⟨fuel, hfuel⟩ := returns_of_reaches hreaches (returns_of_inr hlast)
  refine ⟨fuel, between h' (frm8Head (total - 12) ++ rest) [], ?_, hcontents,
    List.append_nil _⟩
  rw [parseFile, hhead]
  exact hfuel

/-- The audio stands where the sound data start. -/
theorem finalizedFile_split (hdsd : p.audioType = .dsd) (h : Handle) (audio : Bytes)
    (total : Nat) :
    ∃ front, front.length = p.soundStart ∧ p.finalizedFile h audio total =
      front ++ (audio ++ (padBytes h.soundDataSize ++ metadataBytes h)) := by
  have hkind : ¬ p.audioType = .dst := by
    rw [hdsd]
    decide
  refine ⟨p.finalized.head (total - 12) (4 + p.prop.length) ++
    soundHead p.audioType h.soundDataSize h.dstFrameCount h.dstFrameRate, ?_, ?_⟩
  · rw [List.length_append, head_length, soundHead_length, if_neg hkind, prop_finalized_length,
      Properties.soundStart]
    omega
  · rw [Properties.finalizedFile, List.append_assoc]

/-- So it opens, and stands at the start of its audio. -/
theorem finalized_opens (hp : p.Fine) (hdsd : p.audioType = .dsd) (hh : h.Storable)
    (hformat : h.isDstFormat = false)
    (hname : ∀ pos, (compressionName p.audioType).length ≤ nameLen pos) {total : Nat}
    (htotal : (p.finalizedFile h audio total).length = total) (hroom : total ≤ ByteFile.offMax)
    (hsize : h.soundDataSize = audio.length) :
    ∃ fuel s, dsdiffOpen nameLen fuel (p.finalizedFile h audio total) = some (.ok s) ∧
      s.handle.contents = h.reopened p audio.length ∧
      s.io = ⟨p.finalizedFile h audio total, p.soundStart⟩ := by
  obtain ⟨fuel, ⟨handle, content, pos⟩, hparse, hcontents, hbytes⟩ :=
    finalized_parses hp hdsd hh hformat hname htotal hroom hsize
  have hstart : handle.soundDataStartPos = p.soundStart :=
    congrArg Contents.soundDataStartPos hcontents
  have hend : handle.soundDataEndPos = p.soundStart + audio.length :=
    congrArg Contents.soundDataEndPos hcontents
  have hkind : handle.isDstFormat = false := congrArg Contents.isDstFormat hcontents
  obtain ⟨front, hfront, hfile⟩ := finalizedFile_split hdsd h audio total
  have hplace : p.soundStart ≤ ByteFile.offMax := by
    rw [hfile, List.length_append] at htotal
    omega
  have hseek : seekDsdStart handle ⟨content, pos⟩ = (.ok (), ⟨content, p.soundStart⟩) := by
    rw [seekDsdStart, if_neg (by rw [hkind]; decide), hstart, hend,
      Nat.min_eq_left (Nat.le_add_right _ _), ioSeekSet_of_le hplace]
  refine ⟨fuel, ⟨handle, ⟨content, p.soundStart⟩⟩, ?_, hcontents, by rw [← hbytes]⟩
  rw [dsdiffOpen, hparse]
  dsimp only [Option.map_some]
  rw [hseek]

end File

end DsdNexus.Dsdiff
