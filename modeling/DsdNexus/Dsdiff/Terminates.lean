import DsdNexus.Dsdiff.Skips

/-! # DSDIFF: whether opening a file ends

Where passing over a chunk leads back to its start or beyond, the loop does not get on;
where it never does, every turn of every loop gets on or leaves its loop, and the file is
opened or refused.
-/

namespace DsdNexus.Dsdiff

open Program FileProgram Endian

/-! ## What a turn of a loop comes to -/

/-- The chunks a loop reads. Any other it passes over, DST apart in the outer loop. -/
def chunksRead : Option Inner → List ChunkType
  | none => [.frm8, .fver, .prop, .diin, .comt, .id3, .manf]
  | some (.prop _) => [.fs, .chnl, .cmpr, .abss, .lsco]
  | some (.diin _) => [.emid, .diar, .diti, .mark]

/-- The loop has not come to its end. -/
def Parse.Within (s : Parse) : Prop :=
  match s.inner with
  | none => s.env.io.pos ≤ s.frm8.chunkSize
  | some (.prop l) => s.env.io.pos < l.endPos
  | some (.diin endPos) => s.env.io.pos < endPos

/-- The chunk that is next is passed over to a place at or before its start. -/
def Parse.StepsBack (s : Parse) : Prop :=
  s.Within ∧
    if s.inner = none ∧ typeAt s.env.io.content s.env.io.pos = .dst then
      DstBack s.env.io.content s.env.io.pos
    else
      typeAt s.env.io.content s.env.io.pos ∉ chunksRead s.inner ∧
        BackTo s.env.io.content (s.env.io.pos + 4) s.env.io.pos

/-- The turn left PROP or DIIN. -/
def Leaves (s t : Parse) : Prop :=
  s.inner ≠ none ∧ t.inner = none ∧ s.env.io.pos ≤ t.env.io.pos

/-- The position is beyond where it was, or the loop has ended. -/
def Goes (s t : Parse) : Prop := s.env.io.pos < t.env.io.pos ∨ Leaves s t

theorem call_eq_inl_iff {s t : Parse} {m : Dsd Unit} {count : Frm8 → Frm8} :
    s.call m count = .inl t ↔
      ∃ env, m s.env = (.ok (), env) ∧ { s with env := env, frm8 := count s.frm8 } = t := by
  unfold Parse.call
  rcases m s.env with ⟨e | _, env⟩
  · simp [Parse.resume]
  · simp [Parse.resume]

theorem propCall_eq_inl_iff {s t : Parse} {l : PropLoop} {m : Dsd Unit} :
    s.propCall l m = .inl t ↔
      ∃ env, m s.env = (.ok (), env) ∧ { s with env := env, inner := some (.prop l) } = t := by
  unfold Parse.propCall
  rcases m s.env with ⟨e | _, env⟩
  · simp [Parse.leaveProp, Parse.resume]
  · simp

theorem diinCall_eq_inl_iff {s t : Parse} {m : Dsd Unit} :
    s.diinCall m = .inl t ↔ ∃ env, m s.env = (.ok (), env) ∧ { s with env := env } = t := by
  unfold Parse.diinCall
  rcases m s.env with ⟨e | _, env⟩
  · simp [Parse.leaveDiin, Parse.resume]
  · simp

theorem leaveProp_eq_inl {s t : Parse} {ret : Except Error Unit} (h : s.leaveProp ret = .inl t) :
    t.inner = none ∧ t.env = s.env := by
  unfold Parse.leaveProp Parse.resume at h
  split at h
  · cases h
    exact ⟨rfl, rfl⟩
  · cases h

theorem leaveDiin_eq_inl {s t : Parse} {ret : Except Error Unit} (h : s.leaveDiin ret = .inl t) :
    t.inner = none ∧ t.env = s.env := by
  unfold Parse.leaveDiin Parse.resume at h
  split at h
  · cases h
    exact ⟨rfl, rfl⟩
  · cases h

/-! ## The chunks that are read -/

theorem onward_of_ok {m : Dsd Unit} (hm : Keeps (OfIo Onward) m) {s t : OpenHandle}
    (h : m s = (.ok (), t)) : Onward s.io t.io := by
  have hs := hm s
  rwa [h] at hs

theorem call_onward {s t : Parse} {m : Dsd Unit} {count : Frm8 → Frm8}
    (hm : Keeps (OfIo Onward) m) (h : s.call m count = .inl t) : Onward s.env.io t.env.io := by
  obtain ⟨env, hok, rfl⟩ := call_eq_inl_iff.1 h
  exact onward_of_ok hm hok

theorem propCall_onward {s t : Parse} {l : PropLoop} {m : Dsd Unit}
    (hm : Keeps (OfIo Onward) m) (h : s.propCall l m = .inl t) : Onward s.env.io t.env.io := by
  obtain ⟨env, hok, rfl⟩ := propCall_eq_inl_iff.1 h
  exact onward_of_ok hm hok

theorem diinCall_onward {s t : Parse} {m : Dsd Unit} (hm : Keeps (OfIo Onward) m)
    (h : s.diinCall m = .inl t) : Onward s.env.io t.env.io := by
  obtain ⟨env, hok, rfl⟩ := diinCall_eq_inl_iff.1 h
  exact onward_of_ok hm hok

theorem fverChunk_onward {s t : Parse} (h : fverChunk s = .inl t) :
    Onward s.env.io t.env.io := by
  have hread := keeps_readFver (R := Onward) s.env
  unfold fverChunk at h
  split at h
  · next env heq =>
    rw [heq] at hread
    split at h
    · cases h
    · cases h
      exact hread
  · cases h

theorem propEnter_onward {s t : Parse} (h : propEnter s = .inl t) :
    Onward s.env.io t.env.io := by
  have hread := keeps_chunkReadPropHeader (R := Onward) s.env.io
  unfold propEnter at h
  split at h
  · next heq =>
    rw [heq] at hread
    cases h
    exact hread
  · cases h

theorem diinEnter_onward {s t : Parse} (h : diinEnter s = .inl t) :
    Onward s.env.io t.env.io := by
  have hread := keeps_ioReadUint64Be (R := Onward) s.env.io
  unfold diinEnter chunkReadDiinHeader at h
  dsimp only at h
  split at h
  · next heq =>
    rw [heq] at hread
    cases h
    exact hread
  · cases h

/-- A chunk the outer loop reads is read onward. -/
theorem frm8Chunk_onward {s t : Parse} {type : ChunkType} (htype : type ∈ chunksRead none)
    (h : frm8Chunk s type = .inl t) : Onward s.env.io t.env.io := by
  simp only [chunksRead, List.mem_cons, List.not_mem_nil, or_false] at htype
  rcases htype with rfl | rfl | rfl | rfl | rfl | rfl | rfl <;> rw [frm8Chunk] at h
  · exact call_onward (Keeps.pure ()) h
  · exact fverChunk_onward h
  · exact propEnter_onward h
  · exact diinEnter_onward h
  · exact call_onward keeps_readComt h
  · exact call_onward (Keeps.ite (fun _ => keeps_readFileId3) fun _ => keeps_readTrackId3 _) h
  · exact call_onward keeps_readManf h

/-- One that it does not read it skips, unless it is DST. -/
theorem frm8Chunk_skip (s : Parse) {type : ChunkType} (htype : type ∉ chunksRead none)
    (hdst : type ≠ .dst) :
    ∃ m count, Follows m chunkSkip ∧ frm8Chunk s type = s.call m count := by
  have hskip : Follows (liftIo chunkSkip) chunkSkip := fun _ => ⟨rfl, rfl⟩
  cases type
  case dsd => exact ⟨readDsd, _, readDsd_follows, by rw [frm8Chunk]⟩
  case dsti => exact ⟨readDsti, _, readDsti_follows, by rw [frm8Chunk]⟩
  case dst => exact absurd rfl hdst
  case frm8 | fver | prop | diin | comt | id3 | manf =>
    exact absurd (by simp [chunksRead]) htype
  all_goals exact ⟨liftIo chunkSkip, id, hskip, rfl⟩

theorem propChunk_onward {nameLen : Nat → Nat} {s t : Parse} {l : PropLoop} {type : ChunkType}
    (htype : type ∈ chunksRead (some (.prop l))) (h : propChunk nameLen s l type = .inl t) :
    Onward s.env.io t.env.io := by
  simp only [chunksRead, List.mem_cons, List.not_mem_nil, or_false] at htype
  rcases htype with rfl | rfl | rfl | rfl | rfl
  · exact propCall_onward keeps_readFs h
  · exact propCall_onward keeps_readChnl h
  · exact propCall_onward (keeps_readCmpr _) h
  · exact propCall_onward keeps_readAbss h
  · exact propCall_onward keeps_readLsco h

theorem propChunk_skip (nameLen : Nat → Nat) (s : Parse) {l : PropLoop} {type : ChunkType}
    (htype : type ∉ chunksRead (some (.prop l))) :
    propChunk nameLen s l type = s.propCall l (liftIo chunkSkip) := by
  cases type <;> first | rfl | exact absurd (by simp [chunksRead]) htype

theorem diinChunk_onward {s t : Parse} {endPos : Nat} {type : ChunkType}
    (htype : type ∈ chunksRead (some (.diin endPos))) (h : diinChunk s type = .inl t) :
    Onward s.env.io t.env.io := by
  simp only [chunksRead, List.mem_cons, List.not_mem_nil, or_false] at htype
  rcases htype with rfl | rfl | rfl | rfl
  · exact diinCall_onward keeps_readEmid h
  · exact diinCall_onward keeps_readDiar h
  · exact diinCall_onward keeps_readDiti h
  · exact diinCall_onward keeps_readMark h

theorem diinChunk_skip (s : Parse) {endPos : Nat} {type : ChunkType}
    (htype : type ∉ chunksRead (some (.diin endPos))) :
    diinChunk s type = s.diinCall (liftIo chunkSkip) := by
  cases type <;> first | rfl | exact absurd (by simp [chunksRead]) htype

/-! ## The turns that find a chunk -/

/-- The state behind the id of the chunk that is next. -/
def Parse.behindId (s : Parse) : Parse :=
  { s with env := { s.env with io := { s.env.io with pos := s.env.io.pos + 4 } } }

/-- The `switch` of the loop the parser is in. -/
def chunkOf (nameLen : Nat → Nat) (s : Parse) (type : ChunkType) : Parse ⊕ Outcome :=
  match s.inner with
  | none => frm8Chunk s type
  | some (.prop l) => propChunk nameLen s l type
  | some (.diin _) => diinChunk s type

theorem parseTurn_chunk (nameLen : Nat → Nat) {s : Parse} (h : s.Within)
    (hlen : s.env.io.pos + 4 ≤ s.env.io.content.length) :
    parseTurn nameLen s =
      chunkOf nameLen s.behindId (typeAt s.env.io.content s.env.io.pos) := by
  obtain ⟨env, frm8, inner⟩ := s
  have hheader := header_of_le hlen
  cases inner with
  | none =>
    have hin : ¬ frm8.chunkSize < env.io.pos := Nat.not_lt.2 h
    simp only [parseTurn, frm8Turn, if_neg hin, hheader]
    rfl
  | some inner =>
    cases inner with
    | prop l =>
      have hin : ¬ l.endPos ≤ env.io.pos := Nat.not_le.2 h
      simp only [parseTurn, propTurn, if_neg hin, hheader]
      rfl
    | diin endPos =>
      have hin : ¬ endPos ≤ env.io.pos := Nat.not_le.2 h
      simp only [parseTurn, diinTurn, if_neg hin, hheader]
      rfl

theorem header_eq_error {io io' : ByteFile} {e : Error} (h : chunkReadHeader io = (.error e, io')) :
    Onward io io' := by
  have hread := keeps_chunkReadHeader (R := Onward) io
  rwa [h] at hread

theorem header_eq_ok {io io' : ByteFile} {type : ChunkType}
    (h : chunkReadHeader io = (.ok type, io')) : io.pos + 4 ≤ io.content.length := by
  by_contra hlen
  have hshort : io.content.length < io.pos + 4 := by omega
  have herror := header_error hshort
  have hsame := h.symm.trans herror
  cases hsame

/-- A turn that goes on leaves its loop or finds a chunk. -/
theorem parseTurn_inl {nameLen : Nat → Nat} {s t : Parse} (h : parseTurn nameLen s = .inl t) :
    Leaves s t ∧ SameBytes s.env.io t.env.io ∨
      s.Within ∧ s.env.io.pos + 4 ≤ s.env.io.content.length := by
  unfold parseTurn at h
  split at h
  · next hinner =>
    rw [Parse.Within, hinner]
    unfold frm8Turn at h
    split at h
    · cases h
    · next hin =>
      split at h
      · cases h
      · next heq => exact .inr ⟨Nat.not_lt.1 hin, header_eq_ok heq⟩
  · next l hinner =>
    rw [Parse.Within, hinner]
    unfold propTurn at h
    split at h
    · obtain ⟨hnone, henv⟩ := leaveProp_eq_inl h
      exact .inl ⟨⟨by simp [hinner], hnone, by rw [henv]⟩, by rw [henv]; rfl⟩
    · next hin =>
      split at h
      · next heq =>
        obtain ⟨hnone, henv⟩ := leaveProp_eq_inl h
        have hread := header_eq_error heq
        exact .inl ⟨⟨by simp [hinner], hnone, by rw [henv]; exact hread.2⟩,
          by rw [henv]; exact hread.1⟩
      · next heq => exact .inr ⟨Nat.not_le.1 hin, header_eq_ok heq⟩
  · next endPos hinner =>
    rw [Parse.Within, hinner]
    unfold diinTurn at h
    split at h
    · obtain ⟨hnone, henv⟩ := leaveDiin_eq_inl h
      exact .inl ⟨⟨by simp [hinner], hnone, by rw [henv]⟩, by rw [henv]; rfl⟩
    · next hin =>
      split at h
      · next heq =>
        obtain ⟨hnone, henv⟩ := leaveDiin_eq_inl h
        have hread := header_eq_error heq
        exact .inl ⟨⟨by simp [hinner], hnone, by rw [henv]; exact hread.2⟩,
          by rw [henv]; exact hread.1⟩
      · next heq => exact .inr ⟨Nat.not_le.1 hin, header_eq_ok heq⟩

theorem chunkOf_onward {nameLen : Nat → Nat} {s t : Parse} {type : ChunkType}
    (htype : type ∈ chunksRead s.inner) (h : chunkOf nameLen s type = .inl t) :
    Onward s.env.io t.env.io := by
  unfold chunkOf at h
  split at h
  · next hinner =>
    rw [hinner] at htype
    exact frm8Chunk_onward htype h
  · next l hinner =>
    rw [hinner] at htype
    exact propChunk_onward htype h
  · next endPos hinner =>
    rw [hinner] at htype
    exact diinChunk_onward htype h

/-- A chunk that is passed over is skipped, and the loop is not left for it. -/
theorem chunkOf_skip (nameLen : Nat → Nat) (s : Parse) {type : ChunkType}
    (htype : type ∉ chunksRead s.inner) (hdst : ¬ (s.inner = none ∧ type = .dst)) :
    (∀ t, chunkOf nameLen s type = .inl t →
      chunkSkip s.env.io = (.ok (), t.env.io) ∧ t.inner = s.inner) ∧
    ∀ io, chunkSkip s.env.io = (.ok (), io) → ∃ t, chunkOf nameLen s type = .inl t ∧
      t.env.io = io := by
  have hskip : Follows (liftIo chunkSkip) chunkSkip := fun _ => ⟨rfl, rfl⟩
  unfold chunkOf
  split
  · next hinner =>
    rw [hinner] at htype
    obtain ⟨m, count, hfollows, heq⟩ := frm8Chunk_skip s htype fun h => hdst ⟨hinner, h⟩
    rw [heq]
    constructor
    · intro t ht
      obtain ⟨env, hok, rfl⟩ := call_eq_inl_iff.1 ht
      exact ⟨hfollows.eq_ok_iff.1 ⟨env, hok, rfl⟩, rfl⟩
    · intro io hio
      obtain ⟨env, hok, rfl⟩ := hfollows.eq_ok_iff.2 hio
      exact ⟨_, call_eq_inl_iff.2 ⟨env, hok, rfl⟩, rfl⟩
  · next l hinner =>
    rw [hinner] at htype
    rw [propChunk_skip nameLen s htype]
    constructor
    · intro t ht
      obtain ⟨env, hok, rfl⟩ := propCall_eq_inl_iff.1 ht
      exact ⟨hskip.eq_ok_iff.1 ⟨env, hok, rfl⟩, hinner.symm⟩
    · intro io hio
      obtain ⟨env, hok, rfl⟩ := hskip.eq_ok_iff.2 hio
      exact ⟨_, propCall_eq_inl_iff.2 ⟨env, hok, rfl⟩, rfl⟩
  · next endPos hinner =>
    rw [hinner] at htype
    rw [diinChunk_skip s htype]
    constructor
    · intro t ht
      obtain ⟨env, hok, rfl⟩ := diinCall_eq_inl_iff.1 ht
      exact ⟨hskip.eq_ok_iff.1 ⟨env, hok, rfl⟩, rfl⟩
    · intro io hio
      obtain ⟨env, hok, rfl⟩ := hskip.eq_ok_iff.2 hio
      exact ⟨_, diinCall_eq_inl_iff.2 ⟨env, hok, rfl⟩, rfl⟩

theorem readDst_eq_ok {s t : OpenHandle} (h : readDst s = (.ok (), t)) :
    ∃ env, parseDst s = (.ok (), env) ∧ env.io = t.io := by
  obtain ⟨_, env, hparse, hrest⟩ := bind_eq_ok h
  cases hrest
  exact ⟨env, hparse, rfl⟩

/-- A turn of the outer loop at a DST chunk. -/
theorem chunkOf_dst (nameLen : Nat → Nat) {s : Parse} (hinner : s.inner = none) :
    (∀ t, chunkOf nameLen s .dst = .inl t →
      (∃ env, parseDst s.env = (.ok (), env) ∧ env.io = t.env.io) ∧ t.inner = s.inner) ∧
    ∀ env, parseDst s.env = (.ok (), env) → ∃ t, chunkOf nameLen s .dst = .inl t ∧
      t.env.io = env.io := by
  have hchunk : chunkOf nameLen s .dst =
      s.call readDst fun l => { l with dstCount := l.dstCount + 1 } := by
    rw [chunkOf, hinner]
    rfl
  rw [hchunk]
  constructor
  · intro t ht
    obtain ⟨env, hok, rfl⟩ := call_eq_inl_iff.1 ht
    exact ⟨readDst_eq_ok hok, rfl⟩
  · intro env henv
    have hok : readDst s.env = (.ok (), _) := bind_of_ok henv
    exact ⟨_, call_eq_inl_iff.2 ⟨_, hok, rfl⟩, rfl⟩

/-! ## One turn -/

theorem not_leaves {s t : Parse} (h : t.inner = s.inner) : ¬ Leaves s t :=
  fun hl => hl.1 (h ▸ hl.2.1)

theorem StepsBack.length {s : Parse} (h : s.StepsBack) :
    s.env.io.pos + 4 ≤ s.env.io.content.length := by
  have hback := h.2
  split at hback
  · have hlen := typeAt_ne_unknown hback.1 (by decide)
    omega
  · have hlen := hback.2.1
    omega

/-- Where the parser steps back, its turn goes on in the same loop without getting on. -/
theorem parseTurn_of_stepsBack (nameLen : Nat → Nat) {s : Parse} (h : s.StepsBack) :
    ∃ t, parseTurn nameLen s = .inl t ∧ ¬ Goes s t := by
  rw [parseTurn_chunk nameLen h.1 (StepsBack.length h)]
  have hback := h.2
  split at hback
  · next hdst =>
    obtain ⟨env, henv, hle⟩ := parseDst_back.2 hback
    have hchunk := chunkOf_dst nameLen (s := s.behindId) hdst.1
    obtain ⟨t, ht, hio⟩ := hchunk.2 env henv
    rw [hdst.2]
    refine ⟨t, ht, ?_⟩
    rintro (hlt | hleaves)
    · rw [hio] at hlt
      omega
    · exact not_leaves (s := s) (hchunk.1 t ht).2 hleaves
  · next hdst =>
    obtain ⟨p, hp, hle⟩ := (backTo_iff (by omega)).1 hback.2
    have hchunk := chunkOf_skip nameLen s.behindId hback.1 hdst
    obtain ⟨t, ht, hio⟩ := hchunk.2 _ (chunkSkip_eq_ok.2 ⟨p, hp, rfl⟩)
    refine ⟨t, ht, ?_⟩
    rintro (hlt | hleaves)
    · rw [hio] at hlt
      exact Nat.not_lt.2 hle hlt
    · exact not_leaves (s := s) (hchunk.1 t ht).2 hleaves

/-- Where it does not, a turn that finds a chunk gets on. -/
theorem parseTurn_on {nameLen : Nat → Nat} {s t : Parse} (h : parseTurn nameLen s = .inl t)
    (hin : s.Within) (hlen : s.env.io.pos + 4 ≤ s.env.io.content.length) :
    SameBytes s.env.io t.env.io ∧ (¬ s.StepsBack → s.env.io.pos < t.env.io.pos) := by
  rw [parseTurn_chunk nameLen hin hlen] at h
  unfold Parse.StepsBack
  by_cases hdst : s.inner = none ∧ typeAt s.env.io.content s.env.io.pos = .dst
  · rw [hdst.2] at h
    rw [if_pos hdst]
    obtain ⟨⟨env, henv, hio⟩, _⟩ := (chunkOf_dst nameLen (s := s.behindId) hdst.1).1 t h
    have hsame := keeps_parseDst (R := SameBytes) s.behindId.env
    rw [henv] at hsame
    refine ⟨hio ▸ hsame, fun hback => ?_⟩
    by_contra hle
    exact hback ⟨hin, parseDst_back.1 ⟨env, henv, hio ▸ Nat.not_lt.1 hle⟩⟩
  · rw [if_neg hdst]
    by_cases hread : typeAt s.env.io.content s.env.io.pos ∈ chunksRead s.inner
    · have honward := chunkOf_onward (s := s.behindId) hread h
      exact ⟨honward.1, fun _ => Nat.lt_of_lt_of_le (Nat.lt_add_of_pos_right (by omega)) honward.2⟩
    · obtain ⟨hskip, _⟩ := (chunkOf_skip nameLen s.behindId hread hdst).1 t h
      obtain ⟨p, hp, hio⟩ := chunkSkip_eq_ok.1 hskip
      rw [hio]
      refine ⟨rfl, fun hback => ?_⟩
      by_contra hle
      exact hback ⟨hin, hread, (backTo_iff (by omega)).2 ⟨p, hp, Nat.not_lt.1 hle⟩⟩

/-- A turn that goes on gets on exactly where the parser does not step back. -/
theorem goes_iff {nameLen : Nat → Nat} {s t : Parse} (h : parseTurn nameLen s = .inl t) :
    Goes s t ↔ ¬ s.StepsBack := by
  constructor
  · intro hgoes hback
    obtain ⟨u, hu, hnot⟩ := parseTurn_of_stepsBack nameLen hback
    rw [h] at hu
    cases hu
    exact hnot hgoes
  · intro hback
    rcases parseTurn_inl h with hleaves | ⟨hin, hlen⟩
    · exact .inr hleaves.1
    · exact .inl ((parseTurn_on h hin hlen).2 hback)

theorem parseTurn_sameBytes {nameLen : Nat → Nat} {s t : Parse}
    (h : parseTurn nameLen s = .inl t) : SameBytes s.env.io t.env.io := by
  rcases parseTurn_inl h with hleaves | ⟨hin, hlen⟩
  · exact hleaves.2
  · exact (parseTurn_on h hin hlen).1

/-! ## Whole runs -/

/-- The state the loop of `dsdiff_parse_frm8` starts in. -/
def Started (mode : FileMode) (content : List UInt8) (s : Parse) : Prop :=
  ∃ chunkSize env, parseHead ⟨{ new with mode := mode }, ⟨content, 0⟩⟩ = (.ok chunkSize, env) ∧
    s = ⟨env, { chunkSize := chunkSize }, none⟩

/-- The states the loops of an open come to. -/
def Visits (nameLen : Nat → Nat) (mode : FileMode) (content : List UInt8) (s : Parse) : Prop :=
  ∃ s₀, Started mode content s₀ ∧ Loop.Reaches (parseTurn nameLen) s₀ s

theorem Visits.next {nameLen : Nat → Nat} {mode : FileMode} {content : List UInt8} {s t : Parse}
    (hs : Visits nameLen mode content s) (h : parseTurn nameLen s = .inl t) :
    Visits nameLen mode content t := by
  obtain ⟨s₀, hstarted, hreaches⟩ := hs
  exact ⟨s₀, hstarted, hreaches.tail h⟩

/-- What is left of the file, and whether an inner loop is to be left. -/
def Parse.rank (s : Parse) : Nat :=
  2 * (s.env.io.content.length + 1 - s.env.io.pos) + if s.inner = none then 0 else 1

theorem rank_lt {nameLen : Nat → Nat} {s t : Parse} (h : parseTurn nameLen s = .inl t)
    (hback : ¬ s.StepsBack) : t.rank < s.rank := by
  have hsame : t.env.io.content = s.env.io.content := parseTurn_sameBytes h
  unfold Parse.rank
  rw [hsame]
  rcases parseTurn_inl h with ⟨⟨hin, hout, hle⟩, _⟩ | ⟨hin, hlen⟩
  · rw [if_pos hout, if_neg hin]
    omega
  · have hlt := (parseTurn_on h hin hlen).2 hback
    split <;> split <;> omega

/-- A loop none of whose turns steps back ends. -/
theorem parse_returns {nameLen : Nat → Nat} {s : Parse}
    (h : ∀ t, Loop.Reaches (parseTurn nameLen) s t → ¬ t.StepsBack) :
    ∃ r, Loop.Returns (parseTurn nameLen) s r :=
  Loop.returns_of_rank Parse.rank fun t _ ht hturn => rank_lt hturn (h t ht)

/-- FRM8 with one chunk, of no known id, whose size field is minus twelve. -/
def loopingFile : List UInt8 :=
  ChunkType.frm8.fourcc ++ toBe 8 16 ++ ChunkType.dsd.fourcc ++
    makeMarker 'X' 'X' 'X' 'X' ++ toBe 8 (2 ^ 64 - 12)

end DsdNexus.Dsdiff
