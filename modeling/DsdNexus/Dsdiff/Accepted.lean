import DsdNexus.Dsdiff.DsdAudio
import DsdNexus.Dsdiff.Layout
import DsdNexus.Dsdiff.Opened

/-! # DSDIFF: which files are accepted

The chunks a parse visits, in order, with what comes of reading each of them. The parse
decides by its counts of the chunks, when its loop has ended for whatever reason.
-/

namespace DsdNexus.Dsdiff

open Program FileProgram Endian

/-- The loop a chunk is visited in. -/
inductive Place where
  | frm8
  | prop
  | diin
deriving DecidableEq

/-- A chunk that is visited: what its reader returns, and the handle behind it. PROP and DIIN
are visited when their loops are left. -/
structure Visit where
  place : Place
  type : ChunkType
  ret : Except Error Unit
  handle : Handle
deriving DecidableEq

/-- The reader `dsdiff_parse_frm8` calls for a chunk without a loop of its own. -/
def frm8Reader (s : Parse) : ChunkType → Dsd Unit
  | .frm8 => pure ()
  | .fver => readFver
  | .dsd => readDsd
  | .dst => readDst
  | .dsti => readDsti
  | .comt => readComt
  | .id3 => if s.frm8.id3Count = 0 then readFileId3 else readTrackId3 (s.frm8.id3Count - 1)
  | .manf => readManf
  | _ => liftIo chunkSkip

/-- That of `dsdiff_parse_prop`. -/
def propReader (nameLen : Nat → Nat) (s : Parse) : ChunkType → Dsd Unit
  | .fs => readFs
  | .chnl => readChnl
  | .cmpr => readCmpr (nameLen s.env.io.pos)
  | .abss => readAbss
  | .lsco => readLsco
  | _ => liftIo chunkSkip

/-- That of `dsdiff_parse_diin`. -/
def diinReader : ChunkType → Dsd Unit
  | .emid => readEmid
  | .diar => readDiar
  | .diti => readDiti
  | .mark => readMark
  | _ => liftIo chunkSkip

/-- A visit of a chunk by its reader. -/
def visitOf (place : Place) (type : ChunkType) (m : Dsd Unit) (env : OpenHandle) : Visit :=
  ⟨place, type, (m env).1, (m env).2.handle⟩

/-- What is visited behind an id in the outer loop: of PROP and DIIN only a failing head. -/
def frm8Visits (s : Parse) : ChunkType → List Visit
  | .prop =>
    match chunkReadPropHeader s.env.io with
    | (.ok _, _) => []
    | (.error e, _) => [⟨.frm8, .prop, .error e, s.env.handle⟩]
  | .diin =>
    match chunkReadDiinHeader s.env.io with
    | (.ok _, _) => []
    | (.error e, _) => [⟨.frm8, .diin, .error e, s.env.handle⟩]
  | type => [visitOf .frm8 type (frm8Reader s type) s.env]

/-- What is visited behind an id in an inner loop, which an error leaves. -/
def innerVisits (place : Place) (outer type : ChunkType) (m : Dsd Unit) (env : OpenHandle) :
    List Visit :=
  match m env with
  | (.ok (), env) => [⟨place, type, .ok (), env.handle⟩]
  | (.error e, env) => [⟨place, type, .error e, env.handle⟩, ⟨.frm8, outer, .error e, env.handle⟩]

/-- The chunks a turn visits. -/
def turnVisits (nameLen : Nat → Nat) (s : Parse) : List Visit :=
  match s.inner with
  | none =>
    if s.frm8.chunkSize < s.env.io.pos then []
    else
      match chunkReadHeader s.env.io with
      | (.error _, _) => []
      | (.ok chunkId, io) => frm8Visits { s with env := { s.env with io := io } } chunkId
  | some (.prop l) =>
    if l.endPos ≤ s.env.io.pos then
      [⟨.frm8, .prop, if s.env.io.pos = l.endPos then .ok () else .error .unexpectedEof,
        s.env.handle⟩]
    else
      match chunkReadHeader s.env.io with
      | (.error _, _) => [⟨.frm8, .prop, l.check, s.env.handle⟩]
      | (.ok chunkId, io) =>
        innerVisits .prop .prop chunkId
          (propReader nameLen { s with env := { s.env with io := io } } chunkId)
          { s.env with io := io }
  | some (.diin endPos) =>
    if endPos ≤ s.env.io.pos then
      [⟨.frm8, .diin, if s.env.io.pos = endPos then .ok () else .error .unexpectedEof,
        s.env.handle⟩]
    else
      match chunkReadHeader s.env.io with
      | (.error _, _) => [⟨.frm8, .diin, .ok (), s.env.handle⟩]
      | (.ok chunkId, io) =>
        innerVisits .diin .diin chunkId (diinReader chunkId) { s.env with io := io }

/-- Those of so many turns. -/
def visitsFrom (nameLen : Nat → Nat) : Nat → Parse → List Visit
  | 0, _ => []
  | n + 1, s => turnVisits nameLen s ++
    match parseTurn nameLen s with
    | .inl t => visitsFrom nameLen n t
    | .inr _ => []

/-- The chunks `dsdiff_open` visits behind the head of a file. -/
def visits (nameLen : Nat → Nat) (fuel : Nat) (content : List UInt8) : List Visit :=
  match parseHead ⟨{ new with mode := .read }, ⟨content, 0⟩⟩ with
  | (.ok chunkSize, env) =>
    visitsFrom nameLen fuel ⟨env, { chunkSize := chunkSize }, none⟩
  | (.error _, _) => []

/-- How often a chunk is visited in a loop. -/
def countOf (vs : List Visit) (place : Place) (type : ChunkType) : Nat :=
  vs.countP fun v => v.place = place ∧ v.type = type

/-- PROP has what it has to have. -/
structure PropComplete (vs : List Visit) : Prop where
  fs : countOf vs .prop .fs = 1
  chnl : countOf vs .prop .chnl = 1
  cmpr : countOf vs .prop .cmpr = 1
  abss : countOf vs .prop .abss ≤ 1
  lsco : countOf vs .prop .lsco ≤ 1

/-- What a file that is accepted has to be like. -/
structure WellFormed (vs : List Visit) (isDstFormat : Bool) : Prop where
  parsed : ∀ v ∈ vs, v.ret = .ok ()
  fver : countOf vs .frm8 .fver = 1
  version : ∀ v ∈ vs, v.place = .frm8 → v.type = .fver → majorVersion v.handle = 1
  prop : countOf vs .frm8 .prop ≤ 1
  comt : countOf vs .frm8 .comt ≤ 1
  diin : countOf vs .frm8 .diin ≤ 1
  sound : countOf vs .frm8 (if isDstFormat then .dst else .dsd) = 1
  other : countOf vs .frm8 (if isDstFormat then .dsd else .dst) = 0
  complete : 0 < countOf vs .frm8 .prop → PropComplete vs

/-- The last chunk that is visited fails, PROP is not complete, or there is an index. -/
def Overlooked (vs : List Visit) : Prop :=
  (∃ v, vs.getLast? = some v ∧ v.ret ≠ .ok ()) ∨
    (0 < countOf vs .frm8 .prop ∧ ¬ PropComplete vs) ∨ 0 < countOf vs .frm8 .dsti

/-! ## The counts of the parse -/

/-- The counts are those of the visits. -/
structure CountsOf (l : Frm8) (vs : List Visit) : Prop where
  fver : l.fverCount = countOf vs .frm8 .fver
  prop : l.propCount = countOf vs .frm8 .prop
  comt : l.comtCount = countOf vs .frm8 .comt
  diin : l.diinCount = countOf vs .frm8 .diin
  dsd : l.dsdCount = countOf vs .frm8 .dsd
  dst : l.dstCount = countOf vs .frm8 .dst + countOf vs .frm8 .dsti

/-- A visit that went well, with the right version where it is one of FVER. -/
def Visit.Fine (v : Visit) : Prop :=
  v.ret = .ok () ∧ (v.place = .frm8 → v.type = .fver → majorVersion v.handle = 1)

/-- While the parse runs, all visits went well and are counted. -/
structure Tracks (vs : List Visit) (s : Parse) : Prop where
  fine : ∀ v ∈ vs, v.Fine
  counts : CountsOf s.frm8 vs

/-- The same where the parse has ended with a success, but for what the last turn visits. -/
def TracksEnd (vs : List Visit) (r : Outcome) : Prop :=
  r.1 = .ok () → ∃ l, CountsOf l vs ∧ l.check r.2.handle.isDstFormat = .ok () ∧
    ((∀ v, vs.getLast? = some v → v.ret = .ok ()) → ∀ v ∈ vs, v.Fine)

@[simp] theorem countOf_append (vs us : List Visit) (place : Place) (type : ChunkType) :
    countOf (vs ++ us) place type = countOf vs place type + countOf us place type :=
  List.countP_append

@[simp] theorem countOf_nil (place : Place) (type : ChunkType) : countOf [] place type = 0 := rfl

@[simp] theorem countOf_cons (v : Visit) (vs : List Visit) (place : Place) (type : ChunkType) :
    countOf (v :: vs) place type =
      countOf vs place type + if v.place = place ∧ v.type = type then 1 else 0 := by
  unfold countOf
  rw [List.countP_cons]
  simp

/-- What holds after a turn. -/
def TracksTurn (vs : List Visit) : Parse ⊕ Outcome → Prop
  | .inl t => Tracks vs t
  | .inr r => TracksEnd vs r

section Turn

variable {pre : List Visit} {s : Parse}

/-- A further visit in the outer loop, and the counts of it. -/
theorem CountsOf.next {l l' : Frm8} (h : CountsOf l pre) {type : ChunkType} {v : Visit}
    (hplace : v.place = .frm8) (htype : v.type = type)
    (hfver : l'.fverCount = l.fverCount + if type = .fver then 1 else 0)
    (hprop : l'.propCount = l.propCount + if type = .prop then 1 else 0)
    (hcomt : l'.comtCount = l.comtCount + if type = .comt then 1 else 0)
    (hdiin : l'.diinCount = l.diinCount + if type = .diin then 1 else 0)
    (hdsd : l'.dsdCount = l.dsdCount + if type = .dsd then 1 else 0)
    (hdst : l'.dstCount = l.dstCount + if type = .dst ∨ type = .dsti then 1 else 0) :
    CountsOf l' (pre ++ [v]) := by
  subst htype
  constructor
  · simp [hfver, h.fver, hplace]
  · simp [hprop, h.prop, hplace]
  · simp [hcomt, h.comt, hplace]
  · simp [hdiin, h.diin, hplace]
  · simp [hdsd, h.dsd, hplace]
  · rw [hdst, h.dst]
    simp only [countOf_append, countOf_cons, countOf_nil, hplace, true_and]
    by_cases hd : v.type = .dst
    · simp [hd]
      omega
    · simp [hd]
      omega

/-- Visits in an inner loop are not counted. -/
theorem CountsOf.inner {l : Frm8} (h : CountsOf l pre) {v : Visit} (hplace : v.place ≠ .frm8) :
    CountsOf l (pre ++ [v]) := by
  constructor <;> simp [hplace, h.fver, h.prop, h.comt, h.diin, h.dsd, h.dst]

/-- An error ends the parse, and the last visit shows it. -/
theorem tracksTurn_resume {v : Visit} {ret : Except Error Unit} (hret : v.ret = ret)
    (hs : CountsOf s.frm8 (pre ++ [v])) (hfine : ret = .ok () → ∀ u ∈ pre ++ [v], u.Fine) :
    TracksTurn (pre ++ [v]) (s.resume ret) := by
  cases ret with
  | ok u => exact ⟨hfine rfl, hs⟩
  | error e =>
    intro hcheck
    refine ⟨s.frm8, hs, hcheck, fun hlast => ?_⟩
    have herror := hlast v (List.getLast?_concat ..)
    rw [hret] at herror
    cases herror

theorem Tracks.fine_concat (hs : Tracks pre s) {v : Visit} (hv : v.Fine) :
    ∀ u ∈ pre ++ [v], u.Fine := by
  intro u hu
  rcases List.mem_append.1 hu with hu | hu
  · exact hs.fine u hu
  · obtain rfl := List.mem_singleton.1 hu
    exact hv

/-- A chunk with a reader of its own is visited and counted. -/
theorem tracksTurn_call (hs : Tracks pre s) {type : ChunkType} {m : Dsd Unit}
    {count : Frm8 → Frm8} (htype : type ≠ .fver)
    (hcount : CountsOf (count s.frm8) (pre ++ [visitOf .frm8 type m s.env])) :
    TracksTurn (pre ++ [visitOf .frm8 type m s.env]) (s.call m count) :=
  tracksTurn_resume (s := { s with env := (m s.env).2, frm8 := count s.frm8 }) rfl hcount
    fun hok => hs.fine_concat ⟨hok, fun _ h => absurd h htype⟩

/-- The loop over PROP is left, behind visits that went well unless it is left with an error. -/
theorem tracksTurn_leaveProp {h : Handle} {ret : Except Error Unit} (hs : CountsOf s.frm8 pre)
    (hfine : ret = .ok () → ∀ u ∈ pre, u.Fine) :
    TracksTurn (pre ++ [⟨.frm8, .prop, ret, h⟩]) (s.leaveProp ret) := by
  refine tracksTurn_resume rfl (hs.next rfl rfl rfl rfl rfl rfl rfl rfl) fun hok u hu => ?_
  rcases List.mem_append.1 hu with hu | hu
  · exact hfine hok u hu
  · obtain rfl := List.mem_singleton.1 hu
    exact ⟨hok, fun _ => nofun⟩

/-- The same for DIIN. -/
theorem tracksTurn_leaveDiin {h : Handle} {ret : Except Error Unit} (hs : CountsOf s.frm8 pre)
    (hfine : ret = .ok () → ∀ u ∈ pre, u.Fine) :
    TracksTurn (pre ++ [⟨.frm8, .diin, ret, h⟩]) (s.leaveDiin ret) := by
  refine tracksTurn_resume rfl (hs.next rfl rfl rfl rfl rfl rfl rfl rfl) fun hok u hu => ?_
  rcases List.mem_append.1 hu with hu | hu
  · exact hfine hok u hu
  · obtain rfl := List.mem_singleton.1 hu
    exact ⟨hok, fun _ => nofun⟩

/-- FVER: a version that is not right is no visit that went well. -/
theorem tracksTurn_fverChunk (hs : Tracks pre s) :
    TracksTurn (pre ++ [visitOf .frm8 .fver readFver s.env]) (fverChunk s) := by
  have hcount : CountsOf { s.frm8 with fverCount := s.frm8.fverCount + 1 }
      (pre ++ [visitOf .frm8 .fver readFver s.env]) :=
    hs.counts.next rfl rfl rfl rfl rfl rfl rfl rfl
  unfold fverChunk
  unfold visitOf at hcount ⊢
  generalize readFver s.env = read at hcount ⊢
  obtain ⟨e | u, env⟩ := read
  · exact tracksTurn_resume (show _ = Except.error e from rfl) hcount nofun
  · dsimp only
    split
    · exact nofun
    · next hversion =>
      exact ⟨hs.fine_concat ⟨rfl, fun _ _ => not_not.1 hversion⟩, hcount⟩

theorem tracksTurn_frm8Chunk (hs : Tracks pre s) (type : ChunkType) :
    TracksTurn (pre ++ frm8Visits s type) (frm8Chunk s type) := by
  cases type with
  | fver => exact tracksTurn_fverChunk hs
  | prop =>
    unfold frm8Visits frm8Chunk propEnter
    rcases chunkReadPropHeader s.env.io with ⟨e | size, io⟩
    · exact tracksTurn_leaveProp hs.counts nofun
    · rw [List.append_nil]
      exact ⟨hs.fine, hs.counts⟩
  | diin =>
    unfold frm8Visits frm8Chunk diinEnter
    rcases chunkReadDiinHeader s.env.io with ⟨e | size, io⟩
    · exact tracksTurn_leaveDiin hs.counts nofun
    · rw [List.append_nil]
      exact ⟨hs.fine, hs.counts⟩
  | _ =>
    unfold frm8Visits frm8Chunk frm8Reader
    refine tracksTurn_call hs nofun (hs.counts.next rfl rfl ?_ ?_ ?_ ?_ ?_ ?_)
    all_goals rfl

/-! ## The inner loops -/

theorem propChunk_eq (nameLen : Nat → Nat) (s : Parse) (l : PropLoop) (type : ChunkType) :
    ∃ l', propChunk nameLen s l type = s.propCall l' (propReader nameLen s type) := by
  cases type <;> exact ⟨_, rfl⟩

theorem diinChunk_eq (s : Parse) (type : ChunkType) :
    diinChunk s type = s.diinCall (diinReader type) := by
  cases type <;> rfl

/-- A chunk in an inner loop, which goes on or is left with the error. -/
theorem Tracks.inner (hs : Tracks pre s) {p : Place} (hplace : p ≠ .frm8)
    (type : ChunkType) (h : Handle) :
    (∀ u ∈ pre ++ [⟨p, type, .ok (), h⟩], u.Fine) ∧
      CountsOf s.frm8 (pre ++ [⟨p, type, .ok (), h⟩]) :=
  ⟨hs.fine_concat ⟨rfl, fun hfrm8 => absurd hfrm8 hplace⟩, hs.counts.inner hplace⟩

theorem tracksTurn_propChunk (hs : Tracks pre s) (nameLen : Nat → Nat) (l : PropLoop)
    (type : ChunkType) :
    TracksTurn (pre ++ innerVisits .prop .prop type (propReader nameLen s type) s.env)
      (propChunk nameLen s l type) := by
  obtain ⟨l', hchunk⟩ := propChunk_eq nameLen s l type
  rw [hchunk]
  unfold innerVisits Parse.propCall
  rcases propReader nameLen s type s.env with ⟨e | u, env⟩
  · have hsub : CountsOf s.frm8 (pre ++ [⟨.prop, type, .error e, env.handle⟩]) :=
      hs.counts.inner nofun
    have hleave := tracksTurn_leaveProp (s := { s with env := env }) (h := env.handle) hsub
      (show Except.error e = .ok () → _ from nofun)
    rwa [List.append_assoc] at hleave
  · obtain ⟨hfine, hcounts⟩ := hs.inner (p := .prop) nofun type env.handle
    exact ⟨hfine, hcounts⟩

theorem tracksTurn_diinChunk (hs : Tracks pre s) (type : ChunkType) :
    TracksTurn (pre ++ innerVisits .diin .diin type (diinReader type) s.env)
      (diinChunk s type) := by
  rw [diinChunk_eq]
  unfold innerVisits Parse.diinCall
  rcases diinReader type s.env with ⟨e | u, env⟩
  · have hsub : CountsOf s.frm8 (pre ++ [⟨.diin, type, .error e, env.handle⟩]) :=
      hs.counts.inner nofun
    have hleave := tracksTurn_leaveDiin (s := { s with env := env }) (h := env.handle) hsub
      (show Except.error e = .ok () → _ from nofun)
    rwa [List.append_assoc] at hleave
  · obtain ⟨hfine, hcounts⟩ := hs.inner (p := .diin) nofun type env.handle
    exact ⟨hfine, hcounts⟩

/-- Where the outer loop ends between chunks. -/
theorem tracksEnd_check (hs : Tracks pre s) (env : OpenHandle)
    (henv : env.handle = s.env.handle) :
    TracksEnd (pre ++ []) (s.frm8.check s.env.handle.isDstFormat, env) := by
  intro hcheck
  rw [List.append_nil]
  exact ⟨s.frm8, hs.counts, henv ▸ hcheck, fun _ => hs.fine⟩

/-- A turn keeps the counts those of the visits. -/
theorem tracksTurn_parseTurn (hs : Tracks pre s) (nameLen : Nat → Nat) :
    TracksTurn (pre ++ turnVisits nameLen s) (parseTurn nameLen s) := by
  have hnext : ∀ io, Tracks pre { s with env := { s.env with io := io } } :=
    fun io => ⟨hs.fine, hs.counts⟩
  unfold turnVisits parseTurn
  rcases hinner : s.inner with _ | l | endPos
  · unfold frm8Turn
    dsimp only
    split
    · exact tracksEnd_check hs s.env rfl
    · rcases chunkReadHeader s.env.io with ⟨e | type, io⟩
      · exact tracksEnd_check hs { s.env with io := io } rfl
      · exact tracksTurn_frm8Chunk (hnext io) type
  · unfold propTurn
    dsimp only
    split
    · exact tracksTurn_leaveProp hs.counts fun _ => hs.fine
    · rcases chunkReadHeader s.env.io with ⟨e | type, io⟩
      · exact tracksTurn_leaveProp (s := { s with env := { s.env with io := io } }) hs.counts
          fun _ => hs.fine
      · exact tracksTurn_propChunk (hnext io) nameLen l type
  · unfold diinTurn
    dsimp only
    split
    · exact tracksTurn_leaveDiin hs.counts fun _ => hs.fine
    · rcases chunkReadHeader s.env.io with ⟨e | type, io⟩
      · exact tracksTurn_leaveDiin (s := { s with env := { s.env with io := io } }) hs.counts
          fun _ => hs.fine
      · exact tracksTurn_diinChunk (hnext io) type

end Turn

/-! ## The whole parse -/

/-- A run of the loop, behind visits that are counted already. -/
theorem tracksEnd_iterate {nameLen : Nat → Nat} {n : Nat} {pre : List Visit} {s : Parse}
    {r : Outcome} (hs : Tracks pre s) (h : Loop.iterate (parseTurn nameLen) n s = some r) :
    TracksEnd (pre ++ visitsFrom nameLen n s) r := by
  induction n generalizing pre s with
  | zero => cases h
  | succ n ih =>
    have hturn := tracksTurn_parseTurn hs nameLen
    unfold visitsFrom
    cases hnext : parseTurn nameLen s with
    | inl t =>
      rw [hnext] at hturn
      rw [Loop.iterate_succ_inl hnext] at h
      rw [← List.append_assoc]
      exact ih hturn h
    | inr q =>
      rw [hnext] at hturn
      rw [Loop.iterate_succ_inr hnext] at h
      cases h
      rw [List.append_nil]
      exact hturn

theorem tracksEnd_parseFile {nameLen : Nat → Nat} {fuel : Nat} {content : List UInt8}
    {r : Outcome} (h : parseFile nameLen fuel .read content = some r) (hok : r.1 = .ok ()) :
    TracksEnd (visits nameLen fuel content) r := by
  unfold parseFile at h
  unfold visits
  generalize parseHead ⟨{ new with mode := .read }, ⟨content, 0⟩⟩ = head at h ⊢
  obtain ⟨e | chunkSize, env⟩ := head
  · cases h
    cases hok
  · have hcounts : CountsOf { chunkSize := chunkSize } [] := ⟨rfl, rfl, rfl, rfl, rfl, rfl⟩
    have hstart : Tracks [] ⟨env, { chunkSize := chunkSize }, none⟩ :=
      ⟨fun v hv => absurd hv List.not_mem_nil, hcounts⟩
    have hrun := tracksEnd_iterate hstart h
    rwa [List.nil_append] at hrun

theorem Frm8.check_eq_ok {l : Frm8} {isDstFormat : Bool} (h : l.check isDstFormat = .ok ()) :
    l.fverCount = 1 ∧ l.propCount ≤ 1 ∧ l.comtCount ≤ 1 ∧ l.diinCount ≤ 1 ∧
      (if isDstFormat then l.dstCount = 1 ∧ l.dsdCount = 0
      else l.dsdCount = 1 ∧ l.dstCount = 0) := by
  unfold Frm8.check at h
  grind

/-- What the checks behind the loop say of the visits. -/
theorem CountsOf.wellFormed_iff {l : Frm8} {vs : List Visit} {isDstFormat : Bool}
    (hcounts : CountsOf l vs) (hcheck : l.check isDstFormat = .ok ())
    (hfine : (∀ v, vs.getLast? = some v → v.ret = .ok ()) → ∀ v ∈ vs, v.Fine) :
    WellFormed vs isDstFormat ↔ ¬ Overlooked vs := by
  obtain ⟨hfver, hprop, hcomt, hdiin, hsound⟩ := Frm8.check_eq_ok hcheck
  rw [hcounts.fver] at hfver
  rw [hcounts.prop] at hprop
  rw [hcounts.comt] at hcomt
  rw [hcounts.diin] at hdiin
  rw [hcounts.dsd, hcounts.dst] at hsound
  constructor
  · rintro hwell (⟨v, hv, hfail⟩ | ⟨hpos, hnot⟩ | hindex)
    · exact hfail (hwell.parsed v (List.mem_of_getLast? hv))
    · exact hnot (hwell.complete hpos)
    · have hone := hwell.sound
      have hnone := hwell.other
      cases isDstFormat with
      | true => simp only [if_true] at hone hsound; omega
      | false => simp only [Bool.false_eq_true, if_false] at hone hsound; omega
  · intro hclear
    simp only [Overlooked, not_or, not_exists, not_and, not_not] at hclear
    obtain ⟨hlast, hcomplete, hindex⟩ := hclear
    have hall := hfine hlast
    exact
      { parsed := fun v hv => (hall v hv).1
        fver := hfver
        version := fun v hv => (hall v hv).2
        prop := hprop
        comt := hcomt
        diin := hdiin
        sound := by
          cases isDstFormat with
          | true => simp only [if_true] at hsound ⊢; omega
          | false => simp only [Bool.false_eq_true, if_false] at hsound ⊢; omega
        other := by
          cases isDstFormat with
          | true => simp only [if_true] at hsound ⊢; omega
          | false => simp only [Bool.false_eq_true, if_false] at hsound ⊢; omega
        complete := hcomplete }

/-- A file that is accepted is as it has to be, unless something is overlooked in it. -/
theorem accepted_wellFormed_iff {nameLen : Nat → Nat} {fuel : Nat} {content : List UInt8}
    {s : OpenHandle} (h : dsdiffOpen nameLen fuel content = some (.ok s)) :
    WellFormed (visits nameLen fuel content) s.handle.isDstFormat ↔
      ¬ Overlooked (visits nameLen fuel content) := by
  obtain ⟨env, hparse, -, hhandle⟩ := dsdiffOpen_eq_ok h
  obtain ⟨l, hcounts, hcheck, hfine⟩ := tracksEnd_parseFile hparse rfl rfl
  rw [hhandle]
  exact hcounts.wellFormed_iff hcheck hfine

theorem accepted_wellFormed_iff_stereo :
    ∃ s, dsdiffOpen (fun _ => 255) 40 stereoFile = some (.ok s) ∧
      WellFormed (visits (fun _ => 255) 40 stereoFile) s.handle.isDstFormat := by
  obtain ⟨s, hopen, -⟩ := dsdiffOpen_of_check (fun _ => true)
    (show (dsdiffOpen (fun _ => 255) 40 stereoFile).any _ = true by
      rw [stereoFile_bytes]
      decide +kernel)
  refine ⟨s, hopen, (accepted_wellFormed_iff hopen).2 ?_⟩
  generalize hvs : visits _ _ _ = vs
  have hcheck : (∀ v ∈ vs, v.ret = .ok ()) ∧ countOf vs .prop .fs = 1 ∧
      countOf vs .prop .chnl = 1 ∧ countOf vs .prop .cmpr = 1 ∧ countOf vs .prop .abss ≤ 1 ∧
      countOf vs .prop .lsco ≤ 1 ∧ countOf vs .frm8 .dsti = 0 := by
    rw [← hvs, stereoFile_bytes]
    decide +kernel
  obtain ⟨hall, hfs, hchnl, hcmpr, habss, hlsco, hnone⟩ := hcheck
  rintro (⟨v, hv, hfail⟩ | ⟨-, hnot⟩ | hindex)
  · exact hfail (hall v (List.mem_of_getLast? hv))
  · exact hnot ⟨hfs, hchnl, hcmpr, habss, hlsco⟩
  · omega

/-- A file with a sound chunk that ends in a PROP of nothing but a sample rate. -/
def incompleteFile : List UInt8 :=
  let chunks := ChunkType.fver.fourcc ++ toBe 8 4 ++ toBe 4 0x01050000 ++
    ChunkType.prop.fourcc ++ toBe 8 4 ++ ChunkType.snd.fourcc ++
    ChunkType.dsd.fourcc ++ toBe 8 0
  ChunkType.frm8.fourcc ++ toBe 8 (chunks.length + 4) ++ ChunkType.dsd.fourcc ++ chunks

/-- A file without any channels is accepted. -/
theorem incomplete_accepted :
    ∃ s, dsdiffOpen (fun _ => 255) 40 incompleteFile = some (.ok s) ∧
      ¬ WellFormed (visits (fun _ => 255) 40 incompleteFile) s.handle.isDstFormat := by
  obtain ⟨s, hopen, -⟩ := dsdiffOpen_of_check (fun _ => true)
    (show (dsdiffOpen (fun _ => 255) 40 incompleteFile).any _ = true by decide +kernel)
  refine ⟨s, hopen, fun hwell => ?_⟩
  have hprop : 0 < countOf (visits (fun _ => 255) 40 incompleteFile) .frm8 .prop := by
    decide +kernel
  have hchnl : countOf (visits (fun _ => 255) 40 incompleteFile) .prop .chnl = 0 := by
    decide +kernel
  have hone := (hwell.complete hprop).chnl
  omega

end DsdNexus.Dsdiff
