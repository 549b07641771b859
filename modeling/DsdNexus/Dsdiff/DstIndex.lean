import DsdNexus.Dsdiff.MetadataBytes
import DsdNexus.Dsdiff.Opened

/-! # DSDIFF: the index of the DST frames

`dsdiff_read_index` loads the table of a DSTI chunk when it is first asked for, with as many
entries as the FRTE chunk counts frames. A file that is accepted has one chunk of DST data
at most, and DSTI counts as one.
-/

namespace DsdNexus.Dsdiff

open Program FileProgram Endian

/-- `dsdiff_read_index`: a table that cannot be read is given up. -/
def readIndex : Dsd Unit := fun s =>
  if s.handle.hasIndex = false ∨ s.handle.dstFrameCount = 0 ∨ s.handle.reservedIndexCount ≠ 0 then
    (.ok (), s)
  else if maxAllocSize < s.handle.dstFrameCount.toNat * indexSize then
    (.error .outOfMemory, { s with handle := { s.handle with indexes := [] } })
  else
    match chunkReadDstiContents s.handle.indexFileStart s.handle.dstFrameCount.toNat s.io with
    | (.ok indexes, io) =>
      (.ok (), ⟨{ s.handle with indexes, reservedIndexCount := s.handle.dstFrameCount }, io⟩)
    | (.error e, io) => (.error e, ⟨{ s.handle with indexes := [], reservedIndexCount := 0 }, io⟩)

/-- `handle->indexes[frame_index]`. -/
def indexAt (frameIndex : UInt32) : Dsd Index := fun s =>
  match s.handle.indexes[frameIndex.toNat]? with
  | some index => (.ok index, s)
  | none => (.error .undefined, s)

/-- `dsdiff_seek_dst_frame`: the table is not loaded here. -/
def seekDstFrame (frameIndex : UInt32) : Dsd Unit := do
  let s ← get
  require (s.handle.hasIndex = true) .noDstIndex
  require (frameIndex < s.handle.dstFrameCount) .endOfData
  let index ← indexAt frameIndex
  liftIo (ioSeekSet index.offset)

/-- `dsdiff_read_dst_frame_at_index`. -/
def readDstFrameAtIndex (frameIndex maxFrameSize : UInt32) : Dsd (List UInt8) := do
  readIndex
  let s ← get
  require (s.handle.hasIndex = true) .noDstIndex
  require (frameIndex < s.handle.dstFrameCount) .endOfData
  let index ← indexAt frameIndex
  require (index.length ≤ maxFrameSize) .bufferTooSmall
  liftIo (chunkReadContents index.offset index.length.toNat)

/-- `dsdiff_read_dst_frame_at_index_with_crc`: the frame and its CRC. -/
def readDstFrameAtIndexWithCrc (frameIndex maxFrameSize maxCrcSize : UInt32) :
    Dsd (List UInt8 × List UInt8) := do
  let dstData ← readDstFrameAtIndex frameIndex maxFrameSize
  let s ← get
  if s.handle.hasCrc then
    require (s.handle.crcSize ≤ maxCrcSize) .bufferTooSmall
    let index ← indexAt frameIndex
    let crcFilePos := (index.offset + index.length.toNat + index.length.toNat % 2 + 12) % 2 ^ 64
    let crcData ← liftIo (chunkReadContents crcFilePos s.handle.crcSize.toNat)
    pure (dstData, crcData)
  else
    pure (dstData, [])

/-- `dsdiff_get_dst_frame_size`: the number is compared with the size of the table, and one
beyond it is no error. -/
def getDstFrameSize (frameIndex : UInt32) : Dsd UInt32 := do
  readIndex
  let s ← get
  require (s.handle.hasIndex = true) .noDstIndex
  if s.handle.reservedIndexCount < frameIndex then
    pure 0
  else
    let index ← indexAt frameIndex
    pure index.length

/-! ## Requests -/

/-- A call that looks up a frame in the table. -/
inductive IndexRequest where
  | seek (frameIndex : UInt32)
  | readAt (frameIndex maxFrameSize : UInt32)
  | readAtWithCrc (frameIndex maxFrameSize maxCrcSize : UInt32)
  | frameSize (frameIndex : UInt32)
deriving DecidableEq

namespace IndexRequest

def frameIndex : IndexRequest → UInt32
  | .seek frameIndex => frameIndex
  | .readAt frameIndex _ => frameIndex
  | .readAtWithCrc frameIndex _ _ => frameIndex
  | .frameSize frameIndex => frameIndex

/-- Whether the size of a frame is asked for. -/
def asksSize : IndexRequest → Bool
  | .frameSize _ => true
  | _ => false

def run : IndexRequest → Dsd Unit
  | .seek frameIndex => seekDstFrame frameIndex
  | .readAt frameIndex maxFrameSize => do
    let _ ← readDstFrameAtIndex frameIndex maxFrameSize
    pure ()
  | .readAtWithCrc frameIndex maxFrameSize maxCrcSize => do
    let _ ← readDstFrameAtIndexWithCrc frameIndex maxFrameSize maxCrcSize
    pure ()
  | .frameSize frameIndex => do
    let _ ← getDstFrameSize frameIndex
    pure ()

end IndexRequest

/-- What the table holds has been read from the file. -/
def TableLoaded (s : OpenHandle) : Prop :=
  s.handle.indexes = [] ∨ ∃ pos, (chunkReadDstiContents s.handle.indexFileStart
    s.handle.dstFrameCount.toNat ⟨s.io.content, pos⟩).1 = .ok s.handle.indexes

/-- A request that is served has its entry in the loaded table and its number below the count
of the frames, and one that is not touches no other memory. -/
structure IndexRequest.UsedSafely (q : IndexRequest) (s : OpenHandle) : Prop where
  inTable : (q.run s).1 ≠ .error .undefined
  loaded : TableLoaded (q.run s).2
  served : (q.run s).1 = .ok () → q.frameIndex < (q.run s).2.handle.dstFrameCount ∧
    q.frameIndex.toNat < (q.run s).2.handle.indexes.length

/-- All of the requests, one after the other. -/
def AllUsedSafely : List IndexRequest → OpenHandle → Prop
  | [], _ => True
  | q :: qs, s => q.UsedSafely s ∧ AllUsedSafely qs (q.run s).2

/-! ## A table that is not there -/

/-- No table has been loaded, and none is loaded: a file with an index has no frames. -/
structure NoTable (s : OpenHandle) : Prop where
  indexes : s.handle.indexes = []
  reservedIndexCount : s.handle.reservedIndexCount = 0
  noFrames : s.handle.hasIndex = true → s.handle.dstFrameCount = 0

section NoTable

variable {s : OpenHandle}

theorem NoTable.readIndex (h : NoTable s) : readIndex s = (.ok (), s) := by
  unfold Dsdiff.readIndex
  rw [if_pos]
  by_cases hindex : s.handle.hasIndex = false
  · exact .inl hindex
  · exact .inr (.inl (h.noFrames (by simpa using hindex)))

/-- What the two checks in front of an entry come to, then. -/
theorem NoTable.refuses (h : NoTable s) {α : Type} (frameIndex : UInt32) (k : Dsd α) :
    (do
      require (s.handle.hasIndex = true) .noDstIndex
      require (frameIndex < s.handle.dstFrameCount) .endOfData
      k : Dsd α) s = (.error (if s.handle.hasIndex then .endOfData else .noDstIndex), s) := by
  by_cases hindex : s.handle.hasIndex = true
  · have hbound : ¬ frameIndex < s.handle.dstFrameCount := by
      rw [h.noFrames hindex, UInt32.lt_iff_toNat_lt]
      exact Nat.not_lt_zero _
    rw [require_bind hindex, require_bind_not hbound, if_pos hindex]
  · rw [require_bind_not hindex, if_neg hindex]

theorem NoTable.seekDstFrame (h : NoTable s) (frameIndex : UInt32) :
    seekDstFrame frameIndex s =
      (.error (if s.handle.hasIndex then .endOfData else .noDstIndex), s) :=
  h.refuses frameIndex _

theorem NoTable.readDstFrameAtIndex (h : NoTable s) (frameIndex maxFrameSize : UInt32) :
    readDstFrameAtIndex frameIndex maxFrameSize s =
      (.error (if s.handle.hasIndex then .endOfData else .noDstIndex), s) := by
  unfold Dsdiff.readDstFrameAtIndex
  rw [bind_of_ok h.readIndex]
  exact h.refuses frameIndex _

/-- A request that does not ask for a size is refused. -/
theorem NoTable.run (h : NoTable s) {q : IndexRequest} (hq : q.asksSize = false) :
    q.run s = (.error (if s.handle.hasIndex then .endOfData else .noDstIndex), s) := by
  cases q with
  | seek frameIndex => exact h.seekDstFrame frameIndex
  | readAt frameIndex maxFrameSize =>
    exact bind_of_error (h.readDstFrameAtIndex frameIndex maxFrameSize)
  | readAtWithCrc frameIndex maxFrameSize maxCrcSize =>
    exact bind_of_error (bind_of_error (h.readDstFrameAtIndex frameIndex maxFrameSize))
  | frameSize frameIndex => cases hq

/-- One that does reads the entry 0 of the missing table, and any other frame has size 0. -/
theorem NoTable.run_frameSize (h : NoTable s) (frameIndex : UInt32) :
    (IndexRequest.frameSize frameIndex).run s =
      (if s.handle.hasIndex = false then .error .noDstIndex
        else if frameIndex = 0 then .error .undefined else .ok (), s) := by
  change (getDstFrameSize frameIndex >>= fun _ => pure ()) s = _
  unfold getDstFrameSize
  rw [bind_apply, bind_of_ok h.readIndex, bind_of_ok (get_apply s)]
  by_cases hindex : s.handle.hasIndex = true
  · have hthere : ¬ s.handle.hasIndex = false := by simp [hindex]
    rw [require_bind hindex, if_neg hthere]
    by_cases hzero : frameIndex = 0
    · subst hzero
      have hwithin : ¬ s.handle.reservedIndexCount < 0 := by
        rw [h.reservedIndexCount]
        decide
      rw [if_neg hwithin, if_pos rfl]
      simp [bind_apply, indexAt, h.indexes]
    · have hbeyond : s.handle.reservedIndexCount < frameIndex := by
        have hne : frameIndex.toNat ≠ 0 := fun h0 => hzero (UInt32.toNat_inj.1 h0)
        rw [h.reservedIndexCount, UInt32.lt_iff_toNat_lt]
        exact Nat.pos_of_ne_zero hne
      rw [if_pos hbeyond, if_neg hzero]
      rfl
  · rw [require_bind_not hindex, if_pos (by simpa using hindex)]

/-- No request changes anything. -/
theorem NoTable.run_snd (h : NoTable s) (q : IndexRequest) : (q.run s).2 = s := by
  cases q with
  | frameSize frameIndex => rw [h.run_frameSize]
  | _ => rw [h.run rfl]

/-- A request for a size is refused only where there is no index. -/
theorem NoTable.usedSafely_iff (h : NoTable s) (q : IndexRequest) :
    q.UsedSafely s ↔ s.handle.hasIndex = false ∨ q.asksSize = false := by
  constructor
  · intro hsafe
    cases q with
    | frameSize frameIndex =>
      refine .inl (Bool.eq_false_iff.2 fun hindex => ?_)
      have hrun := h.run_frameSize frameIndex
      rw [if_neg (by simp [hindex])] at hrun
      by_cases hzero : frameIndex = 0
      · rw [if_pos hzero] at hrun
        exact hsafe.inTable (congrArg Prod.fst hrun)
      · rw [if_neg hzero] at hrun
        have hserved := (hsafe.served (congrArg Prod.fst hrun)).2
        rw [h.run_snd, h.indexes] at hserved
        exact absurd hserved (Nat.not_lt_zero _)
    | _ => exact .inr rfl
  · intro hcond
    have hrun : ∃ e, e ≠ .undefined ∧ (q.run s).1 = .error e := by
      by_cases hsize : q.asksSize = false
      · rw [h.run hsize]
        refine ⟨_, ?_, rfl⟩
        split <;> decide
      · have hindex : s.handle.hasIndex = false := hcond.resolve_right hsize
        cases q with
        | frameSize frameIndex =>
          rw [h.run_frameSize, if_pos hindex]
          exact ⟨.noDstIndex, by decide, rfl⟩
        | _ => exact absurd rfl hsize
    obtain ⟨e, he, hrun⟩ := hrun
    refine ⟨?_, ?_, ?_⟩
    · rw [hrun]
      exact fun hundefined => he (Except.error.inj hundefined)
    · rw [h.run_snd]
      exact .inl h.indexes
    · rw [hrun]
      exact fun hok => by cases hok

theorem NoTable.allUsedSafely_iff (h : NoTable s) (qs : List IndexRequest) :
    AllUsedSafely qs s ↔ s.handle.hasIndex = false ∨ ∀ q ∈ qs, q.asksSize = false := by
  induction qs with
  | nil => simp [AllUsedSafely]
  | cons q qs ih =>
    rw [AllUsedSafely, h.run_snd, ih, h.usedSafely_iff, List.forall_mem_cons]
    exact or_and_left.symm

end NoTable

/-! ## An opened file has no table -/

/-- What DST and DSTI note, against the DST chunks that were counted. -/
structure Counted (l : Frm8) (s : OpenHandle) : Prop where
  index : s.handle.hasIndex = true → 1 ≤ l.dstCount
  frames : s.handle.dstFrameCount ≠ 0 → 1 ≤ l.dstCount
  both : s.handle.hasIndex = true → s.handle.dstFrameCount ≠ 0 → 2 ≤ l.dstCount

/-- The handles agree in what a view shows. -/
def SameView {β : Type} (view : Handle → β) (s t : OpenHandle) : Prop :=
  view t.handle = view s.handle

section SameView

variable {β : Type} {view : Handle → β}

instance : Std.Refl (SameView view) := ⟨fun _ => rfl⟩

instance : IsTrans OpenHandle (SameView view) := ⟨fun _ _ _ h h' => h'.trans h⟩

theorem sameView_liftIo {α : Type} (m : Io α) : Keeps (SameView view) (liftIo m) := fun _ => rfl

theorem sameView_update {f : Handle → Handle} (h : ∀ a, view (f a) = view a) :
    Keeps (SameView view) (update f) := fun s => h s.handle

end SameView

/-- What DST and DSTI note of the frames. -/
def Handle.dstView (h : Handle) : Bool × UInt32 := (h.hasIndex, h.dstFrameCount)

instance : Noting (SameView Handle.dstView) where
  liftIo _ := sameView_liftIo _
  update hf := sameView_update fun h => by
    have hkept := hf h
    simp only [Handle.kept, Prod.mk.injEq] at hkept
    rw [Handle.dstView, hkept.2.2.2.2.1, hkept.2.2.2.2.2]
    rfl

theorem counted_aside : Aside (SameView Handle.dstView) Counted where
  next {l l' s t} hs ht _ hcount := by
    obtain ⟨hindex, hframes⟩ : t.handle.hasIndex = s.handle.hasIndex ∧
        t.handle.dstFrameCount = s.handle.dstFrameCount := by
      simpa only [SameView, Handle.dstView, Prod.mk.injEq] using ht
    constructor
    · rw [hindex, hcount]
      exact hs.index
    · rw [hframes, hcount]
      exact hs.frames
    · rw [hindex, hframes, hcount]
      exact hs.both

theorem dstView_readDsd : Keeps (SameView Handle.dstView) readDsd := by
  refine Keeps.bind ?_ fun _ => sameView_update (by intro h; rfl)
  exact (sameView_update (by intro h; rfl)).bind fun _ => (sameView_liftIo _).bind fun _ =>
    (sameView_update (by intro h; rfl)).bind fun _ => (sameView_liftIo _).bind fun _ =>
      (sameView_update (by intro h; rfl)).bind fun _ => (sameView_liftIo _).bind fun _ =>
        (sameView_liftIo _).bind fun _ => (sameView_update (by intro h; rfl)).bind fun _ =>
          sameView_liftIo _

theorem hasIndex_skipDstc : Keeps (SameView Handle.hasIndex) skipDstc := by
  intro s
  obtain ⟨hasCrc, crcSize, hhandle⟩ := skipDstc_handle s
  unfold SameView
  rw [hhandle]

theorem hasIndex_readDst : Keeps (SameView Handle.hasIndex) readDst := by
  have hfrte : Keeps (SameView Handle.hasIndex) readFrte :=
    (sameView_liftIo _).bind fun _ => (Keeps.require _ _).bind fun _ =>
      (sameView_liftIo _).bind fun _ => (sameView_update (by intro h; rfl)).bind fun _ =>
        (sameView_liftIo _).bind fun _ => sameView_update (by intro h; rfl)
  refine Keeps.bind ?_ fun _ => (sameView_liftIo _).bind fun _ =>
    sameView_update (by intro h; rfl)
  exact (sameView_liftIo _).bind fun _ => (sameView_update (by intro h; rfl)).bind fun _ =>
    (sameView_liftIo _).bind fun _ => hfrte.bind fun _ => Keeps.get.bind fun _ =>
      Keeps.ite (fun _ => Keeps.pure ()) fun _ => (sameView_liftIo _).bind fun _ =>
        (sameView_liftIo _).bind fun _ => hasIndex_skipDstc

theorem dstFrameCount_readDsti : Keeps (SameView Handle.dstFrameCount) readDsti := by
  refine Keeps.bind ?_ fun _ => (sameView_liftIo _).bind fun _ =>
    sameView_update (by intro h; rfl)
  exact (sameView_update (by intro h; rfl)).bind fun _ => (sameView_liftIo _).bind fun _ =>
    (sameView_update (by intro h; rfl)).bind fun _ => (sameView_liftIo _).bind fun _ =>
      (sameView_update (by intro h; rfl)).bind fun _ => (sameView_liftIo _).bind fun _ =>
        (sameView_liftIo _).bind fun _ => (sameView_update (by intro h; rfl)).bind fun _ =>
          sameView_liftIo _

/-- DST notes frames, DSTI an index, and both are counted. -/
theorem counted_ofSound : OfSound Counted where
  dsd {l s} hs := by
    have hread : Counted l (readDsd s).2 := counted_aside.next hs (dstView_readDsd s) rfl rfl
    exact ⟨hread.index, hread.frames, hread.both⟩
  dst {l s} hs := by
    have hindex : (readDst s).2.handle.hasIndex = s.handle.hasIndex := hasIndex_readDst s
    refine ⟨fun _ => Nat.le_add_left 1 _, fun _ => Nat.le_add_left 1 _, fun h _ => ?_⟩
    exact Nat.succ_le_succ (hs.index (hindex ▸ h))
  dsti {l s} hs := by
    have hframes : (readDsti s).2.handle.dstFrameCount = s.handle.dstFrameCount :=
      dstFrameCount_readDsti s
    refine ⟨fun _ => Nat.le_add_left 1 _, fun _ => Nat.le_add_left 1 _, fun _ h => ?_⟩
    exact Nat.succ_le_succ (hs.frames (hframes ▸ h))

section Opened

variable {nameLen : Nat → Nat} {fuel : Nat} {content : List UInt8}

/-- The checks behind the parse leave one DST chunk at most. -/
theorem dstCount_le_of_check {l : Frm8} {isDstFormat : Bool}
    (h : l.check isDstFormat = .ok ()) : l.dstCount ≤ 1 := by
  unfold Frm8.check at h
  grind

theorem dsdiffOpen_noTable {s : OpenHandle}
    (h : dsdiffOpen nameLen fuel content = some (.ok s)) : NoTable s := by
  obtain ⟨env, hparse, -, hhandle⟩ := dsdiffOpen_eq_ok h
  obtain ⟨hparsed, -⟩ := dsdiffOpen_parsed h
  obtain ⟨l, hcounted, hcheck⟩ := parseFile_ends counted_aside counted_ofSound hparse
    fun _ => ⟨Bool.noConfusion, fun hne => absurd rfl hne, Bool.noConfusion⟩
  refine ⟨hparsed.handle.indexes, hparsed.handle.reservedIndexCount, fun hindex => ?_⟩
  rw [hhandle] at hindex ⊢
  by_contra hframes
  have htwo := hcounted.both hindex hframes
  have hone := dstCount_le_of_check hcheck
  omega

/-- The table of an opened file is used safely as long as no size is asked for, or where the
file has no index. -/
theorem index_used_safely_iff {s : OpenHandle}
    (h : dsdiffOpen nameLen fuel content = some (.ok s)) (qs : List IndexRequest) :
    AllUsedSafely qs s ↔ s.handle.hasIndex = false ∨ ∀ q ∈ qs, q.asksSize = false :=
  (dsdiffOpen_noTable h).allUsedSafely_iff qs

/-- A DST file whose only sound data is an index of no entries. -/
def indexFile : List UInt8 :=
  let chunks := ChunkType.fver.fourcc ++ toBe 8 4 ++ toBe 4 0x01050000 ++
    ChunkType.dsti.fourcc ++ toBe 8 0
  ChunkType.frm8.fourcc ++ toBe 8 (chunks.length + 4) ++ ChunkType.dst.fourcc ++ chunks

theorem index_used_safely_iff_reads :
    ∃ s, dsdiffOpen (fun _ => 255) 40 indexFile = some (.ok s) ∧
      AllUsedSafely [.seek 0, .readAt 1 4096, .readAtWithCrc 0 4096 16] s := by
  obtain ⟨s, hopen, -⟩ := dsdiffOpen_of_check (fun _ => true)
    (show (dsdiffOpen (fun _ => 255) 40 indexFile).any _ = true by decide +kernel)
  exact ⟨s, hopen, (index_used_safely_iff hopen _).2 (.inr (by decide))⟩

/-- The size of frame 0 is read from a table that is not there. -/
theorem frame_size_of_missing_table :
    ∃ s, dsdiffOpen (fun _ => 255) 40 indexFile = some (.ok s) ∧
      ¬ AllUsedSafely [.frameSize 0] s := by
  obtain ⟨s, hopen, hcheck⟩ := dsdiffOpen_of_check (fun s =>
    decide (((IndexRequest.frameSize 0).run s).1 = .error .undefined))
    (show (dsdiffOpen (fun _ => 255) 40 indexFile).any _ = true by decide +kernel)
  exact ⟨s, hopen, fun hsafe => hsafe.1.inTable (of_decide_eq_true hcheck)⟩

end Opened

end DsdNexus.Dsdiff
