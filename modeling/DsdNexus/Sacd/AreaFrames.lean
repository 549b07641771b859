import DsdNexus.Sacd.AreaTocRead

/-! # Frame lookup in the access list

`sacd_area_toc_get_frame_lsn` divides the frame number by the step size of the list and
keeps the quotient in sixteen bits before it compares it with the last entry. Neither the
step size nor the entry count is checked when the list is read.
-/

namespace DsdNexus.Sacd.Area

open Attempt

/-! ## The lookup -/

/-- A list is looked up where there is one with entries. -/
def InUse (list : AccessList) : Prop := list.frameStart ≠ none ∧ list.numEntries ≠ 0

/-- The entry for a frame; `none` is a division by zero. -/
def entryIndex (list : AccessList) (frameNum : UInt32) : Option UInt16 :=
  if list.stepSize = 0 then none
  else
    let entryIndex := (frameNum / list.stepSize.toUInt32).toUInt16
    let maxEntryIndex := list.numEntries - 1
    some (if maxEntryIndex < entryIndex then maxEntryIndex else entryIndex)

/-- `sacd_area_toc_get_frame_lsn`; `none` is a division by zero. -/
def getFrameLsn (ctx : Option Toc) (frameNum : UInt32) : Option UInt32 :=
  match ctx with
  | none => some 0
  | some toc =>
    match toc.frameInfo.frameStart with
    | none => some 0
    | some frameStart =>
      if toc.frameInfo.numEntries = 0 then some 0
      else
        (entryIndex toc.frameInfo frameNum).map fun entry =>
          let lsn := frameStart.getD entry.toNat 0
          if toc.data.trackAreaEnd < lsn then toc.data.trackAreaEnd else lsn

/-- `read_frame` of a frame reader with state `ρ`: from the room, the frame and its LSN, the
status and the bytes it writes. -/
abbrev ReadFrameAt (ρ : Type) := UInt32 → UInt32 → UInt32 → ρ → Int × Bytes × ρ

/-- What `sacd_area_toc_get_audio_data` returns, and the context and reader it leaves. -/
structure AudioData (ρ : Type) where
  status : Int
  data : Bytes
  ctx : Option Toc
  reader : ρ

/-- `sacd_area_toc_get_audio_data`; `none` is a division by zero. -/
def getAudioData {ρ : Type} (readFrame : ReadFrameAt ρ) (length frameNum : UInt32)
    (ctx : Option Toc) (reader : ρ) : Option (AudioData ρ) :=
  match ctx with
  | none => some ⟨areaTocUninitialized, [], none, reader⟩
  | some toc =>
    let targetFrame := if frameNum = frameStartUseCurrent then toc.curFrameNumData else frameNum
    (getFrameLsn ctx targetFrame).map fun frameLsn =>
      let read := readFrame length targetFrame frameLsn reader
      if read.1 = areaTocOk ∧ frameNum = frameStartUseCurrent then
        if toc.data.totalAreaPlayTime - 1 < toc.curFrameNumData + 1 then
          ⟨endOfAudioData, read.2.1, some { toc with curFrameNumData := 0 }, read.2.2⟩
        else
          ⟨read.1, read.2.1, some { toc with curFrameNumData := toc.curFrameNumData + 1 },
            read.2.2⟩
      else ⟨read.1, read.2.1, some toc, read.2.2⟩

/-! ## The law and its condition -/

/-- Every frame of the area is looked up without a division by zero, by number and as the
current one, and in the entry of its interval. -/
structure LooksUp (toc : Toc) : Prop where
  frameLsn : ∀ frame, frame < toc.data.totalAreaPlayTime → getFrameLsn (some toc) frame ≠ none
  byNumber : ∀ {ρ : Type} (readFrame : ReadFrameAt ρ) (length frame : UInt32) (reader : ρ),
    frame < toc.data.totalAreaPlayTime →
      (getAudioData readFrame length frame (some toc) reader).isSome
  current : ∀ {ρ : Type} (readFrame : ReadFrameAt ρ) (length frame : UInt32) (reader : ρ),
    frame < toc.data.totalAreaPlayTime →
      (getAudioData readFrame length frameStartUseCurrent
        (some { toc with curFrameNumData := frame }) reader).isSome
  exact : ∀ frame, frame < toc.data.totalAreaPlayTime → InUse toc.frameInfo →
    ∃ entry, entryIndex toc.frameInfo frame = some entry ∧
      entry.toNat = min (frame.toNat / toc.frameInfo.stepSize.toNat)
        (toc.frameInfo.numEntries.toNat - 1)

/-- A list in use for a frame at all has a step size, and either a single entry or a last
frame whose interval is numbered in sixteen bits. -/
def StepSuits (toc : Toc) : Prop :=
  InUse toc.frameInfo → 0 < toc.data.totalAreaPlayTime →
    toc.frameInfo.stepSize ≠ 0 ∧ (toc.frameInfo.numEntries = 1 ∨
      (toc.data.totalAreaPlayTime.toNat - 1) / toc.frameInfo.stepSize.toNat < 65536)

/-! ## The quotient -/

section Quotient

variable {list : AccessList} {frame : UInt32}

theorem entryIndex_ne_none : entryIndex list frame ≠ none ↔ list.stepSize ≠ 0 := by
  unfold entryIndex
  split
  · next h => exact ⟨fun hne => absurd rfl hne, fun hne => absurd h hne⟩
  · next h => exact ⟨fun _ => h, fun _ => nofun⟩

theorem toNat_quotient (list : AccessList) (frame : UInt32) :
    (frame / list.stepSize.toUInt32).toUInt16.toNat =
      frame.toNat / list.stepSize.toNat % 65536 := by
  rw [UInt32.toNat_toUInt16, UInt32.toNat_div, UInt8.toNat_toUInt32]

theorem toNat_maxEntry (h : list.numEntries ≠ 0) :
    (list.numEntries - 1).toNat = list.numEntries.toNat - 1 := by
  have hpos : 1 ≤ list.numEntries := by
    rw [UInt16.le_iff_toNat_le]
    exact Nat.pos_of_ne_zero fun hzero => h (UInt16.toNat_inj.mp hzero)
  rw [UInt16.toNat_sub_of_le _ _ hpos]
  rfl

/-- The entry is that of the truncated quotient. -/
theorem entryIndex_eq_some (frame : UInt32) (hstep : list.stepSize ≠ 0)
    (hentries : list.numEntries ≠ 0) :
    ∃ entry, entryIndex list frame = some entry ∧ entry.toNat =
      min (frame.toNat / list.stepSize.toNat % 65536) (list.numEntries.toNat - 1) := by
  refine ⟨_, if_neg hstep, ?_⟩
  have hmax := toNat_maxEntry hentries
  have hquotient := toNat_quotient list frame
  split
  · next h =>
    rw [UInt16.lt_iff_toNat_lt] at h
    omega
  · next h =>
    rw [UInt16.not_lt, UInt16.le_iff_toNat_le] at h
    omega

/-- The truncation does not show where the quotient fits or the list has one entry. -/
theorem entryIndex_exact (hstep : list.stepSize ≠ 0) (hentries : list.numEntries ≠ 0)
    (h : list.numEntries = 1 ∨ frame.toNat / list.stepSize.toNat < 65536) :
    ∃ entry, entryIndex list frame = some entry ∧ entry.toNat =
      min (frame.toNat / list.stepSize.toNat) (list.numEntries.toNat - 1) := by
  obtain ⟨entry, hentry, hnat⟩ := entryIndex_eq_some frame hstep hentries
  refine ⟨entry, hentry, ?_⟩
  obtain hone | hfits := h
  · have hzero : list.numEntries.toNat - 1 = 0 := by
      rw [hone]
      rfl
    rw [hnat, hzero, Nat.min_zero, Nat.min_zero]
  · rw [hnat, Nat.mod_eq_of_lt hfits]

end Quotient

/-! ## The law holds exactly under the condition -/

section Lookup

variable {toc : Toc}

theorem getFrameLsn_ne_none (toc : Toc) (frame : UInt32) :
    getFrameLsn (some toc) frame ≠ none ↔ (InUse toc.frameInfo → toc.frameInfo.stepSize ≠ 0) := by
  unfold getFrameLsn InUse
  cases hlist : toc.frameInfo.frameStart with
  | none =>
    simp only [hlist]
    exact ⟨fun _ h => absurd rfl h.1, fun _ => Option.some_ne_none _⟩
  | some frameStart =>
    simp only [hlist]
    by_cases hentries : toc.frameInfo.numEntries = 0
    · rw [if_pos hentries]
      exact ⟨fun _ h => absurd hentries h.2, fun _ => Option.some_ne_none _⟩
    · rw [if_neg hentries, Ne, Option.map_eq_none_iff]
      exact ⟨fun h _ => entryIndex_ne_none.mp h,
        fun h => entryIndex_ne_none.mpr (h ⟨nofun, hentries⟩)⟩

/-- Audio data is read exactly where the LSN of its frame is found. -/
theorem getAudioData_isSome {ρ : Type} (readFrame : ReadFrameAt ρ) (length frameNum : UInt32)
    (toc : Toc) (reader : ρ) :
    (getAudioData readFrame length frameNum (some toc) reader).isSome ↔
      getFrameLsn (some toc)
        (if frameNum = frameStartUseCurrent then toc.curFrameNumData else frameNum) ≠ none := by
  unfold getAudioData
  simp only
  rw [Option.isSome_map, Option.isSome_iff_ne_none]

theorem getFrameLsn_current (toc : Toc) (cur frame : UInt32) :
    getFrameLsn (some { toc with curFrameNumData := cur }) frame = getFrameLsn (some toc) frame :=
  rfl

theorem total_pos {frame total : UInt32} (h : frame < total) : 0 < total := by
  rw [UInt32.lt_iff_toNat_lt] at h ⊢
  exact Nat.zero_lt_of_lt h

/-- A frame of the area has a number of its own. -/
theorem ne_useCurrent {frame total : UInt32} (h : frame < total) :
    frame ≠ frameStartUseCurrent := by
  rintro rfl
  rw [UInt32.lt_iff_toNat_lt, useCurrent_toNat] at h
  have := total.toNat_lt
  omega

theorem looksUp_of_stepSuits (h : StepSuits toc) : LooksUp toc := by
  have hstep : ∀ frame, frame < toc.data.totalAreaPlayTime → InUse toc.frameInfo →
      toc.frameInfo.stepSize ≠ 0 := by
    intro frame hframe huse
    exact (h huse (total_pos hframe)).1
  have hlsn : ∀ frame, frame < toc.data.totalAreaPlayTime → getFrameLsn (some toc) frame ≠ none :=
    fun frame hframe => (getFrameLsn_ne_none toc frame).mpr (hstep frame hframe)
  refine ⟨hlsn, ?_, ?_, ?_⟩
  · intro ρ readFrame length frame reader hframe
    rw [getAudioData_isSome, if_neg (ne_useCurrent hframe)]
    exact hlsn frame hframe
  · intro ρ readFrame length frame reader hframe
    rw [getAudioData_isSome, if_pos rfl, getFrameLsn_current]
    exact hlsn frame hframe
  · intro frame hframe huse
    obtain ⟨hne, hfits⟩ := h huse (total_pos hframe)
    apply entryIndex_exact hne huse.2
    refine hfits.imp_right fun hlast => lt_of_le_of_lt ?_ hlast
    rw [UInt32.lt_iff_toNat_lt] at hframe
    exact Nat.div_le_div_right (by omega)

/-- The first frame of interval 65536 is looked up in entry 0. -/
theorem numEntries_of_exact (h : LooksUp toc) (huse : InUse toc.frameInfo)
    (hstep : toc.frameInfo.stepSize ≠ 0)
    (hlast : 65536 ≤ (toc.data.totalAreaPlayTime.toNat - 1) / toc.frameInfo.stepSize.toNat) :
    toc.frameInfo.numEntries = 1 := by
  have hpos : 0 < toc.frameInfo.stepSize.toNat :=
    Nat.pos_of_ne_zero fun hzero => hstep (UInt8.toNat_inj.mp hzero)
  have hle := (Nat.le_div_iff_mul_le hpos).mp hlast
  have htotal := toc.data.totalAreaPlayTime.toNat_lt
  have hnat : (UInt32.ofNat (65536 * toc.frameInfo.stepSize.toNat)).toNat =
      65536 * toc.frameInfo.stepSize.toNat := by
    rw [UInt32.toNat_ofNat', Nat.mod_eq_of_lt (by omega)]
  have hframe : UInt32.ofNat (65536 * toc.frameInfo.stepSize.toNat) <
      toc.data.totalAreaPlayTime := by
    rw [UInt32.lt_iff_toNat_lt, hnat]
    omega
  obtain ⟨entry, hentry, hexact⟩ := h.exact _ hframe huse
  obtain ⟨entry', hentry', htruncated⟩ := entryIndex_eq_some _ hstep huse.2
  rw [hentry] at hentry'
  cases hentry'
  rw [hnat, Nat.mul_div_cancel _ hpos] at hexact htruncated
  have hentries : 0 < toc.frameInfo.numEntries.toNat :=
    Nat.pos_of_ne_zero fun hzero => huse.2 (UInt16.toNat_inj.mp hzero)
  have hlt := toc.frameInfo.numEntries.toNat_lt
  apply UInt16.toNat_inj.mp
  show _ = 1
  omega

theorem stepSuits_of_looksUp (h : LooksUp toc) : StepSuits toc := by
  intro huse htotal
  have hstep : toc.frameInfo.stepSize ≠ 0 :=
    (getFrameLsn_ne_none toc 0).mp (h.frameLsn 0 htotal) huse
  refine ⟨hstep, ?_⟩
  by_cases hlast : (toc.data.totalAreaPlayTime.toNat - 1) / toc.frameInfo.stepSize.toNat < 65536
  · exact .inr hlast
  · exact .inl (numEntries_of_exact h huse hstep (Nat.not_lt.mp hlast))

end Lookup

/-- Every frame of an area is looked up exactly when the step size suits the area. -/
theorem looksUp_iff_stepSuits (toc : Toc) : LooksUp toc ↔ StepSuits toc :=
  ⟨stepSuits_of_looksUp, looksUp_of_stepSuits⟩

/-! ## A list without a step size -/

def stepZeroHead : Bytes := areaHead 1 0 [] 0 0 4

/-- An area of one frame and no tracks, and an access list of one entry. -/
def stepZeroHeads : List Bytes :=
  [stepZeroHead, trackList1Sign, trackList2Sign, isrcGenreSign, accessListSign ++ [0, 1, 0]] ++
    List.replicate 31 []

set_option maxRecDepth 1024

theorem stepZeroHeads_length : ∀ head ∈ stepZeroHeads, head.length ≤ lsnSize := by
  decide

theorem stepZeroHeads_count : stepZeroHeads.length < 65536 := by decide

def stepZeroDisc : BareToc := ⟨stepZeroHeads, stepZeroHeads_count, stepZeroHeads_length⟩

/-- The access list as it lies in the scratch buffer. -/
def stepZeroScratch : Bytes := ((stepZeroHeads.drop 4).map padded).flatten

def stepZeroToc : Toc :=
  .accepted (areaData (padded stepZeroHead)) [] [] (accessList stepZeroScratch)

theorem stepZeroToc_list :
    (areaData (padded stepZeroHead)).accessListPtr = 4 ∧ be stepZeroScratch 8 2 = 1 := by
  decide

theorem stepZeroToc_readFrom (convert : Convert) :
    ReadFrom convert stepZeroDisc.toc .twoChannel stepZeroToc := by
  obtain ⟨hptr, hentries⟩ := stepZeroToc_list
  have hsigned : signaturesValid stepZeroDisc.toc (padded stepZeroHead) .twoChannel =
      .ok true := by
    apply signaturesValid_true (by decide)
    · exact stepZeroDisc.signed rfl (by decide)
    · exact stepZeroDisc.signed rfl (by decide)
    · exact stepZeroDisc.signed rfl (by decide)
    · rw [hptr]
      exact stepZeroDisc.signed (s := 4) rfl (by decide)
    · rfl
    · rfl
  have hscratch : readSectors stepZeroDisc.toc 4 32 = .ok stepZeroScratch :=
    stepZeroDisc.readSectors (by decide)
  have hroom : 16 + 5 * be stepZeroScratch 8 2 ≤ stepZeroScratch.length := by
    have hlen : stepZeroScratch.length = 32 * lsnSize :=
      flatten_length_of_forall fun s hs => stepZeroDisc.sector_length s
        (List.mem_of_mem_drop (List.map_drop ▸ hs))
    rw [hentries, hlen]
    decide
  have haccess : readAccessList stepZeroDisc.toc (areaData (padded stepZeroHead)) =
      .ok (accessList stepZeroScratch) :=
    readAccessList_of_room (by rw [hptr]; decide) (by rw [hptr]; exact hscratch) hroom
  exact BareToc.readFrom (BareToc.decodes (d := stepZeroDisc) rfl hsigned (by decide)
    (by decide) (by decide) rfl rfl haccess)

theorem stepZero_divides : ¬ ∀ (convert : Convert) (b : TocSectors) (areaType : AreaType)
    (toc : Toc), ReadFrom convert b areaType toc → LooksUp toc := by
  intro h
  have hlookup := h (fun _ text => some text) _ _ _ (stepZeroToc_readFrom _)
  have hsuits := stepSuits_of_looksUp hlookup ⟨by decide, by decide⟩
    (by decide)
  exact hsuits.1 (by decide)

end DsdNexus.Sacd.Area
