import Mathlib.Tactic.Common
import DsdNexus.Sacd.Context

/-! # Opening a disc

`sacd_init` opens the input, sets up a temporary area, reads the master TOC and then the
area TOCs the master TOC points to. Each step has its own way out.
-/

namespace DsdNexus.Sacd

/-! ## The steps of `sacd_init` -/

theorem memoryError_ne_ok : sacdMemoryAllocationError ≠ sacdOk := by decide

theorem ioError_ne_ok : sacdIoError ≠ sacdOk := by decide

theorem sectorReaderInitFailed_ne_ok : sacdSectorReaderInitFailed ≠ sacdOk := by decide

def authenticateOk : Int := 0

def authenticateNotSupported : Int := -7

/-- What `sacd_input_open` leaves in `*out`: an input, or an error with the pointer set to
`NULL` or not written to. -/
inductive Opened (ι : Type) where
  | input (i : ι)
  | failed (clears : Bool)
  deriving DecidableEq, Repr

/-- The four allocations. -/
inductive Allocation where
  | tempArea
  | masterToc
  | stArea
  | mcArea
  deriving DecidableEq, Repr

/-- The functions `sacd_init` calls, as they behave during one call of it. -/
structure Callees (μ α ι : Type) where
  openInput : String → Opened ι
  authenticate : ι → Int
  getSectorFormat : ι → Int × Int
  masterTocRead : UInt32 → ι → Int × μ
  areaTocSectorRange : μ → ChannelType → UInt32 × UInt32 × UInt16
  areaTocRead : UInt32 → UInt32 → UInt32 → UInt16 → ChannelType → ι → Int × α
  malloc : Allocation → Bool

section Init

variable {μ α ι : Type} (w : Callees μ α ι)

/-- The multi-channel area, if the disc has one. -/
def initMultiArea (copy : UInt32) (input : ι) (master : μ) (ctx : Context μ α ι) :
    Int × Context μ α ι :=
  let ctx := { ctx with mcAreaToc := none }
  match w.areaTocSectorRange master .multiChannel with
  | (area1Start, area2Start, areaLength) =>
    if area1Start = 0 then (sacdOk, { ctx with initialized := true })
    else
      let ctx := { ctx with currentChannelType := .multiChannel }
      if w.malloc .mcArea = false then (sacdMemoryAllocationError, ctx)
      else
        match w.areaTocRead copy area1Start area2Start areaLength .multiChannel input with
        | (res, toc) =>
          let ctx := { ctx with mcAreaToc := some toc }
          if res ≠ sacdOk then (res, { ctx with input := none, stAreaToc := none })
          else (sacdOk, { ctx with initialized := true })

/-- The stereo area, if the disc has one, in the place of the temporary one. -/
def initStereoArea (copy : UInt32) (input : ι) (master : μ) (ctx : Context μ α ι) :
    Int × Context μ α ι :=
  let ctx := { ctx with
    currentChannelType := .twoChannel, stAreaToc := none, areaTocNum := copy }
  match w.areaTocSectorRange master .twoChannel with
  | (area1Start, area2Start, areaLength) =>
    if area1Start = 0 then initMultiArea w copy input master ctx
    else if w.malloc .stArea = false then (sacdMemoryAllocationError, ctx)
    else
      match w.areaTocRead copy area1Start area2Start areaLength .twoChannel input with
      | (res, toc) =>
        if res ≠ sacdOk then (res, { ctx with input := none, stAreaToc := none })
        else initMultiArea w copy input master { ctx with stAreaToc := some toc }

def initMasterToc (masterNr copy : UInt32) (input : ι) (ctx : Context μ α ι) :
    Int × Context μ α ι :=
  let ctx := { ctx with masterToc := none }
  if w.malloc .masterToc = false then (sacdMemoryAllocationError, ctx)
  else
    match w.masterTocRead masterNr input with
    | (res, master) =>
      if res ≠ sacdOk then (res, { ctx with input := none, masterToc := none })
      else initStereoArea w copy input master { ctx with masterToc := some master }

/-- The temporary area without sectors. -/
def initTempArea (masterNr copy : UInt32) (input : ι) (ctx : Context μ α ι) :
    Int × Context μ α ι :=
  let ctx := { ctx with stAreaToc := none }
  if w.malloc .tempArea = false then (sacdMemoryAllocationError, ctx)
  else
    match w.areaTocRead 1 0 0 0 .twoChannel input with
    | (res, toc) =>
      if res ≠ sacdOk then (res, { ctx with input := none, stAreaToc := none })
      else
        initMasterToc w masterNr copy input
          { ctx with stAreaToc := some toc, currentChannelType := .twoChannel }

/-- `sacd_init` -/
def sacdInit (filename : String) (masterNr copy : UInt32) (ctx : Context μ α ι) :
    Int × Context μ α ι :=
  match w.openInput filename with
  | .failed clears => (sacdIoError, if clears then { ctx with input := none } else ctx)
  | .input input =>
    if w.authenticate input ≠ authenticateOk ∧
        w.authenticate input ≠ authenticateNotSupported then
      (sacdIoError, { ctx with input := none })
    else
      match w.getSectorFormat input with
      | (res, format) =>
        if res ≠ authenticateOk then (sacdSectorReaderInitFailed, { ctx with input := none })
        else
          initTempArea w masterNr copy input
            { ctx with input := some input, sectorFormat := format, initialized := true }

/-- `sacd_close` -/
def sacdClose (ctx : Context μ α ι) : Int × Context μ α ι :=
  (sacdOk, { ctx with
    input := none, masterToc := none, stAreaToc := none, mcAreaToc := none,
    initialized := false })

/-- `sacd_select_channel_type` -/
def sacdSelectChannelType (channelType : ChannelType) (ctx : Context μ α ι) :
    Int × Context μ α ι :=
  if ctx.initialized = false then (sacdUninitialized, ctx)
  else
    match channelType with
    | .twoChannel =>
      if ctx.stAreaToc.isNone then (sacdNotAvailable, ctx)
      else (sacdOk, { ctx with currentChannelType := channelType })
    | .multiChannel =>
      if ctx.mcAreaToc.isNone then (sacdNotAvailable, ctx)
      else (sacdOk, { ctx with currentChannelType := channelType })

/-! ## Query functions -/

/-- What a query function asks of the context before it answers. -/
inductive Gate where
  | flag
  | area
  | input
  | areaText
  | masterPath
  deriving DecidableEq, Repr

/-- The functions that ask something of a context, `sacd_` left out. -/
inductive Query where
  | selectChannelType | getAvailableChannelTypes | getCurrentFrameNum | setCurrentFrameNum
  | getDiscSpecVersion | getAlbumDiscCount | getDiscSequenceNum | getAlbumCatalogNum
  | getDiscIsHybrid | getDiscManufacturerInfo | getDiscCatalogNum | getAlbumGenre
  | getDiscGenre | getDiscDate | getTotalAreaPlayTime | getMasterTextChannelCount
  | getMasterTextChannelInfo | getAlbumText | getDiscText | getAreaSpecVersion
  | getAreaSampleFrequency | getAreaSampleFrequencyCode | getAreaFrameFormatCode
  | getAreaMaxByteRate | getAreaLoudspeakerConfig | getAreaMuteFlags
  | getAreaMaxAvailableChannels | getAreaTrackAttribute | getAreaTextChannelCount
  | getAreaTextChannelInfo | getAreaText | getTrackCount | getTrackIndexCount
  | getTrackIsrcNum | getTrackMode | getTrackFlags | getTrackGenre | getTrackText
  | getTrackSectors | getTrackAreaSectorRange | getTrackFrameLength | getTrackIndexStart
  | getTrackIndexEnd | getTrackPause | getAreaFrameFormatEnum | getAreaChannelCount
  | getAreaTrackOffset | getFrameSectorRange | getTotalSectors | readRawSectors
  | getSoundData | getSupplementaryData | getSpeakerConfigString | getFrameFormatString
  | getAlbumDir | getAlbumPath
  deriving DecidableEq, Repr

def Query.gate : Query → Gate
  | .selectChannelType | .getAvailableChannelTypes | .getDiscSpecVersion
  | .getAlbumDiscCount | .getDiscSequenceNum | .getAlbumCatalogNum | .getDiscIsHybrid
  | .getDiscManufacturerInfo | .getDiscCatalogNum | .getAlbumGenre | .getDiscGenre
  | .getDiscDate | .getMasterTextChannelCount | .getMasterTextChannelInfo | .getAlbumText
  | .getDiscText | .getTrackAreaSectorRange => .flag
  | .getTotalSectors | .readRawSectors => .input
  | .getSpeakerConfigString | .getFrameFormatString => .areaText
  | .getAlbumDir | .getAlbumPath => .masterPath
  | _ => .area

/-- What comes back: a status, a fixed text, `NULL`, or what a TOC or the input says. -/
inductive Reply where
  | status (res : Int)
  | text (s : String)
  | null
  | answered
  deriving DecidableEq, Repr

/-- The reply to a query with valid arguments. -/
def Query.reply (q : Query) (ctx : Context μ α ι) : Reply :=
  match q.gate with
  | .flag => if ctx.initialized = false then .status sacdUninitialized else .answered
  | .area =>
    if ctx.initialized = false then .status sacdUninitialized
    else if ctx.selectedAreaToc.isNone then .status sacdNotAvailable else .answered
  | .input => if ctx.input.isNone then .status sacdUninitialized else .answered
  | .areaText =>
    if ctx.initialized = false then .text "Unknown"
    else if ctx.selectedAreaToc.isNone then .text "Unknown" else .answered
  | .masterPath =>
    if ctx.initialized = false ∨ ctx.masterToc.isNone then .null else .answered

/-- The reply of a query of an uninitialised context. -/
def Query.uninitialized (q : Query) : Reply :=
  match q.gate with
  | .flag | .area | .input => .status sacdUninitialized
  | .areaText => .text "Unknown"
  | .masterPath => .null

end Init

/-! ## Cleared contexts -/

section Cleared

variable {μ α ι : Type}

/-- Nothing is held. -/
structure Cleared (ctx : Context μ α ι) : Prop where
  initialized : ctx.initialized = false
  input : ctx.input = none
  masterToc : ctx.masterToc = none
  stAreaToc : ctx.stAreaToc = none
  mcAreaToc : ctx.mcAreaToc = none

theorem cleared_create : Cleared (Context.create : Context μ α ι) := ⟨rfl, rfl, rfl, rfl, rfl⟩

theorem cleared_sacdClose (ctx : Context μ α ι) : Cleared (sacdClose ctx).2 :=
  ⟨rfl, rfl, rfl, rfl, rfl⟩

theorem Cleared.reply {ctx : Context μ α ι} (h : Cleared ctx) (q : Query) :
    q.reply ctx = q.uninitialized := by
  unfold Query.reply Query.uninitialized
  cases q.gate <;> simp [h.initialized, h.input]

/-- Contexts a caller can get. -/
inductive Reachable : Context μ α ι → Prop where
  | create : Reachable .create
  | init {ctx : Context μ α ι} (w : Callees μ α ι) (filename : String) (masterNr copy : UInt32) :
      Reachable ctx → Reachable (sacdInit w filename masterNr copy ctx).2
  | close {ctx : Context μ α ι} : Reachable ctx → Reachable (sacdClose ctx).2
  | select {ctx : Context μ α ι} (channelType : ChannelType) :
      Reachable ctx → Reachable (sacdSelectChannelType channelType ctx).2
  | written {ctx : Context μ α ι} (area : α) :
      Reachable ctx → ctx.initialized = true → Reachable (ctx.setSelected area)

/-! ## The steps keep the flag -/

variable (w : Callees μ α ι) {masterNr copy : UInt32} {input : ι} {ctx : Context μ α ι}

theorem initialized_initMultiArea (master : μ) (h : ctx.initialized = true) :
    (initMultiArea w copy input master ctx).2.initialized = true := by
  simp only [initMultiArea]
  split_ifs <;> simp [h]

theorem initialized_initStereoArea (master : μ) (h : ctx.initialized = true) :
    (initStereoArea w copy input master ctx).2.initialized = true := by
  simp only [initStereoArea]
  split_ifs
  · exact initialized_initMultiArea w master h
  · exact h
  · exact h
  · exact initialized_initMultiArea w master h

theorem initialized_initMasterToc (h : ctx.initialized = true) :
    (initMasterToc w masterNr copy input ctx).2.initialized = true := by
  simp only [initMasterToc]
  split_ifs
  · exact h
  · exact h
  · exact initialized_initStereoArea w _ h

theorem initialized_initTempArea (h : ctx.initialized = true) :
    (initTempArea w masterNr copy input ctx).2.initialized = true := by
  simp only [initTempArea]
  split_ifs
  · exact h
  · exact h
  · exact initialized_initMasterToc w h

/-! ## When the steps succeed -/

namespace Callees

variable {w}

/-- The area is absent, or there is memory for its TOC and it can be read. -/
def AreaOk (w : Callees μ α ι) (copy : UInt32) (input : ι) (master : μ)
    (channelType : ChannelType) (site : Allocation) : Prop :=
  let range := w.areaTocSectorRange master channelType
  range.1 = 0 ∨ w.malloc site = true ∧
    (w.areaTocRead copy range.1 range.2.1 range.2.2 channelType input).1 = sacdOk

/-- There is memory for the temporary area and the master TOC, and all TOCs can be read. -/
structure TocsOk (w : Callees μ α ι) (masterNr copy : UInt32) (input : ι) : Prop where
  tempArea : w.malloc .tempArea = true ∧ (w.areaTocRead 1 0 0 0 .twoChannel input).1 = sacdOk
  masterToc : w.malloc .masterToc = true ∧ (w.masterTocRead masterNr input).1 = sacdOk
  stArea : w.AreaOk copy input (w.masterTocRead masterNr input).2 .twoChannel .stArea
  mcArea : w.AreaOk copy input (w.masterTocRead masterNr input).2 .multiChannel .mcArea

/-- The input does not authenticate, or its sectors have no known format. -/
def InputRejected (w : Callees μ α ι) (input : ι) : Prop :=
  (w.authenticate input ≠ authenticateOk ∧ w.authenticate input ≠ authenticateNotSupported) ∨
    (w.getSectorFormat input).1 ≠ authenticateOk

/-- There is no input, or one that is rejected. -/
def NoInput (w : Callees μ α ι) (filename : String) : Prop :=
  ∀ input, w.openInput filename = .input input → w.InputRejected input

/-- There is an input, and all of the disc can be read from it. -/
def DiscOk (w : Callees μ α ι) (filename : String) (masterNr copy : UInt32) : Prop :=
  ∃ input, w.openInput filename = .input input ∧ ¬w.InputRejected input ∧
    w.TocsOk masterNr copy input

end Callees

theorem initMultiArea_ok_iff (master : μ) :
    (initMultiArea w copy input master ctx).1 = sacdOk ↔
      w.AreaOk copy input master .multiChannel .mcArea := by
  simp only [initMultiArea, Callees.AreaOk]
  split_ifs with habsent hmalloc hread
  · simp [habsent]
  · simp [habsent, hmalloc, sacdMemoryAllocationError, sacdOk]
  · simp [habsent, hread]
  · simp only [ne_eq, not_not] at hread
    simp [hread, hmalloc]

theorem initStereoArea_ok_iff (master : μ) :
    (initStereoArea w copy input master ctx).1 = sacdOk ↔
      w.AreaOk copy input master .twoChannel .stArea ∧
        w.AreaOk copy input master .multiChannel .mcArea := by
  simp only [initStereoArea, Callees.AreaOk.eq_1 w copy input master .twoChannel]
  split_ifs with habsent hmalloc hread
  · simp [habsent, initMultiArea_ok_iff]
  · simp [habsent, hmalloc, sacdMemoryAllocationError, sacdOk]
  · simp [habsent, hread]
  · simp only [ne_eq, not_not] at hread
    simp [hread, hmalloc, initMultiArea_ok_iff]

theorem initTempArea_ok_iff :
    (initTempArea w masterNr copy input ctx).1 = sacdOk ↔ w.TocsOk masterNr copy input := by
  simp only [initTempArea, initMasterToc]
  constructor
  · intro h
    split_ifs at h with htemp hread hmaster hmread
    · exact absurd h memoryError_ne_ok
    · exact absurd h hread
    · exact absurd h memoryError_ne_ok
    · exact absurd h hmread
    · rw [initStereoArea_ok_iff] at h
      exact ⟨⟨by simpa using htemp, by simpa using hread⟩,
        ⟨by simpa using hmaster, by simpa using hmread⟩, h.1, h.2⟩
  · intro h
    simp [h.tempArea, h.masterToc, initStereoArea_ok_iff, h.stArea, h.mcArea]

/-! ## One context after another -/

/-- Two outcomes have the same status and, on success, the same context. -/
def Agrees (a b : Int × Context μ α ι) : Prop :=
  a.1 = b.1 ∧ (a.1 = sacdOk → a = b)

theorem Agrees.refl (a : Int × Context μ α ι) : Agrees a a := ⟨rfl, fun _ => rfl⟩

theorem Agrees.failed {res : Int} (h : res ≠ sacdOk) (ctx ctx' : Context μ α ι) :
    Agrees (res, ctx) (res, ctx') := ⟨rfl, fun h' => absurd h' h⟩

/-- The steps put every field they go by in place themselves. -/
theorem initTempArea_agrees (format : Int) (ctx ctx' : Context μ α ι) :
    Agrees
      (initTempArea w masterNr copy input
        { ctx with input := some input, sectorFormat := format, initialized := true })
      (initTempArea w masterNr copy input
        { ctx' with input := some input, sectorFormat := format, initialized := true }) := by
  simp only [initTempArea, initMasterToc, initStereoArea]
  split_ifs with htemp hread hmaster hmread hst hmalloc hsread
  · exact .failed memoryError_ne_ok _ _
  · exact .failed hread _ _
  · exact .failed memoryError_ne_ok _ _
  · exact .failed hmread _ _
  · exact .refl _
  · exact .failed memoryError_ne_ok _ _
  · exact .failed hsread _ _
  · exact .refl _

theorem sacdInit_agrees (filename : String) (ctx ctx' : Context μ α ι) :
    Agrees (sacdInit w filename masterNr copy ctx) (sacdInit w filename masterNr copy ctx') := by
  unfold sacdInit
  cases w.openInput filename with
  | failed clears => exact .failed ioError_ne_ok _ _
  | input input =>
    simp only
    split_ifs
    · exact .failed ioError_ne_ok _ _
    · exact .failed sectorReaderInitFailed_ne_ok _ _
    · exact initTempArea_agrees w _ ctx ctx'

/-! ## All or nothing -/

/-- The context is as good as a fresh one. -/
structure AsFresh (ctx : Context μ α ι) : Prop where
  queries : ∀ q : Query, q.reply ctx = q.uninitialized
  unreachable : ctx.input = none ∧ ctx.stAreaToc = none ∧ ctx.mcAreaToc = none
  init : ∀ (w : Callees μ α ι) (filename : String) (masterNr copy : UInt32),
    Agrees (sacdInit w filename masterNr copy ctx) (sacdInit w filename masterNr copy .create)
  close : (sacdClose ctx).1 = (sacdClose (.create : Context μ α ι)).1 ∧ Cleared (sacdClose ctx).2

theorem Cleared.asFresh {ctx : Context μ α ι} (h : Cleared ctx) : AsFresh ctx :=
  ⟨h.reply, ⟨h.input, h.stAreaToc, h.mcAreaToc⟩, fun w filename _ _ =>
    sacdInit_agrees w filename ctx .create, rfl, cleared_sacdClose ctx⟩

theorem AsFresh.initialized {ctx : Context μ α ι} (h : AsFresh ctx) :
    ctx.initialized = false := by
  have hreply := h.queries .getDiscSpecVersion
  cases hflag : ctx.initialized with
  | false => rfl
  | true => simp [Query.reply, Query.uninitialized, Query.gate, hflag] at hreply

/-- Without an input the call fails and leaves the flag and the TOCs alone. -/
theorem sacdInit_noInput (masterNr copy : UInt32) (ctx : Context μ α ι) {filename : String}
    (h : w.NoInput filename) :
    (sacdInit w filename masterNr copy ctx).1 ≠ sacdOk ∧
      ((sacdInit w filename masterNr copy ctx).2 = ctx ∨
        (sacdInit w filename masterNr copy ctx).2 = { ctx with input := none }) := by
  unfold sacdInit
  cases hopen : w.openInput filename with
  | failed clears => exact ⟨ioError_ne_ok, by cases clears <;> simp⟩
  | input input =>
    simp only
    split_ifs with hauth hformat
    · exact ⟨ioError_ne_ok, .inr rfl⟩
    · exact ⟨sectorReaderInitFailed_ne_ok, .inr rfl⟩
    · exact absurd (h input hopen) (by simp only [Callees.InputRejected]; tauto)

/-- With an input the call goes on to the TOCs. -/
theorem sacdInit_input {filename : String} (hopen : w.openInput filename = .input input)
    (hinput : ¬w.InputRejected input) :
    sacdInit w filename masterNr copy ctx =
      initTempArea w masterNr copy input { ctx with
        input := some input
        sectorFormat := (w.getSectorFormat input).2
        initialized := true } := by
  simp only [Callees.InputRejected, not_or] at hinput
  simp only [sacdInit, hopen, if_neg hinput.1, if_neg hinput.2]

theorem initialized_sacdInit_noInput {filename : String} (h : w.NoInput filename) :
    (sacdInit w filename masterNr copy ctx).2.initialized = ctx.initialized := by
  rcases (sacdInit_noInput w masterNr copy ctx h).2
    with hsame | hinput
  · rw [hsame]
  · rw [hinput]

theorem Cleared.sacdInit_noInput {filename : String} (hctx : Cleared ctx)
    (h : w.NoInput filename) : Cleared (sacdInit w filename masterNr copy ctx).2 := by
  rcases (Sacd.sacdInit_noInput w masterNr copy ctx h).2
    with hsame | hinput
  · rw [hsame]
    exact hctx
  · rw [hinput]
    exact ⟨hctx.initialized, rfl, hctx.masterToc, hctx.stAreaToc, hctx.mcAreaToc⟩

theorem noInput_or_input (filename : String) :
    w.NoInput filename ∨ ∃ input, w.openInput filename = .input input ∧ ¬w.InputRejected input := by
  by_cases h : ∃ input, w.openInput filename = .input input ∧ ¬w.InputRejected input
  · exact .inr h
  · exact .inl fun input hopen => by_contra fun hinput => h ⟨input, hopen, hinput⟩

theorem sacdSelectChannelType_cases (channelType : ChannelType) (ctx : Context μ α ι) :
    (sacdSelectChannelType channelType ctx).2 = ctx ∨
      (sacdSelectChannelType channelType ctx).2 =
        { ctx with currentChannelType := channelType } := by
  unfold sacdSelectChannelType
  cases channelType with
  | twoChannel => split_ifs <;> simp
  | multiChannel => split_ifs <;> simp

/-- A context a caller can get holds something only with the flag set. -/
theorem Reachable.cleared {ctx : Context μ α ι} (h : Reachable ctx)
    (hflag : ctx.initialized = false) : Cleared ctx := by
  induction h with
  | create => exact cleared_create
  | init w filename masterNr copy _ ih =>
    rcases noInput_or_input w filename with hno | ⟨input, hopen, hinput⟩
    · rw [initialized_sacdInit_noInput w hno] at hflag
      exact (ih hflag).sacdInit_noInput w hno
    · rw [sacdInit_input w hopen hinput, initialized_initTempArea w rfl] at hflag
      exact absurd hflag (by decide)
  | close _ _ => exact cleared_sacdClose _
  | @select ctx channelType _ ih =>
    rcases sacdSelectChannelType_cases channelType ctx with hsame | hselected
    · rw [hsame] at hflag ⊢
      exact ih hflag
    · rw [hselected] at hflag ⊢
      have hctx := ih hflag
      exact ⟨hctx.initialized, hctx.input, hctx.masterToc, hctx.stAreaToc, hctx.mcAreaToc⟩
  | written area _ hinit _ => simp [hinit] at hflag

theorem Callees.NoInput.not_discOk {filename : String} (h : w.NoInput filename) :
    ¬w.DiscOk filename masterNr copy := by
  rintro ⟨input, hopen, hinput, -⟩
  exact hinput (h input hopen)

/-- A failed call leaves a context as good as a fresh one exactly when it fails before the
TOCs and the context held nothing before. -/
theorem sacdInit_all_or_nothing_iff {ctx : Context μ α ι} (hctx : Reachable ctx)
    (w : Callees μ α ι) (filename : String) (masterNr copy : UInt32) :
    ((sacdInit w filename masterNr copy ctx).1 ≠ sacdOk →
        AsFresh (sacdInit w filename masterNr copy ctx).2) ↔
      w.DiscOk filename masterNr copy ∨ (w.NoInput filename ∧ ctx.initialized = false) := by
  rcases noInput_or_input w filename with hno | ⟨input, hopen, hinput⟩
  · have hfails := (sacdInit_noInput w masterNr copy ctx hno).1
    constructor
    · intro h
      have hflag := (h hfails).initialized
      rw [initialized_sacdInit_noInput w hno] at hflag
      exact .inr ⟨hno, hflag⟩
    · rintro (hdisc | ⟨-, hflag⟩) -
      · exact absurd hdisc (hno.not_discOk w)
      · exact ((hctx.cleared hflag).sacdInit_noInput w hno).asFresh
  · rw [sacdInit_input w hopen hinput]
    constructor
    · intro h
      refine .inl ⟨input, hopen, hinput, ?_⟩
      rw [← initTempArea_ok_iff w]
      by_contra hfails
      have hflag := (h hfails).initialized
      rw [initialized_initTempArea w rfl] at hflag
      exact absurd hflag (by decide)
    · rintro (⟨input', hopen', -, htocs⟩ | ⟨hno, -⟩) hfails
      · rw [hopen, Opened.input.injEq] at hopen'
        subst hopen'
        exact absurd ((initTempArea_ok_iff w).mpr htocs) hfails
      · exact absurd (hno input hopen) hinput

/-- A file of zeros: it opens, and its master TOC has no signature. -/
def zeroFile : Callees Unit Unit Unit where
  openInput _ := .input ()
  authenticate _ := authenticateNotSupported
  getSectorFormat _ := (0, 0)
  masterTocRead _ _ := (5, ())
  areaTocSectorRange _ _ := (0, 0, 0)
  areaTocRead _ _ _ _ _ _ := (sacdOk, ())
  malloc _ := true

theorem sacdInit_zeroFile_iff :
    ((sacdInit zeroFile "zeros.iso" 1 1 (.create : Context Unit Unit Unit)).1 ≠ sacdOk →
        AsFresh (sacdInit zeroFile "zeros.iso" 1 1 (.create : Context Unit Unit Unit)).2) ↔
      zeroFile.DiscOk "zeros.iso" 1 1 ∨
        (zeroFile.NoInput "zeros.iso" ∧
          (Context.create : Context Unit Unit Unit).initialized = false) :=
  sacdInit_all_or_nothing_iff .create zeroFile "zeros.iso" 1 1

/-- The flag stays set and the temporary area stays reachable. -/
theorem sacdInit_zeroFile_partial :
    (sacdInit zeroFile "zeros.iso" 1 1 (.create : Context Unit Unit Unit)).1 = 5 ∧
      (sacdInit zeroFile "zeros.iso" 1 1 (.create : Context Unit Unit Unit)).2.stAreaToc = some () ∧
      Query.reply .getAvailableChannelTypes
        (sacdInit zeroFile "zeros.iso" 1 1 (.create : Context Unit Unit Unit)).2 = .answered ∧
      ¬((sacdInit zeroFile "zeros.iso" 1 1 (.create : Context Unit Unit Unit)).1 ≠ sacdOk →
        AsFresh (sacdInit zeroFile "zeros.iso" 1 1 (.create : Context Unit Unit Unit)).2) := by
  refine ⟨by decide, by decide, by decide, fun h => ?_⟩
  exact absurd (h (by decide)).initialized (by decide)

end Cleared

end DsdNexus.Sacd
