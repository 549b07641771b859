import Mathlib.Algebra.Order.Ring.Nat
import Mathlib.Data.List.Basic
import Mathlib.Data.List.Range
import DsdNexus.Sacd.Context

/-! # Sound data by number and by position

Frames are asked for by number or at the current position of the area. A read at the
current position moves it on, and wraps to the beginning behind the last frame.
-/

namespace DsdNexus.Sacd

/-! ## The area -/

def frameStartUseCurrent : UInt32 := 0xFFFFFFFF

def areaTocOk : Int := 0

def areaTocUninitialized : Int := 1

def endOfAudioData : Int := 9

theorem ok_ne_end : sacdOk ≠ endOfAudioData := by decide

theorem invalidArgument_ne_end : sacdInvalidArgument ≠ endOfAudioData := by decide

/-- `read_frame` of a frame reader with state `ρ`: from the room in the buffer and the frame,
the status and the bytes it writes. -/
abbrev ReadFrame (ρ : Type) := UInt32 → UInt32 → ρ → Int × List UInt8 × ρ

/-- `frame_format_t` -/
inductive FrameFormat where
  | dst
  | dsd3In14
  | dsd3In16
  | unknown
  deriving DecidableEq, Repr

/-- The fields of `area_toc_t` that reading sound data uses. -/
structure AreaToc (ρ : Type) where
  initialized : Bool
  totalAreaPlayTime : UInt32
  curFrameNumData : UInt32
  channelCount : UInt16
  frameFormat : FrameFormat
  frameReader : ρ
  deriving DecidableEq, Repr

namespace AreaToc

variable {ρ : Type}

/-- `sacd_area_toc_get_total_play_time` -/
def totalPlayTime (area : AreaToc ρ) : UInt32 :=
  if area.initialized = false then 0 else area.totalAreaPlayTime

/-- `sacd_area_toc_get_channel_count` -/
def getChannelCount (area : AreaToc ρ) : UInt16 :=
  if area.initialized = false then 0 else area.channelCount

/-- `sacd_area_toc_get_frame_format_enum` -/
def getFrameFormat (area : AreaToc ρ) : FrameFormat :=
  if area.initialized = false then .unknown else area.frameFormat

/-- `sacd_area_toc_get_audio_data` -/
def getAudioData (read : ReadFrame ρ) (length frameNum : UInt32) (area : AreaToc ρ) :
    Int × List UInt8 × AreaToc ρ :=
  if area.initialized = false then (areaTocUninitialized, [], area)
  else
    let targetFrame := if frameNum = frameStartUseCurrent then area.curFrameNumData else frameNum
    match read length targetFrame area.frameReader with
    | (result, data, reader) =>
      let area := { area with frameReader := reader }
      if result = areaTocOk ∧ frameNum = frameStartUseCurrent then
        if area.totalAreaPlayTime - 1 < area.curFrameNumData + 1 then
          (endOfAudioData, data, { area with curFrameNumData := 0 })
        else (result, data, { area with curFrameNumData := area.curFrameNumData + 1 })
      else (result, data, area)

end AreaToc

/-! ## The frame loop -/

/-- What a call gives its caller: the status, `*frame_count`, the frames it counted as they
lie in the buffer, and the bytes a last read left behind them. -/
structure SoundData where
  status : Int
  frameCount : UInt32
  frames : List (List UInt8)
  uncounted : List UInt8
  deriving DecidableEq, Repr

section Calls

variable {ρ μ ι : Type} (read : ReadFrame ρ)

/-- The frame a turn of the loop asks for. -/
def curFrameNum (start frames : UInt32) : UInt32 :=
  if start ≠ frameStartUseCurrent then start + frames else frameStartUseCurrent

/-- The loop of `sacd_get_sound_data`, with `n` frames to go. -/
def soundLoop (start : UInt32) : Nat → UInt32 → AreaToc ρ → SoundData × AreaToc ρ
  | 0, frames, area => (⟨sacdOk, frames, [], []⟩, area)
  | n + 1, frames, area =>
    match area.getAudioData read (4705 * area.getChannelCount.toUInt32)
        (curFrameNum start frames) with
    | (result, data, area) =>
      if result ≠ sacdOk then (⟨result, frames, [], data⟩, area)
      else
        match soundLoop start n (frames + 1) area with
        | (rest, area) => ({ rest with frames := data :: rest.frames }, area)

/-- `sacd_get_sound_data`. The last argument says whether there is a `frame_size`. -/
def sacdGetSoundData (ctx : Context μ (AreaToc ρ) ι) (start frameCount : UInt32)
    (frameSize : Bool) : SoundData × Context μ (AreaToc ρ) ι :=
  if ctx.initialized = false then (⟨sacdUninitialized, frameCount, [], []⟩, ctx)
  else
    match ctx.selectedAreaToc with
    | none => (⟨sacdNotAvailable, frameCount, [], []⟩, ctx)
    | some area =>
      if area.totalPlayTime < start + frameCount then
        (⟨sacdInvalidArgument, frameCount, [], []⟩, ctx)
      else if area.getFrameFormat = .dst ∧ frameSize = false then
        (⟨sacdInvalidArgument, frameCount, [], []⟩, ctx)
      else
        match soundLoop read start frameCount.toNat 0 area with
        | (sound, area) => (sound, ctx.setSelected area)

/-- Calls at the current position, each with a count of its own. -/
def currentRun : Context μ (AreaToc ρ) ι → List (UInt32 × Bool) → List SoundData
  | _, [] => []
  | ctx, (count, sizes) :: calls =>
    match sacdGetSoundData read ctx frameStartUseCurrent count sizes with
    | (sound, ctx) => sound :: currentRun ctx calls

end Calls

/-! ## One frame -/

section AreaReadable

variable {ρ μ ι : Type} {read : ReadFrame ρ} {area : AreaToc ρ} {bytes : UInt32 → List UInt8}

/-- The room the loop gives each frame. -/
def AreaToc.room (area : AreaToc ρ) : UInt32 := 4705 * area.channelCount.toUInt32

/-- The area at a frame. -/
def AreaToc.at (area : AreaToc ρ) (frame : UInt32) (reader : ρ) : AreaToc ρ :=
  { area with curFrameNumData := frame, frameReader := reader }

/-- An area in use whose frames can all be read, in any order. -/
structure AreaReadable (read : ReadFrame ρ) (area : AreaToc ρ) (bytes : UInt32 → List UInt8) :
    Prop where
  initialized : area.initialized = true
  some_frame : 0 < area.totalAreaPlayTime.toNat
  reads : ∀ (r : ρ) (frame : UInt32), frame.toNat < area.totalAreaPlayTime.toNat →
    ∃ r', read area.room frame r = (areaTocOk, bytes frame, r')

theorem useCurrent_toNat : frameStartUseCurrent.toNat = 4294967295 := rfl

theorem AreaReadable.ne_useCurrent {frame : UInt32}
    (hr : frame.toNat < area.totalAreaPlayTime.toNat) :
    frame ≠ frameStartUseCurrent := by
  have hlt := area.totalAreaPlayTime.toNat_lt
  intro h
  rw [h, useCurrent_toNat] at hr
  omega

/-- The comparison for the wrap, in numbers. -/
theorem wraps_iff {total frame : UInt32} (hf : frame.toNat < total.toNat) :
    total - 1 < frame + 1 ↔ total.toNat = frame.toNat + 1 := by
  have hlt := total.toNat_lt
  have hsub : (total - 1).toNat = total.toNat - 1 :=
    UInt32.toNat_sub_of_le total 1 (by rw [UInt32.le_iff_toNat_le]; simp; omega)
  have hadd : (frame + 1).toNat = frame.toNat + 1 := by
    rw [UInt32.toNat_add]
    exact Nat.mod_eq_of_lt (by simp; omega)
  rw [UInt32.lt_iff_toNat_lt, hsub, hadd]
  omega

theorem getAudioData_number (hr : AreaReadable read area bytes) {frame : UInt32} (cur : UInt32)
    (r : ρ) (hf : frame.toNat < area.totalAreaPlayTime.toNat) :
    ∃ r', (area.at cur r).getAudioData read area.room frame =
      (areaTocOk, bytes frame, area.at cur r') := by
  obtain ⟨r', hread⟩ := hr.reads r frame hf
  have hne := AreaReadable.ne_useCurrent hf
  exact ⟨r', by simp [AreaToc.getAudioData, AreaToc.at, hr.initialized, hne, hread]⟩

theorem getAudioData_current (hr : AreaReadable read area bytes) {cur : UInt32} (r : ρ)
    (hf : cur.toNat + 1 < area.totalAreaPlayTime.toNat) :
    ∃ r', (area.at cur r).getAudioData read area.room frameStartUseCurrent =
      (areaTocOk, bytes cur, area.at (cur + 1) r') := by
  obtain ⟨r', hread⟩ := hr.reads r cur (by omega)
  have hstay : ¬area.totalAreaPlayTime - 1 < cur + 1 := by
    rw [wraps_iff (by omega)]
    omega
  exact ⟨r', by simp [AreaToc.getAudioData, AreaToc.at, hr.initialized, hread, hstay]⟩

theorem getAudioData_last (hr : AreaReadable read area bytes) {cur : UInt32} (r : ρ)
    (hf : cur.toNat + 1 = area.totalAreaPlayTime.toNat) :
    ∃ r', (area.at cur r).getAudioData read area.room frameStartUseCurrent =
      (endOfAudioData, bytes cur, area.at 0 r') := by
  obtain ⟨r', hread⟩ := hr.reads r cur (by omega)
  have hwrap : area.totalAreaPlayTime - 1 < cur + 1 := by
    rw [wraps_iff (by omega)]
    omega
  exact ⟨r', by simp [AreaToc.getAudioData, AreaToc.at, hr.initialized, hread, hwrap]⟩

/-! ## One call -/

/-- `count` frames from `first` on. -/
def framesFrom (bytes : UInt32 → List UInt8) (first : UInt32) : Nat → List (List UInt8)
  | 0 => []
  | n + 1 => bytes first :: framesFrom bytes (first + 1) n

@[simp] theorem length_framesFrom (first : UInt32) (n : Nat) :
    (framesFrom bytes first n).length = n := by
  induction n generalizing first with
  | zero => rfl
  | succ n ih => simp [framesFrom, ih]

theorem add_ofNat_succ (frame : UInt32) (n : Nat) :
    frame + 1 + UInt32.ofNat n = frame + UInt32.ofNat (n + 1) := by
  rw [UInt32.ofNat_add, UInt32.add_comm (UInt32.ofNat n), UInt32.add_assoc]
  rfl

theorem framesFrom_add (first : UInt32) (m n : Nat) :
    framesFrom bytes first (m + n) =
      framesFrom bytes first m ++ framesFrom bytes (first + UInt32.ofNat m) n := by
  induction m generalizing first with
  | zero => simp [framesFrom]
  | succ m ih =>
    rw [Nat.succ_add, framesFrom, framesFrom, ih, add_ofNat_succ, List.cons_append]

theorem curFrameNum_current (frames : UInt32) :
    curFrameNum frameStartUseCurrent frames = frameStartUseCurrent := rfl

theorem toNat_next {frame : UInt32} {n : Nat} (h : frame.toNat + 1 ≤ n) (hn : n < 2 ^ 32) :
    (frame + 1).toNat = frame.toNat + 1 := by
  rw [UInt32.toNat_add]
  exact Nat.mod_eq_of_lt (by simp; omega)

theorem soundLoop_succ (start : UInt32) (n : Nat) (frames cur : UInt32) (r : ρ)
    (hinit : area.initialized = true) :
    soundLoop read start (n + 1) frames (area.at cur r) =
      match (area.at cur r).getAudioData read area.room (curFrameNum start frames) with
      | (result, data, area) =>
        if result ≠ sacdOk then (⟨result, frames, [], data⟩, area)
        else
          match soundLoop read start n (frames + 1) area with
          | (rest, area) => ({ rest with frames := data :: rest.frames }, area) := by
  have hroom : 4705 * (area.at cur r).getChannelCount.toUInt32 = area.room := by
    simp [AreaToc.getChannelCount, AreaToc.at, AreaToc.room, hinit]
  rw [soundLoop, hroom]

/-- By number every frame is counted, up to the last one. -/
theorem soundLoop_number (hr : AreaReadable read area bytes) (n : Nat) (frames cur : UInt32) (r : ρ)
    (hn : frames.toNat + n ≤ area.totalAreaPlayTime.toNat) :
    ∃ r', soundLoop read 0 n frames (area.at cur r) =
      (⟨sacdOk, frames + UInt32.ofNat n, framesFrom bytes frames n, []⟩, area.at cur r') := by
  induction n generalizing frames r with
  | zero => exact ⟨r, by simp [soundLoop, framesFrom]⟩
  | succ n ih =>
    have hlt := area.totalAreaPlayTime.toNat_lt
    have hnext : (frames + 1).toNat = frames.toNat + 1 := toNat_next le_rfl (by omega)
    have hcur : curFrameNum 0 frames = frames := by simp [curFrameNum, frameStartUseCurrent]
    obtain ⟨r₁, hget⟩ := getAudioData_number hr cur r (show frames.toNat < _ by omega)
    obtain ⟨r₂, hrest⟩ := ih (frames + 1) r₁ (by omega)
    refine ⟨r₂, ?_⟩
    rw [soundLoop_succ _ _ _ _ _ hr.initialized, hcur, hget]
    simp [hrest, areaTocOk, sacdOk, framesFrom, add_ofNat_succ]

/-- At the current position every frame before the last is counted. -/
theorem soundLoop_within (hr : AreaReadable read area bytes) (n : Nat) (frames cur : UInt32) (r : ρ)
    (hn : cur.toNat + n < area.totalAreaPlayTime.toNat) :
    ∃ r', soundLoop read frameStartUseCurrent n frames (area.at cur r) =
      (⟨sacdOk, frames + UInt32.ofNat n, framesFrom bytes cur n, []⟩,
        area.at (cur + UInt32.ofNat n) r') := by
  induction n generalizing frames cur r with
  | zero => exact ⟨r, by simp [soundLoop, framesFrom]⟩
  | succ n ih =>
    have hlt := area.totalAreaPlayTime.toNat_lt
    have hnext : (cur + 1).toNat = cur.toNat + 1 := toNat_next le_rfl (by omega)
    obtain ⟨r₁, hget⟩ := getAudioData_current hr r (show cur.toNat + 1 < _ by omega)
    obtain ⟨r₂, hrest⟩ := ih (frames + 1) (cur + 1) r₁ (by omega)
    refine ⟨r₂, ?_⟩
    rw [soundLoop_succ _ _ _ _ _ hr.initialized, curFrameNum_current, hget]
    simp [hrest, areaTocOk, sacdOk, framesFrom, add_ofNat_succ]

/-- The last frame ends the loop before it is counted. -/
theorem soundLoop_past (hr : AreaReadable read area bytes) (n : Nat) (frames cur : UInt32) (r : ρ)
    (hcur : cur.toNat < area.totalAreaPlayTime.toNat)
    (hn : area.totalAreaPlayTime.toNat ≤ cur.toNat + n) :
    ∃ r' count, soundLoop read frameStartUseCurrent n frames (area.at cur r) =
      (⟨endOfAudioData, count,
        framesFrom bytes cur (area.totalAreaPlayTime.toNat - 1 - cur.toNat),
        bytes (area.totalAreaPlayTime - 1)⟩, area.at 0 r') := by
  induction n generalizing frames cur r with
  | zero => omega
  | succ n ih =>
    have hlt := area.totalAreaPlayTime.toNat_lt
    rcases Nat.lt_or_eq_of_le (show cur.toNat + 1 ≤ area.totalAreaPlayTime.toNat from hcur)
      with hmore | hlast
    · have hnext : (cur + 1).toNat = cur.toNat + 1 := toNat_next le_rfl (by omega)
      obtain ⟨r₁, hget⟩ := getAudioData_current hr r hmore
      obtain ⟨r₂, count, hrest⟩ := ih (frames + 1) (cur + 1) r₁ (by omega) (by omega)
      have hleft : area.totalAreaPlayTime.toNat - 1 - cur.toNat =
          area.totalAreaPlayTime.toNat - 1 - (cur + 1).toNat + 1 := by omega
      refine ⟨r₂, count, ?_⟩
      rw [soundLoop_succ _ _ _ _ _ hr.initialized, curFrameNum_current, hget, hleft]
      simp [hrest, areaTocOk, sacdOk, framesFrom]
    · obtain ⟨r₁, hget⟩ := getAudioData_last hr r hlast
      have hleft : area.totalAreaPlayTime.toNat - 1 - cur.toNat = 0 := by omega
      have hcur' : area.totalAreaPlayTime - 1 = cur := by
        rw [← UInt32.toNat_inj, UInt32.toNat_sub_of_le _ _ (by
          rw [UInt32.le_iff_toNat_le, UInt32.toNat_one]; omega), UInt32.toNat_one]
        omega
      refine ⟨r₁, frames, ?_⟩
      rw [soundLoop_succ _ _ _ _ _ hr.initialized, curFrameNum_current, hget, hleft, hcur']
      simp [endOfAudioData, sacdOk, framesFrom]

/-- The area is selected, at a frame of it. -/
structure Selected (ctx : Context μ (AreaToc ρ) ι) (area : AreaToc ρ) (cur : UInt32) : Prop where
  initialized : ctx.initialized = true
  selected : ∃ r, ctx.selectedAreaToc = some (area.at cur r)
  in_area : cur.toNat < area.totalAreaPlayTime.toNat

theorem Selected.setSelected {ctx : Context μ (AreaToc ρ) ι} {cur cur' : UInt32} {r : ρ}
    (hs : Selected ctx area cur) (hin : cur'.toNat < area.totalAreaPlayTime.toNat) :
    Selected (ctx.setSelected (area.at cur' r)) area cur' :=
  ⟨by simp [hs.initialized], ⟨r, by simp⟩, hin⟩

/-- What a call at the current position does: it goes on by the frames it counts, or it
signals the end with the last frame uncounted. -/
inductive CurrentCall (area : AreaToc ρ) (bytes : UInt32 → List UInt8) (cur : UInt32)
    (sound : SoundData) (after : Context μ (AreaToc ρ) ι) : Prop where
  | onward (n : Nat) (cur' : UInt32) : cur'.toNat = cur.toNat + n →
      cur' = cur + UInt32.ofNat n → Selected after area cur' →
      sound.status ≠ endOfAudioData → sound.frames = framesFrom bytes cur n →
      CurrentCall area bytes cur sound after
  | ended : Selected after area 0 → sound.status = endOfAudioData →
      sound.frames = framesFrom bytes cur (area.totalAreaPlayTime.toNat - 1 - cur.toNat) →
      sound.uncounted = bytes (area.totalAreaPlayTime - 1) →
      CurrentCall area bytes cur sound after

theorem sacdGetSoundData_current (hr : AreaReadable read area bytes)
    {ctx : Context μ (AreaToc ρ) ι} {cur : UInt32} (hs : Selected ctx area cur)
    (count : UInt32) (sizes : Bool) :
    CurrentCall area bytes cur (sacdGetSoundData read ctx frameStartUseCurrent count sizes).1
      (sacdGetSoundData read ctx frameStartUseCurrent count sizes).2 := by
  obtain ⟨r, hsel⟩ := hs.selected
  have hin := hs.in_area
  have hrejected : CurrentCall area bytes cur ⟨sacdInvalidArgument, count, [], []⟩ ctx :=
    .onward 0 cur rfl (by simp) hs invalidArgument_ne_end rfl
  simp only [sacdGetSoundData, hs.initialized, hsel, Bool.true_eq_false, if_false]
  split
  · exact hrejected
  · split
    · exact hrejected
    · by_cases hn : cur.toNat + count.toNat < area.totalAreaPlayTime.toNat
      · obtain ⟨r', hloop⟩ := soundLoop_within hr count.toNat 0 cur r hn
        have hcur' : (cur + UInt32.ofNat count.toNat).toNat = cur.toNat + count.toNat := by
          have hlt := area.totalAreaPlayTime.toNat_lt
          rw [UInt32.ofNat_toNat, UInt32.toNat_add]
          exact Nat.mod_eq_of_lt (by omega)
        rw [hloop]
        exact .onward count.toNat _ hcur' rfl (hs.setSelected (by omega)) ok_ne_end rfl
      · obtain ⟨r', n, hloop⟩ := soundLoop_past hr count.toNat 0 cur r hin (by omega)
        rw [hloop]
        exact .ended (hs.setSelected hr.some_frame) rfl rfl rfl

theorem sacdGetSoundData_number (hr : AreaReadable read area bytes)
    {ctx : Context μ (AreaToc ρ) ι} {cur : UInt32} (hs : Selected ctx area cur) :
    (sacdGetSoundData read ctx 0 area.totalAreaPlayTime true).1 =
      ⟨sacdOk, area.totalAreaPlayTime, framesFrom bytes 0 area.totalAreaPlayTime.toNat, []⟩ := by
  obtain ⟨r, hsel⟩ := hs.selected
  obtain ⟨r', hloop⟩ := soundLoop_number hr area.totalAreaPlayTime.toNat 0 cur r (by simp)
  have htime : (area.at cur r).totalPlayTime = area.totalAreaPlayTime := by
    simp [AreaToc.totalPlayTime, AreaToc.at, hr.initialized]
  simp [sacdGetSoundData, hs.initialized, hsel, htime, hloop]

/-! ## Runs -/

/-- Calls read through the area as the explicit read does: they count the same frames, the
last call signals the end, and no call before it. -/
structure ReadsThrough (run : List SoundData) (explicit : SoundData) : Prop where
  delivers : run.flatMap SoundData.frames = explicit.frames
  signals : ∃ earlier last, run = earlier ++ [last] ∧ last.status = endOfAudioData ∧
    ∀ sound ∈ earlier, sound.status ≠ endOfAudioData

/-- A run to the first end counts every frame but the last, which lies uncounted in the
buffer. -/
theorem currentRun_to_end (hr : AreaReadable read area bytes) {ctx : Context μ (AreaToc ρ) ι}
    {cur : UInt32} (hs : Selected ctx area cur) {calls : List (UInt32 × Bool)}
    {earlier : List SoundData} {last : SoundData}
    (hrun : currentRun read ctx calls = earlier ++ [last])
    (hlast : last.status = endOfAudioData)
    (hearlier : ∀ sound ∈ earlier, sound.status ≠ endOfAudioData) :
    (earlier ++ [last]).flatMap SoundData.frames =
        framesFrom bytes cur (area.totalAreaPlayTime.toNat - 1 - cur.toNat) ∧
      last.uncounted = bytes (area.totalAreaPlayTime - 1) := by
  induction earlier generalizing ctx cur calls with
  | nil =>
    cases calls with
    | nil => simp [currentRun] at hrun
    | cons call calls =>
      simp only [currentRun, List.nil_append, List.cons.injEq] at hrun
      obtain ⟨rfl, -⟩ := hrun
      cases sacdGetSoundData_current hr hs call.1 call.2 with
      | onward n cur' _ _ _ hgoes => exact absurd hlast hgoes
      | ended _ _ hframes hrest => exact ⟨by simpa using hframes, hrest⟩
  | cons first earlier ih =>
    cases calls with
    | nil => simp [currentRun] at hrun
    | cons call calls =>
      simp only [currentRun, List.cons_append, List.cons.injEq] at hrun
      obtain ⟨rfl, hrun⟩ := hrun
      cases sacdGetSoundData_current hr hs call.1 call.2 with
      | onward n cur' hnat hcur' hs' _ hframes =>
        obtain ⟨hrest, hlast'⟩ := ih hs' hrun fun sound hmem => hearlier sound (by simp [hmem])
        have hin := hs'.in_area
        have hsplit : area.totalAreaPlayTime.toNat - 1 - cur.toNat =
            n + (area.totalAreaPlayTime.toNat - 1 - cur'.toNat) := by omega
        refine ⟨?_, hlast'⟩
        rw [List.cons_append, List.flatMap_cons, hrest, hframes, hsplit, framesFrom_add, hcur']
      | ended _ hend _ _ => exact absurd hend (hearlier _ (by simp))

/-- Calls at the current position never read through an area. -/
theorem current_never_reads_through (hr : AreaReadable read area bytes)
    {ctx : Context μ (AreaToc ρ) ι} (hs : Selected ctx area 0) (calls : List (UInt32 × Bool)) :
    ¬ReadsThrough (currentRun read ctx calls)
      (sacdGetSoundData read ctx 0 area.totalAreaPlayTime true).1 := by
  rintro ⟨hdelivers, earlier, last, hrun, hlast, hearlier⟩
  have hframes := (currentRun_to_end hr hs hrun hlast hearlier).1
  have hpos := hr.some_frame
  rw [hrun, hframes, sacdGetSoundData_number hr hs] at hdelivers
  have hlengths := congrArg List.length hdelivers
  simp only [length_framesFrom, UInt32.toNat_zero] at hlengths
  omega

/-- A reader of frames that are one byte, their number. -/
def numberReader : ReadFrame Unit := fun _ frame r => (areaTocOk, [frame.toUInt8], r)

/-- An area of one frame. -/
def oneFrameArea : AreaToc Unit := ⟨true, 1, 0, 2, .dsd3In14, ()⟩

def oneFrame : Context Unit (AreaToc Unit) Unit :=
  { Context.create with initialized := true, stAreaToc := some oneFrameArea }

theorem numberReader_readable :
    AreaReadable numberReader oneFrameArea (fun frame => [frame.toUInt8]) :=
  ⟨rfl, by decide, fun r _ _ => ⟨r, rfl⟩⟩

theorem oneFrame_selected : Selected oneFrame oneFrameArea 0 :=
  ⟨rfl, ⟨(), rfl⟩, by decide⟩

theorem current_never_reads_through_one :
    ¬ReadsThrough (currentRun numberReader oneFrame [(1, true)])
      (sacdGetSoundData numberReader oneFrame 0 1 true).1 :=
  current_never_reads_through numberReader_readable oneFrame_selected [(1, true)]

/-- The one frame read by number is counted; read at the current position it is not. -/
theorem current_read_uncounted :
    (sacdGetSoundData numberReader oneFrame 0 1 true).1 = ⟨sacdOk, 1, [[0]], []⟩ ∧
      currentRun numberReader oneFrame [(1, true)] = [⟨endOfAudioData, 0, [], [0]⟩] ∧
      ¬ReadsThrough (currentRun numberReader oneFrame [(1, true)])
        (sacdGetSoundData numberReader oneFrame 0 1 true).1 := by
  refine ⟨by decide, by decide, fun h => ?_⟩
  exact absurd h.delivers (by decide)

end AreaReadable

end DsdNexus.Sacd
