import DsdNexus.Dsdiff.Markers
import DsdNexus.Dsdiff.DsdAudio
import DsdNexus.Dsdpipe.Pipeline
import DsdNexus.Dsdpipe.SourceDsdiff
import DsdNexus.Lib.Stripes

/-! # The frames of the DSDIFF source

`dsdiff_source_seek_track` and `dsdiff_source_read_frame` of a file of DSD audio. Samples,
sample frames of one byte a channel, and bytes are converted into one another with divisions
that round down.
-/

namespace DsdNexus.Dsdpipe

open Program
open Dsdiff (OpenHandle Marker MarkerEntry ReadsAudio readDsdData seekDsdData delivered)

/-- What a call returns instead of a result; a division by zero returns nothing. -/
inductive SourceError where
  | trackNotFound
  | read
  | undefined
deriving DecidableEq

/-- `DSDIFF_SOURCE_FRAME_RATE` -/
def dsdiffSourceFrameRate : UInt32 := 75

/-- `calc_bytes_per_frame` -/
def calcBytesPerFrame (sampleRate : UInt32) (channelCount : UInt16) : UInt64 :=
  (sampleRate / dsdiffSourceFrameRate / 8).toUInt64 * channelCount.toUInt64

/-- `dsdpipe_source_dsdiff_ctx_t` with a file of DSD audio. -/
structure DsdiffSource where
  dsdiff : OpenHandle
  format : Format
  sampleRate : UInt32
  channelCount : UInt16
  tracks : List TrackInfo
  bytesPerFrame : UInt64
  currentTrack : UInt8
  currentFrame : UInt64
  trackStartSample : UInt64
  trackEndSample : UInt64
  currentSample : UInt64

/-- What `dsdiff_get_dsd_marker` makes of a cleared marker. -/
def entryMarker (entry : MarkerEntry) : Marker :=
  entry.copyTo ⟨⟨0, 0, 0, 0⟩, 0, 0, 0, 0, 0, []⟩

/-- What `dsdiff_source_open` fills in for a file of DSD audio. -/
def openedSource (s : OpenHandle) : DsdiffSource where
  dsdiff := s
  format := ⟨.dsdRaw, s.handle.sampleRate.toNat, s.handle.channelCount.toNat, 1, 75⟩
  sampleRate := s.handle.sampleRate
  channelCount := s.handle.channelCount
  tracks := (parseTracksFromMarkers (s.handle.markers.map entryMarker) s.handle.sampleRate
    (UInt64.ofNat s.handle.sampleFrameCount * 8)).2
  bytesPerFrame := calcBytesPerFrame s.handle.sampleRate s.handle.channelCount
  currentTrack := 0
  currentFrame := 0
  trackStartSample := 0
  trackEndSample := 0
  currentSample := 0

/-- A buffer `read_frame` has filled in, and the flags it set. -/
structure SourceFrame where
  data : List UInt8
  format : Format
  trackNumber : UInt8
  frameNumber : UInt64
  sampleOffset : UInt64
  trackStart : Bool
  trackEnd : Bool

namespace DsdiffSource

/-- The track with a number. -/
def track (src : DsdiffSource) (number : UInt8) : Option TrackInfo :=
  if number = 0 then none else src.tracks[number.toNat - 1]?

/-- `dsdiff_source_seek_track` -/
def seekTrack (number : UInt8) : Program SourceError DsdiffSource Unit := fun src =>
  match src.track number with
  | none => (.error .trackNotFound, src)
  | some track =>
    let src := { src with
      trackStartSample := track.startSample, trackEndSample := track.endSample }
    match seekDsdData (track.startSample / 8).toInt64 .start src.dsdiff with
    | (.error _, dsdiff) => (.error .read, { src with dsdiff := dsdiff })
    | (.ok (), dsdiff) => (.ok (), { src with
        dsdiff := dsdiff, currentTrack := number, currentFrame := 0,
        currentSample := track.startSample })

/-- `bytes_to_read`: a frame, as far as the buffer has room and the track goes. -/
def bytesToRead (src : DsdiffSource) (capacity : Nat) : UInt32 :=
  let bytesToRead := src.bytesPerFrame.toUInt32
  let bytesToRead := if capacity < bytesToRead.toNat then UInt32.ofNat capacity else bytesToRead
  let samplesRemaining := src.trackEndSample - src.currentSample
  let bytesRemaining := samplesRemaining / 8 * src.channelCount.toUInt64
  if bytesRemaining < bytesToRead.toUInt64 then bytesRemaining.toUInt32 else bytesToRead

/-- `samples_read`: the product has 32 bits. -/
def samplesRead (src : DsdiffSource) (data : List UInt8) : UInt32 :=
  UInt32.ofNat data.length / src.channelCount.toUInt32 * 8

/-- The buffer and the context behind data that have been read. -/
def fillBuffer (src : DsdiffSource) (data : List UInt8) : SourceFrame × DsdiffSource :=
  let currentSample := src.currentSample + (src.samplesRead data).toUInt64
  ({ data := data
     format := src.format
     trackNumber := src.currentTrack
     frameNumber := src.currentFrame
     sampleOffset := currentSample - src.trackStartSample
     trackStart := src.currentFrame = 0
     trackEnd := src.trackEndSample ≤ currentSample },
   { src with currentSample := currentSample, currentFrame := src.currentFrame + 1 })

/-- `dsdiff_source_read_frame`; without a frame it returns 1. After an error `bytes_read` is
zero, so that every error of the library is taken for the end of the track. -/
def readFrame (capacity : Nat) : Program SourceError DsdiffSource (Option SourceFrame) :=
  fun src =>
    if src.currentTrack = 0 then (.error .trackNotFound, src)
    else if src.trackEndSample ≤ src.currentSample then (.ok none, src)
    else
      let result := readDsdData (src.bytesToRead capacity) src.dsdiff
      let src := { src with dsdiff := result.2 }
      if delivered result.1 = [] then (.ok none, src)
      else if src.channelCount = 0 then (.error .undefined, src)
      else
        let filled := src.fillBuffer (delivered result.1)
        (.ok (some filled.1), filled.2)

/-- `dsdiff_source_get_track_frames` -/
def getTrackFrames (number : UInt8) (src : DsdiffSource) : Except SourceError UInt64 :=
  match src.track number with
  | none => .error .trackNotFound
  | some track =>
    if src.sampleRate / dsdiffSourceFrameRate = 0 then .error .undefined
    else .ok (track.sampleCount / (src.sampleRate / dsdiffSourceFrameRate).toUInt64)

/-- The calls that read. -/
inductive Call where
  | seek (number : UInt8)
  | read (capacity : Nat)

/-- What a call leaves. -/
def Call.leaves : Call → DsdiffSource → DsdiffSource
  | .seek number, src => (seekTrack number src).2
  | .read capacity, src => (readFrame capacity src).2

/-- What a sequence of calls leaves. -/
def after (src : DsdiffSource) (calls : List Call) : DsdiffSource :=
  calls.foldl (fun src call => call.leaves src) src

/-- The frames a track gives, each with the context behind it. -/
abbrev FrameRun := List (SourceFrame × DsdiffSource)

/-- A turn of the loop that reads a track. -/
def readTurn (capacity : Nat) (r : FrameRun × DsdiffSource) :
    (FrameRun × DsdiffSource) ⊕ (Except SourceError FrameRun × DsdiffSource) :=
  match readFrame capacity r.2 with
  | (.ok (some frame), src) => .inl (r.1 ++ [(frame, src)], src)
  | (.ok none, src) => .inr (.ok r.1, src)
  | (.error e, src) => .inr (.error e, src)

/-! ## What reading a track is to do -/

/-- The bytes the frames deliver. -/
def FrameRun.bytes (run : FrameRun) : List UInt8 := run.flatMap fun x => x.1.data

/-- The frames deliver the bytes, each once; behind each frame `current_sample` is what has been
delivered from the start on; the last one has the flag, and no other. -/
structure FrameRun.Covers (run : FrameRun) (start channels : Nat) (bytes : List UInt8) : Prop where
  bytes : run.bytes = bytes
  counted : ∀ front x rest, run = front ++ x :: rest → x.2.currentSample.toNat * channels =
    start * channels + 8 * (FrameRun.bytes (front ++ [x])).length
  lastFlag : ∀ front x rest, run = front ++ x :: rest → (x.1.trackEnd = true ↔ rest = [])

/-- The track does not end before it starts, and the file has its bytes. -/
structure InFile (s : OpenHandle) (t : TrackInfo) : Prop where
  ordered : t.startSample ≤ t.endSample
  inSound : s.handle.soundDataStartPos + t.endSample.toNat / 8 * s.handle.channelCount.toNat ≤
    s.handle.soundDataEndPos
  inContent : s.handle.soundDataStartPos +
    t.endSample.toNat / 8 * s.handle.channelCount.toNat ≤ s.io.content.length

/-- The sound bytes from `start / 8 * channels` to `end / 8 * channels`. -/
def trackBytes (s : OpenHandle) (t : TrackInfo) : List UInt8 :=
  slice s.io.content
    (s.handle.soundDataStartPos + t.startSample.toNat / 8 * s.handle.channelCount.toNat)
    ((t.endSample.toNat / 8 - t.startSample.toNat / 8) * s.handle.channelCount.toNat)

/-- The track can be sought and read to its end, and the reading covers its bytes; nothing is
divided by zero when its frames are counted. -/
structure ReadsTrack (s : OpenHandle) (src : DsdiffSource) (capacity : Nat) (number : UInt8)
    (t : TrackInfo) : Prop where
  covered : ∃ sought run last, seekTrack number src = (.ok (), sought) ∧
    Loop.Returns (readTurn capacity) ([], sought) (.ok run, last) ∧
    run.Covers t.startSample.toNat s.handle.channelCount.toNat (trackBytes s t)
  counted : getTrackFrames number src ≠ .error .undefined

/-- `bytes_to_read` where the track goes on: a frame as far as the buffer has room. -/
def readSize (s : OpenHandle) (capacity : Nat) : Nat :=
  min (s.handle.sampleRate.toNat / 600 * s.handle.channelCount.toNat % 2 ^ 32) capacity

/-- The sample rate is that of 75 frames a second at least. A track of whole bytes is there to be
read in sample frames: it ends at a bit of a byte where it starts, and what is read at once,
the whole track at most, is some sample frames of all channels. -/
structure WholeFrames (s : OpenHandle) (capacity : Nat) (t : TrackInfo) : Prop where
  rate : 75 ≤ s.handle.sampleRate.toNat
  frames : t.startSample.toNat / 8 < t.endSample.toNat / 8 → s.handle.channelCount ≠ 0 →
    t.startSample.toNat % 8 = t.endSample.toNat % 8 ∧ 0 < readSize s capacity ∧
      s.handle.channelCount.toNat ∣ min (readSize s capacity)
        ((t.endSample.toNat / 8 - t.startSample.toNat / 8) * s.handle.channelCount.toNat)

/-! ## What the calls keep -/

/-- The same file, with the same handle. -/
def SameFile (s t : OpenHandle) : Prop :=
  t.handle = s.handle ∧ t.io.content = s.io.content

instance : Std.Refl SameFile := ⟨fun _ => ⟨rfl, rfl⟩⟩

instance : IsTrans OpenHandle SameFile := ⟨fun _ _ _ h h' => ⟨h'.1.trans h.1, h'.2.trans h.2⟩⟩

theorem sameFile_liftIo {α : Type} {m : Dsdiff.Io α} (h : Keeps FileProgram.SameBytes m) :
    Keeps SameFile (Dsdiff.liftIo m) := fun s => ⟨rfl, h s.io⟩

theorem sameFile_readDsdData (byteCount : UInt32) : Keeps SameFile (readDsdData byteCount) :=
  Keeps.get.bind fun _ => Keeps.ite (fun _ => Keeps.pure _) fun _ =>
    (Keeps.require _ _).bind fun _ => (Keeps.require _ _).bind fun _ =>
      Keeps.ite (fun _ => Keeps.pure _) fun _ => Keeps.ite
        (fun _ => sameFile_liftIo (Dsdiff.keeps_ioReadBytes _)) fun _ => Keeps.fail _

theorem sameFile_seekDsdData {s : OpenHandle} (hmode : s.handle.mode = .read)
    (frameOffset : Int64) (origin : Dsdiff.SeekDir) :
    SameFile s (seekDsdData frameOffset origin s).2 := by
  by_cases hdst : s.handle.isDstFormat = true
  · rw [seekDsdData, bind_of_ok (get_apply s), if_pos hdst]
    exact ⟨rfl, rfl⟩
  · rw [seekDsdData, bind_of_ok (get_apply s), if_neg hdst, require_bind (by rw [hmode]; decide),
      if_pos hmode]
    exact sameFile_liftIo (Dsdiff.Seeking.seek _ _ _) s

/-- A context of the file, as it was opened and has been used since. -/
structure Opened (s : OpenHandle) (src : DsdiffSource) : Prop where
  file : SameFile s src.dsdiff
  sampleRate : src.sampleRate = s.handle.sampleRate
  channelCount : src.channelCount = s.handle.channelCount
  tracks : src.tracks = (openedSource s).tracks
  bytesPerFrame : src.bytesPerFrame = calcBytesPerFrame s.handle.sampleRate s.handle.channelCount

section Opened

variable {s : OpenHandle} {src : DsdiffSource}

theorem openedSource_opened (s : OpenHandle) : Opened s (openedSource s) :=
  ⟨⟨rfl, rfl⟩, rfl, rfl, rfl, rfl⟩

theorem Opened.of_file (h : Opened s src) {t : DsdiffSource} (hfile : SameFile src.dsdiff t.dsdiff)
    (hrest : (t.sampleRate, t.channelCount, t.tracks, t.bytesPerFrame) =
      (src.sampleRate, src.channelCount, src.tracks, src.bytesPerFrame)) : Opened s t := by
  obtain ⟨hrate, hchannels, htracks, hbytes⟩ := by simpa only [Prod.mk.injEq] using hrest
  exact ⟨IsTrans.trans _ _ _ h.file hfile, hrate.trans h.sampleRate,
    hchannels.trans h.channelCount, htracks.trans h.tracks, hbytes.trans h.bytesPerFrame⟩

theorem Opened.seekTrack (h : Opened s src) (hmode : s.handle.mode = .read) (number : UInt8) :
    Opened s (src.seekTrack number).2 := by
  have hsrc : src.dsdiff.handle.mode = .read := h.file.1 ▸ hmode
  unfold DsdiffSource.seekTrack
  split
  · exact h
  · next track htrack =>
    have hsame := sameFile_seekDsdData hsrc (track.startSample / 8).toInt64 .start
    dsimp only
    split <;> next hseek => exact h.of_file (by rwa [hseek] at hsame) rfl

theorem Opened.readFrame (h : Opened s src) (capacity : Nat) :
    Opened s (readFrame capacity src).2 := by
  have hsame := sameFile_readDsdData (src.bytesToRead capacity) src.dsdiff
  unfold DsdiffSource.readFrame
  split
  · exact h
  split
  · exact h
  dsimp only
  split
  · exact h.of_file hsame rfl
  split
  · exact h.of_file hsame rfl
  · exact h.of_file hsame rfl

theorem Opened.after (h : Opened s src) (hmode : s.handle.mode = .read) (calls : List Call) :
    Opened s (src.after calls) := by
  induction calls generalizing src with
  | nil => exact h
  | cons call calls ih =>
    cases call with
    | seek number => exact ih (h.seekTrack hmode number)
    | read capacity => exact ih (h.readFrame capacity)

/-- A file that reads audio still does where it has been moved within the sound data. -/
theorem readsAudio_of_same {a b : OpenHandle} (h : ReadsAudio a) (hsame : SameFile a b)
    (hlow : a.handle.soundDataStartPos ≤ b.io.pos) (hhigh : b.io.pos ≤ a.handle.soundDataEndPos) :
    ReadsAudio b := by
  obtain ⟨hhandle, -⟩ := hsame
  exact ⟨hhandle ▸ h.mode, hhandle ▸ h.isDsd, ⟨hhandle ▸ hlow, hhandle ▸ hhigh⟩,
    hhandle ▸ h.end_le⟩

end Opened

/-! ## Numbers -/

theorem calcBytesPerFrame_toNat (sampleRate : UInt32) (channelCount : UInt16) :
    (calcBytesPerFrame sampleRate channelCount).toNat =
      sampleRate.toNat / 600 * channelCount.toNat := by
  have hrate := sampleRate.toNat_lt
  have hchannels := channelCount.toNat_lt
  have hdiv : sampleRate.toNat / 75 / 8 = sampleRate.toNat / 600 := Nat.div_div_eq_div_mul _ _ _
  have hsmall : sampleRate.toNat / 600 * channelCount.toNat < 2 ^ 64 := by
    have := Nat.mul_le_mul (Nat.div_le_self sampleRate.toNat 600) hchannels.le
    omega
  simp only [calcBytesPerFrame, dsdiffSourceFrameRate, UInt64.toNat_mul, UInt32.toNat_toUInt64,
    UInt16.toNat_toUInt64, UInt32.toNat_div, UInt32.reduceToNat]
  rw [hdiv, Nat.mod_eq_of_lt hsmall]

/-- `bytes_remaining` -/
def bytesRemaining (src : DsdiffSource) : UInt64 :=
  (src.trackEndSample - src.currentSample) / 8 * src.channelCount.toUInt64

theorem bytesToRead_toNat (src : DsdiffSource) (capacity : Nat) :
    (src.bytesToRead capacity).toNat =
      min (min (src.bytesPerFrame.toNat % 2 ^ 32) capacity) src.bytesRemaining.toNat := by
  obtain ⟨frame, hframe⟩ : ∃ frame, (if capacity < src.bytesPerFrame.toUInt32.toNat then
      UInt32.ofNat capacity else src.bytesPerFrame.toUInt32) = frame := ⟨_, rfl⟩
  have hbytes : src.bytesPerFrame.toUInt32.toNat = src.bytesPerFrame.toNat % 2 ^ 32 :=
    UInt64.toNat_toUInt32 _
  have hmin : frame.toNat = min (src.bytesPerFrame.toNat % 2 ^ 32) capacity := by
    split at hframe
    · next hlt =>
      have hlt32 := src.bytesPerFrame.toUInt32.toNat_lt
      rw [← hframe, UInt32.toNat_ofNat_of_lt' (by change capacity < 2 ^ 32; omega)]
      omega
    · rw [← hframe]
      omega
  rw [← hmin]
  unfold bytesToRead
  dsimp only
  rw [hframe]
  split
  · next hlt =>
    have hlt : src.bytesRemaining < frame.toUInt64 := hlt
    rw [UInt64.lt_iff_toNat_lt, UInt32.toNat_toUInt64] at hlt
    have hframe32 := frame.toNat_lt
    change src.bytesRemaining.toUInt32.toNat = _
    rw [UInt64.toNat_toUInt32, Nat.mod_eq_of_lt (by omega)]
    omega
  · next hge =>
    have hge : ¬ src.bytesRemaining < frame.toUInt64 := hge
    rw [UInt64.lt_iff_toNat_lt, UInt32.toNat_toUInt64] at hge
    omega

end DsdiffSource

end DsdNexus.Dsdpipe
