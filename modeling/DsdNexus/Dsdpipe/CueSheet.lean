import Mathlib.Data.List.DropRight
import DsdNexus.Util.Cstring
import DsdNexus.Dsdpipe.PipelineDelivers

/-! # The CUE sheet and the edit master

`sink_cuesheet.c`, the edit master of `sink_dsdiff.c`, and what `source_sacd.c` tells both
of a disc. The state of a sink is what the calls made on it in a run have left.
-/

namespace DsdNexus.Dsdpipe

/-! ## The disc -/

/-- A frame as `sacd_get_sound_data` gives it: its bytes, and how many of them the DST
decoder makes. -/
structure DiscFrame where
  size : Nat
  decodedSize : Nat
deriving DecidableEq

/-- The album metadata a CUE sheet has. An absent text is empty. -/
structure AlbumMetadata where
  albumTitle : Bytes
  albumArtist : Bytes
  catalogNumber : Bytes
  genre : Bytes
  year : Nat
  month : Nat
  day : Nat
  discNumber : Nat
  discTotal : Nat

/-- The track metadata a CUE sheet has. -/
structure TrackMetadata where
  trackTitle : Bytes
  trackPerformer : Bytes
  isrc : Bytes
  startFrame : UInt32
  durationFrames : UInt32

/-- What an opened disc answers for its tracks. -/
structure Disc where
  album : AlbumMetadata
  trackTitle : Nat → Bytes
  trackPerformer : Nat → Bytes
  isrc : Nat → Bytes
  /-- `sacd_get_track_index_start` for index 1. -/
  indexStart : Nat → UInt32
  /-- `sacd_get_track_frame_length`. -/
  frameLength : Nat → UInt32
  /-- `sacd_get_sound_data`, by the absolute frame number. -/
  soundData : UInt32 → DiscFrame

/-- `sacd_source_get_track_metadata`. -/
def Disc.getTrackMetadata (disc : Disc) (track : Nat) : TrackMetadata where
  trackTitle := disc.trackTitle track
  trackPerformer := disc.trackPerformer track
  isrc := disc.isrc track
  startFrame := disc.indexStart track
  durationFrames := disc.frameLength track

/-- What `sacd_source_read_frame` returns for a track, one call after the other. -/
def Disc.trackFrames (disc : Disc) (track : Nat) : List DiscFrame :=
  (List.range (disc.frameLength track).toNat).map fun currentFrame =>
    disc.soundData (disc.indexStart track + UInt32.ofNat currentFrame)

/-! ## The calls on a sink -/

/-- What a sink is called for between its opening and its finalization. -/
inductive SinkCall (α : Type) where
  | trackStart (track : Nat)
  | writeFrame (buffer : Buffer α)
  | trackEnd (track : Nat)

/-- The call as the sink in this place gets it. -/
def Call.toSink (i : Nat) : Call α → Option (SinkCall α)
  | .trackStart i' _ track => if i' = i then some (.trackStart track) else none
  | .writeFrame i' _ _ _ buffer => if i' = i then some (.writeFrame buffer) else none
  | .trackEnd i' _ track => if i' = i then some (.trackEnd track) else none
  | _ => none

/-! ## The edit master -/

/-- `DSD_SAMPLES_PER_FRAME`. -/
def dsdSamplesPerFrame : Nat := 4704 * 8

/-- The size of what a buffer holds. The decoder refuses an empty frame, and what the
converter makes goes to no DSDIFF file. -/
def Payload.size : Payload DiscFrame → Nat
  | .source frame => frame.size
  | .decoded (.source frame) => frame.decodedSize
  | .endMark | .decoded _ | .converted _ => 0

/-- `dsdpipe_sink_dsdiff_ctx_t` of an edit master, with the sample positions of its markers. -/
structure EditMaster where
  writeDst : Bool
  channelCount : Nat
  currentSample : Nat
  trackStarts : List Nat
  trackStops : List Nat

/-- `dsdiff_sink_open`. -/
def EditMaster.opened (writeDst : Bool) (format : Format) : EditMaster where
  writeDst := writeDst
  channelCount := format.channelCount
  currentSample := 0
  trackStarts := []
  trackStops := []

/-- The samples of each channel `dsdiff_sink_write_frame` counts for a buffer. -/
def sampleCount (writeDst : Bool) (channelCount : Nat) (buffer : Buffer DiscFrame) : Nat :=
  if buffer.format.type = .dst ∧ writeDst = true then dsdSamplesPerFrame
  else buffer.payload.size * 8 / channelCount

/-- `dsdiff_sink_track_start`, `dsdiff_sink_write_frame` and `dsdiff_sink_track_end`. -/
def EditMaster.call (m : EditMaster) : SinkCall DiscFrame → EditMaster
  | .trackStart _ => { m with trackStarts := m.trackStarts ++ [m.currentSample] }
  | .writeFrame buffer =>
    { m with currentSample := m.currentSample + sampleCount m.writeDst m.channelCount buffer }
  | .trackEnd _ => { m with trackStops := m.trackStops ++ [m.currentSample] }

/-! ## The CUE sheet -/

/-- `CUE_MAX_TRACKS`. -/
def cueMaxTracks : Nat := 255

/-- `CUE_FRAMES_PER_SEC`. -/
def cueFramesPerSec : Nat := 75

/-- `CUE_MAX_CATALOG`. -/
def cueMaxCatalog : Nat := 17

/-- `cue_track_info_t`. -/
structure CueTrack where
  trackNumber : Nat
  title : Bytes
  performer : Bytes
  isrc : Bytes
  startFrame : UInt32
  durationFrames : UInt32

/-- `dsdpipe_sink_cue_ctx_t`. -/
structure CueSheet where
  audioFilename : Option Bytes
  album : AlbumMetadata
  tracks : List CueTrack

/-- `cue_sink_open`. -/
def CueSheet.opened (audioFilename : Option Bytes) (album : AlbumMetadata) : CueSheet where
  audioFilename := audioFilename
  album := album
  tracks := []

/-- What `cue_sink_track_start` keeps of a track. -/
def CueSheet.trackInfo (c : CueSheet) (track : Nat) (metadata : TrackMetadata) : CueTrack where
  trackNumber := track
  title := metadata.trackTitle
  performer := if metadata.trackPerformer ≠ [] then metadata.trackPerformer else c.album.albumArtist
  isrc := strlcpy metadata.isrc 13
  startFrame := metadata.startFrame
  durationFrames := metadata.durationFrames

/-- `cue_sink_track_start`. -/
def CueSheet.trackStart (c : CueSheet) (track : Nat) (metadata : TrackMetadata) :
    Except Int CueSheet :=
  if cueMaxTracks ≤ c.tracks.length then .error errorInvalidArg
  else .ok { c with tracks := c.tracks ++ [c.trackInfo track metadata] }

/-- The sheet after a call. Frames and the ends of tracks leave it alone. -/
def CueSheet.call (disc : Disc) (c : CueSheet) : SinkCall DiscFrame → CueSheet
  | .trackStart track =>
    match c.trackStart track (disc.getTrackMetadata track) with
    | .ok c' => c'
    | .error _ => c
  | .writeFrame _ | .trackEnd _ => c

/-- A position `MM:SS:FF`. -/
structure Msf where
  minutes : Nat
  seconds : Nat
  frames : Nat
deriving DecidableEq

def Msf.ofFrames (n : Nat) : Msf where
  minutes := n / cueFramesPerSec / 60
  seconds := n / cueFramesPerSec % 60
  frames := n % cueFramesPerSec

/-- The position in frames. -/
def Msf.toFrames (p : Msf) : Nat := (p.minutes * 60 + p.seconds) * cueFramesPerSec + p.frames

@[simp] theorem Msf.toFrames_ofFrames (n : Nat) : (Msf.ofFrames n).toFrames = n := by
  simp only [Msf.toFrames, Msf.ofFrames, cueFramesPerSec]
  omega

/-- `cue_escape_string`. -/
def cueEscapeString (src : Bytes) : Option Bytes :=
  if src = [] then none
  else some ((src.flatMap fun c => if c = 0x22 then [0x5C, 0x22] else [c]).rdropWhile (· = 0x20))

/-- A line of the file. Texts are as they stand between the quotes. -/
inductive CueLine where
  | remGenerated
  | remGenre (genre : Bytes)
  | remDate (year : Nat) (monthDay : Option (Nat × Nat))
  | remDisc (number total : Nat)
  | performer (text : Bytes)
  | title (text : Bytes)
  | catalog (text : Bytes)
  | file (name : Bytes)
  | track (number : Nat)
  | trackTitle (text : Bytes)
  | trackPerformer (text : Bytes)
  | isrc (text : Bytes)
  | index (number : Nat) (position : Msf)

/-- The lines before the tracks. -/
def CueSheet.header (c : CueSheet) : List CueLine :=
  [.remGenerated] ++
  (if c.album.genre ≠ [] then [.remGenre c.album.genre] else []) ++
  (if 0 < c.album.year then
    [.remDate c.album.year
      (if 0 < c.album.month ∧ 0 < c.album.day then some (c.album.month, c.album.day) else none)]
  else []) ++
  (if 1 < c.album.discTotal then [.remDisc c.album.discNumber c.album.discTotal] else []) ++
  (cueEscapeString c.album.albumArtist).toList.map .performer ++
  (cueEscapeString c.album.albumTitle).toList.map .title ++
  (cueEscapeString ((strlcpy c.album.catalogNumber cueMaxCatalog).rdropWhile (· = 0x20))).toList.map
    .catalog ++
  (cueEscapeString (c.audioFilename.getD (ascii "audio.dff"))).toList.map .file

/-- The positions of a track, where the track before it ends at `prevAbsEnd`. -/
def CueTrack.indexLines (t : CueTrack) (prevAbsEnd : Nat) : List CueLine :=
  (if prevAbsEnd < t.startFrame.toNat then [.index 0 (.ofFrames prevAbsEnd)] else []) ++
  [.index 1 (.ofFrames t.startFrame.toNat)]

def CueTrack.lines (t : CueTrack) (prevAbsEnd : Nat) : List CueLine :=
  [.track t.trackNumber] ++
  (cueEscapeString t.title).toList.map .trackTitle ++
  (cueEscapeString t.performer).toList.map .trackPerformer ++
  (if t.isrc ≠ [] then [.isrc t.isrc] else []) ++
  t.indexLines prevAbsEnd

/-- Where the track ends on the disc. -/
def CueTrack.absEnd (t : CueTrack) : Nat := t.startFrame.toNat + t.durationFrames.toNat

/-- The loop of `cue_sink_finalize`. -/
def trackLines : Nat → List CueTrack → List CueLine
  | _, [] => []
  | prevAbsEnd, t :: tracks => t.lines prevAbsEnd ++ trackLines t.absEnd tracks

/-- The file `cue_sink_finalize` writes. -/
def CueSheet.lines (c : CueSheet) : List CueLine := c.header ++ trackLines 0 c.tracks

/-! ## Reading a CUE sheet -/

/-- A track as a CUE sheet describes it. -/
structure CueEntry where
  track : Nat
  index00 : Option Msf
  index01 : Option Msf
deriving DecidableEq

/-- The tracks read so far from the end of a sheet, and the positions that belong to the
track whose line is still to come. -/
structure CueReading where
  index00 : Option Msf
  index01 : Option Msf
  entries : List CueEntry

def CueReading.add : CueLine → CueReading → CueReading
  | .track number, r => ⟨none, none, ⟨number, r.index00, r.index01⟩ :: r.entries⟩
  | .index 0 position, r => { r with index00 := some position }
  | .index 1 position, r => { r with index01 := some position }
  | _, r => r

/-- The tracks of a sheet with their positions. -/
def cueEntries (lines : List CueLine) : List CueEntry :=
  (lines.foldr CueReading.add ⟨none, none, []⟩).entries

end DsdNexus.Dsdpipe
