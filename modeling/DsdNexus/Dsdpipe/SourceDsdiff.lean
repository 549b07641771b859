import DsdNexus.Dsdiff.DsdAudio

/-! # The DSDIFF source

The track table `parse_tracks_from_markers` builds.
-/

namespace DsdNexus.Dsdpipe

open Dsdiff (Marker Timecode cstring)

/-- `timecode_to_samples` -/
def timecodeToSamples (tc : Timecode) (sampleRate : UInt32) : UInt64 :=
  tc.hours.toUInt64 * 3600 * sampleRate.toUInt64 + tc.minutes.toUInt64 * 60 * sampleRate.toUInt64 +
    tc.seconds.toUInt64 * sampleRate.toUInt64 + tc.samples.toUInt64

/-- `sample_pos` of a marker, with its offset as a signed number. -/
def samplePos (sampleRate : UInt32) (marker : Marker) : UInt64 :=
  timecodeToSamples marker.time sampleRate + marker.offset.toInt32.toInt64.toUInt64

def markTrackStart : UInt16 := 0

def markTrackStop : UInt16 := 1

def maxTracks : Nat := 255

/-- `dsdiff_track_info_t` -/
structure TrackInfo where
  startSample : UInt64
  endSample : UInt64
  sampleCount : UInt64
  title : Option (List UInt8)
deriving DecidableEq

/-- `track_starts`, `track_ends` and `track_titles` of a track. -/
structure TrackScan where
  start : UInt64
  finish : UInt64
  title : Option (List UInt8)
deriving DecidableEq

/-- The title of a marker that has a text. -/
def markerTitle (marker : Marker) : Option (List UInt8) :=
  if marker.markerText ≠ [] ∧ 0 < marker.textLength then some (cstring marker.markerText) else none

/-- The first loop over the markers: the tracks that start, up to the end of the file. -/
def scanStarts (sampleRate : UInt32) (totalSamples : UInt64) :
    List Marker → List TrackScan → List TrackScan
  | [], tracks => tracks
  | marker :: markers, tracks =>
    if tracks.length < maxTracks then
      scanStarts sampleRate totalSamples markers
        (if marker.markType = markTrackStart then
          tracks ++ [⟨samplePos sampleRate marker, totalSamples, markerTitle marker⟩]
        else tracks)
    else tracks

/-- The inner loop of the second one: the track a stop belongs to ends there. -/
def stopTrack (samplePos : UInt64) : List TrackScan → List TrackScan
  | [] => []
  | [t] => if t.start < samplePos then [{ t with finish := samplePos }] else [t]
  | t :: next :: rest =>
    if t.start < samplePos ∧ samplePos ≤ next.start then
      { t with finish := samplePos } :: next :: rest
    else t :: stopTrack samplePos (next :: rest)

/-- The second loop over the markers. -/
def scanStops (sampleRate : UInt32) : List Marker → List TrackScan → List TrackScan
  | [], tracks => tracks
  | marker :: markers, tracks =>
    scanStops sampleRate markers
      (if marker.markType = markTrackStop then stopTrack (samplePos sampleRate marker) tracks
      else tracks)

/-- The entry of a track in the table. -/
def TrackScan.info (t : TrackScan) : TrackInfo :=
  ⟨t.start, t.finish, t.finish - t.start, t.title⟩

/-- `parse_tracks_from_markers`: the table, and whether there are markers. -/
def parseTracksFromMarkers (markers : List Marker) (sampleRate : UInt32) (totalSamples : UInt64) :
    Bool × List TrackInfo :=
  if markers = [] then (false, [⟨0, totalSamples, totalSamples, none⟩])
  else
    let tracks := scanStops sampleRate markers (scanStarts sampleRate totalSamples markers [])
    (true, (if tracks = [] then [⟨0, totalSamples, none⟩] else tracks).map TrackScan.info)

end DsdNexus.Dsdpipe
