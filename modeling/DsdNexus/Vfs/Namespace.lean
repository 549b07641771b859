import DsdNexus.Util.Cstring
import DsdNexus.Vfs.Id3Cache

/-! # The virtual namespace

Three functions parse a path each in its own way: `sacd_vfs_readdir` lists a
directory, `sacd_vfs_stat` describes an entry and `sacd_vfs_file_open` opens a track.
What they read from the disc is the `Disc`.
-/

namespace DsdNexus.Vfs

/-- `SACD_VFS_MAX_PATH`. -/
def maxPath : Nat := 512

/-- `SACD_VFS_MAX_FILENAME`. -/
def maxFilename : Nat := 256

/-- What the readers find on the disc. `openReader` is the reader of one open file: its
initialisation, the selection of the area and the lookup of the track. -/
structure Disc where
  albumTitle : Option Bytes
  discTitle : Option Bytes
  available : VfsArea → Bool
  trackCount : VfsArea → UInt8
  selectable : VfsArea → Bool
  trackTitle : VfsArea → UInt8 → Option Bytes
  openReader : VfsArea → UInt8 → Except Status Track

/-- `sacd_vfs_ctx_t`, as far as paths are concerned. -/
structure PathCtx extends Disc where
  isOpen : Bool
  areaVisible : VfsArea → Bool

inductive EntryType where
  | directory | file
  deriving DecidableEq, Repr

/-- `sacd_vfs_entry_t`. -/
structure VfsEntry where
  name : Bytes
  type : EntryType
  size : Nat
  trackNum : UInt8
  area : VfsArea
  deriving DecidableEq, Repr

/-- An entry after the `memset`; the area of number 0 is the stereo area. -/
def VfsEntry.ofDirectory (name : Bytes) : VfsEntry :=
  { name := strlcpy name maxFilename, type := .directory, size := 0, trackNum := 0, area := .stereo }

/-! ## Names -/

/-- `album_name`, as `sacd_vfs_open` sets it. -/
def Disc.albumName (disc : Disc) : Bytes :=
  let text := match disc.albumTitle with
    | some (c :: rest) => c :: rest
    | _ => match disc.discTitle with
      | some (c :: rest) => c :: rest
      | _ => ascii "Unknown Album"
  sanitizeFilename (strlcpy text maxFilename) maxFilename

def areaName : VfsArea → Bytes
  | .stereo => ascii "Stereo"
  | .multichannel => ascii "Multi-channel"

/-- `album_path`. -/
def Disc.albumPath (disc : Disc) : Bytes := strlcpy (slash :: disc.albumName) maxPath

/-- `stereo_path` and `mc_path`. -/
def Disc.areaPath (disc : Disc) (area : VfsArea) : Bytes :=
  strlcpy (slash :: disc.albumName ++ slash :: areaName area) maxPath

/-- `sacd_vfs_should_show_area`. -/
def shouldShowArea (ctx : PathCtx) (area : VfsArea) : Bool :=
  if ¬ ctx.isOpen then false
  else if ¬ ctx.available area then false
  else if ctx.areaVisible area then true
  else
    let otherArea := match area with
      | .stereo => .multichannel
      | .multichannel => .stereo
    ! ctx.available otherArea

/-- The title in a file name: that of the track, or its number. -/
def trackTitleText (disc : Disc) (area : VfsArea) (trackNum : UInt8) : Bytes :=
  match disc.trackTitle area trackNum with
  | some (c :: rest) => sanitizeFilename (strlcpy (c :: rest) maxFilename) maxFilename
  | _ => strlcpy (ascii "Track " ++ formatTrackNum trackNum) maxFilename

/-- `sacd_vfs_get_track_filename`. -/
def getTrackFilename (ctx : PathCtx) (area : VfsArea) (trackNum : UInt8) (size : Nat) :
    Except Status Bytes :=
  if size = 0 ∨ trackNum = 0 then .error .invalidParameter
  else if ¬ ctx.isOpen then .error .notOpen
  else if ¬ ctx.available area ∨ ctx.trackCount area < trackNum then .error .notFound
  else if ¬ ctx.selectable area then
    .ok (strlcpy (formatTrackNum trackNum ++ ascii ". Track " ++ formatTrackNum trackNum ++
      ascii ".dsf") size)
  else
    .ok (strlcpy (formatTrackNum trackNum ++ ascii ". " ++
      trackTitleText ctx.toDisc area trackNum ++ ascii ".dsf") size)

/-! ## Opening a file -/

/-- The part of `sacd_vfs_file_t` the path decides, and the handle. -/
structure OpenFile where
  area : VfsArea
  trackNum : UInt8
  file : VfsFile

/-- The area `sacd_vfs_file_open` reads from a path. -/
def pathArea (path : Bytes) : Option VfsArea :=
  if strstr path (areaName .stereo) then some .stereo
  else if strstr path (areaName .multichannel) then some .multichannel
  else none

/-- `sacd_vfs_file_open`. -/
def fileOpen (ctx : PathCtx) (path : Bytes) : Except Status OpenFile :=
  if ¬ ctx.isOpen then .error .notOpen
  else match pathArea path with
    | none => .error .notFound
    | some area =>
      if ¬ shouldShowArea ctx area then .error .notFound
      else if ¬ ctx.available area then .error .notFound
      else match scanTrackNum (baseName path) with
        | none => .error .notFound
        | some trackNum =>
          if trackNum = 0 then .error .notFound
          else if ctx.trackCount area < trackNum then .error .notFound
          else match ctx.openReader area trackNum with
            | .error e => .error e
            | .ok track => .ok { area, trackNum, file := sacdVfsFileOpen track }

/-! ## Listing a directory -/

/-- The area `sacd_vfs_readdir` reads from a path below the album. -/
def listedArea (ctx : PathCtx) (path : Bytes) : Option VfsArea :=
  if strstr path (areaName .stereo) ∧ shouldShowArea ctx .stereo then some .stereo
  else if strstr path (areaName .multichannel) ∧ shouldShowArea ctx .multichannel then
    some .multichannel
  else none

/-- The name a listed track gets; nothing is written to it where there is no such track. -/
def trackEntryName (ctx : PathCtx) (area : VfsArea) (t : UInt8) : Bytes :=
  match getTrackFilename ctx area t maxFilename with
  | .ok name => name
  | .error _ => []

/-- The entry of one track; its size is that of the file its path opens. -/
def trackEntry (ctx : PathCtx) (path : Bytes) (area : VfsArea) (t : UInt8) : VfsEntry :=
  let name := trackEntryName ctx area t
  let size := match fileOpen ctx (strlcpy (path ++ slash :: name) maxPath) with
    | .ok f => f.file.info.totalSize
    | .error _ => 0
  { name, type := .file, size, trackNum := t, area }

/-- The loop over the tracks, up to `calls` entries; its counter is a byte. -/
def listTracks (ctx : PathCtx) (path : Bytes) (area : VfsArea) : Nat → UInt8 → List VfsEntry
  | 0, _ => []
  | calls + 1, t =>
    if t ≤ ctx.trackCount area then
      trackEntry ctx path area t :: listTracks ctx path area calls (t + 1)
    else []

/-- `sacd_vfs_readdir` with a callback that stops the listing at its call number
`calls`; the result is the entries passed to the callback. -/
def readdir (ctx : PathCtx) (path : Bytes) (calls : Nat) : Except Status (List VfsEntry) :=
  if ¬ ctx.isOpen then .error .notOpen
  else if path = [slash] then .ok ([VfsEntry.ofDirectory ctx.albumName].take calls)
  else if path = ctx.albumPath ∨ path = ctx.albumPath.drop 1 then
    .ok (((allAreas.filter (shouldShowArea ctx)).map fun area =>
      VfsEntry.ofDirectory (areaName area)).take calls)
  else match listedArea ctx path with
    | some area => .ok (listTracks ctx path area calls 1)
    | none => .error .notFound

/-- `sacd_vfs_stat`. -/
def stat (ctx : PathCtx) (path : Bytes) : Except Status VfsEntry :=
  if ¬ ctx.isOpen then .error .notOpen
  else if path = [slash] then .ok (VfsEntry.ofDirectory [slash])
  else if path = ctx.albumPath then .ok (VfsEntry.ofDirectory ctx.albumName)
  else if path = ctx.areaPath .stereo ∧ shouldShowArea ctx .stereo then
    .ok (VfsEntry.ofDirectory (areaName .stereo))
  else if path = ctx.areaPath .multichannel ∧ shouldShowArea ctx .multichannel then
    .ok (VfsEntry.ofDirectory (areaName .multichannel))
  else match fileOpen ctx path with
    | .ok f => .ok
      { name := strlcpy (baseName path) maxFilename
        type := .file
        size := f.file.info.totalSize
        trackNum := f.trackNum
        area := f.area }
    | .error _ => .error .notFound

/-! ## Lemmas -/

theorem slash_not_mem_areaName (area : VfsArea) : slash ∉ areaName area := by
  cases area <;> decide

theorem Disc.slash_not_mem_albumName (disc : Disc) : slash ∉ disc.albumName :=
  slash_not_mem_sanitizeFilename _ _

theorem Disc.albumName_length_lt (disc : Disc) : disc.albumName.length < maxFilename :=
  sanitizeFilename_length_lt (strlcpy_length_lt _ (by decide))

theorem Disc.albumName_ne_nil (disc : Disc) : disc.albumName ≠ [] := by
  refine sanitizeFilename_ne_nil ?_ (by decide)
  split
  · simp [strlcpy, maxFilename]
  · split
    · simp [strlcpy, maxFilename]
    · decide

theorem areaName_length_le (area : VfsArea) : (areaName area).length ≤ 13 := by
  cases area <;> decide

theorem Disc.albumPath_eq (disc : Disc) : disc.albumPath = slash :: disc.albumName := by
  have hlen := disc.albumName_length_lt
  refine strlcpy_of_length_lt ?_
  simp only [maxFilename, maxPath, List.length_cons] at hlen ⊢
  omega

theorem Disc.areaPath_eq (disc : Disc) (area : VfsArea) :
    disc.areaPath area = slash :: disc.albumName ++ slash :: areaName area := by
  have hlen := disc.albumName_length_lt
  have harea := areaName_length_le area
  refine strlcpy_of_length_lt ?_
  simp only [maxFilename, maxPath, List.length_cons, List.length_append] at hlen ⊢
  omega

end DsdNexus.Vfs
