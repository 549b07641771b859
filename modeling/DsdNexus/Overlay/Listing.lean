import DsdNexus.Lib.Longest
import DsdNexus.Overlay.Write

/-! # Listing the source directories

`sacd_overlay_readdir` shows an ISO file as a folder and registers it under the virtual
path of the folder; `sacd_overlay_stat` and `sacd_overlay_open` find the folder again by
its path. Modelled up to the point where a path inside an ISO is left to libsacdvfs.
-/

namespace DsdNexus.Overlay

open Vfs

/-- `SACD_OVERLAY_MAX_FILENAME`. -/
def overlayMaxFilename : Nat := 256

/-- What `stat` finds at a path of the source, and whether libsacd takes a file for a disc. -/
inductive SourceNode where
  | directory
  | file (sacd : Bool)
  deriving DecidableEq, Repr

abbrev SourceFs := Bytes → Option SourceNode

/-- `iso_mount_t`, as far as its place goes. -/
structure IsoMount where
  isoPath : Bytes
  displayName : Bytes
  parentVpath : Bytes
  isoVpath : Bytes
  deriving DecidableEq, Repr

/-- `sacd_overlay_ctx_t`, as far as the paths go; 0 stands for no limit on the ISOs. -/
structure OverlayCtx where
  sourceDir : Bytes
  extIso : Bool
  extIsoUpper : Bool
  maxOpenIsos : Nat
  isoMounts : List IsoMount
  deriving DecidableEq, Repr

/-! ## Paths -/

/-- Backslashes become slashes in a buffer of the greatest length. -/
def normalizePath (vpath : Bytes) : Bytes :=
  (strlcpy vpath overlayMaxPath).map fun c => if c = 0x5C then slash else c

/-- The loop that cuts slashes off the end of a path, but not its first byte. -/
def trimSlashes : Bytes → Bytes
  | [] => []
  | c :: rest => c :: rest.rdropWhile (· = slash)

/-- `_overlay_build_source_path`; the sources are those of a system with slashes. -/
def buildSourcePath (ctx : OverlayCtx) (vpath : Bytes) : Option Bytes :=
  let relPath := (normalizePath vpath).dropWhile (· = slash)
  if relPath = [] then some (strlcpy ctx.sourceDir overlayMaxPath)
  else if overlayMaxPath ≤ (ctx.sourceDir ++ slash :: relPath).length then none
  else some (ctx.sourceDir ++ slash :: relPath)

/-- `strrchr(path, '.')`, from the dot on. -/
def extension (path : Bytes) : Option Bytes :=
  if 0x2E ∈ path then some (0x2E :: path.rtakeWhile (· ≠ 0x2E)) else none

def toLower (c : UInt8) : UInt8 := if 0x41 ≤ c ∧ c ≤ 0x5A then c + 0x20 else c

/-- `_overlay_is_iso_file`. -/
def isIsoFile (ctx : OverlayCtx) (path : Bytes) : Bool :=
  match extension path with
  | none => false
  | some ext =>
    (ctx.extIso && ext = ascii ".iso") || (ctx.extIsoUpper && ext = ascii ".ISO") ||
      (ctx.extIso && ctx.extIsoUpper && ext.map toLower = ascii ".iso")

/-- The name of a sidecar file. -/
def isSidecarName (name : Bytes) : Bool :=
  decide (8 < name.length) && (ascii ".iso.xml").isSuffixOf name

/-- `_overlay_parse_path`. -/
def parsePath (vpath : Bytes) : Bytes × Bytes :=
  let path := trimSlashes (normalizePath vpath)
  if path = [] ∨ path = [slash] then ([slash], [])
  else
    let filename := strlcpy (baseName path) overlayMaxFilename
    let parent := path.take (path.length - (baseName path).length - 1)
    (if slash ∉ path ∨ parent = [] then [slash] else parent, filename)

/-! ## The table of mounts -/

/-- `iso_vpath` before it goes to its buffer. -/
def vpathOf (parentVpath displayName : Bytes) : Bytes :=
  if parentVpath = [slash] then slash :: displayName else parentVpath ++ slash :: displayName

/-- A mount lies at a path or above it. -/
def IsoMount.covers (m : IsoMount) (path : Bytes) : Bool :=
  m.isoVpath.isPrefixOf path &&
    (path.length = m.isoVpath.length || path[m.isoVpath.length]? = some slash)

/-- `_overlay_find_iso_by_vpath`. -/
def findIsoByVpath (ctx : OverlayCtx) (vpath : Bytes) : Option IsoMount :=
  let normPath := trimSlashes (normalizePath vpath)
  Longest.longest (fun m : IsoMount => m.covers normPath) (fun m => m.isoVpath.length) ctx.isoMounts

/-- `_overlay_find_iso_mount`. -/
def findIsoMount (ctx : OverlayCtx) (isoPath : Bytes) : Option IsoMount :=
  ctx.isoMounts.find? fun m => m.isoPath = isoPath

/-- The entry `_overlay_get_or_create_iso` makes. -/
def IsoMount.create (isoPath parentVpath displayName : Bytes) : IsoMount where
  isoPath := strlcpy isoPath overlayMaxPath
  displayName := strlcpy displayName overlayMaxFilename
  parentVpath := strlcpy parentVpath overlayMaxPath
  isoVpath := strlcpy (vpathOf parentVpath displayName) overlayMaxPath

/-- `_overlay_get_or_create_iso`; `alloc` is its allocations. -/
def getOrCreateIso (ctx : OverlayCtx) (isoPath parentVpath displayName : Bytes) (alloc : Bool) :
    Option IsoMount × OverlayCtx :=
  match findIsoMount ctx isoPath with
  | some m => (some m, ctx)
  | none =>
    if (0 < ctx.maxOpenIsos ∧ ctx.maxOpenIsos ≤ ctx.isoMounts.length) ∨ ¬ alloc then (none, ctx)
    else
      let m := IsoMount.create isoPath parentVpath displayName
      (some m, { ctx with isoMounts := ctx.isoMounts ++ [m] })

/-! ## Listing -/

/-- An entry the file system enumerates, and whether there is memory to register it. -/
structure DirEntry where
  name : Bytes
  isDir : Bool
  alloc : Bool
  slash_not_mem : slash ∉ name

/-- An entry `sacd_overlay_readdir` reports; a folder comes with the ISO it stands for. -/
inductive ListedEntry where
  | iso (name isoPath : Bytes)
  | source (name : Bytes) (isDir : Bool)
  deriving DecidableEq, Repr

/-- The candidates of the collision rule, from number `idx` on. The loop ends with the
first that has not been seen, or with the range of its counter. -/
def freeName (seen : List Bytes) (base : Bytes) : Nat → Nat → Bytes → Option Bytes
  | 0, _, _ => none
  | fuel + 1, idx, displayName =>
    if displayName ∉ seen then some displayName
    else
      let base := if overlayMaxFilename ≤ base.length + 10 then base.take (overlayMaxFilename - 11)
        else base
      freeName seen base fuel (idx + 1)
        (strlcpy (base ++ ascii " (" ++ decimal (idx + 1) ++ ascii ")") overlayMaxFilename)

/-- The name of an ISO file without its extension. -/
def isoBaseName (name : Bytes) : Bytes :=
  let base := strlcpy name overlayMaxFilename
  if 0x2E ∈ base then base.take (base.length - (base.rtakeWhile (· ≠ 0x2E)).length - 1) else base

/-- `display_name`. -/
def displayNameOf (seen : List Bytes) (name : Bytes) : Option Bytes :=
  freeName seen (isoBaseName name) (2 ^ 31) 0 (isoBaseName name)

/-- The state of a scan: the context, the seen names and the entries reported. -/
structure Scan where
  ctx : OverlayCtx
  seen : List Bytes
  listed : List ListedEntry

/-- The part of `_readdir_source_callback` behind the recognition of an ISO. -/
def scanIso (vpath isoPath : Bytes) (e : DirEntry) (scan : Scan) : Scan :=
  match displayNameOf scan.seen e.name with
  | none => scan
  | some displayName =>
    let result := getOrCreateIso scan.ctx isoPath vpath displayName e.alloc
    { ctx := result.2
      seen := displayName :: scan.seen
      listed := if result.1.isSome then scan.listed ++ [.iso displayName isoPath]
        else scan.listed }

/-- `_readdir_source_callback`. -/
def scanEntry (fs : SourceFs) (vpath : Bytes) (scan : Scan) (e : DirEntry) : Scan :=
  if e.name = ascii "." ∨ e.name = ascii ".." then scan
  else match buildSourcePath scan.ctx vpath with
    | none => scan
    | some sourcePath =>
      if overlayMaxPath ≤ sourcePath.length + 1 + e.name.length then scan
      else
        let fullPath := sourcePath ++ slash :: e.name
        if ¬ e.isDir ∧ isIsoFile scan.ctx fullPath then
          if (findIsoMount scan.ctx fullPath).isSome ∨ fs fullPath = some (.file true) then
            scanIso vpath fullPath e scan
          else scan
        else if isSidecarName e.name then scan
        else
          { scan with
            seen := e.name :: scan.seen
            listed := scan.listed ++ [.source e.name e.isDir] }

/-- `sacd_overlay_readdir` of a directory of the source; `entries` is what the file system
enumerates until the callback stops it. A path inside an ISO is left to libsacdvfs and
shows no folders of other ISOs. -/
def overlayReaddir (ctx : OverlayCtx) (fs : SourceFs) (vpath : Bytes) (entries : List DirEntry) :
    List ListedEntry × OverlayCtx :=
  match findIsoByVpath ctx vpath with
  | some _ => ([], ctx)
  | none =>
    match buildSourcePath ctx vpath with
    | none => ([], ctx)
    | some sourcePath =>
      if fs sourcePath = some .directory then
        let scan := entries.foldl (scanEntry fs vpath) ⟨ctx, [], []⟩
        (scan.listed, scan.ctx)
      else ([], ctx)

/-! ## Finding -/

/-- Where a path leads. -/
inductive Target where
  | root
  | source (node : SourceNode)
  /-- A mount and the path inside it, if there is more than the folder. -/
  | mount (m : IsoMount) (innerPath : Option Bytes)
  | unmounted (isoPath : Bytes)
  | notFound
  deriving DecidableEq, Repr

/-- `inner_path`: what follows the display name. -/
def innerPathOf (m : IsoMount) (path : Bytes) : Option Bytes :=
  let rel := path.drop m.parentVpath.length
  let relPath := if rel.head? = some slash then rel.tail else rel
  if slash ∈ relPath then some (relPath.dropWhile (· ≠ slash)) else none

/-- The last attempt of `sacd_overlay_stat`: an ISO of that name that is not registered. -/
def statUnmounted (ctx : OverlayCtx) (fs : SourceFs) (path : Bytes) : Target :=
  let parsed := parsePath path
  match buildSourcePath ctx parsed.1 with
  | none => .notFound
  | some parentSource =>
    if overlayMaxFilename ≤ parsed.2.length + 4 then .notFound
    else if overlayMaxPath ≤ parentSource.length + 1 + (parsed.2.length + 4) then .notFound
    else
      let isoPath := parentSource ++ slash :: parsed.2 ++ ascii ".iso"
      if fs isoPath = some (.file true) then .unmounted isoPath else .notFound

/-- The node of the source at a virtual path. -/
def sourceNode (ctx : OverlayCtx) (fs : SourceFs) (path : Bytes) : Option SourceNode :=
  (buildSourcePath ctx path).bind fs

/-- `sacd_overlay_stat`. -/
def overlayStat (ctx : OverlayCtx) (fs : SourceFs) (path : Bytes) : Target :=
  if path = [slash] ∨ path = [] then .root
  else match sourceNode ctx fs path with
    | some node =>
      if node ≠ .directory ∧ isIsoFile ctx ((buildSourcePath ctx path).getD []) then .notFound
      else if isSidecarName (baseName path) then .notFound
      else .source node
    | none =>
      match findIsoByVpath ctx path with
      | some m => .mount m (innerPathOf m path)
      | none => statUnmounted ctx fs path

/-- `sacd_overlay_open`. -/
def overlayOpen (ctx : OverlayCtx) (fs : SourceFs) (path : Bytes) : Target :=
  match findIsoByVpath ctx path with
  | some m => .mount m (innerPathOf m path)
  | none =>
    match sourceNode ctx fs path with
    | some node =>
      if isIsoFile ctx ((buildSourcePath ctx path).getD []) then .notFound else .source node
    | none => .notFound

end DsdNexus.Overlay
