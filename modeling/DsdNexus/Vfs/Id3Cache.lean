import DsdNexus.Vfs.File

/-! # The ID3 cache and its sidecar

One cache entry for each track holds either a tag generated on demand or an
overlay the user has set; the flags tell them apart. A save writes the overlays
to the sidecar file next to the ISO and an open loads them from there. The sidecar
is what the XML and base64 layers make of it. Where the source allocates memory or
opens a file, a flag says whether it succeeds.
-/

namespace DsdNexus.Vfs

/-- `sacd_vfs_area_t`. -/
inductive VfsArea where
  | stereo | multichannel
  deriving DecidableEq, Repr

/-- `id3_cache_entry_t`; `data` is `none` for the null pointer. -/
structure CacheEntry where
  data : Option Bytes
  valid : Bool
  dirty : Bool
  fromXml : Bool
  deriving DecidableEq, Repr

def CacheEntry.empty : CacheEntry := ⟨none, false, false, false⟩

/-- What the context has found out about the ISO. The path of the sidecar may be
too long for its buffer. -/
structure Iso where
  sidecarPath : Bool
  available : VfsArea → Bool
  trackCount : VfsArea → Nat

/-- `sacd_vfs_ctx_t`, as far as the tags are concerned; there is a cache where
there are tracks. -/
structure VfsCtx extends Iso where
  isOpen : Bool
  id3Cache : VfsArea → Nat → CacheEntry

/-- A track with a cache entry. -/
def Iso.HasTrack (iso : Iso) (area : VfsArea) (t : Nat) : Prop :=
  iso.available area = true ∧ t < iso.trackCount area

instance (iso : Iso) (area : VfsArea) (t : Nat) : Decidable (iso.HasTrack area t) :=
  inferInstanceAs (Decidable (_ ∧ _))

def VfsCtx.setEntry (ctx : VfsCtx) (area : VfsArea) (t : Nat) (e : CacheEntry) : VfsCtx :=
  { ctx with id3Cache := fun a i => if a = area ∧ i = t then e else ctx.id3Cache a i }

@[simp] theorem VfsCtx.setEntry_toIso (ctx : VfsCtx) (area : VfsArea) (t : Nat) (e : CacheEntry) :
    (ctx.setEntry area t e).toIso = ctx.toIso := rfl

@[simp] theorem VfsCtx.setEntry_isOpen (ctx : VfsCtx) (area : VfsArea) (t : Nat) (e : CacheEntry) :
    (ctx.setEntry area t e).isOpen = ctx.isOpen := rfl

@[simp] theorem VfsCtx.setEntry_id3Cache (ctx : VfsCtx) (area : VfsArea) (t : Nat) (e : CacheEntry)
    (a : VfsArea) (i : Nat) :
    (ctx.setEntry area t e).id3Cache a i = if a = area ∧ i = t then e else ctx.id3Cache a i := rfl

/-! ## Tags -/

/-- The checks the operations on one track share. -/
def checkTrack (ctx : VfsCtx) (area : VfsArea) (trackNum : Nat) : Status :=
  if trackNum = 0 then .invalidParameter
  else if ¬ ctx.isOpen then .notOpen
  else if ¬ ctx.available area ∨ ctx.trackCount area < trackNum then .notFound
  else .ok

/-- The allocations of `sacd_vfs_get_id3_tag`. -/
structure GetAllocs where
  copy : Bool
  temp : Bool
  cache : Bool
  result : Bool
  deriving DecidableEq, Repr

/-- `sacd_vfs_get_id3_tag`; `render` is `sacd_id3_tag_render`, which renders nothing
where it fails. -/
def getId3Tag (render : VfsArea → Nat → Bytes) (ctx : VfsCtx) (area : VfsArea) (trackNum : Nat)
    (allocs : GetAllocs) : Status × Bytes × VfsCtx :=
  if checkTrack ctx area trackNum ≠ .ok then (checkTrack ctx area trackNum, [], ctx)
  else
    let cache := ctx.id3Cache area (trackNum - 1)
    match cache.valid, cache.data with
    | true, some data => if allocs.copy then (.ok, data, ctx) else (.memory, [], ctx)
    | _, _ =>
      if ¬ allocs.temp then (.memory, [], ctx)
      else
        let tag := render area trackNum
        if tag.length = 0 then (.format, [], ctx)
        else
          let cached := if allocs.cache then { cache with data := some tag, valid := true }
            else { cache with data := none }
          let ctx' := ctx.setEntry area (trackNum - 1) cached
          if allocs.result then (.ok, tag, ctx') else (.memory, [], ctx')

/-- `sacd_vfs_set_id3_overlay`; `alloc` is the allocation of the copy. -/
def setId3Overlay (ctx : VfsCtx) (area : VfsArea) (trackNum : Nat) (buffer : Bytes) (alloc : Bool) :
    Status × VfsCtx :=
  if buffer.length = 0 then (.invalidParameter, ctx)
  else if checkTrack ctx area trackNum ≠ .ok then (checkTrack ctx area trackNum, ctx)
  else
    let cache := ctx.id3Cache area (trackNum - 1)
    if alloc then
      (.ok, ctx.setEntry area (trackNum - 1)
        { cache with data := some buffer, valid := true, dirty := true })
    else
      (.memory, ctx.setEntry area (trackNum - 1) { cache with data := none, valid := false })

/-- `sacd_vfs_clear_id3_overlay`. -/
def clearId3Overlay (ctx : VfsCtx) (area : VfsArea) (trackNum : Nat) : Status × VfsCtx :=
  if checkTrack ctx area trackNum ≠ .ok then (checkTrack ctx area trackNum, ctx)
  else (.ok, ctx.setEntry area (trackNum - 1) ⟨none, false, true, false⟩)

def allAreas : List VfsArea := [.stereo, .multichannel]

/-- `sacd_vfs_has_unsaved_id3_changes`. -/
def hasUnsavedId3Changes (ctx : VfsCtx) : Bool :=
  ctx.isOpen && allAreas.any fun area =>
    ctx.available area && (List.range (ctx.trackCount area)).any fun t =>
      (ctx.id3Cache area t).dirty

/-! ## The sidecar -/

/-- A `Track` element; an `Id3` child that does not decode is `none`. -/
structure TrackNode where
  number : Int
  id3 : List (Option Bytes)
  deriving DecidableEq, Repr

/-- An `Area` element; its type may be neither of the two. -/
structure AreaNode where
  areaType : Option VfsArea
  tracks : List TrackNode
  deriving DecidableEq, Repr

abbrev Sidecar := List AreaNode

/-- The first `Id3` child that has data. -/
def TrackNode.firstId3 (node : TrackNode) : Option Bytes :=
  node.id3.findSome? fun text => text.filter fun decoded => decoded.length ≠ 0

/-- What a load makes of an entry. -/
def CacheEntry.loaded (data : Bytes) : CacheEntry := ⟨some data, true, false, true⟩

def loadTrack (area : VfsArea) (ctx : VfsCtx) (node : TrackNode) : VfsCtx :=
  if node.number < 1 ∨ ctx.trackCount area < node.number then ctx
  else match node.firstId3 with
    | none => ctx
    | some decoded => ctx.setEntry area (node.number.toNat - 1) (.loaded decoded)

def loadArea (ctx : VfsCtx) (node : AreaNode) : VfsCtx :=
  match node.areaType with
  | none => ctx
  | some area => if ctx.available area then node.tracks.foldl (loadTrack area) ctx else ctx

/-- `_load_id3_overlay_xml`; `none` is no file, or one that does not parse. -/
def loadId3OverlayXml (ctx : VfsCtx) (sidecar : Option Sidecar) : VfsCtx :=
  if ctx.sidecarPath then (sidecar.getD []).foldl loadArea ctx else ctx

/-- The context `sacd_vfs_open` leaves. -/
def sacdVfsOpen (iso : Iso) (sidecar : Option Sidecar) : VfsCtx :=
  loadId3OverlayXml { toIso := iso, isOpen := true, id3Cache := fun _ _ => .empty } sidecar

/-! ## Saving -/

/-- What succeeds in a save. `printed` is what the file holds instead where a step
the source does not check (an attribute, a child, the printing) goes wrong. -/
structure SaveSteps where
  docInit : Bool
  root : Bool
  areaNode : VfsArea → Bool
  trackNode : VfsArea → Nat → Bool
  base64 : VfsArea → Nat → Bool
  id3Node : VfsArea → Nat → Bool
  fopen : Bool
  printed : Option Sidecar
  remove : Bool

/-- The entries a save selects. -/
def CacheEntry.persists (e : CacheEntry) : Bool := e.valid && (e.dirty || e.fromXml)

def VfsCtx.areaHasData (ctx : VfsCtx) (area : VfsArea) : Bool :=
  ctx.available area && (List.range (ctx.trackCount area)).any fun t =>
    (ctx.id3Cache area t).persists

/-- One turn of the track loop: the node, if there is one, and the entry after it. -/
def saveTrack (steps : SaveSteps) (area : VfsArea) (t : Nat) (e : CacheEntry) :
    Option TrackNode × CacheEntry :=
  if ¬ e.persists then (none, e)
  else if ¬ steps.trackNode area t then (none, e)
  else if ¬ steps.base64 area t then (some ⟨t + 1, []⟩, e)
  else
    (some ⟨t + 1, if steps.id3Node area t then [e.data] else []⟩,
      { e with dirty := false, fromXml := true })

/-- The area loop is not left early. -/
def writesArea (steps : SaveSteps) (ctx : VfsCtx) (area : VfsArea) : Bool :=
  ctx.areaHasData area && steps.areaNode area

/-- The document of a save. -/
def sidecarDoc (steps : SaveSteps) (ctx : VfsCtx) : Sidecar :=
  allAreas.filterMap fun area =>
    if writesArea steps ctx area then
      some ⟨some area, (List.range (ctx.trackCount area)).filterMap fun t =>
        (saveTrack steps area t (ctx.id3Cache area t)).1⟩
    else none

/-- The cache after the document is built. -/
def markSaved (steps : SaveSteps) (ctx : VfsCtx) : VfsCtx :=
  { ctx with
    id3Cache := fun area t =>
      if writesArea steps ctx area ∧ t < ctx.trackCount area then
        (saveTrack steps area t (ctx.id3Cache area t)).2
      else ctx.id3Cache area t }

/-- A context and the sidecar file of its ISO. -/
structure Id3State where
  ctx : VfsCtx
  sidecar : Option Sidecar

/-- `sacd_vfs_save_id3_overlay`. -/
def saveId3Overlay (steps : SaveSteps) (s : Id3State) : Status × Id3State :=
  if ¬ s.ctx.isOpen then (.notOpen, s)
  else if ¬ s.ctx.sidecarPath then (.io, s)
  else if ¬ allAreas.any s.ctx.areaHasData then
    (.ok, { s with sidecar := if steps.remove then none else s.sidecar })
  else if ¬ steps.docInit then (.memory, s)
  else if ¬ steps.root then (.memory, s)
  else if ¬ steps.fopen then (.io, { s with ctx := markSaved steps s.ctx })
  else
    (.ok,
      { ctx := markSaved steps s.ctx
        sidecar := some (steps.printed.getD (sidecarDoc steps s.ctx)) })

/-- `sacd_overlay_flush_all` on one mount. -/
def flushMount (steps : SaveSteps) (s : Id3State) : Id3State :=
  if hasUnsavedId3Changes s.ctx then (saveId3Overlay steps s).2 else s

/-! ## Histories -/

inductive Id3Op where
  | get (area : VfsArea) (trackNum : Nat) (allocs : GetAllocs)
  | set (area : VfsArea) (trackNum : Nat) (buffer : Bytes) (alloc : Bool)
  | clear (area : VfsArea) (trackNum : Nat)
  | save (steps : SaveSteps)
  | flushAll (steps : SaveSteps)

def Id3State.apply (render : VfsArea → Nat → Bytes) (s : Id3State) : Id3Op → Id3State
  | .get area trackNum allocs =>
    { s with ctx := (getId3Tag render s.ctx area trackNum allocs).2.2 }
  | .set area trackNum buffer alloc =>
    { s with ctx := (setId3Overlay s.ctx area trackNum buffer alloc).2 }
  | .clear area trackNum => { s with ctx := (clearId3Overlay s.ctx area trackNum).2 }
  | .save steps => (saveId3Overlay steps s).2
  | .flushAll steps => flushMount steps s

/-- Every operation is enabled in every state. -/
def Id3State.step (render : VfsArea → Nat → Bytes) (s : Id3State) (op : Id3Op) : Option Id3State :=
  some (s.apply render op)

/-- A context opened on what the sidecar holds. -/
def Id3State.start (iso : Iso) (sidecar : Option Sidecar) : Id3State :=
  ⟨sacdVfsOpen iso sidecar, sidecar⟩

end DsdNexus.Vfs
