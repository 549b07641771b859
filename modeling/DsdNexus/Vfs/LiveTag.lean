import DsdNexus.Vfs.AudioRoom
import DsdNexus.Vfs.Id3Overlay

/-! # Reading a file whose tag is edited

The size of a file is fixed when it is opened, with the tag of that moment. The metadata
region is served from the tag the context has at the read, which an overlay may have made
longer or shorter; the read loop goes by the size, the region by the tag.
-/

namespace DsdNexus.Vfs

open Scheduled Outcomes

/-! ## Calls -/

/-- A track and its place in the context; `render` is `sacd_id3_tag_render`. -/
structure TaggedTrack where
  track : Track
  area : VfsArea
  trackNum : Nat
  render : VfsArea → Nat → Bytes

/-- The tag `sacd_vfs_get_id3_tag` returns, `none` where it fails. -/
def TaggedTrack.lookup (o : TaggedTrack) (ctx : VfsCtx) (allocs : GetAllocs) :
    Option Bytes × VfsCtx :=
  let r := getId3Tag o.render ctx o.area o.trackNum allocs
  (if r.1 = .ok then some r.2.1 else none, r.2.2)

/-- The track with the tag it has when the file is opened. -/
def TaggedTrack.opened (o : TaggedTrack) (ctx : VfsCtx) (allocs : GetAllocs) : TaggedTrack :=
  { o with track := { o.track with id3Tag := (o.lookup ctx allocs).1 } }

/-- A status, the bytes stored, the handle and the context afterwards. -/
structure LiveResult extends ReadResult where
  ctx : VfsCtx

/-- `_read_metadata_region` with the tag of now. -/
def readMetadataLive (o : TaggedTrack) (ctx : VfsCtx) (allocs : GetAllocs) (f : VfsFile)
    (size : Nat) : LiveResult :=
  if f.info.metadataSize = 0 then ⟨⟨.eof, [], f⟩, ctx⟩
  else
    let looked := o.lookup ctx allocs
    ⟨readMetadataRegion { o.track with id3Tag := looked.1 } f size, looked.2⟩

section

variable {m : Type → Type} [Monad m]

def readRegionLive (o : TaggedTrack) (readAudio : VfsFile → Nat → m ReadResult) (ctx : VfsCtx)
    (allocs : GetAllocs) (f : VfsFile) (size : Nat) : m LiveResult :=
  if f.position < f.dsfHeaderSize then pure ⟨readHeaderRegion f size, ctx⟩
  else if f.position < f.info.metadataOffset then do
    let r ← readAudio f size
    pure ⟨r, ctx⟩
  else pure (readMetadataLive o ctx allocs f size)

/-- The loop of `sacd_vfs_file_read`; `allocs n` are the allocations of a lookup that is made
with `n` bytes stored. -/
def fileReadLoopLive (o : TaggedTrack) (readAudio : VfsFile → Nat → m ReadResult)
    (allocs : Nat → GetAllocs) : Nat → VfsCtx → VfsFile → Nat → Bytes → m LiveResult
  | 0, ctx, f, _, totalRead => pure ⟨⟨.ok, totalRead, f⟩, ctx⟩
  | fuel + 1, ctx, f, remaining, totalRead =>
    if 0 < remaining ∧ f.position < f.info.totalSize then do
      let r ← readRegionLive o readAudio ctx (allocs totalRead.length) f remaining
      if r.status ≠ .ok ∧ r.status ≠ .eof then
        if 0 < totalRead.length then pure ⟨⟨.ok, totalRead, r.file⟩, r.ctx⟩
        else pure ⟨⟨r.status, [], r.file⟩, r.ctx⟩
      else if r.data.length = 0 ∧
          ¬ (r.file.audioEarlyEof ∧ r.file.position < r.file.info.metadataOffset) then
        pure ⟨⟨.ok, totalRead ++ r.data, r.file⟩, r.ctx⟩
      else
        fileReadLoopLive o readAudio allocs fuel r.ctx r.file (remaining - r.data.length)
          (totalRead ++ r.data)
    else pure ⟨⟨.ok, totalRead, f⟩, ctx⟩

/-- `sacd_vfs_file_read` -/
def sacdVfsFileReadLive (o : TaggedTrack) (readAudio : VfsFile → Nat → m ReadResult)
    (allocs : Nat → GetAllocs) (ctx : VfsCtx) (f : VfsFile) (size : Nat) : m LiveResult :=
  if f.info.totalSize ≤ f.position then pure ⟨⟨.eof, [], f⟩, ctx⟩
  else fileReadLoopLive o readAudio allocs (2 * size + 1) ctx f size []

/-- The calls on an open file and on the overlay of its track. -/
inductive LiveOp where
  | read (size : Nat) (allocs : Nat → GetAllocs)
  | seek (offset : Int) (whence : Whence)
  | setOverlay (buffer : Bytes) (alloc : Bool)
  | clearOverlay

def LiveOp.run (o : TaggedTrack) (readAudio : VfsFile → Nat → m ReadResult)
    (restart : Nat → m Unit) (ctx : VfsCtx) (f : VfsFile) : LiveOp → m LiveResult
  | .read size allocs => sacdVfsFileReadLive o readAudio allocs ctx f size
  | .seek offset whence => do
    let (status, f') ← sacdVfsFileSeek restart f offset whence
    pure ⟨⟨status, [], f'⟩, ctx⟩
  | .setOverlay buffer alloc =>
    let r := setId3Overlay ctx o.area o.trackNum buffer alloc
    pure ⟨⟨r.1, [], f⟩, r.2⟩
  | .clearOverlay =>
    let r := clearId3Overlay ctx o.area o.trackNum
    pure ⟨⟨r.1, [], f⟩, r.2⟩

end

/-! ## What a read keeps -/

/-- A read from inside the file ends inside it; one of the metadata that does not report an
error returns all that is there. -/
def ReadStays (f : VfsFile) (size : Nat) (r : ReadResult) : Prop :=
  f.position ≤ f.info.totalSize →
    r.file.info = f.info ∧ r.file.position ≤ f.info.totalSize ∧
      f.position + r.data.length ≤ f.info.totalSize ∧
        (f.info.metadataOffset ≤ f.position → r.status = .ok →
          r.data.length = min size (f.info.totalSize - f.position))

def LiveOp.Keeps (f : VfsFile) (r : ReadResult) : LiveOp → Prop
  | .read size _ => ReadStays f size r
  | _ => True

/-- A tag of now that a read of the metadata meets is as long as the one the size was computed
with, as far as the read asks for it; one that a read of the audio runs into is no longer. -/
def TagFits (o : TaggedTrack) (ctx : VfsCtx) (allocs : Nat → GetAllocs) (f : VfsFile)
    (size : Nat) : Prop :=
  0 < size → f.position < f.info.totalSize →
    ∀ stored id3, (o.lookup ctx (allocs stored)).1 = some id3 →
      if f.position < f.info.metadataOffset then
        f.info.metadataSize ≠ 0 →
          min (f.position + size - f.info.metadataOffset) id3.length ≤ f.info.metadataSize
      else
        min (f.position + size - f.info.metadataOffset) id3.length =
          min (f.position + size - f.info.metadataOffset) f.info.metadataSize

/-- Audio that a read asks for beyond the end of the file: the frames are not too long, and
bytes that a seek has left to skip do not move the last block behind the end. -/
def AudioFits (t : Track) (threads : Bool) (next : Nat → Prop) (f : VfsFile) (size : Nat) : Prop :=
  f.position < f.info.metadataOffset → f.audioEarlyEof = false →
    t.FramesFit ∧ (f.position + size ≤ f.info.totalSize ∨ ∀ n, next n → SkipInside t threads f n)

/-- A call after which the file is as the claim of its size has it. -/
def LiveOp.Suits (o : TaggedTrack) (threads : Bool) (next : Nat → Prop) (ctx : VfsCtx)
    (f : VfsFile) : LiveOp → Prop
  | .read size allocs => AudioFits o.track threads next f size ∧ TagFits o ctx allocs f size
  | _ => True

/-- Call after call, as long as each suits, a call ends and keeps what it has to, whatever the
threads do. -/
def Stays {m : Type → Type} [Monad m] {σ : Type} [Outcomes m σ]
    (suits : VfsCtx → VfsFile → σ → LiveOp → Prop)
    (call : VfsCtx → VfsFile → LiveOp → m LiveResult) :
    VfsCtx → VfsFile → σ → List LiveOp → Prop
  | _, _, _, [] => True
  | ctx, f, s, op :: ops => suits ctx f s op →
    Ends (call ctx f op) s fun r s' =>
      op.Keeps f r.toReadResult ∧ Stays suits call r.ctx r.file s' ops

/-! ## The two kinds of handle -/

/-- A call on a handle without threads -/
def callPlain (o : TaggedTrack) (ctx : VfsCtx) (f : VfsFile) (op : LiveOp) : Id LiveResult :=
  op.run o (readAudioRegion o.track) (fun _ => ()) ctx f

def suitsPlain (o : TaggedTrack) (ctx : VfsCtx) (f : VfsFile) (_ : Unit) (op : LiveOp) : Prop :=
  op.Suits o false (atCurrent f) ctx f

/-- A call on a handle with threads -/
def callMt (o : TaggedTrack) (ctx : VfsCtx) (f : VfsFile) (op : LiveOp) : Threads LiveResult :=
  op.run o (readAudioRegionMt o.track) (seekCommand o.track) ctx f

def suitsMt (o : TaggedTrack) (ctx : VfsCtx) (f : VfsFile) (p : Pipeline) (op : LiveOp) : Prop :=
  op.Suits o true (fun n => p.Streams o.track n) ctx f

/-! ## The tag of now -/

/-- The tag a lookup returns if it succeeds. -/
def TaggedTrack.tag (o : TaggedTrack) (ctx : VfsCtx) : Bytes :=
  match (ctx.id3Cache o.area (o.trackNum - 1)).valid,
    (ctx.id3Cache o.area (o.trackNum - 1)).data with
  | true, some data => data
  | _, _ => o.render o.area o.trackNum

section

variable {o : TaggedTrack} {ctx : VfsCtx} {allocs : GetAllocs} {id3 : Bytes}

theorem TaggedTrack.tag_of_miss (h : ∀ data,
    (ctx.id3Cache o.area (o.trackNum - 1)).valid = true →
      (ctx.id3Cache o.area (o.trackNum - 1)).data = some data → False) :
    o.tag ctx = o.render o.area o.trackNum := by
  unfold TaggedTrack.tag
  split
  · next data hvalid hdata => exact absurd hdata (h data hvalid)
  · rfl

theorem TaggedTrack.lookup_some (h : (o.lookup ctx allocs).1 = some id3) : id3 = o.tag ctx := by
  have hlookup : (o.lookup ctx allocs).1 =
      if (getId3Tag o.render ctx o.area o.trackNum allocs).1 = .ok then
        some (getId3Tag o.render ctx o.area o.trackNum allocs).2.1 else none := rfl
  rw [hlookup] at h
  split at h
  · next hok =>
    cases h
    unfold getId3Tag at hok ⊢
    split at hok
    · next hcheck => exact absurd hok hcheck
    · next hcheck =>
      rw [if_neg hcheck]
      simp only at hok ⊢
      split at hok
      · next data hvalid hdata =>
        split at hok
        · next hcopy => rw [if_pos hcopy, TaggedTrack.tag, hvalid, hdata]
        · cases hok
      · next hmiss =>
        rw [TaggedTrack.tag_of_miss hmiss]
        split at hok
        · cases hok
        · next htemp =>
          rw [if_neg htemp]
          split at hok
          · cases hok
          · next htag =>
            rw [if_neg htag]
            split at hok
            · next hresult => rw [if_pos hresult]
            · cases hok
  · cases h

/-- A lookup leaves the tag as it is. -/
theorem TaggedTrack.tag_lookup (o : TaggedTrack) (ctx : VfsCtx) (allocs : GetAllocs) :
    o.tag (o.lookup ctx allocs).2 = o.tag ctx := by
  have hafter : (o.lookup ctx allocs).2 =
      (getId3Tag o.render ctx o.area o.trackNum allocs).2.2 := rfl
  rw [hafter]
  rcases getId3Tag_cases o.render ctx o.area o.trackNum allocs with hsame | ⟨-, hmiss, e, hset, he⟩
  · rw [hsame]
  · rw [TaggedTrack.tag_of_miss fun data hvalid hdata =>
      hmiss ⟨hvalid, by rw [hdata]; exact Option.some_ne_none _⟩]
    rw [hset, TaggedTrack.tag, VfsCtx.setEntry_id3Cache, if_pos ⟨rfl, rfl⟩]
    rcases he with ⟨-, rfl⟩ | rfl
    · rfl
    · cases (ctx.id3Cache o.area (o.trackNum - 1)).valid with
      | true => rfl
      | false => rfl

/-- No lookup of the read returns a tag that goes beyond the metadata region, as far as the
`asked` bytes from its start go. -/
def TagBound (o : TaggedTrack) (allocs : Nat → GetAllocs) (asked : Nat) (ctx : VfsCtx) : Prop :=
  o.track.info.metadataSize ≠ 0 → ∀ stored id3, (o.lookup ctx (allocs stored)).1 = some id3 →
    min asked id3.length ≤ o.track.info.metadataSize

theorem TagBound.lookup {allocs : Nat → GetAllocs} {asked : Nat} (h : TagBound o allocs asked ctx)
    {stored : Nat} (hsome : (o.lookup ctx (allocs stored)).1 = some id3) :
    TagBound o allocs asked (o.lookup ctx (allocs stored)).2 := by
  intro hsize stored' id3' hsome'
  have htag := TaggedTrack.lookup_some hsome'
  rw [o.tag_lookup, ← TaggedTrack.lookup_some hsome] at htag
  rw [htag]
  exact h hsize stored id3 hsome

end

/-! ## One kind of handle -/

/-- The parts of a handle that no call changes. -/
structure LaidOut (t : Track) (f : VfsFile) : Prop where
  info : f.info = t.info
  header : f.dsfHeader = generateDsfHeader t.info
  headerSize : f.dsfHeaderSize = (generateDsfHeader t.info).length

/-- What the read loop and the calls go by: an invariant of the handle, a condition under
which its audio stays inside the file, and what its audio reader and its restart make of them. -/
structure AudioKind {m : Type → Type} [Monad m] {σ : Type} [Outcomes m σ] (t : Track)
    (readAudio : VfsFile → Nat → m ReadResult) (restart : Nat → m Unit)
    (steady : VfsFile → σ → Prop) (fits inside : VfsFile → σ → Nat → Prop) : Prop where
  laidOut : ∀ {f s}, steady f s → LaidOut t f
  advance : ∀ {f s} n, steady f s → f.position + n ≤ (generateDsfHeader t.info).length ∨
    t.info.metadataOffset ≤ f.position → steady (f.advance n) s
  inside_of_fits : ∀ {f s size}, steady f s → f.position < t.info.metadataOffset →
    fits f s size → inside f s size
  inside_advance : ∀ {f s size n}, inside f s size →
    f.position + n ≤ (generateDsfHeader t.info).length → n ≤ size →
      inside (f.advance n) s (size - n)
  inside_late : ∀ {f s size}, t.info.metadataOffset ≤ f.position → inside f s size
  audio : ∀ {f s size}, steady f s → (generateDsfHeader t.info).length ≤ f.position →
    f.position < t.info.metadataOffset → inside f s size →
      Ends (readAudio f size) s fun r s' => AudioRead t f size (steady · s') (inside · s' ·) r
  restarted : ∀ {f s} p, steady f s →
    Ends (restart (repositionAudio f p).currentFrame) s fun _ s' => steady (repositionAudio f p) s'

section

variable {t : Track} {f : VfsFile}

theorem HasRoom.advance (h : HasRoom t f) {n : Nat}
    (hn : f.position + n ≤ (generateDsfHeader t.info).length ∨ t.info.metadataOffset ≤ f.position) :
    HasRoom t (f.advance n) := by
  refine ⟨fun hpos => ?_, h.skips⟩
  have hnew : (f.advance n).position = f.position + n := rfl
  rw [hnew] at hpos
  have hroom := h.room (by omega)
  have hfrom : audioFrom t (f.advance n) = audioFrom t f := by
    unfold audioFrom
    omega
  rw [hfrom]
  exact hroom

theorem Steady.advance (h : Steady t f) (n : Nat)
    (hn : f.position + n ≤ (generateDsfHeader t.info).length ∨ t.info.metadataOffset ≤ f.position) :
    Steady t (f.advance n) :=
  ⟨h.openedOn.advance n, fun heof => ⟨(h.audio heof).1.advance n, (h.audio heof).2.advance hn⟩⟩

theorem Bounded.advance {threads : Bool} {next : Nat → Prop} {size n : Nat}
    (h : Bounded t threads next f size)
    (hn : f.position + n ≤ (generateDsfHeader t.info).length) (hsize : n ≤ size) :
    Bounded t threads next (f.advance n) (size - n) := by
  have hnew : (f.advance n).position = f.position + n := rfl
  rcases h with heof | hlate | ⟨hfit, hinside⟩
  · exact .inl heof
  · exact .inr (.inl (by omega))
  · refine .inr (.inr ⟨hfit, ?_⟩)
    rcases hinside with hlow | hends
    · exact .inl (by omega)
    · refine .inr fun k hk e he => ?_
      have hend := hends k hk e he
      have hfrom : audioFrom t (f.advance n) = audioFrom t f := by
        unfold audioFrom
        omega
      unfold audioEnd at hend ⊢
      rw [hfrom]
      exact hend

theorem HasRoom.bounded {h : VfsFile} {threads : Bool} {next : Nat → Prop} {size : Nat}
    (hr : Ready t h) (hroom : HasRoom t h) (hpos : h.position < t.info.metadataOffset)
    (hfits : AudioFits t threads next h size) (hnext : ∀ n, next n → n = h.currentFrame) :
    Bounded t threads next h size := by
  have hinfo := hr.openedOn.info
  obtain ⟨hfit, hinside⟩ := hfits (by rw [hinfo]; exact hpos) hr.noEof
  rw [hinfo] at hinside
  refine .inr (.inr ⟨hfit, hinside.imp_right fun hskip n hn => ?_⟩)
  have hhere := hskip n hn
  rw [hnext n hn] at hhere ⊢
  exact hroom.endsInside hfit hr.start_le hpos hhere

end

theorem plain_kind (t : Track) : AudioKind (m := Id) t (readAudioRegion t) (fun _ => ())
    (fun f _ => Steady t f) (fun f _ n => AudioFits t false (atCurrent f) f n)
    (fun f _ n => Bounded t false (atCurrent f) f n) where
  laidOut := fun h => ⟨h.openedOn.info, h.openedOn.header, h.openedOn.headerSize⟩
  advance := fun n h => h.advance n
  inside_of_fits := fun {f _ _} h hpos hfits => by
    cases heof : f.audioEarlyEof with
    | true => exact .inl heof
    | false =>
      obtain ⟨hr, hroom⟩ := h.audio heof
      exact hroom.bounded hr hpos hfits fun n hn => hn
  inside_advance := fun h hn hsize => h.advance hn hsize
  inside_late := fun h => .inr (.inl h)
  audio := fun h hhead hpos hb => readAudioRegion_stays h hhead hpos hb
  restarted := fun p h => repositionAudio_steady h.openedOn p

theorem threads_kind {t : Track} (hdst : t.frameFormat = .dst) :
    AudioKind t (readAudioRegionMt t) (seekCommand t) (SteadyMt t)
      (fun f p n => AudioFits t true (fun k => p.Streams t k) f n)
      (fun f p n => Bounded t true (fun k => p.Streams t k) f n) where
  laidOut := by
    rintro f p ⟨h, frame, hview, hopen, -⟩
    rw [hview]
    exact ⟨hopen.info, hopen.header, hopen.headerSize⟩
  advance := by
    rintro f p n ⟨h, frame, hview, hopen, haudio⟩ hn
    refine ⟨h.advance n, frame, ?_, hopen.advance n, fun heof => ?_⟩
    · exact congrArg (fun g => VfsFile.advance g n) hview
    · obtain ⟨hr, hroom, hp⟩ := haudio heof
      have hpos : f.position = h.position := by rw [hview]; rfl
      rw [hpos] at hn
      exact ⟨hr.advance n, hroom.advance hn, hp⟩
  inside_of_fits := by
    rintro f p size ⟨h, frame, hview, hopen, haudio⟩ hpos hfits
    cases heof : f.audioEarlyEof with
    | true => exact .inl heof
    | false =>
      obtain ⟨hr, hroom, hp⟩ := haudio heof
      rw [heof] at hview
      subst hview
      rcases hroom.bounded hr hpos (fun hlt _ => hfits hlt rfl)
        (fun n hn => Holds.unique hn hp) with hended | hrest
      · exact absurd hended (by rw [hr.noEof]; exact Bool.false_ne_true)
      · exact .inr hrest
  inside_advance := fun h hn hsize => h.advance hn hsize
  inside_late := fun h => .inr (.inl h)
  audio := fun h hhead hpos hb => readAudioRegionMt_stays hdst h hhead hpos hb
  restarted := fun p h => Delivers.mono (seekCommand_delivers t _ _) fun _ _ hp =>
    repositionAudio_steadyMt h p hp

/-! ## The read call -/

/-- What one region leaves of a request for `size` bytes; `steady` and `inside` are those of
the kind of handle. -/
structure RegionRead (o : TaggedTrack) (allocs : Nat → GetAllocs) (f : VfsFile) (size : Nat)
    (steady : VfsFile → Prop) (inside : VfsFile → Nat → Prop) (r : LiveResult) : Prop where
  steady : steady r.file
  position : r.file.position = f.position + r.data.length
  short : r.data.length ≤ size
  inFile : r.file.position ≤ o.track.info.totalSize
  error : r.status ≠ .ok → r.data = []
  goesOn : r.data ≠ [] ∨
      (r.file.audioEarlyEof = true ∧ r.file.position < o.track.info.metadataOffset) →
    inside r.file (size - r.data.length) ∧
      TagBound o allocs (f.position + size - o.track.info.metadataOffset) r.ctx

section

variable {m : Type → Type} [Monad m] {σ : Type} [Outcomes m σ] {o : TaggedTrack}
variable {readAudio : VfsFile → Nat → m ReadResult} {restart : Nat → m Unit}
variable {steady : VfsFile → σ → Prop} {fits inside : VfsFile → σ → Nat → Prop}
variable (hk : AudioKind o.track readAudio restart steady fits inside)
variable {allocs : Nat → GetAllocs} {ctx : VfsCtx} {f : VfsFile} {s : σ} {size : Nat}
include hk

/-- The metadata region hands out the tag of now. -/
theorem readMetadataLive_stays (stored : Nat) (hf : steady f s)
    (hlate : o.track.info.metadataOffset ≤ f.position) (hpos : f.position < o.track.info.totalSize)
    (htag : TagBound o allocs (f.position + size - o.track.info.metadataOffset) ctx) :
    RegionRead o allocs f size (steady · s) (inside · s ·)
      (readMetadataLive o ctx (allocs stored) f size) := by
  have hinfo := (hk.laidOut hf).info
  have htotal := o.track.info_totalSize
  have hzero : f.advance 0 = f := rfl
  have hsize : o.track.info.metadataSize ≠ 0 := by omega
  have hnothing : ∀ (status : Status) (ctx' : VfsCtx),
      RegionRead o allocs f size (steady · s) (inside · s ·) ⟨⟨status, [], f⟩, ctx'⟩ :=
    fun status ctx' => ⟨hf, rfl, Nat.zero_le _, Nat.le_of_lt hpos, fun _ => rfl, fun hmore => by
      rcases hmore with hne | ⟨-, hlt⟩
      · exact absurd rfl hne
      · exact absurd hlt (Nat.not_lt.mpr hlate)⟩
  rw [readMetadataLive, hinfo, if_neg hsize]
  cases hlooked : (o.lookup ctx (allocs stored)).1 with
  | none =>
    simp only [hlooked]
    rw [readMetadataRegion, hinfo, if_neg hsize]
    exact hnothing _ _
  | some id3 =>
    have hbound := htag hsize stored id3 hlooked
    simp only [hlooked]
    rw [readMetadataRegion, hinfo, if_neg hsize]
    simp only
    split
    · exact hnothing _ _
    · next hmore =>
      obtain ⟨n, hn⟩ : ∃ n, n = min size (id3.length -
          (f.position - o.track.info.metadataOffset)) := ⟨_, rfl⟩
      have hlen : ((id3.drop (f.position - o.track.info.metadataOffset)).take n).length = n := by
        rw [List.length_take, List.length_drop]
        omega
      have hadvance : (f.advance n).position = f.position + n := rfl
      rw [← hn]
      refine ⟨hk.advance n hf (.inr hlate), ?_, ?_, ?_, fun hne => absurd rfl hne, fun _ =>
        ⟨hk.inside_late ?_, htag.lookup hlooked⟩⟩
      · rw [hlen]
        rfl
      · rw [hlen]
        omega
      · show f.position + n ≤ _
        omega
      · show _ ≤ f.position + n
        omega

theorem readRegionLive_stays (stored : Nat) (hf : steady f s)
    (hpos : f.position < o.track.info.totalSize) (hinside : inside f s size)
    (htag : TagBound o allocs (f.position + size - o.track.info.metadataOffset) ctx) :
    Ends (readRegionLive o readAudio ctx (allocs stored) f size) s fun r s' =>
      RegionRead o allocs f size (steady · s') (inside · s' ·) r := by
  obtain ⟨hinfo, hheader, hheaderSize⟩ := hk.laidOut hf
  have htotal := o.track.info_totalSize
  have hmeta := o.track.info_metadataOffset
  rw [readRegionLive, hinfo, hheaderSize]
  split
  · next hhead =>
    obtain ⟨n, hn⟩ : ∃ n, n = min size ((generateDsfHeader o.track.info).length - f.position) :=
      ⟨_, rfl⟩
    have hlen : (((generateDsfHeader o.track.info).drop f.position).take n).length = n := by
      rw [List.length_take, List.length_drop]
      omega
    have hread : readHeaderRegion f size = ⟨.ok,
        ((generateDsfHeader o.track.info).drop f.position).take n, f.advance n⟩ := by
      rw [readHeaderRegion, hheader, hheaderSize, hn]
    rw [hread]
    apply Outcomes.pure
    refine ⟨hk.advance n hf (.inl (by omega)), ?_, ?_, ?_, fun hne => absurd rfl hne, fun _ =>
      ⟨?_, htag⟩⟩
    · rw [hlen]
      rfl
    · rw [hlen]
      omega
    · show f.position + n ≤ _
      omega
    · rw [hlen]
      exact hk.inside_advance hinside (by omega) (by omega)
  · next hhead =>
    split
    · next haudio =>
      refine Outcomes.bind (hk.audio hf (by omega) haudio hinside) fun r s' hr =>
        Outcomes.pure ?_
      have hposition := hr.read.position
      have hshort := hr.read.short
      rw [List.length_nil] at hposition hshort
      refine ⟨hr.steady, hposition, ?_, hr.read.inFile, hr.read.error, fun hmore =>
        ⟨hr.bounded ?_, htag⟩⟩
      · show r.data.length ≤ size
        omega
      · exact hmore.imp_right And.left
    · next hlate =>
      exact Outcomes.pure (readMetadataLive_stays hk stored hf (by omega) hpos htag)

/-- Turn by turn the position and the bytes stored go together, and stay inside the file. -/
theorem fileReadLoopLive_stays (fuel start remaining : Nat) (totalRead : Bytes) (hf : steady f s)
    (hstart : start + totalRead.length = f.position) (hpos : f.position ≤ o.track.info.totalSize)
    (hinside : inside f s remaining)
    (htag : TagBound o allocs (f.position + remaining - o.track.info.metadataOffset) ctx) :
    Ends (fileReadLoopLive o readAudio allocs fuel ctx f remaining totalRead) s fun r s' =>
      steady r.file s' ∧ start + r.data.length = r.file.position ∧
        r.file.position ≤ o.track.info.totalSize := by
  induction fuel generalizing ctx f s remaining totalRead with
  | zero => exact Outcomes.pure ⟨hf, hstart, hpos⟩
  | succ fuel ih =>
    have hinfo := (hk.laidOut hf).info
    rw [fileReadLoopLive, hinfo]
    split
    · next hmore =>
      refine Outcomes.bind (readRegionLive_stays hk totalRead.length hf hmore.2 hinside htag)
        fun r s' hr => ?_
      have hposition := hr.position
      have hshort := hr.short
      have hlen : (totalRead ++ r.data).length = totalRead.length + r.data.length :=
        List.length_append
      split
      · next herror =>
        rw [hr.error herror.1, List.length_nil] at hposition
        split
        · exact Outcomes.pure ⟨hr.steady, by rw [hposition]; exact hstart, hr.inFile⟩
        · refine Outcomes.pure ⟨hr.steady, ?_, hr.inFile⟩
          show start + 0 = r.file.position
          omega
      · split
        · refine Outcomes.pure ⟨hr.steady, ?_, hr.inFile⟩
          show start + (totalRead ++ r.data).length = r.file.position
          omega
        · next hgo =>
          have hmeta : r.file.info.metadataOffset = o.track.info.metadataOffset := by
            rw [(hk.laidOut hr.steady).info]
          have hon : r.data ≠ [] ∨ (r.file.audioEarlyEof = true ∧
              r.file.position < o.track.info.metadataOffset) := by
            rw [hmeta] at hgo
            by_cases hdata : r.data = []
            · right
              by_contra hstop
              exact hgo ⟨by rw [hdata]; rfl, hstop⟩
            · exact .inl hdata
          obtain ⟨hinside', htag'⟩ := hr.goesOn hon
          refine ih (remaining - r.data.length) (totalRead ++ r.data) hr.steady (by omega)
            hr.inFile hinside' ?_
          rwa [show r.file.position + (remaining - r.data.length) = f.position + remaining by omega]
    · exact Outcomes.pure ⟨hf, hstart, hpos⟩

/-- A tag as long as the one at the opening is handed out in one turn. -/
theorem fileReadLoopLive_metadata (fuel : Nat) (hf : steady f s) (hsize : 0 < size)
    (hlate : o.track.info.metadataOffset ≤ f.position) (hpos : f.position < o.track.info.totalSize)
    (hfits : TagFits o ctx allocs f size) :
    Ends (fileReadLoopLive o readAudio allocs (fuel + 2) ctx f size []) s fun r _ =>
      r.status = .ok → r.data.length = min size (o.track.info.totalSize - f.position) := by
  have hinfo := (hk.laidOut hf).info
  have htotal := o.track.info_totalSize
  have hmeta := o.track.info_metadataOffset
  have hzero : o.track.info.metadataSize ≠ 0 := by omega
  have hregion : readRegionLive o readAudio ctx (allocs 0) f size =
      (pure (readMetadataLive o ctx (allocs 0) f size) : m LiveResult) := by
    rw [readRegionLive, hinfo, (hk.laidOut hf).headerSize, if_neg (by omega), if_neg (by omega)]
  have hhere : Ends (readRegionLive o readAudio ctx (allocs 0) f size) s fun r _ =>
      r = readMetadataLive o ctx (allocs 0) f size := by
    rw [hregion]
    exact Outcomes.pure rfl
  rw [fileReadLoopLive, hinfo, if_pos ⟨hsize, hpos⟩]
  refine Outcomes.bind hhere fun r s' hr => ?_
  rw [readMetadataLive, hinfo, if_neg hzero] at hr
  cases hlooked : (o.lookup ctx (allocs 0)).1 with
  | none =>
    simp only [hlooked, readMetadataRegion, hinfo, if_neg hzero] at hr
    subst hr
    rw [if_pos ⟨fun h => Status.noConfusion h, fun h => Status.noConfusion h⟩, if_neg (by decide)]
    exact Outcomes.pure fun h => Status.noConfusion h
  | some id3 =>
    have hequal := hfits hsize (by rw [hinfo]; exact hpos) 0 id3 hlooked
    rw [hinfo, if_neg (by omega)] at hequal
    obtain ⟨n, hn⟩ : ∃ n, n = min size (id3.length -
        (f.position - o.track.info.metadataOffset)) := ⟨_, rfl⟩
    have hlen : ((id3.drop (f.position - o.track.info.metadataOffset)).take n).length = n := by
      rw [List.length_take, List.length_drop]
      omega
    simp only [hlooked, readMetadataRegion, hinfo, if_neg hzero] at hr
    rw [if_neg (by omega), ← hn] at hr
    subst hr
    rw [if_neg (by simp), if_neg (by rw [hlen]; omega), List.nil_append, hlen]
    have hdone : ¬ (0 < size - n ∧ (f.advance n).position < o.track.info.totalSize) := by
      show ¬ (0 < size - n ∧ f.position + n < o.track.info.totalSize)
      omega
    rw [fileReadLoopLive]
    simp only
    rw [show (f.advance n).info = f.info from rfl, hinfo, if_neg hdone]
    apply Outcomes.pure
    intro _
    rw [hlen]
    omega

/-- One call of a run. -/
theorem LiveOp.run_stays {threads : Bool} {next : σ → VfsFile → Nat → Prop}
    (hfits : ∀ f s size, AudioFits o.track threads (next s f) f size → fits f s size)
    (op : LiveOp) (hf : steady f s) (hsuits : op.Suits o threads (next s f) ctx f) :
    Ends (op.run o readAudio restart ctx f) s fun r s' =>
      op.Keeps f r.toReadResult ∧ steady r.file s' := by
  have hinfo := (hk.laidOut hf).info
  have htotal := o.track.info_totalSize
  cases op with
  | setOverlay buffer alloc => exact Outcomes.pure ⟨trivial, hf⟩
  | clearOverlay => exact Outcomes.pure ⟨trivial, hf⟩
  | seek offset whence =>
    have hseek : Ends (sacdVfsFileSeek restart f offset whence) s fun r s' => steady r.2 s' := by
      rw [sacdVfsFileSeek]
      cases seekTarget f.position f.info.totalSize offset whence with
      | none => exact Outcomes.pure hf
      | some newPos =>
        simp only
        split
        · exact Outcomes.pure hf
        · split
          · exact Outcomes.pure hf
          · exact Outcomes.bind (hk.restarted _ hf) fun _ _ hnew => Outcomes.pure hnew
    exact Outcomes.bind hseek fun r s' hr => Outcomes.pure ⟨trivial, hr⟩
  | read size allocs =>
    obtain ⟨haudio, htags⟩ := hsuits
    show Ends (sacdVfsFileReadLive o readAudio allocs ctx f size) s _
    rw [sacdVfsFileReadLive, hinfo]
    split
    · next hend =>
      refine Outcomes.pure ⟨fun hle => ⟨rfl, hle, ?_, fun _ hok => Status.noConfusion hok⟩, hf⟩
      exact hle
    · next hpos =>
      have hinside : inside f s size := by
        obtain haud | hlate := Nat.lt_or_ge f.position o.track.info.metadataOffset
        · exact hk.inside_of_fits hf haud (hfits f s size haudio)
        · exact hk.inside_late hlate
      have hbound : 0 < size →
          TagBound o allocs (f.position + size - o.track.info.metadataOffset) ctx := by
        intro hsize hzero stored id3 hlooked
        have hlive := htags hsize (by rw [hinfo]; omega) stored id3 hlooked
        rw [hinfo] at hlive
        split at hlive
        · exact hlive hzero
        · omega
      by_cases hsize : size = 0
      · rw [hsize, Nat.mul_zero, Nat.zero_add, fileReadLoopLive, if_neg (by omega)]
        refine Outcomes.pure ⟨fun hle => ⟨rfl, hle, hle, fun _ _ => ?_⟩, hf⟩
        rw [Nat.zero_min]
        rfl
      · have hloop := fileReadLoopLive_stays hk (2 * size + 1) f.position size [] hf rfl
          (by omega) hinside (hbound (by omega))
        have hwhole : Ends (fileReadLoopLive o readAudio allocs (2 * size + 1) ctx f size []) s
            fun r _ => o.track.info.metadataOffset ≤ f.position → r.status = .ok →
              r.data.length = min size (o.track.info.totalSize - f.position) := by
          by_cases hlate : o.track.info.metadataOffset ≤ f.position
          · have hmeta := fileReadLoopLive_metadata hk (2 * size - 1) hf (by omega) hlate
              (by omega) htags
            rw [show 2 * size - 1 + 2 = 2 * size + 1 by omega] at hmeta
            exact Outcomes.mono hmeta fun r s' h _ => h
          · exact Outcomes.mono hloop fun r s' _ h => absurd h hlate
        refine Outcomes.mono (Outcomes.both hloop hwhole) fun r s' h => ⟨fun _ => ?_, h.1.1⟩
        rw [hinfo]
        exact ⟨(hk.laidOut h.1.1).info, h.1.2.2, h.1.2.1.trans_le h.1.2.2, h.2⟩

/-- A run of calls from a steady handle. -/
theorem stays_of_steady {threads : Bool} {next : σ → VfsFile → Nat → Prop}
    (hfits : ∀ f s size, AudioFits o.track threads (next s f) f size → fits f s size)
    (ops : List LiveOp) (ctx : VfsCtx) (hf : steady f s) :
    Stays (fun ctx f s op => op.Suits o threads (next s f) ctx f)
      (fun ctx f op => op.run o readAudio restart ctx f) ctx f s ops := by
  induction ops generalizing ctx f s with
  | nil => trivial
  | cons op ops ih =>
    intro hsuits
    exact Outcomes.mono (LiveOp.run_stays hk hfits op hf hsuits) fun r s' h =>
      ⟨h.1, ih r.ctx h.2⟩

end

/-- On a file opened with the tag of then, in a run whose calls suit, every read stays inside
the file and every read of the metadata returns all of it or an error. -/
theorem overlay_reads_stay (o : TaggedTrack) (ctx : VfsCtx) (allocs : GetAllocs)
    (ops : List LiveOp) :
    Stays (suitsPlain (o.opened ctx allocs)) (callPlain (o.opened ctx allocs))
        (o.lookup ctx allocs).2 (sacdVfsFileOpen (o.opened ctx allocs).track) () ops ∧
      (o.track.frameFormat = .dst →
        Stays (suitsMt (o.opened ctx allocs)) (callMt (o.opened ctx allocs))
          (o.lookup ctx allocs).2 (sacdVfsFileOpenMt (o.opened ctx allocs).track)
          (Pipeline.start (o.opened ctx allocs).track) ops) := by
  constructor
  · exact stays_of_steady (plain_kind _) (fun _ _ _ h => h) ops _ (sacdVfsFileOpen_steady _)
  · intro hdst
    exact stays_of_steady (threads_kind (t := (o.opened ctx allocs).track) hdst) (fun _ _ _ h => h)
      ops _ (sacdVfsFileOpenMt_steadyMt _)

/-! ## A tag that grows

A track without frames whose rendered tag is one byte, and an overlay for it. -/

def bareTagged : TaggedTrack where
  track := { unreadTrack with frameCount := 0 }
  area := .stereo
  trackNum := 1
  render := fun _ _ => [7]

def bareCtx : VfsCtx :=
  sacdVfsOpen ⟨true, fun area => area = .stereo, fun _ => 1⟩ none

def allAllocs : GetAllocs := ⟨true, true, true, true⟩

/-- The file, opened with the rendered tag. -/
def bareOpened : TaggedTrack := bareTagged.opened bareCtx allAllocs

/-- The context once the tag is replaced. -/
def overlaid (buffer : Bytes) : VfsCtx :=
  (setId3Overlay (bareTagged.lookup bareCtx allAllocs).2 .stereo 1 buffer true).2

/-- The read behind the overlay. -/
def bareRead (buffer : Bytes) : ReadResult :=
  (callPlain bareOpened (overlaid buffer) (sacdVfsFileOpen bareOpened.track)
    (.read 200 fun _ => allAllocs)).run.toReadResult

theorem overlay_reads_stay_bare :
    ReadStays (sacdVfsFileOpen bareOpened.track) 200 (bareRead [9]) ∧
      Stays (suitsMt bareOpened) (callMt bareOpened) (bareTagged.lookup bareCtx allAllocs).2
        (sacdVfsFileOpenMt bareOpened.track) (Pipeline.start bareOpened.track)
        [.setOverlay [9] true, .read 200 fun _ => allAllocs] := by
  have hruns := overlay_reads_stay bareTagged bareCtx allAllocs
    [.setOverlay [9] true, .read 200 fun _ => allAllocs]
  have htag : bareOpened.tag (overlaid [9]) = [9] := by decide
  have hsize : bareOpened.track.info.metadataSize = 1 := by decide
  refine ⟨((hruns.1 trivial).2 ⟨?_, ?_⟩).1, hruns.2 rfl⟩
  · refine fun _ _ => ⟨fun n hlo hhi => ?_, .inr fun n _ => skipInside_of_zero rfl⟩
    exact absurd (Nat.lt_of_le_of_lt hlo hhi) (Nat.lt_irrefl _)
  · intro _ _ stored id3 hlooked
    have hid3 : id3 = [9] := (TaggedTrack.lookup_some hlooked).trans htag
    rw [hid3]
    exact fun _ => (Nat.min_le_right _ _).trans_eq hsize.symm

theorem overlay_read_passes_end :
    ¬ ∀ (o : TaggedTrack) (ctx : VfsCtx) (allocs : GetAllocs) (ops : List LiveOp),
      Stays (fun _ _ _ _ => True) (callPlain (o.opened ctx allocs)) (o.lookup ctx allocs).2
          (sacdVfsFileOpen (o.opened ctx allocs).track) () ops ∧
        (o.track.frameFormat = .dst →
          Stays (fun _ _ _ _ => True) (callMt (o.opened ctx allocs)) (o.lookup ctx allocs).2
            (sacdVfsFileOpenMt (o.opened ctx allocs).track)
            (Pipeline.start (o.opened ctx allocs).track) ops) := by
  intro h
  have hruns := (h bareTagged bareCtx allAllocs
    [.setOverlay [1, 2, 3] true, .read 200 fun _ => allAllocs]).1
  have hread : ReadStays (sacdVfsFileOpen bareOpened.track) 200 (bareRead [1, 2, 3]) :=
    ((hruns trivial).2 trivial).1
  have hlength : (bareRead [1, 2, 3]).data.length = 95 := by decide
  have htotal : bareOpened.track.info.totalSize = 93 := by decide
  have hinside := (hread (Nat.zero_le _)).2.2.1
  rw [hlength, show (sacdVfsFileOpen bareOpened.track).info.totalSize = 93 from htotal] at hinside
  exact absurd hinside (by decide)

end DsdNexus.Vfs
