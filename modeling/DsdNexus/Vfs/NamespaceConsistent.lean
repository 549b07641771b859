import DsdNexus.Vfs.Namespace

/-! # When a listing is found again

What `sacd_vfs_readdir` lists under a path is held against what `sacd_vfs_stat` and
`sacd_vfs_file_open` say about the joined paths. The listing takes every path with an
area name in it for that area, and so does the open, which looks for the stereo area first.
-/

namespace DsdNexus.Vfs

/-! ## Listed tracks -/

theorem shouldShowArea_isOpen {ctx : PathCtx} {area : VfsArea}
    (h : shouldShowArea ctx area = true) : ctx.isOpen = true := by
  by_contra hopen
  simp [shouldShowArea, hopen] at h

theorem shouldShowArea_available {ctx : PathCtx} {area : VfsArea}
    (h : shouldShowArea ctx area = true) : ctx.available area = true := by
  by_contra havail
  simp [shouldShowArea, havail] at h

theorem listedArea_shown {ctx : PathCtx} {path : Bytes} {area : VfsArea}
    (h : listedArea ctx path = some area) :
    shouldShowArea ctx area = true ∧ strstr path (areaName area) = true := by
  unfold listedArea at h
  split at h
  · next hst =>
    cases h
    exact ⟨hst.2, hst.1⟩
  split at h
  · next hmc =>
    cases h
    exact ⟨hmc.2, hmc.1⟩
  · cases h

/-- A file name is the number of its track, a dot and the rest. -/
theorem strlcpy_formatTrackNum (t : UInt8) (rest : Bytes) :
    strlcpy (formatTrackNum t ++ 0x2E :: rest) maxFilename =
      formatTrackNum t ++ 0x2E :: rest.take (254 - (formatTrackNum t).length) := by
  obtain ⟨-, -, hlen, -⟩ := formatTrackNum_spec t
  have hsucc : 255 - (formatTrackNum t).length = 254 - (formatTrackNum t).length + 1 := by omega
  rw [strlcpy, maxFilename, List.take_append, List.take_of_length_le (by omega)]
  simp [hsucc]

theorem slash_not_mem_formatTrackNum (t : UInt8) : slash ∉ formatTrackNum t := by
  intro hmem
  have hdigit := (formatTrackNum_spec t).1 slash hmem
  simp [not_isDigit_slash] at hdigit

theorem slash_not_mem_trackTitleText (disc : Disc) (area : VfsArea) (t : UInt8) :
    slash ∉ trackTitleText disc area t := by
  unfold trackTitleText
  split
  · exact slash_not_mem_sanitizeFilename _ _
  · intro hmem
    rcases List.mem_append.1 (List.mem_of_mem_take hmem) with h | h
    · exact absurd h (by decide)
    · exact slash_not_mem_formatTrackNum t h

/-- The name of a listed track has no slash and gives its number back. -/
theorem trackEntryName_spec {ctx : PathCtx} {area : VfsArea} {t : UInt8}
    (hshow : shouldShowArea ctx area = true) (hpos : t ≠ 0) (hle : t ≤ ctx.trackCount area) :
    slash ∉ trackEntryName ctx area t ∧ scanTrackNum (trackEntryName ctx area t) = some t := by
  have hopen := shouldShowArea_isOpen hshow
  have havail := shouldShowArea_available hshow
  have hname : ∃ rest, slash ∉ rest ∧ getTrackFilename ctx area t maxFilename =
      .ok (strlcpy (formatTrackNum t ++ 0x2E :: rest) maxFilename) := by
    by_cases hsel : ctx.selectable area = true
    · refine ⟨0x20 :: (trackTitleText ctx.toDisc area t ++ ascii ".dsf"), ?_, ?_⟩
      · have htitle := slash_not_mem_trackTitleText ctx.toDisc area t
        simp [htitle]
        decide
      · simp [getTrackFilename, maxFilename, hpos, hopen, havail, hle, hsel, ascii]
    · refine ⟨ascii " Track " ++ (formatTrackNum t ++ ascii ".dsf"), ?_, ?_⟩
      · have hnum := slash_not_mem_formatTrackNum t
        simp [hnum]
        decide
      · simp [getTrackFilename, maxFilename, hpos, hopen, havail, hle, hsel, ascii]
  obtain ⟨rest, hrest, hok⟩ := hname
  have hentry : trackEntryName ctx area t =
      formatTrackNum t ++ 0x2E :: rest.take (254 - (formatTrackNum t).length) := by
    rw [trackEntryName, hok, ← strlcpy_formatTrackNum]
  rw [hentry]
  refine ⟨?_, scanTrackNum_formatTrackNum t 0x2E _ (by decide)⟩
  intro hmem
  rcases List.mem_append.1 hmem with h | h
  · exact slash_not_mem_formatTrackNum t h
  · rcases List.mem_cons.1 h with h | h
    · exact absurd h (by decide)
    · exact hrest (List.mem_of_mem_take h)

/-- Below 255 tracks the loop lists the tracks and nothing else. -/
theorem exists_of_mem_listTracks {ctx : PathCtx} {path : Bytes} {area : VfsArea}
    (hcount : ctx.trackCount area ≠ 255) {calls : Nat} {t : UInt8} (ht : t ≠ 0) {e : VfsEntry}
    (he : e ∈ listTracks ctx path area calls t) :
    ∃ t', t' ≠ 0 ∧ t' ≤ ctx.trackCount area ∧ e = trackEntry ctx path area t' := by
  induction calls generalizing t with
  | zero => simp [listTracks] at he
  | succ calls ih =>
    rw [listTracks] at he
    split at he
    · next hle =>
      rcases List.mem_cons.1 he with rfl | htail
      · exact ⟨t, ht, hle, rfl⟩
      · refine ih ?_ htail
        -- the counter wraps only after track 255
        rw [Ne, ← UInt8.toNat_inj] at hcount ⊢
        rw [UInt8.le_iff_toNat_le] at hle
        have hlt := (ctx.trackCount area).toNat_lt
        simp at hcount ⊢
        omega
    · simp at he

/-- The loop reaches what lies `n` steps ahead if it does not end on the way. -/
theorem trackEntry_mem_listTracks {ctx : PathCtx} (path : Bytes) {area : VfsArea} (n : Nat)
    (t : UInt8) (h : ∀ i ≤ n, t + UInt8.ofNat i ≤ ctx.trackCount area) :
    trackEntry ctx path area (t + UInt8.ofNat n) ∈ listTracks ctx path area (n + 1) t := by
  induction n generalizing t with
  | zero =>
    have hle : t ≤ ctx.trackCount area := by simpa using h 0 le_rfl
    simp [listTracks, hle]
  | succ n ih =>
    have hle : t ≤ ctx.trackCount area := by simpa using h 0 (Nat.zero_le _)
    have hstep : ∀ i, t + 1 + UInt8.ofNat i = t + UInt8.ofNat (i + 1) := by
      intro i
      rw [UInt8.ofNat_add, UInt8.add_assoc, UInt8.add_comm 1]
      rfl
    have hmem : trackEntry ctx path area (t + 1 + UInt8.ofNat n) ∈
        listTracks ctx path area (n + 1) (t + 1) :=
      ih (t + 1) fun i hi => by
        rw [hstep]
        exact h (i + 1) (by omega)
    rw [listTracks, if_pos hle, ← hstep]
    exact List.mem_cons_of_mem _ hmem

theorem trackEntry_mem_listTracks_one {ctx : PathCtx} (path : Bytes) {area : VfsArea} {t : UInt8}
    (ht : t ≠ 0) (hle : t ≤ ctx.trackCount area) :
    trackEntry ctx path area t ∈ listTracks ctx path area t.toNat 1 := by
  have hpos : t.toNat ≠ 0 := by
    rw [Ne, ← UInt8.toNat_inj] at ht
    simpa using ht
  have hlt := t.toNat_lt
  rw [UInt8.le_iff_toNat_le] at hle
  have hlast : 1 + UInt8.ofNat (t.toNat - 1) = t := by
    rw [← UInt8.toNat_inj]
    simp
    omega
  have hahead : ∀ i ≤ t.toNat - 1, 1 + UInt8.ofNat i ≤ ctx.trackCount area := by
    intro i hi
    rw [UInt8.le_iff_toNat_le]
    simp
    omega
  have hmem := trackEntry_mem_listTracks path (t.toNat - 1) 1 hahead
  rw [hlast, Nat.sub_add_cancel (by omega)] at hmem
  exact hmem

/-- With 255 tracks the counter wraps and an entry without a name is listed. -/
theorem trackEntry_zero_mem_listTracks {ctx : PathCtx} (path : Bytes) {area : VfsArea}
    (hcount : ctx.trackCount area = 255) :
    trackEntry ctx path area 0 ∈ listTracks ctx path area 256 1 := by
  refine trackEntry_mem_listTracks path 255 1 fun i _ => ?_
  rw [hcount, UInt8.le_iff_toNat_le]
  have hlt := (1 + UInt8.ofNat i).toNat_lt
  simp only [show (255 : UInt8).toNat = 255 from rfl]
  omega

/-! ## Directories -/

/-- The directories of the namespace. -/
def IsDirectory (ctx : PathCtx) (path : Bytes) : Prop :=
  path = [slash] ∨ path = ctx.albumPath ∨
    ∃ area, shouldShowArea ctx area = true ∧ path = ctx.areaPath area

theorem stat_of_isDirectory {ctx : PathCtx} {path : Bytes} (hopen : ctx.isOpen = true)
    (h : IsDirectory ctx path) :
    ∃ name, stat ctx path = .ok (VfsEntry.ofDirectory name) := by
  simp only [stat, hopen, not_true_eq_false, if_false]
  split
  · exact ⟨_, rfl⟩
  split
  · exact ⟨_, rfl⟩
  split
  · exact ⟨_, rfl⟩
  split
  · exact ⟨_, rfl⟩
  · next hroot halbum hst hmc =>
    rcases h with h | h | ⟨area, hshow, h⟩
    · exact absurd h hroot
    · exact absurd h halbum
    · cases area with
      | stereo => exact absurd ⟨h, hshow⟩ hst
      | multichannel => exact absurd ⟨h, hshow⟩ hmc

theorem stat_of_not_isDirectory {ctx : PathCtx} {path : Bytes} (hopen : ctx.isOpen = true)
    (h : ¬ IsDirectory ctx path) :
    stat ctx path = match fileOpen ctx path with
      | .ok f => .ok
        { name := strlcpy (baseName path) maxFilename
          type := .file
          size := f.file.info.totalSize
          trackNum := f.trackNum
          area := f.area }
      | .error _ => .error .notFound := by
  have hroot : path ≠ [slash] := fun heq => h (Or.inl heq)
  have halbum : path ≠ ctx.albumPath := fun heq => h (Or.inr (Or.inl heq))
  have harea : ∀ area, ¬ (path = ctx.areaPath area ∧ shouldShowArea ctx area = true) :=
    fun area hboth => h (Or.inr (Or.inr ⟨area, hboth.2, hboth.1⟩))
  simp only [stat, hopen, not_true_eq_false, if_false, if_neg hroot, if_neg halbum]
  exact (if_neg (harea .stereo)).trans (if_neg (harea .multichannel))

/-- `sacd_vfs_stat` reports a directory where there is one. -/
theorem stat_directory_iff {ctx : PathCtx} {path : Bytes} (hopen : ctx.isOpen = true) :
    (∃ e, stat ctx path = .ok e ∧ e.type = .directory) ↔ IsDirectory ctx path := by
  constructor
  · rintro ⟨e, hstat, htype⟩
    by_contra h
    rw [stat_of_not_isDirectory hopen h] at hstat
    split at hstat
    · cases hstat
      cases htype
    · cases hstat
  · intro h
    obtain ⟨name, hname⟩ := stat_of_isDirectory hopen h
    exact ⟨_, hname, rfl⟩

/-- A path below an area directory is not a directory. -/
theorem not_isDirectory_track (ctx : PathCtx) (area : VfsArea) {name : Bytes}
    (hname : slash ∉ name) : ¬ IsDirectory ctx (ctx.areaPath area ++ slash :: name) := by
  have hne : ctx.areaPath area ≠ [] := by simp [Disc.areaPath_eq]
  rintro (h | h | ⟨area', -, h⟩)
  · exact Separator.append_cons_ne_cons hne hname (by simp) h
  · rw [Disc.albumPath_eq] at h
    exact Separator.append_cons_ne_cons hne hname ctx.toDisc.slash_not_mem_albumName h
  · rw [Disc.areaPath_eq ctx.toDisc area'] at h
    have hdir := (Separator.append_cons_inj hname (slash_not_mem_areaName area') h).1
    rw [Disc.areaPath_eq] at hdir
    exact Separator.append_cons_ne_cons (by simp) (slash_not_mem_areaName area)
      ctx.toDisc.slash_not_mem_albumName hdir

/-! ## Opening what is listed -/

theorem fileOpen_ok_iff (ctx : PathCtx) (path : Bytes) (f : OpenFile) :
    fileOpen ctx path = .ok f ↔
      pathArea path = some f.area ∧ shouldShowArea ctx f.area = true ∧
      scanTrackNum (baseName path) = some f.trackNum ∧ f.trackNum ≠ 0 ∧
      f.trackNum ≤ ctx.trackCount f.area ∧
      ∃ track, ctx.openReader f.area f.trackNum = .ok track ∧ f.file = sacdVfsFileOpen track := by
  constructor
  · intro h
    unfold fileOpen at h
    split at h
    · cases h
    split at h
    · cases h
    next area harea =>
    split at h
    · cases h
    next hshow =>
    split at h
    · cases h
    split at h
    · cases h
    next t ht =>
    split at h
    · cases h
    next hpos =>
    split at h
    · cases h
    next hle =>
    split at h
    · cases h
    next track htrack =>
    cases h
    exact ⟨harea, by simpa using hshow, ht, hpos, by simpa using hle, track, htrack, rfl⟩
  · rintro ⟨harea, hshow, hscan, hpos, hle, track, htrack, hfile⟩
    have hopen := shouldShowArea_isOpen hshow
    have havail := shouldShowArea_available hshow
    simp [fileOpen, hopen, harea, hshow, havail, hscan, hpos, hle, htrack, ← hfile]

/-- The open takes a path with the name of an area for that area, unless it looks for
the other one first. -/
theorem pathArea_eq_iff {path : Bytes} {area : VfsArea} (h : strstr path (areaName area) = true) :
    pathArea path = some area ↔
      (area = .multichannel → strstr path (areaName .stereo) = false) := by
  cases area with
  | stereo => simp [pathArea, h]
  | multichannel => simp [pathArea, h]

/-! ## Consistency -/

/-- The path of an entry of a directory. -/
def joinPath (dir name : Bytes) : Bytes :=
  if dir = [slash] then slash :: name else dir ++ slash :: name

/-- The other two functions agree with an entry `sacd_vfs_readdir` has reported. -/
structure Resolves (ctx : PathCtx) (path : Bytes) (entry : VfsEntry) : Prop where
  stat : ∃ e, stat ctx path = .ok e ∧ e.type = entry.type ∧ e.area = entry.area ∧
    e.trackNum = entry.trackNum
  open_file : entry.type = .file →
    ∃ f, fileOpen ctx path = .ok f ∧ f.area = entry.area ∧ f.trackNum = entry.trackNum

/-- What `sacd_vfs_readdir` says about a path holds of the namespace. -/
structure ListingAgrees (ctx : PathCtx) (path : Bytes) : Prop where
  directory : ∀ calls entries, readdir ctx path calls = .ok entries →
    ∃ e, stat ctx path = .ok e ∧ e.type = .directory
  resolves : ∀ calls entries, readdir ctx path calls = .ok entries →
    ∀ entry ∈ entries, Resolves ctx (joinPath path entry.name) entry

/-- When the tracks of `area` may be listed under a path: it is the path of an area, the
counter of the loop does not wrap, the tracks open, and nothing leads the open of a
multi-channel track to the stereo area. -/
structure Listable (ctx : PathCtx) (path : Bytes) (area : VfsArea) : Prop where
  area_path : ∃ a, shouldShowArea ctx a = true ∧ path = ctx.areaPath a
  count : ctx.trackCount area ≠ 255
  reader : ∀ t, t ≠ 0 → t ≤ ctx.trackCount area → ∃ track, ctx.openReader area t = .ok track
  not_stereo : area = .multichannel → ∀ t, t ≠ 0 → t ≤ ctx.trackCount area →
    strstr path (areaName .stereo) = false ∧
      strstr (trackEntryName ctx area t) (areaName .stereo) = false

theorem joinPath_areaPath (ctx : PathCtx) (area : VfsArea) (name : Bytes) :
    joinPath (ctx.areaPath area) name = ctx.areaPath area ++ slash :: name := by
  have hne : ctx.areaPath area ≠ [slash] := by
    intro h
    have hlen := congrArg List.length h
    simp [Disc.areaPath_eq] at hlen
  rw [joinPath, if_neg hne]

/-- One listed track is found again exactly when its reader opens and the open does not
take its path for the stereo area. -/
theorem resolves_trackEntry_iff {ctx : PathCtx} {a area : VfsArea} {t : UInt8}
    (hlist : listedArea ctx (ctx.areaPath a) = some area)
    (hpos : t ≠ 0) (hle : t ≤ ctx.trackCount area) :
    Resolves ctx (joinPath (ctx.areaPath a) (trackEntryName ctx area t))
        (trackEntry ctx (ctx.areaPath a) area t) ↔
      (∃ track, ctx.openReader area t = .ok track) ∧
      (area = .multichannel → strstr (ctx.areaPath a) (areaName .stereo) = false ∧
        strstr (trackEntryName ctx area t) (areaName .stereo) = false) := by
  obtain ⟨hshow, hin⟩ := listedArea_shown hlist
  obtain ⟨hslash, hscan⟩ := trackEntryName_spec hshow hpos hle
  rw [joinPath_areaPath]
  have hjoin : strstr (ctx.areaPath a ++ slash :: trackEntryName ctx area t)
      (areaName area) = true :=
    (strstr_append_slash _ _ (slash_not_mem_areaName area)).2 (Or.inl hin)
  have hstereo : strstr (ctx.areaPath a ++ slash :: trackEntryName ctx area t)
        (areaName .stereo) = false ↔
      strstr (ctx.areaPath a) (areaName .stereo) = false ∧
        strstr (trackEntryName ctx area t) (areaName .stereo) = false := by
    have h := strstr_append_slash (ctx.areaPath a) (trackEntryName ctx area t)
      (slash_not_mem_areaName .stereo)
    simpa only [Bool.not_eq_true, not_or] using not_congr h
  rw [← hstereo, ← pathArea_eq_iff hjoin]
  constructor
  · intro h
    obtain ⟨f, hf, harea, hnum⟩ := h.open_file rfl
    obtain ⟨hpath, -, -, -, -, track, htrack, -⟩ := (fileOpen_ok_iff _ _ f).1 hf
    have harea' : f.area = area := harea
    have hnum' : f.trackNum = t := hnum
    rw [harea'] at hpath htrack
    rw [hnum'] at htrack
    exact ⟨⟨track, htrack⟩, hpath⟩
  · rintro ⟨⟨track, htrack⟩, hpath⟩
    have hfile : fileOpen ctx (ctx.areaPath a ++ slash :: trackEntryName ctx area t) =
        .ok { area, trackNum := t, file := sacdVfsFileOpen track } := by
      rw [fileOpen_ok_iff, baseName_append_slash _ hslash]
      exact ⟨hpath, hshow, hscan, hpos, hle, track, htrack, rfl⟩
    constructor
    · rw [stat_of_not_isDirectory (shouldShowArea_isOpen hshow)
        (not_isDirectory_track ctx a hslash), hfile]
      exact ⟨_, rfl, rfl, rfl, rfl⟩
    · intro _
      exact ⟨_, hfile, rfl, rfl⟩

theorem resolves_directory {ctx : PathCtx} {path : Bytes} (hopen : ctx.isOpen = true)
    (h : IsDirectory ctx path) (name : Bytes) :
    Resolves ctx path (VfsEntry.ofDirectory name) := by
  obtain ⟨found, hstat⟩ := stat_of_isDirectory hopen h
  constructor
  · exact ⟨_, hstat, rfl, rfl, rfl⟩
  · intro hfile
    cases hfile

theorem readdir_root {ctx : PathCtx} (hopen : ctx.isOpen = true) (calls : Nat) :
    readdir ctx [slash] calls = .ok ([VfsEntry.ofDirectory ctx.albumName].take calls) := by
  simp [readdir, hopen]

theorem readdir_album {ctx : PathCtx} (hopen : ctx.isOpen = true) {path : Bytes}
    (h : path = ctx.albumPath ∨ path = ctx.albumName) (hroot : path ≠ [slash]) (calls : Nat) :
    readdir ctx path calls = .ok (((allAreas.filter (shouldShowArea ctx)).map fun area =>
      VfsEntry.ofDirectory (areaName area)).take calls) := by
  have hdrop : ctx.albumPath.drop 1 = ctx.albumName := by simp [Disc.albumPath_eq]
  rw [← hdrop] at h
  rw [readdir, if_neg (by simp [hopen]), if_neg hroot, if_pos h]

theorem readdir_below {ctx : PathCtx} (hopen : ctx.isOpen = true) {path : Bytes}
    (hroot : path ≠ [slash]) (halbum : path ≠ ctx.albumPath) (hname : path ≠ ctx.albumName)
    (calls : Nat) :
    readdir ctx path calls = match listedArea ctx path with
      | some area => .ok (listTracks ctx path area calls 1)
      | none => .error .notFound := by
  have hdrop : ctx.albumPath.drop 1 = ctx.albumName := by simp [Disc.albumPath_eq]
  have hneither : ¬ (path = ctx.albumPath ∨ path = ctx.albumPath.drop 1) := by
    simp only [hdrop, not_or]
    exact ⟨halbum, hname⟩
  rw [readdir, if_neg (by simp [hopen]), if_neg hroot]
  exact if_neg hneither

theorem listingAgrees_root {ctx : PathCtx} (hopen : ctx.isOpen = true) :
    ListingAgrees ctx [slash] := by
  constructor
  · intro _ _ _
    exact (stat_directory_iff hopen).2 (Or.inl rfl)
  · intro calls entries hread entry hmem
    rw [readdir_root hopen] at hread
    cases hread
    have hentry : entry = VfsEntry.ofDirectory ctx.albumName := by
      simpa using List.mem_of_mem_take hmem
    have hjoin : joinPath [slash] entry.name = ctx.albumPath := by
      rw [hentry, VfsEntry.ofDirectory, strlcpy_of_length_lt ctx.toDisc.albumName_length_lt,
        Disc.albumPath_eq, joinPath, if_pos rfl]
    rw [hjoin, hentry]
    exact resolves_directory hopen (Or.inr (Or.inl rfl)) _

theorem albumPath_ne_root (disc : Disc) : disc.albumPath ≠ [slash] := by
  rw [Disc.albumPath_eq]
  intro h
  exact disc.albumName_ne_nil (List.cons.inj h).2

theorem joinPath_albumPath (ctx : PathCtx) (area : VfsArea) :
    joinPath ctx.albumPath (areaName area) = ctx.areaPath area := by
  rw [joinPath, if_neg (albumPath_ne_root ctx.toDisc), Disc.albumPath_eq, Disc.areaPath_eq]

theorem listingAgrees_album {ctx : PathCtx} (hopen : ctx.isOpen = true) :
    ListingAgrees ctx ctx.albumPath := by
  constructor
  · intro _ _ _
    exact (stat_directory_iff hopen).2 (Or.inr (Or.inl rfl))
  · intro calls entries hread entry hmem
    rw [readdir_album hopen (Or.inl rfl) (albumPath_ne_root ctx.toDisc)] at hread
    cases hread
    obtain ⟨area, harea, rfl⟩ := List.mem_map.1 (List.mem_of_mem_take hmem)
    have hshow : shouldShowArea ctx area = true := (List.mem_filter.1 harea).2
    have hname : (VfsEntry.ofDirectory (areaName area)).name = areaName area := by
      cases area <;> rfl
    rw [hname, joinPath_albumPath]
    exact resolves_directory hopen (Or.inr (Or.inr ⟨area, hshow, rfl⟩)) _

/-- The relative name of the album is listed and is no directory. -/
theorem not_listingAgrees_albumName {ctx : PathCtx} (hopen : ctx.isOpen = true) :
    ¬ ListingAgrees ctx ctx.albumName := by
  have hslash := ctx.toDisc.slash_not_mem_albumName
  intro h
  have hroot : ctx.albumName ≠ [slash] := by
    intro heq
    simp [heq] at hslash
  have hdir := h.directory 0 _ (readdir_album hopen (Or.inr rfl) hroot 0)
  rw [stat_directory_iff hopen] at hdir
  rcases hdir with heq | heq | ⟨area, -, heq⟩
  · exact hroot heq
  · rw [heq, Disc.albumPath_eq] at hslash
    simp at hslash
  · rw [heq, Disc.areaPath_eq] at hslash
    simp at hslash

/-- Below the album a listing agrees exactly when its tracks may be listed there. -/
theorem listingAgrees_below_iff {ctx : PathCtx} (hopen : ctx.isOpen = true) {path : Bytes}
    (hroot : path ≠ [slash]) (halbum : path ≠ ctx.albumPath) (hname : path ≠ ctx.albumName) :
    ListingAgrees ctx path ↔
      ∀ area, listedArea ctx path = some area → Listable ctx path area := by
  have hread := readdir_below hopen hroot halbum hname
  constructor
  · intro h area hlist
    simp only [hlist] at hread
    have hdir := h.directory 0 _ (hread 0)
    rw [stat_directory_iff hopen] at hdir
    obtain ⟨a, hshow, rfl⟩ : ∃ a, shouldShowArea ctx a = true ∧ path = ctx.areaPath a := by
      rcases hdir with heq | heq | harea
      · exact absurd heq hroot
      · exact absurd heq halbum
      · exact harea
    have htrack : ∀ t, t ≠ 0 → t ≤ ctx.trackCount area →
        (∃ track, ctx.openReader area t = .ok track) ∧
        (area = .multichannel → strstr (ctx.areaPath a) (areaName .stereo) = false ∧
          strstr (trackEntryName ctx area t) (areaName .stereo) = false) := by
      intro t hpos hle
      have hmem := trackEntry_mem_listTracks_one (ctx.areaPath a) hpos hle
      exact (resolves_trackEntry_iff hlist hpos hle).1 (h.resolves _ _ (hread _) _ hmem)
    constructor
    · exact ⟨a, hshow, rfl⟩
    · intro hcount
      have hmem := trackEntry_zero_mem_listTracks (ctx.areaPath a) hcount
      obtain ⟨f, hf, -, hnum⟩ := (h.resolves _ _ (hread _) _ hmem).open_file rfl
      exact absurd hnum ((fileOpen_ok_iff _ _ f).1 hf).2.2.2.1
    · intro t hpos hle
      exact (htrack t hpos hle).1
    · intro hmc t hpos hle
      exact (htrack t hpos hle).2 hmc
  · intro h
    cases hlist : listedArea ctx path with
    | none =>
      simp only [hlist] at hread
      constructor
      · intro calls entries hok
        rw [hread] at hok
        cases hok
      · intro calls entries hok
        rw [hread] at hok
        cases hok
    | some area =>
      simp only [hlist] at hread
      obtain ⟨⟨a, hshow, rfl⟩, hcount, hreader, hstereo⟩ := h area hlist
      constructor
      · intro _ _ _
        exact (stat_directory_iff hopen).2 (Or.inr (Or.inr ⟨a, hshow, rfl⟩))
      · intro calls entries hok entry hmem
        rw [hread] at hok
        cases hok
        obtain ⟨t, hpos, hle, rfl⟩ := exists_of_mem_listTracks hcount (by decide) hmem
        exact (resolves_trackEntry_iff hlist hpos hle).2
          ⟨hreader t hpos hle, fun hmc => hstereo hmc t hpos hle⟩

/-- The three functions agree on what is listed under a path of an open disc exactly when
the path is not the bare album name and, where tracks are listed, they may be listed there. -/
theorem listing_agrees_iff (ctx : PathCtx) (path : Bytes) :
    ListingAgrees ctx path ↔
      (ctx.isOpen = true → path ≠ ctx.albumName ∧
        (path = [slash] ∨ path = ctx.albumPath ∨
          ∀ area, listedArea ctx path = some area → Listable ctx path area)) := by
  by_cases hopen : ctx.isOpen = true
  · by_cases hname : path = ctx.albumName
    · have hnot := not_listingAgrees_albumName hopen
      simp [hname, hnot, hopen]
    · by_cases hroot : path = [slash]
      · have hagrees := listingAgrees_root hopen
        subst hroot
        simp [hagrees, hname]
      · by_cases halbum : path = ctx.albumPath
        · have hagrees := listingAgrees_album hopen
          subst halbum
          simp [hagrees, hname]
        · rw [listingAgrees_below_iff hopen hroot halbum hname]
          simp [hname, hroot, halbum, hopen]
  · constructor
    · intro _ h
      exact absurd h hopen
    · intro _
      constructor
      · intro calls entries hok
        simp [readdir, hopen] at hok
      · intro calls entries hok
        simp [readdir, hopen] at hok

/-! ## A title that names the other area -/

/-- A track of one frame. -/
def shortTrack : Track where
  channelCount := 2
  channelCount_pos := Nat.zero_lt_two
  sampleRate := 2822400
  frameFormat := .dsd3in14
  startFrame := 0
  frameCount := 1
  soundData := fun _ => some []
  dstDecode := some
  id3Tag := none

/-- A disc with both areas, one track in each; the multi-channel one is the stereo mix. -/
def stereoMix : PathCtx where
  albumTitle := some (ascii "Album")
  discTitle := none
  available := fun _ => true
  trackCount := fun _ => 1
  selectable := fun _ => true
  trackTitle := fun area _ => match area with
    | .stereo => some (ascii "Theme")
    | .multichannel => some (ascii "Theme (Stereo mix)")
  openReader := fun _ _ => .ok shortTrack
  isOpen := true
  areaVisible := fun _ => true

/-- The multi-channel track is listed, and its path opens the stereo track. -/
theorem stereoMix_not_listingAgrees :
    ¬ ListingAgrees stereoMix (ascii "/Album/Multi-channel") := by
  intro h
  have hlist := (listingAgrees_below_iff rfl (by decide) (by decide) (by decide)).1 h
    .multichannel (by decide)
  have hname := (hlist.not_stereo rfl 1 (by decide) (by decide)).2
  exact absurd hname (by decide)

end DsdNexus.Vfs
