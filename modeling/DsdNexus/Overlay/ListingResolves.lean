import DsdNexus.Lib.Transition
import DsdNexus.Overlay.Listing

/-! # When a listed folder leads to its ISO

A listing names the folders by what it has seen so far, the table of mounts keeps the
name of the first listing, and a path is looked up by the names in the table. Histories
in which every listing gives an ISO the path it is registered under, alone, and nothing
of the source comes to lie at such a path keep every folder leading to its ISO.
-/

namespace DsdNexus.Overlay

open Vfs Separator Transition

/-! ## Histories -/

/-- The overlay, the source behind it and the latest listing of each directory. -/
structure OverlayState where
  ctx : OverlayCtx
  fs : SourceFs
  listed : Bytes → List ListedEntry

inductive OverlayEvent where
  /-- Someone changes the source. -/
  | change (fs : SourceFs)
  | readdir (dir : Bytes) (entries : List DirEntry)
  | stat (path : Bytes)
  | open (path : Bytes)

/-- A file system enumerates a name once. Neither `stat` nor `open` changes what paths
lead to. -/
def OverlayState.step (s : OverlayState) : OverlayEvent → Option OverlayState
  | .change fs => some { s with fs := fs }
  | .readdir dir entries =>
    if (entries.map (·.name)).Nodup then
      let result := overlayReaddir s.ctx s.fs dir entries
      some { s with
        ctx := result.2
        listed := fun d => if d = dir then result.1 else s.listed d }
    else none
  | .stat _ => some s
  | .open _ => some s

/-- Nothing is registered and nothing is listed. -/
def OverlayState.start (ctx : OverlayCtx) (fs : SourceFs) : OverlayState where
  ctx := { ctx with isoMounts := [] }
  fs := fs
  listed := fun _ => []

/-- A directory joined with the name of an entry. -/
def joinVpath (dir name : Bytes) : Bytes := dir.rdropWhile (· = slash) ++ slash :: name

/-- The folder and what lies below it lead into the ISO. -/
def LeadsTo (s : OverlayState) (path isoPath : Bytes) : Prop :=
  ∀ rest, Tail slash rest → ∃ m, m.isoPath = isoPath ∧
    overlayStat s.ctx s.fs (path ++ rest) = .mount m (if rest = [] then none else some rest) ∧
    overlayOpen s.ctx s.fs (path ++ rest) = .mount m (if rest = [] then none else some rest)

/-- Every folder of the latest listings leads to its ISO. -/
def FoldersLead (s : OverlayState) : Prop :=
  ∀ dir name isoPath, ListedEntry.iso name isoPath ∈ s.listed dir →
    LeadsTo s (joinVpath dir name) isoPath

/-! ## The condition -/

/-- No file or directory of the source lies at a virtual path or below it. -/
def Unshadowed (ctx : OverlayCtx) (fs : SourceFs) (path : Bytes) : Prop :=
  ∀ rest, Tail slash rest → sourceNode ctx fs (path ++ rest) = none

/-- A mount is registered under a virtual path. -/
def IsoMount.At (m : IsoMount) (path : Bytes) : Prop :=
  m.isoVpath = path ∧ vpathOf m.parentVpath m.displayName = path

/-- The path of a folder is one the overlay can find: the folder has a name, the directory
is written without a slash at its end and without backslashes, and the path fits. -/
structure Findable (dir name : Bytes) : Prop where
  name_ne : name ≠ []
  canonical : vpathOf dir name = joinVpath dir name
  backslash : 0x5C ∉ joinVpath dir name
  fits : (joinVpath dir name).length < overlayMaxPath

/-- The mounts registered so far let `isoPath` have the folder: it is registered there or
not at all, and no other ISO is registered there or below. -/
structure Vacant (ctx : OverlayCtx) (path isoPath : Bytes) : Prop where
  own : ∀ m ∈ ctx.isoMounts, m.isoPath = isoPath → m.At path
  others : ∀ m ∈ ctx.isoMounts, Below slash path m.isoVpath → m.isoPath = isoPath

/-- What a step may do: a change of the source puts nothing where a listed folder is, and
each folder a listing shows can be found, is not shadowed and has its path to itself. -/
def Steady (s : OverlayState) : OverlayEvent → Prop
  | .change fs => ∀ dir name isoPath, ListedEntry.iso name isoPath ∈ s.listed dir →
    Unshadowed s.ctx fs (joinVpath dir name)
  | .readdir dir entries => ∀ name isoPath,
    ListedEntry.iso name isoPath ∈ (overlayReaddir s.ctx s.fs dir entries).1 →
      Findable dir name ∧ Unshadowed s.ctx s.fs (joinVpath dir name) ∧
        Vacant s.ctx (joinVpath dir name) isoPath
  | .stat _ => True
  | .open _ => True

/-! ## Lookup -/

theorem covers_iff (m : IsoMount) (path : Bytes) :
    m.covers path = true ↔ Below slash m.isoVpath path := by
  simp only [IsoMount.covers, Bool.and_eq_true, List.isPrefixOf_iff_prefix, Bool.or_eq_true,
    decide_eq_true_eq]
  constructor
  · rintro ⟨⟨rest, rfl⟩, hend⟩
    refine ⟨rest, ?_, rfl⟩
    rcases hend with hlen | hslash
    · left
      simpa using hlen
    · right
      rw [List.getElem?_append_right (le_refl _), Nat.sub_self] at hslash
      rw [List.head?_eq_getElem?]
      exact hslash
  · rintro ⟨rest, htail, rfl⟩
    refine ⟨List.prefix_append _ _, ?_⟩
    rcases htail with rfl | hhead
    · left
      simp
    · right
      rw [List.getElem?_append_right (le_refl _), Nat.sub_self, ← List.head?_eq_getElem?]
      exact hhead

theorem joinVpath_ne_nil (dir name : Bytes) : joinVpath dir name ≠ [] := by simp [joinVpath]

theorem normalizePath_append {path : Bytes} (hslash : 0x5C ∉ path)
    (hfits : path.length < overlayMaxPath) (rest : Bytes) :
    ∃ rest', normalizePath (path ++ rest) = path ++ rest' ∧ (Tail slash rest → Tail slash rest') := by
  have hmap : ∀ xs : Bytes, 0x5C ∉ xs → (xs.map fun c => if c = 0x5C then slash else c) = xs := by
    intro xs hxs
    induction xs with
    | nil => rfl
    | cons c xs ih =>
      simp only [List.mem_cons, not_or] at hxs
      rw [List.map_cons, if_neg (Ne.symm hxs.1), ih hxs.2]
  refine ⟨(rest.take (overlayMaxPath - 1 - path.length)).map
    fun c => if c = 0x5C then slash else c, ?_, ?_⟩
  · rw [normalizePath, strlcpy, List.take_append, List.take_of_length_le (by omega),
      List.map_append, hmap path hslash]
  · rintro (rfl | hhead)
    · left
      simp
    · cases rest with
      | nil => cases hhead
      | cons c rest =>
        cases hhead
        cases hroom : overlayMaxPath - 1 - path.length with
        | zero =>
          left
          simp
        | succ n =>
          right
          simp [slash]

theorem trimSlashes_append_cons {c : UInt8} (hc : c ≠ slash) (xs ys : Bytes) (hxs : xs ≠ []) :
    trimSlashes (xs ++ c :: ys) = xs ++ c :: ys.rdropWhile (· = slash) := by
  cases xs with
  | nil => exact absurd rfl hxs
  | cons x xs =>
    rw [List.cons_append, trimSlashes, rdropWhile_append_of_last (by simpa using hc)]
    rfl

/-- The lookup of a path below a findable folder sees the folder. -/
theorem Findable.below {dir name : Bytes} (h : Findable dir name) (hname : slash ∉ name)
    {rest : Bytes} (hrest : Tail slash rest) :
    Below slash (joinVpath dir name) (trimSlashes (normalizePath (joinVpath dir name ++ rest))) := by
  obtain ⟨rest', hnorm, htail⟩ := normalizePath_append h.backslash h.fits rest
  rw [hnorm]
  obtain ⟨start, c, hlast⟩ := (List.eq_nil_or_concat name).resolve_left h.name_ne
  rw [List.concat_eq_append] at hlast
  subst hlast
  have hc : c ≠ slash := by
    intro heq
    exact hname (by simp [heq])
  have hsplit : joinVpath dir (start ++ [c]) ++ rest' =
      (dir.rdropWhile (· = slash) ++ slash :: start) ++ c :: rest' := by simp [joinVpath]
  rw [hsplit, trimSlashes_append_cons hc _ _ (by simp)]
  exact ⟨rest'.rdropWhile (· = slash), (htail hrest).of_isPrefix (List.rdropWhile_prefix _ _),
    by simp [joinVpath]⟩

/-- The display name is cut off the path of a mount. -/
theorem innerPathOf_vpathOf {m : IsoMount} (hne : m.displayName ≠ []) (hname : slash ∉ m.displayName)
    {rest : Bytes} (hrest : Tail slash rest) :
    innerPathOf m (vpathOf m.parentVpath m.displayName ++ rest) =
      if rest = [] then none else some rest := by
  have hrel : (let rel := (vpathOf m.parentVpath m.displayName ++ rest).drop m.parentVpath.length
      if rel.head? = some slash then rel.tail else rel) = m.displayName ++ rest := by
    cases hdisplay : m.displayName with
    | nil => exact absurd hdisplay hne
    | cons c name =>
      have hc : c ≠ slash := by
        intro heq
        exact hname (by simp [hdisplay, heq])
      unfold vpathOf
      split
      · next hroot => simp [hroot, hc]
      · simp [slash]
  have hdrop : m.displayName.dropWhile (fun c => decide (c ≠ slash)) = [] := by
    rw [List.dropWhile_eq_nil_iff]
    intro c hc
    have hcne : c ≠ slash := fun heq => hname (heq ▸ hc)
    simpa using hcne
  have hall : ∀ c ∈ m.displayName, (fun c => decide (c ≠ slash)) c = true := by
    intro c hc
    have hcne : c ≠ slash := fun heq => hname (heq ▸ hc)
    simpa using hcne
  unfold innerPathOf
  simp only at hrel ⊢
  rw [hrel]
  rcases hrest with rfl | hhead
  · simp [hname]
  · cases rest with
    | nil => cases hhead
    | cons c rest =>
      cases hhead
      rw [if_pos (by simp), if_neg (by simp), List.dropWhile_append_of_pos hall]
      simp

/-! ## A folder in its place -/

/-- What makes a folder lead to its ISO. -/
structure Placed (ctx : OverlayCtx) (fs : SourceFs) (dir name isoPath : Bytes) : Prop where
  slash_not_mem : slash ∉ name
  findable : Findable dir name
  unshadowed : Unshadowed ctx fs (joinVpath dir name)
  vacant : Vacant ctx (joinVpath dir name) isoPath
  mounted : ∃ m ∈ ctx.isoMounts, m.isoPath = isoPath

section Placed

variable {ctx : OverlayCtx} {fs : SourceFs} {dir name isoPath : Bytes}

/-- The lookup finds the ISO of a folder. -/
theorem Placed.find (h : Placed ctx fs dir name isoPath) {rest : Bytes} (hrest : Tail slash rest) :
    ∃ m ∈ ctx.isoMounts, findIsoByVpath ctx (joinVpath dir name ++ rest) = some m ∧
      m.isoPath = isoPath := by
  obtain ⟨own, hown, howniso⟩ := h.mounted
  have hat : own.At (joinVpath dir name) := h.vacant.own own hown howniso
  have hbelow := h.findable.below h.slash_not_mem hrest
  have hcovers : own.covers (trimSlashes (normalizePath (joinVpath dir name ++ rest))) = true := by
    rw [covers_iff, hat.1]
    exact hbelow
  have hpos : 0 < own.isoVpath.length := by
    rw [hat.1]
    exact List.length_pos_of_ne_nil (joinVpath_ne_nil dir name)
  obtain ⟨m, hfound, hm, hmcovers, hlongest⟩ :=
    Longest.exists_longest (fun m : IsoMount =>
      m.covers (trimSlashes (normalizePath (joinVpath dir name ++ rest))))
      (fun m => m.isoVpath.length) hown hcovers hpos
  refine ⟨m, hm, hfound, h.vacant.others m hm ?_⟩
  have hlen := hlongest own hown hcovers
  simp only [hat.1] at hlen
  exact hbelow.of_length_le ((covers_iff m _).1 hmcovers) hlen

/-- The display name a mount at the path of a folder has. -/
theorem IsoMount.At.displayName_eq {m : IsoMount} (h : m.At (joinVpath dir name))
    (hname : slash ∉ name) (hdisplay : slash ∉ m.displayName) : m.displayName = name := by
  have hpath := h.2
  unfold vpathOf joinVpath at hpath
  split at hpath
  · have hroot : [] ++ slash :: m.displayName = dir.rdropWhile (· = slash) ++ slash :: name := hpath
    exact (append_cons_inj hdisplay hname hroot).2
  · exact (append_cons_inj hdisplay hname hpath).2

theorem Placed.leadsTo {listed : Bytes → List ListedEntry} (h : Placed ctx fs dir name isoPath)
    (hdisplay : ∀ m ∈ ctx.isoMounts, slash ∉ m.displayName) :
    LeadsTo ⟨ctx, fs, listed⟩ (joinVpath dir name) isoPath := by
  intro rest hrest
  obtain ⟨m, hm, hfound, hiso⟩ := h.find hrest
  have hat : m.At (joinVpath dir name) := h.vacant.own m hm hiso
  have hname : m.displayName = name := hat.displayName_eq h.slash_not_mem (hdisplay m hm)
  have hinner : innerPathOf m (joinVpath dir name ++ rest) = if rest = [] then none else some rest := by
    rw [← hat.2]
    exact innerPathOf_vpathOf (hname ▸ h.findable.name_ne) (hdisplay m hm) hrest
  have hlen : 1 < (joinVpath dir name ++ rest).length := by
    have hpos := List.length_pos_of_ne_nil h.findable.name_ne
    simp only [joinVpath, List.length_append, List.length_cons]
    omega
  refine ⟨m, hiso, ?_, ?_⟩
  · have hroot : ¬ (joinVpath dir name ++ rest = [slash] ∨ joinVpath dir name ++ rest = []) := by
      rintro (heq | heq)
      · simp [heq] at hlen
      · simp [heq] at hlen
    unfold overlayStat
    rw [if_neg hroot, h.unshadowed rest hrest]
    simp only [hfound, hinner]
  · unfold overlayOpen
    simp only [hfound, hinner]

end Placed

/-! ## Display names -/

theorem freeName_spec {seen : List Bytes} {fuel : Nat} : ∀ {base displayName : Bytes} {idx : Nat}
    {found : Bytes}, slash ∉ base → slash ∉ displayName → displayName.length < overlayMaxFilename →
    freeName seen base fuel idx displayName = some found →
      found ∉ seen ∧ slash ∉ found ∧ found.length < overlayMaxFilename := by
  induction fuel with
  | zero =>
    intro base displayName idx found _ _ _ hfound
    cases hfound
  | succ fuel ih =>
    intro base displayName idx found hbase hdisplay hlen hfound
    unfold freeName at hfound
    split at hfound
    · next hunseen =>
      cases hfound
      exact ⟨hunseen, hdisplay, hlen⟩
    · have hshort : slash ∉ (if overlayMaxFilename ≤ base.length + 10
          then base.take (overlayMaxFilename - 11) else base) := by
        split
        · exact fun hmem => hbase (List.mem_of_mem_take hmem)
        · exact hbase
      refine ih hshort ?_ (strlcpy_length_lt _ (by decide)) hfound
      intro hmem
      have hmem' := List.mem_of_mem_take hmem
      simp only [List.mem_append] at hmem'
      rcases hmem' with ((hold | hopen) | hnumber) | hclose
      · exact hshort hold
      · exact absurd hopen (by decide)
      · exact slash_not_mem_decimal _ hnumber
      · exact absurd hclose (by decide)

theorem displayNameOf_spec {seen : List Bytes} {name found : Bytes} (hname : slash ∉ name)
    (h : displayNameOf seen name = some found) :
    found ∉ seen ∧ slash ∉ found ∧ found.length < overlayMaxFilename := by
  have hlen : (strlcpy name overlayMaxFilename).length < overlayMaxFilename :=
    strlcpy_length_lt name (by decide)
  have hmem : slash ∉ strlcpy name overlayMaxFilename := fun hin => hname (List.mem_of_mem_take hin)
  have hbase : slash ∉ isoBaseName name ∧ (isoBaseName name).length < overlayMaxFilename := by
    unfold isoBaseName
    simp only
    split
    · refine ⟨fun hin => hmem (List.mem_of_mem_take hin), ?_⟩
      rw [List.length_take]
      omega
    · exact ⟨hmem, hlen⟩
  exact freeName_spec hbase.1 hbase.1 hbase.2 h

/-! ## The scan of a directory -/

/-- What registering an ISO may do. -/
theorem getOrCreateIso_cases (ctx : OverlayCtx) (isoPath parent name : Bytes) (alloc : Bool) :
    (∃ m ∈ ctx.isoMounts, m.isoPath = isoPath ∧
        getOrCreateIso ctx isoPath parent name alloc = (some m, ctx)) ∨
      getOrCreateIso ctx isoPath parent name alloc = (none, ctx) ∨
      ((∀ m ∈ ctx.isoMounts, m.isoPath ≠ isoPath) ∧
        getOrCreateIso ctx isoPath parent name alloc =
          (some (IsoMount.create isoPath parent name),
            { ctx with isoMounts := ctx.isoMounts ++ [IsoMount.create isoPath parent name] })) := by
  cases hfind : findIsoMount ctx isoPath with
  | some m =>
    left
    refine ⟨m, List.mem_of_find?_eq_some hfind, ?_, by simp [getOrCreateIso, hfind]⟩
    simpa using List.find?_some hfind
  | none =>
    right
    have hfresh : ∀ m ∈ ctx.isoMounts, m.isoPath ≠ isoPath := by
      intro m hm
      simpa using List.find?_eq_none.1 hfind m hm
    simp only [getOrCreateIso, hfind]
    split
    · exact Or.inl rfl
    · exact Or.inr ⟨hfresh, rfl⟩

/-- A listed folder and where its ISO was found. -/
structure Named (dir source : Bytes) (scanned : List DirEntry) (scan : Scan)
    (name isoPath : Bytes) : Prop where
  slash_not_mem : slash ∉ name
  length_lt : name.length < overlayMaxFilename
  seen : name ∈ scan.seen
  iso_length_lt : isoPath.length < overlayMaxPath
  mounted : ∃ m ∈ scan.ctx.isoMounts, m.isoPath = isoPath
  entry : ∃ e ∈ scanned, isoPath = source ++ slash :: e.name

/-- What a scan of `dir` that began with the mounts of `ctx` has done after `scanned`. -/
structure ScanInv (ctx : OverlayCtx) (dir source : Bytes) (scanned : List DirEntry)
    (scan : Scan) : Prop where
  sourceDir : scan.ctx.sourceDir = ctx.sourceDir
  kept : ∀ m ∈ ctx.isoMounts, m ∈ scan.ctx.isoMounts
  mounts : ∀ m ∈ scan.ctx.isoMounts, m ∈ ctx.isoMounts ∨ ∃ name isoPath,
    m = IsoMount.create isoPath dir name ∧ ListedEntry.iso name isoPath ∈ scan.listed ∧
      ∀ old ∈ ctx.isoMounts, old.isoPath ≠ isoPath
  named : ∀ name isoPath, ListedEntry.iso name isoPath ∈ scan.listed →
    Named dir source scanned scan name isoPath
  name_inj : ∀ name isoPath isoPath', ListedEntry.iso name isoPath ∈ scan.listed →
    ListedEntry.iso name isoPath' ∈ scan.listed → isoPath = isoPath'
  iso_inj : ∀ name name' isoPath, ListedEntry.iso name isoPath ∈ scan.listed →
    ListedEntry.iso name' isoPath ∈ scan.listed → name = name'

section Scan

variable {ctx : OverlayCtx} {fs : SourceFs} {dir source : Bytes} {scanned : List DirEntry}
  {scan : Scan}

theorem Named.mono {scanned' : List DirEntry} {scan' : Scan} {name isoPath : Bytes}
    (h : Named dir source scanned scan name isoPath) (hscanned : ∀ e ∈ scanned, e ∈ scanned')
    (hseen : ∀ x ∈ scan.seen, x ∈ scan'.seen)
    (hmounts : ∀ m ∈ scan.ctx.isoMounts, m ∈ scan'.ctx.isoMounts) :
    Named dir source scanned' scan' name isoPath where
  slash_not_mem := h.slash_not_mem
  length_lt := h.length_lt
  seen := hseen _ h.seen
  iso_length_lt := h.iso_length_lt
  mounted := by
    obtain ⟨m, hm, hiso⟩ := h.mounted
    exact ⟨m, hmounts m hm, hiso⟩
  entry := by
    obtain ⟨e, he, heq⟩ := h.entry
    exact ⟨e, hscanned e he, heq⟩

/-- A step that registers nothing and lists no folder. -/
theorem ScanInv.of_isos_eq {scan' : Scan} {e : DirEntry} (h : ScanInv ctx dir source scanned scan)
    (hctx : scan'.ctx = scan.ctx) (hseen : ∀ x ∈ scan.seen, x ∈ scan'.seen)
    (hlisted : ∀ name isoPath, ListedEntry.iso name isoPath ∈ scan'.listed ↔
      ListedEntry.iso name isoPath ∈ scan.listed) :
    ScanInv ctx dir source (scanned ++ [e]) scan' where
  sourceDir := by rw [hctx, h.sourceDir]
  kept := by
    rw [hctx]
    exact h.kept
  mounts := by
    rw [hctx]
    simp only [hlisted]
    exact h.mounts
  named := by
    intro name isoPath hmem
    refine (h.named name isoPath ((hlisted _ _).1 hmem)).mono (fun e' he' => ?_) hseen (fun m hm => ?_)
    · exact List.mem_append_left _ he'
    · exact hctx.symm ▸ hm
  name_inj := by
    simp only [hlisted]
    exact h.name_inj
  iso_inj := by
    simp only [hlisted]
    exact h.iso_inj

theorem ScanInv.scanIso {e : DirEntry} {isoPath : Bytes} (h : ScanInv ctx dir source scanned scan)
    (hfresh : e.name ∉ scanned.map (·.name)) (hiso : isoPath = source ++ slash :: e.name)
    (hlen : isoPath.length < overlayMaxPath) :
    ScanInv ctx dir source (scanned ++ [e]) (Overlay.scanIso dir isoPath e scan) := by
  unfold Overlay.scanIso
  split
  · exact h.of_isos_eq rfl (fun _ hx => hx) (fun _ _ => Iff.rfl)
  · next name hname =>
    obtain ⟨hunseen, hslash, hshort⟩ := displayNameOf_spec e.slash_not_mem hname
    have hnew : ∀ name' , ListedEntry.iso name' isoPath ∉ scan.listed := by
      intro name' hmem
      obtain ⟨e', he', heq⟩ := (h.named name' isoPath hmem).entry
      rw [hiso] at heq
      have hname' : e.name = e'.name := by simpa using heq
      exact hfresh (hname' ▸ List.mem_map_of_mem he')
    have hunlisted : ∀ isoPath', ListedEntry.iso name isoPath' ∉ scan.listed :=
      fun isoPath' hmem => hunseen (h.named name isoPath' hmem).seen
    -- the folder is listed with a mount, in a context that keeps the mounts
    have hadd : ∀ ctx' : OverlayCtx, ctx'.sourceDir = ctx.sourceDir →
        (∀ m ∈ scan.ctx.isoMounts, m ∈ ctx'.isoMounts) →
        (∀ m ∈ ctx'.isoMounts, m ∈ scan.ctx.isoMounts ∨ m = IsoMount.create isoPath dir name ∧
          ∀ old ∈ ctx.isoMounts, old.isoPath ≠ isoPath) →
        (∃ m ∈ ctx'.isoMounts, m.isoPath = isoPath) →
        ScanInv ctx dir source (scanned ++ [e])
          ⟨ctx', name :: scan.seen, scan.listed ++ [.iso name isoPath]⟩ := by
      intro ctx' hdir hkept hmounts hmounted
      constructor
      case sourceDir => exact hdir
      case kept => exact fun m hm => hkept m (h.kept m hm)
      case mounts =>
        intro m hm
        rcases hmounts m hm with hold | ⟨rfl, hother⟩
        · rcases h.mounts m hold with hm | ⟨name', isoPath', rfl, hlisted, hother⟩
          · exact Or.inl hm
          · exact Or.inr ⟨name', isoPath', rfl, List.mem_append_left _ hlisted, hother⟩
        · exact Or.inr ⟨name, isoPath, rfl, by simp, hother⟩
      case named =>
        intro name' isoPath' hmem
        rcases List.mem_append.1 hmem with hold | hlast
        · refine (h.named name' isoPath' hold).mono (fun e' he' => ?_) (fun x hx => ?_) hkept
          · exact List.mem_append_left _ he'
          · exact List.mem_cons_of_mem _ hx
        · cases List.mem_singleton.1 hlast
          exact ⟨hslash, hshort, by simp, hlen, hmounted, e, by simp, hiso⟩
      case name_inj =>
        intro name' isoPath₁ isoPath₂ h₁ h₂
        rcases List.mem_append.1 h₁ with hold₁ | hlast₁
        · rcases List.mem_append.1 h₂ with hold₂ | hlast₂
          · exact h.name_inj name' isoPath₁ isoPath₂ hold₁ hold₂
          · cases List.mem_singleton.1 hlast₂
            exact absurd hold₁ (hunlisted _)
        · cases List.mem_singleton.1 hlast₁
          rcases List.mem_append.1 h₂ with hold₂ | hlast₂
          · exact absurd hold₂ (hunlisted _)
          · cases List.mem_singleton.1 hlast₂
            rfl
      case iso_inj =>
        intro name₁ name₂ isoPath' h₁ h₂
        rcases List.mem_append.1 h₁ with hold₁ | hlast₁
        · rcases List.mem_append.1 h₂ with hold₂ | hlast₂
          · exact h.iso_inj name₁ name₂ isoPath' hold₁ hold₂
          · cases List.mem_singleton.1 hlast₂
            exact absurd hold₁ (hnew _)
        · cases List.mem_singleton.1 hlast₁
          rcases List.mem_append.1 h₂ with hold₂ | hlast₂
          · exact absurd hold₂ (hnew _)
          · cases List.mem_singleton.1 hlast₂
            rfl
    rcases getOrCreateIso_cases scan.ctx isoPath dir name e.alloc with
      ⟨m, hm, hmiso, heq⟩ | heq | ⟨hnone, heq⟩
    · simp only [heq]
      exact hadd scan.ctx h.sourceDir (fun _ hm => hm) (fun _ hm => Or.inl hm) ⟨m, hm, hmiso⟩
    · simp only [heq]
      exact h.of_isos_eq rfl (fun _ hx => List.mem_cons_of_mem _ hx) (fun _ _ => Iff.rfl)
    · simp only [heq]
      refine hadd _ h.sourceDir (fun _ hm => List.mem_append_left _ hm) (fun m hm => ?_) ?_
      · rcases List.mem_append.1 hm with hold | hlast
        · exact Or.inl hold
        · exact Or.inr ⟨List.mem_singleton.1 hlast, fun old hold => hnone old (h.kept old hold)⟩
      · exact ⟨IsoMount.create isoPath dir name, by simp, strlcpy_of_length_lt hlen⟩

theorem buildSourcePath_congr {ctx' : OverlayCtx} (h : ctx'.sourceDir = ctx.sourceDir)
    (vpath : Bytes) : buildSourcePath ctx' vpath = buildSourcePath ctx vpath := by
  simp only [buildSourcePath, h]

theorem ScanInv.scanEntry {e : DirEntry} (h : ScanInv ctx dir source scanned scan)
    (hsource : buildSourcePath ctx dir = some source) (hfresh : e.name ∉ scanned.map (·.name)) :
    ScanInv ctx dir source (scanned ++ [e]) (Overlay.scanEntry fs dir scan e) := by
  have hskip : ScanInv ctx dir source (scanned ++ [e]) scan :=
    h.of_isos_eq rfl (fun _ hx => hx) (fun _ _ => Iff.rfl)
  unfold Overlay.scanEntry
  simp only [buildSourcePath_congr h.sourceDir, hsource]
  split
  · exact hskip
  split
  · exact hskip
  · next hfits =>
    split
    · split
      · refine h.scanIso hfresh rfl ?_
        simp only [List.length_append, List.length_cons]
        omega
      · exact hskip
    split
    · exact hskip
    · exact h.of_isos_eq rfl (fun _ hx => List.mem_cons_of_mem _ hx) (fun _ _ => by simp)

theorem scan_inv (hsource : buildSourcePath ctx dir = some source) (entries : List DirEntry)
    (hnodup : (entries.map (·.name)).Nodup) :
    ScanInv ctx dir source entries (entries.foldl (scanEntry fs dir) ⟨ctx, [], []⟩) := by
  induction entries using List.reverseRecOn with
  | nil => exact ⟨rfl, fun _ hm => hm, fun _ hm => Or.inl hm, nofun, nofun, nofun⟩
  | append_singleton entries e ih =>
    rw [List.map_append, List.nodup_append] at hnodup
    rw [List.foldl_append]
    refine (ih hnodup.1).scanEntry hsource fun hmem => ?_
    exact hnodup.2.2 _ hmem e.name (by simp) rfl

/-- A listing either shows no folder and registers nothing or is a scan of a directory
that lies in no mount. -/
theorem overlayReaddir_cases (ctx : OverlayCtx) (fs : SourceFs) (dir : Bytes)
    {entries : List DirEntry} (hnodup : (entries.map (·.name)).Nodup) :
    overlayReaddir ctx fs dir entries = ([], ctx) ∨
      ∃ source scan, overlayReaddir ctx fs dir entries = (scan.listed, scan.ctx) ∧
        findIsoByVpath ctx dir = none ∧ ScanInv ctx dir source entries scan := by
  unfold overlayReaddir
  split
  · exact Or.inl rfl
  · next hnone =>
    split
    · exact Or.inl rfl
    · next source hsource =>
      split
      · exact Or.inr ⟨source, _, rfl, hnone, scan_inv hsource entries hnodup⟩
      · exact Or.inl rfl

end Scan

/-! ## What a step keeps -/

/-- Every listed folder is in its place. -/
structure ListingInv (s : OverlayState) : Prop where
  names : ∀ m ∈ s.ctx.isoMounts, slash ∉ m.displayName
  placed : ∀ dir name isoPath, ListedEntry.iso name isoPath ∈ s.listed dir →
    Placed s.ctx s.fs dir name isoPath

section Step

variable {ctx : OverlayCtx} {fs : SourceFs} {dir source name isoPath : Bytes}
  {entries : List DirEntry} {scan : Scan}

/-- A new mount lies where its folder is. -/
theorem Named.create (h : Named dir source entries scan name isoPath) (hfind : Findable dir name) :
    (IsoMount.create isoPath dir name).isoPath = isoPath ∧
      (IsoMount.create isoPath dir name).displayName = name ∧
      (IsoMount.create isoPath dir name).At (joinVpath dir name) := by
  have hdir : dir.length < overlayMaxPath := by
    have hfits := hfind.fits
    rw [← hfind.canonical] at hfits
    unfold vpathOf at hfits
    split at hfits
    · next hroot =>
      rw [hroot]
      decide
    · simp only [List.length_append, List.length_cons] at hfits
      omega
  have hparent : strlcpy dir overlayMaxPath = dir := strlcpy_of_length_lt hdir
  have hname : strlcpy name overlayMaxFilename = name := strlcpy_of_length_lt h.length_lt
  refine ⟨strlcpy_of_length_lt h.iso_length_lt, hname, ?_, ?_⟩
  · rw [IsoMount.create, hfind.canonical]
    exact strlcpy_of_length_lt hfind.fits
  · simp only [IsoMount.create, hparent, hname, hfind.canonical]

/-- Two folders of one directory, one below the other, are the same. -/
theorem joinVpath_below {name' : Bytes} (hname : slash ∉ name) (hname' : slash ∉ name')
    (h : Below slash (joinVpath dir name) (joinVpath dir name')) : name = name' := by
  rcases h.of_append_cons hname' with heq | ⟨rest, -, heq⟩
  · exact (append_cons_inj hname hname' heq).2
  · have hlen := congrArg List.length heq
    simp only [joinVpath, List.length_append, List.length_cons] at hlen
    omega

/-- A folder of another directory keeps its place: what the scan registers lies neither
there nor below. -/
theorem Placed.after_scan {dir' : Bytes} (h : Placed ctx fs dir' name isoPath)
    (hnone : findIsoByVpath ctx dir = none) (hscan : ScanInv ctx dir source entries scan)
    (hnew : ∀ name isoPath, ListedEntry.iso name isoPath ∈ scan.listed →
      Findable dir name ∧ Vacant ctx (joinVpath dir name) isoPath) :
    Placed scan.ctx fs dir' name isoPath where
  slash_not_mem := h.slash_not_mem
  findable := h.findable
  unshadowed := by
    intro rest hrest
    rw [sourceNode, buildSourcePath_congr hscan.sourceDir]
    exact h.unshadowed rest hrest
  mounted := by
    obtain ⟨m, hm, hiso⟩ := h.mounted
    exact ⟨m, hscan.kept m hm, hiso⟩
  vacant := by
    obtain ⟨own, hown, howniso⟩ := h.mounted
    have hownat : own.At (joinVpath dir' name) := h.vacant.own own hown howniso
    constructor
    case own =>
      intro m hm hiso
      rcases hscan.mounts m hm with hold | ⟨name', isoPath', rfl, hlisted, hfresh⟩
      · exact h.vacant.own m hold hiso
      · have hcreate := (hscan.named name' isoPath' hlisted).create (hnew name' isoPath' hlisted).1
        exact absurd (howniso.trans (hiso.symm.trans hcreate.1)) (hfresh own hown)
    case others =>
      intro m hm hbelow
      rcases hscan.mounts m hm with hold | ⟨name', isoPath', rfl, hlisted, hfresh⟩
      · exact h.vacant.others m hold hbelow
      · obtain ⟨hfind, hvacant⟩ := hnew name' isoPath' hlisted
        have hnamed := hscan.named name' isoPath' hlisted
        obtain ⟨-, -, hat, -⟩ := hnamed.create hfind
        rw [hat] at hbelow
        rcases hbelow.of_append_cons hnamed.slash_not_mem with heq | habove
        · -- the ISO of the new mount would have had no room
          have hat' : own.isoVpath = joinVpath dir name' := hownat.1.trans heq
          exact absurd (hvacant.others own hown (hat' ▸ Below.refl _)) (hfresh own hown)
        · -- the directory would lie in the mount of the folder
          have hcanonical := hfind.canonical
          have hdir : dir = dir.rdropWhile (· = slash) := by
            unfold vpathOf joinVpath at hcanonical
            split at hcanonical
            · next hroot =>
              exfalso
              rw [hroot] at habove
              obtain ⟨rest, -, heq⟩ := habove
              have hnil : joinVpath dir' name ++ rest = [] := heq.symm.trans (by decide)
              exact joinVpath_ne_nil _ _ (List.append_eq_nil_iff.1 hnil).1
            · exact List.append_cancel_right hcanonical
          obtain ⟨rest, hrest, heq⟩ := habove
          obtain ⟨found, -, hfound, -⟩ := h.find hrest
          rw [← heq, ← hdir, hnone] at hfound
          cases hfound

/-- A folder the scan lists is in its place. -/
theorem ScanInv.placed (hscan : ScanInv ctx dir source entries scan)
    (hnew : ∀ name isoPath, ListedEntry.iso name isoPath ∈ scan.listed →
      Findable dir name ∧ Unshadowed ctx fs (joinVpath dir name) ∧
        Vacant ctx (joinVpath dir name) isoPath)
    (hlisted : ListedEntry.iso name isoPath ∈ scan.listed) :
    Placed scan.ctx fs dir name isoPath := by
  obtain ⟨hfind, hunshadowed, hvacant⟩ := hnew name isoPath hlisted
  have hnamed := hscan.named name isoPath hlisted
  constructor
  case slash_not_mem => exact hnamed.slash_not_mem
  case findable => exact hfind
  case unshadowed =>
    intro rest hrest
    rw [sourceNode, buildSourcePath_congr hscan.sourceDir]
    exact hunshadowed rest hrest
  case mounted => exact hnamed.mounted
  case vacant =>
    constructor
    case own =>
      intro m hm hiso
      rcases hscan.mounts m hm with hold | ⟨name', isoPath', rfl, hlisted', -⟩
      · exact hvacant.own m hold hiso
      · have hnamed' := hscan.named name' isoPath' hlisted'
        obtain ⟨hiso', -, hat⟩ := hnamed'.create (hnew name' isoPath' hlisted').1
        have heq : isoPath' = isoPath := hiso'.symm.trans hiso
        subst heq
        rw [hscan.iso_inj name name' isoPath' hlisted hlisted']
        exact hat
    case others =>
      intro m hm hbelow
      rcases hscan.mounts m hm with hold | ⟨name', isoPath', rfl, hlisted', -⟩
      · exact hvacant.others m hold hbelow
      · have hnamed' := hscan.named name' isoPath' hlisted'
        obtain ⟨hiso', -, hat, -⟩ := hnamed'.create (hnew name' isoPath' hlisted').1
        rw [hat] at hbelow
        have heq := joinVpath_below hnamed.slash_not_mem hnamed'.slash_not_mem hbelow
        subst heq
        rw [hiso']
        exact hscan.name_inj name isoPath' isoPath hlisted' hlisted

end Step

theorem ListingInv.step {s s' : OverlayState} {e : OverlayEvent} (h : ListingInv s)
    (hsteady : Steady s e) (hstep : s.step e = some s') : ListingInv s' := by
  cases e with
  | change fs =>
    cases hstep
    constructor
    case names => exact h.names
    case placed =>
      intro dir name isoPath hlisted
      exact { h.placed dir name isoPath hlisted with
        unshadowed := hsteady dir name isoPath hlisted }
  | stat path | «open» path =>
    cases hstep
    exact h
  | readdir dir entries =>
    simp only [OverlayState.step] at hstep
    split at hstep
    case isFalse => cases hstep
    case isTrue hnodup =>
      cases hstep
      rcases overlayReaddir_cases s.ctx s.fs dir hnodup with
        heq | ⟨source, scan, heq, hnone, hscan⟩
      · simp only [heq]
        constructor
        case names => exact h.names
        case placed =>
          intro dir' name isoPath hlisted
          dsimp only at hlisted
          split at hlisted
          · cases hlisted
          · exact h.placed dir' name isoPath hlisted
      · simp only [Steady, heq] at hsteady
        simp only [heq]
        constructor
        case names =>
          intro m hm
          rcases hscan.mounts m hm with hold | ⟨name, isoPath, rfl, hlisted, -⟩
          · exact h.names m hold
          · have hnamed := hscan.named name isoPath hlisted
            rw [(hnamed.create (hsteady name isoPath hlisted).1).2.1]
            exact hnamed.slash_not_mem
        case placed =>
          intro dir' name isoPath hlisted
          dsimp only at hlisted
          split at hlisted
          · next hdir =>
            subst hdir
            exact hscan.placed hsteady hlisted
          · refine (h.placed dir' name isoPath hlisted).after_scan hnone hscan fun name' isoPath' hnew => ?_
            exact ⟨(hsteady name' isoPath' hnew).1, (hsteady name' isoPath' hnew).2.2⟩

theorem ListingInv.start (ctx : OverlayCtx) (fs : SourceFs) :
    ListingInv (OverlayState.start ctx fs) :=
  ⟨nofun, nofun⟩

section Discs

/-- A directory `/src` with the disc `a.iso` and perhaps a directory `a`. -/
private def discsFs (isDir : Bool) : SourceFs := fun path =>
  if path = ascii "/src" then some .directory
  else if path = ascii "/src/a.iso" then some (.file true)
  else if path = ascii "/src/a" ∧ isDir then some .directory
  else none

private def discsCtx : OverlayCtx := ⟨ascii "/src", true, false, 0, []⟩

private def discEntry : DirEntry := ⟨ascii "a.iso", false, true, by decide⟩

private def dirEntry : DirEntry := ⟨ascii "a", true, true, by decide⟩

private def discMount : IsoMount :=
  ⟨ascii "/src/a.iso", ascii "a", ascii "/", ascii "/a"⟩

private theorem discs_readdir {mounts : List IsoMount} (h : mounts = [] ∨ mounts = [discMount]) :
    overlayReaddir { discsCtx with isoMounts := mounts } (discsFs false) [slash] [discEntry] =
      ([.iso (ascii "a") (ascii "/src/a.iso")], { discsCtx with isoMounts := [discMount] }) := by
  rcases h with rfl | rfl
  · decide
  · decide

private theorem discs_unshadowed (mounts : List IsoMount) :
    Unshadowed { discsCtx with isoMounts := mounts } (discsFs false) (ascii "/a") := by
  intro rest hrest
  have hslash : 0x5C ∉ ascii "/a" := by decide
  obtain ⟨rest', hnorm, htail⟩ := normalizePath_append hslash (by decide) rest
  have hrel : (ascii "/a" ++ rest').dropWhile (· = slash) = 0x61 :: rest' := rfl
  rw [sourceNode, buildSourcePath]
  simp only [hnorm, hrel]
  split
  · next hnil => cases hnil
  split
  · rfl
  · have hne : discsCtx.sourceDir ++ slash :: 0x61 :: rest' = ascii "/src/a" ++ rest' := rfl
    simp only [Option.bind_some, hne, discsFs]
    have hsrc : ascii "/src/a" ++ rest' ≠ ascii "/src" := by
      intro heq
      have hlen := congrArg List.length heq
      have h6 : (ascii "/src/a").length = 6 := rfl
      have h4 : (ascii "/src").length = 4 := rfl
      simp only [List.length_append, h6, h4] at hlen
      omega
    have hiso : ascii "/src/a" ++ rest' ≠ ascii "/src/a.iso" := by
      have hsplit : ascii "/src/a.iso" = ascii "/src/a" ++ ascii ".iso" := rfl
      intro heq
      rw [hsplit] at heq
      rw [List.append_cancel_left_eq] at heq
      rcases htail hrest with hnil | hhead
      · rw [hnil] at heq
        cases heq
      · rw [heq] at hhead
        cases hhead
    rw [if_neg hsrc, if_neg hiso]
    simp

private theorem discs_steady {mounts : List IsoMount} (h : mounts = [] ∨ mounts = [discMount])
    (listed : Bytes → List ListedEntry) :
    Steady ⟨{ discsCtx with isoMounts := mounts }, discsFs false, listed⟩
      (.readdir [slash] [discEntry]) := by
  intro name isoPath hlisted
  simp only [discs_readdir h, List.mem_singleton] at hlisted
  cases hlisted
  have hjoin : joinVpath [slash] (ascii "a") = ascii "/a" := by decide
  refine ⟨⟨by decide, by decide, by decide, by decide⟩, ?_, ?_⟩
  · rw [hjoin]
    exact discs_unshadowed mounts
  · rcases h with rfl | rfl
    · exact ⟨nofun, nofun⟩
    · constructor
      · intro m hm _
        rw [List.mem_singleton.1 hm, hjoin]
        exact ⟨rfl, by decide⟩
      · intro m hm _
        rw [List.mem_singleton.1 hm]
        rfl

end Discs

end DsdNexus.Overlay
