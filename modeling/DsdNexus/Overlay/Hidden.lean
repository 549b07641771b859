import DsdNexus.Overlay.ScanEntries
import Mathlib.Data.List.Nodup

/-! # What the overlay hides

ISO files and their sidecars are hidden by three filters: the listing and `stat` look at the
name and `open` looks for the extension of an ISO only. They are compared over the names of
one directory.
-/

namespace DsdNexus.Overlay

open Vfs Separator

/-! ## Names in a directory -/

/-- The entries the file system enumerates: each child once, and those with the flag of a
directory are directories. A link has no such flag, whatever it leads to. -/
structure Enumerates (fs : SourceFs) (source : Bytes) (entries : List DirEntry) : Prop where
  nodup : (entries.map (·.name)).Nodup
  complete : ∀ name, slash ∉ name → name ≠ [] → fs (source ++ slash :: name) ≠ none →
    ∃ e ∈ entries, e.name = name
  isDir : ∀ e ∈ entries, e.isDir = true → fs (fullPathOf source e) = some .directory

/-- A name in a directory whose path is one of the source: it is spelled as the overlay
spells paths, and neither a mount nor the folder of an ISO lies there. -/
structure Passthrough (ctx : OverlayCtx) (fs : SourceFs) (dir name : Bytes) : Prop where
  component : slash ∉ name ∧ name ≠ [] ∧ ¬ (name = ascii "." ∨ name = ascii "..")
  normal : normalizePath (joinVpath dir name) = joinVpath dir name
  notMounted : findIsoByVpath ctx (joinVpath dir name) = none
  notFolder : sourceNode ctx fs (joinVpath dir name) = none →
    statUnmounted ctx fs (joinVpath dir name) = .notFound

/-- An open returns a handle on the file. -/
def Opens (ctx : OverlayCtx) (fs : SourceFs) (path : Bytes) : Prop :=
  ∃ sacd, overlayOpen ctx fs path = .source (.file sacd)

/-- A listing shows an entry of the source under the name. -/
def Lists (ctx : OverlayCtx) (fs : SourceFs) (dir : Bytes) (entries : List DirEntry)
    (name : Bytes) : Prop :=
  ∃ isDir, ListedEntry.source name isDir ∈ (overlayReaddir ctx fs dir entries).1

/-- Neither listed, nor found, nor opened. -/
structure Hidden (ctx : OverlayCtx) (fs : SourceFs) (dir : Bytes) (entries : List DirEntry)
    (name : Bytes) : Prop where
  stat : overlayStat ctx fs (joinVpath dir name) = .notFound
  opens : ¬ Opens ctx fs (joinVpath dir name)
  lists : ¬ Lists ctx fs dir entries name

/-- A file the overlay takes for a disc, by its name and by what is in it. -/
def IsSacdIso (ctx : OverlayCtx) (fs : SourceFs) (dir name : Bytes) : Prop :=
  sourceNode ctx fs (joinVpath dir name) = some (.file true) ∧
    isIsoFile ctx ((buildSourcePath ctx (joinVpath dir name)).getD []) = true

/-- The name of the file `_get_xml_sidecar_path` names for an ISO. -/
def sidecarName (name : Bytes) : Bytes := name ++ ascii ".xml"

/-- What is hidden in a directory is hidden from all three, and the discs and their sidecar
files are. -/
structure HiddenEverywhere (ctx : OverlayCtx) (fs : SourceFs) (dir : Bytes)
    (entries : List DirEntry) : Prop where
  agree : ∀ name, Passthrough ctx fs dir name →
    (overlayStat ctx fs (joinVpath dir name) = .notFound ↔
      ¬ Opens ctx fs (joinVpath dir name) ∧ ¬ Lists ctx fs dir entries name)
  discs : ∀ name, Passthrough ctx fs dir name → IsSacdIso ctx fs dir name →
    Hidden ctx fs dir entries name
  sidecars : ∀ name, Passthrough ctx fs dir name → IsSacdIso ctx fs dir name →
    Passthrough ctx fs dir (sidecarName name) →
    (∃ sacd, sourceNode ctx fs (joinVpath dir (sidecarName name)) = some (.file sacd)) →
      Hidden ctx fs dir entries (sidecarName name)

/-! ## Paths of children -/

section

variable {ctx : OverlayCtx} {fs : SourceFs} {dir source name : Bytes} {entries : List DirEntry}

theorem normalizePath_eq_self_iff (path : Bytes) :
    normalizePath path = path ↔ path.length < overlayMaxPath ∧ 0x5C ∉ path := by
  constructor
  · intro h
    have hlen : path.length < overlayMaxPath := by
      have heq := congrArg List.length h
      have hlt : (strlcpy path overlayMaxPath).length < overlayMaxPath :=
        strlcpy_length_lt path (by decide)
      rw [normalizePath, List.length_map] at heq
      omega
    refine ⟨hlen, fun hmem => ?_⟩
    rw [normalizePath, strlcpy_of_length_lt hlen] at h
    rw [← h] at hmem
    obtain ⟨c, -, hc⟩ := List.mem_map.1 hmem
    split at hc
    · exact absurd hc (by decide)
    · next hne => exact hne hc
  · rintro ⟨hlen, hslash⟩
    rw [normalizePath, strlcpy_of_length_lt hlen]
    refine (List.map_congr_left fun c hc => if_neg ?_).trans (List.map_id _)
    exact fun heq => hslash (heq ▸ hc)

theorem baseName_joinVpath (dir : Bytes) {name : Bytes} (h : slash ∉ name) :
    baseName (joinVpath dir name) = name := baseName_append_slash _ h

/-- A child lies in the source where the scan looks for it. -/
theorem SourceDirectory.child (h : SourceDirectory ctx fs dir source)
    (hname : Passthrough ctx fs dir name) :
    buildSourcePath ctx (joinVpath dir name) =
      if source.length + 1 + name.length < overlayMaxPath then some (source ++ slash :: name)
      else none := by
  obtain ⟨hslash, hne, -⟩ := hname.component
  have hnorm := (normalizePath_eq_self_iff _).1 hname.normal
  have hdrop : ∀ rest : Bytes, (slash :: rest).dropWhile (· = slash) = rest.dropWhile (· = slash) :=
    fun rest => by simp
  have hself : name.dropWhile (· = slash) = name := by
    obtain ⟨c, rest, rfl⟩ := List.exists_cons_of_ne_nil hne
    exact List.dropWhile_cons_of_neg (by simpa using fun heq => hslash (by simp [heq]))
  have hchild : buildSourcePath ctx (joinVpath dir name) =
      if overlayMaxPath ≤ (ctx.sourceDir ++ slash :: (joinVpath dir name).dropWhile (· = slash)).length
      then none
      else some (ctx.sourceDir ++ slash :: (joinVpath dir name).dropWhile (· = slash)) := by
    rw [buildSourcePath, hname.normal]
    refine if_neg fun hnil => hne (List.eq_nil_iff_forall_not_mem.2 fun c hc => ?_)
    have hall := List.dropWhile_eq_nil_iff.1 hnil c (by simp [joinVpath, hc])
    exact hslash (of_decide_eq_true hall ▸ hc)
  have hsource := h.source_eq
  by_cases hroot : dir.rdropWhile (· = slash) = []
  · -- the root: the child is a child of the source directory itself
    have hjoin : (joinVpath dir name).dropWhile (· = slash) = name := by
      rw [joinVpath, hroot, List.nil_append, hdrop, hself]
    have hdir : buildSourcePath ctx dir = some (strlcpy ctx.sourceDir overlayMaxPath) := by
      rcases h.canonical with heq | heq
      · rw [heq]
        rfl
      · rw [← heq, hroot]
        rfl
    rw [hdir] at hsource
    cases hsource
    rw [hchild, hjoin]
    by_cases hlong : ctx.sourceDir.length < overlayMaxPath
    · rw [strlcpy_of_length_lt hlong]
      simp only [List.length_append, List.length_cons, ← Nat.not_lt, ite_not]
      rw [show ctx.sourceDir.length + 1 + name.length =
        ctx.sourceDir.length + (name.length + 1) by omega]
    · have hlen : (strlcpy ctx.sourceDir overlayMaxPath).length = overlayMaxPath - 1 := by
        rw [strlcpy, List.length_take]
        omega
      rw [if_pos (by simp only [List.length_append]; omega),
        if_neg (by rw [hlen]; simp only [overlayMaxPath]; omega)]
  · have hcanonical : dir.rdropWhile (· = slash) = dir := by
      rcases h.canonical with heq | heq
      · rw [heq] at hroot
        exact absurd rfl hroot
      · exact heq
    have hrel : dir.dropWhile (· = slash) ≠ [] := by
      intro hnil
      refine hroot (List.rdropWhile_eq_nil_iff.2 ?_)
      exact List.dropWhile_eq_nil_iff.1 hnil
    have hjoin : (joinVpath dir name).dropWhile (· = slash) =
        dir.dropWhile (· = slash) ++ slash :: name := by
      rw [joinVpath, hcanonical]
      rw [List.dropWhile_append, if_neg (by simpa using hrel)]
    have hdir : normalizePath dir = dir := by
      rw [joinVpath, hcanonical, List.length_append, List.mem_append] at hnorm
      exact (normalizePath_eq_self_iff dir).2 ⟨by omega, fun hmem => hnorm.2 (Or.inl hmem)⟩
    rw [buildSourcePath, hdir] at hsource
    simp only [if_neg hrel] at hsource
    split at hsource
    · cases hsource
    · cases hsource
      rw [hchild, hjoin]
      simp only [List.append_assoc, List.cons_append, List.length_append, List.length_cons,
        ← Nat.not_lt, ite_not, Nat.add_assoc, Nat.add_comm 1]

/-- What lies at the path of a child. -/
theorem SourceDirectory.sourceNode_child (h : SourceDirectory ctx fs dir source)
    (hname : Passthrough ctx fs dir name) :
    sourceNode ctx fs (joinVpath dir name) =
      if source.length + 1 + name.length < overlayMaxPath then fs (source ++ slash :: name)
      else none := by
  rw [sourceNode, h.child hname]
  split <;> rfl

theorem SourceDirectory.sourceNode_eq_some (h : SourceDirectory ctx fs dir source)
    (hname : Passthrough ctx fs dir name) {node : SourceNode}
    (hnode : sourceNode ctx fs (joinVpath dir name) = some node) :
    source.length + 1 + name.length < overlayMaxPath ∧ fs (source ++ slash :: name) = some node ∧
      (buildSourcePath ctx (joinVpath dir name)).getD [] = source ++ slash :: name := by
  rw [h.sourceNode_child hname] at hnode
  split at hnode
  · next hfits =>
    refine ⟨hfits, hnode, ?_⟩
    rw [h.child hname, if_pos hfits]
    rfl
  · cases hnode

/-- A name that ends like an XML file does not end like an ISO. -/
theorem isIsoFile_append_xml (ctx : OverlayCtx) (source stem : Bytes) :
    isIsoFile ctx (source ++ slash :: (stem ++ ascii ".xml")) = false := by
  have hext : extension (source ++ slash :: (stem ++ ascii ".xml")) = some (ascii ".xml") := by
    have hsplit : source ++ slash :: (stem ++ ascii ".xml") =
        (source ++ slash :: stem) ++ 0x2E :: ascii "xml" := by
      simp [ascii]
    rw [hsplit, extension, if_pos (by simp), rtakeWhile_append_cons (by decide)]
    rfl
  simp only [isIsoFile, hext]
  cases ctx.extIso <;> cases ctx.extIsoUpper <;> decide

theorem isIsoFile_of_isSidecarName (ctx : OverlayCtx) (source : Bytes) {name : Bytes}
    (h : isSidecarName name = true) : isIsoFile ctx (source ++ slash :: name) = false := by
  simp only [isSidecarName, Bool.and_eq_true, List.isSuffixOf_iff_suffix] at h
  obtain ⟨stem, rfl⟩ := h.2
  have hsplit : stem ++ ascii ".iso.xml" = (stem ++ ascii ".iso") ++ ascii ".xml" := by
    simp [ascii]
  rw [hsplit]
  exact isIsoFile_append_xml ctx source _

/-! ## The three filters -/

theorem overlayStat_eq_notFound_iff (hname : Passthrough ctx fs dir name) :
    overlayStat ctx fs (joinVpath dir name) = .notFound ↔
      ∀ node, sourceNode ctx fs (joinVpath dir name) = some node →
        (node ≠ .directory ∧ isIsoFile ctx ((buildSourcePath ctx (joinVpath dir name)).getD [])) ∨
          isSidecarName name = true := by
  obtain ⟨hslash, hne, -⟩ := hname.component
  have hroot : ¬ (joinVpath dir name = [slash] ∨ joinVpath dir name = []) := by
    rintro (heq | heq)
    · exact hne (append_cons_inj hslash (by simp) (heq.trans (List.nil_append [slash]).symm)).2
    · exact joinVpath_ne_nil _ _ heq
  rw [overlayStat, if_neg hroot]
  cases hnode : sourceNode ctx fs (joinVpath dir name) with
  | none => simp [hname.notMounted, hname.notFolder hnode]
  | some node =>
    simp only [baseName_joinVpath dir hslash, Option.some.injEq, forall_eq']
    split
    · next hiso => simp [hiso]
    · next hiso =>
      split
      · next hsidecar => simp [hsidecar]
      · next hsidecar => simp [hsidecar, hiso]

theorem opens_iff (hname : Passthrough ctx fs dir name) :
    Opens ctx fs (joinVpath dir name) ↔
      (∃ sacd, sourceNode ctx fs (joinVpath dir name) = some (.file sacd)) ∧
        isIsoFile ctx ((buildSourcePath ctx (joinVpath dir name)).getD []) = false := by
  simp only [Opens, overlayOpen, hname.notMounted]
  cases hnode : sourceNode ctx fs (joinVpath dir name) with
  | none => simp
  | some node =>
    cases isIsoFile ctx ((buildSourcePath ctx (joinVpath dir name)).getD []) <;> simp

theorem SourceDirectory.lists_iff (h : SourceDirectory ctx fs dir source) :
    Lists ctx fs dir entries name ↔ ∃ e ∈ entries, e.name = name ∧ Shown ctx source e := by
  simp only [Lists, h.source_mem_iff]
  constructor
  · rintro ⟨isDir, e, he, hshown, hname, -⟩
    exact ⟨e, he, hname, hshown⟩
  · rintro ⟨e, he, hname, hshown⟩
    exact ⟨e.isDir, e, he, hshown, hname, rfl⟩

/-! ## When nothing leaks -/

/-- What a directory must not hold, of entries with a path in the source: a file called
like a sidecar or after a disc, a shown link that leads nowhere, and a link with the
extension of an ISO that leads to a directory. -/
structure NothingLeaks (ctx : OverlayCtx) (fs : SourceFs) (dir source : Bytes)
    (entries : List DirEntry) : Prop where
  sidecar : ∀ e ∈ entries, Passthrough ctx fs dir e.name → Considered source e →
    isSidecarName e.name = true → ∀ sacd, fs (fullPathOf source e) ≠ some (.file sacd)
  sidecar_of_disc : ∀ e ∈ entries, Passthrough ctx fs dir e.name → Considered source e →
    fs (fullPathOf source e) = some (.file true) → HasIsoName ctx source e →
      ∀ e' ∈ entries, e'.name = sidecarName e.name → Passthrough ctx fs dir e'.name →
        Considered source e' → ∀ sacd, fs (fullPathOf source e') ≠ some (.file sacd)
  dangling : ∀ e ∈ entries, Passthrough ctx fs dir e.name → Shown ctx source e →
    fs (fullPathOf source e) ≠ none
  linked : ∀ e ∈ entries, Passthrough ctx fs dir e.name → Considered source e →
    fs (fullPathOf source e) = some .directory → ¬ HasIsoName ctx source e

theorem Passthrough.considered {e : DirEntry} (h : Passthrough ctx fs dir e.name)
    (hfits : source.length + 1 + e.name.length < overlayMaxPath) : Considered source e :=
  ⟨h.component.2.2, hfits⟩

/-- The path of an entry leads to what the scan finds there. -/
theorem SourceDirectory.sourceNode_entry (h : SourceDirectory ctx fs dir source) {e : DirEntry}
    (hname : Passthrough ctx fs dir e.name) (hconsidered : Considered source e) :
    sourceNode ctx fs (joinVpath dir e.name) = fs (fullPathOf source e) := by
  rw [h.sourceNode_child hname, if_pos hconsidered.2]
  rfl

theorem SourceDirectory.buildSourcePath_entry (h : SourceDirectory ctx fs dir source)
    {e : DirEntry} (hname : Passthrough ctx fs dir e.name) (hconsidered : Considered source e) :
    (buildSourcePath ctx (joinVpath dir e.name)).getD [] = fullPathOf source e := by
  rw [h.child hname, if_pos hconsidered.2]
  rfl

/-- A node at the path of a child is that of an entry. -/
theorem SourceDirectory.entry_of_node (h : SourceDirectory ctx fs dir source)
    (henum : Enumerates fs source entries) (hname : Passthrough ctx fs dir name)
    {node : SourceNode} (hnode : sourceNode ctx fs (joinVpath dir name) = some node) :
    ∃ e ∈ entries, e.name = name ∧ Considered source e := by
  rw [h.sourceNode_child hname] at hnode
  split at hnode
  · next hfits =>
    obtain ⟨e, he, rfl⟩ := henum.complete name hname.component.1 hname.component.2.1
      (by rw [hnode]; simp)
    exact ⟨e, he, rfl, hname.considered hfits⟩
  · cases hnode

theorem Enumerates.eq_of_name (h : Enumerates fs source entries) {e e' : DirEntry}
    (he : e ∈ entries) (he' : e' ∈ entries) (hname : e.name = e'.name) : e = e' :=
  List.inj_on_of_nodup_map h.nodup he he' hname

/-- A file called `….xml` opens. -/
theorem SourceDirectory.opens_xml (h : SourceDirectory ctx fs dir source) {e : DirEntry}
    (hname : Passthrough ctx fs dir e.name) (hconsidered : Considered source e) {sacd : Bool}
    (hfile : fs (fullPathOf source e) = some (.file sacd))
    (hxml : isIsoFile ctx (fullPathOf source e) = false) :
    Opens ctx fs (joinVpath dir e.name) := by
  rw [opens_iff hname, h.sourceNode_entry hname hconsidered,
    h.buildSourcePath_entry hname hconsidered]
  exact ⟨⟨sacd, hfile⟩, hxml⟩

theorem HiddenEverywhere.nothingLeaks (h : HiddenEverywhere ctx fs dir entries)
    (hdir : SourceDirectory ctx fs dir source) (henum : Enumerates fs source entries) :
    NothingLeaks ctx fs dir source entries := by
  constructor
  case sidecar =>
    intro e he hname hconsidered hsidecar sacd hfile
    have hstat : overlayStat ctx fs (joinVpath dir e.name) = .notFound :=
      (overlayStat_eq_notFound_iff hname).2 fun _ _ => Or.inr hsidecar
    exact ((h.agree e.name hname).1 hstat).1
      (hdir.opens_xml hname hconsidered hfile (isIsoFile_of_isSidecarName ctx source hsidecar))
  case sidecar_of_disc =>
    intro e he hname hconsidered hdisc hiso e' he' heq hname' hconsidered' sacd hfile
    have hsacd : IsSacdIso ctx fs dir e.name := by
      rw [IsSacdIso, hdir.sourceNode_entry hname hconsidered,
        hdir.buildSourcePath_entry hname hconsidered]
      exact ⟨hdisc, hiso.2⟩
    have hnode : sourceNode ctx fs (joinVpath dir e'.name) = some (.file sacd) := by
      rw [hdir.sourceNode_entry hname' hconsidered', hfile]
    have hxml : isIsoFile ctx (fullPathOf source e') = false := by
      rw [fullPathOf, heq]
      exact isIsoFile_append_xml ctx source e.name
    have hhidden := h.sidecars e.name hname hsacd (heq ▸ hname') ⟨sacd, heq ▸ hnode⟩
    exact hhidden.opens (heq ▸ hdir.opens_xml hname' hconsidered' hfile hxml)
  case dangling =>
    intro e he hname hshown hnone
    have hnode : sourceNode ctx fs (joinVpath dir e.name) = none := by
      rw [hdir.sourceNode_entry hname hshown.1, hnone]
    have hstat : overlayStat ctx fs (joinVpath dir e.name) = .notFound := by
      rw [overlayStat_eq_notFound_iff hname, hnode]
      exact nofun
    exact ((h.agree e.name hname).1 hstat).2 (hdir.lists_iff.2 ⟨e, he, rfl, hshown⟩)
  case linked =>
    intro e he hname hconsidered hdirectory hiso
    have hnode : sourceNode ctx fs (joinVpath dir e.name) = some .directory := by
      rw [hdir.sourceNode_entry hname hconsidered, hdirectory]
    have hexposed : ¬ (¬ Opens ctx fs (joinVpath dir e.name) ∧ ¬ Lists ctx fs dir entries e.name) := by
      rw [← h.agree e.name hname, overlayStat_eq_notFound_iff hname, hnode]
      intro hstat
      rcases hstat .directory rfl with ⟨hne, -⟩ | hsidecar
      · exact hne rfl
      · have hnot := isIsoFile_of_isSidecarName ctx source hsidecar
        exact Bool.noConfusion (hnot.symm.trans hiso.2)
    refine hexposed ⟨fun hopens => ?_, fun hlists => ?_⟩
    · obtain ⟨⟨sacd, hfile⟩, -⟩ := (opens_iff hname).1 hopens
      rw [hnode] at hfile
      cases hfile
    · obtain ⟨e', he', heq, hshown⟩ := hdir.lists_iff.1 hlists
      rw [henum.eq_of_name he' he heq] at hshown
      exact hshown.2.1 hiso

theorem NothingLeaks.agree (h : NothingLeaks ctx fs dir source entries)
    (hdir : SourceDirectory ctx fs dir source) (henum : Enumerates fs source entries)
    (hname : Passthrough ctx fs dir name) :
    overlayStat ctx fs (joinVpath dir name) = .notFound ↔
      ¬ Opens ctx fs (joinVpath dir name) ∧ ¬ Lists ctx fs dir entries name := by
  rw [overlayStat_eq_notFound_iff hname, opens_iff hname, hdir.lists_iff]
  cases hnode : sourceNode ctx fs (joinVpath dir name) with
  | none =>
    simp only [reduceCtorEq, false_imp_iff, implies_true, exists_false, false_and, not_false_eq_true,
      true_and, true_iff]
    rintro ⟨e, he, rfl, hshown⟩
    rw [hdir.sourceNode_entry hname hshown.1] at hnode
    exact h.dangling e he hname hshown hnode
  | some node =>
    obtain ⟨e, he, rfl, hconsidered⟩ := hdir.entry_of_node henum hname hnode
    rw [hdir.sourceNode_entry hname hconsidered] at hnode
    rw [hdir.buildSourcePath_entry hname hconsidered]
    have hlisted : (∃ e' ∈ entries, e'.name = e.name ∧ Shown ctx source e') ↔ Shown ctx source e := by
      constructor
      · rintro ⟨e', he', heq, hshown⟩
        exact henum.eq_of_name he' he heq ▸ hshown
      · exact fun hshown => ⟨e, he, rfl, hshown⟩
    simp only [Option.some.injEq, forall_eq', hlisted]
    cases node with
    | directory =>
      -- never opened, so it must be listed unless it has the name of a sidecar
      have hiso := h.linked e he hname hconsidered hnode
      simp [Shown, hconsidered, hiso]
    | file sacd =>
      have hsidecar : ¬ isSidecarName e.name = true := fun hname' =>
        h.sidecar e he hname hconsidered hname' sacd hnode
      have hfile : e.isDir = false := by
        by_contra hflag
        have hdirectory := henum.isDir e he (by simpa using hflag)
        rw [hnode] at hdirectory
        cases hdirectory
      simp [Shown, hconsidered, HasIsoName, hsidecar, hfile]

end

/-! ## Two directories -/

section Sidecars

/-- A directory `/src` with the given files; those that end in `o` or `O` are discs. -/
private def filesFs (names : List Bytes) : SourceFs := fun path =>
  if path = ascii "/src" then some .directory
  else if (names.map (ascii "/src/" ++ ·)).contains path then
    some (.file (path.getLast? = some 0x6F ∨ path.getLast? = some 0x4F))
  else none

private def filesCtx : OverlayCtx := ⟨ascii "/src", true, true, 0, []⟩

private theorem filesFs_sourceDirectory (names : List Bytes) :
    SourceDirectory filesCtx (filesFs names) [slash] (ascii "/src") where
  source_eq := by decide
  isDirectory := by simp [filesFs]
  notMounted := by decide
  canonical := Or.inl rfl

private theorem filesFs_enumerates {entries : List DirEntry}
    (hnodup : (entries.map (·.name)).Nodup) (hfiles : ∀ e ∈ entries, e.isDir = false) :
    Enumerates (filesFs (entries.map (·.name))) (ascii "/src") entries where
  nodup := hnodup
  complete := by
    intro name _ _ hnode
    have hne : ascii "/src" ++ slash :: name ≠ ascii "/src" := by simp
    by_contra hnone
    refine hnode ?_
    rw [filesFs, if_neg hne, if_neg]
    intro hmem
    obtain ⟨name', hname', heq⟩ := List.mem_map.1 (List.contains_iff_mem.1 hmem)
    obtain ⟨e, he, rfl⟩ := List.mem_map.1 hname'
    have hsplit : ascii "/src/" ++ e.name = ascii "/src" ++ slash :: e.name := by
      simp [ascii, slash]
    rw [hsplit, List.append_cancel_left_eq, List.cons.injEq] at heq
    exact hnone ⟨e, he, heq.2⟩
  isDir := by
    intro e he hflag
    rw [hfiles e he] at hflag
    cases hflag

private theorem slash_not_mem_iso : slash ∉ ascii "a.iso" := by decide

private def iso : DirEntry := ⟨ascii "a.iso", false, true, slash_not_mem_iso⟩

private def notes : DirEntry := ⟨ascii "notes.txt", false, true, by decide⟩

private def isoXml : DirEntry := ⟨ascii "a.iso.xml", false, true, by decide⟩

private def upperIso : DirEntry := ⟨ascii "b.ISO", false, true, by decide⟩

private def upperIsoXml : DirEntry := ⟨ascii "b.ISO.xml", false, true, by decide⟩

end Sidecars

end DsdNexus.Overlay
