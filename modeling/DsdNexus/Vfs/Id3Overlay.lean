import DsdNexus.Lib.Transition
import DsdNexus.Vfs.Id3Cache

/-! # What the sidecar keeps of the overlays

The overlays of a context are the entries a save selects. Their reading back from
the sidecar is compared with what is in memory: for the entries that are not
dirty after every history, and for all of them after a save.
-/

namespace DsdNexus.Vfs

open Transition

/-! ## Checks -/

theorem checkTrack_ok {ctx : VfsCtx} {area : VfsArea} {trackNum : Nat}
    (h : checkTrack ctx area trackNum = .ok) : trackNum ≠ 0 ∧ ctx.HasTrack area (trackNum - 1) := by
  unfold checkTrack at h
  split at h
  · cases h
  · next hnum =>
    split at h
    · cases h
    · split at h
      · cases h
      · next htrack =>
        simp only [not_or, Bool.not_eq_true, Bool.not_eq_false, Nat.not_lt] at htrack
        exact ⟨hnum, htrack.1, by omega⟩

theorem checkTrack_of_hasTrack {ctx : VfsCtx} (hopen : ctx.isOpen = true) {area : VfsArea}
    {trackNum : Nat} (hnum : trackNum ≠ 0) (h : ctx.HasTrack area (trackNum - 1)) :
    checkTrack ctx area trackNum = .ok := by
  have hcount := h.2
  rw [checkTrack, if_neg hnum, if_neg (by simp [hopen]), if_neg]
  rintro (havail | hlt)
  · exact havail h.1
  · omega

/-- A tag that is served leaves the context alone; one that is rendered goes to the entry. -/
theorem getId3Tag_cases (render : VfsArea → Nat → Bytes) (ctx : VfsCtx) (area : VfsArea)
    (trackNum : Nat) (allocs : GetAllocs) :
    (getId3Tag render ctx area trackNum allocs).2.2 = ctx ∨
      (ctx.HasTrack area (trackNum - 1) ∧
        ¬ ((ctx.id3Cache area (trackNum - 1)).valid = true ∧
          (ctx.id3Cache area (trackNum - 1)).data ≠ none) ∧
        ∃ e, (getId3Tag render ctx area trackNum allocs).2.2 = ctx.setEntry area (trackNum - 1) e ∧
          ((render area trackNum ≠ [] ∧ e = { ctx.id3Cache area (trackNum - 1) with
              data := some (render area trackNum), valid := true }) ∨
            e = { ctx.id3Cache area (trackNum - 1) with data := none })) := by
  unfold getId3Tag
  by_cases hcheck : checkTrack ctx area trackNum = .ok
  · rw [if_neg (by simp [hcheck])]
    have htrack := (checkTrack_ok hcheck).2
    simp only
    split
    · split
      · exact Or.inl rfl
      · exact Or.inl rfl
    · next hmiss =>
      have hunserved : ¬ ((ctx.id3Cache area (trackNum - 1)).valid = true ∧
          (ctx.id3Cache area (trackNum - 1)).data ≠ none) := by
        rintro ⟨hvalid, hdata⟩
        obtain ⟨data, hsome⟩ := Option.ne_none_iff_exists'.mp hdata
        exact hmiss data hvalid hsome
      split
      · exact Or.inl rfl
      · split
        · exact Or.inl rfl
        · next htag =>
          have htag' : render area trackNum ≠ [] := fun he => htag (by rw [he]; rfl)
          right
          refine ⟨htrack, hunserved, ?_⟩
          by_cases hcache : allocs.cache = true
          · rw [if_pos hcache]
            refine ⟨_, ?_, Or.inl ⟨htag', rfl⟩⟩
            split <;> rfl
          · rw [if_neg hcache]
            refine ⟨_, ?_, Or.inr rfl⟩
            split <;> rfl
  · rw [if_pos hcheck]
    exact Or.inl rfl

theorem setId3Overlay_cases (ctx : VfsCtx) (area : VfsArea) (trackNum : Nat) (buffer : Bytes)
    (alloc : Bool) :
    ((setId3Overlay ctx area trackNum buffer alloc).2 = ctx ∧
        (buffer = [] ∨ checkTrack ctx area trackNum ≠ .ok)) ∨
      (buffer ≠ [] ∧ checkTrack ctx area trackNum = .ok ∧
        (setId3Overlay ctx area trackNum buffer alloc).2 = ctx.setEntry area (trackNum - 1)
          (if alloc then { ctx.id3Cache area (trackNum - 1) with
              data := some buffer, valid := true, dirty := true }
            else { ctx.id3Cache area (trackNum - 1) with data := none, valid := false })) := by
  unfold setId3Overlay
  split
  · next hempty => exact Or.inl ⟨rfl, Or.inl (List.length_eq_zero_iff.mp hempty)⟩
  · next hlen =>
    have hbuffer : buffer ≠ [] := fun he => hlen (by rw [he]; rfl)
    split
    · next hcheck => exact Or.inl ⟨rfl, Or.inr hcheck⟩
    · next hcheck =>
      refine Or.inr ⟨hbuffer, not_not.mp hcheck, ?_⟩
      cases alloc <;> rfl

theorem clearId3Overlay_cases (ctx : VfsCtx) (area : VfsArea) (trackNum : Nat) :
    ((clearId3Overlay ctx area trackNum).2 = ctx ∧ checkTrack ctx area trackNum ≠ .ok) ∨
      (checkTrack ctx area trackNum = .ok ∧ (clearId3Overlay ctx area trackNum).2 =
        ctx.setEntry area (trackNum - 1) ⟨none, false, true, false⟩) := by
  unfold clearId3Overlay
  split
  · next hcheck => exact Or.inl ⟨rfl, hcheck⟩
  · next hcheck => exact Or.inr ⟨not_not.mp hcheck, rfl⟩

/-! ## Loading a saved document -/

@[simp] theorem loadTrack_toIso (area : VfsArea) (ctx : VfsCtx) (node : TrackNode) :
    (loadTrack area ctx node).toIso = ctx.toIso := by
  unfold loadTrack
  split
  · rfl
  · split <;> rfl

@[simp] theorem foldl_loadTrack_toIso (area : VfsArea) (nodes : List TrackNode) (ctx : VfsCtx) :
    (nodes.foldl (loadTrack area) ctx).toIso = ctx.toIso := by
  induction nodes generalizing ctx with
  | nil => rfl
  | cons node nodes ih => rw [List.foldl_cons, ih, loadTrack_toIso]

@[simp] theorem loadArea_toIso (ctx : VfsCtx) (node : AreaNode) :
    (loadArea ctx node).toIso = ctx.toIso := by
  unfold loadArea
  split
  · rfl
  · split
    · exact foldl_loadTrack_toIso _ _ _
    · rfl

/-- What a loaded document leaves of an entry. -/
def CacheEntry.orLoaded (e : CacheEntry) (data : Option Bytes) : CacheEntry :=
  data.elim e CacheEntry.loaded

/-- Nodes numbered by their tracks each go to their own entry. -/
theorem foldl_loadTrack {area : VfsArea} {ctx : VfsCtx} {node : Nat → Option TrackNode}
    (hnumber : ∀ t e, node t = some e → e.number = t + 1) {n : Nat}
    (hn : n ≤ ctx.trackCount area) (a : VfsArea) (t : Nat) :
    (((List.range n).filterMap node).foldl (loadTrack area) ctx).id3Cache a t =
      if a = area ∧ t < n then
        (ctx.id3Cache a t).orLoaded ((node t).bind TrackNode.firstId3)
      else ctx.id3Cache a t := by
  induction n generalizing t with
  | zero => simp
  | succ n ih =>
    have ih' := fun i => ih (by omega) i
    have hiso := foldl_loadTrack_toIso area ((List.range n).filterMap node) ctx
    generalize hctx : ((List.range n).filterMap node).foldl (loadTrack area) ctx = ctx' at ih' hiso
    rw [List.range_succ, List.filterMap_append, List.foldl_append, hctx]
    have hlast : (([n].filterMap node).foldl (loadTrack area) ctx').id3Cache a t =
        if a = area ∧ t = n then
          (ctx'.id3Cache a t).orLoaded ((node n).bind TrackNode.firstId3)
        else ctx'.id3Cache a t := by
      cases hnode : node n with
      | none => simp [hnode, CacheEntry.orLoaded]
      | some e =>
        have hnum := hnumber n e hnode
        have hcount : ctx'.trackCount area = ctx.trackCount area := by rw [hiso]
        have hrange : ¬ (e.number < 1 ∨ (ctx'.trackCount area : Int) < e.number) := by
          rw [hnum, hcount]
          omega
        have hindex : e.number.toNat - 1 = n := by
          rw [hnum]
          omega
        cases hfirst : e.firstId3 with
        | none => simp [hnode, loadTrack, hrange, hfirst, CacheEntry.orLoaded]
        | some data => simp [hnode, loadTrack, hrange, hfirst, hindex, CacheEntry.orLoaded]
    rw [hlast, ih' t]
    by_cases harea : a = area
    · by_cases heq : t = n
      · subst heq
        simp [harea]
      · have hlt : t < n + 1 ↔ t < n := by omega
        simp [harea, heq, hlt]
    · simp [harea]

/-- What the document of a save holds for a track. -/
def savedData (steps : SaveSteps) (ctx : VfsCtx) (area : VfsArea) (t : Nat) : Option Bytes :=
  if writesArea steps ctx area then
    (saveTrack steps area t (ctx.id3Cache area t)).1.bind TrackNode.firstId3
  else none

theorem saveTrack_number (steps : SaveSteps) (area : VfsArea) (t : Nat) (e : CacheEntry)
    (node : TrackNode) (h : (saveTrack steps area t e).1 = some node) : node.number = t + 1 := by
  unfold saveTrack at h
  split at h
  · cases h
  · split at h
    · cases h
    · split at h
      · cases h
        rfl
      · cases h
        rfl

/-- The element of an area, or nothing. -/
def areaElement (steps : SaveSteps) (ctx : VfsCtx) (area : VfsArea) : Option AreaNode :=
  if writesArea steps ctx area then
    some ⟨some area, (List.range (ctx.trackCount area)).filterMap fun t =>
      (saveTrack steps area t (ctx.id3Cache area t)).1⟩
  else none

theorem loadArea_element {steps : SaveSteps} {ctx : VfsCtx} {area : VfsArea} (base : VfsCtx)
    (hiso : base.toIso = ctx.toIso) (a : VfsArea) (t : Nat) (htrack : ctx.HasTrack a t) :
    ((areaElement steps ctx area).toList.foldl loadArea base).id3Cache a t =
      if a = area then (base.id3Cache a t).orLoaded (savedData steps ctx area t)
      else base.id3Cache a t := by
  unfold areaElement savedData
  by_cases hwrites : writesArea steps ctx area = true
  · have havail : base.available area = true := by
      rw [hiso]
      simp only [writesArea, VfsCtx.areaHasData, Bool.and_eq_true] at hwrites
      exact hwrites.1.1
    have hcount : base.trackCount area = ctx.trackCount area := by rw [hiso]
    simp only [hwrites, if_true, Option.toList_some, List.foldl_cons, List.foldl_nil, loadArea,
      havail]
    rw [foldl_loadTrack (fun i e he => saveTrack_number steps area i _ e he) (Nat.le_of_eq hcount.symm)]
    by_cases harea : a = area
    · subst harea
      simp [htrack.2]
    · simp [harea]
  · simp [hwrites, CacheEntry.orLoaded]

theorem sidecarDoc_eq (steps : SaveSteps) (ctx : VfsCtx) : sidecarDoc steps ctx =
    (areaElement steps ctx .stereo).toList ++ (areaElement steps ctx .multichannel).toList := by
  have hdef : sidecarDoc steps ctx = allAreas.filterMap (areaElement steps ctx) := rfl
  rw [hdef, allAreas]
  cases h₁ : areaElement steps ctx .stereo <;>
    cases h₂ : areaElement steps ctx .multichannel <;> simp [h₁, h₂]

theorem foldl_loadArea_ctx (nodes : List AreaNode) (ctx : VfsCtx) :
    (nodes.foldl loadArea ctx).toIso = ctx.toIso ∧ (nodes.foldl loadArea ctx).isOpen = ctx.isOpen := by
  have htrack : ∀ (area : VfsArea) (tracks : List TrackNode) (c : VfsCtx),
      (tracks.foldl (loadTrack area) c).isOpen = c.isOpen := by
    intro area tracks
    induction tracks with
    | nil => exact fun _ => rfl
    | cons node tracks ih =>
      intro c
      rw [List.foldl_cons, ih]
      unfold loadTrack
      split
      · rfl
      · split <;> rfl
  induction nodes generalizing ctx with
  | nil => exact ⟨rfl, rfl⟩
  | cons node nodes ih =>
    rw [List.foldl_cons, (ih _).1, (ih _).2, loadArea_toIso]
    refine ⟨rfl, ?_⟩
    unfold loadArea
    split
    · rfl
    · split
      · exact htrack _ _ _
      · rfl

/-- Opened again, the context has what the document holds. -/
theorem sacdVfsOpen_sidecarDoc (steps : SaveSteps) {ctx : VfsCtx}
    (hpath : ctx.sidecarPath = true) {a : VfsArea} {t : Nat} (htrack : ctx.HasTrack a t) :
    (sacdVfsOpen ctx.toIso (some (sidecarDoc steps ctx))).id3Cache a t =
      CacheEntry.empty.orLoaded (savedData steps ctx a t) := by
  rw [sacdVfsOpen, loadId3OverlayXml, if_pos hpath, Option.getD_some, sidecarDoc_eq,
    List.foldl_append]
  have hempty : ({ toIso := ctx.toIso, isOpen := true, id3Cache := fun _ _ => .empty } :
      VfsCtx).toIso = ctx.toIso := rfl
  rw [loadArea_element _ (by rw [(foldl_loadArea_ctx _ _).1]) a t htrack,
    loadArea_element _ hempty a t htrack]
  cases a <;> simp

/-! ## Saving -/

/-- The overlay an entry stands for: what a save would write. -/
def CacheEntry.overlay (e : CacheEntry) : Option Bytes := if e.persists then e.data else none

/-- A save marks the entry as written. -/
def marks (steps : SaveSteps) (ctx : VfsCtx) (area : VfsArea) (t : Nat) : Bool :=
  writesArea steps ctx area && (ctx.id3Cache area t).persists && steps.trackNode area t &&
    steps.base64 area t

theorem markSaved_id3Cache (steps : SaveSteps) (ctx : VfsCtx) {area : VfsArea} {t : Nat}
    (htrack : ctx.HasTrack area t) : (markSaved steps ctx).id3Cache area t =
      if marks steps ctx area t then
        { ctx.id3Cache area t with dirty := false, fromXml := true }
      else ctx.id3Cache area t := by
  have hlt := htrack.2
  unfold markSaved marks
  by_cases hwrites : writesArea steps ctx area = true
  · simp only [hwrites, hlt, and_self, if_true, Bool.true_and]
    unfold saveTrack
    by_cases hpersists : (ctx.id3Cache area t).persists = true
    · by_cases hnode : steps.trackNode area t = true
      · by_cases hbase : steps.base64 area t = true
        · simp [hpersists, hnode, hbase]
        · simp [hpersists, hnode, hbase]
      · simp [hpersists, hnode]
    · simp [hpersists]
  · simp [hwrites]

/-- An entry with its data at hand, where it claims to have them. -/
def CacheEntry.Sound (e : CacheEntry) : Prop := e.valid = true → ∃ b, e.data = some b ∧ b ≠ []

theorem savedData_eq {steps : SaveSteps} {ctx : VfsCtx} {area : VfsArea} {t : Nat}
    (hsound : (ctx.id3Cache area t).Sound) : savedData steps ctx area t =
      if marks steps ctx area t && steps.id3Node area t then (ctx.id3Cache area t).data
      else none := by
  unfold savedData marks
  by_cases hwrites : writesArea steps ctx area = true
  · simp only [hwrites, if_true, Bool.true_and]
    unfold saveTrack
    by_cases hpersists : (ctx.id3Cache area t).persists = true
    · by_cases hnode : steps.trackNode area t = true
      · by_cases hbase : steps.base64 area t = true
        · by_cases hid3 : steps.id3Node area t = true
          · have hvalid : (ctx.id3Cache area t).valid = true := by
              simp only [CacheEntry.persists, Bool.and_eq_true] at hpersists
              exact hpersists.1
            obtain ⟨b, hb, hne⟩ := hsound hvalid
            simp [hpersists, hnode, hbase, hid3, hb, TrackNode.firstId3, hne]
          · simp [hpersists, hnode, hbase, hid3, TrackNode.firstId3]
        · simp [hpersists, hnode, hbase, TrackNode.firstId3]
      · simp [hpersists, hnode]
    · simp [hpersists]
  · simp [hwrites]

/-- What a save can do: nothing, remove the file, mark entries without writing
them, or mark and write. -/
theorem saveId3Overlay_cases (steps : SaveSteps) (s : Id3State) :
    (saveId3Overlay steps s).2 = s ∨
      (s.ctx.sidecarPath = true ∧ allAreas.any s.ctx.areaHasData = false ∧
        (saveId3Overlay steps s).1 = .ok ∧
        (saveId3Overlay steps s).2 = { s with sidecar := none }) ∨
      (s.ctx.sidecarPath = true ∧ allAreas.any s.ctx.areaHasData = true ∧ steps.docInit = true ∧
        steps.root = true ∧
        ((steps.fopen = false ∧
            (saveId3Overlay steps s).2 = { s with ctx := markSaved steps s.ctx }) ∨
          (steps.fopen = true ∧ (saveId3Overlay steps s).1 = .ok ∧
            (saveId3Overlay steps s).2 =
              ⟨markSaved steps s.ctx, some (steps.printed.getD (sidecarDoc steps s.ctx))⟩))) := by
  unfold saveId3Overlay
  split
  · exact Or.inl rfl
  · split
    · exact Or.inl rfl
    · next hpath =>
      have hpath' : s.ctx.sidecarPath = true := by simpa using hpath
      split
      · next hdata =>
        have hdata' : allAreas.any s.ctx.areaHasData = false := by simpa using hdata
        cases steps.remove with
        | true => exact Or.inr (Or.inl ⟨hpath', hdata', rfl, rfl⟩)
        | false => exact Or.inl rfl
      · next hdata =>
        have hdata' : allAreas.any s.ctx.areaHasData = true := by simpa using hdata
        split
        · exact Or.inl rfl
        · next hinit =>
          split
          · exact Or.inl rfl
          · next hroot =>
            refine Or.inr (Or.inr ⟨hpath', hdata', by simpa using hinit, by simpa using hroot, ?_⟩)
            split
            · next hopen => exact Or.inl ⟨by simpa using hopen, rfl⟩
            · next hopen => exact Or.inr ⟨by simpa using hopen, rfl, rfl⟩

theorem areaHasData_of_persists {ctx : VfsCtx} {area : VfsArea} {t : Nat}
    (htrack : ctx.HasTrack area t) (h : (ctx.id3Cache area t).persists = true) :
    ctx.areaHasData area = true := by
  simp only [VfsCtx.areaHasData, htrack.1, Bool.true_and, List.any_eq_true, List.mem_range]
  exact ⟨t, htrack.2, h⟩

theorem not_persists_of_noData {ctx : VfsCtx} (h : allAreas.any ctx.areaHasData = false)
    {area : VfsArea} {t : Nat} (htrack : ctx.HasTrack area t) :
    (ctx.id3Cache area t).persists = false := by
  by_contra hpersists
  have hdata := areaHasData_of_persists htrack (by simpa using hpersists)
  simp only [allAreas, List.any_cons, List.any_nil, Bool.or_false, Bool.or_eq_false_iff] at h
  cases area with
  | stereo => rw [hdata] at h; cases h.1
  | multichannel => rw [hdata] at h; cases h.2

/-- Opened again without a sidecar, the context has empty entries. -/
theorem sacdVfsOpen_none (iso : Iso) (area : VfsArea) (t : Nat) :
    (sacdVfsOpen iso none).id3Cache area t = .empty := by
  unfold sacdVfsOpen loadId3OverlayXml
  split <;> rfl

theorem orLoaded_overlay (data : Option Bytes) : (CacheEntry.empty.orLoaded data).overlay = data := by
  cases data <;> rfl

/-! ## Opening -/

/-- An entry as an open leaves it. -/
def CacheEntry.Fresh (e : CacheEntry) : Prop := e = .empty ∨ ∃ b, b ≠ [] ∧ e = .loaded b

theorem firstId3_ne_nil {node : TrackNode} {b : Bytes} (h : node.firstId3 = some b) : b ≠ [] := by
  obtain ⟨text, -, htext⟩ := List.exists_of_findSome?_eq_some h
  have hlen := (Option.filter_eq_some_iff.mp htext).2
  intro hnil
  simp [hnil] at hlen

/-- Loading keeps what every entry satisfies that is loaded. -/
theorem loadTrack_entries {P : CacheEntry → Prop} (hloaded : ∀ b, b ≠ [] → P (.loaded b))
    (area : VfsArea) {ctx : VfsCtx} (node : TrackNode) (h : ∀ a t, P (ctx.id3Cache a t))
    (a : VfsArea) (t : Nat) : P ((loadTrack area ctx node).id3Cache a t) := by
  unfold loadTrack
  split
  · exact h a t
  · split
    · exact h a t
    · next b hb =>
      rw [VfsCtx.setEntry_id3Cache]
      split
      · exact hloaded b (firstId3_ne_nil hb)
      · exact h a t

theorem foldl_loadTrack_entries {P : CacheEntry → Prop} (hloaded : ∀ b, b ≠ [] → P (.loaded b))
    (area : VfsArea) (nodes : List TrackNode) {ctx : VfsCtx} (h : ∀ a t, P (ctx.id3Cache a t))
    (a : VfsArea) (t : Nat) : P ((nodes.foldl (loadTrack area) ctx).id3Cache a t) := by
  induction nodes generalizing ctx with
  | nil => exact h a t
  | cons node nodes ih => exact ih fun a t => loadTrack_entries hloaded area node h a t

theorem foldl_loadArea_entries {P : CacheEntry → Prop} (hloaded : ∀ b, b ≠ [] → P (.loaded b))
    (nodes : List AreaNode) {ctx : VfsCtx} (h : ∀ a t, P (ctx.id3Cache a t)) (a : VfsArea)
    (t : Nat) : P ((nodes.foldl loadArea ctx).id3Cache a t) := by
  induction nodes generalizing ctx with
  | nil => exact h a t
  | cons node nodes ih =>
    refine ih fun a t => ?_
    unfold loadArea
    split
    · exact h a t
    · split
      · exact foldl_loadTrack_entries hloaded _ _ h a t
      · exact h a t

theorem sacdVfsOpen_fresh (iso : Iso) (sidecar : Option Sidecar) (a : VfsArea) (t : Nat) :
    ((sacdVfsOpen iso sidecar).id3Cache a t).Fresh := by
  unfold sacdVfsOpen loadId3OverlayXml
  split
  · exact foldl_loadArea_entries (P := CacheEntry.Fresh) (fun b hb => Or.inr ⟨b, hb, rfl⟩) _
      (fun _ _ => Or.inl rfl) a t
  · exact Or.inl rfl

theorem sacdVfsOpen_toIso (iso : Iso) (sidecar : Option Sidecar) :
    (sacdVfsOpen iso sidecar).toIso = iso := by
  unfold sacdVfsOpen loadId3OverlayXml
  split
  · exact (foldl_loadArea_ctx _ _).1
  · rfl

theorem sacdVfsOpen_isOpen (iso : Iso) (sidecar : Option Sidecar) :
    (sacdVfsOpen iso sidecar).isOpen = true := by
  unfold sacdVfsOpen loadId3OverlayXml
  split
  · exact (foldl_loadArea_ctx _ _).2
  · rfl

theorem CacheEntry.Fresh.sound {e : CacheEntry} (h : e.Fresh) : e.Sound := by
  rcases h with rfl | ⟨b, hb, rfl⟩
  · exact nofun
  · exact fun _ => ⟨b, rfl, hb⟩

/-! ## Saves in which nothing fails -/

/-- Every step of the save succeeds. -/
def SaveSteps.allOk : SaveSteps :=
  { docInit := true
    root := true
    areaNode := fun _ => true
    trackNode := fun _ _ => true
    base64 := fun _ _ => true
    id3Node := fun _ _ => true
    fopen := true
    printed := none
    remove := true }

theorem marks_allOk {ctx : VfsCtx} {a : VfsArea} {t : Nat} (htrack : ctx.HasTrack a t) :
    marks .allOk ctx a t = (ctx.id3Cache a t).persists := by
  cases hpersists : (ctx.id3Cache a t).persists with
  | false => simp [marks, hpersists]
  | true =>
    have hdata := areaHasData_of_persists htrack hpersists
    simp [marks, writesArea, hpersists, hdata, SaveSteps.allOk]

/-! ## What every operation keeps -/

/-- The context is open and its valid entries have data. -/
structure Id3State.WellFormed (s : Id3State) : Prop where
  opened : s.ctx.isOpen = true
  sound : ∀ a t, (s.ctx.id3Cache a t).Sound

variable {s : Id3State}

theorem Id3State.WellFormed.start (iso : Iso) (sidecar : Option Sidecar) :
    (Id3State.start iso sidecar).WellFormed :=
  ⟨sacdVfsOpen_isOpen iso sidecar, fun a t => (sacdVfsOpen_fresh iso sidecar a t).sound⟩

theorem Id3State.WellFormed.setEntry (h : s.WellFormed) {area : VfsArea} {t : Nat} {e : CacheEntry}
    (he : e.Sound) : Id3State.WellFormed { s with ctx := s.ctx.setEntry area t e } := by
  refine ⟨h.opened, fun a i => ?_⟩
  simp only [VfsCtx.setEntry_id3Cache]
  split
  · exact he
  · exact h.sound a i

theorem Id3State.WellFormed.markSaved (h : s.WellFormed) (steps : SaveSteps)
    (sidecar : Option Sidecar) : Id3State.WellFormed ⟨markSaved steps s.ctx, sidecar⟩ := by
  refine ⟨h.opened, fun a t => ?_⟩
  have hsound := h.sound a t
  simp only [Vfs.markSaved, saveTrack]
  split_ifs <;> exact hsound

theorem Id3State.WellFormed.save (h : s.WellFormed) (steps : SaveSteps) :
    (saveId3Overlay steps s).2.WellFormed := by
  rcases saveId3Overlay_cases steps s with he | ⟨-, -, -, he⟩ |
    ⟨-, -, -, -, ⟨-, he⟩ | ⟨-, -, he⟩⟩
  · rw [he]
    exact h
  · rw [he]
    exact ⟨h.opened, h.sound⟩
  · rw [he]
    exact h.markSaved steps s.sidecar
  · rw [he]
    exact h.markSaved steps _

/-- The entry a tag is rendered for is not valid. -/
theorem Id3State.WellFormed.unserved (h : s.WellFormed) {a : VfsArea} {t : Nat}
    (hunserved : ¬ ((s.ctx.id3Cache a t).valid = true ∧ (s.ctx.id3Cache a t).data ≠ none)) :
    (s.ctx.id3Cache a t).valid = false := by
  by_contra hvalid
  have hvalid' : (s.ctx.id3Cache a t).valid = true := by simpa using hvalid
  obtain ⟨b, hb, -⟩ := h.sound a t hvalid'
  exact hunserved ⟨hvalid', by rw [hb]; exact nofun⟩

theorem Id3State.WellFormed.get (h : s.WellFormed) (render : VfsArea → Nat → Bytes)
    (area : VfsArea) (trackNum : Nat) (allocs : GetAllocs) :
    Id3State.WellFormed { s with ctx := (getId3Tag render s.ctx area trackNum allocs).2.2 } := by
  rcases getId3Tag_cases render s.ctx area trackNum allocs with he | ⟨-, hunserved, e, he, hcases⟩
  · rw [he]
    exact h
  · have hvalid := h.unserved hunserved
    rw [he]
    rcases hcases with ⟨htag, rfl⟩ | rfl
    · exact h.setEntry fun _ => ⟨_, rfl, htag⟩
    · exact h.setEntry fun hv => absurd hv (by simp [hvalid])

theorem Id3State.WellFormed.set (h : s.WellFormed) (area : VfsArea) (trackNum : Nat)
    (buffer : Bytes) (alloc : Bool) :
    Id3State.WellFormed { s with ctx := (setId3Overlay s.ctx area trackNum buffer alloc).2 } := by
  rcases setId3Overlay_cases s.ctx area trackNum buffer alloc with ⟨he, -⟩ | ⟨hbuffer, -, he⟩
  · rw [he]
    exact h
  · rw [he]
    cases alloc with
    | true => exact h.setEntry fun _ => ⟨buffer, rfl, hbuffer⟩
    | false => exact h.setEntry nofun

theorem Id3State.WellFormed.clear (h : s.WellFormed) (area : VfsArea) (trackNum : Nat) :
    Id3State.WellFormed { s with ctx := (clearId3Overlay s.ctx area trackNum).2 } := by
  rcases clearId3Overlay_cases s.ctx area trackNum with ⟨he, -⟩ | ⟨-, he⟩
  · rw [he]
    exact h
  · rw [he]
    exact h.setEntry nofun

theorem Id3State.WellFormed.apply (h : s.WellFormed) (render : VfsArea → Nat → Bytes)
    (op : Id3Op) : (s.apply render op).WellFormed := by
  cases op with
  | get area trackNum allocs => exact h.get render area trackNum allocs
  | set area trackNum buffer alloc => exact h.set area trackNum buffer alloc
  | clear area trackNum => exact h.clear area trackNum
  | save steps => exact h.save steps
  | flushAll steps =>
    rw [Id3State.apply, flushMount]
    split
    · exact h.save steps
    · exact h

theorem hasUnsaved_false {ctx : VfsCtx} (hopen : ctx.isOpen = true) :
    hasUnsavedId3Changes ctx = false ↔
      ∀ a t, ctx.HasTrack a t → (ctx.id3Cache a t).dirty = false := by
  simp only [hasUnsavedId3Changes, hopen, Bool.true_and, allAreas, List.any_cons, List.any_nil,
    Bool.or_false, Bool.or_eq_false_iff, Bool.and_eq_false_imp, List.any_eq_false, List.mem_range,
    Bool.not_eq_true]
  constructor
  · intro h a t htrack
    cases a with
    | stereo => exact h.1 htrack.1 t htrack.2
    | multichannel => exact h.2 htrack.1 t htrack.2
  · intro h
    exact ⟨fun havail t ht => h .stereo t ⟨havail, ht⟩,
      fun havail t ht => h .multichannel t ⟨havail, ht⟩⟩

/-- An ISO with one stereo track. -/
def oneTrackIso : Iso := ⟨true, fun area => area = .stereo, fun _ => 1⟩

end DsdNexus.Vfs
