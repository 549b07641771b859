import DsdNexus.Vfs.Id3Overlay

/-! # Changes that are not saved yet

The dirty flags are what `sacd_vfs_has_unsaved_id3_changes` and the flush of the
overlay layer go by. An entry that is not dirty must be on disk as it is in memory;
a save that takes a flag away without having written the entry breaks this.
-/

namespace DsdNexus.Vfs

open Transition

/-- What is not dirty is in the sidecar as it is in memory. -/
structure Consistent (s : Id3State) : Prop extends s.WellFormed where
  blank : ∀ a t, (s.ctx.id3Cache a t).valid = false → (s.ctx.id3Cache a t).dirty = false →
    (s.ctx.id3Cache a t).fromXml = false
  agrees : ∀ a t, s.ctx.HasTrack a t → (s.ctx.id3Cache a t).dirty = false →
    ((sacdVfsOpen s.ctx.toIso s.sidecar).id3Cache a t).overlay = (s.ctx.id3Cache a t).overlay

/-- A save that takes no flag away from an entry it does not write, and leaves no
entry out that it takes for written. -/
def SaveKeeps (steps : SaveSteps) (s : Id3State) : Prop :=
  s.ctx.sidecarPath = true → allAreas.any s.ctx.areaHasData = true → steps.docInit = true →
    steps.root = true →
      if steps.fopen then
        steps.printed = none ∧ ∀ a t, s.ctx.HasTrack a t → (s.ctx.id3Cache a t).persists = true →
          if marks steps s.ctx a t then steps.id3Node a t = true
          else (s.ctx.id3Cache a t).dirty = true
      else
        ∀ a t, s.ctx.HasTrack a t → marks steps s.ctx a t = true →
          (s.ctx.id3Cache a t).dirty = false

/-- The condition on an operation: a set finds memory where it replaces a saved
overlay, and a save keeps to what it writes. -/
def Id3Op.Keeps (s : Id3State) : Id3Op → Prop
  | .get _ _ _ | .clear _ _ => True
  | .set area trackNum buffer alloc =>
    buffer ≠ [] → checkTrack s.ctx area trackNum = .ok → alloc = false →
      (s.ctx.id3Cache area (trackNum - 1)).dirty = false →
        (s.ctx.id3Cache area (trackNum - 1)).fromXml = false
  | .save steps => SaveKeeps steps s
  | .flushAll steps => hasUnsavedId3Changes s.ctx = true → SaveKeeps steps s

theorem overlay_of_invalid {e : CacheEntry} (h : e.valid = false) : e.overlay = none := by
  simp [CacheEntry.overlay, CacheEntry.persists, h]

theorem overlay_of_unflagged {e : CacheEntry} (hdirty : e.dirty = false)
    (hxml : e.fromXml = false) : e.overlay = none := by
  simp [CacheEntry.overlay, CacheEntry.persists, hdirty, hxml]

theorem Consistent.start (iso : Iso) (sidecar : Option Sidecar) :
    Consistent (Id3State.start iso sidecar) := by
  refine ⟨Id3State.WellFormed.start iso sidecar, fun a t hvalid _ => ?_, fun a t _ _ => ?_⟩
  · rcases sacdVfsOpen_fresh iso sidecar a t with he | ⟨b, -, he⟩
    · exact congrArg CacheEntry.fromXml he
    · change ((sacdVfsOpen iso sidecar).id3Cache a t).valid = false at hvalid
      rw [he] at hvalid
      cases hvalid
  · change ((sacdVfsOpen (sacdVfsOpen iso sidecar).toIso sidecar).id3Cache a t).overlay =
      ((sacdVfsOpen iso sidecar).id3Cache a t).overlay
    rw [sacdVfsOpen_toIso]

/-- A change of one entry. -/
theorem Consistent.setEntry {s : Id3State} (h : Consistent s) {area : VfsArea} {t : Nat}
    {e : CacheEntry} (hsound : e.Sound)
    (hblank : e.valid = false → e.dirty = false → e.fromXml = false)
    (hagrees : e.dirty = false → (s.ctx.id3Cache area t).dirty = false ∧
      e.overlay = (s.ctx.id3Cache area t).overlay) :
    Consistent { s with ctx := s.ctx.setEntry area t e } := by
  refine ⟨h.toWellFormed.setEntry hsound, fun a i => ?_, fun a i htrack => ?_⟩
  · simp only [VfsCtx.setEntry_id3Cache]
    split
    · exact hblank
    · exact h.blank a i
  · simp only [VfsCtx.setEntry_id3Cache, VfsCtx.setEntry_toIso]
    split
    · next heq =>
      intro hdirty
      obtain ⟨hold, hsame⟩ := hagrees hdirty
      rw [hsame, heq.1, heq.2]
      refine h.agrees area t ?_ hold
      rw [← heq.1, ← heq.2]
      exact htrack
    · exact h.agrees a i htrack

theorem Consistent.get {s : Id3State} (h : Consistent s) (render : VfsArea → Nat → Bytes)
    (area : VfsArea) (trackNum : Nat) (allocs : GetAllocs) :
    Consistent { s with ctx := (getId3Tag render s.ctx area trackNum allocs).2.2 } := by
  rcases getId3Tag_cases render s.ctx area trackNum allocs with he | ⟨-, hunserved, e, he, hcases⟩
  · rw [he]
    exact h
  · have hvalid := h.unserved hunserved
    have hblank := h.blank area (trackNum - 1) hvalid
    rw [he]
    rcases hcases with ⟨htag, rfl⟩ | rfl
    · refine h.setEntry (fun _ => ⟨_, rfl, htag⟩) nofun fun hdirty => ⟨hdirty, ?_⟩
      rw [overlay_of_invalid hvalid]
      exact overlay_of_unflagged hdirty (hblank hdirty)
    · refine h.setEntry (fun hv => ?_) (fun _ => hblank) fun hdirty => ⟨hdirty, ?_⟩
      · rw [hvalid] at hv
        cases hv
      · rw [overlay_of_invalid hvalid]
        exact overlay_of_invalid hvalid

theorem Consistent.set {s : Id3State} (h : Consistent s) {area : VfsArea} {trackNum : Nat}
    {buffer : Bytes} {alloc : Bool} (hkeeps : (Id3Op.set area trackNum buffer alloc).Keeps s) :
    Consistent { s with ctx := (setId3Overlay s.ctx area trackNum buffer alloc).2 } := by
  rcases setId3Overlay_cases s.ctx area trackNum buffer alloc with ⟨he, -⟩ | ⟨hbuffer, hcheck, he⟩
  · rw [he]
    exact h
  · rw [he]
    cases alloc with
    | true => exact h.setEntry (fun _ => ⟨buffer, rfl, hbuffer⟩) nofun nofun
    | false =>
      have hxml := hkeeps hbuffer hcheck rfl
      have hlost : ∀ e : CacheEntry, e.dirty = false → e.fromXml = false →
          ({ e with data := none, valid := false } : CacheEntry).overlay = e.overlay := by
        intro e hdirty hfrom
        rw [overlay_of_unflagged hdirty hfrom]
        exact overlay_of_invalid rfl
      exact h.setEntry nofun (fun _ => hxml) fun hdirty =>
        ⟨hdirty, hlost _ hdirty (hxml hdirty)⟩

theorem Consistent.clear {s : Id3State} (h : Consistent s) (area : VfsArea) (trackNum : Nat) :
    Consistent { s with ctx := (clearId3Overlay s.ctx area trackNum).2 } := by
  rcases clearId3Overlay_cases s.ctx area trackNum with ⟨he, -⟩ | ⟨-, he⟩
  · rw [he]
    exact h
  · rw [he]
    exact h.setEntry nofun nofun nofun

theorem markSaved_blank {s : Id3State} (h : Consistent s) (steps : SaveSteps) (a : VfsArea)
    (t : Nat) (hvalid : ((markSaved steps s.ctx).id3Cache a t).valid = false)
    (hdirty : ((markSaved steps s.ctx).id3Cache a t).dirty = false) :
    ((markSaved steps s.ctx).id3Cache a t).fromXml = false := by
  have hblank := h.blank a t
  simp only [markSaved] at hvalid hdirty ⊢
  split at hvalid
  · next hwrites =>
    rw [if_pos hwrites] at hdirty ⊢
    by_cases hpersists : (s.ctx.id3Cache a t).persists = true
    · have hkept : (saveTrack steps a t (s.ctx.id3Cache a t)).2.valid =
          (s.ctx.id3Cache a t).valid := by
        unfold saveTrack
        split_ifs <;> rfl
      rw [hkept] at hvalid
      simp [CacheEntry.persists, hvalid] at hpersists
    · rw [saveTrack, if_pos hpersists] at hvalid hdirty ⊢
      exact hblank hvalid hdirty
  · next hskips =>
    rw [if_neg hskips] at hdirty ⊢
    exact hblank hvalid hdirty

theorem overlay_marked {e : CacheEntry} (h : e.persists = true) :
    ({ e with dirty := false, fromXml := true } : CacheEntry).overlay = e.overlay := by
  simp only [CacheEntry.persists, Bool.and_eq_true] at h
  simp [CacheEntry.overlay, CacheEntry.persists, h.1, h.2]

theorem marks_persists {steps : SaveSteps} {ctx : VfsCtx} {a : VfsArea} {t : Nat}
    (h : marks steps ctx a t = true) : (ctx.id3Cache a t).persists = true := by
  simp only [marks, Bool.and_eq_true] at h
  exact h.1.1.2

theorem Consistent.save {s : Id3State} (h : Consistent s) {steps : SaveSteps}
    (hkeeps : SaveKeeps steps s) : Consistent (saveId3Overlay steps s).2 := by
  rcases saveId3Overlay_cases steps s with he | ⟨-, hdata, -, he⟩ |
    ⟨hpath, hdata, hinit, hroot, ⟨hopen, he⟩ | ⟨hopen, -, he⟩⟩
  · rw [he]
    exact h
  · rw [he]
    refine ⟨⟨h.opened, h.sound⟩, h.blank, fun a t htrack _ => ?_⟩
    rw [sacdVfsOpen_none, CacheEntry.overlay, CacheEntry.overlay, if_neg (by decide),
      if_neg (by simp [not_persists_of_noData hdata htrack])]
  · have hsafe := hkeeps hpath hdata hinit hroot
    rw [hopen, if_neg (by decide)] at hsafe
    rw [he]
    refine ⟨h.toWellFormed.markSaved steps _, markSaved_blank h steps, fun a t htrack => ?_⟩
    have hentry := markSaved_id3Cache steps s.ctx htrack
    simp only [hentry]
    by_cases hmarks : marks steps s.ctx a t = true
    · rw [if_pos hmarks]
      intro _
      rw [overlay_marked (marks_persists hmarks)]
      exact h.agrees a t htrack (hsafe a t htrack hmarks)
    · rw [if_neg hmarks]
      exact h.agrees a t htrack
  · have hsafe := hkeeps hpath hdata hinit hroot
    rw [hopen, if_pos rfl] at hsafe
    rw [he, hsafe.1, Option.getD_none]
    refine ⟨h.toWellFormed.markSaved steps _, markSaved_blank h steps, fun a t htrack => ?_⟩
    have hentry := markSaved_id3Cache steps s.ctx htrack
    have hreload := sacdVfsOpen_sidecarDoc steps hpath htrack
    rw [savedData_eq (h.sound a t)] at hreload
    change _ → ((sacdVfsOpen s.ctx.toIso _).id3Cache a t).overlay = _
    simp only [hentry, hreload, orLoaded_overlay]
    have hwritten := hsafe.2 a t htrack
    by_cases hmarks : marks steps s.ctx a t = true
    · have hpersists := marks_persists hmarks
      rw [if_pos hmarks] at hwritten ⊢
      intro _
      rw [overlay_marked hpersists, hmarks, hwritten hpersists, CacheEntry.overlay,
        if_pos hpersists]
      rfl
    · rw [if_neg hmarks] at hwritten ⊢
      intro hdirty
      have hpersists : (s.ctx.id3Cache a t).persists = false := by
        by_contra hp
        rw [hwritten (by simpa using hp)] at hdirty
        cases hdirty
      simp [hmarks, CacheEntry.overlay, hpersists]

/-- One operation. -/
theorem Consistent.apply {s : Id3State} (h : Consistent s) (render : VfsArea → Nat → Bytes)
    {op : Id3Op} (hkeeps : op.Keeps s) : Consistent (s.apply render op) := by
  cases op with
  | get area trackNum allocs => exact h.get render area trackNum allocs
  | set area trackNum buffer alloc => exact h.set hkeeps
  | clear area trackNum => exact h.clear area trackNum
  | save steps => exact h.save hkeeps
  | flushAll steps =>
    rw [Id3State.apply, flushMount]
    split
    · next hunsaved => exact h.save (hkeeps hunsaved)
    · exact h

/-- A save that keeps to what it writes and fails leaves every flag. -/
theorem save_error_flags {s : Id3State} {steps : SaveSteps} (hkeeps : SaveKeeps steps s)
    (herror : (saveId3Overlay steps s).1 ≠ .ok) {a : VfsArea} {t : Nat}
    (htrack : s.ctx.HasTrack a t) :
    ((saveId3Overlay steps s).2.ctx.id3Cache a t).dirty = (s.ctx.id3Cache a t).dirty := by
  rcases saveId3Overlay_cases steps s with he | ⟨-, -, hok, -⟩ |
    ⟨hpath, hdata, hinit, hroot, ⟨hopen, he⟩ | ⟨-, hok, -⟩⟩
  · rw [he]
  · exact absurd hok herror
  · have hsafe := hkeeps hpath hdata hinit hroot
    rw [hopen, if_neg (by decide)] at hsafe
    rw [he, markSaved_id3Cache steps s.ctx htrack]
    split
    · next hmarks => exact (hsafe a t htrack hmarks).symm
    · rfl
  · exact absurd hok herror

/-- After every history whose operations keep to what they write: without unsaved
changes the sidecar holds the overlays in memory, and a failing save takes no flag away. -/
theorem unsaved_changes_known (render : VfsArea → Nat → Bytes) (iso : Iso)
    (sidecar : Option Sidecar) (ops : List Id3Op) (s : Id3State)
    (hkeeps : Along (Id3State.step render) (fun s op => op.Keeps s)
      (Id3State.start iso sidecar) ops)
    (hrun : run (Id3State.step render) (Id3State.start iso sidecar) ops = some s) :
    (hasUnsavedId3Changes s.ctx = false → ∀ a t, s.ctx.HasTrack a t →
      ((sacdVfsOpen s.ctx.toIso s.sidecar).id3Cache a t).overlay =
        (s.ctx.id3Cache a t).overlay) ∧
      ∀ steps, SaveKeeps steps s → (saveId3Overlay steps s).1 ≠ .ok → ∀ a t, s.ctx.HasTrack a t →
        ((saveId3Overlay steps s).2.ctx.id3Cache a t).dirty = (s.ctx.id3Cache a t).dirty := by
  have hconsistent := run_invariant (I := Consistent)
    (fun s op s' h hop hstep => by
      cases hstep
      exact h.apply render hop)
    (Consistent.start iso sidecar) hkeeps hrun
  refine ⟨fun hsaved a t htrack => ?_, fun steps hsafe herror a t htrack =>
    save_error_flags hsafe herror htrack⟩
  exact hconsistent.agrees a t htrack
    ((hasUnsaved_false hconsistent.opened).mp hsaved a t htrack)

theorem saveKeeps_allOk (s : Id3State) : SaveKeeps .allOk s := by
  intro _ _ _ _
  refine ⟨rfl, fun a t htrack hpersists => ?_⟩
  rw [if_pos (by rw [marks_allOk htrack, hpersists])]
  rfl

/-- A tag is set and saved. -/
def setAndSave (steps : SaveSteps) : List Id3Op := [.set .stereo 1 [1] true, .save steps]

/-- The state after `setAndSave`. -/
def afterSave (steps : SaveSteps) : Id3State :=
  ((Id3State.start oneTrackIso none).apply (fun _ _ => []) (.set .stereo 1 [1] true)).apply
    (fun _ _ => []) (.save steps)

theorem unsaved_changes_known_oneTrack :
    (hasUnsavedId3Changes (afterSave .allOk).ctx = false →
      ∀ a t, (afterSave .allOk).ctx.HasTrack a t →
        ((sacdVfsOpen (afterSave .allOk).ctx.toIso (afterSave .allOk).sidecar).id3Cache a t).overlay =
          ((afterSave .allOk).ctx.id3Cache a t).overlay) ∧
      ∀ steps, SaveKeeps steps (afterSave .allOk) →
        (saveId3Overlay steps (afterSave .allOk)).1 ≠ .ok →
          ∀ a t, (afterSave .allOk).ctx.HasTrack a t →
            ((saveId3Overlay steps (afterSave .allOk)).2.ctx.id3Cache a t).dirty =
              ((afterSave .allOk).ctx.id3Cache a t).dirty :=
  unsaved_changes_known (fun _ _ => []) oneTrackIso none (setAndSave .allOk) (afterSave .allOk)
    ⟨fun _ _ => nofun, fun _ _ => ⟨saveKeeps_allOk _, fun _ _ => trivial⟩⟩ rfl

/-- The sidecar cannot be opened: nothing is unsaved any more and nothing is on disk. -/
theorem unsaved_changes_lost : ¬ ∀ (render : VfsArea → Nat → Bytes) (iso : Iso)
    (sidecar : Option Sidecar) (ops : List Id3Op) (s : Id3State),
    run (Id3State.step render) (Id3State.start iso sidecar) ops = some s →
      hasUnsavedId3Changes s.ctx = false → ∀ a t, s.ctx.HasTrack a t →
        ((sacdVfsOpen s.ctx.toIso s.sidecar).id3Cache a t).overlay =
          (s.ctx.id3Cache a t).overlay := by
  intro h
  have hclaim := h (fun _ _ => []) oneTrackIso none (setAndSave { SaveSteps.allOk with fopen := false })
    (afterSave { SaveSteps.allOk with fopen := false }) rfl (by decide) .stereo 0 (by decide)
  revert hclaim
  decide

end DsdNexus.Vfs
