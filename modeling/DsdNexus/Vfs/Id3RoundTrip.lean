import DsdNexus.Vfs.Id3Overlay

/-! # The overlays after a save

What the operations mean, as a map from tracks to tags: a set puts a tag there, a
clear takes it away, gets and saves change nothing. After a save the sidecar is
this map, unless a clear was the last change of a track: it leaves the flag set
with nothing to write, and a tag rendered later is taken for the overlay.
-/

namespace DsdNexus.Vfs

open Transition

/-! ## The overlays as a map -/

/-- What an operation changes about a track: `some (some tag)` puts it there,
`some none` takes it away. -/
def Id3Op.change (iso : Iso) (a : VfsArea) (t : Nat) : Id3Op → Option (Option Bytes)
  | .set area trackNum buffer _ =>
    if buffer ≠ [] ∧ trackNum = t + 1 ∧ area = a ∧ iso.HasTrack a t then some (some buffer)
    else none
  | .clear area trackNum =>
    if trackNum = t + 1 ∧ area = a ∧ iso.HasTrack a t then some none else none
  | .get _ _ _ | .save _ | .flushAll _ => none

/-- The last change of a track after earlier ones. -/
def changeAfter (iso : Iso) (a : VfsArea) (t : Nat) (last : Option (Option Bytes))
    (ops : List Id3Op) : Option (Option Bytes) :=
  ops.foldl (fun last op => (op.change iso a t).or last) last

def lastChange (iso : Iso) (ops : List Id3Op) (a : VfsArea) (t : Nat) : Option (Option Bytes) :=
  changeAfter iso a t none ops

/-- The overlay of a track: the last change, or what was loaded. -/
def expectedOverlay (iso : Iso) (sidecar : Option Sidecar) (ops : List Id3Op) (a : VfsArea)
    (t : Nat) : Option Bytes :=
  (lastChange iso ops a t).getD ((sacdVfsOpen iso sidecar).id3Cache a t).overlay

/-- The tags in a sidecar, by area and track number. -/
def sidecarEntries (sidecar : Option Sidecar) : List (VfsArea × Int × Bytes) :=
  (sidecar.getD []).flatMap fun node =>
    match node.areaType with
    | none => []
    | some area => node.tracks.filterMap fun track =>
      track.firstId3.map fun data => (area, track.number, data)

/-- Nothing is unsaved, the sidecar is the map, and opening the ISO again gives it back. -/
structure RoundTrips (iso : Iso) (overlays : VfsArea → Nat → Option Bytes) (s : Id3State) :
    Prop where
  saved : hasUnsavedId3Changes s.ctx = false
  exact : ∀ a n b, (a, n, b) ∈ sidecarEntries s.sidecar ↔
    ∃ t : Nat, n = t + 1 ∧ iso.HasTrack a t ∧ overlays a t = some b
  restored : ∀ a t, iso.HasTrack a t →
    ((sacdVfsOpen iso s.sidecar).id3Cache a t).overlay = overlays a t

/-- The allocations of a set and the steps of a save succeed. -/
def Id3Op.Succeeds : Id3Op → Prop
  | .get _ _ _ | .clear _ _ => True
  | .set _ _ _ alloc => alloc = true
  | .save steps | .flushAll steps => steps = .allOk

/-! ## The entry of a track -/

/-- The flags of an entry tell an overlay from a rendered tag, as long as the last
change of the track is not a clear. -/
def CacheEntry.Tracked (overlay : Option Bytes) (last : Option (Option Bytes)) (e : CacheEntry) :
    Prop :=
  if last = some none then e.dirty = true ∨ (e.valid = true ∧ e.fromXml = true)
  else match last.getD overlay with
    | some b => e.valid = true ∧ e.data = some b ∧ (e.dirty = true ∨ e.fromXml = true)
    | none => e.dirty = false ∧ e.fromXml = false

theorem tracked_fresh {e : CacheEntry} (h : e.Fresh) : e.Tracked e.overlay none := by
  rcases h with rfl | ⟨b, -, rfl⟩
  · exact ⟨rfl, rfl⟩
  · exact ⟨rfl, rfl, Or.inr rfl⟩

section

variable {overlay : Option Bytes} {last : Option (Option Bytes)} {e : CacheEntry}

/-- A rendered tag or a lost one does not touch the flags. -/
theorem tracked_get (h : e.Tracked overlay last) (hvalid : e.valid = false) (data : Option Bytes)
    (valid : Bool) : ({ e with data := data, valid := valid } : CacheEntry).Tracked overlay last := by
  unfold CacheEntry.Tracked at h ⊢
  split
  · next hclear =>
    rw [if_pos hclear] at h
    exact h.imp id fun hv => absurd hv.1 (by simp [hvalid])
  · next hkeep =>
    rw [if_neg hkeep] at h
    split
    · next hsome =>
      rw [hsome] at h
      exact absurd h.1 (by simp [hvalid])
    · next hnone =>
      rw [hnone] at h
      exact h

theorem tracked_set (overlay : Option Bytes) (e : CacheEntry) (b : Bytes) :
    ({ e with data := some b, valid := true, dirty := true } : CacheEntry).Tracked overlay
      (some (some b)) := ⟨rfl, rfl, Or.inl rfl⟩

/-- The entry after a save in which nothing fails. -/
def CacheEntry.saved (e : CacheEntry) : CacheEntry :=
  if e.persists then { e with dirty := false, fromXml := true } else e

theorem tracked_saved (h : e.Tracked overlay last) : e.saved.Tracked overlay last := by
  unfold CacheEntry.saved
  by_cases hpersists : e.persists = true
  · rw [if_pos hpersists]
    simp only [CacheEntry.persists, Bool.and_eq_true, Bool.or_eq_true] at hpersists
    unfold CacheEntry.Tracked at h ⊢
    split
    · exact Or.inr ⟨hpersists.1, rfl⟩
    · next hkeep =>
      rw [if_neg hkeep] at h
      split
      · next hsome =>
        rw [hsome] at h
        exact ⟨h.1, h.2.1, Or.inr rfl⟩
      · next hnone =>
        rw [hnone] at h
        rcases hpersists.2 with hd | hx
        · rw [h.1] at hd
          cases hd
        · rw [h.2] at hx
          cases hx
  · rw [if_neg hpersists]
    exact h

/-- What a save selects of a tracked entry is the overlay of the track. -/
theorem tracked_overlay (h : e.Tracked overlay last) (hkeep : last ≠ some none) :
    e.overlay = last.getD overlay := by
  unfold CacheEntry.Tracked at h
  rw [if_neg hkeep] at h
  unfold CacheEntry.overlay CacheEntry.persists
  split at h
  · next b hsome =>
    rw [hsome, h.1, h.2.1]
    rcases h.2.2 with hd | hx
    · simp [hd]
    · simp [hx]
  · next hnone =>
    rw [hnone, h.1, h.2]
    simp

theorem saved_dirty (e : CacheEntry) : e.saved.dirty = (e.dirty && !e.persists) := by
  unfold CacheEntry.saved
  cases hpersists : e.persists <;> simp

theorem tracked_clean (h : e.Tracked overlay last) (hkeep : last ≠ some none) :
    e.saved.dirty = false := by
  unfold CacheEntry.Tracked at h
  rw [if_neg hkeep] at h
  rw [saved_dirty]
  split at h
  · rcases h.2.2 with hd | hx
    · simp [CacheEntry.persists, h.1, hd]
    · simp [CacheEntry.persists, h.1, hx]
  · simp [h.1]

/-- After a clear either the flag stays or there is something to write. -/
theorem tracked_cleared (h : e.Tracked overlay (some none)) :
    e.saved.dirty = true ∨ e.persists = true := by
  unfold CacheEntry.Tracked at h
  rw [if_pos rfl] at h
  cases hpersists : e.persists with
  | true => exact Or.inr rfl
  | false =>
    rcases h with hd | ⟨hv, hx⟩
    · exact Or.inl (by simp [saved_dirty, hd, hpersists])
    · simp [CacheEntry.persists, hv, hx] at hpersists

end

/-! ## Operations in which nothing fails -/

theorem saved_of_not_persists {e : CacheEntry} (h : e.persists = false) : e.saved = e := by
  simp [CacheEntry.saved, h]

/-- A save that succeeds has either nothing to write or writes every overlay. -/
theorem save_allOk_cases {s : Id3State} (h : (saveId3Overlay .allOk s).1 = .ok) :
    s.ctx.sidecarPath = true ∧
      ((allAreas.any s.ctx.areaHasData = false ∧
          (saveId3Overlay .allOk s).2 = { s with sidecar := none }) ∨
        (saveId3Overlay .allOk s).2 =
          ⟨markSaved .allOk s.ctx, some (sidecarDoc .allOk s.ctx)⟩) := by
  unfold saveId3Overlay at h ⊢
  split at h
  · cases h
  · split at h
    · cases h
    · next hopen hpath =>
      rw [if_neg hopen, if_neg hpath]
      refine ⟨by simpa using hpath, ?_⟩
      by_cases hdata : allAreas.any s.ctx.areaHasData = true
      · rw [if_neg (by simpa using hdata)]
        exact Or.inr rfl
      · rw [if_pos hdata]
        exact Or.inl ⟨by simpa using hdata, rfl⟩

theorem save_allOk_entry {s : Id3State} (h : (saveId3Overlay .allOk s).1 = .ok) {a : VfsArea}
    {t : Nat} (htrack : s.ctx.HasTrack a t) :
    (saveId3Overlay .allOk s).2.ctx.id3Cache a t = (s.ctx.id3Cache a t).saved := by
  rcases (save_allOk_cases h).2 with ⟨hdata, he⟩ | he
  · rw [he, saved_of_not_persists (not_persists_of_noData hdata htrack)]
  · rw [he]
    change (markSaved .allOk s.ctx).id3Cache a t = _
    rw [markSaved_id3Cache _ _ htrack, marks_allOk htrack]
    rfl

theorem save_allOk_error {s : Id3State} (h : (saveId3Overlay .allOk s).1 ≠ .ok) :
    (saveId3Overlay .allOk s).2 = s := by
  rcases saveId3Overlay_cases .allOk s with he | ⟨-, -, hok, -⟩ | ⟨-, -, -, -, ⟨hopen, -⟩ | ⟨-, hok, -⟩⟩
  · exact he
  · exact absurd hok h
  · cases hopen
  · exact absurd hok h

section

variable {s : Id3State} {a : VfsArea} {t : Nat} {overlay : Option Bytes}
  {last : Option (Option Bytes)}

theorem tracked_save (htrack : s.ctx.HasTrack a t)
    (h : (s.ctx.id3Cache a t).Tracked overlay last) :
    ((saveId3Overlay .allOk s).2.ctx.id3Cache a t).Tracked overlay last := by
  by_cases hok : (saveId3Overlay .allOk s).1 = .ok
  · rw [save_allOk_entry hok htrack]
    exact tracked_saved h
  · rw [save_allOk_error hok]
    exact h

/-- One operation carries the entry of a track along with its last change. -/
theorem tracked_apply (hw : s.WellFormed) (render : VfsArea → Nat → Bytes) {op : Id3Op}
    (hop : op.Succeeds) (htrack : s.ctx.HasTrack a t)
    (h : (s.ctx.id3Cache a t).Tracked overlay last) :
    ((s.apply render op).ctx.id3Cache a t).Tracked overlay
      ((op.change s.ctx.toIso a t).or last) := by
  cases op with
  | get area trackNum allocs =>
    change ((getId3Tag render s.ctx area trackNum allocs).2.2.id3Cache a t).Tracked overlay last
    rcases getId3Tag_cases render s.ctx area trackNum allocs with he | ⟨-, hunserved, e, he, hcases⟩
    · rw [he]
      exact h
    · rw [he, VfsCtx.setEntry_id3Cache]
      split
      · next heq =>
        rw [heq.1, heq.2] at h
        have hvalid := hw.unserved hunserved
        rcases hcases with ⟨-, rfl⟩ | rfl
        · exact tracked_get h hvalid _ true
        · exact tracked_get h hvalid none _
      · exact h
  | set area trackNum buffer alloc =>
    obtain rfl : alloc = true := hop
    change ((setId3Overlay s.ctx area trackNum buffer true).2.id3Cache a t).Tracked overlay _
    rcases setId3Overlay_cases s.ctx area trackNum buffer true with ⟨he, hwhy⟩ | ⟨hbuffer, hcheck, he⟩
    · have hnone : (Id3Op.set area trackNum buffer true).change s.ctx.toIso a t = none := by
        rw [Id3Op.change, if_neg]
        rintro ⟨hne, hnum, rfl, hin⟩
        rcases hwhy with hempty | hcheck
        · exact hne hempty
        · exact hcheck (checkTrack_of_hasTrack hw.opened (by omega) (by rw [hnum]; exact hin))
      rw [he, hnone]
      exact h
    · obtain ⟨hnum, hin⟩ := checkTrack_ok hcheck
      rw [he, VfsCtx.setEntry_id3Cache]
      by_cases heq : a = area ∧ t = trackNum - 1
      · obtain ⟨rfl, rfl⟩ := heq
        have hchange : (Id3Op.set a trackNum buffer true).change s.ctx.toIso a (trackNum - 1) =
            some (some buffer) := by
          rw [Id3Op.change, if_pos ⟨hbuffer, by omega, rfl, hin⟩]
        rw [if_pos ⟨rfl, rfl⟩, hchange]
        exact tracked_set overlay _ buffer
      · have hnone : (Id3Op.set area trackNum buffer true).change s.ctx.toIso a t = none := by
          rw [Id3Op.change, if_neg]
          rintro ⟨-, hn, ha, -⟩
          exact heq ⟨ha.symm, by omega⟩
        rw [if_neg heq, hnone]
        exact h
  | clear area trackNum =>
    change ((clearId3Overlay s.ctx area trackNum).2.id3Cache a t).Tracked overlay _
    rcases clearId3Overlay_cases s.ctx area trackNum with ⟨he, hcheck⟩ | ⟨hcheck, he⟩
    · have hnone : (Id3Op.clear area trackNum).change s.ctx.toIso a t = none := by
        rw [Id3Op.change, if_neg]
        rintro ⟨hnum, rfl, hin⟩
        exact hcheck (checkTrack_of_hasTrack hw.opened (by omega) (by rw [hnum]; exact hin))
      rw [he, hnone]
      exact h
    · obtain ⟨hnum, hin⟩ := checkTrack_ok hcheck
      rw [he, VfsCtx.setEntry_id3Cache]
      by_cases heq : a = area ∧ t = trackNum - 1
      · obtain ⟨rfl, rfl⟩ := heq
        have hchange : (Id3Op.clear a trackNum).change s.ctx.toIso a (trackNum - 1) =
            some none := by
          rw [Id3Op.change, if_pos ⟨by omega, rfl, hin⟩]
        rw [if_pos ⟨rfl, rfl⟩, hchange]
        exact Or.inl rfl
      · have hnone : (Id3Op.clear area trackNum).change s.ctx.toIso a t = none := by
          rw [Id3Op.change, if_neg]
          rintro ⟨hn, ha, -⟩
          exact heq ⟨ha.symm, by omega⟩
        rw [if_neg heq, hnone]
        exact h
  | save steps =>
    obtain rfl : steps = .allOk := hop
    exact tracked_save htrack h
  | flushAll steps =>
    obtain rfl : steps = .allOk := hop
    change ((flushMount .allOk s).ctx.id3Cache a t).Tracked overlay last
    rw [flushMount]
    split
    · exact tracked_save htrack h
    · exact h

end

theorem apply_toIso (render : VfsArea → Nat → Bytes) (s : Id3State) (op : Id3Op) :
    (s.apply render op).ctx.toIso = s.ctx.toIso := by
  have hsave : ∀ steps, (saveId3Overlay steps s).2.ctx.toIso = s.ctx.toIso := by
    intro steps
    rcases saveId3Overlay_cases steps s with he | ⟨-, -, -, he⟩ | ⟨-, -, -, -, ⟨-, he⟩ | ⟨-, -, he⟩⟩ <;>
      rw [he] <;> rfl
  cases op with
  | get area trackNum allocs =>
    rcases getId3Tag_cases render s.ctx area trackNum allocs with he | ⟨-, -, e, he, -⟩
    · exact congrArg VfsCtx.toIso he
    · exact (congrArg VfsCtx.toIso he).trans rfl
  | set area trackNum buffer alloc =>
    rcases setId3Overlay_cases s.ctx area trackNum buffer alloc with ⟨he, -⟩ | ⟨-, -, he⟩
    · exact congrArg VfsCtx.toIso he
    · exact (congrArg VfsCtx.toIso he).trans rfl
  | clear area trackNum =>
    rcases clearId3Overlay_cases s.ctx area trackNum with ⟨he, -⟩ | ⟨-, he⟩
    · exact congrArg VfsCtx.toIso he
    · exact (congrArg VfsCtx.toIso he).trans rfl
  | save steps => exact hsave steps
  | flushAll steps =>
    rw [Id3State.apply, flushMount]
    split
    · exact hsave steps
    · rfl

/-- The entries of a state after a history. -/
structure EntriesFollow (iso : Iso) (overlays : VfsArea → Nat → Option Bytes)
    (last : VfsArea → Nat → Option (Option Bytes)) (s : Id3State) : Prop extends s.WellFormed where
  iso_eq : s.ctx.toIso = iso
  tracked : ∀ a t, iso.HasTrack a t → (s.ctx.id3Cache a t).Tracked (overlays a t) (last a t)

theorem EntriesFollow.run {render : VfsArea → Nat → Bytes} {iso : Iso}
    {overlays : VfsArea → Nat → Option Bytes} {last : VfsArea → Nat → Option (Option Bytes)}
    {ops : List Id3Op} {s s' : Id3State} (hops : ∀ op ∈ ops, op.Succeeds)
    (h : EntriesFollow iso overlays last s) (hrun : run (Id3State.step render) s ops = some s') :
    EntriesFollow iso overlays (fun a t => changeAfter iso a t (last a t) ops) s' := by
  induction ops generalizing s last with
  | nil =>
    cases hrun
    exact h
  | cons op ops ih =>
    obtain ⟨m, hm, hrest⟩ := run_cons_some hrun
    cases hm
    have hnext : EntriesFollow iso overlays (fun a t => (op.change iso a t).or (last a t))
        (s.apply render op) := by
      refine ⟨h.toWellFormed.apply render op, (apply_toIso render s op).trans h.iso_eq,
        fun a t htrack => ?_⟩
      have hstep := tracked_apply h.toWellFormed render (hops op List.mem_cons_self)
        (a := a) (t := t) (by rw [h.iso_eq]; exact htrack) (h.tracked a t htrack)
      rw [h.iso_eq] at hstep
      exact hstep
    exact ih (fun op' hop => hops op' (List.mem_cons_of_mem op hop)) hnext hrest

/-! ## The sidecar after a save -/

theorem mem_sidecarEntries {steps : SaveSteps} {ctx : VfsCtx} {a : VfsArea} {n : Int} {b : Bytes} :
    (a, n, b) ∈ sidecarEntries (some (sidecarDoc steps ctx)) ↔
      ∃ t : Nat, n = t + 1 ∧ ctx.HasTrack a t ∧ savedData steps ctx a t = some b := by
  unfold sidecarEntries savedData sidecarDoc
  simp only [Option.getD_some, List.mem_flatMap, List.mem_filterMap]
  constructor
  · rintro ⟨node, ⟨area, -, harea⟩, hmem⟩
    split at harea
    · next hwrites =>
      cases harea
      simp only [List.mem_filterMap, List.mem_range, Option.map_eq_some_iff, Prod.mk.injEq] at hmem
      obtain ⟨track, ⟨t, ht, hnode⟩, data, hdata, rfl, rfl, rfl⟩ := hmem
      have havail : ctx.available area = true := by
        simp only [writesArea, VfsCtx.areaHasData, Bool.and_eq_true] at hwrites
        exact hwrites.1.1
      refine ⟨t, saveTrack_number _ _ _ _ _ hnode, ⟨havail, ht⟩, ?_⟩
      rw [if_pos hwrites, hnode, Option.bind_some, hdata]
    · cases harea
  · rintro ⟨t, rfl, htrack, hdata⟩
    split at hdata
    · next hwrites =>
      obtain ⟨node, hnode, hfirst⟩ := Option.bind_eq_some_iff.mp hdata
      refine ⟨_, ⟨a, by cases a <;> simp [allAreas], if_pos hwrites⟩, ?_⟩
      simp only [List.mem_filterMap, List.mem_range, Option.map_eq_some_iff, Prod.mk.injEq]
      exact ⟨node, ⟨t, htrack.2, hnode⟩, b, hfirst, trivial, saveTrack_number _ _ _ _ _ hnode, rfl⟩
    · cases hdata

section

variable {s : Id3State} (hw : s.WellFormed) (hok : (saveId3Overlay .allOk s).1 = .ok)

include hw

theorem savedData_allOk {a : VfsArea} {t : Nat} (htrack : s.ctx.HasTrack a t) :
    savedData .allOk s.ctx a t = (s.ctx.id3Cache a t).overlay := by
  rw [savedData_eq (hw.sound a t), marks_allOk htrack, CacheEntry.overlay]
  simp [SaveSteps.allOk]

include hok

theorem mem_entries_saved {a : VfsArea} {n : Int} {b : Bytes} :
    (a, n, b) ∈ sidecarEntries (saveId3Overlay .allOk s).2.sidecar ↔
      ∃ t : Nat, n = t + 1 ∧ s.ctx.HasTrack a t ∧ (s.ctx.id3Cache a t).overlay = some b := by
  rcases (save_allOk_cases hok).2 with ⟨hdata, he⟩ | he
  · rw [he]
    constructor
    · intro hmem
      cases hmem
    · rintro ⟨t, -, htrack, hoverlay⟩
      rw [CacheEntry.overlay, if_neg (by simp [not_persists_of_noData hdata htrack])] at hoverlay
      cases hoverlay
  · rw [he, mem_sidecarEntries]
    constructor
    · rintro ⟨t, hn, htrack, hdata⟩
      exact ⟨t, hn, htrack, by rw [← savedData_allOk hw htrack]; exact hdata⟩
    · rintro ⟨t, hn, htrack, hoverlay⟩
      exact ⟨t, hn, htrack, by rw [savedData_allOk hw htrack]; exact hoverlay⟩

theorem reopened_saved {a : VfsArea} {t : Nat} (htrack : s.ctx.HasTrack a t) :
    ((sacdVfsOpen s.ctx.toIso (saveId3Overlay .allOk s).2.sidecar).id3Cache a t).overlay =
      (s.ctx.id3Cache a t).overlay := by
  obtain ⟨hpath, ⟨hdata, he⟩ | he⟩ := save_allOk_cases hok
  · rw [he]
    change ((sacdVfsOpen s.ctx.toIso none).id3Cache a t).overlay = _
    rw [sacdVfsOpen_none, CacheEntry.overlay, CacheEntry.overlay, if_neg (by decide),
      if_neg (by simp [not_persists_of_noData hdata htrack])]
  · rw [he]
    change ((sacdVfsOpen s.ctx.toIso (some (sidecarDoc .allOk s.ctx))).id3Cache a t).overlay = _
    rw [sacdVfsOpen_sidecarDoc _ hpath htrack, orLoaded_overlay, savedData_allOk hw htrack]

theorem hasUnsaved_saved : hasUnsavedId3Changes (saveId3Overlay .allOk s).2.ctx = false ↔
    ∀ a t, s.ctx.HasTrack a t → (s.ctx.id3Cache a t).saved.dirty = false := by
  have hiso : (saveId3Overlay .allOk s).2.ctx.toIso = s.ctx.toIso :=
    apply_toIso (fun _ _ => []) s (.save .allOk)
  rw [hasUnsaved_false (hw.save .allOk).opened, hiso]
  constructor
  · intro h a t htrack
    rw [← save_allOk_entry hok htrack]
    exact h a t htrack
  · intro h a t htrack
    rw [save_allOk_entry hok htrack]
    exact h a t htrack

end

/-- After a history of operations in which nothing fails, a save that succeeds makes
the sidecar the map of the overlays exactly when no track was cleared last. -/
theorem save_round_trips_iff (render : VfsArea → Nat → Bytes) (iso : Iso)
    (sidecar : Option Sidecar) (ops : List Id3Op) (s s' : Id3State)
    (hops : ∀ op ∈ ops, op.Succeeds)
    (hrun : run (Id3State.step render) (Id3State.start iso sidecar) ops = some s)
    (hsave : saveId3Overlay .allOk s = (.ok, s')) :
    RoundTrips iso (expectedOverlay iso sidecar ops) s' ↔
      ∀ a t, iso.HasTrack a t → lastChange iso ops a t ≠ some none := by
  have hstart : EntriesFollow iso (fun a t => ((sacdVfsOpen iso sidecar).id3Cache a t).overlay)
      (fun _ _ => none) (Id3State.start iso sidecar) :=
    ⟨Id3State.WellFormed.start iso sidecar, sacdVfsOpen_toIso iso sidecar,
      fun a t _ => tracked_fresh (sacdVfsOpen_fresh iso sidecar a t)⟩
  obtain ⟨hw, rfl, htracked⟩ := hstart.run hops hrun
  have hok : (saveId3Overlay .allOk s).1 = .ok := congrArg Prod.fst hsave
  obtain rfl : (saveId3Overlay .allOk s).2 = s' := congrArg Prod.snd hsave
  constructor
  · intro hround a t htrack hcleared
    have hentry := htracked a t htrack
    change (s.ctx.id3Cache a t).Tracked _ (lastChange s.ctx.toIso ops a t) at hentry
    rw [hcleared] at hentry
    rcases tracked_cleared hentry with hdirty | hpersists
    · have hsaved := (hasUnsaved_saved hw hok).mp hround.saved a t htrack
      rw [hdirty] at hsaved
      cases hsaved
    · have hvalid : (s.ctx.id3Cache a t).valid = true := by
        simp only [CacheEntry.persists, Bool.and_eq_true] at hpersists
        exact hpersists.1
      obtain ⟨b, hb, -⟩ := hw.sound a t hvalid
      have hmem := (mem_entries_saved hw hok (a := a) (n := t + 1) (b := b)).mpr
        ⟨t, rfl, htrack, by rw [CacheEntry.overlay, if_pos hpersists, hb]⟩
      obtain ⟨i, hi, -, hexpected⟩ := (hround.exact a (t + 1) b).mp hmem
      obtain rfl : i = t := by omega
      rw [expectedOverlay, hcleared] at hexpected
      cases hexpected
  · intro hkeep
    have hoverlay : ∀ a t, s.ctx.HasTrack a t →
        (s.ctx.id3Cache a t).overlay = expectedOverlay s.ctx.toIso sidecar ops a t :=
      fun a t htrack => tracked_overlay (htracked a t htrack) (hkeep a t htrack)
    refine ⟨(hasUnsaved_saved hw hok).mpr fun a t htrack =>
      tracked_clean (htracked a t htrack) (hkeep a t htrack), fun a n b => ?_, fun a t htrack => ?_⟩
    · rw [mem_entries_saved hw hok]
      constructor
      · rintro ⟨t, hn, htrack, hb⟩
        exact ⟨t, hn, htrack, by rw [← hoverlay a t htrack]; exact hb⟩
      · rintro ⟨t, hn, htrack, hb⟩
        exact ⟨t, hn, htrack, by rw [hoverlay a t htrack]; exact hb⟩
    · rw [reopened_saved hw hok htrack]
      exact hoverlay a t htrack

/-- The state after operations on an ISO without a sidecar. -/
def afterOps (render : VfsArea → Nat → Bytes) (ops : List Id3Op) : Id3State :=
  ops.foldl (Id3State.apply render) (Id3State.start oneTrackIso none)

theorem save_round_trips_set :
    RoundTrips oneTrackIso (expectedOverlay oneTrackIso none [.set .stereo 1 [1] true])
      (saveId3Overlay .allOk (afterOps (fun _ _ => []) [.set .stereo 1 [1] true])).2 := by
  refine (save_round_trips_iff (fun _ _ => []) oneTrackIso none [.set .stereo 1 [1] true]
    (afterOps (fun _ _ => []) [.set .stereo 1 [1] true]) _ (fun op hop => ?_) rfl rfl).mpr ?_
  · rw [List.mem_singleton.mp hop]
    rfl
  · intro a t htrack
    obtain rfl : t = 0 := Nat.lt_one_iff.mp htrack.2
    cases a with
    | stereo => decide
    | multichannel => exact absurd htrack.1 (by decide)

/-- A tag rendered after a clear goes to the sidecar as an overlay. -/
def clearAndGet : List Id3Op := [.clear .stereo 1, .get .stereo 1 ⟨true, true, true, true⟩]

theorem save_keeps_rendered : ¬ ∀ (render : VfsArea → Nat → Bytes) (iso : Iso)
    (sidecar : Option Sidecar) (ops : List Id3Op) (s s' : Id3State),
    run (Id3State.step render) (Id3State.start iso sidecar) ops = some s →
      saveId3Overlay .allOk s = (.ok, s') →
        RoundTrips iso (expectedOverlay iso sidecar ops) s' := by
  intro h
  have hround := h (fun _ _ => [7]) oneTrackIso none clearAndGet
    (afterOps (fun _ _ => [7]) clearAndGet) _ rfl rfl
  obtain ⟨t, ht, -, hexpected⟩ := (hround.exact .stereo 1 [7]).mp (by decide)
  obtain rfl : t = 0 := by omega
  revert hexpected
  decide

end DsdNexus.Vfs
