import Mathlib.Algebra.BigOperators.Ring.List
import DsdNexus.Dsdpipe.CueSheet

/-! # What the CUE sheet says of the edit master

The sheet has the positions the tracks have on the disc, the edit master those of the
samples written to it. They agree where the tracks of the selection follow each other on
the disc as they do in the file.
-/

namespace DsdNexus.Dsdpipe

open Program

variable {α β γ ε : Type}

/-! ## The calls on a sink in a run -/

/-- The calls of a track on a sink that is handed these buffers. -/
def trackCalls (track : Nat) (buffers : List (Buffer α)) : List (SinkCall α) :=
  .trackStart track :: buffers.map SinkCall.writeFrame ++ [.trackEnd track]

/-- What a program shows to another watcher who sees less of each call. -/
theorem Shows.map {w : Call α → Option β} {w' : Call α → Option γ} {f : β → γ} {xs : List β}
    {δ : Type} {m : Program ε (Run α) δ} {D : Call α → Prop} {C : Pipe → Pipe → Prop}
    (h : Shows w xs m) (hcalls : Calls D C m) (hw : ∀ c, D c → w' c = (w c).map f) :
    Shows w' (xs.map f) m := by
  intro before
  constructor
  · intro s a t hs hm
    obtain ⟨calls, hlog, hD⟩ := (hcalls s).log
    rw [hm] at hlog
    have hseen : seen w t.log = seen w s.log ++ xs := (h (seen w s.log)).ok rfl hm
    rw [hlog, seen, List.filterMap_append] at hseen
    have hxs : calls.filterMap (fun c => w c.1) = xs := List.append_cancel_left hseen
    have hmap : calls.filterMap (fun c => w' c.1) = xs.map f := by
      rw [← hxs, List.map_filterMap]
      exact List.filterMap_congr fun c hc => hw c.1 (hD c hc)
    rw [Saw, hlog, seen, List.filterMap_append, hmap]
    exact congrArg (· ++ xs.map f) hs
  · exact fun _ _ => trivial

section SinkCalls

variable {e : Env α} {p : Pipe} {sink : Sink} {i k track : Nat}

theorem toSink_of_sink {c : Call α} (h : c.sink = none) : c.toSink i = none := by
  cases c with
  | trackStart | writeFrame | trackEnd => cases h
  | _ => rfl

theorem toSink_elsewhere {c : Call α} (h : ∀ k, ¬ c.place.inTrack k) : c.toSink i = none := by
  cases c with
  | trackStart _ k _ | writeFrame _ k _ _ _ | trackEnd _ k _ => exact absurd rfl (h k)
  | _ => rfl

theorem closeFile_shows_nothing {j : Nat} {occasion : Occasion} :
    Shows (Call.toSink i) [] (closeFile e j occasion : Program ε (Run α) Unit) := by
  intro before
  refine .inspect fun t ht => ?_
  have hclose : Shows (Call.toSink i) [] (do
      ignore e (.finalizeFile j occasion)
      ignore e (.closeFile j occasion)
      setPipe fun p => { p with fileOpen := Function.update p.fileOpen j false } :
        Program ε (Run α) Unit) :=
    Shows.nothing_bind (.record_nothing rfl) fun _ =>
      Shows.nothing_bind (.record_nothing rfl) fun _ => .setPipe
  exact (Shows.when_nothing hclose before).weaken fun s hs => hs ▸ ht

theorem startSinks_show (hsink : p.sinks[i]? = some sink) :
    Shows (Call.toSink i) [.trackStart track] (forEach p.sinks (startSink e k track)) := by
  refine .forEach_at hsink ?_ fun other j hj => ?_
  · refine Shows.nothing_bind (.when_nothing closeFile_shows_nothing) fun _ => ?_
    exact (Shows.demand_some (if_pos rfl)).bind_nothing fun _ => .setPipe
  · refine Shows.nothing_bind (.when_nothing closeFile_shows_nothing) fun _ => ?_
    exact Shows.nothing_bind (.demand_nothing (if_neg hj)) fun _ => .setPipe

theorem endSinks_show (hsink : p.sinks[i]? = some sink) :
    Shows (Call.toSink i) [.trackEnd track] (forEach p.sinks (endSink e k track)) := by
  refine .forEach_at hsink ?_ fun other j hj => ?_
  · refine Shows.nothing_bind (.when_nothing closeFile_shows_nothing) fun _ => ?_
    exact .record_some (if_pos rfl)
  · refine Shows.nothing_bind (.when_nothing closeFile_shows_nothing) fun _ => ?_
    exact .record_nothing (if_neg hj)

theorem toSink_frameTo {c : Call α} (h : c.place = .batch k) :
    c.toSink i = (c.frameTo i k).map SinkCall.writeFrame := by
  cases c with
  | writeFrame i' k' b j buffer =>
    obtain rfl : k' = k := Place.batch.inj h
    by_cases hi : i' = i
    · rw [Call.toSink, Call.frameTo, if_pos hi, if_pos ⟨hi, rfl⟩]
      rfl
    · rw [Call.toSink, Call.frameTo, if_neg hi, if_neg fun hboth => hi hboth.1]
      rfl
  | trackStart | trackEnd => cases h
  | _ => rfl

/-- What a sink is handed in a track. -/
def Pipe.handedTrack (p : Pipe) (sink : Sink) (feed : Feed α) : List (Buffer α) :=
  (p.batches feed).flatMap (p.handed sink)

/-- A sink has been called for one track after the other. -/
theorem sinkCalls_of_success (hsink : (p.prepared e).sinks[i]? = some sink)
    (hok : p.status e = ok) :
    seen (Call.toSink i) (p.calls e) = ((p.selection e).mapIdx fun k track =>
      trackCalls track ((p.prepared e).handedTrack sink (e.feed k))).flatten := by
  have helsewhere : ∀ c : Call α, ∀ place, c.place = place → (∀ k, ¬ place.inTrack k) →
      c.toSink i = none := fun c place hc hno => toSink_elsewhere (hc ▸ hno)
  refine shown_of_success (fun c hc => helsewhere c _ hc fun _ => id)
    (runPrepared_shows (fun c hc => helsewhere c _ hc fun _ => id)
      (fun c hc => helsewhere c _ hc fun _ => id) (processTracks_show ?_)) hok
  intro k track before _
  have hbatches : Shows (Call.toSink i)
      (((p.prepared e).handedTrack sink (e.feed k)).map SinkCall.writeFrame)
      (batchLoop e (p.prepared e) k 0 (e.feed k)) :=
    (batchLoop_shows hsink).map calls_batchLoop fun c hc => toSink_frameTo hc
  have hstarts : Shows (Call.toSink i) [.trackStart track]
      (forEach (p.prepared e).sinks (startSink e k track)) := startSinks_show hsink
  have htrack := processTrack_shows (fun c _ hquiet => toSink_of_sink hquiet) hstarts hbatches
    (endSinks_show hsink) before
  have hsplit : ∀ buffers : List (Buffer α), before ++ trackCalls track buffers =
      before ++ [.trackStart track] ++ buffers.map SinkCall.writeFrame ++ [.trackEnd track] := by
    simp [trackCalls]
  rw [hsplit]
  exact htrack

end SinkCalls

/-! ## The edit master after a run -/

/-- Where tracks of these lengths begin and end that are laid one after the other. -/
def laidOut : Nat → List Nat → List (Nat × Nat)
  | _, [] => []
  | start, n :: ns => (start, start + n) :: laidOut (start + n) ns

theorem laidOut_getElem? (start : Nat) (ns : List Nat) (k : Nat) :
    (laidOut start ns)[k]? =
      ns[k]?.map fun n => (start + (ns.take k).sum, start + (ns.take k).sum + n) := by
  induction ns generalizing start k with
  | nil => rfl
  | cons n ns ih =>
    cases k with
    | zero => simp [laidOut]
    | succ k => simp [laidOut, ih, Nat.add_assoc]

theorem le_of_mem_laidOut {start : Nat} {ns : List Nat} {span : Nat × Nat}
    (h : span ∈ laidOut start ns) : start ≤ span.1 := by
  obtain ⟨k, hk⟩ := List.getElem?_of_mem h
  rw [laidOut_getElem?] at hk
  obtain ⟨n, -, rfl⟩ := Option.map_eq_some_iff.1 hk
  exact Nat.le_add_right _ _

/-- What is laid one after the other begins in order. -/
theorem laidOut_pairwise (start : Nat) (ns : List Nat) :
    ((laidOut start ns).map Prod.fst).Pairwise (· ≤ ·) := by
  induction ns generalizing start with
  | nil => exact .nil
  | cons n ns ih =>
    refine List.pairwise_cons.2 ⟨fun x hx => ?_, ih (start + n)⟩
    obtain ⟨span, hspan, rfl⟩ := List.mem_map.1 hx
    exact (Nat.le_add_right start n).trans (le_of_mem_laidOut hspan)

section Master

/-- The samples an edit master counts in these buffers. -/
def EditMaster.samplesIn (m : EditMaster) (buffers : List (Buffer DiscFrame)) : Nat :=
  (buffers.map (sampleCount m.writeDst m.channelCount)).sum

theorem EditMaster.foldl_writeFrame (m : EditMaster) (buffers : List (Buffer DiscFrame)) :
    (buffers.map SinkCall.writeFrame).foldl EditMaster.call m =
      { m with currentSample := m.currentSample + m.samplesIn buffers } := by
  induction buffers generalizing m with
  | nil => rfl
  | cons buffer buffers ih =>
    rw [List.map_cons, List.foldl_cons, ih]
    simp only [EditMaster.call, EditMaster.samplesIn, List.map_cons, List.sum_cons,
      Nat.add_assoc]

theorem EditMaster.foldl_trackCalls (m : EditMaster) (track : Nat)
    (buffers : List (Buffer DiscFrame)) :
    (trackCalls track buffers).foldl EditMaster.call m =
      { m with
        currentSample := m.currentSample + m.samplesIn buffers
        trackStarts := m.trackStarts ++ [m.currentSample]
        trackStops := m.trackStops ++ [m.currentSample + m.samplesIn buffers] } := by
  rw [trackCalls, List.cons_append, List.foldl_cons, List.foldl_append,
    EditMaster.foldl_writeFrame]
  rfl

/-- The markers of an edit master lay the tracks one after the other. -/
theorem EditMaster.foldl_tracks (m : EditMaster)
    (tracks : List (Nat × List (Buffer DiscFrame))) :
    (tracks.flatMap fun t => trackCalls t.1 t.2).foldl EditMaster.call m =
      let lengths := tracks.map fun t => m.samplesIn t.2
      { m with
        currentSample := m.currentSample + lengths.sum
        trackStarts := m.trackStarts ++ (laidOut m.currentSample lengths).map Prod.fst
        trackStops := m.trackStops ++ (laidOut m.currentSample lengths).map Prod.snd } := by
  induction tracks generalizing m with
  | nil => simp [laidOut]
  | cons t tracks ih =>
    rw [List.flatMap_cons, List.foldl_append, EditMaster.foldl_trackCalls, ih]
    simp only [EditMaster.samplesIn, List.map_cons, List.sum_cons, laidOut, List.append_assoc,
      List.singleton_append, Nat.add_assoc]

end Master

/-! ## The CUE sheet after a run -/

section Sheet

theorem CueSheet.foldl_trackCalls (disc : Disc) (c : CueSheet) (track : Nat)
    (buffers : List (Buffer DiscFrame)) (h : c.tracks.length < cueMaxTracks) :
    (trackCalls track buffers).foldl (CueSheet.call disc) c =
      { c with tracks := c.tracks ++ [c.trackInfo track (disc.getTrackMetadata track)] } := by
  have hframes : ∀ c : CueSheet,
      (buffers.map SinkCall.writeFrame).foldl (CueSheet.call disc) c = c := by
    intro c
    induction buffers with
    | nil => rfl
    | cons buffer buffers ih => exact ih
  rw [trackCalls, List.cons_append, List.foldl_cons, List.foldl_append, hframes, CueSheet.call,
    CueSheet.trackStart, if_neg (Nat.not_le.2 h)]
  rfl

/-- The sheet lists the tracks in the order in which they were started. -/
theorem CueSheet.foldl_tracks (disc : Disc) (c : CueSheet)
    (tracks : List (Nat × List (Buffer DiscFrame)))
    (h : c.tracks.length + tracks.length ≤ cueMaxTracks) :
    (tracks.flatMap fun t => trackCalls t.1 t.2).foldl (CueSheet.call disc) c =
      { c with
        tracks := c.tracks ++
          tracks.map fun t => c.trackInfo t.1 (disc.getTrackMetadata t.1) } := by
  induction tracks generalizing c with
  | nil => simp
  | cons t tracks ih =>
    rw [List.length_cons] at h
    rw [List.flatMap_cons, List.foldl_append, CueSheet.foldl_trackCalls disc c _ _ (by omega), ih]
    · simp only [CueSheet.trackInfo, List.map_cons, List.append_assoc, List.singleton_append]
    · rw [List.length_append, List.length_singleton]
      omega

/-- What the lines of the tracks say, where the track before them ends at `prevAbsEnd`. -/
def trackEntries : Nat → List CueTrack → List CueEntry
  | _, [] => []
  | prevAbsEnd, t :: tracks =>
    ⟨t.trackNumber,
      if prevAbsEnd < t.startFrame.toNat then some (.ofFrames prevAbsEnd) else none,
      some (.ofFrames t.startFrame.toNat)⟩ :: trackEntries t.absEnd tracks

/-- No text is taken for a track or a position. -/
theorem foldr_text (f : Bytes → CueLine) (hf : ∀ text r, CueReading.add (f text) r = r)
    (text : Option Bytes) (r : CueReading) : (text.toList.map f).foldr CueReading.add r = r := by
  cases text with
  | none => rfl
  | some text => exact hf text r

theorem foldr_ite {p : Prop} [Decidable p] {line : CueLine} {r : CueReading}
    (h : CueReading.add line r = r) : (if p then [line] else []).foldr CueReading.add r = r := by
  split
  · exact h
  · rfl

theorem foldr_header (c : CueSheet) (r : CueReading) : c.header.foldr CueReading.add r = r := by
  have htext : ∀ (f : Bytes → CueLine), (∀ text r, CueReading.add (f text) r = r) →
      ∀ (text : Option Bytes) (r : CueReading),
        (text.toList.map f).foldr CueReading.add r = r := foldr_text
  simp only [CueSheet.header, List.foldr_append]
  rw [htext CueLine.file fun _ _ => rfl, htext CueLine.catalog fun _ _ => rfl,
    htext CueLine.title fun _ _ => rfl, htext CueLine.performer fun _ _ => rfl]
  rw [foldr_ite rfl, foldr_ite rfl, foldr_ite rfl]
  rfl

theorem foldr_lines (t : CueTrack) (prevAbsEnd : Nat) (entries : List CueEntry) :
    (t.lines prevAbsEnd).foldr CueReading.add ⟨none, none, entries⟩ =
      ⟨none, none, ⟨t.trackNumber,
        if prevAbsEnd < t.startFrame.toNat then some (.ofFrames prevAbsEnd) else none,
        some (.ofFrames t.startFrame.toNat)⟩ :: entries⟩ := by
  have hindex : (t.indexLines prevAbsEnd).foldr CueReading.add ⟨none, none, entries⟩ =
      ⟨if prevAbsEnd < t.startFrame.toNat then some (.ofFrames prevAbsEnd) else none,
        some (.ofFrames t.startFrame.toNat), entries⟩ := by
    rw [CueTrack.indexLines]
    split <;> rfl
  simp only [CueTrack.lines, List.foldr_append]
  rw [hindex, foldr_ite rfl, foldr_text CueLine.trackPerformer fun _ _ => rfl,
    foldr_text CueLine.trackTitle fun _ _ => rfl]
  rfl

/-- Reading the sheet gives the tracks back. -/
theorem cueEntries_lines (c : CueSheet) : cueEntries c.lines = trackEntries 0 c.tracks := by
  have htracks : ∀ (tracks : List CueTrack) (prevAbsEnd : Nat),
      (trackLines prevAbsEnd tracks).foldr CueReading.add ⟨none, none, []⟩ =
        ⟨none, none, trackEntries prevAbsEnd tracks⟩ := by
    intro tracks
    induction tracks with
    | nil => exact fun _ => rfl
    | cons t tracks ih =>
      intro prevAbsEnd
      rw [trackLines, List.foldr_append, ih, foldr_lines]
      rfl
  rw [cueEntries, CueSheet.lines, List.foldr_append, htracks, foldr_header]

end Sheet

/-! ## When they agree -/

/-- The edit master in this place after a run. -/
def Pipe.editMaster (p : Pipe) (e : Env DiscFrame) (i : Nat) (sink : Sink) : EditMaster :=
  (seen (Call.toSink i) (p.calls e)).foldl EditMaster.call
    (.opened sink.writeDst ((p.prepared e).sinkFormat sink))

/-- The CUE sheet in this place after a run. -/
def Pipe.cueSheet (p : Pipe) (e : Env DiscFrame) (disc : Disc) (audioFilename : Option Bytes)
    (i : Nat) : CueSheet :=
  (seen (Call.toSink i) (p.calls e)).foldl (CueSheet.call disc) (.opened audioFilename disc.album)

/-- Where the track before the `k`-th one ends in the file. -/
def EditMaster.endBefore (m : EditMaster) : Nat → Nat
  | 0 => 0
  | k + 1 => m.trackStops[k]?.getD 0

/-- The positions of a track in the order of the sheet. -/
def CueEntry.positions (entry : CueEntry) : List Msf := entry.index00.toList ++ entry.index01.toList

/-- The sheet tells of these tracks where they are in the edit master. -/
structure Describes (entries : List CueEntry) (tracks : List Nat) (m : EditMaster) : Prop where
  listed : entries.map CueEntry.track = tracks
  starts : ∀ (k : Nat) (entry : CueEntry), entries[k]? = some entry →
    ∃ position sample, entry.index01 = some position ∧ m.trackStarts[k]? = some sample ∧
      position.toFrames * dsdSamplesPerFrame = sample
  pregaps : ∀ (k : Nat) (entry : CueEntry) (gap position : Msf), entries[k]? = some entry →
    entry.index00 = some gap → entry.index01 = some position →
      m.endBefore k ≤ gap.toFrames * dsdSamplesPerFrame ∧ gap.toFrames ≤ position.toFrames
  ordered : ((entries.flatMap CueEntry.positions).map Msf.toFrames).Pairwise (· ≤ ·)

/-- Where a track ends on the disc. -/
def Disc.absEnd (disc : Disc) (track : Nat) : Nat :=
  (disc.indexStart track).toNat + (disc.frameLength track).toNat

/-- Each track begins on the disc after as much audio as the tracks before it have, and not
behind the end of the last of them. -/
structure Disc.Contiguous (disc : Disc) (samples : Nat → Nat) (tracks : List Nat) : Prop where
  starts : ∀ k track : Nat, tracks[k]? = some track →
    (disc.indexStart track).toNat * dsdSamplesPerFrame = ((tracks.take k).map samples).sum
  noGaps : ∀ k track : Nat, tracks[k]? = some track →
    (disc.indexStart track).toNat ≤ ((tracks.take k).getLast?.map disc.absEnd).getD 0

theorem trackEntries_getElem? (prevAbsEnd : Nat) (tracks : List CueTrack) (k : Nat) :
    (trackEntries prevAbsEnd tracks)[k]? = tracks[k]?.map fun t =>
      let prev := ((tracks.take k).getLast?.map CueTrack.absEnd).getD prevAbsEnd
      ⟨t.trackNumber, if prev < t.startFrame.toNat then some (.ofFrames prev) else none,
        some (.ofFrames t.startFrame.toNat)⟩ := by
  induction tracks generalizing prevAbsEnd k with
  | nil => rfl
  | cons t tracks ih =>
    cases k with
    | zero => rfl
    | succ k =>
      have hlast : ((t :: tracks.take k).getLast?.map CueTrack.absEnd).getD prevAbsEnd =
          ((tracks.take k).getLast?.map CueTrack.absEnd).getD t.absEnd := by
        rw [List.getLast?_cons]
        cases (tracks.take k).getLast? <;> rfl
      rw [trackEntries, List.getElem?_cons_succ, List.getElem?_cons_succ, ih, List.take_succ_cons,
        hlast]

section Agreement

variable {disc : Disc} {c : CueSheet} {m : EditMaster} {samples : Nat → Nat} {tracks : List Nat}

/-- What the sheet says of the tracks of a selection. -/
def sheetEntries (disc : Disc) (c : CueSheet) (tracks : List Nat) : List CueEntry :=
  trackEntries 0 (tracks.map fun track => c.trackInfo track (disc.getTrackMetadata track))

theorem sheetEntries_getElem? (disc : Disc) (c : CueSheet) (tracks : List Nat) (k : Nat) :
    (sheetEntries disc c tracks)[k]? = tracks[k]?.map fun track =>
      let prev := ((tracks.take k).getLast?.map disc.absEnd).getD 0
      let start := (disc.indexStart track).toNat
      ⟨track, if prev < start then some (.ofFrames prev) else none, some (.ofFrames start)⟩ := by
  have hlast : ∀ l : List Nat,
      (l.map fun track => c.trackInfo track (disc.getTrackMetadata track)).getLast?.map
        CueTrack.absEnd = l.getLast?.map disc.absEnd := by
    intro l
    rw [List.getLast?_map, Option.map_map]
    rfl
  rw [sheetEntries, trackEntries_getElem?, ← List.map_take, hlast, List.getElem?_map,
    Option.map_map]
  rfl

theorem endBefore_eq (hstops : m.trackStops = (laidOut 0 (tracks.map samples)).map Prod.snd)
    {k : Nat} (hk : k ≤ tracks.length) : m.endBefore k = ((tracks.take k).map samples).sum := by
  cases k with
  | zero => rfl
  | succ k =>
    have hget := List.getElem?_eq_getElem hk
    rw [EditMaster.endBefore, hstops, List.getElem?_map, laidOut_getElem?, List.getElem?_map, hget,
      List.take_add_one, hget, ← List.map_take]
    simp only [Option.map_some, Option.getD_some, Option.toList_some, List.map_append,
      List.sum_append, List.map_singleton, List.sum_singleton, Nat.zero_add]

/-- The sheet describes the edit master if and only if the tracks are contiguous. -/
theorem describes_iff_contiguous
    (hstarts : m.trackStarts = (laidOut 0 (tracks.map samples)).map Prod.fst)
    (hstops : m.trackStops = (laidOut 0 (tracks.map samples)).map Prod.snd) :
    Describes (sheetEntries disc c tracks) tracks m ↔ disc.Contiguous samples tracks := by
  have hstart : ∀ k track : Nat, tracks[k]? = some track →
      m.trackStarts[k]? = some ((tracks.take k).map samples).sum := by
    intro k track hk
    rw [hstarts, List.getElem?_map, laidOut_getElem?, List.getElem?_map, hk, ← List.map_take]
    simp
  constructor
  · intro h
    have hfirst : ∀ k track : Nat, tracks[k]? = some track →
        (disc.indexStart track).toNat * dsdSamplesPerFrame =
          ((tracks.take k).map samples).sum := by
      intro k track hk
      have hentry := sheetEntries_getElem? disc c tracks k
      rw [hk] at hentry
      obtain ⟨position, sample, hposition, hsample, heq⟩ := h.starts k _ hentry
      obtain rfl := Option.some.inj hposition
      rw [hstart k track hk] at hsample
      rw [Option.some.inj hsample, ← heq, Msf.toFrames_ofFrames]
    refine ⟨hfirst, fun k track hk => ?_⟩
    by_contra hgap
    have hentry := sheetEntries_getElem? disc c tracks k
    rw [hk] at hentry
    have hpregap := (h.pregaps k _ _ _ hentry (if_pos (Nat.lt_of_not_le hgap)) rfl).1
    have hlength := (List.getElem?_eq_some_iff.1 hk).1
    rw [endBefore_eq hstops hlength.le, ← hfirst k track hk, Msf.toFrames_ofFrames] at hpregap
    exact hgap (Nat.le_of_mul_le_mul_right hpregap (by decide))
  · intro h
    have hentry : ∀ (k : Nat) (entry : CueEntry), (sheetEntries disc c tracks)[k]? = some entry →
        ∃ track, tracks[k]? = some track ∧
          entry = ⟨track, none, some (.ofFrames (disc.indexStart track).toNat)⟩ := by
      intro k entry hk
      rw [sheetEntries_getElem?] at hk
      obtain ⟨track, htrack, rfl⟩ := Option.map_eq_some_iff.1 hk
      refine ⟨track, htrack, ?_⟩
      dsimp only
      rw [if_neg (Nat.not_lt.2 (h.noGaps k track htrack))]
    have hentries : sheetEntries disc c tracks = tracks.map fun track =>
        ⟨track, none, some (.ofFrames (disc.indexStart track).toNat)⟩ := by
      apply List.ext_getElem?
      intro k
      rw [List.getElem?_map]
      cases htrack : tracks[k]? with
      | none =>
        rw [sheetEntries_getElem?, htrack]
        rfl
      | some track =>
        have hget := sheetEntries_getElem? disc c tracks k
        rw [htrack] at hget
        obtain ⟨track', htrack', heq⟩ := hentry k _ hget
        rw [htrack] at htrack'
        obtain rfl := Option.some.inj htrack'
        exact hget.trans (congrArg some heq)
    refine ⟨?_, ?_, ?_, ?_⟩
    · rw [hentries, List.map_map]
      exact List.map_id' tracks
    · intro k entry hk
      obtain ⟨track, htrack, rfl⟩ := hentry k entry hk
      refine ⟨_, _, rfl, hstart k track htrack, ?_⟩
      rw [Msf.toFrames_ofFrames, h.starts k track htrack]
    · intro k entry gap position hk hgap _
      obtain ⟨track, -, rfl⟩ := hentry k entry hk
      cases hgap
    · have hpositions : ((sheetEntries disc c tracks).flatMap CueEntry.positions).map Msf.toFrames =
          tracks.map fun track => (disc.indexStart track).toNat := by
        rw [hentries, List.flatMap_map, List.map_flatMap]
        simp only [CueEntry.positions, Option.toList_none, Option.toList_some, List.nil_append,
          List.map_singleton, Msf.toFrames_ofFrames]
        exact List.map_eq_flatMap.symm
      have hlaid : (tracks.map fun track => (disc.indexStart track).toNat * dsdSamplesPerFrame) =
          (laidOut 0 (tracks.map samples)).map Prod.fst := by
        apply List.ext_getElem?
        intro k
        rw [List.getElem?_map, ← hstarts]
        cases htrack : tracks[k]? with
        | none =>
          rw [hstarts, List.getElem?_map, laidOut_getElem?, List.getElem?_map, htrack]
          rfl
        | some track =>
          rw [hstart k track htrack, ← h.starts k track htrack]
          rfl
      have hordered := laidOut_pairwise 0 (tracks.map samples)
      rw [← hlaid, List.pairwise_map] at hordered
      rw [hpositions, List.pairwise_map]
      exact hordered.imp fun hle => Nat.le_of_mul_le_mul_right hle (by decide)

/-- Where every frame is one of 75 in a second, the tracks are contiguous if each begins on the
disc after as many frames as the tracks before it have. -/
theorem contiguous_iff_of_nominal (hnominal : ∀ track ∈ tracks,
      samples track = (disc.frameLength track).toNat * dsdSamplesPerFrame) :
    disc.Contiguous samples tracks ↔ ∀ k track : Nat, tracks[k]? = some track →
      (disc.indexStart track).toNat =
        ((tracks.take k).map fun t => (disc.frameLength t).toNat).sum := by
  let lengths := fun k => ((tracks.take k).map fun t => (disc.frameLength t).toNat).sum
  have hsum : ∀ k, ((tracks.take k).map samples).sum = lengths k * dsdSamplesPerFrame := by
    intro k
    rw [← List.sum_map_mul_right]
    exact congrArg List.sum (List.map_congr_left fun t ht => hnominal t (List.mem_of_mem_take ht))
  constructor
  · intro h k track hk
    have hstart := h.starts k track hk
    rw [hsum] at hstart
    exact Nat.eq_of_mul_eq_mul_right (by decide) hstart
  · intro h
    refine ⟨fun k track hk => by rw [hsum, h k track hk], fun k track hk => ?_⟩
    rw [h k track hk]
    cases k with
    | zero => exact Nat.le_refl 0
    | succ k =>
      have hlength := (List.getElem?_eq_some_iff.1 hk).1
      have hprev := List.getElem?_eq_getElem (Nat.lt_of_succ_lt hlength)
      have hlast : (tracks.take (k + 1)).getLast? = some tracks[k] := by
        rw [List.take_add_one, hprev, Option.toList_some, List.getLast?_append]
        rfl
      have hgrow : lengths (k + 1) = lengths k + (disc.frameLength tracks[k]).toNat := by
        simp only [lengths, List.take_add_one, hprev, Option.toList_some, List.map_append,
          List.sum_append, List.map_singleton, List.sum_singleton]
      rw [hlast, Option.map_some, Option.getD_some, Disc.absEnd, h k _ hprev]
      exact hgrow.le

end Agreement

/-! ## A run with both sinks -/

/-- The samples of a channel that a frame of the source adds to an edit master. -/
def Pipe.frameSamples (p : Pipe) (sink : Sink) (frame : DiscFrame) : Nat :=
  if sink.caps.accepts p.frameFormat.type = true then
    sampleCount sink.writeDst (p.sinkFormat sink).channelCount
      (p.output ⟨.source frame, p.sourceFormat⟩)
  else 0

/-- The samples of a channel that a track adds to an edit master. -/
def Disc.samplesOf (disc : Disc) (p : Pipe) (sink : Sink) (track : Nat) : Nat :=
  ((disc.trackFrames track).map (p.frameSamples sink)).sum

/-- There is an edit master in place `i` and a CUE sink in place `c`. -/
structure Pipe.Companions (p : Pipe) (i c : Nat) (sink : Sink) : Prop where
  master : p.sinks[i]? = some sink
  isMaster : sink.type = .dsdiffEdit
  cue : ∃ cue : Sink, p.sinks[c]? = some cue ∧ cue.type = .cue

section Run

variable {p : Pipe} {e : Env DiscFrame} {sink : Sink} {i c : Nat}

theorem selection_length (h : p.tracks.length ≤ cueMaxTracks) :
    (p.selection e).length ≤ cueMaxTracks := by
  unfold Pipe.selection
  split
  · rw [List.length_map, List.length_range]
    exact Nat.le_of_lt_succ e.trackCount.isLt
  · exact h

theorem decoder_not_dst (h : p.Built) {decoder : Transform} (hin : p.decoderInUse = some decoder) :
    decoder.outputFormat.type ≠ .dst := by
  have hmem : decoder ∈ p.dstDecoder := by
    rw [Pipe.decoderInUse] at hin
    split at hin
    · exact hin
    · cases hin
  intro hdst
  rcases h.decoder decoder hmem with hd | ⟨-, hd⟩
  · rw [hd] at hdst
    cases hdst
  · rw [hd] at hdst
    cases hdst

/-- The empty buffer of an end-of-track return adds no sample. -/
theorem samples_of_mark (h : p.Built) (writeDst : Bool) (channelCount : Nat)
    (feed : Feed DiscFrame) :
    ((sink.taken (if feed.endsByReturn = true then [(p.output endMark : Buffer DiscFrame)]
      else [])).map (sampleCount writeDst channelCount)).sum = 0 := by
  have hmark : sink.taken [(p.output endMark : Buffer DiscFrame)] = [] ∨
      sampleCount writeDst channelCount (p.output endMark : Buffer DiscFrame) = 0 := by
    unfold Pipe.output
    cases hin : p.decoderInUse with
    | none => exact .inl (by rw [taken_singleton]; rfl)
    | some decoder =>
      refine .inr ?_
      rw [sampleCount, if_neg fun hdst => decoder_not_dst h hin hdst.1]
      simp [endMark, Payload.size]
  split
  · rcases hmark with hnone | hzero
    · rw [hnone]
      rfl
    · rw [taken_singleton]
      split
      · simpa using hzero
      · rfl
  · rfl

theorem samplesIn_handedTrack (h : p.Built) (hmaster : p.sinks[i]? = some sink)
    (hedit : sink.type = .dsdiffEdit) (disc : Disc) {track : Nat} {feed : Feed DiscFrame}
    (hfeed : feed.frames = disc.trackFrames track) :
    (EditMaster.opened sink.writeDst ((p.prepared e).sinkFormat sink)).samplesIn
        ((p.prepared e).handedTrack sink feed) = disc.samplesOf (p.prepared e) sink track := by
  have hcaps : sink.caps.dsd = true ∧ sink.caps.pcm = false := by
    rw [h.sinks sink (List.mem_of_getElem? hmaster), hedit]
    exact ⟨rfl, rfl⟩
  have hneeds : (p.prepared e).needsDsd = true := by
    rw [(prepared_needs h).1]
    exact List.any_eq_true.2 ⟨sink, List.mem_of_getElem? hmaster, hcaps.1⟩
  rw [Pipe.handedTrack, track_handed_dsd hneeds hcaps.2 (prepared_converters h), map_trackBuffers,
    taken_append, EditMaster.samplesIn, List.map_append, List.sum_append]
  have hbuilt := h.inherits (prepared_inherits p e)
  rw [show (EditMaster.opened sink.writeDst ((p.prepared e).sinkFormat sink)).writeDst =
    sink.writeDst from rfl, samples_of_mark hbuilt, Nat.add_zero, Disc.samplesOf, hfeed]
  unfold Pipe.frameSamples
  by_cases haccepts : sink.caps.accepts (p.prepared e).frameFormat.type = true
  · rw [taken_all, List.map_map]
    · simp only [if_pos haccepts]
      rfl
    · intro buffer hbuffer
      obtain ⟨frame, -, rfl⟩ := List.mem_map.1 hbuffer
      rwa [output_format]
  · rw [taken_none]
    · simp [haccepts]
    · intro buffer hbuffer
      obtain ⟨frame, -, rfl⟩ := List.mem_map.1 hbuffer
      rw [output_format]
      simpa using haccepts

theorem map_mapIdx (f : Nat → α → β) (g : β → γ) (l : List α) :
    (l.mapIdx f).map g = l.mapIdx fun k x => g (f k x) := by
  apply List.ext_getElem?
  intro k
  rw [List.getElem?_map, List.getElem?_mapIdx, List.getElem?_mapIdx, Option.map_map]
  rfl

/-- The calls of each track with the buffers that were handed to the sink. -/
theorem sinkCalls_eq_flatMap (hsink : (p.prepared e).sinks[i]? = some sink)
    (hok : p.status e = ok) :
    seen (Call.toSink i) (p.calls e) = (((p.selection e).mapIdx fun k track =>
      (track, (p.prepared e).handedTrack sink (e.feed k))).flatMap
        fun t => trackCalls t.1 t.2) := by
  rw [sinkCalls_of_success hsink hok, List.flatMap_def, map_mapIdx]

theorem cueSheet_entries (h : p.Built) (hok : p.status e = ok) (disc : Disc)
    (audioFilename : Option Bytes) (hcue : p.sinks[i]? = some sink)
    (hcount : p.tracks.length ≤ cueMaxTracks) :
    cueEntries (p.cueSheet e disc audioFilename i).lines =
      sheetEntries disc (.opened audioFilename disc.album) (p.selection e) := by
  have hsink : (p.prepared e).sinks[i]? = some sink := by rwa [prepared_sinks h]
  rw [cueEntries_lines, Pipe.cueSheet, sinkCalls_eq_flatMap hsink hok, CueSheet.foldl_tracks]
  · have htracks : ∀ f : Nat → CueTrack, (p.selection e).mapIdx (fun _ track => f track) =
        (p.selection e).map f := by
      intro f
      apply List.ext_getElem?
      intro k
      rw [List.getElem?_mapIdx, List.getElem?_map]
    rw [map_mapIdx, sheetEntries, ← htracks]
    rfl
  · rw [List.length_mapIdx]
    exact (Nat.zero_add _).le.trans (selection_length hcount)

theorem editMaster_markers (h : p.Built) (hok : p.status e = ok) (disc : Disc)
    (hmaster : p.sinks[i]? = some sink) (hedit : sink.type = .dsdiffEdit)
    (hfeed : ∀ k track : Nat, (p.selection e)[k]? = some track →
      (e.feed k).frames = disc.trackFrames track) :
    let spans := laidOut 0 ((p.selection e).map (disc.samplesOf (p.prepared e) sink))
    (p.editMaster e i sink).trackStarts = spans.map Prod.fst ∧
      (p.editMaster e i sink).trackStops = spans.map Prod.snd := by
  have hsink : (p.prepared e).sinks[i]? = some sink := by rwa [prepared_sinks h]
  have hlengths : ((p.selection e).mapIdx fun k track =>
      (EditMaster.opened sink.writeDst ((p.prepared e).sinkFormat sink)).samplesIn
        ((p.prepared e).handedTrack sink (e.feed k))) =
      (p.selection e).map (disc.samplesOf (p.prepared e) sink) := by
    apply List.ext_getElem?
    intro k
    rw [List.getElem?_mapIdx, List.getElem?_map]
    cases htrack : (p.selection e)[k]? with
    | none => rfl
    | some track =>
      exact congrArg some (samplesIn_handedTrack h hmaster hedit disc (hfeed k track htrack))
  rw [Pipe.editMaster, sinkCalls_eq_flatMap hsink hok, EditMaster.foldl_tracks, map_mapIdx,
    hlengths]
  exact ⟨rfl, rfl⟩

end Run

theorem sacd_ne_none : SourceType.sacd ≠ .none := nofun

theorem dsdRaw_isDsd : FormatType.dsdRaw = .dsdRaw ∨ FormatType.dsdRaw = .dst := .inl rfl

theorem two_lt_256 : 2 < 256 := by decide

/-- A disc in stereo. -/
def stereoDisc : OpenSource := ⟨.sacd, ⟨.dsdRaw, 2822400, 2, 1, 75⟩, sacd_ne_none, dsdRaw_isDsd⟩

/-- Tracks of one frame each, one after the other. -/
def shortTracks : Disc where
  album := ⟨[], [], [], [], 0, 0, 0, 0, 0⟩
  trackTitle := fun _ => []
  trackPerformer := fun _ => []
  isrc := fun _ => []
  indexStart := fun track => UInt32.ofNat (track - 1)
  frameLength := fun _ => 1
  soundData := fun _ => ⟨9408, 0⟩

/-- An edit master of these tracks with its CUE sheet. -/
def masterOf (tracks : List Nat) : List (Action DiscFrame) :=
  [.set (.setSource stereoDisc), .set (.addSink .dsdiffEdit false), .set (.addSink .cue false),
    .set (.selectTracks tracks)]

/-- Every call succeeds, and each track has one frame. -/
def oneFrameEach : Env DiscFrame where
  answer := fun _ => ok
  trackCount := ⟨2, two_lt_256⟩
  feed := fun _ => .lastBatch ⟨9408, 0⟩ []
  cancels := fun _ => false

theorem masterOf_companions (tracks : List Nat) :
    (play (masterOf tracks)).Companions 0 1 (Sink.create .dsdiffEdit false) :=
  ⟨rfl, rfl, Sink.create .cue false, rfl, rfl⟩

end DsdNexus.Dsdpipe
