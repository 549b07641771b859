import DsdNexus.Dsdpipe.SourceDsdiff
import Mathlib.Data.List.Chain
import Mathlib.Data.UInt

/-! # The track table of the DSDIFF source

When the table that is built from the markers of a file is well formed.
-/

namespace DsdNexus.Dsdpipe

open Dsdiff (Marker)

/-- What the sources' other functions rely on. -/
structure TableWellFormed (tracks : List TrackInfo) (totalSamples : UInt64) : Prop where
  ordered : ∀ t ∈ tracks, t.startSample ≤ t.endSample
  inFile : ∀ t ∈ tracks, t.endSample ≤ totalSamples
  apart : tracks.IsChain fun t next => t.endSample ≤ next.startSample
  sorted : tracks.IsChain fun t next => t.startSample ≤ next.startSample
  counted : ∀ t ∈ tracks,
    (t.sampleCount.toNat : Int) = t.endSample.toNat - t.startSample.toNat

/-- The positions of the markers that start a track, as far as tracks are kept. -/
def startPositions (markers : List Marker) (sampleRate : UInt32) : List UInt64 :=
  ((markers.filter fun m => m.markType = markTrackStart).take maxTracks).map (samplePos sampleRate)

/-- Those of the markers that stop one. -/
def stopPositions (markers : List Marker) (sampleRate : UInt32) : List UInt64 :=
  (markers.filter fun m => m.markType = markTrackStop).map (samplePos sampleRate)

/-- Each track is stopped before or where the next one starts, unless that starts at the end of
the file; the last one starts in the file, and the last stop behind it is in the file. -/
structure StopsMatch (starts stops : List UInt64) (totalSamples : UInt64) : Prop where
  stopped : starts.IsChain fun start next =>
    (∃ stop ∈ stops, start < stop ∧ stop ≤ next) ∨ next = totalSamples
  lastStart : ∀ start, starts.getLast? = some start → start ≤ totalSamples
  lastStop : ∀ start stop, starts.getLast? = some start →
    (stops.filter (start < ·)).getLast? = some stop → stop ≤ totalSamples

/-- The same where the tracks start in order. -/
structure MarkersMatch (starts stops : List UInt64) (totalSamples : UInt64) : Prop
    extends StopsMatch starts stops totalSamples where
  sorted : starts.IsChain (· ≤ ·)

/-- Where a track ends that starts at `start`, before one at `next`. -/
def endBefore (stops : List UInt64) (totalSamples start next : UInt64) : UInt64 :=
  (stops.filter fun stop => start < stop ∧ stop ≤ next).getLast?.getD totalSamples

/-- Where the last one ends. -/
def endLast (stops : List UInt64) (totalSamples start : UInt64) : UInt64 :=
  (stops.filter (start < ·)).getLast?.getD totalSamples

/-- The ends of tracks that start in order. -/
def trackEnds (stops : List UInt64) (totalSamples : UInt64) : List UInt64 → List UInt64
  | [] => []
  | [start] => [endLast stops totalSamples start]
  | start :: next :: rest =>
    endBefore stops totalSamples start next :: trackEnds stops totalSamples (next :: rest)

/-! ## The two loops -/

theorem scanStarts_eq (sampleRate : UInt32) (totalSamples : UInt64) (markers : List Marker)
    (tracks : List TrackScan) (hlen : tracks.length ≤ maxTracks) :
    scanStarts sampleRate totalSamples markers tracks = tracks ++
      ((markers.filter fun m => m.markType = markTrackStart).take
        (maxTracks - tracks.length)).map fun m =>
          ⟨samplePos sampleRate m, totalSamples, markerTitle m⟩ := by
  induction markers generalizing tracks with
  | nil => simp [scanStarts]
  | cons m markers ih =>
    unfold scanStarts
    split
    · next hlt =>
      by_cases hm : m.markType = markTrackStart
      · obtain ⟨room, hroom⟩ : ∃ room, maxTracks - tracks.length = room + 1 :=
          ⟨maxTracks - tracks.length - 1, by omega⟩
        rw [if_pos hm, ih _ (by simp; omega), List.filter_cons_of_pos (by simp [hm]), hroom,
          List.take_succ_cons, List.map_cons, List.append_assoc]
        congr 3
        simp
        omega
      · rw [if_neg hm, ih _ hlen, List.filter_cons_of_neg (by simp [hm])]
    · next hge =>
      rw [show maxTracks - tracks.length = 0 by omega]
      simp

theorem scanStops_eq (sampleRate : UInt32) (markers : List Marker) (tracks : List TrackScan) :
    scanStops sampleRate markers tracks =
      (stopPositions markers sampleRate).foldl (fun ts p => stopTrack p ts) tracks := by
  induction markers generalizing tracks with
  | nil => rfl
  | cons m markers ih =>
    unfold scanStops stopPositions
    by_cases hm : m.markType = markTrackStop
    · rw [if_pos hm, ih, List.filter_cons_of_pos (by simp [hm])]
      rfl
    · rw [if_neg hm, ih, List.filter_cons_of_neg (by simp [hm])]
      rfl

theorem stopTrack_starts (p : UInt64) (tracks : List TrackScan) :
    (stopTrack p tracks).map TrackScan.start = tracks.map TrackScan.start := by
  induction tracks with
  | nil => rfl
  | cons t rest ih =>
    cases rest with
    | nil =>
      unfold stopTrack
      split <;> rfl
    | cons next rest =>
      unfold stopTrack
      split
      · rfl
      · rw [List.map_cons, ih, ← List.map_cons]

theorem foldl_stopTrack_starts (stops : List UInt64) (tracks : List TrackScan) :
    (stops.foldl (fun ts p => stopTrack p ts) tracks).map TrackScan.start =
      tracks.map TrackScan.start := by
  induction stops generalizing tracks with
  | nil => rfl
  | cons p stops ih => rw [List.foldl_cons, ih, stopTrack_starts]

/-! ## The stops -/

theorem endLast_snoc (stops : List UInt64) (totalSamples start p : UInt64) :
    endLast (stops ++ [p]) totalSamples start =
      if start < p then p else endLast stops totalSamples start := by
  unfold endLast
  rw [List.filter_append]
  by_cases h : start < p
  · rw [if_pos h, List.filter_cons_of_pos (by simpa using h), List.filter_nil,
      List.getLast?_concat, Option.getD_some]
  · rw [if_neg h, List.filter_cons_of_neg (by simpa using h), List.filter_nil, List.append_nil]

theorem endBefore_snoc (stops : List UInt64) (totalSamples start next p : UInt64) :
    endBefore (stops ++ [p]) totalSamples start next =
      if start < p ∧ p ≤ next then p else endBefore stops totalSamples start next := by
  unfold endBefore
  rw [List.filter_append]
  by_cases h : start < p ∧ p ≤ next
  · rw [if_pos h, List.filter_cons_of_pos (by simpa using h), List.filter_nil,
      List.getLast?_concat, Option.getD_some]
  · rw [if_neg h, List.filter_cons_of_neg (by simpa using h), List.filter_nil, List.append_nil]

/-- A stop that is not behind the first start ends no track. -/
theorem trackEnds_snoc_of_le {stops : List UInt64} {totalSamples start p : UInt64}
    {rest : List UInt64} (hsorted : (start :: rest).IsChain (· ≤ ·)) (hp : p ≤ start) :
    trackEnds (stops ++ [p]) totalSamples (start :: rest) =
      trackEnds stops totalSamples (start :: rest) := by
  induction rest generalizing start with
  | nil =>
    unfold trackEnds
    rw [endLast_snoc, if_neg (UInt64.not_lt.2 hp)]
  | cons next rest ih =>
    obtain ⟨hle, hrest⟩ := List.isChain_cons_cons.1 hsorted
    unfold trackEnds
    rw [endBefore_snoc, if_neg fun h => UInt64.not_lt.2 hp h.1, ih hrest (UInt64.le_trans hp hle)]

theorem trackEnds_nil (totalSamples : UInt64) (starts : List UInt64) :
    trackEnds [] totalSamples starts = starts.map fun _ => totalSamples := by
  induction starts with
  | nil => rfl
  | cons start rest ih =>
    cases rest with
    | nil => rfl
    | cons next rest =>
      unfold trackEnds
      rw [ih, List.map_cons]
      rfl

/-- The tracks end where the stops so far let them end. -/
def EndsAt (stops : List UInt64) (totalSamples : UInt64) (tracks : List TrackScan) : Prop :=
  tracks.map TrackScan.finish = trackEnds stops totalSamples (tracks.map TrackScan.start)

theorem EndsAt.stopTrack {stops : List UInt64} {totalSamples p : UInt64}
    {tracks : List TrackScan} (h : EndsAt stops totalSamples tracks)
    (hsorted : (tracks.map TrackScan.start).IsChain (· ≤ ·)) :
    EndsAt (stops ++ [p]) totalSamples (stopTrack p tracks) := by
  unfold EndsAt at h ⊢
  rw [stopTrack_starts]
  induction tracks with
  | nil => rfl
  | cons t rest ih =>
    cases rest with
    | nil =>
      simp only [List.map_cons, List.map_nil, trackEnds, List.cons.injEq, and_true] at h
      unfold Dsdpipe.stopTrack
      simp only [List.map_cons, List.map_nil, trackEnds, endLast_snoc]
      split
      · rfl
      · rw [List.map_cons, h, List.map_nil]
    | cons next rest =>
      simp only [List.map_cons, trackEnds, List.cons.injEq] at h hsorted ih ⊢
      obtain ⟨hle, hrest⟩ := List.isChain_cons_cons.1 hsorted
      unfold Dsdpipe.stopTrack
      rw [endBefore_snoc]
      split
      · next hin =>
        rw [trackEnds_snoc_of_le hrest hin.2, ← h.2]
        rfl
      · rw [List.map_cons, ih h.2 hrest, h.1]

theorem EndsAt.foldl {stops pre : List UInt64} {totalSamples : UInt64} {tracks : List TrackScan}
    (h : EndsAt pre totalSamples tracks)
    (hsorted : (tracks.map TrackScan.start).IsChain (· ≤ ·)) :
    EndsAt (pre ++ stops) totalSamples (stops.foldl (fun ts p => Dsdpipe.stopTrack p ts) tracks) := by
  induction stops generalizing pre tracks with
  | nil => rwa [List.append_nil]
  | cons p stops ih =>
    rw [List.foldl_cons, List.append_cons]
    exact ih (h.stopTrack hsorted) (by rwa [stopTrack_starts])

/-! ## The table -/

/-- The tracks lie in the file, one behind the other. -/
def InOrder (totalSamples : UInt64) (tracks : List TrackScan) : Prop :=
  (∀ t ∈ tracks, t.start ≤ t.finish ∧ t.finish ≤ totalSamples) ∧
    tracks.IsChain fun t next => t.finish ≤ next.start

theorem isChain_map_cons {α β : Type*} {R : β → β → Prop} {f : α → β} {a b : α} {l : List α} :
    ((a :: b :: l).map f).IsChain R ↔ R (f a) (f b) ∧ ((b :: l).map f).IsChain R := by
  rw [List.map_cons, List.map_cons, List.isChain_cons_cons]

theorem inOrder_iff {stops : List UInt64} {totalSamples : UInt64} {tracks : List TrackScan}
    (hends : EndsAt stops totalSamples tracks)
    (hsorted : (tracks.map TrackScan.start).IsChain (· ≤ ·)) :
    InOrder totalSamples tracks ↔
      StopsMatch (tracks.map TrackScan.start) stops totalSamples := by
  induction tracks with
  | nil => exact ⟨fun _ => ⟨.nil, nofun, nofun⟩, fun _ => ⟨nofun, .nil⟩⟩
  | cons t rest ih =>
    cases rest with
    | nil =>
      have hfinish : t.finish = endLast stops totalSamples t.start := by
        simpa [EndsAt, trackEnds] using hends
      unfold endLast at hfinish
      constructor
      · rintro ⟨hin, -⟩
        obtain ⟨hle, htotal⟩ := hin t (by simp)
        refine ⟨.singleton _, ?_, ?_⟩
        · intro start hstart
          obtain rfl : t.start = start := by simpa using hstart
          exact UInt64.le_trans hle htotal
        · intro start stop hstart hstop
          obtain rfl : t.start = start := by simpa using hstart
          rw [hstop, Option.getD_some] at hfinish
          exact hfinish ▸ htotal
      · intro hmatch
        refine ⟨fun u hu => ?_, .singleton _⟩
        obtain rfl := List.mem_singleton.1 hu
        cases hstop : (stops.filter (u.start < ·)).getLast? with
        | none =>
          rw [hstop, Option.getD_none] at hfinish
          rw [hfinish]
          exact ⟨hmatch.lastStart _ rfl, UInt64.le_refl _⟩
        | some stop =>
          rw [hstop, Option.getD_some] at hfinish
          have hbehind : u.start < stop := by
            simpa using (List.mem_filter.1 (List.mem_of_getLast? hstop)).2
          rw [hfinish]
          exact ⟨UInt64.le_of_lt hbehind, hmatch.lastStop _ _ rfl hstop⟩
    | cons next rest =>
      simp only [EndsAt, List.map_cons, trackEnds, List.cons.injEq] at hends
      obtain ⟨hfinish, hrest⟩ := hends
      obtain ⟨hle, hsortedRest⟩ := isChain_map_cons.1 hsorted
      have ih := ih hrest hsortedRest
      unfold endBefore at hfinish
      have hlast : ∀ x, (t :: next :: rest).map TrackScan.start = x →
          x.getLast? = ((next :: rest).map TrackScan.start).getLast? := by
        rintro x rfl
        rw [List.map_cons, List.map_cons, List.getLast?_cons_cons]
      constructor
      · rintro ⟨hin, hchain⟩
        obtain ⟨hapart, hchain⟩ := List.isChain_cons_cons.1 hchain
        have hmatch := ih.1 ⟨fun u hu => hin u (List.mem_cons_of_mem _ hu), hchain⟩
        obtain ⟨-, htotal⟩ := hin t (by simp)
        obtain ⟨hnext, hnextTotal⟩ := hin next (by simp)
        refine ⟨isChain_map_cons.2 ⟨?_, hmatch.stopped⟩, ?_, ?_⟩
        · cases hstop : (stops.filter fun p => t.start < p ∧ p ≤ next.start).getLast? with
          | none =>
            rw [hstop, Option.getD_none] at hfinish
            rw [hfinish] at hapart
            exact Or.inr (UInt64.le_antisymm (UInt64.le_trans hnext hnextTotal) hapart)
          | some stop =>
            obtain ⟨hmem, hbetween⟩ := List.mem_filter.1 (List.mem_of_getLast? hstop)
            exact Or.inl ⟨stop, hmem, by simpa using hbetween⟩
        · rw [hlast _ rfl]
          exact hmatch.lastStart
        · rw [hlast _ rfl]
          exact hmatch.lastStop
      · intro hmatch
        obtain ⟨hstopped, hchain⟩ := isChain_map_cons.1 hmatch.stopped
        have hgood := ih.2 ⟨hchain, by rw [← hlast _ rfl]; exact hmatch.lastStart,
          by rw [← hlast _ rfl]; exact hmatch.lastStop⟩
        obtain ⟨hnext, hnextTotal⟩ := hgood.1 next (by simp)
        have hspan : t.start ≤ t.finish ∧ t.finish ≤ next.start := by
          cases hstop : (stops.filter fun p => t.start < p ∧ p ≤ next.start).getLast? with
          | none =>
            rw [hstop, Option.getD_none] at hfinish
            rcases hstopped with ⟨stop, hmem, hbetween⟩ | htotal
            · rw [List.getLast?_eq_none_iff, List.filter_eq_nil_iff] at hstop
              exact absurd (by simpa using hbetween) (hstop stop hmem)
            · rw [hfinish, ← htotal]
              exact ⟨hle, UInt64.le_refl _⟩
          | some stop =>
            rw [hstop, Option.getD_some] at hfinish
            have hbetween := (List.mem_filter.1 (List.mem_of_getLast? hstop)).2
            rw [decide_eq_true_eq] at hbetween
            rw [hfinish]
            exact ⟨UInt64.le_of_lt hbetween.1, hbetween.2⟩
        refine ⟨fun u hu => ?_, List.isChain_cons_cons.2 ⟨hspan.2, hgood.2⟩⟩
        rcases List.mem_cons.1 hu with rfl | hu
        · exact ⟨hspan.1, UInt64.le_trans hspan.2 (UInt64.le_trans hnext hnextTotal)⟩
        · exact hgood.1 u hu

theorem wellFormed_map_info {tracks : List TrackScan} {totalSamples : UInt64} :
    TableWellFormed (tracks.map TrackScan.info) totalSamples ↔
      (tracks.map TrackScan.start).IsChain (· ≤ ·) ∧ InOrder totalSamples tracks := by
  constructor
  · intro h
    refine ⟨(List.isChain_map TrackScan.start).2 ((List.isChain_map TrackScan.info).1 h.sorted),
      fun t ht => ?_, (List.isChain_map TrackScan.info).1 h.apart⟩
    exact ⟨h.ordered _ (List.mem_map_of_mem ht), h.inFile _ (List.mem_map_of_mem ht)⟩
  · rintro ⟨hsorted, hin, hchain⟩
    refine ⟨?_, ?_, (List.isChain_map TrackScan.info).2 hchain,
      (List.isChain_map TrackScan.info).2 ((List.isChain_map TrackScan.start).1 hsorted), ?_⟩
    · intro _ hinfo
      obtain ⟨t, ht, rfl⟩ := List.mem_map.1 hinfo
      exact (hin t ht).1
    · intro _ hinfo
      obtain ⟨t, ht, rfl⟩ := List.mem_map.1 hinfo
      exact (hin t ht).2
    · intro _ hinfo
      obtain ⟨t, ht, rfl⟩ := List.mem_map.1 hinfo
      have hle := UInt64.le_iff_toNat_le.1 (hin t ht).1
      have hsub := UInt64.toNat_sub_of_le _ _ (hin t ht).1
      show ((t.finish - t.start).toNat : Int) = t.finish.toNat - t.start.toNat
      omega

theorem single_wellFormed (totalSamples : UInt64) :
    TableWellFormed [⟨0, totalSamples, totalSamples, none⟩] totalSamples := by
  have hin : InOrder totalSamples [⟨0, totalSamples, none⟩] := by
    refine ⟨fun t ht => ?_, .singleton _⟩
    obtain rfl := List.mem_singleton.1 ht
    exact ⟨UInt64.zero_le, UInt64.le_refl _⟩
  simpa [TrackScan.info] using wellFormed_map_info.2 ⟨.singleton _, hin⟩

/-- The table is well formed exactly where the markers match. -/
theorem table_wellFormed_iff (markers : List Marker) (sampleRate : UInt32)
    (totalSamples : UInt64) :
    TableWellFormed (parseTracksFromMarkers markers sampleRate totalSamples).2 totalSamples ↔
      MarkersMatch (startPositions markers sampleRate) (stopPositions markers sampleRate)
        totalSamples := by
  obtain ⟨started, hstarted⟩ : ∃ started, scanStarts sampleRate totalSamples markers [] = started :=
    ⟨_, rfl⟩
  have hscan := scanStarts_eq sampleRate totalSamples markers [] (by simp)
  rw [hstarted, List.nil_append] at hscan
  have hstarts : started.map TrackScan.start = startPositions markers sampleRate := by
    rw [hscan, List.map_map]
    rfl
  have hends : EndsAt [] totalSamples started := by
    unfold EndsAt
    rw [trackEnds_nil, List.map_map, hscan, List.map_map, List.map_map]
    rfl
  unfold parseTracksFromMarkers
  split
  · next hnone =>
    subst hnone
    exact ⟨fun _ => ⟨⟨.nil, nofun, nofun⟩, .nil⟩, fun _ => single_wellFormed totalSamples⟩
  · dsimp only
    rw [hstarted, scanStops_eq]
    obtain ⟨tracks, htracks⟩ : ∃ tracks, (stopPositions markers sampleRate).foldl
      (fun ts p => stopTrack p ts) started = tracks := ⟨_, rfl⟩
    have htrackStarts : tracks.map TrackScan.start = startPositions markers sampleRate := by
      rw [← htracks, foldl_stopTrack_starts, hstarts]
    rw [htracks]
    split
    · next hempty =>
      rw [hempty, List.map_nil] at htrackStarts
      rw [← htrackStarts]
      refine ⟨fun _ => ⟨⟨.nil, nofun, nofun⟩, .nil⟩, fun _ => ?_⟩
      simpa [TrackScan.info] using single_wellFormed totalSamples
    · rw [wellFormed_map_info]
      have hmatch : (tracks.map TrackScan.start).IsChain (· ≤ ·) →
          (InOrder totalSamples tracks ↔ StopsMatch (startPositions markers sampleRate)
            (stopPositions markers sampleRate) totalSamples) := by
        intro hsorted
        have hfinal : EndsAt (stopPositions markers sampleRate) totalSamples tracks := by
          rw [← htracks]
          exact hends.foldl (by rw [hstarts, ← htrackStarts]; exact hsorted)
        rw [inOrder_iff hfinal hsorted, htrackStarts]
      constructor
      · rintro ⟨hsorted, hin⟩
        exact ⟨(hmatch hsorted).1 hin, htrackStarts ▸ hsorted⟩
      · intro h
        have hsorted := htrackStarts ▸ h.sorted
        exact ⟨hsorted, (hmatch hsorted).2 h.toStopsMatch⟩

/-- A marker at so many samples, as it is read from a file. -/
def markerAt (markType : UInt16) (samples : UInt32) : Marker :=
  ⟨⟨0, 0, 0, samples⟩, markType, 0, 0, 0, 0, []⟩

/-- Two tracks without stops overlap. -/
theorem unstopped_overlap :
    ¬ TableWellFormed (parseTracksFromMarkers
      [markerAt markTrackStart 0, markerAt markTrackStart 100] 2822400 1000).2 1000 := by
  intro h
  have hapart := h.apart
  revert hapart
  decide

end DsdNexus.Dsdpipe
