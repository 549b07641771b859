import Mathlib.Algebra.BigOperators.Group.List.Basic
import Mathlib.Data.UInt
import DsdNexus.Sacd.AreaTocRead

/-! # Index points

The index points of a track are its pause, its start and the stored starts behind them. The
read takes the stored starts of every track from the first record of the index list; the
lookups end the last index one track length behind its own start.
-/

namespace DsdNexus.Sacd.Area

open Attempt Endian

/-! ## Lookups -/

/-- `ctx->track_info[track_num - 1]` of a track number in range. -/
def Toc.track (toc : Toc) (trackNum : UInt8) : Option TrackInfo :=
  if trackNum.toNat < 1 ∨ toc.data.trackCount < trackNum.toNat then none
  else toc.trackInfo[trackNum.toNat - 1]?

/-- The track of a context that may not be initialized. -/
def trackOf (ctx : Option Toc) (trackNum : UInt8) : Option TrackInfo :=
  ctx.bind fun toc => toc.track trackNum

/-- `sacd_area_toc_get_track_index_count` -/
def getTrackIndexCount (ctx : Option Toc) (trackNum : UInt8) : UInt8 :=
  match trackOf ctx trackNum with
  | none => 0
  | some info => info.indexCount - 1

/-- `sacd_area_toc_get_index_start` -/
def getIndexStart (ctx : Option Toc) (trackNum indexNum : UInt8) : UInt32 :=
  match trackOf ctx trackNum with
  | none => 0
  | some info => if info.indexCount ≤ indexNum then 0 else info.indexStart.getD indexNum.toNat 0

/-- `sacd_area_toc_get_index_end` -/
def getIndexEnd (ctx : Option Toc) (trackNum indexNum : UInt8) : UInt32 :=
  match trackOf ctx trackNum with
  | none => 0
  | some info =>
    if info.indexCount ≤ indexNum then 0
    else if info.indexCount.toNat = indexNum.toNat + 1 then
      info.trackLength - 1 + getIndexStart ctx trackNum indexNum
    else info.indexStart.getD (indexNum.toNat + 1) 0 - 1

/-! ## Index points of a read -/

/-- The pause and the start, then at most 254 stored starts; their count is kept in a byte. -/
structure IndexesFilled (info : TrackInfo) : Prop where
  two_le : 2 ≤ info.indexStart.length
  le : info.indexStart.length ≤ 256
  count : info.indexCount = UInt8.ofNat info.indexStart.length

section Read

variable {convert : Convert} {b : TocSectors} {areaType : AreaType} {toc : Toc} {data : AreaData}

/-- The pointer of a track in the index list. -/
def indexPtr (b : TocSectors) (data : AreaData) (track : Nat) : Nat :=
  be (b.sector data.indexListPtr) (8 + 2 * track) 2

/-- How much of the index list the read puts together. -/
def indexScratchSize (b : TocSectors) (data : AreaData) : Nat :=
  min (b.tocAreaLength.toNat - data.indexListPtr) 10 * lsnSize

/-- The start of stored index `i` of the record at `p`. -/
def storedStart (list : Bytes) (p i : Nat) : UInt32 := timeAt list (p + 1 + 3 * i)

/-- The starts stored in the record at `p`. -/
def storedStarts (list : Bytes) (p : Nat) : List UInt32 :=
  (List.range (byteAt list p)).map (storedStart list p)

theorem be_one (b : Bytes) (p : Nat) : be b p 1 = byteAt b p := by
  rw [be, slice, byteAt, List.getD_eq_getElem?_getD]
  cases h : b.drop p with
  | nil =>
    rw [List.getElem?_eq_none (List.drop_eq_nil_iff.mp h)]
    rfl
  | cons x rest =>
    have hx : b[p]? = some x := by rw [← List.head?_drop, h, List.head?_cons]
    rw [hx]
    simp [ofBe, ofLe]

theorem byteAt_slice {b : Bytes} {p w i : Nat} (h : i < w) :
    byteAt (slice b p w) i = byteAt b (p + i) := by
  rw [byteAt, slice_getD, if_pos h, byteAt]

theorem timeAt_slice (b : Bytes) (p : Nat) : timeAt (slice b p 3) 0 = timeAt b p := by
  rw [timeAt, byteAt_slice (by decide), byteAt_slice (by decide), byteAt_slice (by decide)]
  rfl

/-- The stored starts of the first record, at most 254. -/
def firstRecordStarts (list : Bytes) : List UInt32 :=
  (List.range (min (byteAt list indexRecords) (maxIndexCount - 1))).map
    (storedStart list indexRecords)

theorem byteAt_append {xs : Bytes} (ys : Bytes) {i : Nat} (h : i < xs.length) :
    byteAt (xs ++ ys) i = byteAt xs i := by
  rw [byteAt, List.getD_append _ _ _ _ h, byteAt]

/-- The first record lies in the first sector. -/
theorem firstRecordStarts_append {xs : Bytes} (ys : Bytes) (h : lsnSize ≤ xs.length) :
    firstRecordStarts (xs ++ ys) = firstRecordStarts xs := by
  have hsize : lsnSize = 2048 := rfl
  rw [firstRecordStarts, firstRecordStarts, byteAt_append ys (by rw [indexRecords]; omega)]
  apply List.map_congr_left
  intro i hi
  have hlt := List.mem_range.mp hi
  rw [maxIndexCount] at hlt
  rw [storedStart, storedStart, timeAt, timeAt, indexRecords]
  rw [byteAt_append ys (by omega), byteAt_append ys (by omega), byteAt_append ys (by omega)]

theorem collect_firstRecord {scratch : Bytes} (h : lsnSize ≤ scratch.length) :
    collect (readIndexStart scratch indexRecords)
      (List.range (min (byteAt scratch indexRecords) (maxIndexCount - 1))) =
        .ok (firstRecordStarts scratch) := by
  have hsize : lsnSize = 2048 := rfl
  apply collect_ok
  intro i hi
  have hlt := List.mem_range.mp hi
  rw [maxIndexCount] at hlt
  have hin : indexRecords + 1 + 3 * i + 3 ≤ scratch.length := by
    rw [indexRecords]
    omega
  rw [readIndexStart, bind_of_ok (readBytes_of_le _ hin), timeAt_slice]
  rfl

/-- The whole of the index list, up to the end of the TOC. -/
def indexList (b : TocSectors) (data : AreaData) : Bytes :=
  b.sectors data.indexListPtr (b.tocAreaLength.toNat - data.indexListPtr)

/-- The stored starts the read gives a track. -/
def givenStarts (b : TocSectors) (data : AreaData) (track : Nat) : List UInt32 :=
  if data.indexListPtr ≠ 0 ∧ indexPtr b data track ≠ 0 ∧
      indexPtr b data track < indexScratchSize b data then
    firstRecordStarts (indexList b data)
  else []

/-- What the read puts together of the index list. -/
def indexSectors (b : TocSectors) (data : AreaData) : Bytes :=
  b.sectors data.indexListPtr (min (b.tocAreaLength.toNat - data.indexListPtr) 10)

theorem indexSectors_length (h : data.indexListPtr < b.tocAreaLength.toNat) :
    (indexSectors b data).length = indexScratchSize b data := filled_length b 10 h

theorem indexSectors_ge (h : data.indexListPtr < b.tocAreaLength.toNat) :
    lsnSize ≤ (indexSectors b data).length := by
  rw [indexSectors_length h]
  exact Nat.le_mul_of_pos_left _ (by omega)

/-- The list begins with the sectors put together. -/
theorem firstRecordStarts_indexList (h : data.indexListPtr < b.tocAreaLength.toNat) :
    firstRecordStarts (indexList b data) = firstRecordStarts (indexSectors b data) := by
  obtain ⟨rest, hrest⟩ : ∃ rest, b.tocAreaLength.toNat - data.indexListPtr =
      min (b.tocAreaLength.toNat - data.indexListPtr) 10 + rest :=
    ⟨_, (Nat.add_sub_cancel' (Nat.min_le_left _ _)).symm⟩
  rw [indexList, hrest, sectors_add]
  exact firstRecordStarts_append _ (indexSectors_ge h)

/-- The scratch buffer behind the index points of a track. -/
def indexScratch (b : TocSectors) (data : AreaData) (scratch : Bytes) : Bytes :=
  if data.indexListPtr = 0 then scratch else store scratch (indexSectors b data)

/-- Every track whose pointer is set and not too large is given the first record. -/
theorem readIndexes_eq (hptr : data.indexListPtr ≠ 0 →
      data.indexListPtr < b.tocAreaLength.toNat) (track : Nat) (scratch : Bytes) :
    readIndexes b data track scratch =
      .ok (givenStarts b data track, indexScratch b data scratch) := by
  unfold readIndexes givenStarts indexScratch
  by_cases hlist : data.indexListPtr = 0
  · rw [if_pos hlist, if_neg (fun hne => hne.1 hlist), if_pos hlist]
  · have hin := hptr hlist
    have hfill : fill b data.indexListPtr 10 = .ok (indexSectors b data) := fill_eq b 10 hin
    have hsize := indexSectors_length hin
    have hge := indexSectors_ge hin
    have hlen : lsnSize ≤ (store scratch (indexSectors b data)).length := by
      rw [store, List.length_append]
      omega
    rw [if_neg hlist, if_neg hlist, bind_of_ok hfill, bind_of_ok (read_of_lt b hin)]
    change (if indexPtr b data track ≠ 0 ∧ indexPtr b data track < (indexSectors b data).length
      then _ else _) = _
    rw [hsize]
    by_cases hused : indexPtr b data track ≠ 0 ∧ indexPtr b data track < indexScratchSize b data
    · have hstored : readBe Stop.outside (store scratch (indexSectors b data)) indexRecords 1 =
          .ok (byteAt (store scratch (indexSectors b data)) indexRecords) := by
        rw [readBe_of_le _ (le_trans (by decide) hlen), ← be, be_one]
      have hstarts : firstRecordStarts (store scratch (indexSectors b data)) =
          firstRecordStarts (indexList b data) := by
        rw [firstRecordStarts_indexList hin, store, firstRecordStarts_append _ hge]
      rw [if_pos hused, if_pos ⟨hlist, hused⟩, bind_of_ok hstored,
        bind_of_ok (collect_firstRecord hlen), hstarts]
    · rw [if_neg hused, if_neg (fun h => hused h.2)]

theorem firstRecordStarts_length (list : Bytes) : (firstRecordStarts list).length ≤ 254 := by
  rw [firstRecordStarts, List.length_map, List.length_range]
  exact Nat.min_le_right _ _

theorem givenStarts_length (b : TocSectors) (data : AreaData) (track : Nat) :
    (givenStarts b data track).length ≤ 254 := by
  unfold givenStarts
  split
  · exact firstRecordStarts_length _
  · exact Nat.zero_le _

/-- The index points of a track that was read. -/
theorem ReadFrom.indexes (h : ReadFrom convert b areaType toc) {i : Nat} {info : TrackInfo}
    (hi : toc.trackInfo[i]? = some info) :
    info.indexStart.drop 2 = givenStarts b toc.data i ∧ IndexesFilled info := by
  obtain ⟨lists, hdecodes⟩ := decode_eq_ok h.decode
  obtain ⟨running, running', hturn⟩ := hdecodes.track hi
  obtain ⟨extra, texts, scratch, scratch', hindexes, -, -, hstart, hcount, -⟩ :=
    readTrack_eq_ok hturn
  rw [readIndexes_eq hdecodes.pointers.2.2] at hindexes
  cases hindexes
  have hlen := givenStarts_length b toc.data i
  refine ⟨by rw [hstart]; rfl, ?_, ?_, ?_⟩
  · rw [hstart]
    exact Nat.le_add_left _ _
  · rw [hstart, List.length_cons, List.length_cons]
    omega
  · rw [hcount, hstart]
    rfl

end Read

/-! ## The intervals of a track -/

section Intervals

/-- The end of every index is the frame before the next, the end of the last one the last
frame of the track, and the intervals from index 1 on are as long as the track. -/
structure Tiles (toc : Toc) (trackNum : UInt8) (info : TrackInfo) : Prop where
  adjacent : ∀ k, k + 1 < info.indexStart.length →
    getIndexEnd (some toc) trackNum (UInt8.ofNat k) + 1 =
      getIndexStart (some toc) trackNum (UInt8.ofNat (k + 1))
  last : getIndexEnd (some toc) trackNum (UInt8.ofNat (info.indexStart.length - 1)) + 1 =
    getIndexStart (some toc) trackNum 1 + info.trackLength
  lengths : ((List.range (info.indexStart.length - 1)).map fun k =>
    getIndexEnd (some toc) trackNum (UInt8.ofNat (k + 1)) + 1 -
      getIndexStart (some toc) trackNum (UInt8.ofNat (k + 1))).sum = info.trackLength

/-- The last index starts where index 1 does, and the count of the indexes fits its byte. -/
def LastAtStart (info : TrackInfo) : Prop :=
  info.indexStart.length ≤ 255 ∧
    info.indexStart.getD (info.indexStart.length - 1) 0 = info.indexStart.getD 1 0

variable {toc : Toc} {trackNum : UInt8} {info : TrackInfo}

theorem toNat_ofNat_lt {k : Nat} (h : k < 256) : (UInt8.ofNat k).toNat = k := by
  rw [UInt8.toNat_ofNat', Nat.mod_eq_of_lt h]

/-- With a count that fits, every index in range is looked up in the array. -/
theorem getIndexStart_eq (htrack : toc.track trackNum = some info) (hfilled : IndexesFilled info)
    (hfits : info.indexStart.length ≤ 255) {k : Nat} (hk : k < info.indexStart.length) :
    getIndexStart (some toc) trackNum (UInt8.ofNat k) = info.indexStart.getD k 0 := by
  have htoc : trackOf (some toc) trackNum = some info := htrack
  have hrange : ¬ info.indexCount ≤ UInt8.ofNat k := by
    rw [hfilled.count, UInt8.le_iff_toNat_le, toNat_ofNat_lt (by omega), toNat_ofNat_lt (by omega)]
    omega
  simp only [getIndexStart, htoc, if_neg hrange, toNat_ofNat_lt (show k < 256 by omega)]

theorem getIndexEnd_next (htrack : toc.track trackNum = some info) (hfilled : IndexesFilled info)
    (hfits : info.indexStart.length ≤ 255) {k : Nat} (hk : k + 1 < info.indexStart.length) :
    getIndexEnd (some toc) trackNum (UInt8.ofNat k) + 1 = info.indexStart.getD (k + 1) 0 := by
  have htoc : trackOf (some toc) trackNum = some info := htrack
  have hcount : info.indexCount.toNat = info.indexStart.length := by
    rw [hfilled.count, toNat_ofNat_lt (by omega)]
  have hnat := toNat_ofNat_lt (show k < 256 by omega)
  have hrange : ¬ info.indexCount ≤ UInt8.ofNat k := by
    rw [UInt8.le_iff_toNat_le, hcount, hnat]
    omega
  have hnotlast : ¬ info.indexCount.toNat = (UInt8.ofNat k).toNat + 1 := by
    rw [hcount, hnat]
    omega
  rw [getIndexEnd]
  simp only [htoc]
  rw [if_neg hrange, if_neg hnotlast, hnat, sub_add_cancel]

/-- The last index ends one track length behind its own start. -/
theorem getIndexEnd_last (htrack : toc.track trackNum = some info) (hfilled : IndexesFilled info)
    (hfits : info.indexStart.length ≤ 255) :
    getIndexEnd (some toc) trackNum (UInt8.ofNat (info.indexStart.length - 1)) + 1 =
      info.trackLength + info.indexStart.getD (info.indexStart.length - 1) 0 := by
  have htoc : trackOf (some toc) trackNum = some info := htrack
  have htwo := hfilled.two_le
  have hcount : info.indexCount.toNat = info.indexStart.length := by
    rw [hfilled.count, toNat_ofNat_lt (by omega)]
  have hnat := toNat_ofNat_lt (show info.indexStart.length - 1 < 256 by omega)
  have hrange : ¬ info.indexCount ≤ UInt8.ofNat (info.indexStart.length - 1) := by
    rw [UInt8.le_iff_toNat_le, hcount, hnat]
    omega
  have hlast : info.indexCount.toNat = (UInt8.ofNat (info.indexStart.length - 1)).toNat + 1 := by
    rw [hcount, hnat]
    omega
  have hstart := getIndexStart_eq htrack hfilled hfits
    (show info.indexStart.length - 1 < info.indexStart.length by omega)
  simp only [getIndexEnd, htoc, if_neg hrange, if_pos hlast, hstart]
  rw [add_right_comm, sub_add_cancel]

/-- A count that has wrapped around leaves no index in range. -/
theorem getIndexEnd_wrapped (htrack : toc.track trackNum = some info)
    (hcount : info.indexCount = 0) (k : UInt8) :
    getIndexEnd (some toc) trackNum k = 0 ∧ getIndexStart (some toc) trackNum k = 0 := by
  have htoc : trackOf (some toc) trackNum = some info := htrack
  have hrange : info.indexCount ≤ k := by
    rw [hcount]
    exact UInt8.le_iff_toNat_le.mpr (Nat.zero_le _)
  simp only [getIndexEnd, getIndexStart, htoc, if_pos hrange]
  exact ⟨trivial, trivial⟩

theorem lastAtStart_of_tiles (htrack : toc.track trackNum = some info)
    (hfilled : IndexesFilled info) (h : Tiles toc trackNum info) : LastAtStart info := by
  have htwo := hfilled.two_le
  have hle := hfilled.le
  by_cases hfits : info.indexStart.length ≤ 255
  · refine ⟨hfits, ?_⟩
    have hlast := h.last
    have hfirst := getIndexStart_eq htrack hfilled hfits (show 1 < info.indexStart.length by omega)
    rw [getIndexEnd_last htrack hfilled hfits, add_comm] at hlast
    change _ = getIndexStart (some toc) trackNum (UInt8.ofNat 1) + _ at hlast
    rw [hfirst] at hlast
    exact add_right_cancel hlast
  · have hwrapped : info.indexCount = 0 := by
      rw [hfilled.count, show info.indexStart.length = 256 by omega]
      rfl
    have hadjacent := h.adjacent 0 (by omega)
    rw [(getIndexEnd_wrapped htrack hwrapped _).1, (getIndexEnd_wrapped htrack hwrapped _).2]
      at hadjacent
    exact absurd hadjacent (by decide)

theorem tiles_of_lastAtStart (htrack : toc.track trackNum = some info)
    (hfilled : IndexesFilled info) (h : LastAtStart info) : Tiles toc trackNum info := by
  obtain ⟨hfits, hlast⟩ := h
  have htwo := hfilled.two_le
  have hstart : ∀ k, k < info.indexStart.length →
      getIndexStart (some toc) trackNum (UInt8.ofNat k) = info.indexStart.getD k 0 :=
    fun k hk => getIndexStart_eq htrack hfilled hfits hk
  have hend := getIndexEnd_last htrack hfilled hfits
  refine ⟨?_, ?_, ?_⟩
  · intro k hk
    rw [getIndexEnd_next htrack hfilled hfits hk, hstart _ hk]
  · rw [hend, hlast, add_comm]
    exact congrArg (· + info.trackLength) (hstart 1 (by omega)).symm
  · obtain ⟨n, hn⟩ : ∃ n, info.indexStart.length = n + 2 :=
      ⟨info.indexStart.length - 2, by omega⟩
    -- all intervals but the last telescope to the way from index 1 to the last index
    have hinner : (List.range n).map (fun k =>
        getIndexEnd (some toc) trackNum (UInt8.ofNat (k + 1)) + 1 -
          getIndexStart (some toc) trackNum (UInt8.ofNat (k + 1))) =
        (List.range n).map fun k =>
          info.indexStart.getD (k + 1 + 1) 0 - info.indexStart.getD (k + 1) 0 := by
      apply List.map_congr_left
      intro k hk
      have hlt := List.mem_range.mp hk
      rw [getIndexEnd_next htrack hfilled hfits (by omega), hstart _ (by omega)]
    have htelescope := List.sum_range_sub n fun k => info.indexStart.getD (k + 1) 0
    have hlen : info.indexStart.length - 1 = n + 1 := by omega
    rw [hlen] at hend hlast
    rw [hlen, List.range_succ, List.map_append, List.sum_append, hinner, htelescope,
      List.map_singleton, List.sum_singleton, hend, hstart (n + 1) (by omega), hlast,
      add_sub_cancel_right, sub_self, zero_add]

/-- The intervals tile the track exactly when its last index starts where the track does. -/
theorem tiles_iff_lastAtStart {convert : Convert} {b : TocSectors} {areaType : AreaType}
    (h : ReadFrom convert b areaType toc) (htrack : toc.track trackNum = some info) :
    Tiles toc trackNum info ↔ LastAtStart info := by
  have hfilled : IndexesFilled info := by
    unfold Toc.track at htrack
    split at htrack
    · cases htrack
    · exact (h.indexes htrack).2
  exact ⟨lastAtStart_of_tiles htrack hfilled, tiles_of_lastAtStart htrack hfilled⟩

end Intervals

/-! ## The record of a track -/

section Records

variable {convert : Convert} {b : TocSectors} {areaType : AreaType} {toc : Toc}

/-- Index 2 and up of a track, as far as its count goes. -/
def TrackInfo.extraStarts (info : TrackInfo) : List UInt32 :=
  (info.indexStart.take info.indexCount.toNat).drop 2

/-- The starts stored for a track: those of the record its pointer is at. -/
def recordStarts (b : TocSectors) (data : AreaData) (track : Nat) : List UInt32 :=
  if indexPtr b data track = 0 then []
  else storedStarts (indexList b data) (indexPtr b data track)

/-- There is an index list, and the pointers of the tracks that have one are at records of one
to 254 starts inside it. -/
structure IndexesStored (b : TocSectors) (data : AreaData) : Prop where
  present : data.indexListPtr ≠ 0
  counts : ∀ track, track < data.trackCount → indexPtr b data track ≠ 0 →
    1 ≤ byteAt (indexList b data) (indexPtr b data track) ∧
      byteAt (indexList b data) (indexPtr b data track) ≤ 254
  inside : ∀ track, track < data.trackCount → indexPtr b data track ≠ 0 →
    indexPtr b data track + 1 + 3 * byteAt (indexList b data) (indexPtr b data track) ≤
      (indexList b data).length

/-- The index points of every track are those of its record. -/
def StartsOfRecords (b : TocSectors) (toc : Toc) : Prop :=
  ∀ track info, toc.trackInfo[track]? = some info →
    info.extraStarts = recordStarts b toc.data track

/-- The pointer of a track is in the ten sectors put together, the first record has a count
whose sum with two fits a byte, and the record of the track has the same starts. -/
structure ServedByFirst (b : TocSectors) (data : AreaData) (track : Nat) : Prop where
  near : indexPtr b data track < indexScratchSize b data
  count : byteAt (indexList b data) indexRecords ≤ 253
  same : storedStarts (indexList b data) (indexPtr b data track) =
    storedStarts (indexList b data) indexRecords

theorem storedStarts_length (list : Bytes) (p : Nat) :
    (storedStarts list p).length = byteAt list p := by
  rw [storedStarts, List.length_map, List.length_range]

theorem firstRecordStarts_eq {list : Bytes} (h : byteAt list indexRecords ≤ 254) :
    firstRecordStarts list = storedStarts list indexRecords := by
  rw [firstRecordStarts, storedStarts, maxIndexCount, Nat.min_eq_left h]

/-- The count cuts nothing off, unless it has wrapped around: then it leaves nothing. -/
theorem extraStarts_eq {info : TrackInfo} (h : IndexesFilled info) :
    info.extraStarts = if info.indexStart.length ≤ 255 then info.indexStart.drop 2 else [] := by
  have hle := h.le
  rw [TrackInfo.extraStarts, h.count]
  split
  · next hfits => rw [toNat_ofNat_lt (by omega), List.take_length]
  · next hwraps =>
    rw [show info.indexStart.length = 256 by omega]
    rfl

theorem firstRecordStarts_count (list : Bytes) :
    (firstRecordStarts list).length = min (byteAt list indexRecords) 254 := by
  rw [firstRecordStarts, List.length_map, List.length_range]
  rfl

/-- A track without a pointer has no extra index points. -/
theorem extraStarts_none {track : Nat} {info : TrackInfo}
    (hread : info.indexStart.drop 2 = givenStarts b toc.data track ∧ IndexesFilled info)
    (hzero : indexPtr b toc.data track = 0) : info.extraStarts = [] := by
  have hgiven : givenStarts b toc.data track = [] := if_neg fun h => h.2.1 hzero
  rw [extraStarts_eq hread.2, hread.1, hgiven]
  split <;> rfl

theorem extraStarts_served {track : Nat} {info : TrackInfo}
    (hread : info.indexStart.drop 2 = givenStarts b toc.data track ∧ IndexesFilled info)
    (hstored : IndexesStored b toc.data) (hptr : indexPtr b toc.data track ≠ 0)
    (hserved : ServedByFirst b toc.data track) :
    info.extraStarts = storedStarts (indexList b toc.data) (indexPtr b toc.data track) := by
  have hcount := hserved.count
  have hgiven : givenStarts b toc.data track = firstRecordStarts (indexList b toc.data) :=
    if_pos ⟨hstored.present, hptr, hserved.near⟩
  have hlen := congrArg List.length hread.1
  rw [hgiven, firstRecordStarts_count, List.length_drop] at hlen
  rw [extraStarts_eq hread.2, if_pos (by omega), hread.1, hgiven,
    firstRecordStarts_eq (by omega), hserved.same]

theorem servedByFirst_of_eq {track : Nat} {info : TrackInfo}
    (hread : info.indexStart.drop 2 = givenStarts b toc.data track ∧ IndexesFilled info)
    (hcount : 1 ≤ byteAt (indexList b toc.data) (indexPtr b toc.data track))
    (h : info.extraStarts = storedStarts (indexList b toc.data) (indexPtr b toc.data track)) :
    ServedByFirst b toc.data track := by
  -- the record has a start, so the index points of the track are not empty
  have hne : info.extraStarts.length ≠ 0 := by
    rw [h, storedStarts_length]
    omega
  rw [extraStarts_eq hread.2] at h hne
  split at h
  · next hfits =>
    rw [if_pos hfits] at hne
    have hlen := congrArg List.length hread.1
    by_cases hgiven : toc.data.indexListPtr ≠ 0 ∧ indexPtr b toc.data track ≠ 0 ∧
        indexPtr b toc.data track < indexScratchSize b toc.data
    · rw [givenStarts, if_pos hgiven] at hread hlen
      rw [firstRecordStarts_count, List.length_drop] at hlen
      have hfirst : byteAt (indexList b toc.data) indexRecords ≤ 253 := by omega
      refine ⟨hgiven.2.2, hfirst, ?_⟩
      rw [← h, hread.1, firstRecordStarts_eq (by omega)]
    · rw [givenStarts, if_neg hgiven] at hlen
      exact absurd hlen hne
  · next hwraps =>
    rw [if_neg hwraps] at hne
    exact absurd rfl hne

/-- The index points of every track are those of its record exactly when the first record
serves every track that has one. -/
theorem startsOfRecords_iff_servedByFirst (h : ReadFrom convert b areaType toc)
    (hstored : IndexesStored b toc.data) :
    StartsOfRecords b toc ↔ ∀ track, track < toc.data.trackCount →
      indexPtr b toc.data track ≠ 0 → ServedByFirst b toc.data track := by
  obtain ⟨lists, hdecodes⟩ := decode_eq_ok h.decode
  have hlen := (readTracks_eq_ok _ _ _ hdecodes.tracks).1
  constructor
  · intro hstarts track htrack hptr
    have hinfo : toc.trackInfo[track]? = some toc.trackInfo[track] :=
      List.getElem?_eq_getElem (hlen ▸ htrack)
    have heq := hstarts track _ hinfo
    rw [recordStarts, if_neg hptr] at heq
    exact servedByFirst_of_eq (h.indexes hinfo) (hstored.counts track htrack hptr).1 heq
  · intro hserved track info hinfo
    have htrack : track < toc.data.trackCount := by
      rw [← hlen]
      exact (List.getElem?_eq_some_iff.mp hinfo).1
    rw [recordStarts]
    split
    · next hzero => exact extraStarts_none (h.indexes hinfo) hzero
    · next hptr =>
      exact extraStarts_served (h.indexes hinfo) hstored hptr (hserved track htrack hptr)

end Records

/-! ## Two tracks with a record each -/

/-- A turn over a track of a TOC without track text. -/
theorem readTrack_plain {b : TocSectors} {data : AreaData} {convert : Convert}
    (lists : TrackLists) (track : Nat) (running : Running)
    (hisrc : 4 < b.tocAreaLength.toNat) (htext : data.trackTextPtr = 0)
    (hptr : data.indexListPtr ≠ 0 → data.indexListPtr < b.tocAreaLength.toNat) :
    readTrack convert b data lists track running =
      .ok (trackInfo data lists (b.sector 4) track running.startFrame (givenStarts b data track) [],
        ⟨trackStart lists track + trackLength lists track,
          indexScratch b data running.scratch⟩) := by
  have htexts : readTrackText convert b data track (indexScratch b data running.scratch) =
      .ok ([], indexScratch b data running.scratch) := if_pos htext
  rw [readTrack, bind_of_ok (read_of_lt b hisrc), bind_of_ok (readIndexes_eq hptr track _)]
  simp only
  rw [bind_of_ok htexts]

def twoRecordsHead : Bytes := areaHead 30 2 [] 0 5 0

/-- Two tracks of ten frames; index 2 of the first is at frame 5, that of the second at
frame 19. -/
def twoRecordsHeads : List Bytes :=
  [twoRecordsHead, trackList1Sign,
    trackList2Sign ++ [0, 0, 0, 0, 0, 0, 15] ++ List.replicate 1013 0 ++ [0, 0, 10, 0, 0, 0, 10],
    isrcGenreSign, [],
    indexListSign ++ [2, 12, 2, 16] ++ List.replicate 512 0 ++ [1, 0, 0, 5, 1, 0, 0, 19]]

set_option maxRecDepth 20000

theorem twoRecordsHeads_length : ∀ head ∈ twoRecordsHeads, head.length ≤ lsnSize := by
  decide

theorem twoRecordsHeads_count : twoRecordsHeads.length < 65536 := by decide

def twoRecordsDisc : BareToc :=
  ⟨twoRecordsHeads, twoRecordsHeads_count, twoRecordsHeads_length⟩

def twoRecordsData : AreaData := areaData (padded twoRecordsHead)

def twoRecordsLists : TrackLists :=
  ⟨padded (twoRecordsHeads.getD 1 []), padded (twoRecordsHeads.getD 2 []),
    padded (twoRecordsHeads.getD 3 [])⟩

/-- Both tracks are given the record of the first. -/
def twoRecordsInfo (track : Nat) (startFrame : UInt32) : TrackInfo :=
  trackInfo twoRecordsData twoRecordsLists (padded []) track startFrame [5] []

def twoRecordsToc : Toc :=
  .accepted twoRecordsData [] [twoRecordsInfo 0 0, twoRecordsInfo 1 10] ⟨180, 1, none, none⟩

theorem twoRecords_pointers : twoRecordsData.indexListPtr = 5 ∧ twoRecordsData.trackTextPtr = 0 ∧
    twoRecordsData.trackCount = 2 := by
  decide

theorem twoRecords_indexList : indexList twoRecordsDisc.toc twoRecordsData =
    padded (twoRecordsHeads.getD 5 []) := by
  rw [indexList, twoRecords_pointers.1]
  exact (sectors_one _ _).trans (twoRecordsDisc.sector rfl)

theorem twoRecords_indexPtr (track : Nat) : indexPtr twoRecordsDisc.toc twoRecordsData track =
    be (padded (twoRecordsHeads.getD 5 [])) (8 + 2 * track) 2 := by
  rw [indexPtr, twoRecords_pointers.1, twoRecordsDisc.sector (s := 5) rfl]
  rfl

theorem twoRecords_given (track : Nat) (h : track < 2) :
    givenStarts twoRecordsDisc.toc twoRecordsData track = [5] := by
  have hptr : indexPtr twoRecordsDisc.toc twoRecordsData track ≠ 0 ∧
      indexPtr twoRecordsDisc.toc twoRecordsData track < 2048 := by
    rw [twoRecords_indexPtr]
    obtain rfl | rfl : track = 0 ∨ track = 1 := by omega
    · decide
    · decide
  have hsize : indexScratchSize twoRecordsDisc.toc twoRecordsData = 2048 := by
    rw [indexScratchSize, twoRecords_pointers.1]
    rfl
  have hlist : twoRecordsData.indexListPtr ≠ 0 := by
    rw [twoRecords_pointers.1]
    decide
  rw [givenStarts, hsize, if_pos ⟨hlist, hptr⟩, twoRecords_indexList]
  decide

theorem twoRecordsToc_readFrom (convert : Convert) :
    ReadFrom convert twoRecordsDisc.toc .twoChannel twoRecordsToc := by
  obtain ⟨hindex, htext, hcount⟩ := twoRecords_pointers
  have hsigned : signaturesValid twoRecordsDisc.toc (padded twoRecordsHead) .twoChannel =
      .ok true := by
    apply signaturesValid_true (by decide)
    · exact twoRecordsDisc.signed rfl (by decide)
    · exact twoRecordsDisc.signed rfl (by decide)
    · exact twoRecordsDisc.signed rfl (by decide)
    · rfl
    · rfl
    · exact twoRecordsDisc.signed (s := 5) rfl (by decide)
  have hptr : twoRecordsData.indexListPtr ≠ 0 →
      twoRecordsData.indexListPtr < twoRecordsDisc.toc.tocAreaLength.toNat := by
    intro _
    rw [hindex]
    decide
  have hturn : ∀ track startFrame scratch, track < 2 → ∃ scratch',
      readTrack convert twoRecordsDisc.toc twoRecordsData twoRecordsLists track
        ⟨startFrame, scratch⟩ = .ok (twoRecordsInfo track startFrame,
          ⟨trackStart twoRecordsLists track + trackLength twoRecordsLists track, scratch'⟩) := by
    intro track startFrame scratch htrack
    refine ⟨indexScratch twoRecordsDisc.toc twoRecordsData scratch, ?_⟩
    rw [readTrack_plain _ _ _ (by decide) htext hptr, twoRecords_given track htrack,
      twoRecordsDisc.sector (s := 4) rfl]
    rfl
  have htracks : readTracks convert twoRecordsDisc.toc twoRecordsData twoRecordsLists
      twoRecordsData.trackCount 0 ⟨0, []⟩ = .ok [twoRecordsInfo 0 0, twoRecordsInfo 1 10] := by
    obtain ⟨scratch, hfirst⟩ := hturn 0 0 [] (by decide)
    have hstart : trackStart twoRecordsLists 0 + trackLength twoRecordsLists 0 = 10 := by
      decide
    rw [hstart] at hfirst
    obtain ⟨scratch', hsecond⟩ := hturn 1 10 scratch (by decide)
    rw [hcount, readTracks, bind_of_ok hfirst]
    simp only
    rw [readTracks, Nat.zero_add, bind_of_ok hsecond]
    rfl
  exact BareToc.readFrom (BareToc.decodes (d := twoRecordsDisc) rfl hsigned (by decide)
    (by decide) (by decide) rfl htracks rfl)

theorem twoRecords_tiles_iff :
    Tiles twoRecordsToc 1 (twoRecordsInfo 0 0) ↔ LastAtStart (twoRecordsInfo 0 0) :=
  tiles_iff_lastAtStart (twoRecordsToc_readFrom fun _ text => some text) (by decide)

theorem twoRecords_not_tiles : ¬ ∀ (convert : Convert) (b : TocSectors) (areaType : AreaType)
    (toc : Toc) (trackNum : UInt8) (info : TrackInfo), ReadFrom convert b areaType toc →
      toc.track trackNum = some info → (info.indexStart.drop 1).Pairwise (· < ·) →
        Tiles toc trackNum info := by
  intro h
  have hread := twoRecordsToc_readFrom fun _ text => some text
  have htrack : twoRecordsToc.track 1 = some (twoRecordsInfo 0 0) := by decide
  have htiles := h _ _ _ _ _ _ hread htrack (by decide)
  have hlast := lastAtStart_of_tiles htrack (hread.indexes (i := 0) rfl).2 htiles
  exact absurd hlast.2 (by decide)

theorem twoRecords_stored : IndexesStored twoRecordsDisc.toc twoRecordsData := by
  have hcount := twoRecords_pointers.2.2
  refine ⟨?_, ?_, ?_⟩
  · rw [twoRecords_pointers.1]
    decide
  · intro track htrack _
    rw [twoRecords_indexList, twoRecords_indexPtr]
    obtain rfl | rfl : track = 0 ∨ track = 1 := by omega
    · decide
    · decide
  · intro track htrack _
    rw [twoRecords_indexList, twoRecords_indexPtr]
    obtain rfl | rfl : track = 0 ∨ track = 1 := by omega
    · decide
    · decide

theorem twoRecords_starts_iff : StartsOfRecords twoRecordsDisc.toc twoRecordsToc ↔
    ∀ track, track < twoRecordsToc.data.trackCount →
      indexPtr twoRecordsDisc.toc twoRecordsToc.data track ≠ 0 →
        ServedByFirst twoRecordsDisc.toc twoRecordsToc.data track :=
  startsOfRecords_iff_servedByFirst (twoRecordsToc_readFrom fun _ text => some text)
    twoRecords_stored

theorem twoRecords_not_own : ¬ ∀ (convert : Convert) (b : TocSectors) (areaType : AreaType)
    (toc : Toc), ReadFrom convert b areaType toc → IndexesStored b toc.data →
      StartsOfRecords b toc := by
  intro h
  have hown := h _ _ _ _ (twoRecordsToc_readFrom fun _ text => some text) twoRecords_stored 1 _ rfl
  have hptr : indexPtr twoRecordsDisc.toc twoRecordsData 1 = 528 := by
    rw [twoRecords_indexPtr]
    decide
  have hrecord : recordStarts twoRecordsDisc.toc twoRecordsData 1 = [19] := by
    rw [recordStarts, hptr, twoRecords_indexList]
    decide
  have hgiven : (twoRecordsInfo 1 10).extraStarts = [5] := by decide
  rw [hgiven] at hown
  exact absurd (hown.trans hrecord) (by decide)

end DsdNexus.Sacd.Area
