import DsdNexus.Sacd.DstCache

/-! # Seeking a frame

In an area whose frames start in order, a scan finds the sector of a frame or says on which
side of it the scan went by. The access list picks the sectors to scan first.
-/

namespace DsdNexus.Sacd

theorem notFound_ne_ok : readerFrameNotFound ≠ readerOk := by decide

/-! ## Areas in order -/

/-- The header `find_dst_frame` parses for a sector. -/
def headerAt (r : FrameReader) (lsn : UInt32) : Option AudioSector :=
  (fetchOne r [] lsn).sectors.bind fun _ => sectorHeader r (fetchOne r [] lsn).buffer 0

/-- The sectors of the area are audio sectors, and the time codes of the frames that start in
them strictly increase. -/
structure InOrder (r : FrameReader) (heads : Nat → AudioSector) : Prop where
  audio : ∀ lsn : UInt32, r.startSector.toNat ≤ lsn.toNat → lsn.toNat ≤ r.endSector.toNat →
    headerAt r lsn = some (heads lsn.toNat)
  across : ∀ l m : Nat, r.startSector.toNat ≤ l → l < m → m ≤ r.endSector.toNat →
    ∀ c ∈ (heads l).startCodes, ∀ d ∈ (heads m).startCodes, c < d
  within : ∀ l : Nat, r.startSector.toNat ≤ l → l ≤ r.endSector.toNat →
    (heads l).startCodes.Pairwise (· < ·)

/-- The frame starts in the sector, and the sector lies in the area. -/
structure StartsIn (r : FrameReader) (heads : Nat → AudioSector) (frame lsn : UInt32) : Prop where
  from_start : r.startSector.toNat ≤ lsn.toNat
  to_end : lsn.toNat ≤ r.endSector.toNat
  starts : frame.toNat ∈ (heads lsn.toNat).startCodes

/-! ## One sector -/

/-- The codes of the next `k` frames. -/
def codesFrom (s : AudioSector) (idx k : Nat) : List Nat :=
  (List.range' idx k).map fun i => timeToFrame (s.frame i)

theorem startCodes_eq (s : AudioSector) :
    s.startCodes = codesFrom s 0 (s.packets.countP PacketInfo.startsFrame) := by
  rw [AudioSector.startCodes, codesFrom, List.range_eq_range']

theorem codesFrom_succ (s : AudioSector) (idx k : Nat) :
    codesFrom s idx (k + 1) = timeToFrame (s.frame idx) :: codesFrom s (idx + 1) k := by
  rw [codesFrom, List.range'_succ, List.map_cons, codesFrom]

theorem codesFrom_cons {s : AudioSector} {packet : PacketInfo} (idx : Nat)
    (packets : List PacketInfo) (hstart : packet.startsFrame = true) :
    codesFrom s idx ((packet :: packets).countP PacketInfo.startsFrame) =
      timeToFrame (s.frame idx) ::
        codesFrom s (idx + 1) (packets.countP PacketInfo.startsFrame) := by
  rw [List.countP_cons_of_pos hstart, codesFrom_succ]

theorem searchPackets_goOn {s : AudioSector} {frame : UInt32} (idx : Nat)
    {packets : List PacketInfo}
    (h : ∀ c ∈ codesFrom s idx (packets.countP PacketInfo.startsFrame), c < frame.toNat) :
    searchPackets s frame idx packets = .goOn := by
  induction packets generalizing idx with
  | nil => rfl
  | cons packet packets ih =>
    unfold searchPackets
    by_cases hstart : packet.startsFrame = true
    · rw [codesFrom_cons idx packets hstart, List.forall_mem_cons] at h
      have hbefore := h.1
      rw [if_pos hstart, if_neg (by omega), if_neg (by omega)]
      exact ih (idx + 1) h.2
    · rw [List.countP_cons_of_neg hstart] at h
      rw [if_neg hstart]
      exact ih idx h

theorem searchPackets_found {s : AudioSector} {frame : UInt32} (idx : Nat)
    {packets : List PacketInfo}
    (hsorted : (codesFrom s idx (packets.countP PacketInfo.startsFrame)).Pairwise (· < ·))
    (hmem : frame.toNat ∈ codesFrom s idx (packets.countP PacketInfo.startsFrame)) :
    ∃ n, searchPackets s frame idx packets = .found n := by
  induction packets generalizing idx with
  | nil => simp [codesFrom] at hmem
  | cons packet packets ih =>
    unfold searchPackets
    by_cases hstart : packet.startsFrame = true
    · rw [codesFrom_cons idx packets hstart] at hsorted hmem
      rw [List.pairwise_cons] at hsorted
      rw [if_pos hstart]
      rcases List.mem_cons.mp hmem with hhere | hlater
      · rw [if_neg (by omega), if_pos hhere.symm]
        exact ⟨_, rfl⟩
      · have hbefore := hsorted.1 _ hlater
        rw [if_neg (by omega), if_neg (by omega)]
        exact ih (idx + 1) hsorted.2 hlater
    · rw [List.countP_cons_of_neg hstart] at hsorted hmem
      rw [if_neg hstart]
      exact ih idx hsorted hmem

/-- Behind the frame a sector is skipped or stops the scan. -/
theorem searchPackets_behind {s : AudioSector} {frame : UInt32} (idx : Nat)
    {packets : List PacketInfo}
    (h : ∀ c ∈ codesFrom s idx (packets.countP PacketInfo.startsFrame), frame.toNat < c) :
    searchPackets s frame idx packets = .goOn ∨ searchPackets s frame idx packets = .passed := by
  induction packets generalizing idx with
  | nil => exact .inl rfl
  | cons packet packets ih =>
    unfold searchPackets
    by_cases hstart : packet.startsFrame = true
    · rw [codesFrom_cons idx packets hstart, List.forall_mem_cons] at h
      rw [if_pos hstart, if_pos h.1]
      exact .inr rfl
    · rw [List.countP_cons_of_neg hstart] at h
      rw [if_neg hstart]
      exact ih idx h

/-! ## One scan -/

section Scan

variable {r : FrameReader} {heads : Nat → AudioSector} {frame lsn : UInt32}

theorem findDstFrameLoop_goOn {n : Nat} {buffer : Bytes} {s : AudioSector}
    (hs : headerAt r lsn = some s) (h : searchPackets s frame 0 s.packets = .goOn) :
    findDstFrameLoop r frame (n + 1) lsn buffer =
      findDstFrameLoop r frame n (lsn + 1) (fetchOne r buffer lsn).buffer := by
  rw [headerAt, fetchOne_header r [] buffer] at hs
  simp only [findDstFrameLoop, hs, h]

theorem findDstFrameLoop_passed {n : Nat} {buffer : Bytes} {s : AudioSector}
    (hs : headerAt r lsn = some s) (h : searchPackets s frame 0 s.packets = .passed) :
    (findDstFrameLoop r frame (n + 1) lsn buffer).status = readerAccessListInvalid := by
  rw [headerAt, fetchOne_header r [] buffer] at hs
  simp only [findDstFrameLoop, hs, h]

theorem findDstFrameLoop_found {n k : Nat} {buffer : Bytes} {s : AudioSector}
    (hs : headerAt r lsn = some s) (h : searchPackets s frame 0 s.packets = .found k) :
    (findDstFrameLoop r frame (n + 1) lsn buffer).status = readerOk ∧
      (findDstFrameLoop r frame (n + 1) lsn buffer).foundLsn = lsn := by
  rw [headerAt, fetchOne_header r [] buffer] at hs
  simp only [findDstFrameLoop, hs, h, and_self]

variable (hr : InOrder r heads) (hf : StartsIn r heads frame lsn)

include hr hf

theorem searchPackets_before {l : Nat} (hstart : r.startSector.toNat ≤ l) (hl : l < lsn.toNat) :
    searchPackets (heads l) frame 0 (heads l).packets = .goOn := by
  apply searchPackets_goOn
  intro c hc
  rw [← startCodes_eq] at hc
  exact hr.across l lsn.toNat hstart hl hf.to_end c hc _ hf.starts

theorem searchPackets_at : ∃ k, searchPackets (heads lsn.toNat) frame 0 (heads lsn.toNat).packets =
    .found k := by
  apply searchPackets_found
  · rw [← startCodes_eq]
    exact hr.within lsn.toNat hf.from_start hf.to_end
  · rw [← startCodes_eq]
    exact hf.starts

theorem searchPackets_after {l : Nat} (hl : lsn.toNat < l) (hend : l ≤ r.endSector.toNat) :
    searchPackets (heads l) frame 0 (heads l).packets = .goOn ∨
      searchPackets (heads l) frame 0 (heads l).packets = .passed := by
  apply searchPackets_behind
  intro c hc
  rw [← startCodes_eq] at hc
  exact hr.across lsn.toNat l hf.from_start hl hend _ hf.starts c hc

/-- A scan of sectors before the frame. -/
theorem scan_before (n : Nat) (first : UInt32) (buffer : Bytes)
    (hstart : r.startSector.toNat ≤ first.toNat) (hn : first.toNat + n ≤ lsn.toNat) :
    (findDstFrameLoop r frame n first buffer).status = readerFrameNotFound := by
  induction n generalizing first buffer with
  | zero => rfl
  | succ n ih =>
    have hend := hf.to_end
    have hlt := r.endSector.toNat_lt
    have hnext : (first + 1).toNat = first.toNat + 1 := by
      rw [UInt32.toNat_add]
      exact Nat.mod_eq_of_lt (by simp; omega)
    rw [findDstFrameLoop_goOn (hr.audio first hstart (by omega))
      (searchPackets_before hr hf hstart (by omega))]
    exact ih (first + 1) _ (by omega) (by omega)

/-- A scan over the sector of the frame. -/
theorem scan_over (n : Nat) (first : UInt32) (buffer : Bytes)
    (hstart : r.startSector.toNat ≤ first.toNat) (hfrom : first.toNat ≤ lsn.toNat)
    (hn : lsn.toNat < first.toNat + n) :
    (findDstFrameLoop r frame n first buffer).status = readerOk ∧
      (findDstFrameLoop r frame n first buffer).foundLsn = lsn := by
  induction n generalizing first buffer with
  | zero => omega
  | succ n ih =>
    have hend := hf.to_end
    have hlt := r.endSector.toNat_lt
    have hhead := hr.audio first hstart (by omega)
    rcases Nat.lt_or_eq_of_le hfrom with hbefore | hhere
    · have hnext : (first + 1).toNat = first.toNat + 1 := by
        rw [UInt32.toNat_add]
        exact Nat.mod_eq_of_lt (by simp; omega)
      rw [findDstFrameLoop_goOn hhead (searchPackets_before hr hf hstart hbefore)]
      exact ih (first + 1) _ (by omega) (by omega) (by omega)
    · obtain ⟨k, hfound⟩ := searchPackets_at hr hf
      rw [UInt32.toNat_inj.mp hhere] at hhead ⊢
      exact findDstFrameLoop_found hhead hfound

/-- A scan of sectors behind the frame. -/
theorem scan_behind (n : Nat) (first : UInt32) (buffer : Bytes)
    (hfrom : lsn.toNat < first.toNat)
    (hn : 0 < n → first.toNat + n ≤ r.endSector.toNat + 1) :
    (findDstFrameLoop r frame n first buffer).status = readerFrameNotFound ∨
      (findDstFrameLoop r frame n first buffer).status = readerAccessListInvalid := by
  induction n generalizing first buffer with
  | zero => exact .inl rfl
  | succ n ih =>
    have hstart := hf.from_start
    have hhead := hr.audio first (by omega) (by omega)
    rcases searchPackets_after hr hf hfrom (by omega) with hgo | hpassed
    · rw [findDstFrameLoop_goOn hhead hgo]
      cases n with
      | zero => exact .inl rfl
      | succ n =>
        have hlt := r.endSector.toNat_lt
        have hnext : (first + 1).toNat = first.toNat + 1 := by
          rw [UInt32.toNat_add]
          exact Nat.mod_eq_of_lt (by simp; omega)
        exact ih (first + 1) _ (by omega) (by omega)
    · exact .inr (findDstFrameLoop_passed hhead hpassed)

end Scan

/-! ## The range of the access list -/

namespace AccessList

/-- The entry for a frame. -/
def index (list : AccessList) (frame : UInt32) : UInt32 :=
  if list.numEntries.toUInt32 ≤ frame / list.stepSize.toUInt32 then list.numEntries.toUInt32 - 1
  else frame / list.stepSize.toUInt32

def margin (list : AccessList) (i : UInt32) : UInt16 :=
  match list.accessMargin with
  | some margins => margins.getD i.toNat 0
  | none => 0

/-- Where the search for a frame between two entries starts. -/
def start (list : AccessList) (entries : List UInt32) (frame : UInt32) : UInt32 :=
  let entryLsn := entries.getD (list.index frame).toNat 0
  let nextEntryLsn := entries.getD (list.index frame + 1).toNat 0
  interpolatedStart entryLsn
    (frame % list.stepSize.toUInt32 * (nextEntryLsn - entryLsn) / list.stepSize.toUInt32)
    (list.margin (list.index frame))

end AccessList

/-- The frame falls between two entries, the second of which lies before the sector, and its
interpolated start is the start of the area or before it. -/
structure Misled (r : FrameReader) (frame lsn : UInt32) (entries : List UInt32) : Prop where
  entries_eq : r.accessList.frameStart = some entries
  step : r.accessList.stepSize ≠ 0
  count : r.accessList.numEntries ≠ 0
  between : r.accessList.index frame + 1 < r.accessList.numEntries.toUInt32
  next_before : entries.getD (r.accessList.index frame + 1).toNat 0 < lsn
  from_front : r.accessList.start entries frame ≤ r.startSector

theorem clamp_le (a b : UInt32) : (if b < a then b else a) ≤ b := by
  split
  · exact UInt32.le_refl b
  · next h => exact UInt32.not_lt.mp h

theorem le_clamp (a b : UInt32) : b ≤ if a < b then b else a := by
  split
  · exact UInt32.le_refl b
  · next h => exact UInt32.not_lt.mp h

section Range

variable {r : FrameReader} {frame lsn : UInt32}

/-- Without entries the whole area is searched. -/
theorem accessListRange_whole (h : r.accessList.frameStart = none ∨
    r.accessList.stepSize = 0 ∨ r.accessList.numEntries = 0) :
    accessListRange r frame = (r.startSector, r.endSector) := by
  cases hentries : r.accessList.frameStart with
  | none => simp only [accessListRange, hentries]
  | some entries =>
    rw [hentries] at h
    simp only [accessListRange, hentries, if_pos (h.resolve_left (by simp))]

/-- Between two entries the search ends at the second. -/
theorem accessListRange_between {entries : List UInt32}
    (hentries : r.accessList.frameStart = some entries)
    (hlist : ¬(r.accessList.stepSize = 0 ∨ r.accessList.numEntries = 0))
    (hbetween : r.accessList.index frame + 1 < r.accessList.numEntries.toUInt32) :
    accessListRange r frame =
      (if r.accessList.start entries frame < r.startSector then r.startSector
        else r.accessList.start entries frame,
      if r.endSector < entries.getD (r.accessList.index frame + 1).toNat 0 then r.endSector
        else entries.getD (r.accessList.index frame + 1).toNat 0) := by
  unfold AccessList.index at hbetween
  simp only [accessListRange, hentries, if_neg hlist, if_pos hbetween]
  rfl

/-- From the last entry on it ends with the area. -/
theorem accessListRange_last {entries : List UInt32}
    (hentries : r.accessList.frameStart = some entries)
    (hlist : ¬(r.accessList.stepSize = 0 ∨ r.accessList.numEntries = 0))
    (hlast : ¬r.accessList.index frame + 1 < r.accessList.numEntries.toUInt32) :
    r.startSector ≤ (accessListRange r frame).1 ∧
      (accessListRange r frame).2 = r.endSector := by
  unfold AccessList.index at hlast
  simp only [accessListRange, hentries, if_neg hlist, if_neg hlast]
  refine ⟨le_clamp _ _, ?_⟩
  simp only [apply_ite Prod.snd, ite_self]

/-- The range stays in the area. -/
theorem accessListRange_bounds (r : FrameReader) (frame : UInt32) :
    r.startSector ≤ (accessListRange r frame).1 ∧
      (accessListRange r frame).2 ≤ r.endSector := by
  cases hentries : r.accessList.frameStart with
  | none =>
    rw [accessListRange_whole (.inl hentries)]
    exact ⟨UInt32.le_refl _, UInt32.le_refl _⟩
  | some entries =>
    by_cases hlist : r.accessList.stepSize = 0 ∨ r.accessList.numEntries = 0
    · rw [accessListRange_whole (.inr hlist)]
      exact ⟨UInt32.le_refl _, UInt32.le_refl _⟩
    · by_cases hbetween : r.accessList.index frame + 1 < r.accessList.numEntries.toUInt32
      · rw [accessListRange_between hentries hlist hbetween]
        exact ⟨le_clamp _ _, clamp_le _ _⟩
      · have hlast := accessListRange_last hentries hlist hbetween
        exact ⟨hlast.1, UInt32.le_of_eq hlast.2⟩

theorem clamp_eq_iff (a b : UInt32) : (if a < b then b else a) = b ↔ a ≤ b := by
  rw [UInt32.le_iff_toNat_le]
  split
  · next h =>
    rw [UInt32.lt_iff_toNat_lt] at h
    exact ⟨fun _ => by omega, fun _ => rfl⟩
  · next h =>
    rw [UInt32.lt_iff_toNat_lt] at h
    exact ⟨fun heq => Nat.le_of_eq (congrArg UInt32.toNat heq),
      fun hle => UInt32.toNat_inj.mp (by omega)⟩

theorem clamp_lt_iff {a b c : UInt32} (hc : c ≤ b) : (if b < a then b else a) < c ↔ a < c := by
  rw [UInt32.le_iff_toNat_le] at hc
  split
  · next h =>
    rw [UInt32.lt_iff_toNat_lt] at h
    rw [UInt32.lt_iff_toNat_lt, UInt32.lt_iff_toNat_lt]
    omega
  · rfl

/-- The range misses a sector of the area from the front only where the list misleads. -/
theorem accessListRange_misses_iff (hend : lsn ≤ r.endSector) :
    ((accessListRange r frame).1 = r.startSector ∧ (accessListRange r frame).2 < lsn) ↔
      ∃ entries, Misled r frame lsn entries := by
  by_cases hwhole : r.accessList.frameStart = none ∨
      r.accessList.stepSize = 0 ∨ r.accessList.numEntries = 0
  · rw [accessListRange_whole hwhole]
    constructor
    · rintro ⟨-, hlt⟩
      exact absurd hlt (UInt32.not_lt.mpr hend)
    · rintro ⟨entries, h⟩
      rcases hwhole with hnone | hstep | hcount
      · rw [h.entries_eq] at hnone
        exact absurd hnone (by simp)
      · exact absurd hstep h.step
      · exact absurd hcount h.count
  · obtain ⟨hsome, hlist⟩ := not_or.mp hwhole
    obtain ⟨entries, hentries⟩ := Option.ne_none_iff_exists'.mp hsome
    by_cases hbetween : r.accessList.index frame + 1 < r.accessList.numEntries.toUInt32
    · rw [accessListRange_between hentries hlist hbetween, clamp_eq_iff, clamp_lt_iff hend]
      constructor
      · rintro ⟨hfront, hnext⟩
        obtain ⟨hstep, hcount⟩ := not_or.mp hlist
        exact ⟨entries, hentries, hstep, hcount, hbetween, hnext, hfront⟩
      · rintro ⟨entries', h⟩
        rw [Option.some.inj (hentries.symm.trans h.entries_eq)]
        exact ⟨h.from_front, h.next_before⟩
    · have hlast := accessListRange_last hentries hlist hbetween
      constructor
      · rintro ⟨-, hlt⟩
        rw [hlast.2] at hlt
        exact absurd hlt (UInt32.not_lt.mpr hend)
      · rintro ⟨entries', h⟩
        exact absurd h.between hbetween

end Range

/-! ## The seek -/

/-- The seek finds every frame that starts in the area, but where the access list misleads
it. -/
theorem dstSectorSeek_complete_iff {r : FrameReader} {heads : Nat → AudioSector}
    {frame lsn : UInt32} (hr : InOrder r heads) (hf : StartsIn r heads frame lsn)
    (buffer : Bytes) :
    ((dstSectorSeek r frame buffer).status = readerOk ∧
        (dstSectorSeek r frame buffer).foundLsn = lsn) ↔
      ¬∃ entries, Misled r frame lsn entries := by
  have hend : lsn ≤ r.endSector := UInt32.le_iff_toNat_le.mpr hf.to_end
  obtain ⟨hfrom, hto⟩ := accessListRange_bounds r frame
  rw [← accessListRange_misses_iff hend]
  rw [UInt32.le_iff_toNat_le] at hfrom hto
  have hfull : ∀ b : Bytes, (findDstFrame r r.startSector r.endSector frame b).status = readerOk ∧
      (findDstFrame r r.startSector r.endSector frame b).foundLsn = lsn := fun b =>
    scan_over hr hf _ _ b (Nat.le_refl _) hf.from_start (by have := hf.to_end; omega)
  by_cases hmoved : (accessListRange r frame).1 = r.startSector
  · have hstay : dstSectorSeek r frame buffer =
        findDstFrame r (accessListRange r frame).1 (accessListRange r frame).2 frame buffer := by
      simp only [dstSectorSeek, ne_eq, hmoved, not_true_eq_false, and_false, if_false]
    rw [hstay, not_and_or, UInt32.not_lt, UInt32.le_iff_toNat_le]
    have hstart := hf.from_start
    constructor
    · rintro ⟨hstatus, -⟩
      refine .inr ?_
      by_contra hshort
      have hscan := scan_before hr hf ((accessListRange r frame).2.toNat + 1 -
        (accessListRange r frame).1.toNat) (accessListRange r frame).1 buffer hfrom
        (by rw [hmoved]; omega)
      exact notFound_ne_ok (hscan.symm.trans hstatus)
    · rintro (hfront | hreach)
      · exact absurd hmoved hfront
      · exact scan_over hr hf _ _ buffer hfrom (by rw [hmoved]; exact hstart) (by omega)
  · refine iff_of_true ?_ fun h => hmoved h.1
    by_cases hover : (accessListRange r frame).1.toNat ≤ lsn.toNat ∧
        lsn.toNat ≤ (accessListRange r frame).2.toNat
    · have hscan : (findDstFrame r (accessListRange r frame).1 (accessListRange r frame).2 frame
            buffer).status = readerOk ∧
          (findDstFrame r (accessListRange r frame).1 (accessListRange r frame).2 frame
            buffer).foundLsn = lsn :=
        scan_over hr hf _ _ buffer hfrom hover.1 (by omega)
      have hgood : ¬(readerOk = readerFrameNotFound ∨ readerOk = readerAccessListInvalid) := by
        decide
      simp only [dstSectorSeek, hscan.1, hgood, false_and, if_false]
      exact ⟨trivial, hscan.2⟩
    · have hstatus : (findDstFrame r (accessListRange r frame).1 (accessListRange r frame).2 frame
            buffer).status = readerFrameNotFound ∨
          (findDstFrame r (accessListRange r frame).1 (accessListRange r frame).2 frame
            buffer).status = readerAccessListInvalid := by
        rcases Nat.lt_or_ge lsn.toNat (accessListRange r frame).1.toNat with hbehind | hbefore
        · exact scan_behind hr hf _ _ buffer hbehind (by omega)
        · exact .inl (scan_before hr hf _ _ buffer hfrom (by omega))
      simp only [dstSectorSeek, if_pos (And.intro hstatus hmoved)]
      exact hfull _

/-- Frames 0 and 1 in sectors 0 and 1, under a list with both entries on the first. -/
def misledDisc : FrameReader :=
  { twoFrameDisc 1 with accessList := ⟨2, 2, some [0, 0], none⟩ }

/-- Its headers. -/
def misledHead (lsn : Nat) : AudioSector :=
  (headerAt misledDisc (UInt32.ofNat lsn)).getD ⟨false, [], [], 0⟩

theorem misledDisc_inOrder : InOrder misledDisc misledHead where
  audio lsn _ hend := by
    have hlsn : lsn = 0 ∨ lsn = 1 := by
      rw [← UInt32.toNat_inj, ← UInt32.toNat_inj]
      have hlast : misledDisc.endSector.toNat = 1 := rfl
      simp only [UInt32.toNat_zero, UInt32.toNat_one]
      omega
    rcases hlsn with rfl | rfl <;> decide +kernel
  across l m _ hl hend := by
    have hlast : misledDisc.endSector.toNat = 1 := rfl
    obtain rfl : l = 0 := by omega
    obtain rfl : m = 1 := by omega
    decide +kernel
  within l _ hend := by
    have hlast : misledDisc.endSector.toNat = 1 := rfl
    have hl : l = 0 ∨ l = 1 := by omega
    rcases hl with rfl | rfl <;> decide +kernel

theorem misledDisc_startsIn : StartsIn misledDisc misledHead 1 1 :=
  ⟨by decide +kernel, by decide +kernel, by decide +kernel⟩

theorem dstSectorSeek_misled_iff :
    ((dstSectorSeek misledDisc 1 []).status = readerOk ∧
        (dstSectorSeek misledDisc 1 []).foundLsn = 1) ↔
      ¬∃ entries, Misled misledDisc 1 1 entries :=
  dstSectorSeek_complete_iff misledDisc_inOrder misledDisc_startsIn []

/-- Frame 1 starts in sector 1 of the area and is not found. -/
theorem dstSectorSeek_misses :
    InOrder misledDisc misledHead ∧ StartsIn misledDisc misledHead 1 1 ∧
      (dstSectorSeek misledDisc 1 []).status = readerFrameNotFound ∧
      ¬((dstSectorSeek misledDisc 1 []).status = readerOk ∧
        (dstSectorSeek misledDisc 1 []).foundLsn = 1) :=
  ⟨misledDisc_inOrder, misledDisc_startsIn, by decide +kernel, by decide +kernel⟩

end DsdNexus.Sacd
