import DsdNexus.Sacd.AreaTrackText

/-! # Reads outside the buffers

The pointers to the optional lists are compared with the length of the TOC. The lists every
TOC has, the strings, the pointers to the text items and the access list are read where they
are said to be. A read stays inside its buffers exactly when what it comes to lies there.
-/

namespace DsdNexus.Sacd.Area

open Attempt Endian

/-! ## Overruns -/

/-- A read outside the buffers or a loop without an end. -/
def Overrun (e : Stop) : Prop := ∀ status, e ≠ .status status

/-- Every read lies inside its buffer and every loop ends. -/
def Contained {α : Type} (x : Parse α) : Prop := Avoids Overrun x

theorem overrun_outside : Overrun .outside := nofun

theorem overrun_endless : Overrun .endless := nofun

theorem contained_status {α : Type} (status : Int) :
    Contained (.error (.status status) : Parse α) :=
  avoids_error.mpr fun h => h status rfl

section Only

variable {convert : Convert} {b : TocSectors} {data : AreaData}

theorem only_strlen (str : Bytes) : Only Overrun (strlen str) := by
  induction str with
  | nil => exact only_error overrun_outside
  | cons x rest ih =>
    rw [strlen]
    split
    · exact only_ok 0
    · exact only_bind ih fun len => only_ok _

theorem only_multibyteScan (n : Nat) (str : Bytes) : Only Overrun (multibyteScan n str) := by
  induction n, str using multibyteScan.induct with
  | case1 str => exact only_error overrun_endless
  | case2 n => exact only_error overrun_outside
  | case3 n => exact only_error overrun_outside
  | case4 n x hx ih =>
    rw [multibyteScan, if_neg hx]
    exact ih
  | case5 n x y rest hzero =>
    rw [multibyteScan, if_pos hzero]
    exact only_ok 0
  | case6 n x y rest hzero ih =>
    rw [multibyteScan, if_neg hzero]
    exact only_bind ih fun len => only_ok _

theorem only_stringLength (str : Bytes) (code : Nat) : Only Overrun (stringLength str code) := by
  unfold stringLength
  split
  · exact only_multibyteScan _ str
  · exact only_strlen str

theorem only_specialStringToUtf8 (mem : Bytes) (p code : Nat) :
    Only Overrun (specialStringToUtf8 convert mem p code) :=
  only_bind (only_stringLength _ code) fun _ => only_ok _

theorem only_read (s : Nat) : Only Overrun (b.read s) := only_readBytes _ overrun_outside

theorem only_signed (s : Nat) (sign : Bytes) : Only Overrun (signed b s sign) :=
  only_bind (only_read s) fun _ => only_ok _

theorem only_both {x y : Parse Bool} (hx : Only Overrun x) (hy : Only Overrun y) :
    Only Overrun (both x y) := by
  apply only_bind hx
  intro valid
  split
  · exact hy
  · exact only_ok false

theorem only_signedIfPresent (s : Nat) (sign : Bytes) :
    Only Overrun (signedIfPresent b s sign) := by
  unfold signedIfPresent
  split
  · exact only_ok true
  · exact only_signed s sign

theorem only_signaturesValid (first : Bytes) (areaType : AreaType) :
    Only Overrun (signaturesValid b first areaType) := by
  apply only_bind
  · exact only_both (only_signed 1 _) (only_both (only_signed 2 _) (only_signed 3 _))
  · intro required
    apply only_bind
    · exact only_both (only_signedIfPresent _ _)
        (only_both (only_signedIfPresent _ _) (only_signedIfPresent _ _))
    · intro optional
      exact only_ok _

theorem only_readAreaTexts : Only Overrun (readAreaTexts convert b data) := by
  apply only_collect
  intro channel
  split
  · exact only_ok []
  · apply only_collect
    intro type
    unfold readAreaText
    simp only
    split
    · exact only_specialStringToUtf8 _ _ _
    · exact only_ok none

theorem only_readLists : Only Overrun (readLists b) :=
  only_bind (only_read 1) fun _ => only_bind (only_read 2) fun _ =>
    only_bind (only_read 3) fun _ => only_ok _

theorem only_readSectors (s n : Nat) : Only Overrun (readSectors b s n) :=
  only_bind (only_collect (fun i => only_read (s + i)) _) fun _ => only_ok _

theorem only_readIndexes (track : Nat) (scratch : Bytes) :
    Only Overrun (readIndexes b data track scratch) := by
  unfold readIndexes
  split
  · exact only_ok _
  · apply only_bind (only_readSectors _ _)
    intro sectors
    apply only_bind (only_read _)
    intro list
    simp only
    split
    · apply only_bind (only_readBe _ overrun_outside)
      intro stored
      apply only_bind
      · exact only_collect (fun i => only_bind (only_readBytes _ overrun_outside)
          fun _ => only_ok _) _
      · intro starts
        exact only_ok _
    · exact only_ok _

theorem only_readItems (scratch : Bytes) (items code n offset : Nat) :
    Only Overrun (readItems convert scratch items code n offset) := by
  induction n generalizing offset with
  | zero => exact only_ok []
  | succ n ih =>
    apply only_bind (only_readBe _ overrun_outside)
    intro type
    apply only_bind (only_specialStringToUtf8 _ _ _)
    intro text
    apply only_bind (only_bind (only_stringLength _ code) fun _ => only_ok _)
    intro textLength
    exact only_bind (ih _) fun _ => only_ok _

theorem only_readChannelText (scratch : Bytes) (scratchSize track channel : Nat) :
    Only Overrun (readChannelText convert scratch scratchSize data track channel) := by
  unfold readChannelText
  split
  · exact only_ok none
  · apply only_bind (only_readBe _ overrun_outside)
    intro offset
    split
    · apply only_bind (only_readBe _ overrun_outside)
      intro itemCount
      exact only_bind (only_readItems _ _ _ _ _) fun _ => only_ok _
    · exact only_ok none

theorem only_readTrackText (track : Nat) (scratch : Bytes) :
    Only Overrun (readTrackText convert b data track scratch) := by
  unfold readTrackText
  split
  · exact only_ok _
  · apply only_bind (only_readSectors _ _)
    intro sectors
    apply only_bind
    · exact only_collect (fun channel => only_readChannelText _ _ track channel) _
    · intro texts
      exact only_ok _

theorem only_readTracks (lists : TrackLists) (n track : Nat) (running : Running) :
    Only Overrun (readTracks convert b data lists n track running) := by
  induction n generalizing track running with
  | zero => exact only_ok []
  | succ n ih =>
    apply only_bind
    · apply only_bind (only_read 4)
      intro isrcGenreList2
      apply only_bind (only_readIndexes track _)
      rintro ⟨extra, scratch⟩
      apply only_bind (only_readTrackText track _)
      rintro ⟨texts, scratch'⟩
      exact only_ok _
    · rintro ⟨info, running'⟩
      exact only_bind (ih (track + 1) running') fun _ => only_ok _

theorem only_readAccessList : Only Overrun (readAccessList b data) := by
  unfold readAccessList
  split
  · exact only_ok _
  · apply only_bind (only_readSectors _ _)
    intro scratch
    exact only_bind (only_collect (fun i => only_readBytes _ overrun_outside) _) fun _ => only_ok _

theorem contained_fetchToc (src : TocSource) (lsn : UInt32) (n : UInt16) :
    Contained (fetchToc src lsn n) := by
  unfold fetchToc
  split
  · exact contained_status _
  · split
    · split
      · exact avoids_ok _
      · exact contained_status _
    · exact contained_status _

theorem fetchToc_length {src : TocSource} {lsn : UInt32} {n : UInt16} {b : TocSectors}
    (h : fetchToc src lsn n = .ok b) : b.tocAreaLength = n := by
  unfold fetchToc at h
  split at h
  · cases h
  · split at h
    · split at h
      · cases h
        rfl
      · cases h
    · cases h

end Only

/-! ## What a read comes to -/

section Inside

variable {convert : Convert} {b : TocSectors} {data : AreaData}

/-- The sectors whose signatures are read for as long as they are right. -/
def RequiredInside (b : TocSectors) : Prop :=
  1 < b.tocAreaLength.toNat ∧ (signature (b.sector 1) = trackList1Sign →
    2 < b.tocAreaLength.toNat ∧ (signature (b.sector 2) = trackList2Sign →
      3 < b.tocAreaLength.toNat))

/-- The pointers, the signatures and the channel count let the lists be decoded. -/
def Checked (b : TocSectors) (areaType : AreaType) : Prop :=
  (areaData (b.sector 0)).PointersValid b.tocAreaLength.toNat ∧
    signaturesValid b (b.sector 0) areaType = .ok true ∧
      (areaData (b.sector 0)).ChannelCountValid areaType

/-- The `n` items from `offset` on end in the scratch buffer. -/
def ItemsInside (scratch : Bytes) (items code : Nat) : Nat → Nat → Prop
  | 0, _ => True
  | n + 1, offset =>
    Terminated (scratch.drop (items + offset + 2)) code ∧
      ∀ textLength, stringLength (scratch.drop (items + offset + 2)) code = .ok textLength →
        ItemsInside scratch items code n ((offset + alignFour (textLength % 65536)) % 65536)

/-- The pointer to the texts of a track and channel lies in the scratch buffer, and its block
does. -/
def TextInside (b : TocSectors) (data : AreaData) (track channel : Nat) : Prop :=
  8 + 2 * (channel * data.trackCount + track) + 2 ≤ (textScratch b data).length ∧
    (textItemPtr b data track channel ≠ 0 →
      textItemPtr b data track channel < (textSectors b data).length →
        ItemsInside (textScratch b data) (textItemPtr b data track channel + 4)
          (data.info channel).characterSetCode
          (byteAt (textScratch b data) (textItemPtr b data track channel)) 0)

/-- The offset of an area text. -/
def AreaData.textOffset (data : AreaData) (channel type : Nat) : Nat :=
  (data.areaText.getD channel []).getD type 0

/-- What the decoding of the lists comes to. -/
structure TablesInside (b : TocSectors) (data : AreaData) : Prop where
  areaTexts : ∀ channel type, channel < data.textChannelCount → ¬(data.info channel).Invalid →
    type < maxAreaTextTypeCount → data.textOffset channel type ≠ 0 →
      data.textOffset channel type < lsnSize →
        Terminated (b.buffer.drop (b.headerSize + data.textOffset channel type))
          (data.info channel).characterSetCode
  isrc : data.trackCount ≠ 0 → 4 < b.tocAreaLength.toNat
  texts : ∀ track channel, track < data.trackCount → ChannelRead data channel →
    TextInside b data track channel
  access : data.accessListPtr ≠ 0 → data.accessListPtr + 32 ≤ b.tocAreaLength.toNat ∧
    be (b.sector data.accessListPtr) 8 2 ≤ 13104

/-- What a read of these sectors comes to. -/
structure Inside (b : TocSectors) (areaType : AreaType) : Prop where
  required : (areaData (b.sector 0)).PointersValid b.tocAreaLength.toNat → RequiredInside b
  tables : Checked b areaType → TablesInside b (areaData (b.sector 0))

/-! ## The signatures -/

theorem signed_eq_ok {s : Nat} {sign : Bytes} {valid : Bool} : signed b s sign = .ok valid ↔
    s < b.tocAreaLength.toNat ∧ valid = decide (signature (b.sector s) = sign) := by
  rw [signed, bind_eq_ok]
  constructor
  · rintro ⟨sector, hsector, hvalid⟩
    obtain ⟨hlt, rfl⟩ := (read_eq_ok b).mp hsector
    cases hvalid
    exact ⟨hlt, rfl⟩
  · rintro ⟨hlt, rfl⟩
    exact ⟨_, read_of_lt b hlt, rfl⟩

theorem succeeds_signed {s : Nat} {sign : Bytes} :
    Succeeds (signed b s sign) ↔ s < b.tocAreaLength.toNat := by
  constructor
  · rintro ⟨valid, hvalid⟩
    exact (signed_eq_ok.mp hvalid).1
  · intro h
    exact ⟨_, signed_eq_ok.mpr ⟨h, rfl⟩⟩

theorem signed_true {s : Nat} {sign : Bytes} : signed b s sign = .ok true ↔
    s < b.tocAreaLength.toNat ∧ signature (b.sector s) = sign := by
  rw [signed_eq_ok, eq_comm, decide_eq_true_eq]

theorem succeeds_both {x y : Parse Bool} :
    Succeeds (both x y) ↔ Succeeds x ∧ (x = .ok true → Succeeds y) := by
  rw [both, succeeds_bind]
  constructor
  · rintro ⟨valid, rfl, hy⟩
    refine ⟨succeeds_ok valid, ?_⟩
    intro hvalid
    cases hvalid
    exact hy
  · rintro ⟨⟨valid, rfl⟩, hy⟩
    refine ⟨valid, rfl, ?_⟩
    cases valid with
    | false => exact succeeds_ok false
    | true => exact hy rfl

theorem succeeds_signedIfPresent {s : Nat} {sign : Bytes} :
    Succeeds (signedIfPresent b s sign) ↔ (s ≠ 0 → s < b.tocAreaLength.toNat) := by
  unfold signedIfPresent
  split
  · next hzero => exact ⟨fun _ hne => absurd hzero hne, fun _ => succeeds_ok true⟩
  · next hne =>
    rw [succeeds_signed]
    exact ⟨fun hlt _ => hlt, fun h => h hne⟩

theorem both_eq_true {x y : Parse Bool} : both x y = .ok true ↔ x = .ok true ∧ y = .ok true := by
  rw [both, bind_eq_ok]
  constructor
  · rintro ⟨valid, hx, hy⟩
    cases valid with
    | false => cases hy
    | true => exact ⟨hx, hy⟩
  · rintro ⟨hx, hy⟩
    exact ⟨true, hx, hy⟩

/-- The signatures of the lists that are pointed to are always inside. -/
theorem succeeds_signaturesValid {areaType : AreaType} (first : Bytes)
    (hpointers : (areaData first).PointersValid b.tocAreaLength.toNat) :
    Succeeds (signaturesValid b first areaType) ↔ RequiredInside b := by
  have hoptional : Succeeds (both (signedIfPresent b (areaData first).accessListPtr accessListSign)
      (both (signedIfPresent b (areaData first).trackTextPtr trackTextSign)
        (signedIfPresent b (areaData first).indexListPtr indexListSign))) := by
    rw [succeeds_both, succeeds_both, succeeds_signedIfPresent, succeeds_signedIfPresent,
      succeeds_signedIfPresent]
    exact ⟨hpointers.1, fun _ => ⟨hpointers.2.1, fun _ => hpointers.2.2⟩⟩
  obtain ⟨optional, hoptional⟩ := hoptional
  have hrequired : Succeeds (both (signed b 1 trackList1Sign)
      (both (signed b 2 trackList2Sign) (signed b 3 isrcGenreSign))) ↔ RequiredInside b := by
    rw [succeeds_both, succeeds_both, succeeds_signed, succeeds_signed, succeeds_signed,
      signed_true, signed_true]
    constructor
    · rintro ⟨hone, htwo⟩
      refine ⟨hone, fun hsign₁ => ?_⟩
      obtain ⟨hin, hthree⟩ := htwo ⟨hone, hsign₁⟩
      exact ⟨hin, fun hsign₂ => hthree ⟨hin, hsign₂⟩⟩
    · rintro ⟨hone, htwo⟩
      refine ⟨hone, fun hsign₁ => ?_⟩
      obtain ⟨hin, hthree⟩ := htwo hsign₁.2
      exact ⟨hin, fun hsign₂ => hthree hsign₂.2⟩
  rw [← hrequired, signaturesValid]
  constructor
  · intro h
    obtain ⟨required, hok, -⟩ := succeeds_bind.mp h
    exact ⟨required, hok⟩
  · rintro ⟨required, hok⟩
    rw [bind_of_ok hok, bind_of_ok hoptional]
    exact succeeds_ok _

/-! ## The lists -/

theorem succeeds_readAreaTexts : Succeeds (readAreaTexts convert b data) ↔
    ∀ channel type, channel < data.textChannelCount → ¬(data.info channel).Invalid →
      type < maxAreaTextTypeCount → data.textOffset channel type ≠ 0 →
        data.textOffset channel type < lsnSize →
          Terminated (b.buffer.drop (b.headerSize + data.textOffset channel type))
            (data.info channel).characterSetCode := by
  have hone : ∀ channel type, Succeeds (readAreaText convert b data channel type) ↔
      (data.textOffset channel type ≠ 0 → data.textOffset channel type < lsnSize →
        Terminated (b.buffer.drop (b.headerSize + data.textOffset channel type))
          (data.info channel).characterSetCode) := by
    intro channel type
    change Succeeds (if data.textOffset channel type ≠ 0 ∧ data.textOffset channel type < lsnSize
      then _ else _) ↔ _
    split
    · next hset =>
      rw [succeeds_specialStringToUtf8]
      exact ⟨fun h _ _ => h, fun h => h hset.1 hset.2⟩
    · next hunset => exact ⟨fun _ hne hlt => absurd ⟨hne, hlt⟩ hunset, fun _ => succeeds_ok none⟩
  rw [readAreaTexts, succeeds_collect]
  constructor
  · intro h channel type hchannel hvalid htype
    have htexts := h channel (List.mem_range.mpr hchannel)
    rw [if_neg hvalid, succeeds_collect] at htexts
    exact (hone channel type).mp (htexts type (List.mem_range.mpr htype))
  · intro h channel hchannel
    split
    · exact succeeds_ok []
    · next hvalid =>
      rw [succeeds_collect]
      intro type htype
      exact (hone channel type).mpr
        (h channel type (List.mem_range.mp hchannel) hvalid (List.mem_range.mp htype))

theorem terminated_inside {str : Bytes} {p code : Nat} (h : Terminated (str.drop p) code) :
    p < str.length := by
  by_contra hge
  rw [List.drop_eq_nil_of_le (Nat.not_lt.mp hge)] at h
  unfold Terminated at h
  split at h
  · obtain ⟨k, -, hk, -⟩ := h
    cases hk
  · cases h

theorem succeeds_readItems (scratch : Bytes) (items code n offset : Nat) :
    Succeeds (readItems convert scratch items code n offset) ↔
      ItemsInside scratch items code n offset := by
  induction n generalizing offset with
  | zero => exact ⟨fun _ => trivial, fun _ => succeeds_ok []⟩
  | succ n ih =>
    rw [readItems, ItemsInside, ← succeeds_stringLength]
    constructor
    · intro h
      obtain ⟨type, -, h⟩ := succeeds_bind.mp h
      obtain ⟨text, -, h⟩ := succeeds_bind.mp h
      obtain ⟨len, hlen, h⟩ := succeeds_bind.mp h
      obtain ⟨textLength, hstring, hlen⟩ := bind_eq_ok.mp hlen
      cases hlen
      obtain ⟨rest, hrest, -⟩ := succeeds_bind.mp h
      refine ⟨⟨textLength, hstring⟩, ?_⟩
      intro textLength' hstring'
      rw [hstring] at hstring'
      cases hstring'
      exact (ih _).mp ⟨rest, hrest⟩
    · rintro ⟨⟨textLength, hstring⟩, hrest⟩
      obtain ⟨rest, hrest⟩ := (ih _).mpr (hrest textLength hstring)
      have hterminated : Terminated (scratch.drop (items + offset + 2)) code :=
        (succeeds_stringLength _ _).mp ⟨textLength, hstring⟩
      have hin := terminated_inside hterminated
      rw [bind_of_ok (readBe_of_le _ (show items + offset + 1 ≤ scratch.length by omega)),
        specialStringToUtf8, specialStringLen, hstring]
      change Succeeds ((readItems convert scratch items code n
        ((offset + alignFour (textLength % 65536)) % 65536)) >>= _)
      rw [bind_of_ok hrest]
      exact succeeds_ok _

theorem succeeds_readChannelText {track channel : Nat} :
    Succeeds (readChannelText convert (textScratch b data) (textSectors b data).length data track
      channel) ↔ (¬(data.info channel).Invalid → TextInside b data track channel) := by
  unfold readChannelText
  split
  · next hinvalid => exact ⟨fun _ hvalid => absurd hinvalid hvalid, fun _ => succeeds_ok none⟩
  · next hvalid =>
    have hblock : Succeeds (if textItemPtr b data track channel ≠ 0 ∧
        textItemPtr b data track channel < (textSectors b data).length then (do
          let itemCount ← readBe .outside (textScratch b data) (textItemPtr b data track channel) 1
          let items ← readItems convert (textScratch b data) (textItemPtr b data track channel + 4)
            (data.info channel).characterSetCode itemCount 0
          .ok (some items) : Parse (Option (List TextItem))) else .ok none) ↔
        (textItemPtr b data track channel ≠ 0 →
          textItemPtr b data track channel < (textSectors b data).length →
            ItemsInside (textScratch b data) (textItemPtr b data track channel + 4)
              (data.info channel).characterSetCode
              (byteAt (textScratch b data) (textItemPtr b data track channel)) 0) := by
      split
      · next hset =>
        have hin : textItemPtr b data track channel + 1 ≤ (textScratch b data).length := by
          rw [textScratch, store, List.length_append]
          omega
        rw [bind_of_ok (readBe_of_le _ hin), succeeds_bind_ok, ← be, be_one, succeeds_readItems]
        exact ⟨fun h _ _ => h, fun h => h hset.1 hset.2⟩
      · next hunset =>
        exact ⟨fun _ hne hlt => absurd ⟨hne, hlt⟩ hunset, fun _ => succeeds_ok none⟩
    rw [TextInside, ← hblock]
    constructor
    · intro h _
      obtain ⟨offset, hoffset, h⟩ := succeeds_bind.mp h
      obtain ⟨hin, rfl⟩ := (readBe_eq_ok _).mp hoffset
      exact ⟨hin, h⟩
    · intro h
      obtain ⟨hin, h⟩ := h hvalid
      rw [bind_of_ok (readBe_of_le _ hin)]
      exact h

theorem succeeds_readTexts {track : Nat} : Succeeds (readTexts convert b data track) ↔
    ∀ channel, ChannelRead data channel → TextInside b data track channel := by
  unfold readTexts
  split
  · next hptr => exact ⟨fun _ channel hread => absurd hptr hread.1, fun _ => succeeds_ok []⟩
  · next hptr =>
    rw [succeeds_collect]
    constructor
    · intro h channel hread
      exact succeeds_readChannelText.mp (h channel (List.mem_range.mpr hread.2.1)) hread.2.2
    · intro h channel hchannel
      exact succeeds_readChannelText.mpr fun hvalid =>
        h channel ⟨hptr, List.mem_range.mp hchannel, hvalid⟩

/-- Of a track only its genre and its texts may lie outside. -/
theorem succeeds_readTracks (hpointers : data.PointersValid b.tocAreaLength.toNat)
    (lists : TrackLists) (n track : Nat) (running : Running)
    (hready : Ready b data running.scratch) :
    Succeeds (readTracks convert b data lists n track running) ↔
      (n ≠ 0 → 4 < b.tocAreaLength.toNat) ∧
        ∀ i, i < n → Succeeds (readTexts convert b data (track + i)) := by
  induction n generalizing track running with
  | zero => exact ⟨fun _ => ⟨fun h => absurd rfl h, fun i hi => absurd hi (Nat.not_lt_zero i)⟩,
      fun _ => succeeds_ok []⟩
  | succ n ih =>
    rw [readTracks, readTrack_eq hready hpointers]
    constructor
    · intro h
      obtain ⟨⟨info, running'⟩, hturn, h⟩ := succeeds_bind.mp h
      obtain ⟨isrcGenreList2, hisrc, hturn⟩ := bind_eq_ok.mp hturn
      obtain ⟨texts, htexts, hturn⟩ := bind_eq_ok.mp hturn
      cases hturn
      obtain ⟨infos, hinfos, -⟩ := succeeds_bind.mp h
      have hrest := (ih (track + 1) _ (leftScratch_ready _)).mp ⟨infos, hinfos⟩
      refine ⟨fun _ => ((read_eq_ok b).mp hisrc).1, ?_⟩
      intro i hi
      cases i with
      | zero => exact ⟨texts, htexts⟩
      | succ i =>
        rw [Nat.add_comm i, ← Nat.add_assoc]
        exact hrest.2 i (Nat.lt_of_succ_lt_succ hi)
    · rintro ⟨hisrc, htexts⟩
      obtain ⟨texts, hfirst⟩ := htexts 0 (Nat.succ_pos n)
      rw [Nat.add_zero] at hfirst
      rw [bind_of_ok (read_of_lt b (hisrc (Nat.succ_ne_zero n))), bind_of_ok hfirst]
      have hrest : ∀ i, i < n → Succeeds (readTexts convert b data (track + 1 + i)) := by
        intro i hi
        rw [Nat.add_assoc, Nat.add_comm 1]
        exact htexts (i + 1) (Nat.succ_lt_succ hi)
      obtain ⟨infos, hinfos⟩ := (ih (track + 1) ⟨_, leftScratch b data running.scratch⟩
        (leftScratch_ready _)).mpr ⟨fun _ => hisrc (Nat.succ_ne_zero n), hrest⟩
      exact succeeds_bind.mpr ⟨_, rfl, succeeds_bind.mpr ⟨infos, hinfos, succeeds_ok _⟩⟩

theorem succeeds_readLists : Succeeds (readLists b) ↔ 3 < b.tocAreaLength.toNat := by
  constructor
  · rintro ⟨lists, h⟩
    obtain ⟨trackList1, -, h⟩ := bind_eq_ok.mp h
    obtain ⟨trackList2, -, h⟩ := bind_eq_ok.mp h
    obtain ⟨isrcGenreList1, hisrc, -⟩ := bind_eq_ok.mp h
    exact ((read_eq_ok b).mp hisrc).1
  · intro h
    rw [readLists, bind_of_ok (read_of_lt b (show 1 < _ by omega)),
      bind_of_ok (read_of_lt b (show 2 < _ by omega)), bind_of_ok (read_of_lt b h)]
    exact succeeds_ok _

theorem succeeds_readAccessList : Succeeds (readAccessList b data) ↔
    (data.accessListPtr ≠ 0 → data.accessListPtr + 32 ≤ b.tocAreaLength.toNat ∧
      be (b.sector data.accessListPtr) 8 2 ≤ 13104) := by
  unfold readAccessList
  split
  · next hzero => exact ⟨fun _ hne => absurd hzero hne, fun _ => succeeds_ok _⟩
  · next hptr =>
    have hentries : data.accessListPtr + 32 ≤ b.tocAreaLength.toNat →
        (Succeeds (collect (readAccessEntry (b.sectors data.accessListPtr 32))
          (List.range (be (b.sectors data.accessListPtr 32) 8 2))) ↔
            be (b.sector data.accessListPtr) 8 2 ≤ 13104) := by
      intro hin
      have hlen : (b.sectors data.accessListPtr 32).length = 65536 := by
        rw [sectors_length b hin]
        rfl
      have hcount : be (b.sectors data.accessListPtr 32) 8 2 =
          be (b.sector data.accessListPtr) 8 2 := by
        rw [show 32 = 1 + 31 from rfl, sectors_add, sectors_one, be, be,
          slice_append_left (by rw [sector_length b (by omega)]; decide)]
      rw [hcount, succeeds_collect]
      constructor
      · intro h
        by_contra hgt
        have hlast := h 13104 (List.mem_range.mpr (by omega))
        rw [readAccessEntry, succeeds_readBytes, hlen] at hlast
        omega
      · intro h i hi
        have hlt := List.mem_range.mp hi
        rw [readAccessEntry, succeeds_readBytes, hlen]
        omega
    constructor
    · intro h _
      obtain ⟨scratch, hscratch, h⟩ := succeeds_bind.mp h
      have hin := (succeeds_readSectors b (by decide)).mp ⟨scratch, hscratch⟩
      rw [readSectors_of_le b hin] at hscratch
      cases hscratch
      obtain ⟨entries, hall, -⟩ := succeeds_bind.mp h
      exact ⟨hin, (hentries hin).mp ⟨entries, hall⟩⟩
    · intro h
      obtain ⟨hin, hcount⟩ := h hptr
      obtain ⟨entries, hall⟩ := (hentries hin).mpr hcount
      rw [bind_of_ok (readSectors_of_le b hin), bind_of_ok hall]
      exact succeeds_ok _

/-! ## The whole read -/

theorem contained_decodeLists (hpointers : data.PointersValid b.tocAreaLength.toNat)
    (hlists : 3 < b.tocAreaLength.toNat) :
    Contained (decodeLists convert b data) ↔ TablesInside b data := by
  have htracks : ∀ lists, Succeeds (readTracks convert b data lists data.trackCount 0 ⟨0, []⟩) ↔
      (data.trackCount ≠ 0 → 4 < b.tocAreaLength.toNat) ∧
        ∀ track channel, track < data.trackCount → ChannelRead data channel →
          TextInside b data track channel := by
    intro lists
    rw [succeeds_readTracks hpointers lists _ 0 ⟨0, []⟩ fun _ => .inl rfl]
    simp only [Nat.zero_add, succeeds_readTexts]
    constructor
    · rintro ⟨hisrc, htexts⟩
      exact ⟨hisrc, fun track channel htrack => htexts track htrack channel⟩
    · rintro ⟨hisrc, htexts⟩
      exact ⟨hisrc, fun track htrack channel => htexts track channel htrack⟩
  unfold Contained decodeLists
  rw [only_readAreaTexts.avoids_bind_iff]
  constructor
  · rintro ⟨areaText, hareaText, h⟩
    rw [only_readLists.avoids_bind_iff] at h
    obtain ⟨lists, -, h⟩ := h
    rw [(only_readTracks _ _ _ _).avoids_bind_iff] at h
    obtain ⟨trackInfo, hinfos, h⟩ := h
    rw [only_readAccessList.avoids_bind_iff] at h
    obtain ⟨frameInfo, haccess, -⟩ := h
    obtain ⟨hisrc, htexts⟩ := (htracks lists).mp ⟨trackInfo, hinfos⟩
    exact ⟨succeeds_readAreaTexts.mp ⟨areaText, hareaText⟩, hisrc, htexts,
      succeeds_readAccessList.mp ⟨frameInfo, haccess⟩⟩
  · intro h
    obtain ⟨areaText, hareaText⟩ := succeeds_readAreaTexts.mpr h.areaTexts
    obtain ⟨lists, hok⟩ := succeeds_readLists.mpr hlists
    obtain ⟨trackInfo, hinfos⟩ := (htracks lists).mpr ⟨h.isrc, h.texts⟩
    obtain ⟨frameInfo, haccess⟩ := succeeds_readAccessList.mpr h.access
    refine ⟨areaText, hareaText, ?_⟩
    rw [bind_of_ok hok, bind_of_ok hinfos, bind_of_ok haccess]
    split
    · exact contained_status _
    · exact avoids_ok _

theorem Checked.lists_inside {areaType : AreaType} (h : Checked b areaType) :
    3 < b.tocAreaLength.toNat := by
  obtain ⟨required, hrequired, hvalid⟩ := bind_eq_ok.mp h.2.1
  obtain ⟨optional, -, hvalid⟩ := bind_eq_ok.mp hvalid
  have htrue : required = true := by
    rw [Except.ok.injEq, Bool.and_eq_true, Bool.and_eq_true] at hvalid
    exact hvalid.1.2
  rw [htrue, both_eq_true, both_eq_true, signed_true (s := 3)] at hrequired
  exact hrequired.2.2.1

/-- The decoding of sectors stays inside exactly when what it comes to does. -/
theorem contained_decode {areaType : AreaType} (hsome : 0 < b.tocAreaLength.toNat) :
    Contained (decode convert b areaType) ↔ Inside b areaType := by
  unfold Contained decode
  rw [bind_of_ok (read_of_lt b hsome)]
  split
  · next hinvalid =>
    exact ⟨fun _ => ⟨fun h => absurd h hinvalid, fun h => absurd h.1 hinvalid⟩,
      fun _ => contained_status _⟩
  · next hvalid =>
    have hpointers := not_not.mp hvalid
    rw [(only_signaturesValid _ _).avoids_bind_iff]
    constructor
    · rintro ⟨valid, hsigned, h⟩
      refine ⟨fun _ => (succeeds_signaturesValid _ hpointers).mp ⟨valid, hsigned⟩, ?_⟩
      intro hchecked
      have htrue : valid = true := Except.ok.inj (hsigned.symm.trans hchecked.2.1)
      rw [htrue, if_neg (fun hfalse => Bool.noConfusion hfalse),
        if_neg (not_not.mpr hchecked.2.2)] at h
      exact (contained_decodeLists hpointers hchecked.lists_inside).mp h
    · intro h
      have hsucceeds : Succeeds (signaturesValid b (b.sector 0) areaType) :=
        (succeeds_signaturesValid _ hpointers).mpr (h.required hpointers)
      obtain ⟨valid, hsigned⟩ := hsucceeds
      refine ⟨valid, hsigned, ?_⟩
      split
      · exact contained_status _
      · next hnot =>
        split
        · exact contained_status _
        · next hchannels =>
          rw [Bool.not_eq_false] at hnot
          rw [hnot] at hsigned
          have hchecked : Checked b areaType := ⟨hpointers, hsigned, not_not.mp hchannels⟩
          exact (contained_decodeLists hpointers hchecked.lists_inside).mpr (h.tables hchecked)

end Inside

theorem blank_length : ∀ head ∈ [([] : Bytes)], head.length ≤ lsnSize := by decide

theorem blank_count : [([] : Bytes)].length < 65536 := by decide

/-- One sector of zeros. -/
def blankDisc : BareToc := ⟨[[]], blank_count, blank_length⟩

end DsdNexus.Sacd.Area
