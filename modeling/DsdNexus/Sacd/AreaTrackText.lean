import DsdNexus.Sacd.AreaIndexes

/-! # Track text

The items of a track are kept in one array for every text channel, and in a single count
for all of them: that of the last channel with a block. Every channel is searched and freed
by that count.
-/

namespace DsdNexus.Sacd.Area

open Attempt Endian

/-! ## Lookup and close -/

/-- The search of `sacd_area_toc_get_track_text` from item `idx` on, with `n` items to go. -/
def searchItems (items : List TextItem) (textItem : Nat) : Nat → Nat → Parse (Option TextItem)
  | 0, _ => .ok none
  | n + 1, idx =>
    match items[idx]? with
    | none => .error .outside
    | some item =>
      if item.textType = textItem then .ok (some item) else searchItems items textItem n (idx + 1)

/-- `track_text[channel]` -/
def TrackInfo.text (info : TrackInfo) (channel : Nat) : Option (List TextItem) :=
  info.trackText.getD channel none

/-- `sacd_area_toc_get_track_text`; `none` is a text that is not available. -/
def getTrackText (ctx : Option Toc) (trackNum channelNumber : UInt8) (textItem : Nat) :
    Parse (Option TextItem) :=
  match trackOf ctx trackNum with
  | none => .ok none
  | some info =>
    if channelNumber.toNat < 1 ∨ maxTextChannelCount < channelNumber.toNat then .ok none
    else
      match info.text (channelNumber.toNat - 1) with
      | none => .ok none
      | some items => searchItems items textItem info.trackTextItemCount 0

/-- Free the text of one item. -/
def freeItem (items : List TextItem) (idx : Nat) : Parse Unit :=
  match items[idx]? with
  | none => .error .outside
  | some _ => .ok ()

/-- Free the items of one channel of a track. -/
def freeChannel (info : TrackInfo) (channel : Nat) : Parse (List Unit) :=
  match info.text channel with
  | none => .ok []
  | some items => collect (freeItem items) (List.range info.trackTextItemCount)

/-- The track loop of `sacd_area_toc_close`. -/
def closeTracks (toc : Toc) : Parse (List (List (List Unit))) :=
  collect (fun info => collect (freeChannel info) (List.range maxTextChannelCount)) toc.trackInfo

/-! ## The scratch buffer of the texts -/

section Scratch

variable {convert : Convert} {b : TocSectors} {areaType : AreaType} {toc : Toc} {data : AreaData}

/-- What the read puts together of the track text. -/
def textSectors (b : TocSectors) (data : AreaData) : Bytes :=
  b.sectors data.trackTextPtr (min (b.tocAreaLength.toNat - data.trackTextPtr) 32)

/-- The scratch buffer the texts are read from. -/
def textScratch (b : TocSectors) (data : AreaData) : Bytes :=
  store (indexScratch b data []) (textSectors b data)

/-- The scratch buffer before a track: empty, or as the track before has left it. -/
def Ready (b : TocSectors) (data : AreaData) (scratch : Bytes) : Prop :=
  data.trackTextPtr ≠ 0 → scratch = [] ∨ scratch = textScratch b data

theorem store_twice (x y : Bytes) : store (store (store x y) x) y = store x y := by
  rw [store, store, store, List.append_cancel_left_eq]
  obtain hle | hlt := Nat.le_total x.length y.length
  · rw [List.drop_eq_nil_of_le hle, List.append_nil, List.drop_append, List.drop_eq_nil_of_le hle,
      List.nil_append, List.drop_drop, List.drop_eq_nil_of_le (by omega)]
  · have hdrop : (y ++ x.drop y.length).drop x.length = [] := by
      apply List.drop_eq_nil_of_le
      rw [List.length_append, List.length_drop]
      omega
    rw [hdrop, List.append_nil]

/-- Every track finds the same text in the scratch buffer. -/
theorem Ready.textScratch {scratch : Bytes} (h : Ready b data scratch)
    (hptr : data.trackTextPtr ≠ 0) :
    store (indexScratch b data scratch) (textSectors b data) = Area.textScratch b data := by
  obtain rfl | rfl := h hptr
  · rfl
  · unfold Area.textScratch indexScratch
    by_cases hindex : data.indexListPtr = 0
    · rw [if_pos hindex, if_pos hindex, store, store, List.drop_append_of_le_length (le_refl _),
        List.drop_length, List.nil_append, List.drop_nil]
    · rw [if_neg hindex, if_neg hindex]
      have hempty : store [] (indexSectors b data) = indexSectors b data := by
        rw [store, List.drop_nil, List.append_nil]
      rw [hempty]
      exact store_twice _ _

/-- The texts of a track by channel. -/
def readTexts (convert : Convert) (b : TocSectors) (data : AreaData) (track : Nat) :
    Parse (List (Option (List TextItem))) :=
  if data.trackTextPtr = 0 then .ok []
  else collect (readChannelText convert (textScratch b data) (textSectors b data).length data track)
    (List.range data.textChannelCount)

/-- The scratch buffer a track leaves. -/
def leftScratch (b : TocSectors) (data : AreaData) (scratch : Bytes) : Bytes :=
  if data.trackTextPtr = 0 then indexScratch b data scratch else textScratch b data

theorem leftScratch_ready (scratch : Bytes) : Ready b data (leftScratch b data scratch) :=
  fun hptr => .inr (if_neg hptr)

theorem readTrackText_eq {scratch : Bytes} (h : Ready b data scratch)
    (hptr : data.trackTextPtr ≠ 0 → data.trackTextPtr < b.tocAreaLength.toNat) (track : Nat) :
    readTrackText convert b data track (indexScratch b data scratch) = (do
      let texts ← readTexts convert b data track
      .ok (texts, leftScratch b data scratch)) := by
  unfold readTrackText readTexts leftScratch
  by_cases htext : data.trackTextPtr = 0
  · rw [if_pos htext, if_pos htext, if_pos htext]
    rfl
  · have hfill : fill b data.trackTextPtr 32 = .ok (textSectors b data) := fill_eq b 32 (hptr htext)
    rw [if_neg htext, if_neg htext, if_neg htext, bind_of_ok hfill, h.textScratch htext]

/-- One turn of the track loop: its index points are always read, its texts may not be. -/
theorem readTrack_eq {running : Running} (h : Ready b data running.scratch)
    (hpointers : data.PointersValid b.tocAreaLength.toNat) (lists : TrackLists) (track : Nat) :
    readTrack convert b data lists track running = (do
      let isrcGenreList2 ← b.read 4
      let texts ← readTexts convert b data track
      .ok (trackInfo data lists isrcGenreList2 track running.startFrame (givenStarts b data track)
          texts,
        ⟨trackStart lists track + trackLength lists track,
          leftScratch b data running.scratch⟩)) := by
  unfold readTrack
  cases hisrc : b.read 4 with
  | error e => rfl
  | ok isrcGenreList2 =>
    rw [bind_of_ok rfl, bind_of_ok rfl, bind_of_ok (readIndexes_eq hpointers.2.2 track _)]
    simp only
    rw [readTrackText_eq h hpointers.2.1 track]
    cases readTexts convert b data track with
    | error e => rfl
    | ok texts => rfl

/-- A track of a TOC that was read, in terms of its sectors. -/
structure TrackRead (convert : Convert) (b : TocSectors) (data : AreaData) (track : Nat)
    (info : TrackInfo) : Prop where
  texts : readTexts convert b data track = .ok info.trackText
  count : info.trackTextItemCount = textItemCount info.trackText

theorem readTracks_texts {lists : TrackLists}
    (hpointers : data.PointersValid b.tocAreaLength.toNat) (n track : Nat) (running : Running)
    (hready : Ready b data running.scratch) {infos : List TrackInfo}
    (h : readTracks convert b data lists n track running = .ok infos) :
    ∀ i info, infos[i]? = some info → TrackRead convert b data (track + i) info := by
  induction n generalizing track running infos with
  | zero =>
    cases h
    exact fun i info hi => nomatch hi
  | succ n ih =>
    obtain ⟨⟨first, running'⟩, hfirst, hrest⟩ := bind_eq_ok.mp h
    obtain ⟨rest, hread, hinfos⟩ := bind_eq_ok.mp hrest
    cases hinfos
    rw [readTrack_eq hready hpointers] at hfirst
    obtain ⟨isrcGenreList2, -, hfirst⟩ := bind_eq_ok.mp hfirst
    obtain ⟨texts, htexts, hfirst⟩ := bind_eq_ok.mp hfirst
    cases hfirst
    intro i info hi
    cases i with
    | zero =>
      cases hi
      exact ⟨htexts, rfl⟩
    | succ i =>
      rw [Nat.add_comm i, ← Nat.add_assoc]
      exact ih (track + 1) _ (leftScratch_ready _) hread i info hi

theorem ReadFrom.track (h : ReadFrom convert b areaType toc) {i : Nat} {info : TrackInfo}
    (hi : toc.trackInfo[i]? = some info) : TrackRead convert b toc.data i info := by
  obtain ⟨lists, hdecodes⟩ := decode_eq_ok h.decode
  have hturn := readTracks_texts hdecodes.pointers _ 0 ⟨0, []⟩ (fun _ => .inl rfl) hdecodes.tracks
    i info hi
  rwa [Nat.zero_add] at hturn

end Scratch

/-! ## Accesses by the count of another channel -/

section PerChannel

variable {convert : Convert} {b : TocSectors} {areaType : AreaType} {toc : Toc} {data : AreaData}

/-- Every lookup and the close stay inside the arrays, and a text that is found is one of the
channel asked for. -/
structure PerChannel (toc : Toc) : Prop where
  lookup : ∀ trackNum channelNumber textItem,
    Succeeds (getTrackText (some toc) trackNum channelNumber textItem)
  own : ∀ trackNum channelNumber textItem item,
    getTrackText (some toc) trackNum channelNumber textItem = .ok (some item) →
      ∃ info items, toc.track trackNum = some info ∧
        info.text (channelNumber.toNat - 1) = some items ∧ item ∈ items ∧
          item.textType = textItem
  close : Succeeds (closeTracks toc)

/-- The single count of a track is within every array of the track. -/
def CountFits (info : TrackInfo) : Prop :=
  ∀ channel items, channel < maxTextChannelCount → info.text channel = some items →
    info.trackTextItemCount ≤ items.length

theorem searchItems_inside {items : List TextItem} {textItem : Nat} (n idx : Nat)
    (h : idx + n ≤ items.length) : Succeeds (searchItems items textItem n idx) := by
  induction n generalizing idx with
  | zero => exact succeeds_ok none
  | succ n ih =>
    rw [searchItems, List.getElem?_eq_getElem (show idx < items.length by omega)]
    simp only
    split
    · exact succeeds_ok _
    · exact ih (idx + 1) (by omega)

theorem searchItems_own {items : List TextItem} {textItem : Nat} {item : TextItem} (n idx : Nat)
    (h : searchItems items textItem n idx = .ok (some item)) :
    item ∈ items ∧ item.textType = textItem := by
  induction n generalizing idx with
  | zero => cases h
  | succ n ih =>
    rw [searchItems] at h
    cases hidx : items[idx]? with
    | none => rw [hidx] at h; cases h
    | some found =>
      rw [hidx] at h
      simp only at h
      split at h
      · next htype =>
        cases h
        exact ⟨List.mem_of_getElem? hidx, htype⟩
      · exact ih (idx + 1) h

theorem succeeds_freeItem (items : List TextItem) (idx : Nat) :
    Succeeds (freeItem items idx) ↔ idx < items.length := by
  unfold freeItem
  cases hidx : items[idx]? with
  | none =>
    have hge := List.getElem?_eq_none_iff.mp hidx
    exact ⟨nofun, fun hlt => absurd hlt (Nat.not_lt.mpr hge)⟩
  | some item =>
    exact ⟨fun _ => (List.getElem?_eq_some_iff.mp hidx).1, fun _ => succeeds_ok ()⟩

theorem succeeds_freeChannel (info : TrackInfo) (channel : Nat) :
    Succeeds (freeChannel info channel) ↔
      ∀ items, info.text channel = some items → info.trackTextItemCount ≤ items.length := by
  unfold freeChannel
  cases htext : info.text channel with
  | none => exact ⟨fun _ items hitems => (nomatch hitems), fun _ => succeeds_ok []⟩
  | some items =>
    simp only [succeeds_collect, succeeds_freeItem, List.mem_range, Option.some.injEq]
    constructor
    · rintro h _ rfl
      by_contra hlt
      exact Nat.lt_irrefl _ (h items.length (Nat.not_le.mp hlt))
    · intro h idx hidx
      exact lt_of_lt_of_le hidx (h items rfl)

theorem succeeds_closeTracks (toc : Toc) :
    Succeeds (closeTracks toc) ↔ ∀ info ∈ toc.trackInfo, CountFits info := by
  simp only [closeTracks, succeeds_collect, List.mem_range, succeeds_freeChannel]
  constructor
  · intro h info hinfo channel items hchannel
    exact h info hinfo channel hchannel items
  · intro h info hinfo channel hchannel items
    exact h info hinfo channel items hchannel

theorem track_mem {trackNum : UInt8} {info : TrackInfo} (h : toc.track trackNum = some info) :
    info ∈ toc.trackInfo := by
  unfold Toc.track at h
  split at h
  · cases h
  · exact List.mem_of_getElem? h

/-- The accesses are those of the channel exactly where the counts fit. -/
theorem perChannel_iff_countFits (toc : Toc) :
    PerChannel toc ↔ ∀ info ∈ toc.trackInfo, CountFits info := by
  constructor
  · intro h
    exact (succeeds_closeTracks toc).mp h.close
  · intro h
    refine ⟨?_, ?_, (succeeds_closeTracks toc).mpr h⟩
    · intro trackNum channelNumber textItem
      unfold getTrackText
      cases htrack : trackOf (some toc) trackNum with
      | none => exact succeeds_ok none
      | some info =>
        simp only
        split
        · exact succeeds_ok none
        · next hchannel =>
          cases htext : info.text (channelNumber.toNat - 1) with
          | none => exact succeeds_ok none
          | some items =>
            have hfits := h info (track_mem htrack) _ items (by omega) htext
            exact searchItems_inside _ 0 (by omega)
    · intro trackNum channelNumber textItem item hitem
      unfold getTrackText at hitem
      cases htrack : trackOf (some toc) trackNum with
      | none => rw [htrack] at hitem; cases hitem
      | some info =>
        rw [htrack] at hitem
        simp only at hitem
        split at hitem
        · cases hitem
        · cases htext : info.text (channelNumber.toNat - 1) with
          | none => rw [htext] at hitem; cases hitem
          | some items =>
            rw [htext] at hitem
            obtain ⟨hmem, htype⟩ := searchItems_own _ _ hitem
            exact ⟨info, items, htrack, htext, hmem, htype⟩

/-! ## The counts on the disc -/

/-- Where the block of a track and channel lies, as its pointer says. -/
def textItemPtr (b : TocSectors) (data : AreaData) (track channel : Nat) : Nat :=
  be (textScratch b data) (8 + 2 * (channel * data.trackCount + track)) 2

/-- The channels whose blocks are read. -/
def ChannelRead (data : AreaData) (channel : Nat) : Prop :=
  data.trackTextPtr ≠ 0 ∧ channel < data.textChannelCount ∧ ¬(data.info channel).Invalid

instance (data : AreaData) (channel : Nat) : Decidable (ChannelRead data channel) :=
  inferInstanceAs (Decidable (_ ∧ _))

/-- The number of items the block of a track and channel declares; `none` where there is no
block. -/
def declaredItems (b : TocSectors) (data : AreaData) (track channel : Nat) : Option Nat :=
  if ChannelRead data channel ∧ textItemPtr b data track channel ≠ 0 ∧
      textItemPtr b data track channel < (textSectors b data).length then
    some (byteAt (textScratch b data) (textItemPtr b data track channel))
  else none

/-- The last channel of a track with a block declares no more items than any other. -/
def LastDeclaresLeast (b : TocSectors) (data : AreaData) (track : Nat) : Prop :=
  ∀ channel count last lastCount, declaredItems b data track channel = some count →
    declaredItems b data track last = some lastCount →
      (∀ later, last < later → declaredItems b data track later = none) → lastCount ≤ count

theorem readItems_length {scratch : Bytes} {items code : Nat} (n offset : Nat)
    {texts : List TextItem} (h : readItems convert scratch items code n offset = .ok texts) :
    texts.length = n := by
  induction n generalizing offset texts with
  | zero =>
    cases h
    rfl
  | succ n ih =>
    obtain ⟨type, -, h⟩ := bind_eq_ok.mp h
    obtain ⟨text, -, h⟩ := bind_eq_ok.mp h
    obtain ⟨textLength, -, h⟩ := bind_eq_ok.mp h
    obtain ⟨rest, hrest, h⟩ := bind_eq_ok.mp h
    cases h
    rw [List.length_cons, ih _ hrest]

theorem readChannelText_declared {track channel : Nat} {text : Option (List TextItem)}
    (hptr : data.trackTextPtr ≠ 0) (hchannel : channel < data.textChannelCount)
    (h : readChannelText convert (textScratch b data) (textSectors b data).length data track
      channel = .ok text) :
    text.map List.length = declaredItems b data track channel := by
  unfold readChannelText at h
  unfold declaredItems
  split at h
  · next hinvalid =>
    cases h
    rw [if_neg (fun hread => hread.1.2.2 hinvalid)]
    rfl
  · next hvalid =>
    obtain ⟨offset, hoffset, h⟩ := bind_eq_ok.mp h
    obtain ⟨-, rfl⟩ := (readBe_eq_ok _).mp hoffset
    change (if textItemPtr b data track channel ≠ 0 ∧
      textItemPtr b data track channel < (textSectors b data).length then _ else _) = _ at h
    split at h
    · next hblock =>
      obtain ⟨itemCount, hcount, h⟩ := bind_eq_ok.mp h
      obtain ⟨-, rfl⟩ := (readBe_eq_ok _).mp hcount
      obtain ⟨items, hitems, h⟩ := bind_eq_ok.mp h
      cases h
      rw [if_pos ⟨⟨hptr, hchannel, hvalid⟩, hblock⟩, Option.map_some, readItems_length _ _ hitems]
      exact congrArg some (be_one _ _)
    · next hnone =>
      cases h
      rw [if_neg (fun hread => hnone hread.2)]
      rfl

/-- Every channel has an array of the declared length, or none. -/
theorem TrackRead.declared {track : Nat} {info : TrackInfo}
    (h : TrackRead convert b data track info) (channel : Nat) :
    (info.text channel).map List.length = declaredItems b data track channel := by
  have htexts := h.texts
  unfold readTexts at htexts
  unfold TrackInfo.text
  split at htexts
  · next hptr =>
    rw [← Except.ok.inj htexts, declaredItems, if_neg (fun hread => hread.1.1 hptr)]
    rfl
  · next hptr =>
    obtain ⟨hlen, hall⟩ := collect_range_eq_ok htexts
    by_cases hchannel : channel < data.textChannelCount
    · obtain ⟨text, htext, hread⟩ := hall channel hchannel
      rw [List.getD_eq_getElem?_getD, htext]
      exact readChannelText_declared hptr hchannel hread
    · rw [List.getD_eq_default _ _ (by omega), declaredItems,
        if_neg (fun hread => hchannel hread.1.2.1)]
      rfl

theorem textItemCount_concat (texts : List (Option (List TextItem)))
    (text : Option (List TextItem)) :
    textItemCount (texts ++ [text]) = (text.map List.length).getD (textItemCount texts) := by
  rw [textItemCount, List.foldl_append]
  rfl

/-- The count is that of the last channel with an array. -/
theorem textItemCount_last (texts : List (Option (List TextItem))) {last : Nat}
    {items : List TextItem} (hlast : texts.getD last none = some items)
    (hlater : ∀ later, last < later → texts.getD later none = none) :
    textItemCount texts = items.length := by
  induction texts using List.reverseRecOn with
  | nil => cases hlast
  | append_singleton texts text ih =>
    rw [textItemCount_concat]
    obtain hlt | rfl | hgt := Nat.lt_trichotomy last texts.length
    · have htext := hlater texts.length hlt
      rw [List.getD_append_right _ _ _ _ (le_refl _), Nat.sub_self] at htext
      change text = none at htext
      rw [htext, Option.map_none, Option.getD_none]
      rw [List.getD_append _ _ _ _ hlt] at hlast
      apply ih hlast
      intro later hle
      obtain hin | hout := Nat.lt_or_ge later texts.length
      · rw [← List.getD_append texts [text] none later hin]
        exact hlater later hle
      · exact List.getD_eq_default _ _ hout
    · rw [List.getD_append_right _ _ _ _ (le_refl _), Nat.sub_self] at hlast
      change text = some items at hlast
      rw [hlast]
      rfl
    · rw [List.getD_eq_default _ _ (by rw [List.length_append]; exact hgt)] at hlast
      cases hlast

/-- Where there is an array there is a last one. -/
theorem exists_last (texts : List (Option (List TextItem))) {channel : Nat}
    {items : List TextItem} (h : texts.getD channel none = some items) :
    ∃ last lastItems, texts.getD last none = some lastItems ∧
      ∀ later, last < later → texts.getD later none = none := by
  by_contra hnone
  push Not at hnone
  -- behind every array there would be another one
  have hgrow : ∀ n, ∃ channel items, n ≤ channel ∧ texts.getD channel none = some items := by
    intro n
    induction n with
    | zero => exact ⟨channel, items, Nat.zero_le _, h⟩
    | succ n ih =>
      obtain ⟨channel, items, hle, hitems⟩ := ih
      obtain ⟨later, hlater, hne⟩ := hnone channel items hitems
      obtain ⟨laterItems, hlaterItems⟩ := Option.ne_none_iff_exists'.mp hne
      exact ⟨later, laterItems, by omega, hlaterItems⟩
  obtain ⟨channel, items, hle, hitems⟩ := hgrow texts.length
  rw [List.getD_eq_default _ _ hle] at hitems
  cases hitems

theorem countFits_iff_lastDeclaresLeast (hchannels : data.textChannelCount ≤ maxTextChannelCount)
    {track : Nat} {info : TrackInfo} (h : TrackRead convert b data track info) :
    CountFits info ↔ LastDeclaresLeast b data track := by
  have hdeclared := h.declared
  constructor
  · intro hfits channel count last lastCount hcount hlast hlater
    rw [← hdeclared, Option.map_eq_some_iff] at hcount hlast
    obtain ⟨items, hitems, rfl⟩ := hcount
    obtain ⟨lastItems, hlastItems, rfl⟩ := hlast
    have hnone : ∀ later, last < later → info.text later = none := by
      intro later hlt
      rw [← Option.map_eq_none_iff, hdeclared, hlater later hlt]
    have hchannel : channel < maxTextChannelCount := by
      by_contra hge
      have hout : declaredItems b data track channel = none :=
        if_neg fun hread => hge (lt_of_lt_of_le hread.1.2.1 hchannels)
      rw [← hdeclared, hitems] at hout
      cases hout
    have hle := hfits channel items hchannel hitems
    rwa [h.count, textItemCount_last _ hlastItems hnone] at hle
  · intro hleast channel items _ hitems
    obtain ⟨last, lastItems, hlast, hlater⟩ := exists_last _ hitems
    rw [h.count, textItemCount_last _ hlast hlater]
    apply hleast channel items.length last lastItems.length
    · rw [← hdeclared, hitems]
      rfl
    · rw [← hdeclared, TrackInfo.text, hlast]
      rfl
    · intro later hlt
      rw [← hdeclared, TrackInfo.text, hlater later hlt]
      rfl

theorem ReadFrom.channels_le (h : ReadFrom convert b areaType toc) :
    toc.data.textChannelCount ≤ maxTextChannelCount := by
  obtain ⟨lists, hdecodes⟩ := decode_eq_ok h.decode
  obtain ⟨first, -, hdata, -⟩ := hdecodes.first
  rw [hdata]
  show (if byteAt first 80 ≤ maxTextChannelCount then byteAt first 80 else 0) ≤ _
  split
  · assumption
  · exact Nat.zero_le _

/-- Every access to the texts of a TOC that was read is that of its channel exactly when, in
every track, the last channel with a block declares no more items than any other. -/
theorem perChannel_iff_lastDeclaresLeast (h : ReadFrom convert b areaType toc) :
    PerChannel toc ↔ ∀ track, track < toc.data.trackCount →
      LastDeclaresLeast b toc.data track := by
  obtain ⟨lists, hdecodes⟩ := decode_eq_ok h.decode
  have hlen := (readTracks_eq_ok _ _ _ hdecodes.tracks).1
  rw [perChannel_iff_countFits]
  constructor
  · intro hfits track htrack
    have hinfo : toc.trackInfo[track]? = some toc.trackInfo[track] :=
      List.getElem?_eq_getElem (hlen ▸ htrack)
    exact (countFits_iff_lastDeclaresLeast h.channels_le (h.track hinfo)).mp
      (hfits _ (List.getElem_mem _))
  · intro hleast info hinfo
    obtain ⟨track, htrack, rfl⟩ := List.getElem_of_mem hinfo
    exact (countFits_iff_lastDeclaresLeast h.channels_le
      (h.track (List.getElem?_eq_getElem htrack))).mpr (hleast track (hlen ▸ htrack))

end PerChannel

/-! ## One track with texts in two channels -/

section OneTrack

/-- The texts as they are. -/
def plainConvert : Convert := fun _ text => some text

def oneTrackHead : Bytes := areaHead 30 1 [(0x6e, 1), (0x6e, 1)] 5 0 0

def oneTrackHeads (texts : Bytes) : List Bytes :=
  [oneTrackHead, trackList1Sign,
    trackList2Sign ++ [0, 0, 0, 0] ++ List.replicate 1016 0 ++ [0, 0, 10, 0],
    isrcGenreSign, [], texts]

theorem oneTrackHeads_length {texts : Bytes} (h : texts.length ≤ lsnSize) :
    ∀ head ∈ oneTrackHeads texts, head.length ≤ lsnSize := by
  have hlists : ∀ head ∈ (oneTrackHeads []).take 5, head.length ≤ lsnSize := by
    decide +kernel
  intro head hhead
  obtain hhead | hhead : head ∈ (oneTrackHeads []).take 5 ∨ head ∈ [texts] :=
    List.mem_append.mp hhead
  · exact hlists head hhead
  · rwa [List.mem_singleton.mp hhead]

theorem oneTrackHeads_count (texts : Bytes) : (oneTrackHeads texts).length < 65536 := by
  show 6 < 65536
  decide

/-- The texts take one sector, the last of six. -/
def oneTrackDisc (texts : Bytes) (h : texts.length ≤ lsnSize) : BareToc :=
  ⟨oneTrackHeads texts, oneTrackHeads_count texts, oneTrackHeads_length h⟩

def oneTrackData : AreaData := areaData (padded oneTrackHead)

def oneTrackLists : TrackLists :=
  ⟨padded trackList1Sign, padded ((oneTrackHeads []).getD 2 []), padded isrcGenreSign⟩

def oneTrackInfo (texts : List (Option (List TextItem))) : TrackInfo :=
  trackInfo oneTrackData oneTrackLists (padded []) 0 0 [] texts

def oneTrackToc (texts : List (Option (List TextItem))) : Toc :=
  .accepted oneTrackData [[none, none, none, none], [none, none, none, none]]
    [oneTrackInfo texts] ⟨180, 1, none, none⟩

theorem oneTrack_pointers : oneTrackData.trackTextPtr = 5 ∧ oneTrackData.indexListPtr = 0 ∧
    oneTrackData.trackCount = 1 ∧ oneTrackData.textChannelCount = 2 := by
  decide

theorem oneTrack_areaText : ∀ channel < 2, ¬(oneTrackData.info channel).Invalid ∧
    ∀ type < 4, (oneTrackData.areaText.getD channel []).getD type 0 = 0 := by
  decide +kernel

variable {texts : Bytes} (hlen : texts.length ≤ lsnSize)

theorem oneTrack_textSectors :
    textSectors (oneTrackDisc texts hlen).toc oneTrackData = padded texts := by
  rw [textSectors, oneTrack_pointers.1]
  exact (sectors_one _ _).trans ((oneTrackDisc texts hlen).sector rfl)

theorem oneTrack_textScratch :
    textScratch (oneTrackDisc texts hlen).toc oneTrackData = padded texts := by
  rw [textScratch, indexScratch, if_pos oneTrack_pointers.2.1, oneTrack_textSectors, store,
    List.drop_nil, List.append_nil]

/-- The texts are those of the two channels in the last sector. -/
theorem oneTrackToc_readFrom (hsign : signature (padded texts) = trackTextSign)
    {channelTexts : List (Option (List TextItem))}
    (htexts : collect (readChannelText plainConvert (padded texts) lsnSize oneTrackData 0)
      (List.range 2) = .ok channelTexts) :
    ReadFrom plainConvert (oneTrackDisc texts hlen).toc .twoChannel (oneTrackToc channelTexts) := by
  obtain ⟨htext, hindex, hcount, hchannels⟩ := oneTrack_pointers
  let disc := oneTrackDisc texts hlen
  have hsigned : signaturesValid disc.toc (padded oneTrackHead) .twoChannel = .ok true := by
    apply signaturesValid_true (by decide)
    · exact disc.signed rfl (by decide)
    · exact disc.signed rfl (by decide)
    · exact disc.signed rfl (by decide)
    · rfl
    · exact disc.signed (s := 5) rfl hsign
    · rfl
  have hpointers : oneTrackData.PointersValid disc.toc.tocAreaLength.toNat := by
    rw [disc.tocAreaLength]
    show oneTrackData.PointersValid 6
    decide
  have hgiven : givenStarts disc.toc oneTrackData 0 = [] := if_neg fun hlist => hlist.1 hindex
  have hptr : oneTrackData.trackTextPtr ≠ 0 := by
    rw [htext]
    decide
  have hread : readTexts plainConvert disc.toc oneTrackData 0 = .ok channelTexts := by
    rw [readTexts, if_neg hptr, hchannels, oneTrack_textScratch hlen, oneTrack_textSectors hlen,
      padded_length hlen, htexts]
  have htracks : readTracks plainConvert disc.toc oneTrackData oneTrackLists
      oneTrackData.trackCount 0 ⟨0, []⟩ = .ok [oneTrackInfo channelTexts] := by
    rw [hcount, readTracks, readTrack_eq (fun _ => .inl rfl) hpointers,
      disc.read (s := 4) rfl, hread, hgiven]
    rfl
  have hareaText : readAreaTexts plainConvert disc.toc oneTrackData =
      .ok [[none, none, none, none], [none, none, none, none]] := by
    rw [readAreaTexts, hchannels]
    apply collect_ok (g := fun _ => [none, none, none, none])
    intro channel hchannel
    obtain ⟨hvalid, hnone⟩ := oneTrack_areaText channel (List.mem_range.mp hchannel)
    rw [if_neg hvalid]
    apply collect_ok (g := fun _ => none)
    intro type htype
    exact if_neg fun hset => hset.1 (hnone type (List.mem_range.mp htype))
  exact BareToc.readFrom (BareToc.decodes (d := disc) rfl hsigned hpointers
    (by decide) (by decide) hareaText htracks rfl)

end OneTrack

/-! ## One text in a channel and two in the next -/

def unequalTexts : Bytes :=
  trackTextSign ++ [0, 100, 0, 120] ++ List.replicate 88 0 ++ [1, 0, 0, 0, 1, 0x20, 0x41, 0] ++
    List.replicate 12 0 ++ [2, 0, 0, 0, 1, 0x20, 0x42, 0, 2, 0x20, 0x43, 0]

theorem unequalTexts_length : unequalTexts.length ≤ lsnSize := by decide +kernel

def unequalToc : Toc :=
  oneTrackToc [some [⟨1, some [0x41]⟩], some [⟨1, some [0x42]⟩, ⟨2, some [0x43]⟩]]

theorem unequalToc_readFrom : ReadFrom plainConvert
    (oneTrackDisc unequalTexts unequalTexts_length).toc .twoChannel unequalToc :=
  oneTrackToc_readFrom unequalTexts_length (by decide +kernel) (by decide +kernel)

theorem unequal_perChannel_iff : PerChannel unequalToc ↔
    ∀ track, track < unequalToc.data.trackCount → LastDeclaresLeast
      (oneTrackDisc unequalTexts unequalTexts_length).toc unequalToc.data track :=
  perChannel_iff_lastDeclaresLeast unequalToc_readFrom

/-- A search for a type the first channel has no text of goes on to a second item. -/
theorem unequal_not_perChannel : ¬ ∀ (convert : Convert) (b : TocSectors) (areaType : AreaType)
    (toc : Toc), ReadFrom convert b areaType toc → PerChannel toc := by
  intro h
  obtain ⟨found, hfound⟩ := (h _ _ _ _ unequalToc_readFrom).lookup 1 1 2
  have houtside : getTrackText (some unequalToc) 1 1 2 = .error .outside := by
    decide +kernel
  rw [houtside] at hfound
  cases hfound

end DsdNexus.Sacd.Area
