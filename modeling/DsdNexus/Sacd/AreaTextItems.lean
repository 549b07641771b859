import DsdNexus.Sacd.AreaTrackText

/-! # Text items

A block of text items is a list of records, each with a type, a padding byte, a terminated
text and zeros up to a multiple of four. The read goes on by the aligned length of the text
alone, without the two bytes before it and the terminator behind it.
-/

namespace DsdNexus.Sacd.Area

open Attempt Endian

/-! ## Records -/

/-- `toc_text_t` -/
structure TocText where
  type : UInt8
  padding : UInt8
  text : Bytes
  deriving DecidableEq, Repr

/-- The zero bytes that end a text. -/
def terminator (code : Nat) : Bytes := List.replicate (charsetWidth (codepageIndex code)) 0

/-- A text of whole characters, none of them zero. -/
def IsText (code : Nat) (text : Bytes) : Prop :=
  if charsetWidth (codepageIndex code) = 2 then ∃ n, DoubleText n text else 0 ∉ text

/-- The type, the padding byte and the text. -/
def TocText.head (item : TocText) : Bytes := item.type :: item.padding :: item.text

/-- The zeros up to a multiple of four. -/
def TocText.padding2 (code : Nat) (item : TocText) : Bytes :=
  List.replicate (alignFour (item.head ++ terminator code).length -
    (item.head ++ terminator code).length) 0

def TocText.record (code : Nat) (item : TocText) : Bytes :=
  item.head ++ terminator code ++ item.padding2 code

/-- Consecutive records. -/
def encodeItems (code : Nat) (items : List TocText) : Bytes := items.flatMap (TocText.record code)

/-- The item of a record, with its text converted. -/
def TocText.decoded (convert : Convert) (code : Nat) (item : TocText) : TextItem :=
  ⟨item.type.toNat, convert (codepageIndex code) item.text⟩

/-- The step of the read is as long as the record. -/
def TocText.Stepped (code : Nat) (item : TocText) : Prop :=
  charsetWidth (codepageIndex code) = 1 ∧ item.text.length % 4 = 1

instance (code : Nat) (item : TocText) : Decidable (item.Stepped code) :=
  inferInstanceAs (Decidable (_ ∧ _))

/-- What the step finds when it falls short of the end of a record: the bytes left of the
record as an item with an empty text. -/
def TocText.stray (convert : Convert) (code : Nat) (item : TocText) : TextItem :=
  ⟨byteAt (item.record code) (alignFour item.text.length), convert (codepageIndex code) []⟩

/-- The items that are read of a list of records. -/
def readBack (convert : Convert) (code : Nat) : List TocText → List TextItem
  | [] => []
  | item :: rest => item.decoded convert code ::
    if item.Stepped code then readBack convert code rest
    else List.replicate rest.length (item.stray convert code)

/-- Up to the last item the steps are as long as the records, or the items behind the first
short step are all what that step finds. -/
def Readable (convert : Convert) (code : Nat) : List TocText → Prop
  | [] => True
  | item :: rest =>
    if item.Stepped code then Readable convert code rest
    else ∀ next ∈ rest, next.decoded convert code = item.stray convert code

theorem readBack_eq_iff {convert : Convert} {code : Nat} (items : List TocText) :
    readBack convert code items = items.map (TocText.decoded convert code) ↔
      Readable convert code items := by
  induction items with
  | nil => exact ⟨fun _ => trivial, fun _ => rfl⟩
  | cons item rest ih =>
    rw [readBack, Readable, List.map_cons, List.cons_inj_right]
    split
    · exact ih
    · rw [eq_comm, List.eq_replicate_iff]
      constructor
      · intro h next hnext
        exact h.2 _ (List.mem_map_of_mem hnext)
      · intro h
        refine ⟨List.length_map _, ?_⟩
        intro text htext
        obtain ⟨next, hnext, rfl⟩ := List.mem_map.mp htext
        exact h next hnext

/-! ## One record -/

section Record

variable {convert : Convert} {code : Nat} {item : TocText}

theorem charsetWidth_cases (index : Nat) : charsetWidth index = 1 ∨ charsetWidth index = 2 := by
  unfold charsetWidth
  split
  · exact .inr rfl
  · exact .inl rfl

theorem le_alignFour (n : Nat) : n ≤ alignFour n := by
  unfold alignFour
  omega

theorem record_length (code : Nat) (item : TocText) : (item.record code).length =
    alignFour (item.text.length + 2 + charsetWidth (codepageIndex code)) := by
  have hbody : (item.head ++ terminator code).length =
      item.text.length + 2 + charsetWidth (codepageIndex code) := by
    rw [List.length_append, terminator, List.length_replicate]
    rfl
  rw [TocText.record, List.length_append, TocText.padding2, List.length_replicate, hbody]
  exact Nat.add_sub_cancel' (le_alignFour _)

theorem record_length_stepped (h : item.Stepped code) :
    (item.record code).length = alignFour item.text.length := by
  obtain ⟨hwidth, hlen⟩ := h
  rw [record_length, hwidth, alignFour, alignFour]
  omega

theorem text_even (htext : IsText code item.text)
    (hwidth : charsetWidth (codepageIndex code) = 2) : item.text.length % 2 = 0 := by
  rw [IsText, if_pos hwidth] at htext
  obtain ⟨n, hn⟩ := htext
  rw [hn.length, Nat.mul_mod_right]

/-- A short step leaves four bytes of the record, the last two of them zero. -/
theorem record_drop (htext : IsText code item.text) (h : ¬ item.Stepped code) : ∃ x y,
    (item.record code).drop (alignFour item.text.length) = [x, y, 0, 0] := by
  have hlen := record_length code item
  have hhead : item.head.length = item.text.length + 2 := rfl
  have hzeros : ∃ k, item.record code = item.head ++ List.replicate k 0 := by
    refine ⟨charsetWidth (codepageIndex code) + (alignFour (item.head ++ terminator code).length -
      (item.head ++ terminator code).length), ?_⟩
    rw [List.replicate_add, TocText.record, TocText.padding2, List.append_assoc]
    rfl
  -- the step ends in the head or right behind it
  have hshort : alignFour item.text.length ≤ item.head.length ∧
      (item.record code).length = alignFour item.text.length + 4 := by
    rw [hlen, hhead]
    obtain hwidth | hwidth := charsetWidth_cases (codepageIndex code)
    · have hmod : ¬ item.text.length % 4 = 1 := fun hmod => h ⟨hwidth, hmod⟩
      rw [hwidth, alignFour, alignFour]
      omega
    · have heven := text_even htext hwidth
      rw [hwidth, alignFour, alignFour]
      omega
  obtain ⟨k, hk⟩ := hzeros
  have hk' : item.head.length + k = alignFour item.text.length + 4 := by
    rw [← hshort.2, hk, List.length_append, List.length_replicate]
  have hle := le_alignFour item.text.length
  rw [hk, List.drop_append_of_le_length hshort.1]
  have hrest : (item.head.drop (alignFour item.text.length)).length + k = 4 := by
    rw [List.length_drop]
    omega
  have htwo : (item.head.drop (alignFour item.text.length)).length ≤ 2 := by
    rw [List.length_drop]
    omega
  generalize item.head.drop (alignFour item.text.length) = left at hrest htwo
  match left, hrest, htwo with
  | [], hrest, _ =>
    obtain rfl : k = 4 := by simpa using hrest
    exact ⟨0, 0, rfl⟩
  | [x], hrest, _ =>
    obtain rfl : k = 3 := by
      rw [List.length_singleton] at hrest
      omega
    exact ⟨x, 0, rfl⟩
  | [x, y], hrest, _ =>
    obtain rfl : k = 2 := by
      rw [List.length_cons, List.length_singleton] at hrest
      omega
    exact ⟨x, y, rfl⟩
  | _ :: _ :: _ :: _, _, htwo =>
    rw [List.length_cons, List.length_cons, List.length_cons] at htwo
    omega

theorem stringLength_terminated {text : Bytes} (htext : IsText code text)
    (hlen : text.length < 65536) (rest : Bytes) :
    stringLength (text ++ terminator code ++ rest) code = .ok text.length := by
  rw [List.append_assoc]
  unfold IsText at htext
  unfold stringLength
  split at htext
  · next hwidth =>
    obtain ⟨n, hn⟩ := htext
    have hdouble := hn.length
    rw [if_pos hwidth, terminator, hwidth]
    exact multibyteScan_append hn (by omega) rest
  · next hwidth =>
    obtain hone | htwo := charsetWidth_cases (codepageIndex code)
    · rw [if_neg hwidth, terminator, hone]
      exact strlen_append htext rest
    · exact absurd htwo hwidth

end Record

/-! ## The read of a block -/

section Block

variable {convert : Convert} {code : Nat} {mem : Bytes} {items : Nat}

/-- One item, where its type and its text stand. -/
theorem readItems_cons {n offset : Nat} {type padding : UInt8} {text rest : Bytes}
    (hmem : mem.drop (items + offset) = type :: padding :: (text ++ terminator code ++ rest))
    (htext : IsText code text) (hlen : text.length < 65536)
    (hwrap : offset + alignFour text.length < 65536) :
    readItems convert mem items code (n + 1) offset = (do
      let next ← readItems convert mem items code n (offset + alignFour text.length)
      .ok (⟨type.toNat, convert (codepageIndex code) text⟩ :: next)) := by
  have hin : items + offset + 1 ≤ mem.length := by
    have := congrArg List.length hmem
    rw [List.length_drop, List.length_cons] at this
    omega
  have htype : readBe Stop.outside mem (items + offset) 1 = .ok type.toNat := by
    rw [readBe_of_le _ hin, slice, hmem]
    simp [ofBe, ofLe]
  have hstring : mem.drop (items + offset + 2) = text ++ terminator code ++ rest := by
    rw [← List.drop_drop, hmem]
    rfl
  have hlength : stringLength (mem.drop (items + offset + 2)) code = .ok text.length := by
    rw [hstring, stringLength_terminated htext hlen]
  have hslice : slice mem (items + offset + 2) text.length = text := by
    rw [slice, hstring, List.append_assoc, List.take_left]
  have hutf : specialStringToUtf8 convert mem (items + offset + 2) code =
      .ok (convert (codepageIndex code) text) := by
    rw [specialStringToUtf8, bind_of_ok hlength, hslice]
  have hlen' : specialStringLen mem (items + offset + 2) code = .ok text.length := by
    rw [specialStringLen, bind_of_ok hlength, Nat.mod_eq_of_lt hlen]
  rw [readItems, bind_of_ok htype, bind_of_ok hutf, bind_of_ok hlen', Nat.mod_eq_of_lt hwrap]

/-- An empty text is read over and over. -/
theorem readItems_stuck {n offset : Nat} {type padding : UInt8} {rest : Bytes}
    (hmem : mem.drop (items + offset) = type :: padding :: 0 :: 0 :: rest)
    (hwrap : offset < 65536) :
    readItems convert mem items code n offset =
      .ok (List.replicate n ⟨type.toNat, convert (codepageIndex code) []⟩) := by
  have hempty : IsText code [] := by
    unfold IsText
    split
    · exact ⟨0, .nil⟩
    · exact List.not_mem_nil
  obtain ⟨rest', hrest⟩ : ∃ rest', 0 :: 0 :: rest = [] ++ terminator code ++ rest' := by
    obtain hwidth | hwidth := charsetWidth_cases (codepageIndex code)
    · exact ⟨0 :: rest, by rw [terminator, hwidth]; rfl⟩
    · exact ⟨rest, by rw [terminator, hwidth]; rfl⟩
  induction n with
  | zero => rfl
  | succ n ih =>
    rw [hrest] at hmem
    rw [readItems_cons hmem hempty (by decide) hwrap]
    exact bind_of_ok ih

/-- The items of consecutive records. -/
theorem readItems_encoded (texts : List TocText) (offset : Nat) {tail : Bytes}
    (hmem : mem.drop (items + offset) = encodeItems code texts ++ tail)
    (hlen : mem.length < items + 65536) (htexts : ∀ item ∈ texts, IsText code item.text) :
    readItems convert mem items code texts.length offset =
      .ok (readBack convert code texts) := by
  induction texts generalizing offset with
  | nil => rfl
  | cons item rest ih =>
    have hrecord : mem.drop (items + offset) =
        item.record code ++ (encodeItems code rest ++ tail) := by
      rw [hmem, encodeItems, List.flatMap_cons, List.append_assoc]
      rfl
    have htext := htexts item List.mem_cons_self
    have hsize := congrArg List.length hrecord
    rw [List.length_drop, List.length_append, record_length] at hsize
    have hle := le_alignFour (item.text.length + 2 + charsetWidth (codepageIndex code))
    have hstep : alignFour item.text.length ≤
        alignFour (item.text.length + 2 + charsetWidth (codepageIndex code)) := by
      unfold alignFour
      omega
    have hwrap : offset + alignFour item.text.length < 65536 := by omega
    have hfirst : mem.drop (items + offset) = item.type :: item.padding ::
        (item.text ++ terminator code ++
          (item.padding2 code ++ (encodeItems code rest ++ tail))) := by
      rw [hrecord, TocText.record, TocText.head]
      simp only [List.cons_append, List.append_assoc]
    rw [List.length_cons, readItems_cons hfirst htext (by omega) hwrap, readBack]
    split
    · next hstepped =>
      have hnext : mem.drop (items + (offset + alignFour item.text.length)) =
          encodeItems code rest ++ tail := by
        rw [← Nat.add_assoc, ← List.drop_drop, hrecord, ← record_length_stepped hstepped,
          List.drop_left]
      exact bind_of_ok (ih _ hnext fun next hmem => htexts next (List.mem_cons_of_mem _ hmem))
    · next hshort =>
      obtain ⟨x, y, hleft⟩ := record_drop htext hshort
      have hle : alignFour item.text.length ≤ (item.record code).length := by
        rw [record_length]
        exact hstep
      have hnext : mem.drop (items + (offset + alignFour item.text.length)) =
          x :: y :: 0 :: 0 :: (encodeItems code rest ++ tail) := by
        rw [← Nat.add_assoc, ← List.drop_drop, hrecord, List.drop_append_of_le_length hle, hleft]
        rfl
      have hstray : item.stray convert code = ⟨x.toNat, convert (codepageIndex code) []⟩ := by
        have hx : (item.record code)[alignFour item.text.length]? = some x := by
          rw [← List.head?_drop, hleft, List.head?_cons]
        rw [TocText.stray, byteAt, List.getD_eq_getElem?_getD, hx, Option.getD_some]
      rw [hstray]
      exact bind_of_ok (readItems_stuck hnext hwrap)

end Block

/-! ## The texts of a channel -/

section Channel

variable {convert : Convert} {b : TocSectors} {areaType : AreaType} {toc : Toc} {data : AreaData}
variable {track channel : Nat}

/-- The character set of a text channel. -/
def AreaData.charset (data : AreaData) (channel : Nat) : Nat := (data.info channel).characterSetCode

/-- The pointer of a track and channel in use is at a block of these items, in the sectors the
read puts together. -/
structure TextBlock (b : TocSectors) (data : AreaData) (track channel : Nat)
    (items : List TocText) : Prop where
  used : ChannelRead data channel
  present : textItemPtr b data track channel ≠ 0
  count : items.length < 256
  texts : ∀ item ∈ items, IsText (data.charset channel) item.text
  stored : ∃ reserved rest : Bytes, reserved.length = 3 ∧
    (textSectors b data).drop (textItemPtr b data track channel) =
      UInt8.ofNat items.length :: (reserved ++ (encodeItems (data.charset channel) items ++ rest))

theorem store_nil_length (x y : Bytes) : (store x y).length = max x.length y.length := by
  rw [store, List.length_append, List.length_drop]
  omega

theorem textScratch_length (hpointers : data.PointersValid b.tocAreaLength.toNat)
    (hptr : data.trackTextPtr ≠ 0) : (textScratch b data).length ≤ 65536 := by
  have htexts : (textSectors b data).length ≤ 65536 := by
    rw [textSectors, filled_length b 32 (hpointers.2.1 hptr)]
    exact Nat.mul_le_mul_right lsnSize (Nat.min_le_right _ 32)
  have hindexes : (indexScratch b data []).length ≤ 65536 := by
    unfold indexScratch
    split
    · exact Nat.zero_le _
    · next hlist =>
      rw [store_nil_length, indexSectors_length (hpointers.2.2 hlist), indexScratchSize]
      exact max_le (Nat.zero_le _)
        (le_trans (Nat.mul_le_mul_right lsnSize (Nat.min_le_right _ 10)) (by decide))
  rw [textScratch, store_nil_length]
  exact max_le hindexes htexts

/-- The read of a block takes its items one after the other. -/
theorem readChannelText_block (hpointers : data.PointersValid b.tocAreaLength.toNat)
    {items : List TocText} (h : TextBlock b data track channel items)
    {text : Option (List TextItem)}
    (hread : readChannelText convert (textScratch b data) (textSectors b data).length data track
      channel = .ok text) :
    text = some (readBack convert (data.charset channel) items) := by
  obtain ⟨reserved, rest, hreserved, hstored⟩ := h.stored
  have hin : textItemPtr b data track channel < (textSectors b data).length := by
    have hlen := congrArg List.length hstored
    rw [List.length_drop, List.length_cons] at hlen
    omega
  -- what the index list has left in the scratch buffer lies behind the texts
  obtain ⟨left, hleft⟩ : ∃ left, textScratch b data = textSectors b data ++ left := ⟨_, rfl⟩
  have hblock : (textScratch b data).drop (textItemPtr b data track channel) =
      UInt8.ofNat items.length :: (reserved ++ (encodeItems (data.charset channel) items ++
        (rest ++ left))) := by
    rw [hleft, List.drop_append_of_le_length (Nat.le_of_lt hin), hstored]
    simp only [List.cons_append, List.append_assoc]
  have hitems : (textScratch b data).drop (textItemPtr b data track channel + 4 + 0) =
      encodeItems (data.charset channel) items ++ (rest ++ left) := by
    rw [Nat.add_zero, ← List.drop_drop, hblock, show 4 = 3 + 1 from rfl, List.drop_succ_cons,
      ← hreserved, List.drop_left]
  have hcount : byteAt (textScratch b data) (textItemPtr b data track channel) =
      items.length := by
    have hfirst : (textScratch b data)[textItemPtr b data track channel]? =
        some (UInt8.ofNat items.length) := by
      rw [← List.head?_drop, hblock, List.head?_cons]
    rw [byteAt, List.getD_eq_getElem?_getD, hfirst, Option.getD_some,
      toNat_ofNat_lt h.count]
  have hlen := textScratch_length hpointers h.used.1
  rw [readChannelText, if_neg h.used.2.2] at hread
  obtain ⟨offset, hoffset, hread⟩ := bind_eq_ok.mp hread
  obtain ⟨-, rfl⟩ := (readBe_eq_ok _).mp hoffset
  change (if textItemPtr b data track channel ≠ 0 ∧
    textItemPtr b data track channel < (textSectors b data).length then _ else _) = _ at hread
  rw [if_pos ⟨h.present, hin⟩] at hread
  obtain ⟨itemCount, hitemCount, hread⟩ := bind_eq_ok.mp hread
  obtain ⟨-, rfl⟩ := (readBe_eq_ok _).mp hitemCount
  obtain ⟨texts, htexts, hread⟩ := bind_eq_ok.mp hread
  cases hread
  change readItems convert (textScratch b data) (textItemPtr b data track channel + 4)
    (data.charset channel) (be (textScratch b data) (textItemPtr b data track channel) 1) 0 =
      _ at htexts
  rw [be_one, hcount, readItems_encoded items 0 hitems (by omega) h.texts] at htexts
  rw [Except.ok.inj htexts]

theorem TrackRead.text_block {info : TrackInfo} (h : TrackRead convert b data track info)
    (hpointers : data.PointersValid b.tocAreaLength.toNat) {items : List TocText}
    (hblock : TextBlock b data track channel items) :
    info.text channel = some (readBack convert (data.charset channel) items) := by
  have htexts := h.texts
  rw [readTexts, if_neg hblock.used.1] at htexts
  obtain ⟨text, htext, hread⟩ := (collect_range_eq_ok htexts).2 channel hblock.used.2.1
  rw [TrackInfo.text, List.getD_eq_getElem?_getD, htext, Option.getD_some]
  exact readChannelText_block hpointers hblock hread

end Channel

/-! ## A text of two bytes with another behind it -/

def shortStepItems : List TocText := [⟨1, 0x20, [0x41, 0x42]⟩, ⟨2, 0x20, [0x43]⟩]

def shortStepTexts : Bytes :=
  trackTextSign ++ [0, 100] ++ List.replicate 90 0 ++ [2, 0, 0, 0] ++ encodeItems 1 shortStepItems

theorem shortStepTexts_length : shortStepTexts.length ≤ lsnSize := by decide

def shortStepDisc : BareToc := oneTrackDisc shortStepTexts shortStepTexts_length

/-- The second item is read at the terminator of the first. -/
def shortStepToc : Toc := oneTrackToc [some [⟨1, some [0x41, 0x42]⟩, ⟨0, some []⟩], none]

theorem shortStepToc_readFrom :
    ReadFrom plainConvert shortStepDisc.toc .twoChannel shortStepToc :=
  oneTrackToc_readFrom shortStepTexts_length (by decide +kernel) (by decide +kernel)

theorem shortStep_block : TextBlock shortStepDisc.toc shortStepToc.data 0 0 shortStepItems := by
  have hptr : textItemPtr shortStepDisc.toc oneTrackData 0 0 = 100 := by
    rw [textItemPtr, shortStepDisc, oneTrack_textScratch]
    decide
  refine ⟨?_, ?_, by decide, ?_, ?_⟩
  · decide
  · show textItemPtr shortStepDisc.toc oneTrackData 0 0 ≠ 0
    rw [hptr]
    decide
  · have hcharset : shortStepToc.data.charset 0 = 1 := by decide
    rw [hcharset]
    intro item hitem
    rw [IsText, if_neg (by decide)]
    revert item
    decide
  · refine ⟨[0, 0, 0], List.replicate 1932 0, rfl, ?_⟩
    show (textSectors shortStepDisc.toc oneTrackData).drop
      (textItemPtr shortStepDisc.toc oneTrackData 0 0) = _
    rw [hptr, shortStepDisc, oneTrack_textSectors]
    decide +kernel

end DsdNexus.Sacd.Area
