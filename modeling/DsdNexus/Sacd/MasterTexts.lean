import DsdNexus.Sacd.DsdReader
import DsdNexus.Sacd.MasterToc

/-! # The texts of the master TOC

A text is read up to the first zero character of its character set, wherever that is. It is
the text of its sector exactly where that character starts in the sector, or where the sector
ends; the manufacturer information needs a terminator behind it, for its length is taken too.
-/

namespace DsdNexus.Sacd.Master

open Attempt
open Area (be signature makeMarker64 ChannelInfo maxTextChannelCount)

/-! ## Scans -/

section Scans

theorem width_eq_one {code : Nat} (h : ¬ charsetWidth (codepageIndex code) = 2) :
    width code = 1 := by
  unfold width charsetWidth at *
  split at h
  · exact absurd rfl h
  · next hsingle => rw [if_neg hsingle]

theorem zeroAt_iff_of_one {code : Nat} (h : ¬ charsetWidth (codepageIndex code) = 2) {mem : Bytes}
    {p : Nat} : ZeroAt mem code p ↔ mem[p]? = some 0 := by
  rw [ZeroAt, width_eq_one h]
  constructor
  · intro hzero
    exact hzero 0 Nat.zero_lt_one
  · intro hzero i hi
    rwa [Nat.lt_one_iff.1 hi]

theorem zeroAt_iff_of_two {code : Nat} (h : charsetWidth (codepageIndex code) = 2) {mem : Bytes}
    {p : Nat} : ZeroAt mem code p ↔ mem[p]? = some 0 ∧ mem[p + 1]? = some 0 := by
  have hwidth : width code = 2 := h
  rw [ZeroAt, hwidth]
  constructor
  · intro hzero
    exact ⟨hzero 0 Nat.zero_lt_two, hzero 1 Nat.one_lt_two⟩
  · intro hzero i hi
    rcases i with - | - | i
    · exact hzero.1
    · exact hzero.2
    · omega

theorem width_pos (code : Nat) : 0 < width code := by
  unfold width charsetWidth
  split <;> decide

theorem zeroAt_drop {mem : Bytes} {code p q : Nat} :
    ZeroAt (mem.drop p) code q ↔ ZeroAt mem code (p + q) := by
  simp only [ZeroAt, List.getElem?_drop, Nat.add_assoc]

/-- A zero character lies in its memory. -/
theorem ZeroAt.inside {mem : Bytes} {code p : Nat} (h : ZeroAt mem code p) : p < mem.length := by
  obtain ⟨hlt, -⟩ := List.getElem?_eq_some_iff.1 (h 0 (width_pos code))
  exact hlt

theorem strlen_eq_ok {str : Bytes} {len : Nat} (h : strlen str = .ok len) :
    str[len]? = some 0 ∧ ∀ j < len, str[j]? ≠ some 0 := by
  induction str generalizing len with
  | nil => cases h
  | cons b rest ih =>
    rw [strlen] at h
    split at h
    · next hb =>
      cases h
      exact ⟨congrArg some hb, fun j hj => absurd hj (Nat.not_lt_zero j)⟩
    · next hb =>
      obtain ⟨n, hn, hlen⟩ := bind_eq_ok.1 h
      cases hlen
      obtain ⟨hzero, hbefore⟩ := ih hn
      refine ⟨hzero, fun j hj => ?_⟩
      cases j with
      | zero => exact fun heq => hb (Option.some.inj heq)
      | succ j => exact hbefore j (Nat.lt_of_succ_lt_succ hj)

theorem multibyteScan_eq_ok {n : Nat} {str : Bytes} {len : Nat}
    (h : multibyteScan n str = .ok len) :
    ∃ k, len = k * 2 ∧ (str[len]? = some 0 ∧ str[len + 1]? = some 0) ∧
      ∀ j < k, ¬(str[j * 2]? = some 0 ∧ str[j * 2 + 1]? = some 0) := by
  induction n, str using multibyteScan.induct generalizing len with
  | case1 str => cases h
  | case2 n => cases h
  | case3 n => cases h
  | case4 n b hb ih =>
    rw [multibyteScan, if_neg hb] at h
    obtain ⟨k, -, ⟨hzero, -⟩, -⟩ := ih h
    cases hzero
  | case5 n b c rest hzero =>
    rw [multibyteScan, if_pos hzero] at h
    cases h
    exact ⟨0, rfl, ⟨congrArg some hzero.1, congrArg some hzero.2⟩,
      fun j hj => absurd hj (Nat.not_lt_zero j)⟩
  | case6 n b c rest hzero ih =>
    rw [multibyteScan, if_neg hzero] at h
    obtain ⟨m, hm, hlen⟩ := bind_eq_ok.1 h
    cases hlen
    obtain ⟨k, rfl, hend, hbefore⟩ := ih hm
    refine ⟨k + 1, by omega, hend, fun j hj => ?_⟩
    cases j with
    | zero =>
      intro hpair
      exact hzero ⟨Option.some.inj hpair.1, Option.some.inj hpair.2⟩
    | succ j =>
      rw [Nat.succ_mul]
      exact hbefore j (Nat.lt_of_succ_lt_succ hj)

/-- The length found is that up to the first zero character. -/
theorem stringLength_eq_ok {str : Bytes} {code len : Nat} (h : stringLength str code = .ok len) :
    ∃ k, len = k * width code ∧ ZeroAt str code len ∧
      ∀ j < k, ¬ ZeroAt str code (j * width code) := by
  unfold stringLength at h
  split at h
  · next hwidth =>
    obtain ⟨k, hlen, hend, hbefore⟩ := multibyteScan_eq_ok h
    have hw : width code = 2 := hwidth
    simp only [zeroAt_iff_of_two hwidth, hw]
    exact ⟨k, hlen, hend, hbefore⟩
  · next hwidth =>
    obtain ⟨hend, hbefore⟩ := strlen_eq_ok h
    simp only [zeroAt_iff_of_one hwidth, width_eq_one hwidth, Nat.mul_one]
    exact ⟨len, rfl, hend, hbefore⟩

theorem terminated_of_zeroAt {str : Bytes} {code k : Nat} (hk : k < 32768)
    (h : ZeroAt str code (k * width code)) : Terminated str code := by
  unfold Terminated
  split
  · next hwidth =>
    have hw : width code = 2 := hwidth
    rw [zeroAt_iff_of_two hwidth, hw, Nat.mul_comm] at h
    exact ⟨k, hk, h⟩
  · next hwidth =>
    rw [zeroAt_iff_of_one hwidth] at h
    exact List.mem_of_getElem? h

/-- A scan in a small memory ends there, or leaves it. -/
theorem only_multibyteScan {n : Nat} {str : Bytes} (h : str.length + 1 < 2 * n) :
    Only (· = .outside) (multibyteScan n str) := by
  induction n, str using multibyteScan.induct with
  | case1 str => exact absurd h (Nat.not_lt_zero _)
  | case2 n => exact only_error rfl
  | case3 n => exact only_error rfl
  | case4 n b hb ih =>
    rw [multibyteScan, if_neg hb]
    exact ih (by simp at h ⊢; omega)
  | case5 n b c rest hzero =>
    rw [multibyteScan, if_pos hzero]
    exact only_ok 0
  | case6 n b c rest hzero ih =>
    rw [multibyteScan, if_neg hzero]
    exact only_bind (ih (by simp at h; omega)) fun len => only_ok _

theorem only_strlen (str : Bytes) : Only (· = .outside) (strlen str) := by
  induction str with
  | nil => exact only_error rfl
  | cons b rest ih =>
    rw [strlen]
    split
    · exact only_ok 0
    · exact only_bind ih fun len => only_ok _

theorem only_stringLength {str : Bytes} (h : str.length + 1 < 65536) (code : Nat) :
    Only (· = .outside) (stringLength str code) := by
  unfold stringLength
  split
  · exact only_multibyteScan h
  · exact only_strlen str

theorem succeeds_saStrlcpy {n : Nat} {src : Bytes} : Succeeds (saStrlcpy n src) ↔ 0 ∈ src := by
  induction n, src using saStrlcpy.induct with
  | case1 n => exact ⟨fun h => absurd h (not_succeeds_error _), fun h => absurd h List.not_mem_nil⟩
  | case2 n rest =>
    rw [saStrlcpy, if_pos rfl, succeeds_bind_ok (g := fun _ => []), succeeds_strlen]
  | case3 n b rest hb ih =>
    rw [saStrlcpy, if_neg hb, succeeds_bind_ok (g := fun copied => b :: copied), ih,
      List.mem_cons, or_iff_right (Ne.symm hb)]
  | case4 src => rw [saStrlcpy, succeeds_bind_ok (g := fun _ => []), succeeds_strlen]

theorem only_saStrlcpy (n : Nat) (src : Bytes) : Only (· = .outside) (saStrlcpy n src) := by
  induction n, src using saStrlcpy.induct with
  | case1 n => exact only_error rfl
  | case2 n rest =>
    rw [saStrlcpy, if_pos rfl]
    exact only_bind (only_strlen _) fun len => only_ok _
  | case3 n b rest hb ih =>
    rw [saStrlcpy, if_neg hb]
    exact only_bind ih fun copied => only_ok _
  | case4 src => exact only_bind (only_strlen _) fun len => only_ok _

end Scans

/-! ## The sectors read -/

section Reads

variable (b : Sectors)

theorem sectorSize_small : b.format.sectorSize ≤ 2064 := by
  cases b.format <;> decide

theorem start_inside {s : Nat} (hs : s < 10) : b.start s + lsnSize ≤ b.buffer.length := by
  have hfits : b.format.headerSize + lsnSize ≤ b.format.sectorSize := by
    unfold SectorFormat.sectorSize
    omega
  have hle := Nat.mul_le_mul_right b.format.sectorSize (Nat.succ_le_of_lt hs)
  rw [Nat.succ_mul] at hle
  rw [b.buffer_length, Sectors.start]
  omega

theorem read_eq {s : Nat} (hs : s < 10) : b.read s = .ok (b.sector s) :=
  readBytes_of_le _ (start_inside b hs)

theorem sector_length {s : Nat} (hs : s < 10) : (b.sector s).length = lsnSize :=
  slice_length_of_le (start_inside b hs)

/-- A byte of a sector. -/
theorem sector_getElem? {s i : Nat} (hi : i < lsnSize) :
    (b.sector s)[i]? = b.buffer[b.start s + i]? := by
  rw [Sectors.sector, slice, List.getElem?_take_of_lt hi, List.getElem?_drop]

theorem ZeroAt.of_sector {s code p : Nat} (h : ZeroAt (b.sector s) code p) :
    ZeroAt b.buffer code (b.start s + p) := by
  intro i hi
  have hsome := h i hi
  rw [Sectors.sector, slice, List.getElem?_take] at hsome
  split at hsome
  · rwa [List.getElem?_drop, ← Nat.add_assoc] at hsome
  · cases hsome

theorem ZeroAt.sector {s code p : Nat} (h : ZeroAt b.buffer code (b.start s + p))
    (hin : p + width code ≤ lsnSize) : ZeroAt (b.sector s) code p := by
  intro i hi
  rw [sector_getElem? b (by omega), ← Nat.add_assoc]
  exact h i hi

theorem textChannelCount_le (header : Bytes) : textChannelCount header ≤ 8 := by
  unfold textChannelCount
  split
  · next hle => exact hle
  · exact Nat.zero_le 8

theorem buffer_small : b.buffer.length + 1 < 65536 := by
  have hsize := sectorSize_small b
  rw [b.buffer_length]
  omega

theorem drop_small (p : Nat) : (b.buffer.drop p).length + 1 < 65536 := by
  have hsmall := buffer_small b
  rw [List.length_drop]
  omega

end Reads

/-! ## One text -/

section Text

variable {convert : Convert} {b : Sectors} {channel ptr : Nat}

/-- The text read for a pointer of a channel. -/
abbrev textAtPtr (convert : Convert) (b : Sectors) (channel ptr : Nat) : Parse (Option Bytes) :=
  readText convert b channel (channelInfo (b.sector 0) channel).characterSetCode
    (b.sector (channel + 1)) ptr

/-- A text that ends in its sector is read whole, and only it. -/
theorem converted_of_ends (hchannel : channel < 8) (hends : EndsInside b channel ptr)
    {stored : Option Bytes} (h : textAtPtr convert b channel ptr = .ok stored) :
    Converted convert b channel ptr stored := by
  intro text htext
  subst htext
  unfold EndsInside at hends
  unfold textAtPtr readText at h
  generalize hcode : (channelInfo (b.sector 0) channel).characterSetCode = code at *
  generalize hoffset : be (b.sector (channel + 1)) ptr 2 = o at *
  simp only [] at h hends
  split at h
  · next hcheck =>
    have hsize := sectorSize_small b
    obtain ⟨len, hlen, htext⟩ := bind_eq_ok.1 h
    obtain ⟨k, rfl, hzero, hbefore⟩ := stringLength_eq_ok hlen
    simp only [zeroAt_drop, Nat.add_assoc] at hzero hbefore
    obtain ⟨k', hk', hzero'⟩ := hends hcheck.1 (by omega)
    have hfirst : k ≤ k' := by
      by_contra hlt
      exact hbefore k' (by omega) hzero'
    have hmul : k * width code ≤ k' * width code := Nat.mul_le_mul_right _ hfirst
    have hlength : (slice (b.sector (channel + 1)) o (k * width code)).length =
        k * width code := slice_length_of_le (by rw [sector_length b (by omega)]; omega)
    refine ⟨slice (b.sector (channel + 1)) o (k * width code), ⟨?_, ?_, ?_, ?_, ?_⟩, ?_⟩
    · rw [hlength, sector_length b (by omega)]
      omega
    · rw [hlength]
    · rw [hlength]
      exact Nat.dvd_mul_left _ _
    · intro j hj hzeroAt
      rw [hlength] at hj
      exact hbefore j (Nat.lt_of_mul_lt_mul_right hj) (ZeroAt.of_sector b hzeroAt)
    · rw [hlength, sector_length b (by omega)]
      by_cases hroom : o + k * width code + width code ≤ lsnSize
      · exact .inl (ZeroAt.sector b hzero hroom)
      · exact .inr (by omega)
    · have hslice : slice (b.sector (channel + 1)) o (k * width code) =
          slice b.buffer (b.start (channel + 1) + o) (k * width code) :=
        slice_slice (by omega)
      rw [hslice]
      exact Except.ok.inj htext
  · cases h

/-- A text that is stored as its bytes and is that of its sector ends in its sector. -/
theorem ends_of_converted {stored : Option Bytes} (hchannel : channel < 8)
    (h : textAtPtr (fun _ bytes => some bytes) b channel ptr = .ok stored)
    (hconverted : Converted (fun _ bytes => some bytes) b channel ptr stored) :
    EndsInside b channel ptr := by
  unfold EndsInside
  unfold textAtPtr readText at h
  unfold Converted at hconverted
  generalize hcode : (channelInfo (b.sector 0) channel).characterSetCode = code at *
  generalize hoffset : be (b.sector (channel + 1)) ptr 2 = o at *
  simp only [] at h ⊢
  intro hnonzero hsize
  have hsmall := sectorSize_small b
  rw [if_pos ⟨hnonzero, by omega⟩] at h
  obtain ⟨len, hlen, hstored⟩ := bind_eq_ok.1 h
  obtain ⟨k, rfl, hzero, -⟩ := stringLength_eq_ok hlen
  rw [zeroAt_drop, Nat.add_assoc] at hzero
  obtain ⟨source, hsource, hbytes⟩ := hconverted _ (Except.ok.inj hstored).symm
  have hin := hsource.inside
  rw [Option.some.inj hbytes, slice_length_of_le (by have := hzero.inside; omega),
    sector_length b (by omega)] at hin
  exact ⟨k, hin, hzero⟩

theorem succeeds_of_ends (hends : EndsInside b channel ptr) :
    Succeeds (textAtPtr convert b channel ptr) := by
  unfold EndsInside at hends
  unfold textAtPtr readText
  generalize (channelInfo (b.sector 0) channel).characterSetCode = code at *
  generalize be (b.sector (channel + 1)) ptr 2 = o at *
  simp only [] at hends ⊢
  split
  · next hcheck =>
    have hsize := sectorSize_small b
    obtain ⟨k, hk, hzero⟩ := hends hcheck.1 (by omega)
    have hlsn : lsnSize = 2048 := rfl
    have hk' : k ≤ k * width code := Nat.le_mul_of_pos_right k (width_pos code)
    refine (succeeds_specialStringToUtf8 _ _ _ _).2 (terminated_of_zeroAt (k := k) (by omega) ?_)
    rwa [zeroAt_drop, Nat.add_assoc]
  · exact succeeds_ok none

theorem only_readText {code : Nat} {textSector : Bytes} :
    Only (· = .outside) (readText convert b channel code textSector ptr) := by
  unfold readText
  simp only []
  split
  · exact only_bind (only_stringLength (drop_small b _) code) fun len => only_ok _
  · exact only_ok none

end Text

/-! ## The texts of all channels -/

section Channels

variable {convert : Convert} {b : Sectors} {channel : Nat}

/-- What is stored for the pointer of a type is what is read for it, where there is one. -/
def Stored (convert : Convert) (b : Sectors) (ptr channel type : Nat) (stored : Option Bytes) :
    Prop :=
  if channel < textChannelCount (b.sector 0) ∧ ¬ (channelInfo (b.sector 0) channel).Invalid ∧
      type < maxTextTypeCount then
    textAtPtr convert b channel (ptr + 2 * type) = .ok stored
  else stored = none

theorem readTexts_stored {ptr code : Nat} {textSector : Bytes} {texts : List (Option Bytes)}
    (h : readTexts convert b channel code textSector ptr = .ok texts) (type : Nat) :
    if type < maxTextTypeCount then
      readText convert b channel code textSector (ptr + 2 * type) = .ok (texts.getD type none)
    else texts.getD type none = none := by
  obtain ⟨hlength, hall⟩ := collect_range_eq_ok h
  split
  · next htype =>
    obtain ⟨text, hget, htext⟩ := hall type htype
    rw [List.getD_eq_getElem?_getD, hget]
    exact htext
  · next htype => exact List.getD_eq_default _ _ (by omega)

/-- The texts of a channel in use; `part` is one of the two. -/
theorem readChannel_parts {texts : List (Option Bytes) × List (Option Bytes)}
    (hchannel : channel < 8) (h : readChannel convert b (b.sector 0) channel = .ok texts) :
    if (channelInfo (b.sector 0) channel).Invalid then texts = ([], [])
    else readTexts convert b channel (channelInfo (b.sector 0) channel).characterSetCode
        (b.sector (channel + 1)) albumPtr = .ok texts.1 ∧
      readTexts convert b channel (channelInfo (b.sector 0) channel).characterSetCode
        (b.sector (channel + 1)) discPtr = .ok texts.2 := by
  rw [readChannel] at h
  split at h
  · next hinvalid =>
    rw [if_pos hinvalid]
    exact (Except.ok.inj h).symm
  · next hvalid =>
    rw [if_neg hvalid]
    rw [bind_of_ok (read_eq b (by omega))] at h
    obtain ⟨album, halbum, hrest⟩ := bind_eq_ok.1 h
    obtain ⟨disc, hdisc, heq⟩ := bind_eq_ok.1 hrest
    cases heq
    exact ⟨halbum, hdisc⟩

theorem stored_of_parts {texts : List (List (Option Bytes) × List (Option Bytes))}
    (hcollect : collect (readChannel convert b (b.sector 0))
      (List.range (textChannelCount (b.sector 0))) = .ok texts)
    {part : List (Option Bytes) × List (Option Bytes) → List (Option Bytes)} {ptr : Nat}
    (hnone : part ([], []) = [])
    (hpart : ∀ channel t, channel < 8 → readChannel convert b (b.sector 0) channel = .ok t →
      ¬ (channelInfo (b.sector 0) channel).Invalid →
      readTexts convert b channel (channelInfo (b.sector 0) channel).characterSetCode
        (b.sector (channel + 1)) ptr = .ok (part t)) (channel type : Nat) :
    Stored convert b ptr channel type (((texts.map part).getD channel []).getD type none) := by
  obtain ⟨hlength, hall⟩ := collect_range_eq_ok hcollect
  have hcount := textChannelCount_le (b.sector 0)
  unfold Stored
  by_cases hchannel : channel < textChannelCount (b.sector 0)
  · obtain ⟨t, hget, ht⟩ := hall channel hchannel
    have hmap : (texts.map part).getD channel [] = part t := by
      rw [List.getD_eq_getElem?_getD, List.getElem?_map, hget]
      rfl
    rw [hmap]
    by_cases hvalid : (channelInfo (b.sector 0) channel).Invalid
    · have hparts := readChannel_parts (by omega) ht
      rw [if_pos hvalid] at hparts
      rw [if_neg (fun hall => hall.2.1 hvalid), hparts, hnone]
      rfl
    · have hstored := readTexts_stored (hpart channel t (by omega) ht hvalid) type
      by_cases htype : type < maxTextTypeCount
      · rw [if_pos ⟨hchannel, hvalid, htype⟩]
        rwa [if_pos htype] at hstored
      · rw [if_neg (fun hall => htype hall.2.2)]
        rwa [if_neg htype] at hstored
  · rw [if_neg (fun hall => hchannel hall.1), List.getD_eq_default (texts.map part) [] (by
      rw [List.length_map]
      omega)]
    rfl

/-- What the fields with the texts hold. -/
theorem extract_texts {toc : MasterToc} (h : extract convert b (b.sector 0) = .ok toc) :
    (∀ channel type, Stored convert b albumPtr channel type (toc.albumInfo.textAt channel type)) ∧
    ∀ channel type, Stored convert b discPtr channel type (toc.discInfo.textAt channel type) := by
  obtain ⟨manufacturerInfo, -, h⟩ := bind_eq_ok.1 h
  obtain ⟨webLinkInfo, -, h⟩ := bind_eq_ok.1 h
  obtain ⟨discCatalogNum, -, h⟩ := bind_eq_ok.1 h
  obtain ⟨albumCatalogNum, -, h⟩ := bind_eq_ok.1 h
  obtain ⟨texts, hcollect, heq⟩ := bind_eq_ok.1 h
  cases heq
  constructor
  · refine stored_of_parts hcollect rfl fun channel t hchannel ht hvalid => ?_
    have hparts := readChannel_parts hchannel ht
    rw [if_neg hvalid] at hparts
    exact hparts.1
  · refine stored_of_parts hcollect rfl fun channel t hchannel ht hvalid => ?_
    have hparts := readChannel_parts hchannel ht
    rw [if_neg hvalid] at hparts
    exact hparts.2

theorem succeeds_readChannel (hchannel : channel < 8)
    (hends : ¬ (channelInfo (b.sector 0) channel).Invalid → ∀ type < maxTextTypeCount,
      EndsInside b channel (albumPtr + 2 * type) ∧ EndsInside b channel (discPtr + 2 * type)) :
    Succeeds (readChannel convert b (b.sector 0) channel) := by
  rw [readChannel]
  split
  · exact succeeds_ok _
  · next hvalid =>
    have hread : ∀ ptr, (∀ type < maxTextTypeCount, EndsInside b channel (ptr + 2 * type)) →
        Succeeds (readTexts convert b channel (channelInfo (b.sector 0) channel).characterSetCode
          (b.sector (channel + 1)) ptr) := fun ptr h =>
      (succeeds_collect _).2 fun type htype => succeeds_of_ends (h type (List.mem_range.1 htype))
    obtain ⟨album, halbum⟩ := hread albumPtr fun type htype => (hends hvalid type htype).1
    obtain ⟨disc, hdisc⟩ := hread discPtr fun type htype => (hends hvalid type htype).2
    rw [bind_of_ok (read_eq b (by omega)), bind_of_ok halbum, bind_of_ok hdisc]
    exact succeeds_ok _

theorem only_readChannel (header : Bytes) :
    Only (· = .outside) (readChannel convert b header channel) := by
  rw [readChannel]
  split
  · exact only_ok _
  · refine only_bind (only_readBytes _ rfl) fun textSector => ?_
    refine only_bind (only_collect (fun type => only_readText) _) fun album => ?_
    exact only_bind (only_collect (fun type => only_readText) _) fun disc => only_ok _

theorem only_extract (header : Bytes) : Only (· = .outside) (extract convert b header) := by
  refine only_bind (only_saStrlcpy _ _) fun manufacturerInfo => ?_
  refine only_bind (only_saStrlcpy _ _) fun webLinkInfo => ?_
  refine only_bind (only_saStrlcpy _ _) fun discCatalogNum => ?_
  refine only_bind (only_saStrlcpy _ _) fun albumCatalogNum => ?_
  exact only_bind (only_collect (fun channel => only_readChannel header) _) fun texts => only_ok _

/-- A terminator behind the manufacturer information is one behind every string before it. -/
theorem succeeds_extract (hzero : 0 ∈ b.buffer.drop (b.start 9 + 8))
    (htexts : ∀ channel < textChannelCount (b.sector 0),
      Succeeds (readChannel convert b (b.sector 0) channel)) :
    Succeeds (extract convert b (b.sector 0)) := by
  have hstart : b.start 0 + 2048 ≤ b.start 9 := by
    simp only [Sectors.start, SectorFormat.sectorSize, lsnSize]
    omega
  have hstring : ∀ n p, p ≤ b.start 9 + 8 → Succeeds (saStrlcpy n (b.buffer.drop p)) := by
    intro n p hp
    have hsuffix : b.buffer.drop (b.start 9 + 8) <:+ b.buffer.drop p :=
      List.drop_suffix_drop_left b.buffer hp
    exact succeeds_saStrlcpy.2 (hsuffix.mem hzero)
  obtain ⟨manufacturerInfo, hmanuf⟩ := hstring maxManufacturerInfo (b.start 9 + 8) (Nat.le_refl _)
  obtain ⟨webLinkInfo, hweb⟩ := hstring maxDiscWebLinkInfo (b.start 0 + 168) (by omega)
  obtain ⟨discCatalogNum, hdisc⟩ := hstring maxCatalogLength (b.start 0 + 88) (by omega)
  obtain ⟨albumCatalogNum, halbum⟩ := hstring maxCatalogLength (b.start 0 + 24) (by omega)
  obtain ⟨texts, hcollect⟩ :=
    (succeeds_collect _).2 fun channel hchannel => htexts channel (List.mem_range.1 hchannel)
  rw [extract, bind_of_ok hmanuf, bind_of_ok hweb, bind_of_ok hdisc, bind_of_ok halbum,
    bind_of_ok hcollect]
  exact succeeds_ok _

end Channels

/-! ## The whole read -/

section Whole

variable {convert : Convert} {b : Sectors}

theorem collect_textSectors (b : Sectors) :
    collect (fun channel => b.read (channel + 1)) (List.range (textChannelCount (b.sector 0))) =
      .ok ((List.range (textChannelCount (b.sector 0))).map
        fun channel => b.sector (channel + 1)) := by
  have hcount := textChannelCount_le (b.sector 0)
  refine collect_ok _ fun channel hchannel => read_eq b ?_
  have hlt := List.mem_range.1 hchannel
  omega

theorem masterTocRead_of_accepted (h : Accepted b) :
    masterTocRead convert b = extract convert b (b.sector 0) := by
  have htexts : ¬ ∃ textSector ∈ (List.range (textChannelCount (b.sector 0))).map
      (fun channel => b.sector (channel + 1)), signature textSector ≠ masterTextSign := by
    rintro ⟨textSector, hmem, hsign⟩
    obtain ⟨channel, hchannel, rfl⟩ := List.mem_map.1 hmem
    exact hsign (h.texts channel (List.mem_range.1 hchannel))
  rw [masterTocRead, bind_of_ok (read_eq b (by decide)), bind_of_ok (read_eq b (by decide)),
    if_neg (by rw [h.header, h.manufInfo]; simp), bind_of_ok (collect_textSectors b),
    if_neg htexts, if_neg (not_not.2 h.pointers)]

/-- Sectors that do not pass the checks are refused. -/
theorem masterTocRead_refused (h : ¬ Accepted b) :
    ∃ status, masterTocRead convert b = .error (.status status) := by
  rw [masterTocRead, bind_of_ok (read_eq b (by decide)), bind_of_ok (read_eq b (by decide))]
  split
  · exact ⟨_, rfl⟩
  · next hsigned =>
    rw [bind_of_ok (collect_textSectors b)]
    split
    · exact ⟨_, rfl⟩
    · next htexts =>
      split
      · exact ⟨_, rfl⟩
      · next hpointers =>
        rw [not_or, not_not, not_not] at hsigned
        refine absurd ⟨hsigned.1, hsigned.2, fun channel hchannel => ?_, not_not.1 hpointers⟩ h
        by_contra hsign
        exact htexts ⟨_, List.mem_map.2 ⟨channel, List.mem_range.2 hchannel, rfl⟩, hsign⟩

theorem converted_of_stored (hends : Ends b) {channel type ptr : Nat} {stored : Option Bytes}
    (hptr : ptr = albumPtr ∨ ptr = discPtr) (h : Stored convert b ptr channel type stored) :
    Converted convert b channel (ptr + 2 * type) stored := by
  have hcount := textChannelCount_le (b.sector 0)
  unfold Stored at h
  split at h
  · next hin =>
    have hboth := hends.texts channel hin.1 hin.2.1 type hin.2.2
    refine converted_of_ends (by omega) ?_ h
    rcases hptr with rfl | rfl
    · exact hboth.1
    · exact hboth.2
  · subst h
    exact fun text htext => absurd htext.symm (Option.some_ne_none text)

/-- Texts that end in their sectors are read from there. -/
theorem contained_of_ends (hends : Accepted b → Ends b) (convert : Convert) :
    Contained convert b := by
  by_cases haccepted : Accepted b
  · have hends := hends haccepted
    have hread : masterTocRead convert b = extract convert b (b.sector 0) :=
      masterTocRead_of_accepted haccepted
    have hcount := textChannelCount_le (b.sector 0)
    refine ⟨?_, fun toc htoc channel type => ?_, fun toc htoc channel type => ?_⟩
    · obtain ⟨toc, htoc⟩ : Succeeds (extract convert b (b.sector 0)) :=
        succeeds_extract hends.manufInfo fun channel hchannel =>
          succeeds_readChannel (by omega) (hends.texts channel hchannel)
      rw [hread, htoc]
      exact fun heq => by cases heq
    · rw [hread] at htoc
      exact converted_of_stored hends (.inl rfl) ((extract_texts htoc).1 channel type)
    · rw [hread] at htoc
      exact converted_of_stored hends (.inr rfl) ((extract_texts htoc).2 channel type)
  · obtain ⟨status, hread⟩ : ∃ status, masterTocRead convert b = .error (.status status) :=
      masterTocRead_refused haccepted
    refine ⟨?_, fun toc htoc => ?_, fun toc htoc => ?_⟩
    · rw [hread]
      exact fun heq => by cases heq
    · rw [hread] at htoc
      cases htoc
    · rw [hread] at htoc
      cases htoc

/-- With the bytes stored as they are, a text from elsewhere is told from that of its sector. -/
theorem ends_of_contained (h : Contained (fun _ bytes => some bytes) b) (haccepted : Accepted b) :
    Ends b := by
  have hread : masterTocRead (fun _ bytes => some bytes) b =
      extract (fun _ bytes => some bytes) b (b.sector 0) := masterTocRead_of_accepted haccepted
  have hcount := textChannelCount_le (b.sector 0)
  cases hextract : extract (fun _ bytes => some bytes) b (b.sector 0) with
  | error e =>
    have houtside := only_extract _ e hextract
    rw [hextract, houtside] at hread
    exact absurd hread h.inside
  | ok toc =>
    rw [hextract] at hread
    obtain ⟨manufacturerInfo, hmanuf, -⟩ := bind_eq_ok.1 hextract
    refine ⟨succeeds_saStrlcpy.1 ⟨_, hmanuf⟩, fun channel hchannel hvalid type htype => ⟨?_, ?_⟩⟩
    · have hstored := (extract_texts hextract).1 channel type
      rw [Stored, if_pos ⟨hchannel, hvalid, htype⟩] at hstored
      exact ends_of_converted (by omega) hstored (h.album toc hread channel type)
    · have hstored := (extract_texts hextract).2 channel type
      rw [Stored, if_pos ⟨hchannel, hvalid, htype⟩] at hstored
      exact ends_of_converted (by omega) hstored (h.disc toc hread channel type)

/-- The texts are those of their sectors, however they are converted, and nothing outside the
buffer is read, exactly where the sectors are refused or all texts end in their sectors. -/
theorem texts_contained_iff (b : Sectors) :
    (∀ convert, Contained convert b) ↔ (Accepted b → Ends b) :=
  ⟨fun h => ends_of_contained (h _), contained_of_ends⟩

end Whole

/-! ## A title that fills its sector -/

section LongTitle

/-- One channel, in ISO 8859-1. -/
def oneChannelHeader : Bytes :=
  masterTocSign ++ List.replicate 120 0 ++ [1] ++ List.replicate 7 0 ++ [0x65, 0x6E, 2]

/-- Everything in front of the texts, with a pointer to an album title. -/
def titleFront : Bytes := masterTextSign ++ List.replicate 8 0 ++ [0, 64] ++ List.replicate 46 0

/-- The title goes up to the end of the sector. -/
def titleSector : Bytes := titleFront ++ List.replicate 1984 65

def longTitleHeads : List Bytes :=
  [oneChannelHeader, titleSector, [65], [], [], [], [], [], [], manufInfoSign]

theorem oneChannelHeader_length : oneChannelHeader.length = 139 := by
  have hsign : masterTocSign.length = 8 := rfl
  simp only [oneChannelHeader, List.length_append, List.length_replicate, hsign, List.length_cons,
    List.length_nil]

theorem titleFront_length : titleFront.length = 64 := rfl

theorem titleSector_length : titleSector.length = 2048 := by
  rw [titleSector, List.length_append, List.length_replicate, titleFront_length]

theorem longTitleHeads_length : ∀ head ∈ longTitleHeads, head.length ≤ lsnSize := by
  have hheader : oneChannelHeader.length ≤ lsnSize := by
    rw [oneChannelHeader_length]
    decide
  have htitle : titleSector.length ≤ lsnSize := by
    rw [titleSector_length]
    decide
  intro head hhead
  rw [longTitleHeads, List.mem_cons, List.mem_cons] at hhead
  rcases hhead with rfl | rfl | hrest
  · exact hheader
  · exact htitle
  · have hshort : ∀ head ∈ [[65], [], [], [], [], [], [], manufInfoSign], head.length ≤ 8 := by
      decide
    exact (hshort head hrest).trans (by decide)

theorem longTitle_length : ∀ s ∈ longTitleHeads.map Area.padded, s.length = lsnSize := by
  intro s hs
  obtain ⟨head, hhead, rfl⟩ := List.mem_map.1 hs
  exact Area.padded_length (longTitleHeads_length head hhead)

theorem signature_append {sign : Bytes} (h : sign.length = 8) (rest : Bytes) :
    signature (sign ++ rest) = sign := by
  rw [signature, slice, List.drop_zero, List.take_left' h]

/-- A disc whose album title goes on in the next sector. -/
def longTitle : Sectors where
  format := .sector2048
  buffer := (longTitleHeads.map Area.padded).flatten
  buffer_length := Area.flatten_length_of_forall longTitle_length

theorem longTitle_sector {s : Nat} {head : Bytes} (h : longTitleHeads[s]? = some head) :
    longTitle.sector s = Area.padded head := by
  obtain ⟨hlt, hhead⟩ := List.getElem?_eq_some_iff.1 h
  have hstart : longTitle.start s = s * lsnSize := by
    simp only [Sectors.start, longTitle, SectorFormat.sectorSize, SectorFormat.headerSize,
      SectorFormat.trailerSize, Nat.add_zero]
  rw [Sectors.sector, hstart, longTitle, Area.slice_flatten longTitle_length
    (by rwa [List.length_map]), List.getElem_map, hhead]

theorem longTitle_accepted : Accepted longTitle := by
  have hheader : longTitle.sector 0 = Area.padded oneChannelHeader := longTitle_sector rfl
  have hmanuf : longTitle.sector 9 = Area.padded manufInfoSign := longTitle_sector rfl
  have htext : longTitle.sector 1 = Area.padded titleSector :=
    longTitle_sector rfl
  refine ⟨by rw [hheader]; rfl, ?_, fun channel hchannel => ?_, ?_⟩
  · rw [hmanuf, Area.padded]
    exact signature_append rfl _
  · have hcount : textChannelCount (longTitle.sector 0) = 1 := by
      rw [hheader]
      rfl
    obtain rfl : channel = 0 := by omega
    rw [htext]
    rfl
  · rw [hheader]
    exact ⟨.inl rfl, .inl rfl⟩

/-- The title has no terminator in its sector, nor at the start of the next. -/
theorem longTitle_not_ends : ¬ EndsInside longTitle 0 albumPtr := by
  have hheader : longTitle.sector 0 = Area.padded oneChannelHeader := longTitle_sector rfl
  have htext : longTitle.sector 1 = Area.padded titleSector :=
    longTitle_sector rfl
  have hnext : longTitle.sector 2 = Area.padded [65] := longTitle_sector rfl
  have hcode : (channelInfo (longTitle.sector 0) 0).characterSetCode = 2 := by
    rw [hheader]
    rfl
  have hoffset : be (longTitle.sector (0 + 1)) albumPtr 2 = 64 := by
    rw [htext]
    rfl
  have hlsn : lsnSize = 2048 := rfl
  intro hends
  rw [EndsInside, hcode, hoffset] at hends
  obtain ⟨k, hk, hzero⟩ := hends (by decide) (by decide)
  have hwidth : width 2 = 1 := rfl
  rw [hwidth, Nat.mul_one] at hk hzero
  have hbyte := hzero 0 (width_pos 2)
  by_cases hin : 64 + k < lsnSize
  · have hlong : 64 + k < titleSector.length := by
      rw [titleSector_length]
      omega
    have hbehind : titleFront.length ≤ 64 + k := by
      rw [titleFront_length]
      omega
    rw [Nat.add_zero, ← sector_getElem? longTitle hin, htext, Area.padded,
      List.getElem?_append_left hlong, titleSector,
      List.getElem?_append_right hbehind,
      List.getElem?_replicate] at hbyte
    split at hbyte
    · exact absurd (Option.some.inj hbyte) (by decide)
    · cases hbyte
  · have hstart : longTitle.start (0 + 1) + (64 + k) + 0 = longTitle.start 2 + 0 := by
      have hfirst : longTitle.start (0 + 1) = 2048 := rfl
      have hsecond : longTitle.start 2 = 4096 := rfl
      omega
    rw [hstart, ← sector_getElem? longTitle (by decide), hnext] at hbyte
    exact absurd (Option.some.inj hbyte) (by decide)

/-- The texts stored are not always those of their sectors. -/
theorem title_not_contained : ¬ ∀ (b : Sectors) (convert : Convert), Contained convert b := by
  intro h
  have hends := (ends_of_contained (h longTitle _) longTitle_accepted).texts 0 (by
    rw [longTitle_sector rfl]
    decide) (by
    rw [longTitle_sector rfl]
    decide) 0 (by decide)
  exact longTitle_not_ends hends.1

end LongTitle

end DsdNexus.Sacd.Master
