import DsdNexus.Dsdiff.ChunkBytes

/-! # DSDIFF: the channels of CHNL

A named channel has its four characters in the order of the file. The code of a numbered one
is put together with its letter in the highest byte, where the other ids have their last
character: it stands in the file the wrong way round.
-/

namespace DsdNexus.Dsdiff

open Program FileProgram Endian

/-! ## The codes -/

/-- The channels that have a name. -/
def IsNamed (id : ChannelId) : Prop := id ∈ channelList.map Prod.fst

/-- A channel of the format: one that has a name, or a number of three digits. -/
def IsChannel (id : ChannelId) : Prop := IsNamed id ∨ id ≤ 999

instance (id : ChannelId) : Decidable (IsNamed id) := inferInstanceAs (Decidable (_ ∈ _))

instance (id : ChannelId) : Decidable (IsChannel id) := inferInstanceAs (Decidable (_ ∨ _))

/-- The letter C and the three digits of a number. -/
def numberedCharacters (number : Nat) : Bytes :=
  ['C'.toUInt8, UInt8.ofNat (number / 100 + 48), UInt8.ofNat (number % 100 / 10 + 48),
    UInt8.ofNat (number % 10 + 48)]

/-- The four characters the format gives a channel, in the order of the file. -/
def channelCharacters (id : ChannelId) : Bytes :=
  match channelList.find? fun e => e.1 = id with
  | some e => e.2
  | none => numberedCharacters id

/-- What `dsdiff_chunk_write_chnl` writes for a channel of the format. -/
def storedCharacters (id : ChannelId) : Bytes :=
  match channelList.find? fun e => e.1 = id with
  | some e => e.2
  | none => (numberedCharacters id).reverse

section Codes

variable {id : Nat}

/-- A named channel, as an entry of the list. -/
theorem IsNamed.entry (h : IsNamed id) : ∃ code, code.length = 4 ∧
    channelList.find? (fun e => e.1 = id) = some (id, code) ∧
    channelList.find? (fun e => e.2 = code) = some (id, code) ∧ id ≠ ChannelId.invalid := by
  unfold IsNamed channelList at h
  simp only [List.map_cons, List.map_nil, List.mem_cons, List.not_mem_nil, or_false] at h
  rcases h with rfl | rfl | rfl | rfl | rfl | rfl | rfl | rfl <;>
    exact ⟨_, rfl, rfl, by decide, by decide⟩

theorem numbered_not_named (h : id ≤ 999) : channelList.find? (fun e => e.1 = id) = none := by
  simp only [List.find?_eq_none, decide_eq_true_eq]
  rintro e he rfl
  have hnames : ∀ e ∈ channelList, ¬ e.1 ≤ 999 := by decide
  exact hnames e he h

/-- No named channel has a code that ends in the letter of the numbered ones. -/
theorem numbered_code_not_named (b3 b2 b1 : UInt8) :
    channelList.find? (fun e => e.2 = [b3, b2, b1, 'C'.toUInt8]) = none := by
  simp only [List.find?_eq_none, decide_eq_true_eq]
  intro e he hcode
  have hlast : ∀ e ∈ channelList, e.2.getLast? ≠ some 'C'.toUInt8 := by decide
  exact hlast e he (by rw [hcode]; rfl)

theorem digit_toNat {d : Nat} (h : d ≤ 9) : (UInt8.ofNat (d + 48)).toNat = d + 48 := by
  rw [UInt8.toNat_ofNat']
  omega

theorem isDigit_digit {d : Nat} (h : d ≤ 9) : isDigit (UInt8.ofNat (d + 48)) = true := by
  have hnat := digit_toNat h
  have hlow : (48 : UInt8) ≤ UInt8.ofNat (d + 48) := by
    rw [UInt8.le_iff_toNat_le, hnat]
    exact Nat.le_add_left 48 d
  have hhigh : UInt8.ofNat (d + 48) ≤ (57 : UInt8) := by
    rw [UInt8.le_iff_toNat_le, hnat]
    exact Nat.add_le_add_right h 48
  rw [isDigit, decide_eq_true hlow, decide_eq_true hhigh]
  rfl

theorem storedCharacters_length (h : IsChannel id) : (storedCharacters id).length = 4 := by
  rcases h with hnamed | hnumbered
  · obtain ⟨code, hlength, hid, -⟩ := hnamed.entry
    rw [storedCharacters, hid]
    exact hlength
  · rw [storedCharacters, numbered_not_named hnumbered]
    rfl

theorem channelCharacters_length (id : ChannelId) : (channelCharacters id).length = 4 := by
  unfold channelCharacters
  split
  · next e he =>
    have hall : ∀ e ∈ channelList, e.2.length = 4 := by decide
    exact hall e (List.mem_of_find?_eq_some he)
  · rfl

theorem channelCode_eq (h : IsChannel id) : channelCode id = some (storedCharacters id) := by
  rcases h with hnamed | hnumbered
  · obtain ⟨code, -, hid, -, hvalid⟩ := hnamed.entry
    rw [channelCode, channelCodeMap, if_neg hvalid, storedCharacters, hid]
    rfl
  · have hvalid : id ≠ ChannelId.invalid := by
      rintro rfl
      exact absurd hnumbered (by decide)
    rw [channelCode, channelCodeMap, if_neg hvalid, storedCharacters,
      numbered_not_named hnumbered]
    simp only [Option.map_none, if_pos hnumbered]
    rfl

/-- What is written for a channel is read as the channel. -/
theorem channelOfCode_stored (h : IsChannel id) : channelOfCode (storedCharacters id) = id := by
  rcases h with hnamed | hnumbered
  · obtain ⟨code, -, hid, hcode, -⟩ := hnamed.entry
    have hstored : storedCharacters id = code := by rw [storedCharacters, hid]
    rw [hstored]
    unfold channelOfCode
    rw [hcode]
  · have hle : id ≤ 999 := hnumbered
    have hones : id % 10 ≤ 9 := by omega
    have htens : id % 100 / 10 ≤ 9 := by omega
    have hhundreds : id / 100 ≤ 9 := by omega
    have hstored : storedCharacters id = [UInt8.ofNat (id % 10 + 48),
        UInt8.ofNat (id % 100 / 10 + 48), UInt8.ofNat (id / 100 + 48), 'C'.toUInt8] := by
      rw [storedCharacters, numbered_not_named hnumbered]
      rfl
    rw [hstored]
    unfold channelOfCode
    rw [numbered_code_not_named]
    simp only [isDigit_digit hones, isDigit_digit htens, isDigit_digit hhundreds, and_self,
      if_true, digit_toNat hones, digit_toNat htens, digit_toNat hhundreds]
    have hsum : id % 10 + 48 - 48 + 10 * (id % 100 / 10 + 48 - 48) +
        100 * (id / 100 + 48 - 48) = id := by omega
    exact hsum

/-- Only the named channels are written as the format has them. -/
theorem stored_eq_iff (h : IsChannel id) :
    storedCharacters id = channelCharacters id ↔ IsNamed id := by
  rcases h with hnamed | hnumbered
  · obtain ⟨code, -, hid, -⟩ := hnamed.entry
    rw [storedCharacters, channelCharacters, hid]
    exact ⟨fun _ => hnamed, fun _ => rfl⟩
  · have hnone := numbered_not_named hnumbered
    rw [storedCharacters, channelCharacters, hnone]
    constructor
    · intro heq
      have hhead : UInt8.ofNat (id % 10 + 48) = 'C'.toUInt8 := (List.cons.inj heq).1
      have hnat := congrArg UInt8.toNat hhead
      rw [digit_toNat (by omega)] at hnat
      have hletter : 'C'.toUInt8.toNat = 67 := rfl
      omega
    · intro hnamed
      obtain ⟨code, -, hid, -⟩ := hnamed.entry
      rw [hnone] at hid
      cases hid

end Codes

/-! ## The chunk -/

/-- The bytes of CHNL behind its id, with these codes. -/
def chnlBytes (codes : List Bytes) : Bytes :=
  toBe 8 (2 + codes.length * 4) ++ (toBe 2 codes.length ++ codes.flatten)

/-- CHNL as the format has it. -/
def chnlChunk (ids : List ChannelId) : Bytes :=
  ChunkType.chnl.fourcc ++ chnlBytes (ids.map channelCharacters)

/-- CHNL as it is written. -/
def storedChnl (ids : List ChannelId) : Bytes :=
  ChunkType.chnl.fourcc ++ chnlBytes (ids.map storedCharacters)

section Chunk

variable {ids : List ChannelId}

theorem writeChannelIds_prints (h : ∀ id ∈ ids, IsChannel id) :
    Prints (writeChannelIds ids) (ids.map storedCharacters).flatten () := by
  induction ids with
  | nil => exact Prints.pure ()
  | cons id ids ih =>
    have hcode := channelCode_eq (h id List.mem_cons_self)
    have hrest := ih fun i hi => h i (List.mem_cons_of_mem id hi)
    rw [writeChannelIds, List.map_cons, List.flatten_cons]
    rw [hcode]
    exact (ioWriteChunkId_prints _).bind hrest

theorem readChannelIds_reads {codes : List Bytes} (h : ∀ code ∈ codes, code.length = 4) :
    Reads (readChannelIds codes.length) codes.flatten (codes.map channelOfCode) := by
  induction codes with
  | nil => exact Reads.pure []
  | cons code codes ih =>
    have hrest := ih fun c hc => h c (List.mem_cons_of_mem code hc)
    rw [List.length_cons, readChannelIds, List.flatten_cons, List.map_cons]
    exact (ioReadChunkId_reads (h code List.mem_cons_self)).bind (hrest.map _)

theorem chunkWriteChnl_prints (h : ∀ id ∈ ids, IsChannel id) (hcount : ids.length ≤ 1000) :
    Prints (chunkWriteChnl (UInt16.ofNat ids.length) (some ids)) (storedChnl ids) () := by
  have htoNat : (UInt16.ofNat ids.length).toNat = ids.length := by
    rw [UInt16.toNat_ofNat']
    omega
  have hwrite : Prints (chunkWriteChnl (UInt16.ofNat ids.length) (some ids))
      (chunkHead .chnl (2 + ids.length * 4) ++
        (toBe 2 ids.length ++ (ids.map storedCharacters).flatten)) () := by
    have hids : ids.take ids.length = ids := List.take_length
    have hnumber := ioWriteUint16Be_prints (UInt16.ofNat ids.length)
    rw [htoNat] at hnumber
    rw [chunkWriteChnl]
    simp only [htoNat, hids]
    exact (writeChunkHead_prints _ _).bind (hnumber.bind (writeChannelIds_prints h))
  rw [storedChnl, chnlBytes, List.length_map, ← List.append_assoc]
  exact hwrite

/-- A chunk of so many codes is read as the channels they stand for. -/
theorem chunkReadChnl_reads {codes : List Bytes} (hpos : 0 < codes.length)
    (hcount : codes.length ≤ 1000) (hcodes : ∀ code ∈ codes, code.length = 4) :
    Reads chunkReadChnl (chnlBytes codes)
      (UInt16.ofNat codes.length, codes.map channelOfCode) := by
  have htoNat : (UInt16.ofNat codes.length).toNat = codes.length := by
    rw [UInt16.toNat_ofNat']
    omega
  have hcheck : 0 < UInt16.ofNat codes.length ∧ UInt16.ofNat codes.length ≤ 1000 ∧
      2 + codes.length * 4 = 2 + 4 * (UInt16.ofNat codes.length).toNat := by
    rw [UInt16.lt_iff_toNat_lt, UInt16.le_iff_toNat_le, htoNat]
    refine ⟨hpos, hcount, ?_⟩
    rw [Nat.mul_comm]
  have hnumber := ioReadUint16Be_reads (UInt16.ofNat codes.length)
  have hsize : Reads ioReadUint64Be (toBe 8 (2 + codes.length * 4)) (2 + codes.length * 4) :=
    ioReadUint64Be_reads (by omega)
  have hids := readChannelIds_reads hcodes
  rw [← htoNat] at hids
  rw [htoNat] at hnumber
  exact hsize.bind (hnumber.bind (.check hcheck (hids.map _)))

theorem chnlBytes_length {codes : List Bytes} (h : ∀ code ∈ codes, code.length = 4) :
    (chnlBytes codes).length = 10 + codes.length * 4 := by
  have hflat : codes.flatten.length = codes.length * 4 := by
    induction codes with
    | nil => rfl
    | cons code codes ih =>
      have hcode := h code List.mem_cons_self
      have hrest := ih fun c hc => h c (List.mem_cons_of_mem code hc)
      rw [List.flatten_cons, List.length_append, List.length_cons]
      omega
  rw [chnlBytes, List.length_append, List.length_append, toBe_length, toBe_length, hflat]
  omega

/-- Chunks of four-character codes are the same only where the codes are. -/
theorem chnlBytes_inj {codes codes' : List Bytes} (hlength : codes.length = codes'.length)
    (h : ∀ code ∈ codes, code.length = 4) (h' : ∀ code ∈ codes', code.length = 4)
    (heq : chnlBytes codes = chnlBytes codes') : codes = codes' := by
  have hflat : codes.flatten = codes'.flatten := by
    rw [chnlBytes, chnlBytes, hlength] at heq
    exact List.append_cancel_left (List.append_cancel_left heq)
  clear heq
  induction codes generalizing codes' with
  | nil => exact (List.length_eq_zero_iff.1 hlength.symm).symm
  | cons code codes ih =>
    cases codes' with
    | nil => cases hlength
    | cons code' codes' =>
      rw [List.flatten_cons, List.flatten_cons] at hflat
      have hsame : code.length = code'.length :=
        (h code List.mem_cons_self).trans (h' code' List.mem_cons_self).symm
      obtain ⟨hfirst, hrest⟩ := List.append_inj hflat hsame
      rw [hfirst, ih (Nat.succ.inj hlength) (fun c hc => h c (List.mem_cons_of_mem _ hc))
        (fun c hc => h' c (List.mem_cons_of_mem _ hc)) hrest]

end Chunk

/-! ## Both ways -/

/-- The codec is faithful for a list of channels: its chunk is written, what is written is
read as the list, and the chunk is the same when it is read and written back. -/
structure FaithfulChnl (ids : List ChannelId) : Prop where
  written : Writes (chunkWriteChnl (UInt16.ofNat ids.length) (some ids)) (chnlChunk ids) ()
  readBack : ∃ bytes, Writes (chunkWriteChnl (UInt16.ofNat ids.length) (some ids))
      (ChunkType.chnl.fourcc ++ bytes) () ∧
    Reads chunkReadChnl bytes (UInt16.ofNat ids.length, ids)
  rewritten : ∃ r, Reads chunkReadChnl (chnlBytes (ids.map channelCharacters)) r ∧
    Writes (chunkWriteChnl r.1 (some r.2)) (chnlChunk ids) ()

section Faithful

variable {ids : List ChannelId}

theorem map_stored_length (h : ∀ id ∈ ids, IsChannel id) :
    ∀ code ∈ ids.map storedCharacters, code.length = 4 := by
  intro code hcode
  obtain ⟨id, hid, rfl⟩ := List.mem_map.1 hcode
  exact storedCharacters_length (h id hid)

theorem map_channel_length : ∀ code ∈ ids.map channelCharacters, code.length = 4 := by
  intro code hcode
  obtain ⟨id, -, rfl⟩ := List.mem_map.1 hcode
  exact channelCharacters_length id

/-- What was written is always read as what it was written for. -/
theorem readBack_stored (hpos : 1 ≤ ids.length) (hcount : ids.length ≤ 1000)
    (h : ∀ id ∈ ids, IsChannel id) :
    Reads chunkReadChnl (chnlBytes (ids.map storedCharacters))
      (UInt16.ofNat ids.length, ids) := by
  have hread : Reads chunkReadChnl (chnlBytes (ids.map storedCharacters)) _ :=
    chunkReadChnl_reads (by rw [List.length_map]; exact hpos)
      (by rw [List.length_map]; exact hcount) (map_stored_length h)
  have hids : (ids.map storedCharacters).map channelOfCode = ids := by
    rw [List.map_map]
    refine (List.map_congr_left fun id hid => channelOfCode_stored (h id hid)).trans ?_
    exact List.map_id ids
  rwa [hids, List.length_map] at hread

/-- CHNL is written as the format has it exactly where every channel has a name. -/
theorem chnl_faithful_iff (hpos : 1 ≤ ids.length) (hcount : ids.length ≤ 1000)
    (h : ∀ id ∈ ids, IsChannel id) : FaithfulChnl ids ↔ ∀ id ∈ ids, IsNamed id := by
  have hwrites := (chunkWriteChnl_prints h hcount).writes
  constructor
  · intro hfaithful
    have hstored : (storedChnl ids).length ≤ ByteFile.offMax := by
      rw [storedChnl, List.length_append, chnlBytes_length (map_stored_length h),
        ChunkType.fourcc_length (by decide), List.length_map, ByteFile.offMax]
      omega
    have hchunk : (chnlChunk ids).length ≤ ByteFile.offMax := by
      rw [chnlChunk, List.length_append, chnlBytes_length map_channel_length,
        ChunkType.fourcc_length (by decide), List.length_map, ByteFile.offMax]
      omega
    have hsame := writes_unique hwrites hfaithful.written hstored hchunk
    have hcodes := chnlBytes_inj (by rw [List.length_map, List.length_map])
      (map_stored_length h) map_channel_length (List.append_cancel_left hsame)
    intro id hid
    exact (stored_eq_iff (h id hid)).1 (List.map_inj_left.1 hcodes id hid)
  · intro hnamed
    have hcodes : ids.map storedCharacters = ids.map channelCharacters :=
      List.map_congr_left fun id hid => (stored_eq_iff (h id hid)).2 (hnamed id hid)
    have hread := readBack_stored hpos hcount h
    rw [storedChnl, hcodes] at hwrites
    rw [hcodes] at hread
    exact ⟨hwrites, ⟨_, hwrites, hread⟩, ⟨_, hread, hwrites⟩⟩

theorem chnl_faithful_iff_stereo : FaithfulChnl [ChannelId.slft, ChannelId.srgt] :=
  (chnl_faithful_iff (by decide) (by decide) (by decide)).2 (by decide)

/-- The code of channel 1 stands in the file as `100C`. -/
theorem numbered_not_faithful : ¬ FaithfulChnl [1] := by
  intro h
  have hsame := writes_unique
    (chunkWriteChnl_prints (by decide : ∀ id ∈ [1], IsChannel id) (by decide)).writes h.written
    (by decide) (by decide)
  exact absurd hsame (by decide)

end Faithful

end DsdNexus.Dsdiff
