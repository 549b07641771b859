import DsdNexus.Dsdiff.Onward

/-! # DSDIFF: chunks that are passed over

Chunks the parser does not know, sound data and the index are passed over by a seek whose
offset is the size field, read as a signed number, and of a DST chunk only the first frame
is. Where such a seek leads is told from the bytes of the file.
-/

namespace DsdNexus.Dsdiff

open Program FileProgram Endian

/-! ## Fields of a file -/

/-- The id of a chunk at a place. -/
def typeAt (content : List UInt8) (p : Nat) : ChunkType :=
  ChunkType.ofFourcc ((content.drop p).take 4)

/-- The number a field of `w` bytes at a place holds. -/
def fieldAt (content : List UInt8) (p w : Nat) : Nat := ofBe ((content.drop p).take w)

/-- The size field at a place, read as a signed number, leads back from behind it to
`start` or before, but not before the file (nor beyond the offsets there are). -/
def BackTo (content : List UInt8) (p start : Nat) : Prop :=
  p + 8 ≤ content.length ∧ 2 ^ 63 ≤ fieldAt content p 8 ∧
    2 ^ 64 ≤ p + 8 + fieldAt content p 8 ∧
    p + 8 + fieldAt content p 8 ≤ 2 ^ 64 + ByteFile.offMax ∧
    p + 8 + fieldAt content p 8 + fieldAt content p 8 % 2 ≤ 2 ^ 64 + start

instance (content : List UInt8) (p start : Nat) : Decidable (BackTo content p start) :=
  inferInstanceAs (Decidable (_ ∧ _))

/-- Where skipping a chunk leads whose size field is at the place. -/
def skipTo (content : List UInt8) (p : Nat) : Option Nat :=
  if p + 8 ≤ content.length then
    match ByteFile.target (int64 (fieldAt content p 8)) (p + 8) with
    | none => none
    | some t =>
      if fieldAt content p 8 % 2 = 0 then some t
      else if t < content.length then some (t + 1)
      else none
  else none

theorem fieldAt_lt_pow (content : List UInt8) (p w : Nat) : fieldAt content p w < 256 ^ w :=
  (ofBe_lt _).trans_le (Nat.pow_le_pow_right (by omega) (List.length_take_le w _))

theorem fieldAt_lt (content : List UInt8) (p : Nat) : fieldAt content p 8 < 2 ^ 64 :=
  (fieldAt_lt_pow content p 8).trans_eq (by norm_num)

theorem fieldAt_four_lt (content : List UInt8) (p : Nat) : fieldAt content p 4 < 2 ^ 32 :=
  (fieldAt_lt_pow content p 4).trans_eq (by norm_num)

theorem typeAt_ne_unknown {content : List UInt8} {p : Nat} {t : ChunkType}
    (h : typeAt content p = t) (ht : t ≠ .unknown) : p + 4 ≤ content.length := by
  have hlen : ((content.drop p).take 4).length = 4 := by
    unfold typeAt ChunkType.ofFourcc at h
    cases hfind : chunkList.find? fun t => t.fourcc = (content.drop p).take 4 with
    | none =>
      rw [hfind] at h
      exact absurd h.symm ht
    | some u =>
      rw [hfind] at h
      have hu : u = t := h
      have hcode : u.fourcc = (content.drop p).take 4 := by
        simpa using List.find?_some hfind
      rw [← hcode, ChunkType.fourcc_length (hu ▸ ht)]
  rw [List.length_take, List.length_drop] at hlen
  omega

/-! ## Reading fields -/

theorem ioReadBytes_of_le {content : List UInt8} {p n : Nat} (h : p + n ≤ content.length) :
    ioReadBytes n ⟨content, p⟩ = (.ok ((content.drop p).take n), ⟨content, p + n⟩) := by
  have hlen : ((content.drop p).take n).length = n := by
    rw [List.length_take, List.length_drop]
    omega
  simp only [ioReadBytes, readExact, ByteFile.read, ByteFile.rest, hlen, if_true]

theorem ioReadBytes_error {content : List UInt8} {p n : Nat} (hn : 0 < n)
    (h : content.length < p + n) :
    ioReadBytes n ⟨content, p⟩ = (.error .readFailed, ⟨content, max p content.length⟩) := by
  have hshort : ((ByteFile.mk content p).read n).1.length ≠ n := by
    rw [ByteFile.read_length]
    dsimp only
    omega
  have hpos := (ByteFile.mk content p).read_short hshort
  simp only [ioReadBytes, readExact, if_neg hshort]
  congr 1
  ext1
  · rfl
  · exact hpos

theorem header_of_le {content : List UInt8} {p : Nat} (h : p + 4 ≤ content.length) :
    chunkReadHeader ⟨content, p⟩ = (.ok (typeAt content p), ⟨content, p + 4⟩) :=
  bind_of_ok (ioReadBytes_of_le h)

theorem header_error {content : List UInt8} {p : Nat} (h : content.length < p + 4) :
    chunkReadHeader ⟨content, p⟩ = (.error .readFailed, ⟨content, max p content.length⟩) :=
  bind_of_error (ioReadBytes_error (by omega) h)

theorem uint64_of_le {content : List UInt8} {p : Nat} (h : p + 8 ≤ content.length) :
    ioReadUint64Be ⟨content, p⟩ = (.ok (fieldAt content p 8), ⟨content, p + 8⟩) :=
  bind_of_ok (ioReadBytes_of_le h)

theorem uint64_error {content : List UInt8} {p : Nat} (h : content.length < p + 8) :
    ioReadUint64Be ⟨content, p⟩ = (.error .readFailed, ⟨content, max p content.length⟩) :=
  bind_of_error (ioReadBytes_error (by omega) h)

theorem padByte_of_lt {content : List UInt8} {p : Nat} (h : p < content.length) :
    ioReadPadByte ⟨content, p⟩ = (.ok (), ⟨content, p + 1⟩) := by
  have hbyte : ioReadUint8 ⟨content, p⟩ = (.ok _, ⟨content, p + 1⟩) :=
    bind_of_ok (ioReadBytes_of_le (by omega))
  exact bind_of_ok hbyte

theorem padByte_error {content : List UInt8} {p : Nat} (h : content.length ≤ p) :
    ioReadPadByte ⟨content, p⟩ = (.error .readFailed, ⟨content, max p content.length⟩) := by
  have hbyte : ioReadUint8 ⟨content, p⟩ = (.error .readFailed, ⟨content, max p content.length⟩) :=
    bind_of_error (ioReadBytes_error (by omega) (by omega))
  exact bind_of_error hbyte

/-! ## Skipping a chunk -/

theorem seekCur_eq {content : List UInt8} {p size : Nat} :
    ioSeekCur size ⟨content, p⟩ = match ByteFile.target (int64 size) p with
      | some t => (.ok (), ⟨content, t⟩)
      | none => (.error .seekFailed, ⟨content, p⟩) := rfl

theorem chunkSkip_eq_ok {content : List UInt8} {p : Nat} {f : ByteFile} :
    chunkSkip ⟨content, p⟩ = (.ok (), f) ↔ ∃ t, skipTo content p = some t ∧ f = ⟨content, t⟩ := by
  by_cases hle : p + 8 ≤ content.length
  · have hskip : chunkSkip ⟨content, p⟩ =
        (ioSeekCur (fieldAt content p 8) >>= fun _ => readPadOf (fieldAt content p 8))
          ⟨content, p + 8⟩ := bind_of_ok (uint64_of_le hle)
    rw [hskip, bind_apply, seekCur_eq, skipTo, if_pos hle]
    cases ByteFile.target (int64 (fieldAt content p 8)) (p + 8) with
    | none => simp
    | some t =>
      dsimp only
      by_cases hodd : fieldAt content p 8 % 2 = 0
      · rw [readPadOf, if_neg (by omega), if_pos hodd]
        simp [eq_comm]
      · rw [readPadOf, if_pos (by omega), if_neg hodd]
        by_cases hin : t < content.length
        · rw [padByte_of_lt hin, if_pos hin]
          simp [eq_comm]
        · rw [padByte_error (by omega), if_neg hin]
          simp
  · have hskip : chunkSkip ⟨content, p⟩ =
        (.error .readFailed, ⟨content, max p content.length⟩) :=
      bind_of_error (uint64_error (by omega))
    rw [hskip, skipTo, if_neg hle]
    simp

/-- A skip leads back to `start` exactly where the size field says so. -/
theorem backTo_iff {content : List UInt8} {p start : Nat} (hstart : start < p + 8) :
    BackTo content p start ↔ ∃ t, skipTo content p = some t ∧ t ≤ start := by
  have hlt := fieldAt_lt content p
  have hoff : ByteFile.offMax = 2 ^ 63 - 1 := rfl
  unfold BackTo skipTo
  generalize fieldAt content p 8 = size at hlt
  by_cases hle : p + 8 ≤ content.length
  swap
  · rw [if_neg hle]
    exact iff_of_false (by tauto) (by simp)
  rw [if_pos hle]
  unfold ByteFile.target int64
  by_cases hneg : size < 2 ^ 63
  · -- A size that is not negative leads on.
    rw [if_pos hneg]
    refine iff_of_false (by omega) ?_
    rintro ⟨t, ht, hts⟩
    split at ht
    · cases ht
    · next u hu =>
      split at hu
      · cases hu
        split at ht
        · cases ht
          omega
        · split at ht
          · cases ht
            omega
          · cases ht
      · cases hu
  · rw [if_neg hneg]
    by_cases hin : 0 ≤ ((p + 8 : Nat) : Int) + ((size : Int) - 2 ^ 64) ∧
        ((p + 8 : Nat) : Int) + ((size : Int) - 2 ^ 64) ≤ ByteFile.offMax
    · rw [if_pos hin]
      have htarget : (((p + 8 : Nat) : Int) + ((size : Int) - 2 ^ 64)).toNat =
          p + 8 + size - 2 ^ 64 := by omega
      rw [htarget]
      dsimp only
      by_cases hodd : size % 2 = 0
      · rw [if_pos hodd]
        simp only [Option.some.injEq, exists_eq_left']
        omega
      · rw [if_neg hodd, if_pos (by omega)]
        simp only [Option.some.injEq, exists_eq_left']
        omega
    · rw [if_neg hin]
      exact iff_of_false (by omega) (by simp)

/-! ## The chunks that are passed over -/

/-- What the program on the handle does is, as far as the file goes, what the other does. -/
def Follows (m : Dsd Unit) (n : Io Unit) : Prop :=
  ∀ s, (m s).1 = (n s.io).1 ∧ (m s).2.io = (n s.io).2

theorem readSndHeader_follows : Follows readSndHeader chunkSkip := by
  intro s
  simp only [readSndHeader, chunkSkip, bind_apply, update, modify_apply, liftIo, zoom_apply,
    tell_apply]
  rcases ioReadUint64Be s.io with ⟨e | size, io⟩
  · exact ⟨rfl, rfl⟩
  · dsimp only
    rcases ioSeekCur size io with ⟨e | _, io⟩
    · exact ⟨rfl, rfl⟩
    · exact ⟨rfl, rfl⟩

theorem readDstiHeader_follows : Follows readDstiHeader chunkSkip := by
  intro s
  simp only [readDstiHeader, chunkSkip, bind_apply, update, modify_apply, liftIo, zoom_apply,
    tell_apply]
  rcases ioReadUint64Be s.io with ⟨e | size, io⟩
  · exact ⟨rfl, rfl⟩
  · dsimp only
    rcases ioSeekCur size io with ⟨e | _, io⟩
    · exact ⟨rfl, rfl⟩
    · exact ⟨rfl, rfl⟩

theorem Follows.noted {m : Dsd Unit} {n : Io Unit} (h : Follows m n) (f : Handle → Handle) :
    Follows (m >>= fun _ => update f) n := by
  intro s
  have hs := h s
  simp only [bind_apply]
  split
  · next a t heq =>
    rw [heq] at hs
    exact ⟨hs.1, hs.2⟩
  · next e t heq =>
    rw [heq] at hs
    exact hs

theorem readDsd_follows : Follows readDsd chunkSkip := readSndHeader_follows.noted _

theorem readDsti_follows : Follows readDsti chunkSkip := by
  intro s
  have hs := readDstiHeader_follows s
  simp only [readDsti, bind_apply]
  split
  · next a t heq =>
    rw [heq] at hs
    exact ⟨hs.1, hs.2⟩
  · next e t heq =>
    rw [heq] at hs
    exact hs

theorem Follows.eq_ok_iff {m : Dsd Unit} {n : Io Unit} (h : Follows m n) {s : OpenHandle}
    {io : ByteFile} :
    (∃ s', m s = (.ok (), s') ∧ s'.io = io) ↔ n s.io = (.ok (), io) := by
  have hs := h s
  constructor
  · rintro ⟨s', hm, rfl⟩
    rw [hm] at hs
    exact Prod.ext hs.1.symm hs.2.symm
  · intro hn
    rw [hn] at hs
    exact ⟨(m s).2, Prod.ext hs.1 rfl, hs.2⟩

/-! ## The DST chunk -/

/-- The first frame of a DST chunk at `start`, or the CRC chunk behind that frame, is
passed over to a place at or before `start`. Two numbers stand in for sizes here: that of
the frame, and what lies behind the size of the CRC. -/
def DstBack (content : List UInt8) (start : Nat) : Prop :=
  typeAt content (start + 12) = .frte ∧ fieldAt content (start + 16) 8 = 6 ∧
    2 ≤ fieldAt content (start + 24) 4 ∧ typeAt content (start + 30) = .dstf ∧
    ∃ t, skipTo content (start + 34) = some t ∧
      if typeAt content t = .dstc then ∃ u, skipTo content (t + 12) = some u ∧ u ≤ start
      else t + 4 ≤ start

theorem uint64_eq_ok_iff {content : List UInt8} {p n : Nat} {f : ByteFile} :
    ioReadUint64Be ⟨content, p⟩ = (.ok n, f) ↔
      p + 8 ≤ content.length ∧ fieldAt content p 8 = n ∧ ⟨content, p + 8⟩ = f := by
  by_cases h : p + 8 ≤ content.length
  · simp [uint64_of_le h, h]
  · simp [uint64_error (by omega : content.length < p + 8), h]

theorem uint32_eq_ok_iff {content : List UInt8} {p : Nat} {n : UInt32} {f : ByteFile} :
    ioReadUint32Be ⟨content, p⟩ = (.ok n, f) ↔
      p + 4 ≤ content.length ∧ UInt32.ofNat (fieldAt content p 4) = n ∧ ⟨content, p + 4⟩ = f := by
  by_cases h : p + 4 ≤ content.length
  · have hread : ioReadUint32Be ⟨content, p⟩ = (.ok _, ⟨content, p + 4⟩) :=
      bind_of_ok (ioReadBytes_of_le h)
    simp [hread, h, fieldAt]
  · have hread : ioReadUint32Be ⟨content, p⟩ = (.error .readFailed, _) :=
      bind_of_error (ioReadBytes_error (by omega) (by omega))
    simp [hread, h]

theorem uint16_eq_ok_iff {content : List UInt8} {p : Nat} {n : UInt16} {f : ByteFile} :
    ioReadUint16Be ⟨content, p⟩ = (.ok n, f) ↔
      p + 2 ≤ content.length ∧ UInt16.ofNat (fieldAt content p 2) = n ∧ ⟨content, p + 2⟩ = f := by
  by_cases h : p + 2 ≤ content.length
  · have hread : ioReadUint16Be ⟨content, p⟩ = (.ok _, ⟨content, p + 2⟩) :=
      bind_of_ok (ioReadBytes_of_le h)
    simp [hread, h, fieldAt]
  · have hread : ioReadUint16Be ⟨content, p⟩ = (.error .readFailed, _) :=
      bind_of_error (ioReadBytes_error (by omega) (by omega))
    simp [hread, h]

theorem expectChunk_eq_ok_iff {type : ChunkType} {content : List UInt8} {p : Nat} {u : Unit}
    {f : ByteFile} :
    expectChunk type ⟨content, p⟩ = (.ok u, f) ↔
      p + 4 ≤ content.length ∧ typeAt content p = type ∧ ⟨content, p + 4⟩ = f := by
  by_cases h : p + 4 ≤ content.length
  · by_cases htype : typeAt content p = type
    · simp [expectChunk, header_of_le h, htype, h]
    · simp [expectChunk, header_of_le h, htype]
  · simp [expectChunk, header_error (by omega : content.length < p + 4), h]

theorem liftIo_eq_ok_iff {α : Type} {m : Io α} {a : α} {s t : OpenHandle} :
    liftIo m s = (.ok a, t) ↔ ∃ io, m s.io = (.ok a, io) ∧ ⟨s.handle, io⟩ = t := zoom_eq_ok_iff

theorem update_eq_ok_iff {f : Handle → Handle} {u : Unit} {s t : OpenHandle} :
    update f s = (.ok u, t) ↔ ⟨f s.handle, s.io⟩ = t := by
  simp [update]

/-- FRTE is read where it has its size, and gives the number of frames. -/
theorem readFrte_eq_ok_iff {h : Handle} {content : List UInt8} {p : Nat} {u : Unit}
    {t : OpenHandle} :
    readFrte ⟨h, ⟨content, p⟩⟩ = (.ok u, t) ↔
      fieldAt content p 8 = 6 ∧ p + 14 ≤ content.length ∧
        ⟨{ h with
          dstFrameCount := UInt32.ofNat (fieldAt content (p + 8) 4),
          dstFrameRate := UInt16.ofNat (fieldAt content (p + 12) 2) },
          ⟨content, p + 14⟩⟩ = t := by
  constructor
  · intro hread
    obtain ⟨size, s₁, h₁, hread⟩ := bind_eq_ok hread
    obtain ⟨io, hio, rfl⟩ := liftIo_eq_ok_iff.1 h₁
    obtain ⟨_, rfl, rfl⟩ := uint64_eq_ok_iff.1 hio
    obtain ⟨_, s₂, h₂, hread⟩ := bind_eq_ok hread
    obtain ⟨hsize, rfl⟩ := require_eq_ok_iff.1 h₂
    obtain ⟨_, s₃, h₃, hread⟩ := bind_eq_ok hread
    obtain ⟨io, hio, rfl⟩ := liftIo_eq_ok_iff.1 h₃
    obtain ⟨_, rfl, rfl⟩ := uint32_eq_ok_iff.1 hio
    obtain ⟨_, s₄, h₄, hread⟩ := bind_eq_ok hread
    obtain rfl := update_eq_ok_iff.1 h₄
    obtain ⟨_, s₅, h₅, hread⟩ := bind_eq_ok hread
    obtain ⟨io, hio, rfl⟩ := liftIo_eq_ok_iff.1 h₅
    obtain ⟨hlen, rfl, rfl⟩ := uint16_eq_ok_iff.1 hio
    exact ⟨hsize, hlen, update_eq_ok_iff.1 hread⟩
  · rintro ⟨hsize, hlen, rfl⟩
    have h₁ (g : Handle) : liftIo ioReadUint64Be ⟨g, ⟨content, p⟩⟩ =
        (.ok (fieldAt content p 8), ⟨g, ⟨content, p + 8⟩⟩) :=
      liftIo_eq_ok_iff.2 ⟨_, uint64_eq_ok_iff.2 ⟨by omega, rfl, rfl⟩, rfl⟩
    have h₂ (g : Handle) : liftIo ioReadUint32Be ⟨g, ⟨content, p + 8⟩⟩ =
        (.ok (UInt32.ofNat (fieldAt content (p + 8) 4)), ⟨g, ⟨content, p + 12⟩⟩) :=
      liftIo_eq_ok_iff.2 ⟨_, uint32_eq_ok_iff.2 ⟨by omega, rfl, rfl⟩, rfl⟩
    have h₃ (g : Handle) : liftIo ioReadUint16Be ⟨g, ⟨content, p + 12⟩⟩ =
        (.ok (UInt16.ofNat (fieldAt content (p + 12) 2)), ⟨g, ⟨content, p + 14⟩⟩) :=
      liftIo_eq_ok_iff.2 ⟨_, uint16_eq_ok_iff.2 ⟨by omega, rfl, rfl⟩, rfl⟩
    rw [readFrte, bind_of_ok (h₁ h), require_of hsize, bind_of_ok (pure_apply _ _),
      bind_of_ok (h₂ h), bind_of_ok (a := ()) (update_eq_ok_iff.2 rfl), bind_of_ok (h₃ _)]
    rfl

/-- Behind a frame that ends far enough before the end of the file, what is read of the CRC
leads back to `start` only by a skip or by lying there. -/
theorem skipDstc_back {h : Handle} {content : List UInt8} {t start : Nat}
    (hstart : start < content.length) :
    (∃ s, skipDstc ⟨h, ⟨content, t⟩⟩ = (.ok (), s) ∧ s.io.pos ≤ start) ↔
      if typeAt content t = .dstc then ∃ u, skipTo content (t + 12) = some u ∧ u ≤ start
      else t + 4 ≤ start := by
  by_cases hlen : t + 4 ≤ content.length
  · by_cases htype : typeAt content t = .dstc
    · rw [if_pos htype]
      have hheader := header_of_le hlen
      rw [htype] at hheader
      simp only [skipDstc, hheader, chunkGetDstcSize]
      by_cases hsize : t + 12 ≤ content.length
      · rw [uint64_of_le (p := t + 4) (by omega)]
        simp only [liftIo_eq_ok_iff, chunkSkip_eq_ok]
        constructor
        · rintro ⟨_, ⟨_, ⟨u, hu, rfl⟩, rfl⟩, hle⟩
          exact ⟨u, hu, hle⟩
        · rintro ⟨u, hu, hle⟩
          exact ⟨_, ⟨_, ⟨u, hu, rfl⟩, rfl⟩, hle⟩
      · rw [uint64_error (p := t + 4) (by omega)]
        refine iff_of_false ?_ ?_
        · rintro ⟨s, hs, hle⟩
          cases hs
          dsimp only at hle
          omega
        · rintro ⟨u, hu, _⟩
          rw [skipTo, if_neg (by omega)] at hu
          cases hu
    · rw [if_neg htype]
      have hnext : skipDstc ⟨h, ⟨content, t⟩⟩ = (.ok (), ⟨h, ⟨content, t + 4⟩⟩) := by
        simp only [skipDstc, header_of_le hlen]
        split
        · next heq => exact absurd (Except.ok.inj (Prod.mk.inj heq).1) htype
        · next heq => rw [← (Prod.mk.inj heq).2]
      simp [hnext]
  · have htype : typeAt content t ≠ .dstc := fun h' =>
      hlen (typeAt_ne_unknown h' (by decide))
    rw [if_neg htype]
    have hnext : skipDstc ⟨h, ⟨content, t⟩⟩ = (.ok (), ⟨h, ⟨content, max t content.length⟩⟩) := by
      simp only [skipDstc, header_error (by omega : content.length < t + 4)]
    rw [hnext]
    refine iff_of_false ?_ (by omega)
    rintro ⟨s, hs, hle⟩
    cases hs
    dsimp only at hle
    omega

theorem dstHeader_eq_ok_iff {content : List UInt8} {p : Nat} {r : Nat × Nat} {f : ByteFile} :
    chunkReadDstHeader ⟨content, p⟩ = (.ok r, f) ↔
      p + 8 ≤ content.length ∧ (fieldAt content p 8, p + 8) = r ∧ ⟨content, p + 8⟩ = f := by
  by_cases h : p + 8 ≤ content.length
  · have hread : chunkReadDstHeader ⟨content, p⟩ = (.ok _, ⟨content, p + 8⟩) :=
      bind_of_ok (uint64_of_le h)
    simp [hread, h]
  · have hread : chunkReadDstHeader ⟨content, p⟩ = (.error .readFailed, _) :=
      bind_of_error (uint64_error (by omega))
    simp [hread, h]

/-- What the head of a DST chunk at `start` and its FRTE put into the handle. -/
def noteDst (h : Handle) (content : List UInt8) (start : Nat) : Handle :=
  { h with
    soundDataStartPos := start + 12 + 22
    dstFrameCount := UInt32.ofNat (fieldAt content (start + 24) 4)
    dstFrameRate := UInt16.ofNat (fieldAt content (start + 28) 2) }

theorem noteDst_few {h : Handle} {content : List UInt8} {start : Nat} :
    (noteDst h content start).dstFrameCount < 2 ↔ fieldAt content (start + 24) 4 < 2 := by
  have hcount := fieldAt_four_lt content (start + 24)
  rw [noteDst, UInt32.lt_iff_toNat_lt, UInt32.toNat_ofNat_of_lt' hcount]
  rfl

/-- Behind FRTE `parseDst` stops where there are less than two frames. -/
theorem parseDst_of_frte {h : Handle} {content : List UInt8} {start : Nat}
    (htype : typeAt content (start + 12) = .frte) (hsize : fieldAt content (start + 16) 8 = 6)
    (hlen : start + 30 ≤ content.length) :
    parseDst ⟨h, ⟨content, start + 4⟩⟩ =
      if (noteDst h content start).dstFrameCount < 2 then
        (.ok (), ⟨noteDst h content start, ⟨content, start + 30⟩⟩)
      else
        (liftIo (expectChunk .dstf) >>= fun _ => liftIo chunkSkip >>= fun _ => skipDstc)
          ⟨noteDst h content start, ⟨content, start + 30⟩⟩ := by
  have hheader : liftIo chunkReadDstHeader ⟨h, ⟨content, start + 4⟩⟩ =
      (.ok (fieldAt content (start + 4) 8, start + 12), ⟨h, ⟨content, start + 12⟩⟩) :=
    liftIo_eq_ok_iff.2 ⟨_, dstHeader_eq_ok_iff.2 ⟨by omega, rfl, rfl⟩, rfl⟩
  let g := { h with soundDataStartPos := start + 12 + 22 }
  have hnote : update (fun h => { h with soundDataStartPos := start + 12 + 22 })
      ⟨h, ⟨content, start + 12⟩⟩ = (.ok (), ⟨g, ⟨content, start + 12⟩⟩) := rfl
  have hnext : liftIo (expectChunk .frte) ⟨g, ⟨content, start + 12⟩⟩ =
      (.ok (), ⟨g, ⟨content, start + 16⟩⟩) :=
    liftIo_eq_ok_iff.2 ⟨_, expectChunk_eq_ok_iff.2 ⟨by omega, htype, rfl⟩, rfl⟩
  have hfrte : readFrte ⟨g, ⟨content, start + 16⟩⟩ =
      (.ok (), ⟨noteDst h content start, ⟨content, start + 30⟩⟩) :=
    readFrte_eq_ok_iff.2 ⟨hsize, hlen, rfl⟩
  rw [parseDst, bind_of_ok hheader]
  dsimp only
  rw [bind_of_ok hnote, bind_of_ok hnext, bind_of_ok hfrte, bind_of_ok (get_apply _)]
  dsimp only
  split <;> rfl

theorem parseDst_eq_ok {h : Handle} {content : List UInt8} {start : Nat} {s : OpenHandle}
    (hs : parseDst ⟨h, ⟨content, start + 4⟩⟩ = (.ok (), s)) :
    typeAt content (start + 12) = .frte ∧ fieldAt content (start + 16) 8 = 6 ∧
      start + 30 ≤ content.length := by
  obtain ⟨_, s₁, h₁, hs⟩ := bind_eq_ok hs
  obtain ⟨io, hio, rfl⟩ := liftIo_eq_ok_iff.1 h₁
  obtain ⟨_, rfl, rfl⟩ := dstHeader_eq_ok_iff.1 hio
  dsimp only at hs
  obtain ⟨_, s₂, h₂, hs⟩ := bind_eq_ok hs
  obtain rfl := update_eq_ok_iff.1 h₂
  obtain ⟨_, s₃, h₃, hs⟩ := bind_eq_ok hs
  obtain ⟨io, hio, rfl⟩ := liftIo_eq_ok_iff.1 h₃
  obtain ⟨_, htype, rfl⟩ := expectChunk_eq_ok_iff.1 hio
  obtain ⟨_, s₄, h₄, hs⟩ := bind_eq_ok hs
  obtain ⟨hsize, hlen, _⟩ := readFrte_eq_ok_iff.1 h₄
  exact ⟨htype, hsize, hlen⟩

/-- A DST chunk is read to a place at or before its start exactly where `DstBack` says. -/
theorem parseDst_back {h : Handle} {content : List UInt8} {start : Nat} :
    (∃ s, parseDst ⟨h, ⟨content, start + 4⟩⟩ = (.ok (), s) ∧ s.io.pos ≤ start) ↔
      DstBack content start := by
  constructor
  · rintro ⟨s, hs, hle⟩
    obtain ⟨htype, hsize, hlen⟩ := parseDst_eq_ok hs
    rw [parseDst_of_frte htype hsize hlen] at hs
    by_cases hfew : fieldAt content (start + 24) 4 < 2
    · rw [if_pos (noteDst_few.2 hfew)] at hs
      cases hs
      dsimp only at hle
      omega
    · rw [if_neg (mt noteDst_few.1 hfew)] at hs
      obtain ⟨_, s₁, h₁, hs⟩ := bind_eq_ok hs
      obtain ⟨io, hio, rfl⟩ := liftIo_eq_ok_iff.1 h₁
      obtain ⟨_, hdstf, rfl⟩ := expectChunk_eq_ok_iff.1 hio
      obtain ⟨_, s₂, h₂, hs⟩ := bind_eq_ok hs
      obtain ⟨io, hio, rfl⟩ := liftIo_eq_ok_iff.1 h₂
      obtain ⟨t, ht, rfl⟩ := chunkSkip_eq_ok.1 hio
      exact ⟨htype, hsize, by omega, hdstf, t, ht, (skipDstc_back (by omega)).1 ⟨s, hs, hle⟩⟩
  · rintro ⟨htype, hsize, hmany, hdstf, t, ht, hback⟩
    have hlen := typeAt_ne_unknown hdstf (by decide)
    obtain ⟨s, hs, hle⟩ := (skipDstc_back (h := noteDst h content start) (by omega)).2 hback
    refine ⟨s, ?_, hle⟩
    have hnext : liftIo (expectChunk .dstf) ⟨noteDst h content start, ⟨content, start + 30⟩⟩ =
        (.ok (), ⟨noteDst h content start, ⟨content, start + 34⟩⟩) :=
      liftIo_eq_ok_iff.2 ⟨_, expectChunk_eq_ok_iff.2 ⟨hlen, hdstf, rfl⟩, rfl⟩
    have hskip : liftIo chunkSkip ⟨noteDst h content start, ⟨content, start + 34⟩⟩ =
        (.ok (), ⟨noteDst h content start, ⟨content, t⟩⟩) :=
      liftIo_eq_ok_iff.2 ⟨_, chunkSkip_eq_ok.2 ⟨t, ht, rfl⟩, rfl⟩
    rw [parseDst_of_frte htype hsize (by omega), if_neg (mt noteDst_few.1 (by omega)), bind_of_ok hnext,
      bind_of_ok hskip]
    exact hs

end DsdNexus.Dsdiff
