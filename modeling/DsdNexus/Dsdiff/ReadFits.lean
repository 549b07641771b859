import DsdNexus.Dsdiff.ReadRooms

/-! # DSDIFF: which reads fit their buffers

A reader overruns its buffer exactly where the length of a text is the greatest there is, so
that the size with the terminator wraps around, and a frame overruns that of the caller where
it is longer than the caller says.
-/

namespace DsdNexus.Dsdiff

open Program FileProgram Logged

/-! ## Texts -/

section Fits

variable {content : List UInt8} {p : Nat}

theorem uint8_eq_ok_iff {n : UInt8} {f : ByteFile} :
    ioReadUint8 ⟨content, p⟩ = (.ok n, f) ↔
      p + 1 ≤ content.length ∧ UInt8.ofNat (fieldAt content p 1) = n ∧ ⟨content, p + 1⟩ = f := by
  by_cases h : p + 1 ≤ content.length
  · have hread : ioReadUint8 ⟨content, p⟩ = (.ok _, ⟨content, p + 1⟩) :=
      bind_of_ok (ioReadBytes_of_le h)
    simp [hread, h, fieldAt]
  · have hread : ioReadUint8 ⟨content, p⟩ = (.error .readFailed, _) :=
      bind_of_error (ioReadBytes_error (by omega) (by omega))
    simp [hread, h]

theorem textFits_of_le {length : Nat} (h : content.length ≤ p + 1) : TextFits content p length :=
  fun _ => h

theorem fits_fillText (numChars : UInt32) :
    All Fill.Fits (fillText numChars) ⟨content, p⟩ ↔ TextFits content p numChars.toNat := by
  have hread : ((ByteFile.mk content p).read numChars.toNat).1.length =
      min numChars.toNat (content.length - p) := ByteFile.read_length _ _
  have hlt := numChars.toNat_lt
  have hroom := lt_roomOf_iff numChars
  have hmalloc : ∀ t, saMalloc (numChars + 1).toNat ⟨content, p⟩ = (.ok (), t) →
      (numChars + 1).toNat ≤ maxAllocSize ∧ ⟨content, p⟩ = t := fun t => require_eq_ok_iff.1
  simp only [fillText, fillString, all_lift_bind, all_noting, Fill.Fits]
  unfold TextFits
  by_cases hmax : numChars.toNat = 2 ^ 32 - 1
  · have hlast : numChars = 0xFFFFFFFF := UInt32.toNat_inj.1 hmax
    have hzero : roomOf (numChars + 1).toNat = 1 := by
      rw [hlast]
      rfl
    have hok : saMalloc (numChars + 1).toNat ⟨content, p⟩ = (.ok (), ⟨content, p⟩) := by
      rw [hlast]
      rfl
    rw [hzero]
    constructor
    · intro hfits _
      have hfilled := hfits () ⟨content, p⟩ hok
      rw [hread] at hfilled
      split at hfilled <;> omega
    · intro hleft u t hm
      obtain ⟨-, rfl⟩ := hmalloc t hm
      rw [hread]
      split <;> omega
  · refine iff_of_true (fun u t hm => ?_) fun h => absurd h hmax
    obtain ⟨-, rfl⟩ := hmalloc t hm
    have hfits := hroom.2 hmax
    rw [hread]
    split <;> omega

theorem fits_fillTextOf (numChars : UInt32) :
    All Fill.Fits (fillTextOf numChars) ⟨content, p⟩ ↔ TextFits content p numChars.toNat := by
  unfold fillTextOf
  rw [all_ite]
  split
  · exact fits_fillText numChars
  · next hzero =>
    refine iff_of_true (all_pure _) fun hmax => absurd ?_ hzero
    rw [UInt32.lt_iff_toNat_lt, hmax]
    decide

/-! ## Fields before a text -/

section Fields

variable {α : Type} {P : Fill → Prop}

theorem all_uint8_bind {k : UInt8 → Filling ByteFile α} :
    All P (lift ioReadUint8 >>= k) ⟨content, p⟩ ↔ (p + 1 ≤ content.length →
      All P (k (UInt8.ofNat (fieldAt content p 1))) ⟨content, p + 1⟩) :=
  all_lift_bind_of fun _ _ => uint8_eq_ok_iff

theorem all_uint16_bind {k : UInt16 → Filling ByteFile α} :
    All P (lift ioReadUint16Be >>= k) ⟨content, p⟩ ↔ (p + 2 ≤ content.length →
      All P (k (UInt16.ofNat (fieldAt content p 2))) ⟨content, p + 2⟩) :=
  all_lift_bind_of fun _ _ => uint16_eq_ok_iff

theorem all_uint32_bind {k : UInt32 → Filling ByteFile α} :
    All P (lift ioReadUint32Be >>= k) ⟨content, p⟩ ↔ (p + 4 ≤ content.length →
      All P (k (UInt32.ofNat (fieldAt content p 4))) ⟨content, p + 4⟩) :=
  all_lift_bind_of fun _ _ => uint32_eq_ok_iff

theorem all_uint64_bind {k : Nat → Filling ByteFile α} :
    All P (lift ioReadUint64Be >>= k) ⟨content, p⟩ ↔ (p + 8 ≤ content.length →
      All P (k (fieldAt content p 8)) ⟨content, p + 8⟩) :=
  all_lift_bind_of fun _ _ => uint64_eq_ok_iff

end Fields

theorem toNat_fieldAt_four (content : List UInt8) (p : Nat) :
    (UInt32.ofNat (fieldAt content p 4)).toNat = fieldAt content p 4 :=
  UInt32.toNat_ofNat_of_lt' (fieldAt_four_lt content p)

/-- A text that starts behind the end of the file fits. -/
theorem imp_textFits_iff {c : Prop} {length : Nat} (h : ¬ c → content.length ≤ p + 1) :
    (c → TextFits content p length) ↔ TextFits content p length := by
  by_cases hc : c
  · exact forall_prop_of_true hc
  · exact iff_of_true (fun h' => absurd h' hc) (textFits_of_le (h hc))

theorem fits_fillEmid : All Fill.Fits fillEmid ⟨content, p⟩ ↔
    TextFits content (p + 8) (fieldAt content p 8 % 2 ^ 32) := by
  unfold fillEmid
  rw [all_uint64_bind, all_bind_of (fun _ _ => all_lift_bind.2 fun _ _ _ => all_pure _),
    fits_fillText]
  exact imp_textFits_iff fun h => by omega

theorem fits_fillCountedText : All Fill.Fits fillCountedText ⟨content, p⟩ ↔
    TextFits content (p + 12) (fieldAt content (p + 8) 4) := by
  unfold fillCountedText
  rw [all_uint64_bind, all_uint32_bind,
    all_bind_of (fun _ _ => all_lift_bind.2 fun _ _ _ => all_pure _), fits_fillText,
    toNat_fieldAt_four]
  rw [imp_textFits_iff fun h => by omega, imp_textFits_iff fun h => by omega]

/-! ## Markers and comments -/

/-- The text of a marker is read only where the size of the chunk agrees with its length, and
one that wraps around agrees with two sizes. -/
theorem fits_textOfMark {length : UInt32} {k : List UInt8 → Marker} {size : Nat} :
    All Fill.Fits (do
      lift (require ((length + 22).toNat = size ∨ (length + 22 + 1).toNat = size)
        Error.invalidFile)
      let text ← fillTextOf length
      lift (readPadOf length.toNat)
      pure (k text)) ⟨content, p⟩ ↔
    (size = 21 ∨ size = 22 → TextFits content p length.toNat) := by
  rw [all_lift_bind]
  constructor
  · intro hall hsize hmax
    have hlast : length = 0xFFFFFFFF := UInt32.toNat_inj.1 hmax
    have hagree : (length + 22).toNat = size ∨ (length + 22 + 1).toNat = size := by
      rw [hlast]
      exact hsize.imp Eq.symm Eq.symm
    have hfits := hall () _ (congrFun (require_of hagree _) _)
    rw [all_bind_of (fun _ _ => all_lift_bind.2 fun _ _ _ => all_pure _),
      fits_fillTextOf] at hfits
    exact hfits hmax
  · intro hfits u t hm
    obtain ⟨hagree, rfl⟩ := require_eq_ok_iff.1 hm
    rw [all_bind_of (fun _ _ => all_lift_bind.2 fun _ _ _ => all_pure _), fits_fillTextOf]
    intro hmax
    have hlast : length = 0xFFFFFFFF := UInt32.toNat_inj.1 hmax
    rw [hlast] at hagree
    exact hfits (hagree.imp Eq.symm Eq.symm) hmax

theorem fits_fillMark : All Fill.Fits fillMark ⟨content, p⟩ ↔
    (fieldAt content p 8 = 21 ∨ fieldAt content p 8 = 22 →
      TextFits content (p + 30) (fieldAt content (p + 26) 4)) := by
  unfold fillMark
  simp only [all_uint64_bind, all_uint32_bind, all_uint16_bind, all_uint8_bind, fits_textOfMark]
  simp only [toNat_fieldAt_four, Nat.add_assoc, Nat.reduceAdd]
  by_cases hlen : p + 30 ≤ content.length
  · constructor
    · intro h
      exact h (by omega) (by omega) (by omega) (by omega) (by omega) (by omega) (by omega)
        (by omega) (by omega) (by omega)
    · intro h _ _ _ _ _ _ _ _ _ _
      exact h
  · have hfits : ∀ length, TextFits content (p + 30) length :=
      fun length => textFits_of_le (by omega)
    exact iff_of_true (fun _ _ _ _ _ _ _ _ _ _ _ => hfits _) fun _ => hfits _

theorem fits_fillComment : All Fill.Fits fillComment ⟨content, p⟩ ↔
    TextFits content (p + 14) (fieldAt content (p + 10) 4) := by
  unfold fillComment
  simp only [all_uint32_bind, all_uint16_bind, all_uint8_bind, Nat.add_assoc, Nat.reduceAdd,
    all_bind_of (fun _ _ => all_lift_bind.2 fun _ _ _ => all_pure _), fits_fillTextOf,
    toNat_fieldAt_four]
  by_cases hlen : p + 14 ≤ content.length
  · constructor
    · intro h
      exact h (by omega) (by omega) (by omega) (by omega) (by omega) (by omega) (by omega)
        (by omega)
    · intro h _ _ _ _ _ _ _ _
      exact h
  · have hfits : ∀ length, TextFits content (p + 14) length :=
      fun length => textFits_of_le (by omega)
    exact iff_of_true (fun _ _ _ _ _ _ _ _ => hfits _) (hfits _)

theorem readPadOf_eq_ok_iff {n : Nat} {u : Unit} {f : ByteFile} :
    readPadOf n ⟨content, p⟩ = (.ok u, f) ↔
      (n % 2 ≠ 0 → p < content.length) ∧ ⟨content, p + n % 2⟩ = f := by
  unfold readPadOf
  by_cases hodd : n % 2 ≠ 0
  · have hone : n % 2 = 1 := by omega
    rw [if_pos hodd, hone]
    by_cases hin : p < content.length
    · simp [padByte_of_lt hin, hin]
    · simp [padByte_error (by omega : content.length ≤ p), hin]
  · have hzero : n % 2 = 0 := by omega
    rw [if_neg hodd, hzero]
    simp

/-- What reading a text comes to, where the file stands within its bytes. -/
theorem readTextOf_ok_iff {n : UInt32} {f : ByteFile} (hp : p ≤ content.length) :
    (∃ text, readTextOf n ⟨content, p⟩ = (.ok text, f)) ↔
      n.toNat < maxAllocSize ∧ p + n.toNat ≤ content.length ∧ ⟨content, p + n.toNat⟩ = f := by
  have hlt := n.toNat_lt
  have hmax : maxAllocSize = 2 ^ 31 - 1 := rfl
  have hone : (1 : UInt32).toNat = 1 := rfl
  unfold readTextOf
  by_cases hzero : n = 0
  · subst hzero
    have hnone : (0 : UInt32).toNat = 0 := rfl
    rw [if_neg (by decide), hnone]
    simp [hmax, hp]
  · have hpos : 0 < n.toNat := Nat.pos_of_ne_zero fun h0 => hzero (UInt32.toNat_inj.1 h0)
    rw [if_pos (UInt32.lt_iff_toNat_lt.2 (by simpa using hpos))]
    unfold readText saMalloc
    by_cases hroom : n.toNat < maxAllocSize
    · have hsize : (n + 1).toNat = n.toNat + 1 := by
        rw [UInt32.toNat_add, hone]
        omega
      have hsum : n + 1 ≠ 0 := by
        intro h0
        rw [h0] at hsize
        cases hsize
      rw [require_bind hsum, require_bind (by omega)]
      by_cases hin : p + n.toNat ≤ content.length
      · simp [ioReadBytes_of_le hin, hroom, hin]
      · simp [ioReadBytes_error hpos (by omega : content.length < p + n.toNat), hin]
    · refine iff_of_false ?_ fun h => hroom h.1
      rintro ⟨text, htext⟩
      obtain ⟨u, f₁, h₁, htext⟩ := bind_eq_ok htext
      obtain ⟨hsum, rfl⟩ := require_eq_ok_iff.1 h₁
      obtain ⟨u, f₂, h₂, -⟩ := bind_eq_ok htext
      obtain ⟨hsize, -⟩ := require_eq_ok_iff.1 h₂
      have hne : (n + 1).toNat ≠ 0 := fun h0 => hsum (UInt32.toNat_inj.1 h0)
      rw [UInt32.toNat_add, hone] at hsize hne
      omega

/-- Where the comment behind one starts that is at the place. -/
def behindComment (content : List UInt8) (p : Nat) : Nat :=
  p + 14 + fieldAt content (p + 10) 4 + fieldAt content (p + 10) 4 % 2

/-- A program that goes on from a part whose result is known. -/
theorem exists_bind_ok {α β : Type} {m : Io α} {k : α → Io β} {io f g : ByteFile} {c : Prop}
    {a : α} (h : ∀ b u, m io = (.ok b, u) ↔ c ∧ a = b ∧ f = u) :
    (∃ b, (m >>= k) io = (.ok b, g)) ↔ c ∧ ∃ b, k a f = (.ok b, g) := by
  constructor
  · rintro ⟨b, hb⟩
    obtain ⟨a', f', hm, hk⟩ := bind_eq_ok hb
    obtain ⟨hc, rfl, rfl⟩ := (h a' f').1 hm
    exact ⟨hc, b, hk⟩
  · rintro ⟨hc, b, hk⟩
    exact ⟨b, (bind_of_ok ((h a f).2 ⟨hc, rfl, rfl⟩)).trans hk⟩

/-- The text of a comment, with its pad byte. -/
theorem textOfComment_ok_iff {length : UInt32} {k : List UInt8 → Comment} {f : ByteFile}
    (hp : p ≤ content.length) :
    (∃ comment, (do
      let text ← readTextOf length
      readPadOf length.toNat
      pure (k text) : Io Comment) ⟨content, p⟩ = (.ok comment, f)) ↔
    length.toNat < maxAllocSize ∧ p + length.toNat + length.toNat % 2 ≤ content.length ∧
      ⟨content, p + length.toNat + length.toNat % 2⟩ = f := by
  constructor
  · rintro ⟨comment, hcomment⟩
    obtain ⟨text, f₁, htext, hcomment⟩ := bind_eq_ok hcomment
    obtain ⟨hroom, hin, rfl⟩ := (readTextOf_ok_iff hp).1 ⟨text, htext⟩
    obtain ⟨u, f₂, hpad, hcomment⟩ := bind_eq_ok hcomment
    obtain ⟨hodd, rfl⟩ := readPadOf_eq_ok_iff.1 hpad
    cases hcomment
    exact ⟨hroom, by omega, rfl⟩
  · rintro ⟨hroom, hin, rfl⟩
    obtain ⟨text, htext⟩ := (readTextOf_ok_iff hp).2 ⟨hroom, by omega, rfl⟩
    have hpad : readPadOf length.toNat ⟨content, p + length.toNat⟩ = (.ok (), _) :=
      readPadOf_eq_ok_iff.2 ⟨fun _ => by omega, rfl⟩
    exact ⟨k text, (bind_of_ok htext).trans (bind_of_ok hpad)⟩

theorem readComment_ok_iff {f : ByteFile} :
    (∃ comment, readComment ⟨content, p⟩ = (.ok comment, f)) ↔
      fieldAt content (p + 10) 4 < maxAllocSize ∧ behindComment content p ≤ content.length ∧
        ⟨content, behindComment content p⟩ = f := by
  unfold readComment behindComment
  rw [exists_bind_ok fun _ _ => uint16_eq_ok_iff]
  iterate 4 rw [exists_bind_ok fun _ _ => uint8_eq_ok_iff]
  iterate 2 rw [exists_bind_ok fun _ _ => uint16_eq_ok_iff]
  rw [exists_bind_ok fun _ _ => uint32_eq_ok_iff]
  simp only [Nat.add_assoc, Nat.reduceAdd]
  by_cases hlen : p + 14 ≤ content.length
  · rw [textOfComment_ok_iff hlen, toNat_fieldAt_four, Nat.add_assoc, Nat.add_assoc]
    exact ⟨fun h => h.2.2.2.2.2.2.2.2, fun h => ⟨by omega, by omega, by omega, by omega,
      by omega, by omega, by omega, by omega, h⟩⟩
  · exact iff_of_false (fun h => by omega) (fun h => by omega)

/-- Comments that would start behind the end of the file fit. -/
theorem commentsFit_of_le {n : Nat} (h : content.length ≤ p) : CommentsFit content n p := by
  induction n generalizing p with
  | zero => exact trivial
  | succ n ih => exact ⟨textFits_of_le (by omega), fun _ => ih (by omega)⟩

theorem fits_fillComments (n : Nat) :
    All Fill.Fits (fillComments n) ⟨content, p⟩ ↔ CommentsFit content n p := by
  induction n generalizing p with
  | zero => exact iff_of_true (all_pure _) trivial
  | succ n ih =>
    unfold fillComments CommentsFit
    rw [all_bind, fits_fillComment, erase_fillComment]
    refine and_congr_right fun _ => ?_
    simp only [all_bind_of fun _ _ => all_pure _]
    constructor
    · intro hall hroom
      by_cases hin : behindComment content p ≤ content.length
      · obtain ⟨comment, hcomment⟩ := readComment_ok_iff.2 ⟨hroom, hin, rfl⟩
        exact ih.1 (hall comment _ hcomment)
      · exact commentsFit_of_le (by unfold behindComment at hin; omega)
    · intro hfit comment t hcomment
      obtain ⟨hroom, -, rfl⟩ := readComment_ok_iff.1 ⟨comment, hcomment⟩
      exact ih.2 (hfit hroom)

theorem fits_fillComt : All Fill.Fits fillComt ⟨content, p⟩ ↔
    CommentsFit content (fieldAt content (p + 8) 2) (p + 10) := by
  have hcount : (UInt16.ofNat (fieldAt content (p + 8) 2)).toNat = fieldAt content (p + 8) 2 :=
    UInt16.toNat_ofNat_of_lt' ((fieldAt_lt_pow content (p + 8) 2).trans_eq (by norm_num))
  unfold fillComt
  rw [all_uint64_bind, all_uint16_bind, fits_fillComments, hcount]
  by_cases hlen : p + 10 ≤ content.length
  · exact ⟨fun h => h (by omega) hlen, fun h _ _ => h⟩
  · exact iff_of_true (fun _ h => absurd h hlen) (commentsFit_of_le (by omega))

/-! ## Tags and manufacturer data -/

/-- A buffer that is allocated for what is read has the room. -/
theorem fits_fillBytes (io : ByteFile) (size : Nat) :
    All Fill.Fits (fillBytes (roomOf size) size) io :=
  all_noting.2 ((io.read_length_le size).trans (Nat.le_max_right 1 size))

theorem fits_fillId3 (io : ByteFile) : All Fill.Fits fillId3 io := by
  unfold fillId3
  refine all_lift_bind.2 fun size t _ => all_ite.2 ?_
  split
  · exact all_pure _
  · refine all_lift_bind.2 fun _ u _ => (all_bind_of fun _ _ => ?_).2 (fits_fillBytes u size)
    exact all_lift_bind.2 fun _ _ _ => all_pure _

theorem fits_fillManf (s : OpenHandle) : All Fill.Fits fillManf s := by
  unfold fillManf
  refine all_lift_bind.2 fun _ _ _ => all_lift_bind.2 fun _ _ _ => all_lift_bind.2 fun size _ _ =>
    all_lift_bind.2 fun _ t _ => all_bind.2 ⟨fits_fillBytes t.io 4, fun _ _ _ => ?_⟩
  refine all_lift_bind.2 fun _ _ _ => all_lift_bind.2 fun _ t _ =>
    (all_bind_of fun _ _ => ?_).2 (fits_fillBytes t.io _)
  exact all_lift_bind.2 fun _ _ _ => all_lift _

/-! ## Frames -/

theorem fits_fillDstf (maxFrameSize : UInt32) : All Fill.Fits (fillDstf maxFrameSize) ⟨content, p⟩ ↔
    FrameFits content p maxFrameSize := by
  unfold fillDstf FrameFits
  rw [all_uint64_bind, all_bind_of fun _ _ => all_lift_bind.2 fun _ _ _ =>
    all_lift_bind.2 fun _ _ _ => all_pure _]
  unfold fillBytes Fill.Fits
  rw [all_noting, ByteFile.read_length]
  by_cases hlen : p + 8 ≤ content.length
  · exact ⟨fun h => h hlen, fun h _ => h⟩
  · exact iff_of_true (fun h => absurd h hlen) (by omega)

theorem fits_fillDstc (maxCrcSize : UInt32) : All Fill.Fits (fillDstc maxCrcSize) ⟨content, p⟩ ↔
    min (fieldAt content p 8) (content.length - (p + 8)) ≤ maxCrcSize.toNat := by
  unfold fillDstc
  rw [all_uint64_bind, all_bind_of fun _ _ => all_lift_bind.2 fun _ _ _ => all_pure _]
  unfold fillBytes Fill.Fits
  rw [all_noting, ByteFile.read_length]
  by_cases hlen : p + 8 ≤ content.length
  · exact ⟨fun h => h hlen, fun h _ => h⟩
  · exact iff_of_true (fun h => absurd h hlen) (by omega)

theorem ioReadBytes_ok_iff {n : Nat} {bytes : List UInt8} {f : ByteFile}
    (hp : p ≤ content.length) :
    ioReadBytes n ⟨content, p⟩ = (.ok bytes, f) ↔
      p + n ≤ content.length ∧ (content.drop p).take n = bytes ∧ ⟨content, p + n⟩ = f := by
  by_cases hin : p + n ≤ content.length
  · simp [ioReadBytes_of_le hin, hin]
  · have herror := ioReadBytes_error (by omega : 0 < n) (by omega : content.length < p + n)
    simp [herror, hin]

/-- A frame is read whole where its size is no more than 32 bits and the file has it all. -/
theorem chunkReadDstf_ok_iff {f : ByteFile} :
    (∃ data, chunkReadDstf ⟨content, p⟩ = (.ok data, f)) ↔
      fieldAt content p 8 < 2 ^ 32 ∧ p + 8 ≤ content.length ∧
        behindFrame content p ≤ content.length ∧ ⟨content, behindFrame content p⟩ = f := by
  unfold chunkReadDstf behindFrame
  rw [exists_bind_ok fun _ _ => uint64_eq_ok_iff]
  constructor
  · rintro ⟨hlen, data, hdata⟩
    obtain ⟨bytes, f₁, hbytes, hdata⟩ := bind_eq_ok hdata
    obtain ⟨u, f₂, hsize, hdata⟩ := bind_eq_ok hdata
    obtain ⟨hwhole, rfl⟩ := require_eq_ok_iff.1 hsize
    obtain ⟨u, f₃, hpad, hdata⟩ := bind_eq_ok hdata
    cases hdata
    obtain ⟨hin, rfl, rfl⟩ := (ioReadBytes_ok_iff hlen).1 hbytes
    have hbound : fieldAt content p 8 % 2 ^ 32 = fieldAt content p 8 := by
      rw [List.length_take, List.length_drop] at hwhole
      omega
    rw [hbound] at hin hpad
    obtain ⟨hodd, rfl⟩ := readPadOf_eq_ok_iff.1 hpad
    exact ⟨by omega, hlen, by omega, rfl⟩
  · rintro ⟨hsize, hlen, hin, rfl⟩
    have hbound : fieldAt content p 8 % 2 ^ 32 = fieldAt content p 8 := Nat.mod_eq_of_lt hsize
    rw [hbound]
    have hbytes := (ioReadBytes_ok_iff hlen).2
      ⟨(by omega : p + 8 + fieldAt content p 8 ≤ content.length), rfl, rfl⟩
    have hwhole : ((content.drop (p + 8)).take (fieldAt content p 8)).length =
        fieldAt content p 8 := by
      rw [List.length_take, List.length_drop]
      omega
    have hpad : readPadOf (fieldAt content p 8) ⟨content, p + 8 + fieldAt content p 8⟩ =
        (.ok (), _) := readPadOf_eq_ok_iff.2 ⟨fun _ => by omega, rfl⟩
    refine ⟨hlen, (content.drop (p + 8)).take (fieldAt content p 8), ?_⟩
    rw [bind_of_ok hbytes, require_bind hwhole, bind_of_ok hpad]
    rfl

/-- The id that is found behind a frame; behind the end of the file there is none. -/
theorem nextChunkId_apply (content : List UInt8) (p : Nat) : ∃ f, nextChunkId ⟨content, p⟩ = (.ok (typeAt content p), f) ∧
    (typeAt content p ≠ .unknown → f = ⟨content, p + 4⟩) := by
  unfold nextChunkId
  by_cases hlen : p + 4 ≤ content.length
  · rw [header_of_le hlen]
    exact ⟨_, rfl, fun _ => rfl⟩
  · have hunknown : typeAt content p = .unknown := by
      by_contra hne
      exact hlen (typeAt_ne_unknown rfl hne)
    rw [header_error (by omega), hunknown]
    exact ⟨_, rfl, fun hne => absurd rfl hne⟩

theorem fits_readDstFrame (h : Handle) (maxFrameSize : UInt32) :
    All Fill.Fits (readDstFrame h maxFrameSize) ⟨content, p⟩ ↔
      FrameFits content p maxFrameSize := by
  unfold readDstFrame
  rw [all_bind_of fun _ _ => ?_, fits_fillDstf]
  refine all_lift_bind.2 fun _ _ _ => all_ite.2 ?_
  split
  · exact all_bind.2 ⟨all_lift _, fun _ _ _ => all_lift_bind.2 fun _ _ _ =>
      all_lift_bind.2 fun _ _ _ => all_pure _⟩
  · exact all_lift_bind.2 fun _ _ _ => all_pure _

theorem fits_readDstFrameWithCrc (h : Handle) (maxFrameSize maxCrcSize : UInt32) :
    All Fill.Fits (readDstFrameWithCrc h maxFrameSize maxCrcSize) ⟨content, p⟩ ↔
      FrameFits content p maxFrameSize ∧ CrcFits content p maxCrcSize := by
  unfold readDstFrameWithCrc
  rw [all_bind, fits_fillDstf, erase_fillDstf]
  refine and_congr_right fun _ => ?_
  unfold CrcFits
  -- What is read behind the frame, which has to be read whole for it.
  have hrest : ∀ dstData : List UInt8, All Fill.Fits (do
      let chunkId ← lift nextChunkId
      if chunkId = .dstc then
        let crcData ← attempt (fillDstc maxCrcSize)
        let chunkId ← lift (if crcData.toBool then nextChunkId else pure .dstc)
        lift (leaveFrame h chunkId)
        pure (dstData, crcData.toOption.getD [])
      else
        lift (leaveFrame h chunkId)
        pure (dstData, [])) ⟨content, behindFrame content p⟩ ↔
      (typeAt content (behindFrame content p) = .dstc →
        min (fieldAt content (behindFrame content p + 4) 8)
          (content.length - (behindFrame content p + 12)) ≤ maxCrcSize.toNat) := by
    intro dstData
    obtain ⟨f, hnext, hf⟩ := nextChunkId_apply content (behindFrame content p)
    rw [all_lift_bind_of (c := True) (a := typeAt content (behindFrame content p)) (t := f)
      (fun b u => by rw [hnext]; simp), forall_prop_of_true trivial, all_ite]
    split
    · next hdstc =>
      rw [all_bind_of fun _ _ => all_lift_bind.2 fun _ _ _ => all_lift_bind.2 fun _ _ _ =>
        all_pure _, all_attempt, hf (by rw [hdstc]; decide), fits_fillDstc]
      exact ⟨fun hfits _ => hfits, fun hfits => hfits hdstc⟩
    · next hother =>
      exact iff_of_true (all_lift_bind.2 fun _ _ _ => all_pure _) fun hdstc => absurd hdstc hother
  constructor
  · intro hall hsize hdstc
    have hin := typeAt_ne_unknown hdstc (by decide)
    have hle : p + 8 ≤ behindFrame content p := by
      unfold behindFrame
      omega
    obtain ⟨data, hdata⟩ := chunkReadDstf_ok_iff.2 ⟨hsize, by omega, by omega, rfl⟩
    exact (hrest data).1 (hall data _ hdata) hdstc
  · intro hfits data t hdata
    obtain ⟨hsize, -, -, rfl⟩ := chunkReadDstf_ok_iff.1 ⟨data, hdata⟩
    exact (hrest data).2 (hfits hsize)

/-! ## All of them -/

/-- A reader of the file fills what it fills for an open handle. -/
theorem fits_ofIo {α : Type} (m : Filling ByteFile α) (s : OpenHandle) :
    All Fill.Fits (do
      let _ ← ofIo m
      pure () : Filling OpenHandle Unit) s ↔ All Fill.Fits m ⟨s.io.content, s.io.pos⟩ :=
  (all_bind_of fun _ _ => all_pure _).trans all_zoom

/-- What a call reads fits its buffers exactly where the length fields ahead are bounded. -/
theorem fills_fit_iff (q : FillingCall) (s : OpenHandle) :
    q.Fits s ↔ q.Bounded s.io.content s.io.pos := by
  cases q <;> simp only [FillingCall.Fits, FillingCall.run, FillingCall.Bounded]
  case comt => rw [fits_ofIo, fits_fillComt]
  case emid => rw [fits_ofIo, fits_fillEmid]
  case diar => rw [fits_ofIo, fits_fillCountedText]
  case diti => rw [fits_ofIo, fits_fillCountedText]
  case mark => rw [fits_ofIo, fits_fillMark]
  case manf => exact iff_of_true (fits_fillManf s) trivial
  case id3 => exact iff_of_true ((fits_ofIo _ s).2 (fits_fillId3 _)) trivial
  case dstFrame => rw [all_get_bind, fits_ofIo, fits_readDstFrame]
  case dstFrameWithCrc => rw [all_get_bind, fits_ofIo, fits_readDstFrameWithCrc]

/-- An EMID chunk whose size is the greatest number of 32 bits, and a frame of two bytes for a
buffer of one. -/
theorem fills_overrun :
    ¬ FillingCall.emid.Fits ⟨new, ⟨[0, 0, 0, 0, 255, 255, 255, 255, 1, 2, 3], 0⟩⟩ ∧
      ¬ (FillingCall.dstFrame 1).Fits ⟨new, ⟨[0, 0, 0, 0, 0, 0, 0, 2, 7, 7], 0⟩⟩ := by
  constructor
  · intro hfits
    have htext := fits_fillEmid.1 ((fits_ofIo _ _).1 hfits)
    exact absurd (htext (by decide)) (by decide)
  · intro hfits
    have hframe := (fits_readDstFrame _ _).1 ((fits_ofIo _ _).1 (all_get_bind.1 hfits))
    have hlong : ¬ 2 ≤ (1 : UInt32).toNat := by decide
    have hsize : fieldAt [0, 0, 0, 0, 0, 0, 0, 2, 7, 7] 0 8 = 2 := by decide
    unfold FrameFits at hframe
    rw [hsize] at hframe
    exact hlong hframe

end Fits

end DsdNexus.Dsdiff
