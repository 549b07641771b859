import DsdNexus.Dsf.EndOfAudio

/-! # DSF: seeking in the audio

Reads serve from converted block groups, while seeks and position queries go by the file. A
seek takes a place in the stream for a place in the file, and the two are the same only where
block groups start; the position is that of the group behind the buffer.
-/

namespace DsdNexus.Dsf

open Program FileProgram

/-! ## The stream as it is addressed -/

/-- What can be read from the start of the audio on. -/
def fileStream (content : Bytes) : Bytes :=
  playback (storedChannels content) (content.drop headSize)

inductive AudioOp where
  | seek (byteOffset : Int) (origin : SeekDir)
  | read (n : Nat)
  | position

/-- Where a seek goes to, from a place in the stream. -/
def landing (content : Bytes) (p : Nat) (byteOffset : Int) : SeekDir → Int
  | .set => byteOffset
  | .cur => p + byteOffset
  | .end => storedDataSize content + byteOffset

/-- Calls that stay in the stream, from a place in it. -/
def Within (content : Bytes) : List AudioOp → Nat → Prop
  | [], _ => True
  | .seek byteOffset origin :: ops, p =>
    0 ≤ landing content p byteOffset origin ∧
      landing content p byteOffset origin ≤ (fileStream content).length ∧
      Within content ops (landing content p byteOffset origin).toNat
  | .read n :: ops, p => p + n ≤ (fileStream content).length ∧ Within content ops (p + n)
  | .position :: ops, p => Within content ops p

/-- The calls work, and answer as on a stream that stands at `p`. -/
def Agrees (content : Bytes) : List AudioOp → Nat → OpenHandle → Prop
  | [], _, _ => True
  | .seek byteOffset origin :: ops, p, s =>
    (seekAudioData byteOffset origin s).1 = .ok () ∧
      Agrees content ops (landing content p byteOffset origin).toNat
        (seekAudioData byteOffset origin s).2
  | .read n :: ops, p, s =>
    (readAudioData n s).1 = .ok (slice (fileStream content) p n, none) ∧
      Agrees content ops (p + n) (readAudioData n s).2
  | .position :: ops, p, s =>
    (getAudioPosition s).1 = .ok p ∧ Agrees content ops p (getAudioPosition s).2

/-! ## When they agree -/

/-- The size of as many whole block groups as hold `n` bytes. -/
def roundUp (size n : Nat) : Nat := (n + size - 1) / size * size

/-- `n` bytes that come `consumed` bytes behind a place of the file are those of the stream
at `p`: the place is that of a block group and the one `p` is counted from, or there are
groups enough behind it and each byte is the byte of the stream by chance. -/
def ReadsAlike (content : Bytes) (base consumed p n : Nat) : Prop :=
  groupSize (storedChannels content) ∣ base ∧ base + consumed = p ∨
    n ≤ (content.length - headSize - base) / groupSize (storedChannels content) *
        groupSize (storedChannels content) - consumed ∧
      ∀ i < n, content.getD (headSize + (base + groupIndex (storedChannels content)
          (consumed + i))) 0 =
        content.getD (headSize + groupIndex (storedChannels content) (p + i)) 0

/-- The calls, with the file sought to `base` in the audio and so many bytes consumed since,
where the stream stands at `p`. -/
def Aligned (content : Bytes) : List AudioOp → Nat → Nat → Nat → Prop
  | [], _, _, _ => True
  | .seek byteOffset .cur :: ops, base, consumed, p =>
    headSize + (base + roundUp (groupSize (storedChannels content)) consumed + byteOffset) ≤
        ByteFile.offMax ∧
      Aligned content ops
        (base + roundUp (groupSize (storedChannels content)) consumed + byteOffset).toNat 0
        (p + byteOffset).toNat
  | .seek byteOffset origin :: ops, _, _, p =>
    Aligned content ops (landing content p byteOffset origin).toNat 0
      (landing content p byteOffset origin).toNat
  | .read n :: ops, base, consumed, p =>
    ReadsAlike content base consumed p n ∧ Aligned content ops base (consumed + n) (p + n)
  | .position :: ops, base, consumed, p =>
    base + roundUp (groupSize (storedChannels content)) consumed = p ∧
      Aligned content ops base consumed p

section Alike

theorem roundUp_eq {size n rest : Nat} (hdvd : size ∣ n + rest) (hlt : rest < size) :
    roundUp size n = n + rest := by
  obtain ⟨k, hk⟩ := hdvd
  have hpos : 0 < size := by omega
  have hdiv : (n + size - 1) / size = k := by
    refine Nat.div_eq_of_lt_le ?_ ?_
    · rw [Nat.mul_comm]
      omega
    · rw [Nat.add_mul, Nat.one_mul, Nat.mul_comm k size]
      omega
  rw [roundUp, hdiv, hk, Nat.mul_comm]

theorem roundUp_zero {size : Nat} (h : 0 < size) : roundUp size 0 = 0 := by
  rw [roundUp, Nat.div_eq_of_lt (by omega), Nat.zero_mul]

theorem dvd_roundUp (size n : Nat) : size ∣ roundUp size n := Nat.dvd_mul_left _ _

theorem roundUp_lt {size : Nat} (h : 0 < size) (n : Nat) : roundUp size n < n + size := by
  have hle := Nat.div_mul_le_self (n + size - 1) size
  rw [roundUp]
  omega

theorem le_roundUp {size : Nat} (h : 0 < size) (n : Nat) : n ≤ roundUp size n := by
  have hdiv := Nat.div_add_mod (n + size - 1) size
  have hmod := Nat.mod_lt (n + size - 1) h
  rw [roundUp, Nat.mul_comm]
  omega

/-- Slices within two lists are the same where their elements are. -/
theorem slice_eq_iff {xs ys : Bytes} {p q n : Nat} (hp : p + n ≤ xs.length)
    (hq : q + n ≤ ys.length) :
    slice xs p n = slice ys q n ↔ ∀ i < n, xs.getD (p + i) 0 = ys.getD (q + i) 0 := by
  constructor
  · intro h i hi
    have hget := congrArg (fun l => l.getD i 0) h
    simpa only [slice_getD, if_pos hi] using hget
  · intro h
    refine Patch.eq_of_getD 0 ?_ fun i => ?_
    · rw [slice_length_of_le hp, slice_length_of_le hq]
    · rw [slice_getD, slice_getD]
      split
      · next hi => exact h i hi
      · rfl

/-- What is read behind a place of the file, where it is what the stream has. -/
theorem reads_alike_iff {content : Bytes} {base consumed p n : Nat}
    (hc : 0 < storedChannels content) (hp : p + n ≤ (fileStream content).length) :
    (n ≤ ((playback (storedChannels content)
          (content.drop (headSize + base))).drop consumed).length ∧
        slice (playback (storedChannels content) (content.drop (headSize + base))) consumed n =
          slice (fileStream content) p n) ↔
      ReadsAlike content base consumed p n := by
  have hgroup := groupSize_pos hc
  have hlength : ((playback (storedChannels content)
      (content.drop (headSize + base))).drop consumed).length =
        (content.length - headSize - base) / groupSize (storedChannels content) *
          groupSize (storedChannels content) - consumed := by
    rw [List.length_drop, playback_length hc, List.length_drop, Nat.sub_sub]
  have hbytes : n ≤ ((playback (storedChannels content)
      (content.drop (headSize + base))).drop consumed).length →
      (slice (playback (storedChannels content) (content.drop (headSize + base))) consumed n =
          slice (fileStream content) p n ↔
        ∀ i < n, content.getD (headSize + (base + groupIndex (storedChannels content)
            (consumed + i))) 0 =
          content.getD (headSize + groupIndex (storedChannels content) (p + i)) 0) := by
    intro hn
    rw [List.length_drop] at hn
    obtain rfl | hpos := Nat.eq_zero_or_pos n
    · simp [slice]
    rw [slice_eq_iff (by omega) hp]
    refine forall₂_congr fun i hi => ?_
    rw [playback_getD hc _ (by omega), fileStream, playback_getD hc _ (by
      rw [fileStream] at hp
      omega), ffReverse_injective.eq_iff]
    simp only [List.getD_eq_getElem?_getD, List.getElem?_drop, Nat.add_assoc]
  constructor
  · rintro ⟨hn, hslice⟩
    exact Or.inr ⟨by rwa [← hlength], (hbytes hn).1 hslice⟩
  · rintro (⟨⟨g, rfl⟩, rfl⟩ | ⟨hn, hsame⟩)
    · have hstream : playback (storedChannels content)
          (content.drop (headSize + groupSize (storedChannels content) * g)) =
            (fileStream content).drop (groupSize (storedChannels content) * g) := by
        rw [← List.drop_drop, Nat.mul_comm, playback_drop hc, fileStream]
      rw [hstream]
      refine ⟨?_, ?_⟩
      · rw [List.length_drop, List.length_drop]
        omega
      · rw [slice, slice, List.drop_drop]
    · have hfit := hlength ▸ hn
      exact ⟨hfit, (hbytes hfit).2 hsame⟩

end Alike

/-! ## The handle -/

/-- The handle, sought to `base` in the audio and with so many bytes consumed since. -/
structure At (content : Bytes) (base consumed : Nat) (s : OpenHandle) : Prop where
  mode : s.handle.mode = .read ∨ s.handle.mode = .modify
  info : s.handle.info = openedInfo content
  bytes : s.io.content = content
  place : s.io.pos = headSize + (base + roundUp (groupSize (storedChannels content)) consumed)
  unread : (unread s).length = roundUp (groupSize (storedChannels content)) consumed - consumed
  pending : pending s =
    (playback (storedChannels content) (content.drop (headSize + base))).drop consumed

section

variable {content : Bytes} {base consumed p : Nat} {s : OpenHandle}

/-- A handle that was just sought. -/
theorem At.sought {handle : Handle} (hc : 0 < storedChannels content)
    (hmode : handle.mode = .read ∨ handle.mode = .modify)
    (hinfo : handle.info = openedInfo content) (base : Nat) :
    At content base 0
      ⟨{ handle with readBuffer := [], readBufferPos := 0 }, ⟨content, headSize + base⟩⟩ := by
  have hzero := roundUp_zero (groupSize_pos hc)
  constructor
  case mode => exact hmode
  case info => exact hinfo
  case bytes => rfl
  case place => rw [hzero, Nat.add_zero]
  case unread => rw [hzero]; rfl
  case pending =>
    have hchannels : handle.info.channelCount.toNat = storedChannels content := by
      rw [hinfo]
      rfl
    rw [Dsf.pending, Dsf.unread, List.drop_nil, List.nil_append, List.drop_zero, hchannels,
      ByteFile.rest]

theorem At.position (h : At content base consumed s) :
    getAudioPosition s =
      (.ok (base + roundUp (groupSize (storedChannels content)) consumed), s) := by
  have hoffset : s.handle.info.audioDataOffset = headSize := by rw [h.info]; rfl
  rw [getAudioPosition_of_mode h.mode, h.place, hoffset, Nat.add_sub_cancel_left]

theorem At.read (h : At content base consumed s) (hc : 0 < storedChannels content) {n : Nat}
    (hn : n ≤ (Dsf.pending s).length) :
    At content base (consumed + n) (readAudioLoop n n s).2 := by
  have hchannels : s.handle.info.channelCount.toNat = storedChannels content := by
    rw [h.info]
    rfl
  have hread := readAudioLoop_delivers n n s (by rwa [hchannels]) (Nat.le_refl n)
  obtain ⟨buffer, pos, hframe⟩ := hread.frame
  obtain ⟨g, hpos, hsum, hlt⟩ := hread.place hn
  have hround := le_roundUp (groupSize_pos hc) consumed
  rw [hchannels] at hpos hsum hlt
  rw [h.unread] at hsum
  -- the groups read in all hold what was consumed and what is left in the buffer
  have hnext : roundUp (groupSize (storedChannels content)) (consumed + n) =
      consumed + n + (Dsf.unread (readAudioLoop n n s).2).length := by
    have hsize := roundUp_lt (groupSize_pos hc) consumed
    refine roundUp_eq ?_ ?_
    · have htotal : consumed + n + (Dsf.unread (readAudioLoop n n s).2).length =
          roundUp (groupSize (storedChannels content)) consumed +
            g * groupSize (storedChannels content) := by omega
      rw [htotal]
      exact Nat.dvd_add (dvd_roundUp _ _) (Nat.dvd_mul_left _ _)
    · obtain rfl | hg := Nat.eq_zero_or_pos g
      · omega
      · exact hlt hg
  constructor
  case mode => rw [hframe]; exact h.mode
  case info => rw [hframe]; exact h.info
  case bytes => rw [hread.content, h.bytes]
  case place =>
    rw [hpos, h.place, hnext]
    omega
  case unread => rw [hnext, Nat.add_sub_cancel_left]
  case pending => rw [hread.pending, h.pending, List.drop_drop]

theorem seekInvalidating_of_ok {m : Io Unit} {f : ByteFile} (h : m s.io = (.ok (), f)) :
    seekInvalidating m s =
      (.ok (), ⟨{ s.handle with readBuffer := [], readBufferPos := 0 }, f⟩) := by
  simp only [seekInvalidating, bind_apply, liftIo, zoom_apply, h, update, modify_apply]

/-- A seek to a place of the file that is counted from its start. -/
theorem At.seekSet (h : At content base consumed s) (hc : 0 < storedChannels content) {q : Nat}
    (hq : headSize + q ≤ ByteFile.offMax) {x : Int} (hx : x = (headSize + q : Nat)) :
    seekInvalidating (ioSeekSet (int64 (uint64 x))) s =
        (.ok (), ⟨{ s.handle with readBuffer := [], readBufferPos := 0 },
          ⟨content, headSize + q⟩⟩) ∧
      At content q 0 ⟨{ s.handle with readBuffer := [], readBufferPos := 0 },
        ⟨content, headSize + q⟩⟩ := by
  have hmax : ByteFile.offMax < 2 ^ 63 := by decide
  have hword : int64 (uint64 x) = (headSize + q : Nat) := by
    rw [hx, uint64_of_nat (by omega), int64_of_lt (by omega)]
  refine ⟨seekInvalidating_of_ok ?_, .sought hc h.mode h.info q⟩
  rw [hword, ioSeekSet_of_le hq, h.bytes]

/-- A seek from where the file stands, which is behind the buffer. -/
theorem At.seekCur (h : At content base consumed s) (hc : 0 < storedChannels content)
    {byteOffset : Int} {q : Nat} (hq : headSize + q ≤ ByteFile.offMax)
    (hx : base + roundUp (groupSize (storedChannels content)) consumed + byteOffset = q) :
    seekInvalidating (ioSeekCur byteOffset) s =
        (.ok (), ⟨{ s.handle with readBuffer := [], readBufferPos := 0 },
          ⟨content, headSize + q⟩⟩) ∧
      At content q 0 ⟨{ s.handle with readBuffer := [], readBufferPos := 0 },
        ⟨content, headSize + q⟩⟩ := by
  refine ⟨seekInvalidating_of_ok ?_, .sought hc h.mode h.info q⟩
  have hplace : (s.io.pos : Int) + byteOffset = (headSize + q : Nat) := by
    rw [h.place]
    push_cast
    omega
  have htarget : ByteFile.target byteOffset s.io.pos = some (headSize + q) := by
    rw [ByteFile.target, hplace, if_pos (by omega), Int.toNat_natCast]
  simp only [ioSeekCur, seekBy, seek, htarget, h.bytes]

/-- Past the greatest offset of a file the seek fails. -/
theorem At.seekCur_past (h : At content base consumed s) {byteOffset : Int}
    (hx : ByteFile.offMax <
      headSize + (base + roundUp (groupSize (storedChannels content)) consumed + byteOffset)) :
    (seekInvalidating (ioSeekCur byteOffset) s).1 = .error .generic := by
  have htarget : ByteFile.target byteOffset s.io.pos = none := by
    rw [ByteFile.target, h.place, if_neg]
    push_cast
    omega
  simp only [seekInvalidating, bind_apply, liftIo, zoom_apply, ioSeekCur, seekBy, seek, htarget]

theorem At.seekAudioData_eq (h : At content base consumed s) (byteOffset : Int) :
    seekAudioData byteOffset .set s =
        seekInvalidating (ioSeekSet (int64 (uint64 (headSize + byteOffset)))) s ∧
      seekAudioData byteOffset .cur s = seekInvalidating (ioSeekCur byteOffset) s ∧
      seekAudioData byteOffset .end s = seekInvalidating
        (ioSeekSet (int64 (uint64 (headSize + storedDataSize content + byteOffset)))) s := by
  have hoffset : s.handle.info.audioDataOffset = headSize := by rw [h.info]; rfl
  have hsize : s.handle.info.audioDataSize = storedDataSize content := by rw [h.info]; rfl
  simp only [seekAudioData, bind_apply, get_apply, require_of h.mode, pure_apply, hoffset, hsize,
    and_self]

/-- Delivering is what the stream has where the bytes are alike. -/
theorem At.delivered_iff (h : At content base consumed s) (hc : 0 < storedChannels content)
    {n : Nat} (hin : p + n ≤ (fileStream content).length) :
    (readAudioData n s).1 = .ok (slice (fileStream content) p n, none) ↔
      ReadsAlike content base consumed p n := by
  have hread := readAudioLoop_delivers n n s (by rw [h.info]; exact hc) (Nat.le_refl n)
  have hresult : (readAudioLoop n n s).1 = ((Dsf.pending s).take n,
      if n ≤ (Dsf.pending s).length then none else some .read) := Prod.ext hread.bytes hread.error
  rw [← reads_alike_iff hc hin, readAudioData_of_mode h.mode, Except.ok.injEq, hresult,
    Prod.mk.injEq, h.pending]
  have hnone : (if n ≤ ((playback (storedChannels content)
      (content.drop (headSize + base))).drop consumed).length then none else some Error.read) =
        none ↔ n ≤ ((playback (storedChannels content)
          (content.drop (headSize + base))).drop consumed).length := by
    split
    · next hle => exact ⟨fun _ => hle, fun _ => rfl⟩
    · next hlt => exact ⟨(nomatch ·), fun hle => absurd hle hlt⟩
  rw [hnone, and_comm]
  exact Iff.rfl

theorem fileStream_length_le (hc : 0 < storedChannels content) :
    (fileStream content).length ≤ content.length - headSize := by
  rw [fileStream, playback_length hc, ← List.length_drop]
  exact Nat.div_mul_le_self _ _

/-- One call after the other: the invariant is where the file was last sought, what was
consumed since, and that the stream stands no further than the two together. -/
theorem At.agrees_iff (hc : 0 < storedChannels content)
    (hlength : content.length ≤ ByteFile.offMax) (ops : List AudioOp)
    (h : At content base consumed s) (hp : p ≤ base + consumed) (hin : Within content ops p) :
    Agrees content ops p s ↔ Aligned content ops base consumed p := by
  have hgroup := groupSize_pos hc
  have hstream := fileStream_length_le hc
  have hhead : headSize ≤ ByteFile.offMax := by decide
  induction ops generalizing base consumed p s with
  | nil => exact Iff.rfl
  | cons op ops ih =>
    have hround := le_roundUp hgroup consumed
    cases op with
    | position =>
      rw [Agrees, Aligned, h.position]
      exact and_congr ⟨fun heq => Except.ok.inj heq, fun heq => by rw [heq]⟩ (ih h hp hin)
    | read n =>
      rw [Agrees, Aligned, h.delivered_iff hc hin.1]
      refine and_congr_right fun halike => ?_
      have hfit := ((reads_alike_iff hc hin.1).2 halike).1
      rw [← h.pending] at hfit
      rw [readAudioData_of_mode h.mode]
      exact ih (h.read hc hfit) (by omega) hin.2
    | seek byteOffset origin =>
      obtain ⟨hlow, hhigh, hrest⟩ := hin
      obtain ⟨hset, hcur, hend⟩ := h.seekAudioData_eq byteOffset
      obtain ⟨q, hq⟩ := Int.eq_ofNat_of_zero_le hlow
      rw [hq, Int.toNat_natCast] at hrest
      cases origin with
      | set =>
        obtain ⟨hseek, hat⟩ := h.seekSet hc (q := q) (by omega) (x := headSize + byteOffset) (by
          have hto : byteOffset = q := hq
          rw [hto]
          push_cast
          rfl)
        rw [Agrees, Aligned, hset, hseek, hq, Int.toNat_natCast]
        exact (and_iff_right rfl).trans (ih hat (Nat.le_refl _) hrest)
        exact nofun
      | «end» =>
        obtain ⟨hseek, hat⟩ := h.seekSet hc (q := q) (by omega)
          (x := headSize + storedDataSize content + byteOffset) (by
            have hto : storedDataSize content + byteOffset = q := hq
            rw [Int.add_assoc, hto]
            push_cast
            rfl)
        rw [Agrees, Aligned, hend, hseek, hq, Int.toNat_natCast]
        exact (and_iff_right rfl).trans (ih hat (Nat.le_refl _) hrest)
        exact nofun
      | cur =>
        have hto : p + byteOffset = q := hq
        obtain ⟨b, hb⟩ := Int.eq_ofNat_of_zero_le
          (a := base + roundUp (groupSize (storedChannels content)) consumed + byteOffset)
          (by omega)
        rw [Agrees, Aligned, hcur, hq, hto, hb, Int.toNat_natCast, Int.toNat_natCast]
        by_cases hmax : headSize + b ≤ ByteFile.offMax
        · obtain ⟨hseek, hat⟩ := h.seekCur hc hmax hb
          rw [hseek]
          exact and_congr (iff_of_true rfl (by exact_mod_cast hmax))
            (ih hat (by omega) hrest)
        · have hpast : (seekInvalidating (ioSeekCur byteOffset) s).1 = .error .generic :=
            h.seekCur_past (by rw [hb]; omega)
          rw [hpast]
          exact iff_of_false (fun hok => nomatch hok.1) fun hok => hmax (by exact_mod_cast hok.1)

theorem Opened.at_start (h : Opened content s)
    (hmode : s.handle.mode = .read ∨ s.handle.mode = .modify) :
    (seekToAudioStart s).1 = .ok () ∧ At content 0 0 (seekToAudioStart s).2 := by
  rw [h.seekToAudioStart_eq hmode]
  exact ⟨rfl, .sought h.storedChannels_pos hmode h.info 0⟩

end

/-- Seeks, reads and position queries agree with the stream exactly where each read starts a
block group, or meets the same bytes by chance, and the position is asked for where whole
groups were consumed. -/
theorem seeks_agree_iff {content : Bytes} {s : OpenHandle} {ops : List AudioOp}
    (hopen : IsOpen content s) (hlength : content.length ≤ ByteFile.offMax)
    (hin : Within content ops 0) :
    ((seekToAudioStart s).1 = .ok () ∧ Agrees content ops 0 (seekToAudioStart s).2) ↔
      Aligned content ops 0 0 0 := by
  obtain ⟨hopened, hmode⟩ := hopen.opened
  obtain ⟨hstart, hat⟩ := hopened.at_start hmode
  exact (and_iff_right hstart).trans
    (hat.agrees_iff hopened.storedChannels_pos hlength ops (Nat.le_refl 0) hin)

/-! ## A file of one block group -/

/-- A stereo file of one block group. -/
def oneGroupFile : Bytes := stereoFile 92 1 (List.replicate 8192 105)

theorem oneGroupFile_open :
    IsOpen oneGroupFile (stereoHandle 92 1 (List.replicate 8192 105)) :=
  stereo_open _ (by decide) (by decide) (by decide)

theorem oneGroupFile_groupSize : groupSize (storedChannels oneGroupFile) = 8192 := by
  rw [oneGroupFile, (stereo_stored _ (by decide) (by decide) (by decide)).1]
  rfl

theorem oneGroupFile_length : oneGroupFile.length = headSize + 8192 := by
  rw [oneGroupFile, stereoFile, layout_length, List.length_replicate]

theorem oneGroupFile_dataSize : storedDataSize oneGroupFile = 8192 :=
  (stereo_stored _ (by decide) (by decide) (by decide)).2

theorem oneGroupFile_stream : (fileStream oneGroupFile).length = 8192 := by
  have hchannels := (oneGroupFile_open).opened.1.storedChannels_pos
  rw [fileStream, playback_length hchannels, oneGroupFile_groupSize, List.length_drop,
    oneGroupFile_length]
  rfl

/-- A block group is read, and then the position asked for and sought. -/
theorem seeks_agree_iff_oneGroup :
    (seekToAudioStart (stereoHandle 92 1 (List.replicate 8192 105))).1 = .ok () ∧
      Agrees oneGroupFile [.read 8192, .position, .seek 0 .cur, .seek (-8192) .end, .position] 0
        (seekToAudioStart (stereoHandle 92 1 (List.replicate 8192 105))).2 := by
  refine (seeks_agree_iff oneGroupFile_open ?_ ?_).2 ?_
  · rw [oneGroupFile_length]
    decide
  · simp [Within, landing, oneGroupFile_stream, oneGroupFile_dataSize]
  · simp [Aligned, ReadsAlike, landing, roundUp, oneGroupFile_groupSize, oneGroupFile_dataSize,
      headSize, ByteFile.offMax]

/-- The second byte is sought and not found. -/
theorem seek_inside_group_fails : ¬ ∀ (content : Bytes) (s : OpenHandle) (ops : List AudioOp),
    IsOpen content s → content.length ≤ ByteFile.offMax → Within content ops 0 →
      (seekToAudioStart s).1 = .ok () ∧ Agrees content ops 0 (seekToAudioStart s).2 := by
  intro h
  obtain ⟨hopened, hmode⟩ := oneGroupFile_open.opened
  have hlength : oneGroupFile.length ≤ ByteFile.offMax := by
    rw [oneGroupFile_length]
    decide
  have hin : Within oneGroupFile [.seek 1 .set, .read 1] 0 := by
    simp [Within, landing, oneGroupFile_stream]
  have hagrees := (h _ _ _ oneGroupFile_open hlength hin).2
  have haligned := ((hopened.at_start hmode).2.agrees_iff hopened.storedChannels_pos hlength _
    (Nat.le_refl 0) hin).1 hagrees
  simp [Aligned, ReadsAlike, landing, oneGroupFile_groupSize, oneGroupFile_length] at haligned

end DsdNexus.Dsf
