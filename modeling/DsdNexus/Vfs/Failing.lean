import DsdNexus.Vfs.RandomAccess

/-! # Frames that fail

A frame that cannot be read ends the audio early, and silence fills the rest of the region.
A frame that is read and cannot be decoded is passed over. The image a failing track is
measured by has silence in the place of every frame that fails.
-/

namespace DsdNexus.Vfs

open Blocks

/-! ## The silenced track -/

/-- Every frame that is read and decoded has its nominal size. -/
def Track.Nominal (t : Track) : Prop :=
  ∀ n data, n < t.frameCount → t.frameData (t.startFrame + n) = some data →
    data.length = frameSize64 * t.channelCount

/-- A frame of DSD silence. -/
def Track.silence (t : Track) : Bytes := List.replicate (frameSize64 * t.channelCount) 0x69

/-- The track with silence for the frames that fail. -/
def Track.silenced (t : Track) : Track :=
  { t with
    soundData := fun n => some ((t.frameData n).getD t.silence)
    dstDecode := some }

@[simp] theorem Track.silenced_info (t : Track) : t.silenced.info = t.info := rfl

@[simp] theorem Track.silenced_channelCount (t : Track) :
    t.silenced.channelCount = t.channelCount := rfl

theorem Track.nominal_pos (t : Track) : 0 < frameSize64 * t.channelCount :=
  Nat.mul_pos (by decide) t.channelCount_pos

theorem Track.Nominal.getD_length {t : Track} (h : t.Nominal) {n : Nat} (hn : n < t.frameCount) :
    ((t.frameData (t.startFrame + n)).getD t.silence).length = frameSize64 * t.channelCount := by
  cases hdata : t.frameData (t.startFrame + n) with
  | none => rw [Option.getD_none, Track.silence, List.length_replicate]
  | some data => exact h n data hn hdata

theorem Track.silenced_frameData {t : Track} (h : t.Nominal) {n : Nat} (hn : n < t.frameCount) :
    t.silenced.frameData (t.startFrame + n) =
      some ((t.frameData (t.startFrame + n)).getD t.silence) := by
  have hlen := h.getD_length hn
  have hpos := t.nominal_pos
  rw [Track.frameData, Track.silenced, Option.bind_some, Track.decode]
  split
  · exact if_neg (by omega)
  · rfl

theorem Track.Nominal.silenced_readable {t : Track} (h : t.Nominal) : t.silenced.Readable :=
  fun _ hn => ⟨_, Track.silenced_frameData h hn, h.getD_length hn⟩

theorem VfsFile.OpenedOn.silenced {t : Track} {f : VfsFile} (h : f.OpenedOn t) :
    f.OpenedOn t.silenced :=
  ⟨h.info, h.header, h.headerSize, h.start, h.stop, h.decoder⟩

theorem VfsFile.OpenedOn.of_silenced {t : Track} {f : VfsFile} (h : f.OpenedOn t.silenced) :
    f.OpenedOn t :=
  ⟨h.info, h.header, h.headerSize, h.start, h.stop, h.decoder⟩

/-! ## What a request asks of the frames -/

/-- The frame is read and not decoded. -/
def Track.Undecodable (t : Track) (n : Nat) : Prop :=
  ∃ frame, t.soundData n = some frame ∧ t.decode frame = none

/-- Bytes of complete block groups when `frames` frames join the buffered columns. -/
def VfsFile.groupsWith (f : VfsFile) (frames : Nat) : Nat :=
  (f.bytesBuffered + frames * frameSize64) / dsfBlockSize * (dsfBlockSize * f.info.channelCount)

/-- What the handle can deliver before it needs frame `n`. -/
def VfsFile.supply (f : VfsFile) (n : Nat) : Nat :=
  f.transformBufferLen - f.transformBufferPos + f.groupsWith (n - f.currentFrame) - f.seekSkipBytes

/-- No frame between the current one and frame `n` ends the audio. -/
def Track.ReadableTo (t : Track) (f : VfsFile) (n : Nat) : Prop :=
  ∀ j, f.currentFrame ≤ j → j < n → t.soundData j ≠ none

/-- The request is met before a frame is needed that does not decode. -/
def Clear (t : Track) (f : VfsFile) (size : Nat) : Prop :=
  ∀ n, f.currentFrame ≤ n → n < f.endFrame → t.Undecodable n → t.ReadableTo f n →
    size ≤ f.supply n

/-- The bytes to skip after a seek do not reach into the padded block group. -/
def SkipFits (f : VfsFile) : Prop := f.seekSkipBytes ≤ f.groupsWith (f.endFrame - f.currentFrame)

/-! ### One turn of the loop -/

theorem Clear.consume {t : Track} {f : VfsFile} {size n : Nat} (h : Clear t f size)
    (hn : n ≤ f.transformBufferLen - f.transformBufferPos) :
    Clear t (f.consume n) (size - n) := by
  intro k hcur hend hbad hread
  have hsize := h k hcur hend hbad hread
  have hgroups : (f.consume n).groupsWith (k - (f.consume n).currentFrame) =
      f.groupsWith (k - f.currentFrame) := rfl
  unfold VfsFile.supply at hsize ⊢
  rw [hgroups]
  simp only [VfsFile.consume]
  omega

/-- A frame that does not decode is not met. -/
theorem Clear.not_met {t : Track} {f : VfsFile} {size : Nat} (h : Clear t f size)
    (hb : f.bytesBuffered < dsfBlockSize) (hsize : 0 < size)
    (hempty : f.transformBufferLen ≤ f.transformBufferPos) (hend : f.currentFrame < f.endFrame) :
    ¬t.Undecodable f.currentFrame := by
  intro hbad
  have hmet := h f.currentFrame (Nat.le_refl _) hend hbad fun j hlo hhi => by omega
  have hgroups : f.groupsWith (f.currentFrame - f.currentFrame) = 0 := by
    rw [VfsFile.groupsWith, Nat.sub_self, Nat.zero_mul, Nat.add_zero, Nat.div_eq_of_lt hb,
      Nat.zero_mul]
  rw [VfsFile.supply, hgroups] at hmet
  omega

/-- What a frame adds: its complete block groups, and the columns behind them. -/
theorem transform_lengths {t : Track} {f : VfsFile} {data : Bytes} (h : Ready t f)
    (hdata : data.length = frameSize64 * t.channelCount) :
    (transformDsdFrame f.nextFrame data).transformBufferLen = f.groupsWith 1 ∧
      (transformDsdFrame f.nextFrame data).bytesBuffered =
        (f.bytesBuffered + frameSize64) % dsfBlockSize := by
  have hspec := transformDsdFrame_spec (f := f.nextFrame) data h.buffered_lt
  have hch : f.nextFrame.info.channelCount = t.channelCount := h.channelCount
  have hcols : (f.nextFrame.buffered ++ columnsOf t.channelCount data).length =
      f.bytesBuffered + frameSize64 := by
    rw [List.length_append, VfsFile.buffered_length, columnsOf_length, hdata,
      Nat.mul_div_cancel _ t.channelCount_pos]
    rfl
  have hbuf : (transformDsdFrame f.nextFrame data).transformBuffer = t.emit
      (fullBlocks dsfBlockSize (f.nextFrame.buffered ++ columnsOf t.channelCount data)) := by
    rw [hspec.transformBuffer, hch]
    rfl
  constructor
  · rw [hspec.len, hbuf, t.emit_length fun b hb => length_of_mem_fullBlocks hb,
      fullBlocks_length (by decide), hcols, VfsFile.groupsWith, h.channelCount, Nat.one_mul]
  · rw [← VfsFile.buffered_length, hspec.buffered, hch, remainder_length, hcols]

theorem groupsWith_succ {f g : VfsFile} (n : Nat) (hch : g.info.channelCount = f.info.channelCount)
    (hb : g.bytesBuffered = (f.bytesBuffered + frameSize64) % dsfBlockSize) :
    f.groupsWith (n + 1) = f.groupsWith 1 + g.groupsWith n := by
  rw [VfsFile.groupsWith, VfsFile.groupsWith, VfsFile.groupsWith, hch, hb, ← Nat.add_mul]
  congr 1
  rw [Nat.succ_mul, Nat.one_mul]
  unfold dsfBlockSize
  omega

theorem takeFrame_groupsWith {t : Track} {f : VfsFile} {data : Bytes} (h : Ready t f)
    (hdata : data.length = frameSize64 * t.channelCount) (n : Nat) :
    f.groupsWith (n + 1) = f.groupsWith 1 + (takeFrame f data).groupsWith n := by
  obtain ⟨hinfo, -, hbb, -⟩ := skipAfterSeek_frame (transformDsdFrame f.nextFrame data)
  apply groupsWith_succ
  · rw [takeFrame, hinfo]
    rfl
  · rw [takeFrame, hbb, (transform_lengths h hdata).2]

/-- The skip comes off the output of the frame first. -/
theorem takeFrame_skip {t : Track} {f : VfsFile} {data : Bytes} (h : Ready t f)
    (hdata : data.length = frameSize64 * t.channelCount) :
    (takeFrame f data).transformBufferLen = f.groupsWith 1 ∧
      (takeFrame f data).transformBufferPos = min f.seekSkipBytes (f.groupsWith 1) ∧
      (takeFrame f data).seekSkipBytes = f.seekSkipBytes - f.groupsWith 1 := by
  have hspec := transformDsdFrame_spec (f := f.nextFrame) data h.buffered_lt
  have hlen := (transform_lengths h hdata).1
  have hskip : (transformDsdFrame f.nextFrame data).seekSkipBytes = f.seekSkipBytes := rfl
  have hpos := hspec.pos
  refine ⟨by rw [takeFrame, (skipAfterSeek_frame _).2.2.2.2.2.1, hlen], ?_, ?_⟩
  · unfold takeFrame skipAfterSeek
    split
    · rw [hskip, hlen]
    · omega
  · unfold takeFrame skipAfterSeek
    split
    · simp only [hskip, hlen]
      omega
    · omega

theorem takeFrame_currentFrame (f : VfsFile) (data : Bytes) :
    (takeFrame f data).currentFrame = f.currentFrame + 1 := by
  rw [takeFrame, skipAfterSeek_currentFrame]
  rfl

theorem takeFrame_endFrame (f : VfsFile) (data : Bytes) :
    (takeFrame f data).endFrame = f.endFrame := by
  rw [takeFrame, skipAfterSeek_endFrame]
  rfl

theorem Clear.takeFrame {t u : Track} {f : VfsFile} {size : Nat} {data : Bytes}
    (h : Clear t f size) (hr : Ready u f) (hdata : data.length = frameSize64 * u.channelCount)
    (hempty : f.transformBufferLen ≤ f.transformBufferPos)
    (hgood : t.soundData f.currentFrame ≠ none) : Clear t (takeFrame f data) size := by
  intro k hcur hend hbad hread
  rw [takeFrame_currentFrame] at hcur
  rw [takeFrame_endFrame] at hend
  have hsize := h k (by omega) hend hbad fun j hlo hhi => by
    rcases Nat.lt_or_eq_of_le hlo with hlater | hhere
    · exact hread j (by rw [takeFrame_currentFrame]; exact hlater) hhi
    · rw [← hhere]
      exact hgood
  obtain ⟨hlen, hpos, hskip⟩ := takeFrame_skip hr hdata
  have hgroups := takeFrame_groupsWith hr hdata (k - (f.currentFrame + 1))
  rw [show k - (f.currentFrame + 1) + 1 = k - f.currentFrame by omega] at hgroups
  unfold VfsFile.supply at hsize ⊢
  rw [takeFrame_currentFrame, hlen, hpos, hskip]
  omega

/-! ## The audio loop -/

/-- The loop went on as over the silenced track, for the whole request or up to a frame that
ended the audio early. -/
structure LoopEnds (t : Track) (f : VfsFile) (size m : Nat) (g : VfsFile) : Prop where
  position : g.position = f.position + m
  outcome : (m = min size (owed t.silenced f).length ∧ Ready t.silenced g ∧
      owed t.silenced g = (owed t.silenced f).drop size) ∨
    (g.OpenedOn t ∧ g.audioEarlyEof = true)

theorem Nominal.frameData_length {t : Track} (hn : t.Nominal) {f : VfsFile}
    (h : Ready t.silenced f) (hcur : f.currentFrame < f.endFrame) {data : Bytes}
    (hdata : t.frameData f.currentFrame = some data) :
    data.length = frameSize64 * t.channelCount ∧
      t.silenced.frameData f.currentFrame = some data := by
  have hs : t.startFrame ≤ f.currentFrame := h.start_le
  have hstop : f.endFrame = t.startFrame + t.frameCount := h.openedOn.stop
  have hlt : f.currentFrame - t.startFrame < t.frameCount := by omega
  have heq : t.startFrame + (f.currentFrame - t.startFrame) = f.currentFrame := by omega
  have hlen := hn (f.currentFrame - t.startFrame) data hlt
  have hsil := Track.silenced_frameData hn hlt
  rw [heq] at hlen hsil
  exact ⟨hlen hdata, by rw [hsil, hdata, Option.getD_some]⟩

/-- A turn that leaves the position and what is owed. -/
theorem LoopEnds.of_turn {t : Track} {f f' g : VfsFile} {size m : Nat}
    (h : LoopEnds t f' size m g) (hpos : f'.position = f.position)
    (howed : owed t.silenced f' = owed t.silenced f) : LoopEnds t f size m g :=
  ⟨by rw [h.position, hpos], by rw [← howed]; exact h.outcome⟩

/-- A turn that delivers `n` bytes. -/
theorem LoopEnds.of_consume {t : Track} {f g : VfsFile} {size m n : Nat}
    (h : LoopEnds t (f.consume n) (size - n) m g) (hn : n ≤ f.pending.length) (hsize : n ≤ size) :
    LoopEnds t f size (n + m) g := by
  have hle := pending_length_le_owed t.silenced f
  have howed := owed_consume (t := t.silenced) hn
  have hpos : (f.consume n).position = f.position + n := rfl
  refine ⟨by rw [h.position, hpos, Nat.add_assoc], ?_⟩
  rcases h.outcome with ⟨hm, hready, hrest⟩ | hended
  · refine .inl ⟨?_, hready, ?_⟩
    · rw [hm, howed, List.length_drop]
      omega
    · rw [hrest, howed, List.drop_drop, Nat.add_sub_cancel' hsize]
  · exact .inr hended

theorem readAudioLoop_failing {t : Track} (hn : t.Nominal) (f : VfsFile) (size : Nat)
    (totalRead : Bytes) (h : Ready t.silenced f) (hclear : Clear t f size)
    (hfit : f.position + min size (owed t.silenced f).length ≤ t.info.metadataOffset) :
    ∃ m g, m ≤ min size (owed t.silenced f).length ∧ LoopEnds t f size m g ∧
      readAudioLoop t f size totalRead =
        ⟨.ok, totalRead ++ (owed t.silenced f).take m, g⟩ := by
  fun_induction readAudioLoop t f size totalRead with
  | case1 f size totalRead hloop hpend toCopy ih =>
    have hlen := h.pending_length
    have hcopy : toCopy ≤ f.pending.length := by omega
    have hle := pending_length_le_owed t.silenced f
    have howed := owed_consume (t := t.silenced) hcopy
    have hdrop : (owed t.silenced (f.consume toCopy)).length =
        (owed t.silenced f).length - toCopy := by rw [howed, List.length_drop]
    have hposc : (f.consume toCopy).position = f.position + toCopy := rfl
    obtain ⟨m, g, hm, hends, hr⟩ := ih (h.consume hcopy) (hclear.consume (by omega)) (by omega)
    refine ⟨toCopy + m, g, by omega, hends.of_consume hcopy (by omega), ?_⟩
    rw [hr, take_pending h (by omega), take_pending_eq_take_owed t.silenced hcopy, howed,
      List.append_assoc, ← List.take_add]
  | case2 f size totalRead hloop hpend hend hbuf ih =>
    have hstop : t.silenced.startFrame + t.silenced.frameCount ≤ f.currentFrame := by
      rw [← h.openedOn.stop]
      exact hend
    have howed := owed_flush h hbuf hstop (by omega)
    obtain ⟨-, hposf, hcurf, hendf, -, -⟩ := flushBlockBuffers_frame f
    have hnone : Clear t (flushBlockBuffers f) size := fun k hlo hhi => by omega
    obtain ⟨m, g, hm, hends, hr⟩ := ih (h.flush hbuf) hnone (by rw [howed, hposf]; exact hfit)
    rw [howed] at hm hr
    exact ⟨m, g, hm, hends.of_turn hposf howed, hr⟩
  | case3 f size totalRead hloop hpend hend hbuf =>
    have hstop : t.silenced.startFrame + t.silenced.frameCount ≤ f.currentFrame := by
      rw [← h.openedOn.stop]
      exact hend
    have hnil := owed_done (t := t.silenced) (f := f) (by omega) hstop (by omega)
    exact ⟨0, f, by simp, ⟨by simp, .inl ⟨by simp [hnil], h, by simp [hnil]⟩⟩, by simp⟩
  | case4 f size totalRead hloop hpend hend hnone =>
    have hended : VfsFile.OpenedOn t { f with audioEarlyEof := true } :=
      ⟨h.openedOn.info, h.openedOn.header, h.openedOn.headerSize, h.openedOn.start,
        h.openedOn.stop, h.openedOn.decoder⟩
    exact ⟨0, { f with audioEarlyEof := true }, by simp, ⟨rfl, .inr ⟨hended, rfl⟩⟩, by simp⟩
  | case5 f size totalRead hloop hpend hend frame hframe f' hdec hpos =>
    rw [decodeFrame_eq h.openedOn.of_silenced] at hdec
    exact absurd ⟨frame, hframe, hdec⟩
      (hclear.not_met h.buffered_lt hloop.1 (by omega) (by omega))
  | case6 f size totalRead hloop hpend hend frame hframe f' hdec hpos =>
    rw [decodeFrame_eq h.openedOn.of_silenced] at hdec
    exact absurd ⟨frame, hframe, hdec⟩
      (hclear.not_met h.buffered_lt hloop.1 (by omega) (by omega))
  | case7 f size totalRead hloop hpend hend frame hframe f' data hdec ih =>
    rw [decodeFrame_eq h.openedOn.of_silenced] at hdec
    have hdata : t.frameData f.currentFrame = some data := by
      rw [Track.frameData, hframe, Option.bind_some, hdec]
    obtain ⟨hlen, hsil⟩ := Nominal.frameData_length hn h (by omega) hdata
    have hcur : f.currentFrame < t.silenced.startFrame + t.silenced.frameCount := by
      rw [← h.openedOn.stop]
      omega
    have howed := owed_takeFrame h hcur (by omega) hsil
    have hposf : (takeFrame f data).position = f.position := (skipAfterSeek_frame _).2.1
    obtain ⟨m, g, hm, hends, hr⟩ := ih (h.takeFrame hcur data)
      (hclear.takeFrame h hlen (by omega) (by rw [hframe]; simp))
      (by rw [← takeFrame, howed, hposf]; exact hfit)
    rw [← takeFrame, howed] at hm hr
    exact ⟨m, g, hm, hends.of_turn hposf howed, hr⟩
  | case8 f size totalRead hstop =>
    have hinfo : f.info = t.info := h.openedOn.info
    have hzero : min size (owed t.silenced f).length = 0 := by
      rw [← hinfo] at hfit
      omega
    refine ⟨0, f, Nat.zero_le _, ⟨rfl, .inl ⟨hzero.symm, h, ?_⟩⟩, by simp⟩
    rcases Nat.min_eq_zero_iff.mp hzero with hz | hz
    · rw [hz, List.drop_zero]
    · rw [List.eq_nil_of_length_eq_zero hz, List.drop_nil]

/-- Where all output is to be skipped, a frame that cannot be read ends the audio before a byte
is delivered. -/
theorem readAudioLoop_lost {t : Track} (hn : t.Nominal) (f : VfsFile) (size : Nat)
    (totalRead : Bytes) (h : Ready t.silenced f) (hclear : Clear t f size)
    (hempty : f.transformBufferLen ≤ f.transformBufferPos)
    (hskip : f.groupsWith (f.endFrame - f.currentFrame) ≤ f.seekSkipBytes) (hsize : 0 < size)
    (hpos : f.position < f.info.metadataOffset) {k : Nat} (hlo : f.currentFrame ≤ k)
    (hhi : k < f.endFrame) (hunread : t.soundData k = none) :
    ∃ g, readAudioLoop t f size totalRead = ⟨.ok, totalRead, g⟩ ∧ g.position = f.position ∧
      g.OpenedOn t ∧ g.audioEarlyEof = true := by
  fun_induction readAudioLoop t f size totalRead with
  | case1 f size totalRead hloop hpend toCopy ih => omega
  | case2 f size totalRead hloop hpend hend hbuf ih => omega
  | case3 f size totalRead hloop hpend hend hbuf => omega
  | case4 f size totalRead hloop hpend hend hnone =>
    exact ⟨{ f with audioEarlyEof := true }, rfl, rfl, ⟨h.openedOn.info, h.openedOn.header,
      h.openedOn.headerSize, h.openedOn.start, h.openedOn.stop, h.openedOn.decoder⟩, rfl⟩
  | case5 f size totalRead hloop hpend hend frame hframe f' hdec _ =>
    rw [decodeFrame_eq h.openedOn.of_silenced] at hdec
    exact absurd ⟨frame, hframe, hdec⟩
      (hclear.not_met h.buffered_lt hloop.1 (by omega) (by omega))
  | case6 f size totalRead hloop hpend hend frame hframe f' hdec _ =>
    rw [decodeFrame_eq h.openedOn.of_silenced] at hdec
    exact absurd ⟨frame, hframe, hdec⟩
      (hclear.not_met h.buffered_lt hloop.1 (by omega) (by omega))
  | case7 f size totalRead hloop hpend hend frame hframe f' data hdec ih =>
    rw [decodeFrame_eq h.openedOn.of_silenced] at hdec
    have hdata : t.frameData f.currentFrame = some data := by
      rw [Track.frameData, hframe, Option.bind_some, hdec]
    obtain ⟨hlen, -⟩ := Nominal.frameData_length hn h (by omega) hdata
    have hcur : f.currentFrame < t.silenced.startFrame + t.silenced.frameCount := by
      rw [← h.openedOn.stop]
      omega
    have hne : f.currentFrame ≠ k := by
      intro heq
      rw [heq, hunread] at hframe
      cases hframe
    obtain ⟨hlen', hpos', hskip'⟩ := takeFrame_skip h hlen
    have hgroups := takeFrame_groupsWith h hlen (f.endFrame - (f.currentFrame + 1))
    rw [show f.endFrame - (f.currentFrame + 1) + 1 = f.endFrame - f.currentFrame by omega]
      at hgroups
    have hposf : (takeFrame f data).position = f.position := (skipAfterSeek_frame _).2.1
    have hinfof : (takeFrame f data).info = f.info := (skipAfterSeek_frame _).1
    rw [← hposf]
    refine ih (h.takeFrame hcur data)
      (hclear.takeFrame h hlen (by omega) (by rw [hframe]; simp)) ?_ ?_ hsize ?_ ?_ ?_
    · rw [← takeFrame, hlen', hpos']
      omega
    · rw [← takeFrame, takeFrame_endFrame, takeFrame_currentFrame, hskip']
      omega
    · rw [← takeFrame, hposf, hinfof]
      exact hpos
    · rw [← takeFrame, takeFrame_currentFrame]
      omega
    · rw [← takeFrame, takeFrame_endFrame]
      exact hhi
  | case8 f size totalRead hstop => exact absurd ⟨hsize, hpos⟩ hstop

/-! ## Bytes in their places -/

/-- Bytes delivered from position `p` on are, in the audio region, image bytes of their own
positions or silence. -/
def Placed (t : Track) (p : Nat) (data : Bytes) : Prop :=
  ∀ i b, data[i]? = some b → (generateDsfHeader t.info).length ≤ p + i →
    p + i < t.info.metadataOffset → b = 0x96 ∨ t.silenced.image[p + i]? = some b

theorem placed_nil (t : Track) (p : Nat) : Placed t p [] := by
  intro i b hb
  simp at hb

theorem Placed.append {t : Track} {p : Nat} {a b : Bytes} (ha : Placed t p a)
    (hb : Placed t (p + a.length) b) : Placed t p (a ++ b) := by
  intro i x hx hlo hhi
  rcases Nat.lt_or_ge i a.length with hin | hin
  · rw [List.getElem?_append_left hin] at hx
    exact ha i x hx hlo hhi
  · rw [List.getElem?_append_right hin] at hx
    have hplace := hb (i - a.length) x hx
    rw [show p + a.length + (i - a.length) = p + i by omega] at hplace
    exact hplace hlo hhi

theorem placed_silence (t : Track) (p n : Nat) : Placed t p (List.replicate n 0x96) := by
  intro i b hb _ _
  exact .inl (List.mem_replicate.mp (List.mem_of_getElem? hb)).2

theorem placed_image {t : Track} {p n : Nat} {data : Bytes}
    (h : data = (t.silenced.image.drop p).take n) : Placed t p data := by
  intro i b hb _ _
  rw [h] at hb
  rw [List.getElem?_take] at hb
  split at hb
  · rw [List.getElem?_drop] at hb
    exact .inr hb
  · cases hb

theorem placed_before {t : Track} {p : Nat} {data : Bytes}
    (h : p + data.length ≤ (generateDsfHeader t.info).length) : Placed t p data := by
  intro i b hb hlo _
  have hi := (List.getElem?_eq_some_iff.mp hb).1
  omega

theorem placed_behind {t : Track} {p : Nat} (h : t.info.metadataOffset ≤ p) (data : Bytes) :
    Placed t p data := by
  intro i b _ _ hhi
  omega

/-! ## Handles between calls -/

/-- After a seek into the padded block group: all output of the frames is to be skipped. -/
structure Lost (t : Track) (f : VfsFile) : Prop where
  ready : Ready t.silenced f
  empty : f.transformBufferLen ≤ f.transformBufferPos
  skip : ¬SkipFits f
  in_audio : (generateDsfHeader t.info).length ≤ f.position

/-- The audio of the handle ended early. -/
structure Ended (t : Track) (f : VfsFile) : Prop where
  openedOn : f.OpenedOn t
  eof : f.audioEarlyEof = true
  in_audio : (generateDsfHeader t.info).length ≤ f.position

/-- The handles the calls leave. -/
inductive Sound (t : Track) (f : VfsFile) : Prop where
  | inStep : InStep t.silenced f → Sound t f
  | lost : Lost t f → Sound t f
  | ended : Ended t f → Sound t f

theorem Sound.openedOn {t : Track} {f : VfsFile} (h : Sound t f) : f.OpenedOn t := by
  cases h with
  | inStep h => exact h.ready.openedOn.of_silenced
  | lost h => exact h.ready.openedOn.of_silenced
  | ended h => exact h.openedOn

/-- What is asked of a request: it needs no frame that does not decode, and, right after a seek
into the padded block group, there is a frame that ends the audio. -/
def Allowed (t : Track) (f : VfsFile) (size : Nat) : Prop :=
  size = 0 ∨ f.audioEarlyEof = true ∨ t.info.metadataOffset ≤ f.position ∨
    (Clear t f (size - ((generateDsfHeader t.info).length - f.position)) ∧
      (SkipFits f ∨ ∃ k, f.currentFrame ≤ k ∧ k < f.endFrame ∧ t.soundData k = none))

/-- What a region reader delivers of a request. -/
structure Part (t : Track) (f : VfsFile) (size : Nat) (r : ReadResult) : Prop where
  placed : Placed t f.position r.data
  position : r.file.position = f.position + r.data.length
  sound : Sound t r.file
  allowed : Allowed t r.file (size - r.data.length)
  failed : r.status ≠ .ok → r.data = []

section Regions

variable {t : Track} {f : VfsFile} {size : Nat}

theorem Sound.header (h : Sound t f) (hpos : f.position < (generateDsfHeader t.info).length)
    (n : Nat) (hn : f.position + n ≤ (generateDsfHeader t.info).length) :
    InStep t.silenced f ∧ InStep t.silenced (f.advance n) := by
  cases h with
  | inStep h =>
    refine ⟨h, h.of_position (h.ready.advance _) rfl ?_⟩
    rw [Track.silenced_info, VfsFile.advance_position, Nat.sub_eq_zero_of_le (by omega),
      Nat.sub_eq_zero_of_le (Nat.le_of_lt hpos)]
  | lost h => exact absurd h.in_audio (by omega)
  | ended h => exact absurd h.in_audio (by omega)

theorem readHeaderRegion_part (h : Sound t f)
    (hpos : f.position < f.dsfHeaderSize) (hallow : Allowed t f size) :
    Part t f size (readHeaderRegion f size) := by
  have hopen := h.openedOn
  have hmeta := t.info_metadataOffset
  rw [hopen.headerSize] at hpos
  rw [readHeaderRegion, hopen.header, hopen.headerSize]
  have hlen : (((generateDsfHeader t.info).drop f.position).take
      (min size ((generateDsfHeader t.info).length - f.position))).length =
      min size ((generateDsfHeader t.info).length - f.position) := by
    rw [List.length_take, List.length_drop]
    omega
  obtain ⟨hin, hin'⟩ := h.header hpos
    (min size ((generateDsfHeader t.info).length - f.position)) (by omega)
  refine ⟨placed_before (by rw [hlen]; omega), by rw [hlen]; rfl, .inStep hin', ?_, by simp⟩
  rw [hlen]
  rcases hallow with hzero | heof | hbehind | ⟨hclear, hskip⟩
  · exact .inl (by omega)
  · exact absurd (hin.ready.noEof.symm.trans heof) (by simp)
  · omega
  · refine .inr (.inr (.inr ⟨?_, hskip⟩))
    intro k hcur hend hbad hread
    have hsize := hclear k hcur hend hbad hread
    rw [VfsFile.advance_position]
    change _ ≤ f.supply k
    omega

theorem readMetadataRegion_part (hn : t.Nominal) (h : Sound t f)
    (hlo : f.info.metadataOffset ≤ f.position) :
    Part t f size (readMetadataRegion t f size) := by
  have hopen := h.openedOn
  rw [hopen.info] at hlo
  have hstay : ∀ status, Part t f size ⟨status, [], f⟩ := fun status =>
    ⟨placed_nil t _, rfl, h, .inr (.inr (.inl hlo)), fun _ => rfl⟩
  have hadvance : ∀ n, Sound t (f.advance n) := by
    intro n
    have hmeta := t.info_metadataOffset
    cases h with
    | inStep h =>
      have hlen := hn.silenced_readable.audioImage_length
      rw [Track.silenced_info] at hlen
      refine .inStep (h.of_position (h.ready.advance n) rfl ?_)
      rw [Track.silenced_info, VfsFile.advance_position, List.drop_eq_nil_of_le (by omega),
        List.drop_eq_nil_of_le (by omega)]
    | lost h => exact .lost ⟨h.ready.advance n, h.empty, h.skip, by
        have := h.in_audio; rw [VfsFile.advance_position]; omega⟩
    | ended h => exact .ended ⟨⟨hopen.info, hopen.header, hopen.headerSize, hopen.start,
        hopen.stop, hopen.decoder⟩, h.eof, by
          have := h.in_audio; rw [VfsFile.advance_position]; omega⟩
  unfold readMetadataRegion
  split
  · exact hstay _
  · cases hid : t.id3Tag with
    | none => exact hstay _
    | some id3 =>
      simp only
      split
      · exact hstay _
      · refine ⟨placed_behind hlo _, ?_, hadvance _, .inr (.inr (.inl ?_)), by simp⟩
        · rw [VfsFile.advance_position, List.length_take, List.length_drop, hopen.info]
          omega
        · rw [VfsFile.advance_position]
          omega

theorem fillGap_part (h : Ended t f) :
    Part t f size (fillGap f size) := by
  unfold fillGap
  split
  · exact ⟨placed_nil t _, rfl, .ended h, .inr (.inl h.eof), by simp⟩
  · have hopen := h.openedOn
    refine ⟨placed_silence t _ _, ?_, .ended ⟨?_, h.eof, ?_⟩, .inr (.inl h.eof), by simp⟩
    · rw [VfsFile.advance_position, List.length_replicate]
    · exact ⟨hopen.info, hopen.header, hopen.headerSize, hopen.start, hopen.stop, hopen.decoder⟩
    · rw [VfsFile.advance_position]
      have := h.in_audio
      omega

theorem readAudioRegion_part (hn : t.Nominal) (h : Sound t f) (hsize : 0 < size)
    (hlo : f.dsfHeaderSize ≤ f.position) (hhi : f.position < f.info.metadataOffset)
    (hallow : Allowed t f size) : Part t f size (readAudioRegion t f size) := by
  have hopen := h.openedOn
  have hhi' := hhi
  rw [hopen.headerSize] at hlo
  rw [hopen.info] at hhi
  cases h with
  | ended h =>
    rw [readAudioRegion, if_pos ⟨h.eof, hhi'⟩]
    exact fillGap_part h
  | inStep h =>
    have hmeta := t.info_metadataOffset
    have hread := hn.silenced_readable
    have hlen := h.owed_length hread
    have howed := h.owed_eq
    rw [Track.silenced_info] at hlen howed
    have hclear : Clear t f size := by
      rcases hallow with hzero | heof | hbehind | ⟨hclear, -⟩
      · omega
      · exact absurd (h.ready.noEof.symm.trans heof) (by simp)
      · omega
      · rwa [Nat.sub_eq_zero_of_le hlo, Nat.sub_zero] at hclear
    obtain ⟨m, g, hm, hends, hr⟩ := readAudioLoop_failing hn f size [] h.ready hclear (by omega)
    have hdata : ((owed t.silenced f).take m).length = m := by
      rw [List.length_take]
      omega
    rw [readAudioRegion, if_neg (by simp [h.ready.noEof]), hr, List.nil_append]
    have hpos := hends.position
    refine ⟨?_, by rw [hdata]; exact hpos, ?_, ?_, by simp⟩
    · apply placed_image (n := m)
      have hfits : m ≤ (t.silenced.audioImage.drop
          (f.position - (generateDsfHeader t.silenced.info).length)).length := by
        rw [Track.silenced_info, ← howed]
        omega
      rw [Track.image, drop_take_of_append (by rw [Track.silenced_info]; exact hlo) hfits,
        Track.silenced_info, howed]
    · rcases hends.outcome with ⟨hfull, hready, hrest⟩ | ⟨hopen', heof⟩
      · refine .inStep ⟨hready, ?_⟩
        rw [hrest, howed, List.drop_drop, Track.silenced_info, hpos]
        rcases Nat.le_total size (owed t.silenced f).length with hle | hle
        · exact congrArg (fun n => t.silenced.audioImage.drop n) (by omega)
        · have himage := hread.audioImage_length
          rw [Track.silenced_info] at himage
          rw [List.drop_eq_nil_of_le (by omega), List.drop_eq_nil_of_le (by omega)]
      · exact .ended ⟨hopen', heof, by simp only; omega⟩
    · rw [hdata]
      rcases hends.outcome with ⟨hfull, -, -⟩ | ⟨-, heof⟩
      · rcases Nat.le_total size (owed t.silenced f).length with hle | hle
        · exact .inl (by omega)
        · refine .inr (.inr (.inl ?_))
          simp only
          omega
      · exact .inr (.inl heof)
  | lost h =>
    rcases hallow with hzero | heof | hbehind | ⟨hclear, hskip⟩
    · omega
    · exact absurd (h.ready.noEof.symm.trans heof) (by simp)
    · omega
    · rw [Nat.sub_eq_zero_of_le hlo, Nat.sub_zero] at hclear
      obtain ⟨k, hcur, hend, hunread⟩ := hskip.resolve_left h.skip
      have hfull := h.skip
      unfold SkipFits at hfull
      obtain ⟨g, hr, hpos, hopen', heof⟩ := readAudioLoop_lost hn f size [] h.ready hclear h.empty
        (by omega) hsize hhi' hcur hend hunread
      rw [readAudioRegion, if_neg (by simp [h.ready.noEof]), hr]
      exact ⟨placed_nil t _, hpos, .ended ⟨hopen', heof, by rw [hpos]; exact hlo⟩,
        .inr (.inl heof), by simp⟩

theorem readRegion_part (hn : t.Nominal) (h : Sound t f) (hsize : 0 < size)
    (hallow : Allowed t f size) :
    Part t f size (readRegion (m := Id) t (readAudioRegion t) f size) := by
  unfold readRegion
  split
  · next hhead => exact readHeaderRegion_part h hhead hallow
  · next hhead =>
    split
    · next haudio => exact readAudioRegion_part hn h hsize (by omega) haudio hallow
    · next haudio => exact readMetadataRegion_part hn h (by omega)

end Regions

/-! ## The read call -/

/-- What a call delivers: bytes in their places, with the position right behind them. -/
structure InPlace (t : Track) (f : VfsFile) (r : ReadResult) : Prop where
  placed : Placed t f.position r.data
  position : r.file.position = f.position + r.data.length

/-- The result goes on from the bytes stored so far. -/
def Continues (t : Track) (p : Nat) (totalRead : Bytes) (r : ReadResult) : Prop :=
  ∃ data, r.data = totalRead ++ data ∧ Placed t p data ∧
    r.file.position = p + data.length ∧ Sound t r.file

theorem Continues.of_rest {t : Track} {p : Nat} {totalRead part : Bytes} {r : ReadResult}
    (hpart : Placed t p part) (h : Continues t (p + part.length) (totalRead ++ part) r) :
    Continues t p totalRead r := by
  obtain ⟨data, hdata, hplaced, hpos, hsound⟩ := h
  exact ⟨part ++ data, by rw [hdata, List.append_assoc], hpart.append hplaced,
    by rw [hpos, List.length_append, Nat.add_assoc], hsound⟩

theorem Part.continues {t : Track} {f : VfsFile} {size : Nat} {r : ReadResult}
    (h : Part t f size r) (totalRead : Bytes) (status : Status) :
    Continues t f.position totalRead ⟨status, totalRead ++ r.data, r.file⟩ :=
  ⟨r.data, rfl, h.placed, h.position, h.sound⟩

theorem fileReadLoop_part {t : Track} (hn : t.Nominal) (fuel : Nat) {f : VfsFile}
    (remaining : Nat) (totalRead : Bytes) (h : Sound t f) (hallow : Allowed t f remaining) :
    Continues t f.position totalRead
      (fileReadLoop (m := Id) t (readAudioRegion t) fuel f remaining totalRead) := by
  induction fuel generalizing f remaining totalRead with
  | zero => exact ⟨[], (List.append_nil _).symm, placed_nil t _, rfl, h⟩
  | succ fuel ih =>
    rw [fileReadLoop]
    by_cases hc : 0 < remaining ∧ f.position < f.info.totalSize
    · rw [if_pos hc]
      have hpart := readRegion_part hn h hc.1 hallow
      change Continues t f.position totalRead (if
        (readRegion (m := Id) t (readAudioRegion t) f remaining).status ≠ .ok ∧
        (readRegion (m := Id) t (readAudioRegion t) f remaining).status ≠ .eof then _ else _)
      generalize hr : readRegion (m := Id) t (readAudioRegion t) f remaining = r at hpart
      have hrest : Continues t f.position totalRead
          (fileReadLoop (m := Id) t (readAudioRegion t) fuel r.file (remaining - r.data.length)
            (totalRead ++ r.data)) := by
        apply Continues.of_rest hpart.placed
        rw [← hpart.position]
        exact ih _ _ hpart.sound hpart.allowed
      split
      · next hstatus =>
        have hfailed := hpart.continues totalRead
        rw [hpart.failed hstatus.1, List.append_nil] at hfailed
        split
        · exact hfailed .ok
        · next hshort =>
          have hnil : totalRead = [] := List.eq_nil_of_length_eq_zero (by omega)
          rw [hnil] at hfailed ⊢
          exact hfailed r.status
      · split
        · split
          · exact hrest
          · exact hpart.continues totalRead .ok
        · exact hrest
    · rw [if_neg hc]
      exact ⟨[], (List.append_nil _).symm, placed_nil t _, rfl, h⟩

theorem fileRead_delivers {t : Track} (hn : t.Nominal) {f : VfsFile} (h : Sound t f)
    {size : Nat} (hallow : Allowed t f size) :
    InPlace t f (fileRead t f size) ∧ Sound t (fileRead t f size).file := by
  unfold fileRead sacdVfsFileRead
  split
  · exact ⟨⟨placed_nil t _, rfl⟩, h⟩
  · obtain ⟨data, hdata, hplaced, hpos, hsound⟩ :=
      fileReadLoop_part hn (2 * size + 1) size [] h hallow
    rw [List.nil_append] at hdata
    exact ⟨⟨by rw [hdata]; exact hplaced, by rw [hpos, hdata]⟩, hsound⟩


/-! ## Runs -/

/-- From a cleared state on, the complete block groups are those of the frames to the end. -/
theorem Repositioned.groupsWith_eq {t : Track} {g : VfsFile} {p frame skip : Nat}
    (h : Repositioned t g p frame skip) (hread : t.Readable) (hlo : t.startFrame ≤ frame)
    (hhi : frame ≤ t.startFrame + t.frameCount) :
    g.groupsWith (g.endFrame - g.currentFrame) =
      (t.emit (fullBlocks dsfBlockSize (t.columnsFrom frame))).length := by
  have hch : g.info.channelCount = t.channelCount := by
    rw [h.openedOn.info]
    rfl
  rw [VfsFile.groupsWith, h.buffered, h.openedOn.stop, h.currentFrame, hch,
    t.emit_length fun b hb => length_of_mem_fullBlocks hb, fullBlocks_length (by decide),
    hread.columnsFrom_length hlo hhi, Nat.zero_add]

theorem repositionAudio_sound {t : Track} (hn : t.Nominal) {f : VfsFile} (h : f.OpenedOn t)
    (p : Nat) : Sound t (repositionAudio f p) := by
  have hread := hn.silenced_readable
  by_cases hlast : t.silenced.InLastBlock p
  · obtain ⟨hlo', hhi'⟩ := hlast
    unfold Track.lastBlockStart at hlo'
    rw [Track.silenced_info] at hlo' hhi'
    rcases repositionAudio_cases h.silenced p with ⟨hhead, -⟩ | ⟨hlo, -, g, -, hg, hr⟩ | ⟨hlo, -⟩
    · rw [Track.silenced_info] at hhead
      omega
    · refine .lost ⟨hr.ready (by omega) (by omega), by rw [hr.pos, hr.len], ?_, ?_⟩
      · have hfull := emit_fullBlocks_length hread (Nat.le_of_lt hg)
        have hgroups := hr.groupsWith_eq hread (by omega) (by omega)
        have hsize : t.silenced.groupSize = t.groupSize := rfl
        have hcount : t.silenced.frameCount = t.frameCount := rfl
        rw [SkipFits, hgroups, hr.skip, Track.silenced_info]
        rw [hsize, hcount] at hfull hlo'
        omega
      · rw [hr.position]
        exact hlo
    · rw [Track.silenced_info] at hlo
      omega
  · exact .inStep (repositionAudio_inStep hread h.silenced hlast)

theorem Sound.seek {t : Track} (hn : t.Nominal) {f : VfsFile} (h : Sound t f) (offset : Int)
    (whence : Whence) : Sound t (fileSeek f offset whence).2 := by
  unfold fileSeek sacdVfsFileSeek
  cases seekTarget f.position f.info.totalSize offset whence with
  | none => exact h
  | some newPos =>
    simp only
    split
    · exact h
    · split
      · exact h
      · exact repositionAudio_sound hn h.openedOn _

/-- Every read of the run is one that is asked for what it can get. -/
def RunAllowed (t : Track) : VfsFile → List Op → Prop
  | _, [] => True
  | f, .seek offset whence :: ops => RunAllowed t (Op.run t f (.seek offset whence)) ops
  | f, .read size :: ops => Allowed t f size ∧ RunAllowed t (Op.run t f (.read size)) ops

theorem Sound.run {t : Track} (hn : t.Nominal) (ops : List Op) {f : VfsFile} (h : Sound t f)
    {size : Nat} (hallow : RunAllowed t f (ops ++ [.read size])) :
    Sound t (ops.foldl (Op.run t) f) ∧ Allowed t (ops.foldl (Op.run t) f) size := by
  induction ops generalizing f with
  | nil => exact ⟨h, hallow.1⟩
  | cons op ops ih =>
    cases op with
    | seek offset whence => exact ih (h.seek hn offset whence) hallow
    | read size' => exact ih (fileRead_delivers hn h hallow.1).2 hallow.2

/-- A track whose only frame cannot be read. -/
def mutedTrack : Track :=
  { toneTrack with soundData := fun _ => none }

theorem mutedTrack_nominal : mutedTrack.Nominal := by
  intro n data _ hdata
  cases hdata

theorem mutedTrack_allowed :
    RunAllowed mutedTrack (sacdVfsFileOpen mutedTrack) ([.seek 92 .set] ++ [.read 5]) := by
  have hread : Allowed mutedTrack
      (Op.run mutedTrack (sacdVfsFileOpen mutedTrack) (.seek 92 .set)) 5 := by
    refine .inr (.inr (.inr ⟨?_, .inl ?_⟩))
    · intro n _ _ hbad _
      obtain ⟨frame, hframe, -⟩ := hbad
      cases hframe
    · exact Nat.zero_le _
  exact And.intro hread trivial

/-- A stereo DST track of two frames. The first does not decode, the second is constant. -/
def passedTrack : Track :=
  { toneTrack with
    frameFormat := .dst
    frameCount := 2
    soundData := fun n => some [UInt8.ofNat n]
    dstDecode := fun frame => if frame = [0] then none else some (List.replicate 9408 1) }

theorem passedTrack_frameData (n : Nat) : passedTrack.frameData n =
    if [UInt8.ofNat n] = [0] then none else some (List.replicate 9408 1) := by
  have hformat : passedTrack.frameFormat = .dst := rfl
  have hdecode : passedTrack.dstDecode [UInt8.ofNat n] =
    if [UInt8.ofNat n] = [0] then none else some (List.replicate 9408 1) := rfl
  change passedTrack.decode [UInt8.ofNat n] = _
  rw [Track.decode, if_pos hformat, hdecode]
  by_cases hfirst : [UInt8.ofNat n] = [0]
  · rw [if_pos hfirst]
  · rw [if_neg hfirst]
    exact if_neg (by rw [List.length_replicate]; decide)

theorem passedTrack_nominal : passedTrack.Nominal := by
  intro n data _ hdata
  rw [passedTrack_frameData] at hdata
  split at hdata
  · cases hdata
  · rw [← Option.some.inj hdata, List.length_replicate]
    rfl

theorem interleave_head {channelCount : Nat} (hc : 0 < channelCount) (c : Column)
    (block : List Column) : (interleave channelCount (c :: block))[0]? = some (c.getD 0 0) := by
  obtain ⟨k, rfl⟩ : ∃ k, channelCount = k + 1 := ⟨channelCount - 1, by omega⟩
  rw [interleave, List.range_succ_eq_map, List.flatMap_cons]
  simp

/-- The first byte of a stream that starts with one column over and over. -/
theorem blocks_head {channelCount : Nat} (hc : 0 < channelCount) (c : Column)
    (rest : List Column) :
    ((fullBlocks dsfBlockSize (List.replicate 4704 c ++ rest)).flatMap
      (interleave channelCount))[0]? = some (c.getD 0 0) := by
  have hsplit : List.replicate 4704 c = List.replicate 4096 c ++ List.replicate 608 c :=
    (List.replicate_append_replicate (n := 4096) (m := 608)).symm
  have hcons : List.replicate 4096 c = c :: List.replicate 4095 c := List.replicate_succ
  have hhead := interleave_head hc c (List.replicate 4095 c)
  rw [← hcons] at hhead
  have hblock : (List.replicate 4096 c).length = dsfBlockSize := List.length_replicate
  rw [hsplit, List.append_assoc, fullBlocks_block_append (by decide) hblock, List.flatMap_cons,
    List.getElem?_append_left (List.getElem?_eq_some_iff.mp hhead).1, hhead]

/-- The call starts in the audio region. -/
theorem fileRead_audio {t : Track} {f : VfsFile} (size : Nat) (hopen : f.OpenedOn t)
    (hlo : (generateDsfHeader t.info).length ≤ f.position)
    (hhi : f.position < t.info.metadataOffset) (heof : f.audioEarlyEof = false) :
    readRegion (m := Id) t (readAudioRegion t) f size = readAudioLoop t f size [] ∧
      fileRead t f size =
        fileReadLoop (m := Id) t (readAudioRegion t) (2 * size + 1) f size [] := by
  have htotal := t.info_totalSize
  constructor
  · rw [readRegion, hopen.headerSize, if_neg (by omega), hopen.info, if_pos hhi, readAudioRegion,
      if_neg (by simp [heof])]
  · rw [fileRead, sacdVfsFileRead, hopen.info, if_neg (by omega)]

theorem fileReadLoop_step {t : Track} {f : VfsFile} {fuel size : Nat} (hsize : 0 < size)
    (hpos : f.position < f.info.totalSize) {r : ReadResult}
    (hr : readRegion (m := Id) t (readAudioRegion t) f size = r) :
    fileReadLoop (m := Id) t (readAudioRegion t) (fuel + 1) f size [] =
      if r.status ≠ .ok ∧ r.status ≠ .eof then ⟨r.status, [], r.file⟩
      else if r.data.length = 0 then
        if r.file.audioEarlyEof ∧ r.file.position < r.file.info.metadataOffset then
          fileReadLoop (m := Id) t (readAudioRegion t) fuel r.file (size - r.data.length) r.data
        else ⟨.ok, r.data, r.file⟩
      else fileReadLoop (m := Id) t (readAudioRegion t) fuel r.file (size - r.data.length)
        r.data := by
  rw [fileReadLoop, if_pos ⟨hsize, hpos⟩]
  change (if (readRegion (m := Id) t (readAudioRegion t) f size).status ≠ .ok ∧
    (readRegion (m := Id) t (readAudioRegion t) f size).status ≠ .eof then _ else _) = _
  rw [hr]
  rfl

/-- The first frame is passed over, and the position stays. -/
def soughtFile : VfsFile := repositionAudio (sacdVfsFileOpen passedTrack) 92

theorem soughtFile_openedOn : soughtFile.OpenedOn passedTrack :=
  repositionAudio_openedOn (sacdVfsFileOpen_openedOn passedTrack) 92

theorem passedTrack_offsets : (generateDsfHeader passedTrack.info).length = 92 ∧
    passedTrack.info.metadataOffset = 24668 ∧ passedTrack.info.totalSize = 24668 := by
  refine ⟨?_, by decide, by decide⟩
  rw [generateDsfHeader_length]
  rfl

theorem readAudioLoop_sought : readAudioLoop passedTrack soughtFile 1 [] =
    ⟨.dstDecode, [], soughtFile.nextFrame⟩ := by
  have hframe : passedTrack.soundData soughtFile.currentFrame = some [0] := rfl
  have hdecode : decodeFrame passedTrack soughtFile.nextFrame [0] = none := rfl
  rw [readAudioLoop, if_pos (by decide), if_neg (by decide), if_neg (by decide), hframe]
  simp only [hdecode]
  rfl

theorem runOps_passed : runOps passedTrack [.seek 92 .set, .read 1] = soughtFile.nextFrame := by
  obtain ⟨hheader, hmeta, htotal⟩ := passedTrack_offsets
  have hpos : soughtFile.position = 92 := rfl
  obtain ⟨hregion, hcall⟩ := fileRead_audio 1 soughtFile_openedOn
    (by rw [hheader, hpos]) (by rw [hmeta, hpos]; decide) rfl
  change (fileRead passedTrack soughtFile 1).file = _
  rw [hcall, fileReadLoop_step (by decide) (by decide) (hregion.trans readAudioLoop_sought)]
  rfl

/-- One byte out of a fresh transform buffer. -/
theorem readAudioLoop_one {t : Track} {g : VfsFile} {b : UInt8}
    (hmeta : g.position < g.info.metadataOffset) (hpos : g.transformBufferPos = 0)
    (hlen : g.transformBufferLen = g.transformBuffer.length)
    (hb : g.transformBuffer[0]? = some b) :
    readAudioLoop t g 1 [] = ⟨.ok, [b], g.consume 1⟩ := by
  obtain ⟨rest, hbuf⟩ : ∃ rest, g.transformBuffer = b :: rest := by
    cases h : g.transformBuffer with
    | nil => rw [h] at hb; cases hb
    | cons a rest =>
      rw [h] at hb
      exact ⟨rest, by rw [Option.some.inj hb]⟩
  have hpend : g.transformBufferPos < g.transformBufferLen := by
    rw [hpos, hlen, hbuf]
    simp
  have hcopy : min 1 (g.transformBufferLen - g.transformBufferPos) = 1 := by omega
  rw [readAudioLoop, if_pos ⟨Nat.one_pos, hmeta⟩, if_pos hpend]
  simp only [hcopy, Nat.sub_self, List.nil_append]
  rw [readAudioLoop, if_neg (by omega), hpos, hbuf]
  rfl

/-- The second frame puts its first byte at the front of the buffer. -/
theorem transformDsdFrame_second :
    (transformDsdFrame soughtFile.nextFrame.nextFrame (List.replicate 9408 1)).transformBuffer[0]? =
      some 0x80 := by
  have hb : soughtFile.nextFrame.nextFrame.bytesBuffered = 0 := rfl
  have hch : soughtFile.nextFrame.nextFrame.info.channelCount = 2 := rfl
  have hspec := transformDsdFrame_spec (f := soughtFile.nextFrame.nextFrame)
    (List.replicate (4704 * 2) 1) (by rw [hb]; decide)
  have hhead := blocks_head Nat.zero_lt_two (List.replicate 2 (bitReverse 1)) []
  rw [List.append_nil] at hhead
  rw [show 9408 = 4704 * 2 from rfl, hspec.transformBuffer, VfsFile.buffered_eq_nil hb,
    List.nil_append, hch, columnsOf_replicate (by decide), hhead]
  decide

theorem readAudioLoop_passed : ∃ g, readAudioLoop passedTrack soughtFile.nextFrame 1 [] =
    ⟨.ok, [0x80], g⟩ := by
  have hframe : passedTrack.soundData soughtFile.nextFrame.currentFrame = some [1] := rfl
  have hdecode : decodeFrame passedTrack soughtFile.nextFrame.nextFrame [1] =
      some (List.replicate 9408 1) := by
    have hopen : soughtFile.nextFrame.OpenedOn passedTrack := ⟨rfl, rfl, rfl, rfl, rfl, rfl⟩
    have hdata := passedTrack_frameData 1
    rw [if_neg (by decide), Track.frameData, show passedTrack.soundData 1 = some [1] from rfl,
      Option.bind_some] at hdata
    rw [decodeFrame_eq hopen, hdata]
  have hspec := transformDsdFrame_spec (f := soughtFile.nextFrame.nextFrame)
    (List.replicate 9408 1) (by decide)
  have hskip : skipAfterSeek (transformDsdFrame soughtFile.nextFrame.nextFrame
      (List.replicate 9408 1)) =
      transformDsdFrame soughtFile.nextFrame.nextFrame (List.replicate 9408 1) :=
    if_neg fun h => absurd h.1 (by rw [transformDsdFrame_seekSkipBytes]; decide)
  rw [readAudioLoop, if_pos (by decide), if_neg (by decide), if_neg (by decide), hframe]
  simp only [hdecode, hskip]
  exact ⟨_, readAudioLoop_one
    (by rw [transformDsdFrame_position, transformDsdFrame_info]; decide) hspec.pos hspec.len
    transformDsdFrame_second⟩

theorem fileRead_passed : (fileRead passedTrack soughtFile.nextFrame 1).data = [0x80] := by
  obtain ⟨hheader, hmeta, htotal⟩ := passedTrack_offsets
  have hpos : soughtFile.nextFrame.position = 92 := rfl
  obtain ⟨g, hg⟩ := readAudioLoop_passed
  obtain ⟨hregion, hcall⟩ := fileRead_audio (f := soughtFile.nextFrame) 1
    ⟨rfl, rfl, rfl, rfl, rfl, rfl⟩ (by rw [hheader, hpos]) (by rw [hmeta, hpos]; decide) rfl
  rw [hcall, fileReadLoop_step (by decide) (by decide) (hregion.trans hg), if_neg (by simp),
    if_neg (by simp)]
  rw [fileReadLoop, if_neg (by simp)]
  rfl

theorem passedTrack_image : passedTrack.silenced.image[92]? = some 0x96 := by
  obtain ⟨hheader, -, -⟩ := passedTrack_offsets
  have hfirst : passedTrack.silenced.frameColumns 0 =
      List.replicate 4704 (List.replicate 2 (bitReverse 0x69)) := by
    have hdata : passedTrack.silenced.frameData 0 = some (List.replicate (4704 * 2) 0x69) := by
      have hsil := Track.silenced_frameData passedTrack_nominal (n := 0) (by decide)
      rw [show passedTrack.startFrame + 0 = 0 from rfl, passedTrack_frameData] at hsil
      exact hsil
    rw [Track.frameColumns, hdata, Option.getD_some]
    exact columnsOf_replicate (by decide) 4704 0x69
  have hhead := blocks_head Nat.zero_lt_two (List.replicate 2 (bitReverse 0x69))
    (passedTrack.silenced.columnsFrom 1)
  rw [← hfirst, ← Track.columnsFrom_step _ (by decide)] at hhead
  have hlt := (List.getElem?_eq_some_iff.mp hhead).1
  rw [Track.image, Track.silenced_info, List.append_assoc,
    List.getElem?_append_right (by rw [hheader]), hheader, Nat.sub_self, Track.audioImage,
    paddedBlocks, Track.emit_append, List.append_assoc]
  refine (List.getElem?_append_left hlt).trans (hhead.trans ?_)
  decide

end DsdNexus.Vfs
