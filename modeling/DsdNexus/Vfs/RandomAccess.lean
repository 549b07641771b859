import DsdNexus.Vfs.Image
import Mathlib

/-! # Random access agrees with the image

A handle is in step with the image when the output it owes is the image from
its position on. Reads keep it in step, a seek puts it in step unless its
target lies inside the last, padded block group: the bytes to skip then reach
into the flush, which skips nothing. A run that reads nothing right after such
a seek returns image bytes only.
-/

namespace DsdNexus.Vfs

open Blocks

/-! ## The audio loop pays what is owed -/

theorem decodeFrame_eq {t : Track} {f : VfsFile} (h : f.OpenedOn t) (frame : Bytes) :
    decodeFrame t f.nextFrame frame = t.decode frame := by
  have hformat : f.nextFrame.info.frameFormat = t.frameFormat := by
    change f.info.frameFormat = _
    rw [h.info]
    rfl
  have hdec : f.nextFrame.dstDecoder = decide (t.frameFormat = .dst) := h.decoder
  rw [decodeFrame, Track.decode, hformat, hdec]
  cases hd : t.dstDecode frame <;> by_cases hf : t.frameFormat = .dst <;> simp [hf]

theorem Track.Readable.frameData {t : Track} (hread : t.Readable) {f : VfsFile} (h : Ready t f)
    (hcur : f.currentFrame < t.startFrame + t.frameCount) :
    ∃ data, t.frameData f.currentFrame = some data ∧
      data.length = frameSize64 * t.channelCount := by
  have hs := h.start_le
  have hn := hread (f.currentFrame - t.startFrame) (by omega)
  rwa [show t.startFrame + (f.currentFrame - t.startFrame) = f.currentFrame by omega] at hn

theorem owed_done {t : Track} {f : VfsFile} (hempty : f.transformBufferLen ≤ f.transformBufferPos)
    (hend : t.startFrame + t.frameCount ≤ f.currentFrame) (hb : f.bytesBuffered = 0) :
    owed t f = [] := by
  have hcols : owedColumns t f = [] := by
    rw [owedColumns, t.columnsFrom_stop hend, VfsFile.buffered_eq_nil hb]
    rfl
  rw [owed, hcols, pending_eq_nil hempty]
  simp [paddedRemainder]

theorem pending_length_le_owed (t : Track) (f : VfsFile) :
    f.pending.length ≤ (owed t f).length := by
  simp only [owed, List.length_append]
  omega

theorem take_pending_eq_take_owed (t : Track) {f : VfsFile} {n : Nat} (hn : n ≤ f.pending.length) :
    f.pending.take n = (owed t f).take n := by
  rw [owed, List.append_assoc, List.take_append_of_le_length hn]

/-- The loop stores the first `size` owed bytes, as long as the owed output and
the audio region end together or the request stays inside the region. -/
theorem readAudioLoop_owed {t : Track} (hread : t.Readable) (f : VfsFile) (size : Nat)
    (totalRead : Bytes) (h : Ready t f)
    (hmeta : t.info.metadataOffset ≤ f.position + (owed t f).length)
    (hfit : f.position + min size (owed t f).length ≤ t.info.metadataOffset) :
    ∃ g, readAudioLoop t f size totalRead = ⟨.ok, totalRead ++ (owed t f).take size, g⟩ ∧
      Ready t g ∧ owed t g = (owed t f).drop size ∧
      g.position = f.position + min size (owed t f).length := by
  fun_induction readAudioLoop t f size totalRead with
  | case1 f size totalRead hloop hpend toCopy ih =>
    have hlen := h.pending_length
    have hcopy : toCopy ≤ f.pending.length := by omega
    have hle := pending_length_le_owed t f
    have howed := owed_consume (t := t) hcopy
    have hdrop : (owed t (f.consume toCopy)).length = (owed t f).length - toCopy := by
      rw [howed, List.length_drop]
    have hposc : (f.consume toCopy).position = f.position + toCopy := rfl
    obtain ⟨g, hg, hready, hrest, hpos⟩ := ih (h.consume hcopy) (by omega) (by omega)
    refine ⟨g, ?_, hready, ?_, ?_⟩
    · rw [hg, take_pending h (by omega), take_pending_eq_take_owed t hcopy, howed,
        List.append_assoc, ← List.take_add, Nat.add_sub_cancel' (by omega)]
    · rw [hrest, howed, List.drop_drop, Nat.add_sub_cancel' (by omega)]
    · omega
  | case2 f size totalRead hloop hpend hend hbuf ih =>
    have hstop : t.startFrame + t.frameCount ≤ f.currentFrame := by rw [← h.openedOn.stop]; exact hend
    have howed := owed_flush h hbuf hstop (by omega)
    have hposf : (flushBlockBuffers f).position = f.position := (flushBlockBuffers_frame f).2.1
    rw [← howed, ← hposf]
    exact ih (h.flush hbuf) (by rw [howed, hposf]; exact hmeta) (by rw [howed, hposf]; exact hfit)
  | case3 f size totalRead hloop hpend hend hbuf =>
    have hstop : t.startFrame + t.frameCount ≤ f.currentFrame := by rw [← h.openedOn.stop]; exact hend
    have hnil := owed_done (t := t) (f := f) (by omega) hstop (by omega)
    rw [hnil, List.length_nil, ← h.openedOn.info] at hmeta
    omega
  | case4 f size totalRead hloop hpend hend hnone =>
    obtain ⟨data, hdata, -⟩ := hread.frameData h (by rw [← h.openedOn.stop]; omega)
    rw [Track.frameData, hnone] at hdata
    cases hdata
  | case5 f size totalRead hloop hpend hend frame hframe f' hdec hpos =>
    obtain ⟨data, hdata, -⟩ := hread.frameData h (by rw [← h.openedOn.stop]; omega)
    rw [decodeFrame_eq h.openedOn] at hdec
    rw [Track.frameData, hframe, Option.bind_some, hdec] at hdata
    cases hdata
  | case6 f size totalRead hloop hpend hend frame hframe f' hdec hpos =>
    obtain ⟨data, hdata, -⟩ := hread.frameData h (by rw [← h.openedOn.stop]; omega)
    rw [decodeFrame_eq h.openedOn] at hdec
    rw [Track.frameData, hframe, Option.bind_some, hdec] at hdata
    cases hdata
  | case7 f size totalRead hloop hpend hend frame hframe f' data hdec ih =>
    have hcur : f.currentFrame < t.startFrame + t.frameCount := by rw [← h.openedOn.stop]; omega
    have hdata : t.frameData f.currentFrame = some data := by
      rw [Track.frameData, hframe, Option.bind_some, ← decodeFrame_eq h.openedOn, hdec]
    have howed := owed_takeFrame h hcur (by omega) hdata
    have hposf : (takeFrame f data).position = f.position := (skipAfterSeek_frame _).2.1
    rw [← howed, ← hposf]
    exact ih (h.takeFrame hcur data) (by rw [← takeFrame, howed, hposf]; exact hmeta)
      (by rw [← takeFrame, howed, hposf]; exact hfit)
  | case8 f size totalRead hstop =>
    have hzero : min size (owed t f).length = 0 := by
      rw [← h.openedOn.info] at hfit
      omega
    refine ⟨f, ?_, h, ?_, by omega⟩
    · rcases Nat.min_eq_zero_iff.mp hzero with hz | hz
      · simp [hz]
      · simp [List.eq_nil_of_length_eq_zero hz]
    · rcases Nat.min_eq_zero_iff.mp hzero with hz | hz
      · simp [hz]
      · simp [List.eq_nil_of_length_eq_zero hz]

/-! ## In step with the image -/

/-- The handle owes exactly the audio image from its position on. -/
structure InStep (t : Track) (f : VfsFile) : Prop where
  ready : Ready t f
  owed_eq : owed t f = t.audioImage.drop (f.position - (generateDsfHeader t.info).length)

theorem InStep.of_position {t : Track} {f g : VfsFile} (h : InStep t f) (hr : Ready t g)
    (ho : owed t g = owed t f)
    (hp : t.audioImage.drop (g.position - (generateDsfHeader t.info).length) =
      t.audioImage.drop (f.position - (generateDsfHeader t.info).length)) : InStep t g :=
  ⟨hr, by rw [ho, h.owed_eq, hp]⟩

theorem Ready.advance {t : Track} {f : VfsFile} (h : Ready t f) (n : Nat) :
    Ready t (f.advance n) :=
  ⟨⟨h.openedOn.info, h.openedOn.header, h.openedOn.headerSize, h.openedOn.start, h.openedOn.stop,
    h.openedOn.decoder⟩, h.buffered_lt, h.pos_le, h.len_le, h.start_le, h.le_stop, h.noEof⟩

/-- What one call of a region reader does on a handle in step: it stores a
non-empty piece of the image and the handle stays in step. -/
structure Serves (t : Track) (f : VfsFile) (size : Nat) (r : ReadResult) : Prop where
  status : r.status = .ok
  some_data : 0 < r.data.length
  le_size : r.data.length ≤ size
  data : r.data = (t.image.drop f.position).take r.data.length
  position : r.file.position = f.position + r.data.length
  inStep : InStep t r.file

theorem serves_of_piece {t : Track} {f g : VfsFile} {size n : Nat} {data : Bytes}
    (hlen : data.length = n) (hpos : 0 < n) (hle : n ≤ size)
    (hdata : data = (t.image.drop f.position).take n) (hg : g.position = f.position + n)
    (hin : InStep t g) : Serves t f size ⟨.ok, data, g⟩ := by
  subst hlen
  exact ⟨rfl, hpos, hle, hdata, hg, hin⟩

theorem drop_take_of_append {α : Type*} {a b c : List α} {p n : Nat} (hp : a.length ≤ p)
    (hn : n ≤ (b.drop (p - a.length)).length) :
    ((a ++ b ++ c).drop p).take n = (b.drop (p - a.length)).take n := by
  rw [List.length_drop] at hn
  rw [List.append_assoc, List.drop_append, List.drop_eq_nil_of_le hp, List.nil_append,
    List.drop_append, List.take_append_of_le_length (by rw [List.length_drop]; omega)]

theorem readHeaderRegion_serves {t : Track} {f : VfsFile} {size : Nat} (h : InStep t f)
    (hsize : 0 < size) (hpos : f.position < f.dsfHeaderSize) :
    Serves t f size (readHeaderRegion f size) := by
  have hh := h.ready.openedOn
  rw [readHeaderRegion, hh.header, hh.headerSize]
  rw [hh.headerSize] at hpos
  refine serves_of_piece (n := min size ((generateDsfHeader t.info).length - f.position)) ?_
    (by omega) (by omega) ?_ rfl ?_
  · rw [List.length_take, List.length_drop]
    omega
  · rw [Track.image, List.append_assoc, List.drop_append_of_le_length (Nat.le_of_lt hpos),
      List.take_append_of_le_length (by rw [List.length_drop]; omega)]
  · refine h.of_position (h.ready.advance _) rfl ?_
    rw [VfsFile.advance_position, Nat.sub_eq_zero_of_le (by omega),
      Nat.sub_eq_zero_of_le (Nat.le_of_lt hpos)]

theorem InStep.owed_length {t : Track} (hread : t.Readable) {f : VfsFile} (h : InStep t f) :
    (owed t f).length =
      t.info.audioDataSize - (f.position - (generateDsfHeader t.info).length) := by
  rw [h.owed_eq, List.length_drop, hread.audioImage_length]

theorem readAudioRegion_serves {t : Track} (hread : t.Readable) {f : VfsFile} {size : Nat}
    (h : InStep t f) (hsize : 0 < size) (hlo : f.dsfHeaderSize ≤ f.position)
    (hhi : f.position < f.info.metadataOffset) :
    Serves t f size (readAudioRegion t f size) := by
  have hmeta := t.info_metadataOffset
  have hlen := h.owed_length hread
  rw [h.ready.openedOn.headerSize] at hlo
  rw [h.ready.openedOn.info] at hhi
  obtain ⟨g, hg, hready, hrest, hpos⟩ :=
    readAudioLoop_owed hread f size [] h.ready (by omega) (by omega)
  have hr : readAudioRegion t f size = ⟨.ok, (owed t f).take size, g⟩ := by
    rw [readAudioRegion, if_neg (by simp [h.ready.noEof]), hg, List.nil_append]
  rw [hr]
  refine serves_of_piece (n := min size (owed t f).length) List.length_take (by omega) (by omega)
    ?_ hpos ⟨hready, ?_⟩
  · have hfits : min size (owed t f).length ≤
        (t.audioImage.drop (f.position - (generateDsfHeader t.info).length)).length := by
      rw [← h.owed_eq]
      exact Nat.min_le_right _ _
    rw [Track.image, drop_take_of_append hlo hfits, ← h.owed_eq, List.take_eq_take_min]
  · rw [hrest, h.owed_eq, List.drop_drop, hpos]
    rcases Nat.le_total size (owed t f).length with hle | hle
    · exact congrArg (fun n => t.audioImage.drop n) (by omega)
    · rw [List.drop_eq_nil_of_le (by rw [hread.audioImage_length]; omega),
        List.drop_eq_nil_of_le (by rw [hread.audioImage_length]; omega)]

theorem readMetadataRegion_serves {t : Track} (hread : t.Readable) {f : VfsFile} {size : Nat}
    (h : InStep t f) (hsize : 0 < size) (hlo : f.info.metadataOffset ≤ f.position)
    (hhi : f.position < f.info.totalSize) :
    Serves t f size (readMetadataRegion t f size) := by
  have hmeta := t.info_metadataOffset
  have htotal := t.info_totalSize
  have htag := t.info_metadataSize
  rw [h.ready.openedOn.info] at hlo hhi
  cases hid : t.id3Tag with
  | none =>
    rw [hid, Option.getD_none, List.length_nil] at htag
    omega
  | some id3 =>
    rw [hid, Option.getD_some] at htag
    have hfront : (generateDsfHeader t.info ++ t.audioImage).length = t.info.metadataOffset := by
      rw [List.length_append, hread.audioImage_length, hmeta]
    rw [readMetadataRegion, h.ready.openedOn.info, if_neg (by omega), hid]
    simp only
    rw [if_neg (by omega)]
    refine serves_of_piece (n := min size (id3.length - (f.position - t.info.metadataOffset)))
      (by rw [List.length_take, List.length_drop]; omega) (by omega) (by omega) ?_ rfl ?_
    · have hskip : (generateDsfHeader t.info ++ t.audioImage).drop f.position = [] :=
        List.drop_eq_nil_of_le (by rw [hfront]; exact hlo)
      rw [Track.image, List.drop_append, hskip, List.nil_append, hfront, hid, Option.getD_some]
    · refine h.of_position (h.ready.advance _) rfl ?_
      rw [VfsFile.advance_position,
        List.drop_eq_nil_of_le (by rw [hread.audioImage_length]; omega),
        List.drop_eq_nil_of_le (by rw [hread.audioImage_length]; omega)]

theorem readRegion_serves {t : Track} (hread : t.Readable) {f : VfsFile} {size : Nat}
    (h : InStep t f) (hsize : 0 < size) (hpos : f.position < f.info.totalSize) :
    Serves t f size (readRegion (m := Id) t (readAudioRegion t) f size) := by
  unfold readRegion
  by_cases hhead : f.position < f.dsfHeaderSize
  · rw [if_pos hhead]
    exact readHeaderRegion_serves h hsize hhead
  · by_cases haudio : f.position < f.info.metadataOffset
    · rw [if_neg hhead, if_pos haudio]
      exact readAudioRegion_serves hread h hsize (by omega) haudio
    · rw [if_neg hhead, if_neg haudio]
      exact readMetadataRegion_serves hread h hsize (by omega) hpos

/-! ## The read call -/

/-- Every turn of the read loop stores something, so the fuel lasts. -/
theorem fileReadLoop_image {t : Track} (hread : t.Readable) (fuel : Nat) {f : VfsFile}
    (remaining : Nat) (totalRead : Bytes) (h : InStep t f) (hfuel : remaining ≤ fuel) :
    ∃ g, fileReadLoop (m := Id) t (readAudioRegion t) fuel f remaining totalRead =
        ⟨.ok, totalRead ++ (t.image.drop f.position).take remaining, g⟩ ∧ InStep t g ∧
      g.position = f.position + min remaining (t.info.totalSize - f.position) := by
  induction fuel generalizing f remaining totalRead with
  | zero =>
    have hz : remaining = 0 := by omega
    exact ⟨f, by simp [fileReadLoop, hz]; rfl, h, by omega⟩
  | succ fuel ih =>
    by_cases hc : 0 < remaining ∧ f.position < f.info.totalSize
    · have hs := readRegion_serves hread h hc.1 hc.2
      generalize hr : readRegion (m := Id) t (readAudioRegion t) f remaining = r at hs
      have hpos := hs.some_data
      have hle := hs.le_size
      have hdlen := congrArg List.length hs.data
      rw [List.length_take, List.length_drop, hread.image_length] at hdlen
      obtain ⟨g, hg, hin, hgpos⟩ := ih (remaining - r.data.length)
        (totalRead ++ r.data) hs.inStep (by omega)
      refine ⟨g, ?_, hin, ?_⟩
      · have hstep : fileReadLoop (m := Id) t (readAudioRegion t) (fuel + 1) f remaining totalRead =
            fileReadLoop (m := Id) t (readAudioRegion t) fuel r.file (remaining - r.data.length)
              (totalRead ++ r.data) := by
          rw [fileReadLoop, if_pos hc]
          show (if (readRegion (m := Id) t (readAudioRegion t) f remaining).status ≠ .ok ∧
            (readRegion (m := Id) t (readAudioRegion t) f remaining).status ≠ .eof then _ else _) = _
          rw [hr, if_neg (by simp [hs.status]), if_neg (by omega)]
        rw [hstep, hg, hs.position, List.append_assoc]
        congr 2
        nth_rewrite 1 [hs.data]
        rw [← List.drop_drop, ← List.take_add, Nat.add_sub_cancel' hle]
      · rw [hgpos, hs.position]
        omega
    · refine ⟨f, ?_, h, ?_⟩
      · rw [fileReadLoop, if_neg hc]
        have hnil : (t.image.drop f.position).take remaining = [] := by
          by_cases hz : remaining = 0
          · rw [hz, List.take_zero]
          · rw [List.drop_eq_nil_of_le, List.take_nil]
            rw [hread.image_length, ← h.ready.openedOn.info]
            omega
        rw [hnil, List.append_nil]
        rfl
      · rw [← h.ready.openedOn.info]
        omega

/-- A read on a handle in step. -/
theorem fileRead_image {t : Track} (hread : t.Readable) {f : VfsFile} (h : InStep t f)
    (size : Nat) (hpos : f.position < t.info.totalSize) :
    ∃ g, fileRead t f size = ⟨.ok, (t.image.drop f.position).take size, g⟩ ∧ InStep t g ∧
      g.position = f.position + min size (t.info.totalSize - f.position) := by
  obtain ⟨g, hg, hin, hp⟩ := fileReadLoop_image hread (2 * size + 1) size [] h (by omega)
  refine ⟨g, ?_, hin, hp⟩
  rw [fileRead, sacdVfsFileRead, h.ready.openedOn.info, if_neg (by omega), hg, List.nil_append]

/-! ## Seeking -/

/-- Bytes of one block group. -/
def Track.groupSize (t : Track) : Nat := dsfBlockSize * t.channelCount

/-- File position of the padded block group, of the metadata when there is none. -/
def Track.lastBlockStart (t : Track) : Nat :=
  (generateDsfHeader t.info).length + t.frameCount * frameSize64 / dsfBlockSize * t.groupSize

/-- Strictly inside the padded block group. -/
def Track.InLastBlock (t : Track) (p : Nat) : Prop :=
  t.lastBlockStart < p ∧ p < t.info.metadataOffset

instance (t : Track) (p : Nat) : Decidable (t.InLastBlock p) :=
  inferInstanceAs (Decidable (_ ∧ _))

theorem outputPerAlignment_eq (channelCount : Nat) :
    outputPerAlignment channelCount = 147 * (dsfBlockSize * channelCount) := rfl

theorem Track.groupSize_pos (t : Track) : 0 < t.groupSize :=
  Nat.mul_pos (by decide) t.channelCount_pos

theorem Track.info_audioDataSize (t : Track) :
    t.info.audioDataSize = numBlocks t.frameCount * t.groupSize := by
  rw [Track.groupSize, ← Nat.mul_assoc]
  rfl

/-- The alignment group of a position inside the audio starts at a frame of the track. -/
theorem alignedFrame_lt {t : Track} {o : Nat} (ho : o < t.info.audioDataSize) :
    o / outputPerAlignment t.channelCount * frameBlockAlignment < t.frameCount := by
  have hg : o / outputPerAlignment t.channelCount * 147 < numBlocks t.frameCount := by
    apply Nat.lt_of_mul_lt_mul_right (a := t.groupSize)
    calc o / outputPerAlignment t.channelCount * 147 * t.groupSize
        = o / outputPerAlignment t.channelCount * outputPerAlignment t.channelCount := by
          rw [Nat.mul_assoc, outputPerAlignment_eq, Track.groupSize]
      _ ≤ o := Nat.div_mul_le_self _ _
      _ < numBlocks t.frameCount * t.groupSize := by rw [← t.info_audioDataSize]; exact ho
  unfold numBlocks dsfBlockSize frameSize64 at hg
  unfold frameBlockAlignment
  omega

/-- Whole alignment groups of frames are whole block groups of output. -/
theorem audioImage_split {t : Track} (hread : t.Readable) {g : Nat}
    (hg : g * frameBlockAlignment ≤ t.frameCount) :
    ∃ front : Bytes, front.length = g * outputPerAlignment t.channelCount ∧
      t.audioImage = front ++ t.emit (paddedBlocks dsfBlockSize (zeroColumn t.channelCount)
        (t.columnsFrom (t.startFrame + g * frameBlockAlignment))) := by
  have hlen := hread.frames_length (n := t.startFrame) (k := g * frameBlockAlignment)
    (Nat.le_refl _) (by omega)
  have hdvd : ((List.range' t.startFrame (g * frameBlockAlignment)).flatMap
      t.frameColumns).length = dsfBlockSize * (147 * g) := by
    rw [hlen]
    unfold frameBlockAlignment frameSize64 dsfBlockSize
    omega
  refine ⟨t.emit (fullBlocks dsfBlockSize ((List.range' t.startFrame
    (g * frameBlockAlignment)).flatMap t.frameColumns)), ?_, ?_⟩
  · rw [t.emit_length (fun b hb => length_of_mem_fullBlocks hb), fullBlocks_length (by decide),
      hdvd, Nat.mul_div_cancel_left _ (by decide), outputPerAlignment_eq, Nat.mul_comm 147 g,
      Nat.mul_assoc]
  · rw [Track.audioImage, t.columnsFrom_add t.startFrame (g * frameBlockAlignment) (by omega),
      paddedBlocks_append_of_dvd (by decide) _ _ ⟨147 * g, hdvd⟩, t.emit_append]

theorem repositionAudio_openedOn {t : Track} {f : VfsFile} (h : f.OpenedOn t) (p : Nat) :
    (repositionAudio f p).OpenedOn t := by
  unfold repositionAudio
  simp only
  split
  · exact ⟨h.info, h.header, h.headerSize, h.start, h.stop, h.decoder⟩
  · split
    · split <;> exact ⟨h.info, h.header, h.headerSize, h.start, h.stop, h.decoder⟩
    · exact ⟨h.info, h.header, h.headerSize, h.start, h.stop, h.decoder⟩

/-- What a seek leaves: a cleared audio state at some frame of the track. -/
structure Repositioned (t : Track) (g : VfsFile) (p frame skip : Nat) : Prop where
  openedOn : g.OpenedOn t
  position : g.position = p
  currentFrame : g.currentFrame = frame
  skip : g.seekSkipBytes = skip
  buffered : g.bytesBuffered = 0
  pos : g.transformBufferPos = 0
  len : g.transformBufferLen = 0
  noEof : g.audioEarlyEof = false

/-- The three targets of a seek. -/
theorem repositionAudio_cases {t : Track} {f : VfsFile} (h : f.OpenedOn t) (p : Nat) :
    (p < (generateDsfHeader t.info).length ∧
      Repositioned t (repositionAudio f p) p t.startFrame 0) ∨
    ((generateDsfHeader t.info).length ≤ p ∧ p < t.info.metadataOffset ∧
      ∃ g, g = (p - (generateDsfHeader t.info).length) / outputPerAlignment t.channelCount ∧
        g * frameBlockAlignment < t.frameCount ∧
        Repositioned t (repositionAudio f p) p (t.startFrame + g * frameBlockAlignment)
          (p - (generateDsfHeader t.info).length - g * outputPerAlignment t.channelCount)) ∨
    (t.info.metadataOffset ≤ p ∧
      Repositioned t (repositionAudio f p) p (t.startFrame + t.frameCount) 0) := by
  have hopen := repositionAudio_openedOn h p
  have hmeta := t.info_metadataOffset
  have hch : f.info.channelCount = t.channelCount := by rw [h.info]; rfl
  by_cases hhead : p < (generateDsfHeader t.info).length
  · left
    refine ⟨hhead, hopen, ?_, ?_, ?_, ?_, ?_, ?_, ?_⟩ <;>
      simp [repositionAudio, h.headerSize, hhead, h.start, -generateDsfHeader_length]
  · right
    by_cases haudio : p < t.info.metadataOffset
    · left
      have hal := alignedFrame_lt (t := t) (o := p - (generateDsfHeader t.info).length) (by omega)
      have hin : ¬ t.startFrame + t.frameCount < t.startFrame +
          (p - (generateDsfHeader t.info).length) / outputPerAlignment t.channelCount *
            frameBlockAlignment := by omega
      refine ⟨by omega, haudio, _, rfl, hal, hopen, ?_, ?_, ?_, ?_, ?_, ?_, ?_⟩ <;>
        simp [repositionAudio, h.headerSize, hhead, h.info, haudio, h.stop, h.start, hin,
          -generateDsfHeader_length, show t.info.channelCount = t.channelCount from rfl]
    · right
      refine ⟨by omega, hopen, ?_, ?_, ?_, ?_, ?_, ?_, ?_⟩ <;>
        simp [repositionAudio, h.headerSize, hhead, h.info, haudio, h.stop,
          -generateDsfHeader_length]

theorem Repositioned.ready {t : Track} {g : VfsFile} {p frame skip : Nat}
    (h : Repositioned t g p frame skip) (hlo : t.startFrame ≤ frame)
    (hhi : frame ≤ t.startFrame + t.frameCount) : Ready t g := by
  refine ⟨h.openedOn, ?_, ?_, ?_, ?_, ?_, h.noEof⟩
  · rw [h.buffered]; decide
  · rw [h.pos, h.len]
  · rw [h.len]; exact Nat.zero_le _
  · rw [h.currentFrame]; exact hlo
  · rw [h.currentFrame]; exact hhi

theorem Repositioned.owed_eq {t : Track} {g : VfsFile} {p frame skip : Nat}
    (h : Repositioned t g p frame skip) :
    owed t g = (t.emit (fullBlocks dsfBlockSize (t.columnsFrom frame))).drop skip ++
      t.emit (paddedRemainder dsfBlockSize (zeroColumn t.channelCount) (t.columnsFrom frame)) := by
  have hcols : owedColumns t g = t.columnsFrom frame := by
    rw [owedColumns, VfsFile.buffered_eq_nil h.buffered, h.currentFrame, List.nil_append]
  rw [owed, hcols, pending_eq_nil (by rw [h.pos, h.len]), h.skip, List.nil_append]

/-- Complete output of the frames from an aligned frame on. -/
theorem emit_fullBlocks_length {t : Track} (hread : t.Readable) {g : Nat}
    (hg : g * frameBlockAlignment ≤ t.frameCount) :
    (t.emit (fullBlocks dsfBlockSize
        (t.columnsFrom (t.startFrame + g * frameBlockAlignment)))).length +
      g * outputPerAlignment t.channelCount =
      t.frameCount * frameSize64 / dsfBlockSize * t.groupSize := by
  rw [t.emit_length (fun b hb => length_of_mem_fullBlocks hb), fullBlocks_length (by decide),
    hread.columnsFrom_length (by omega) (by omega), outputPerAlignment_eq,
    ← Nat.mul_assoc g 147, Track.groupSize, ← Nat.add_mul]
  congr 1
  unfold frameBlockAlignment frameSize64 dsfBlockSize at *
  omega

/-- A seek puts the handle in step unless it lands inside the padded block group. -/
theorem repositionAudio_inStep {t : Track} (hread : t.Readable) {f : VfsFile} (h : f.OpenedOn t)
    {p : Nat} (hp : ¬ t.InLastBlock p) : InStep t (repositionAudio f p) := by
  have hmeta := t.info_metadataOffset
  rcases repositionAudio_cases h p with ⟨hhead, hr⟩ | ⟨hlo, hhi, g, hgdef, hg, hr⟩ | ⟨hlo, hr⟩
  · refine ⟨hr.ready (Nat.le_refl _) (by omega), ?_⟩
    rw [hr.owed_eq, hr.position, Nat.sub_eq_zero_of_le (Nat.le_of_lt hhead), List.drop_zero,
      List.drop_zero, ← t.emit_append]
    rfl
  · refine ⟨hr.ready (by omega) (by omega), ?_⟩
    obtain ⟨front, hfront, himage⟩ := audioImage_split hread (Nat.le_of_lt hg)
    have hfull := emit_fullBlocks_length hread (Nat.le_of_lt hg)
    have hle : p ≤ t.lastBlockStart := by
      unfold Track.InLastBlock at hp
      omega
    have hge : g * outputPerAlignment t.channelCount ≤ p - (generateDsfHeader t.info).length := by
      rw [hgdef]
      exact Nat.div_mul_le_self _ _
    unfold Track.lastBlockStart at hle
    have hnil : front.drop (p - (generateDsfHeader t.info).length) = [] :=
      List.drop_eq_nil_of_le (by rw [hfront]; exact hge)
    rw [hr.owed_eq, hr.position, himage, List.drop_append, hnil, List.nil_append, hfront,
      paddedBlocks, t.emit_append, List.drop_append_of_le_length (by omega)]
  · refine ⟨hr.ready (by omega) (Nat.le_refl _), ?_⟩
    have hnil : t.audioImage.drop (p - (generateDsfHeader t.info).length) = [] :=
      List.drop_eq_nil_of_le (by rw [hread.audioImage_length]; omega)
    rw [hr.owed_eq, hr.position, t.columnsFrom_stop (Nat.le_refl _), hnil]
    simp [paddedRemainder]

/-! ## Whole runs -/

/-- Where the calls so far leave the position, and whether a seek moved it there. -/
structure Cursor where
  position : Nat
  sought : Bool
  deriving DecidableEq, Repr

def Cursor.step (t : Track) (c : Cursor) : Op → Cursor
  | .seek offset whence =>
    match seekTarget c.position t.info.totalSize offset whence with
    | none => c
    | some p => if p < 0 ∨ p.toNat = c.position then c else ⟨p.toNat, true⟩
  | .read size =>
    if t.info.totalSize ≤ c.position ∨ size = 0 then c
    else ⟨c.position + min size (t.info.totalSize - c.position), false⟩

/-- The call is not a read that follows a seek into the padded block group. -/
def Cursor.Allows (t : Track) (c : Cursor) : Op → Prop
  | .seek _ _ => True
  | .read size => ¬ (0 < size ∧ c.sought = true ∧ t.InLastBlock c.position)

instance (t : Track) (c : Cursor) : (op : Op) → Decidable (c.Allows t op)
  | .seek _ _ => inferInstanceAs (Decidable True)
  | .read _ => inferInstanceAs (Decidable (¬ _))

/-- No read of the run follows a seek into the padded block group. -/
def AvoidsLastBlock (t : Track) : Cursor → List Op → Prop
  | _, [] => True
  | c, op :: ops => c.Allows t op ∧ AvoidsLastBlock t (c.step t op) ops

instance AvoidsLastBlock.decidable (t : Track) :
    (c : Cursor) → (ops : List Op) → Decidable (AvoidsLastBlock t c ops)
  | _, [] => inferInstanceAs (Decidable True)
  | c, op :: ops =>
    haveI := AvoidsLastBlock.decidable t (c.step t op) ops
    inferInstanceAs (Decidable (_ ∧ _))

/-- A run reaches handles in step, except between a seek into the padded block
group and the next seek away from it. -/
structure Follows (t : Track) (c : Cursor) (f : VfsFile) : Prop where
  openedOn : f.OpenedOn t
  position : f.position = c.position
  inStep : InStep t f ∨ (c.sought = true ∧ t.InLastBlock c.position)

theorem fileRead_at_end {t : Track} {f : VfsFile} (h : f.OpenedOn t) (size : Nat)
    (hend : t.info.totalSize ≤ f.position) : fileRead t f size = ⟨.eof, [], f⟩ := by
  rw [fileRead, sacdVfsFileRead, h.info, if_pos hend]
  rfl

theorem fileRead_zero_file (t : Track) (f : VfsFile) : (fileRead t f 0).file = f := by
  rw [fileRead, sacdVfsFileRead]
  split
  · rfl
  · rw [fileReadLoop, if_neg (by omega)]
    rfl

theorem Follows.step {t : Track} (hread : t.Readable) {c : Cursor} {f : VfsFile} {op : Op}
    (h : Follows t c f) (hallow : c.Allows t op) : Follows t (c.step t op) (op.run t f) := by
  have htotal : f.info.totalSize = t.info.totalSize := by rw [h.openedOn.info]
  cases op with
  | seek offset whence =>
    unfold Cursor.step Op.run fileSeek sacdVfsFileSeek
    simp only [h.position, htotal]
    cases hs : seekTarget c.position t.info.totalSize offset whence with
    | none => exact h
    | some p =>
      simp only
      by_cases hneg : p < 0
      · rw [if_pos hneg, if_pos (Or.inl hneg)]
        exact h
      · by_cases hsame : p.toNat = c.position
        · rw [if_neg hneg, if_pos hsame, if_pos (Or.inr hsame)]
          exact h
        · rw [if_neg hneg, if_neg hsame, if_neg (by simp [hneg, hsame])]
          refine ⟨repositionAudio_openedOn h.openedOn _, ?_, ?_⟩
          · rcases repositionAudio_cases h.openedOn p.toNat with
              ⟨-, hr⟩ | ⟨-, -, _, -, -, hr⟩ | ⟨-, hr⟩ <;> exact hr.position
          · by_cases hlast : t.InLastBlock p.toNat
            · exact Or.inr ⟨rfl, hlast⟩
            · exact Or.inl (repositionAudio_inStep hread h.openedOn hlast)
  | read size =>
    simp only [Cursor.step, Op.run]
    by_cases hend : t.info.totalSize ≤ c.position
    · rw [if_pos (Or.inl hend), fileRead_at_end h.openedOn size (by rw [h.position]; exact hend)]
      exact h
    · by_cases hzero : size = 0
      · rw [if_pos (Or.inr hzero), hzero, fileRead_zero_file]
        exact h
      · have hin : InStep t f := by
          rcases h.inStep with hin | hlast
          · exact hin
          · exact absurd ⟨by omega, hlast⟩ hallow
        obtain ⟨g, hg, hing, hpos⟩ := fileRead_image hread hin size (by rw [h.position]; omega)
        rw [if_neg (by simp [hend, hzero]), hg]
        exact ⟨hing.ready.openedOn, by rw [hpos, h.position], Or.inl hing⟩

theorem Follows.run {t : Track} (hread : t.Readable) (ops : List Op) {c : Cursor} {f : VfsFile}
    (h : Follows t c f) (havoid : AvoidsLastBlock t c ops) :
    Follows t (ops.foldl (Cursor.step t) c) (ops.foldl (Op.run t) f) := by
  induction ops generalizing c f with
  | nil => exact h
  | cons op ops ih => exact ih (h.step hread havoid.1) havoid.2

theorem avoidsLastBlock_append (t : Track) (c : Cursor) (ops : List Op) (op : Op) :
    AvoidsLastBlock t c (ops ++ [op]) ↔
      AvoidsLastBlock t c ops ∧ (ops.foldl (Cursor.step t) c).Allows t op := by
  induction ops generalizing c with
  | nil => simp [AvoidsLastBlock]
  | cons o ops ih => simp [AvoidsLastBlock, ih, and_assoc]

theorem sacdVfsFileOpen_inStep (t : Track) : InStep t (sacdVfsFileOpen t) := by
  have hpend : (sacdVfsFileOpen t).pending = [] := rfl
  have hcols : owedColumns t (sacdVfsFileOpen t) = t.columnsFrom t.startFrame := by
    rw [owedColumns, VfsFile.buffered_eq_nil rfl, List.nil_append]
    rfl
  have hpos : (sacdVfsFileOpen t).position = 0 := rfl
  have hskip : (sacdVfsFileOpen t).seekSkipBytes = 0 := rfl
  have hbuf : (sacdVfsFileOpen t).bytesBuffered = 0 := rfl
  refine ⟨⟨sacdVfsFileOpen_openedOn t, by rw [hbuf]; decide, Nat.le_refl _, Nat.le_refl _,
    Nat.le_refl _, Nat.le_add_right _ _, rfl⟩, ?_⟩
  rw [owed, hpend, hcols, hskip, hpos, Nat.zero_sub, List.nil_append, List.drop_zero,
    List.drop_zero, ← t.emit_append]
  rfl

/-- A read at a position inside the file returns the image bytes from there on
and moves the position behind them. -/
def ReadsImage (t : Track) (f : VfsFile) (size : Nat) : Prop :=
  f.position < t.info.totalSize →
    (fileRead t f size).status = .ok ∧
    (fileRead t f size).data = (t.image.drop f.position).take size ∧
    (fileRead t f size).file.position = f.position + (fileRead t f size).data.length

theorem InStep.readsImage {t : Track} (hread : t.Readable) {f : VfsFile} (h : InStep t f)
    (size : Nat) : ReadsImage t f size := by
  intro hpos
  obtain ⟨g, hg, -, hgpos⟩ := fileRead_image hread h size hpos
  rw [hg]
  refine ⟨rfl, rfl, ?_⟩
  rw [hgpos, List.length_take, List.length_drop, hread.image_length]

theorem readsImage_zero {t : Track} {f : VfsFile} (h : f.OpenedOn t) : ReadsImage t f 0 := by
  intro hpos
  have hr : fileRead t f 0 = ⟨.ok, [], f⟩ := by
    rw [fileRead, sacdVfsFileRead, h.info, if_neg (by omega), fileReadLoop, if_neg (by omega)]
    rfl
  rw [hr]
  exact ⟨rfl, by simp, by simp⟩

/-- The padded block group; empty when the blocks come out even. -/
def Track.lastBlock (t : Track) : Bytes :=
  t.emit (paddedRemainder dsfBlockSize (zeroColumn t.channelCount) (t.columnsFrom t.startFrame))

theorem audioImage_drop_lastBlock {t : Track} (hread : t.Readable) {p : Nat}
    (hp : t.lastBlockStart ≤ p) :
    t.audioImage.drop (p - (generateDsfHeader t.info).length) =
      t.lastBlock.drop (p - t.lastBlockStart) := by
  have hsplit : t.audioImage =
      t.emit (fullBlocks dsfBlockSize (t.columnsFrom t.startFrame)) ++ t.lastBlock := by
    rw [Track.lastBlock, ← t.emit_append]
    rfl
  have hlen := emit_fullBlocks_length hread (g := 0) (by omega)
  rw [Nat.zero_mul, Nat.zero_mul, Nat.add_zero, Nat.add_zero] at hlen
  unfold Track.lastBlockStart at hp ⊢
  have hnil : (t.emit (fullBlocks dsfBlockSize (t.columnsFrom t.startFrame))).drop
      (p - (generateDsfHeader t.info).length) = [] := List.drop_eq_nil_of_le (by omega)
  rw [hsplit, List.drop_append, hnil, List.nil_append, hlen, Nat.sub_sub]

/-- The bytes to skip are forgotten by the flush: the whole padded block group is owed. -/
theorem owed_repositionAudio_lastBlock {t : Track} (hread : t.Readable) {f : VfsFile}
    (h : f.OpenedOn t) {p : Nat} (hp : t.InLastBlock p) :
    Ready t (repositionAudio f p) ∧ (repositionAudio f p).position = p ∧
      owed t (repositionAudio f p) = t.lastBlock := by
  obtain ⟨hlo', hhi'⟩ := hp
  have hstart : (generateDsfHeader t.info).length ≤ t.lastBlockStart := Nat.le_add_right _ _
  rcases repositionAudio_cases h p with ⟨hhead, -⟩ | ⟨hlo, -, g, -, hg, hr⟩ | ⟨hlo, -⟩
  · omega
  · refine ⟨hr.ready (by omega) (by omega), hr.position, ?_⟩
    have hfull := emit_fullBlocks_length hread (Nat.le_of_lt hg)
    unfold Track.lastBlockStart at hlo'
    have hnil : (t.emit (fullBlocks dsfBlockSize
        (t.columnsFrom (t.startFrame + g * frameBlockAlignment)))).drop
        (p - (generateDsfHeader t.info).length - g * outputPerAlignment t.channelCount) = [] :=
      List.drop_eq_nil_of_le (by omega)
    have hrem : remainder dsfBlockSize (t.columnsFrom (t.startFrame + g * frameBlockAlignment)) =
        remainder dsfBlockSize (t.columnsFrom t.startFrame) := by
      have hfront : remainder dsfBlockSize ((List.range' t.startFrame
          (g * frameBlockAlignment)).flatMap t.frameColumns) = [] := by
        apply remainder_of_dvd
        rw [hread.frames_length (Nat.le_refl _) (by omega)]
        exact ⟨147 * g, by unfold frameBlockAlignment frameSize64 dsfBlockSize; omega⟩
      rw [t.columnsFrom_add t.startFrame (g * frameBlockAlignment) (by omega),
        remainder_append (by decide), hfront, List.nil_append]
    rw [hr.owed_eq, hnil, List.nil_append, Track.lastBlock, paddedRemainder_congr hrem]
  · omega

/-- A read that stays inside the padded block group returns its first bytes,
whatever offset the seek asked for. -/
theorem fileRead_after_lastBlock_seek {t : Track} (hread : t.Readable) {f : VfsFile}
    (h : f.OpenedOn t) {p : Nat} (hp : t.InLastBlock p) (size : Nat) (hsize : 0 < size)
    (hfit : p + size ≤ t.info.metadataOffset) :
    (fileRead t (repositionAudio f p) size).data = t.lastBlock.take size := by
  obtain ⟨hready, hpos, howed⟩ := owed_repositionAudio_lastBlock hread h hp
  have hopen := hready.openedOn
  have htotal := t.info_totalSize
  have hmeta := t.info_metadataOffset
  have hstart : (generateDsfHeader t.info).length ≤ t.lastBlockStart := Nat.le_add_right _ _
  obtain ⟨hlo, hhi⟩ := hp
  have himage := audioImage_drop_lastBlock hread (p := t.lastBlockStart) (Nat.le_refl _)
  have hlast : t.lastBlock.length = t.info.metadataOffset - t.lastBlockStart := by
    have hlen := congrArg List.length himage
    rw [List.length_drop, List.length_drop, hread.audioImage_length] at hlen
    omega
  obtain ⟨g, hg, hgready, -, hgpos⟩ := readAudioLoop_owed hread (repositionAudio f p) size []
    hready (by rw [hpos, howed, hlast]; omega) (by rw [hpos, howed, hlast]; omega)
  have hregion : readRegion (m := Id) t (readAudioRegion t) (repositionAudio f p) size =
      ⟨.ok, t.lastBlock.take size, g⟩ := by
    rw [readRegion, hopen.headerSize, hpos, if_neg (by omega), hopen.info, if_pos hhi,
      readAudioRegion, if_neg (by simp [hready.noEof]), hg, List.nil_append, howed]
  have hlen : (t.lastBlock.take size).length = size := by
    rw [List.length_take, hlast]
    omega
  rw [fileRead, sacdVfsFileRead, hopen.info, hpos, if_neg (by omega), fileReadLoop, hopen.info,
    hpos, if_pos (by omega)]
  change (if (readRegion (m := Id) t (readAudioRegion t) (repositionAudio f p) size).status ≠ .ok ∧
    (readRegion (m := Id) t (readAudioRegion t) (repositionAudio f p) size).status ≠ .eof
      then _ else _ : ReadResult).data = _
  rw [hregion, if_neg (by simp), if_neg (by simp only; omega)]
  simp only
  rw [hlen, Nat.sub_self, show 2 * size = (2 * size - 1) + 1 by omega, fileReadLoop,
    if_neg (by omega)]
  rfl

/-- One stereo frame of constant bytes: a full block group and one of 608 columns. -/
def toneTrack : Track :=
  { channelCount := 2
    channelCount_pos := Nat.zero_lt_two
    sampleRate := 2822400
    frameFormat := .dsd3in14
    startFrame := 0
    frameCount := 1
    soundData := fun _ => some (List.replicate 9408 1)
    dstDecode := fun _ => none
    id3Tag := none }

theorem columnsOf_replicate {channelCount : Nat} (hc : 0 < channelCount) (n : Nat) (b : UInt8) :
    columnsOf channelCount (List.replicate (n * channelCount) b) =
      List.replicate n (List.replicate channelCount (bitReverse b)) := by
  apply List.ext_getElem
  · simp [Nat.mul_div_cancel _ hc]
  · intro i hi _
    rw [columnsOf_length, List.length_replicate, Nat.mul_div_cancel _ hc] at hi
    rw [List.getElem_replicate]
    apply List.ext_getElem
    · simp [columnsOf]
    · intro ch hch _
      have hch' : ch < channelCount := by simpa [columnsOf] using hch
      have hlt : i * channelCount + ch < n * channelCount :=
        calc i * channelCount + ch < i * channelCount + channelCount := by omega
          _ = (i + 1) * channelCount := by rw [Nat.add_mul, Nat.one_mul]
          _ ≤ n * channelCount := Nat.mul_le_mul_right _ hi
      simp [columnsOf, List.getElem_replicate, hlt]

theorem toneTrack_columns : toneTrack.columnsFrom 0 = List.replicate 4704 [128, 128] := by
  have hbit : bitReverse 1 = 128 := by decide
  have hframe : toneTrack.frameColumns 0 = columnsOf 2 (List.replicate (4704 * 2) 1) := rfl
  rw [toneTrack.columnsFrom_step (by decide), toneTrack.columnsFrom_stop (by decide),
    List.append_nil, hframe, columnsOf_replicate (by decide), hbit]
  rfl

theorem toneTrack_readable : toneTrack.Readable := by
  intro n _
  exact ⟨List.replicate 9408 1, rfl, List.length_replicate⟩

theorem toneTrack_lastBlock :
    toneTrack.lastBlock = (List.replicate 608 128 ++ List.replicate 3488 0) ++
      (List.replicate 608 128 ++ List.replicate 3488 0) := by
  have hrem : remainder dsfBlockSize (toneTrack.columnsFrom toneTrack.startFrame) =
      List.replicate 608 [128, 128] := by
    rw [show toneTrack.startFrame = 0 from rfl, toneTrack_columns, remainder,
      List.length_replicate, List.drop_replicate]
    rfl
  have hzero : zeroColumn toneTrack.channelCount = [0, 0] := rfl
  have hcount : toneTrack.channelCount = 2 := rfl
  have hblock : dsfBlockSize = 4096 := rfl
  rw [Track.lastBlock, paddedRemainder, hrem, if_neg (by simp [-List.reduceReplicate]),
    List.length_replicate, hzero, hblock]
  simp only [Track.emit, interleave, hcount, List.flatMap_cons, List.flatMap_nil, List.append_nil,
    List.range_succ, List.range_zero, List.nil_append, List.flatMap_append, List.map_append,
    List.map_replicate]
  rfl

end DsdNexus.Vfs
