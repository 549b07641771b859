import DsdNexus.Vfs.Read

/-! # The byte image of a virtual file

What the file is for: one fixed byte string, header, audio and tag. The audio
is the column stream of the track cut into blocks of 4096 columns, each written
channel after channel, the last one zero padded. The audio state of a handle is
read as the output it still owes; every turn of the read loop pays from it.
-/

namespace DsdNexus.Vfs

open Blocks

/-! ## The image -/

/-- The DSD bytes of a frame; `none` when the decoder gives none. -/
def Track.decode (t : Track) (frame : Bytes) : Option Bytes :=
  if t.frameFormat = .dst then
    match t.dstDecode frame with
    | some decoded => if decoded.length = 0 then none else some decoded
    | none => none
  else some frame

/-- `none` when the frame is not read or not decoded. -/
def Track.frameData (t : Track) (n : Nat) : Option Bytes := (t.soundData n).bind t.decode

/-- Every frame of the track is delivered with its nominal size. -/
def Track.Readable (t : Track) : Prop :=
  ∀ n, n < t.frameCount → ∃ data, t.frameData (t.startFrame + n) = some data ∧
    data.length = frameSize64 * t.channelCount

def Track.frameColumns (t : Track) (n : Nat) : List Column :=
  columnsOf t.channelCount ((t.frameData n).getD [])

/-- The columns of the frames from `n` to the end of the track. -/
def Track.columnsFrom (t : Track) (n : Nat) : List Column :=
  (List.range' n (t.startFrame + t.frameCount - n)).flatMap t.frameColumns

/-- Blocks written channel after channel. -/
def Track.emit (t : Track) (blocks : List (List Column)) : Bytes :=
  blocks.flatMap (interleave t.channelCount)

def Track.audioImage (t : Track) : Bytes :=
  t.emit (paddedBlocks dsfBlockSize (zeroColumn t.channelCount) (t.columnsFrom t.startFrame))

def Track.image (t : Track) : Bytes :=
  generateDsfHeader t.info ++ t.audioImage ++ t.id3Tag.getD []

@[simp] theorem Track.emit_nil (t : Track) : t.emit [] = [] := rfl

@[simp] theorem Track.emit_append (t : Track) (a b : List (List Column)) :
    t.emit (a ++ b) = t.emit a ++ t.emit b := by
  simp [Track.emit]

theorem Track.emit_length (t : Track) {blocks : List (List Column)}
    (h : ∀ b ∈ blocks, b.length = dsfBlockSize) :
    (t.emit blocks).length = blocks.length * (dsfBlockSize * t.channelCount) := by
  induction blocks with
  | nil => simp
  | cons b bs ih =>
    have hb := h b (by simp)
    have hrec := ih (fun c hc => h c (by simp [hc]))
    rw [Track.emit, List.flatMap_cons, List.length_append, interleave_length, hb, List.length_cons,
      Nat.add_mul, Nat.one_mul, Nat.mul_comm t.channelCount]
    rw [Track.emit] at hrec
    omega

theorem Track.columnsFrom_stop (t : Track) {n : Nat} (h : t.startFrame + t.frameCount ≤ n) :
    t.columnsFrom n = [] := by
  rw [Track.columnsFrom, Nat.sub_eq_zero_of_le h]
  rfl

theorem Track.columnsFrom_step (t : Track) {n : Nat} (h : n < t.startFrame + t.frameCount) :
    t.columnsFrom n = t.frameColumns n ++ t.columnsFrom (n + 1) := by
  have hc : t.startFrame + t.frameCount - n = (t.startFrame + t.frameCount - (n + 1)) + 1 := by
    omega
  rw [Track.columnsFrom, hc, List.range'_succ, List.flatMap_cons, Track.columnsFrom]

/-- The column stream from `n` starts with the `k` frames from `n`. -/
theorem Track.columnsFrom_add (t : Track) (n k : Nat) (h : n + k ≤ t.startFrame + t.frameCount) :
    t.columnsFrom n =
      (List.range' n k).flatMap t.frameColumns ++ t.columnsFrom (n + k) := by
  induction k generalizing n with
  | zero => simp
  | succ k ih =>
    rw [t.columnsFrom_step (by omega), ih (n + 1) (by omega), List.range'_succ, List.flatMap_cons,
      List.append_assoc, show n + 1 + k = n + (k + 1) by omega]

/-! ### Lengths -/

section

variable {t : Track} (hread : t.Readable)
include hread

theorem Track.Readable.frameColumns_length {n : Nat} (hlo : t.startFrame ≤ n)
    (hhi : n < t.startFrame + t.frameCount) : (t.frameColumns n).length = frameSize64 := by
  obtain ⟨data, hdata, hlen⟩ := hread (n - t.startFrame) (by omega)
  rw [show t.startFrame + (n - t.startFrame) = n by omega] at hdata
  rw [Track.frameColumns, columnsOf_length, hdata, Option.getD_some, hlen,
    Nat.mul_div_cancel _ t.channelCount_pos]

theorem Track.Readable.frames_length {n k : Nat} (hlo : t.startFrame ≤ n)
    (hhi : n + k ≤ t.startFrame + t.frameCount) :
    ((List.range' n k).flatMap t.frameColumns).length = k * frameSize64 := by
  induction k generalizing n with
  | zero => simp
  | succ k ih =>
    rw [List.range'_succ, List.flatMap_cons, List.length_append,
      hread.frameColumns_length hlo (by omega), ih (by omega) (by omega), Nat.add_mul, Nat.one_mul,
      Nat.add_comm]

theorem Track.Readable.columnsFrom_length {n : Nat} (hlo : t.startFrame ≤ n)
    (hhi : n ≤ t.startFrame + t.frameCount) :
    (t.columnsFrom n).length = (t.startFrame + t.frameCount - n) * frameSize64 := by
  rw [Track.columnsFrom, hread.frames_length hlo (by omega)]

theorem Track.Readable.audioImage_length : t.audioImage.length = t.info.audioDataSize := by
  have hcols := hread.columnsFrom_length (Nat.le_refl _) (Nat.le_add_right _ t.frameCount)
  rw [Nat.add_sub_cancel_left] at hcols
  rw [Track.audioImage, t.emit_length (fun b hb => length_of_mem_paddedBlocks (by decide) hb),
    paddedBlocks_length (by decide), hcols, ← Nat.mul_assoc]
  rfl

end

theorem Track.info_metadataOffset (t : Track) :
    t.info.metadataOffset = (generateDsfHeader t.info).length + t.info.audioDataSize := by
  rw [generateDsfHeader_length]
  rfl

theorem Track.info_totalSize (t : Track) :
    t.info.totalSize = t.info.metadataOffset + t.info.metadataSize := rfl

theorem Track.info_metadataSize (t : Track) : t.info.metadataSize = (t.id3Tag.getD []).length := by
  cases h : t.id3Tag <;> simp [Track.info, calculateVirtualFileSize, h]

theorem Track.Readable.image_length {t : Track} (hread : t.Readable) :
    t.image.length = t.info.totalSize := by
  rw [Track.image, List.length_append, List.length_append, hread.audioImage_length,
    t.info_totalSize, t.info_metadataOffset, t.info_metadataSize]

/-! ## The output a handle still owes -/

/-- Columns buffered or still to be read. -/
def owedColumns (t : Track) (f : VfsFile) : List Column :=
  f.buffered ++ t.columnsFrom f.currentFrame

/-- What reading on to the end of the audio region would store: the rest of the
transform buffer, the complete blocks less the bytes to skip, the padded flush.
The skip does not reach into the flush. -/
def owed (t : Track) (f : VfsFile) : Bytes :=
  f.pending ++ (t.emit (fullBlocks dsfBlockSize (owedColumns t f))).drop f.seekSkipBytes ++
    t.emit (paddedRemainder dsfBlockSize (zeroColumn t.channelCount) (owedColumns t f))

/-- The audio state is one the code can be in between two calls. -/
structure Ready (t : Track) (f : VfsFile) : Prop where
  openedOn : f.OpenedOn t
  buffered_lt : f.bytesBuffered < dsfBlockSize
  pos_le : f.transformBufferPos ≤ f.transformBufferLen
  len_le : f.transformBufferLen ≤ f.transformBuffer.length
  start_le : t.startFrame ≤ f.currentFrame
  le_stop : f.currentFrame ≤ t.startFrame + t.frameCount
  noEof : f.audioEarlyEof = false

theorem Ready.channelCount {t : Track} {f : VfsFile} (h : Ready t f) :
    f.info.channelCount = t.channelCount := by
  rw [h.openedOn.info]
  rfl

theorem Ready.pending_length {t : Track} {f : VfsFile} (h : Ready t f) :
    f.pending.length = f.transformBufferLen - f.transformBufferPos := by
  have := h.len_le
  simp only [VfsFile.pending, List.length_drop, List.length_take]
  omega

theorem pending_eq_nil {f : VfsFile} (h : f.transformBufferLen ≤ f.transformBufferPos) :
    f.pending = [] := by
  apply List.drop_eq_nil_of_le
  rw [List.length_take]
  omega

theorem pending_consume (f : VfsFile) (n : Nat) : (f.consume n).pending = f.pending.drop n := by
  simp [VfsFile.pending, VfsFile.consume]

theorem take_pending {t : Track} {f : VfsFile} (h : Ready t f) {n : Nat}
    (hn : n ≤ f.transformBufferLen - f.transformBufferPos) :
    (f.transformBuffer.drop f.transformBufferPos).take n = f.pending.take n := by
  have := h.len_le
  rw [VfsFile.pending, List.drop_take, List.take_take, Nat.min_eq_left hn]

/-! ### One turn of the loop -/

theorem Ready.consume {t : Track} {f : VfsFile} (h : Ready t f) {n : Nat}
    (hn : n ≤ f.pending.length) : Ready t (f.consume n) := by
  have hp := h.pending_length
  refine ⟨⟨h.openedOn.info, h.openedOn.header, h.openedOn.headerSize, h.openedOn.start,
    h.openedOn.stop, h.openedOn.decoder⟩, h.buffered_lt, ?_, h.len_le, h.start_le, h.le_stop,
    h.noEof⟩
  have := h.pos_le
  simp only [VfsFile.consume]
  omega

theorem owed_consume {t : Track} {f : VfsFile} {n : Nat} (hn : n ≤ f.pending.length) :
    owed t (f.consume n) = (owed t f).drop n := by
  have hc : owedColumns t (f.consume n) = owedColumns t f := rfl
  rw [owed, owed, pending_consume, hc, List.append_assoc, List.append_assoc,
    List.drop_append_of_le_length hn]
  rfl

theorem Ready.flush {t : Track} {f : VfsFile} (h : Ready t f) (hpos : 0 < f.bytesBuffered) :
    Ready t (flushBlockBuffers f) := by
  obtain ⟨-, hzero, hp, hl⟩ := flushBlockBuffers_spec hpos h.buffered_lt
  obtain ⟨-, -, hcur, -, -, heof⟩ := flushBlockBuffers_frame f
  refine ⟨h.openedOn.flush, ?_, ?_, ?_, ?_, ?_, ?_⟩
  · rw [hzero]; decide
  · omega
  · omega
  · rw [hcur]; exact h.start_le
  · rw [hcur]; exact h.le_stop
  · rw [heof]; exact h.noEof

theorem pending_eq_transformBuffer {f : VfsFile} (hp : f.transformBufferPos = 0)
    (hl : f.transformBufferLen = f.transformBuffer.length) : f.pending = f.transformBuffer := by
  simp [VfsFile.pending, hp, hl]

/-- At the end of the track the flush pays the padded block and owes nothing more. -/
theorem owed_flush {t : Track} {f : VfsFile} (h : Ready t f) (hpos : 0 < f.bytesBuffered)
    (hend : t.startFrame + t.frameCount ≤ f.currentFrame)
    (hempty : f.transformBufferLen ≤ f.transformBufferPos) :
    owed t (flushBlockBuffers f) = owed t f := by
  obtain ⟨hbuf, hzero, hp, hl⟩ := flushBlockBuffers_spec hpos h.buffered_lt
  obtain ⟨-, -, hcur, -, -, -⟩ := flushBlockBuffers_frame f
  have hcols : owedColumns t f = f.buffered := by
    rw [owedColumns, t.columnsFrom_stop hend, List.append_nil]
  have hcols' : owedColumns t (flushBlockBuffers f) = [] := by
    rw [owedColumns, hcur, t.columnsFrom_stop hend, VfsFile.buffered_eq_nil hzero]
    rfl
  have hshort : f.buffered.length < dsfBlockSize := by rw [f.buffered_length]; exact h.buffered_lt
  rw [owed, owed, hcols, hcols', pending_eq_transformBuffer hp hl, hbuf, pending_eq_nil hempty,
    fullBlocks_of_short hshort, h.channelCount]
  simp [paddedRemainder, Track.emit]

/-- A frame enters: the bytes to skip come off its own output first. -/
def takeFrame (f : VfsFile) (data : Bytes) : VfsFile :=
  skipAfterSeek (transformDsdFrame f.nextFrame data)

theorem skipAfterSeek_frame (f : VfsFile) :
    (skipAfterSeek f).info = f.info ∧ (skipAfterSeek f).position = f.position ∧
      (skipAfterSeek f).bytesBuffered = f.bytesBuffered ∧
      (skipAfterSeek f).buffered = f.buffered ∧
      (skipAfterSeek f).transformBuffer = f.transformBuffer ∧
      (skipAfterSeek f).transformBufferLen = f.transformBufferLen ∧
      (skipAfterSeek f).audioEarlyEof = f.audioEarlyEof := by
  unfold skipAfterSeek
  split <;> exact ⟨rfl, rfl, rfl, rfl, rfl, rfl, rfl⟩

/-- The bytes skipped now and the bytes to skip later make up the request. -/
theorem skipAfterSeek_spec {f : VfsFile} (hp : f.transformBufferPos = 0)
    (hl : f.transformBufferLen = f.transformBuffer.length) (rest : Bytes) :
    (skipAfterSeek f).pending ++ rest.drop (skipAfterSeek f).seekSkipBytes =
      (f.transformBuffer ++ rest).drop f.seekSkipBytes := by
  by_cases hc : 0 < f.seekSkipBytes ∧ 0 < f.transformBufferLen
  · have hskip : skipAfterSeek f =
        { f with
          transformBufferPos := min f.seekSkipBytes f.transformBufferLen
          seekSkipBytes := f.seekSkipBytes - min f.seekSkipBytes f.transformBufferLen } :=
      if_pos hc
    rw [List.drop_append, hskip]
    simp only [VfsFile.pending, hl, List.take_length]
    rcases Nat.le_total f.seekSkipBytes f.transformBuffer.length with hle | hle
    · rw [Nat.min_eq_left hle, Nat.sub_self, Nat.sub_eq_zero_of_le hle]
    · rw [Nat.min_eq_right hle, List.drop_length, List.drop_eq_nil_of_le hle]
  · rw [skipAfterSeek, if_neg hc, pending_eq_transformBuffer hp hl]
    by_cases hs : f.seekSkipBytes = 0
    · simp [hs]
    · have hnil : f.transformBuffer = [] := List.eq_nil_of_length_eq_zero (by omega)
      simp [hnil]

theorem VfsFile.OpenedOn.skip {t : Track} {f : VfsFile} (h : f.OpenedOn t) :
    (skipAfterSeek f).OpenedOn t := by
  unfold skipAfterSeek
  split
  · exact ⟨h.info, h.header, h.headerSize, h.start, h.stop, h.decoder⟩
  · exact h

theorem Ready.takeFrame {t : Track} {f : VfsFile} (h : Ready t f)
    (hcur : f.currentFrame < t.startFrame + t.frameCount) (data : Bytes) :
    Ready t (takeFrame f data) := by
  have hb : f.nextFrame.bytesBuffered < dsfBlockSize := h.buffered_lt
  have hspec := transformDsdFrame_spec data hb
  obtain ⟨-, -, hbb, -, htb, htl, heof⟩ := skipAfterSeek_frame
    (transformDsdFrame f.nextFrame data)
  refine ⟨?_, ?_, ?_, ?_, ?_, ?_, ?_⟩
  · have hnext : f.nextFrame.OpenedOn t := ⟨h.openedOn.info, h.openedOn.header,
      h.openedOn.headerSize, h.openedOn.start, h.openedOn.stop, h.openedOn.decoder⟩
    exact (hnext.transform data).skip
  · rw [Vfs.takeFrame, hbb, ← VfsFile.buffered_length, hspec.buffered]
    exact remainder_length_lt (by decide) _
  · rw [Vfs.takeFrame, htl]
    unfold skipAfterSeek
    split
    · exact Nat.min_le_right _ _
    · rw [hspec.pos]; exact Nat.zero_le _
  · rw [Vfs.takeFrame, htb, htl, hspec.len]
  · rw [Vfs.takeFrame, skipAfterSeek_currentFrame]
    have := h.start_le
    simp only [transformDsdFrame_currentFrame, VfsFile.nextFrame_currentFrame]
    omega
  · rw [Vfs.takeFrame, skipAfterSeek_currentFrame]
    simp only [transformDsdFrame_currentFrame, VfsFile.nextFrame_currentFrame]
    omega
  · rw [Vfs.takeFrame, heof]
    exact h.noEof

theorem owed_takeFrame {t : Track} {f : VfsFile} (h : Ready t f)
    (hcur : f.currentFrame < t.startFrame + t.frameCount)
    (hempty : f.transformBufferLen ≤ f.transformBufferPos) {data : Bytes}
    (hdata : t.frameData f.currentFrame = some data) :
    owed t (takeFrame f data) = owed t f := by
  have hb : f.nextFrame.bytesBuffered < dsfBlockSize := h.buffered_lt
  have hspec := transformDsdFrame_spec data hb
  have hbuf : (transformDsdFrame f.nextFrame data).transformBuffer
      = t.emit (fullBlocks dsfBlockSize (f.buffered ++ t.frameColumns f.currentFrame)) := by
    rw [hspec.transformBuffer, Track.frameColumns, hdata, Option.getD_some, Track.emit,
      ← h.channelCount]
    rfl
  have hleft : (transformDsdFrame f.nextFrame data).buffered
      = remainder dsfBlockSize (f.buffered ++ t.frameColumns f.currentFrame) := by
    rw [hspec.buffered, Track.frameColumns, hdata, Option.getD_some, ← h.channelCount]
    rfl
  have hcols : owedColumns t f =
      (f.buffered ++ t.frameColumns f.currentFrame) ++ t.columnsFrom (f.currentFrame + 1) := by
    rw [owedColumns, t.columnsFrom_step hcur, List.append_assoc]
  have hcols' : owedColumns t (takeFrame f data) =
      remainder dsfBlockSize (f.buffered ++ t.frameColumns f.currentFrame) ++
        t.columnsFrom (f.currentFrame + 1) := by
    rw [owedColumns, takeFrame, (skipAfterSeek_frame _).2.2.2.1, hleft,
      skipAfterSeek_currentFrame]
    rfl
  have hpad : paddedRemainder dsfBlockSize (zeroColumn t.channelCount)
        (owedColumns t (takeFrame f data)) =
      paddedRemainder dsfBlockSize (zeroColumn t.channelCount) (owedColumns t f) := by
    apply paddedRemainder_congr
    rw [hcols, hcols', ← remainder_append (by decide)]
  rw [owed, owed, hpad, pending_eq_nil hempty, List.nil_append]
  congr 1
  have hskip := skipAfterSeek_spec hspec.pos hspec.len
    (t.emit (fullBlocks dsfBlockSize (owedColumns t (takeFrame f data))))
  rw [hbuf, ← t.emit_append, hcols', ← fullBlocks_append (by decide), ← hcols, ← hcols'] at hskip
  exact hskip

end DsdNexus.Vfs
