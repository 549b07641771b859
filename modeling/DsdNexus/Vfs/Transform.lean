import DsdNexus.Lib.Blocks
import DsdNexus.Vfs.File

/-! # From SACD frames to DSF block groups

`_transform_dsd_frame` spreads the byte-interleaved frame over the channel
buffers and emits a block group whenever they hold 4096 bytes;
`_flush_block_buffers` emits what is left, zero padded. Read column by column
(one byte of every channel), both are the cut of the column stream into blocks.
-/

namespace DsdNexus.Vfs

open Blocks

/-! ## The code -/

/-- `[Ch0][Ch1]…`, the first `n` bytes of every channel buffer. -/
def blockGroup (channelCount : Nat) (buffers : Nat → Nat → UInt8) (n : Nat) : Bytes :=
  (List.range channelCount).flatMap fun ch => (List.range n).map (buffers ch)

/-- `_write_block_group`. -/
def writeBlockGroup (f : VfsFile) (bytesPerChannel : Nat) (padToBlock : Bool) : VfsFile :=
  let channelCount := f.info.channelCount
  let blockBytes := if padToBlock then dsfBlockSize else bytesPerChannel
  { f with
    transformBuffer := (List.range channelCount).flatMap fun ch =>
      (List.range bytesPerChannel).map (f.channelBuffers ch) ++
        if padToBlock ∧ bytesPerChannel < dsfBlockSize then
          List.replicate (dsfBlockSize - bytesPerChannel) 0
        else []
    transformBufferLen := blockBytes * channelCount
    transformBufferPos := 0 }

/-- `_flush_block_buffers`. -/
def flushBlockBuffers (f : VfsFile) : VfsFile :=
  if 0 < f.bytesBuffered then
    { writeBlockGroup f f.bytesBuffered true with bytesBuffered := 0 }
  else f

/-- What the loop of `_transform_dsd_frame` changes. -/
structure BlockState where
  channelBuffers : Nat → Nat → UInt8
  bytesBuffered : Nat
  output : Bytes

/-- One turn of the loop: sample byte `i` of every channel enters the buffers. -/
def pushSample (channelCount : Nat) (src : Bytes) (s : BlockState) (i : Nat) : BlockState :=
  let buffers := fun ch j =>
    if ch < channelCount ∧ j = s.bytesBuffered then
      ffReverse (src.getD (i * channelCount + ch) 0)
    else s.channelBuffers ch j
  if s.bytesBuffered + 1 = dsfBlockSize then
    ⟨buffers, 0, s.output ++ blockGroup channelCount buffers dsfBlockSize⟩
  else ⟨buffers, s.bytesBuffered + 1, s.output⟩

/-- `_transform_dsd_frame`. -/
def transformDsdFrame (f : VfsFile) (src : Bytes) : VfsFile :=
  let channelCount := f.info.channelCount
  let bytesPerChannel := src.length / channelCount
  let s := (List.range bytesPerChannel).foldl (pushSample channelCount src)
    ⟨f.channelBuffers, f.bytesBuffered, []⟩
  { f with
    channelBuffers := s.channelBuffers
    bytesBuffered := s.bytesBuffered
    transformBuffer := s.output
    transformBufferLen := s.output.length
    transformBufferPos := 0 }

/-! ## Columns -/

/-- One byte of every channel. -/
abbrev Column := List UInt8

/-- The columns of a byte-interleaved frame, bits reversed. -/
def columnsOf (channelCount : Nat) (src : Bytes) : List Column :=
  (List.range (src.length / channelCount)).map fun i =>
    (List.range channelCount).map fun ch => bitReverse (src.getD (i * channelCount + ch) 0)

/-- A block of columns written channel after channel. -/
def interleave (channelCount : Nat) (block : List Column) : Bytes :=
  (List.range channelCount).flatMap fun ch => block.map fun c => c.getD ch 0

/-- The columns the channel buffers hold. -/
def bufferedColumns (channelCount : Nat) (buffers : Nat → Nat → UInt8) (n : Nat) : List Column :=
  (List.range n).map fun i => (List.range channelCount).map fun ch => buffers ch i

def VfsFile.buffered (f : VfsFile) : List Column :=
  bufferedColumns f.info.channelCount f.channelBuffers f.bytesBuffered

def zeroColumn (channelCount : Nat) : Column := List.replicate channelCount 0

@[simp] theorem columnsOf_length (channelCount : Nat) (src : Bytes) :
    (columnsOf channelCount src).length = src.length / channelCount := by
  simp [columnsOf]

@[simp] theorem bufferedColumns_length (channelCount : Nat) (buffers : Nat → Nat → UInt8)
    (n : Nat) : (bufferedColumns channelCount buffers n).length = n := by
  simp [bufferedColumns]

@[simp] theorem VfsFile.buffered_length (f : VfsFile) : f.buffered.length = f.bytesBuffered := by
  simp [VfsFile.buffered]

theorem VfsFile.buffered_eq_nil {f : VfsFile} (h : f.bytesBuffered = 0) : f.buffered = [] :=
  List.eq_nil_of_length_eq_zero (by rw [f.buffered_length, h])

theorem interleave_length (channelCount : Nat) (block : List Column) :
    (interleave channelCount block).length = channelCount * block.length := by
  simp [interleave, List.length_flatMap]

theorem interleave_bufferedColumns (channelCount : Nat) (buffers : Nat → Nat → UInt8) (n : Nat) :
    interleave channelCount (bufferedColumns channelCount buffers n) =
      blockGroup channelCount buffers n := by
  unfold interleave blockGroup
  apply List.flatMap_congr
  intro ch hch
  have hlt : ch < channelCount := List.mem_range.mp hch
  simp [bufferedColumns, hlt]

/-! ## The transform loop -/

/-- The loop state stands for emitted blocks and a filling buffer of columns. -/
structure BlockState.Holds (channelCount : Nat) (s : BlockState)
    (c : List (List Column) × List Column) : Prop where
  output : s.output = c.1.flatMap (interleave channelCount)
  buffer : bufferedColumns channelCount s.channelBuffers s.bytesBuffered = c.2

theorem BlockState.Holds.length {channelCount : Nat} {s : BlockState}
    {c : List (List Column) × List Column} (h : s.Holds channelCount c) :
    c.2.length = s.bytesBuffered := by
  rw [← h.buffer, bufferedColumns_length]

theorem pushSample_holds {channelCount : Nat} {s : BlockState}
    {c : List (List Column) × List Column} (src : Bytes) (i : Nat)
    (h : s.Holds channelCount c) :
    (pushSample channelCount src s i).Holds channelCount
      (push dsfBlockSize c
        ((List.range channelCount).map fun ch =>
          bitReverse (src.getD (i * channelCount + ch) 0))) := by
  have hlen := h.length
  have hgrown : ∀ buffers : Nat → Nat → UInt8,
      (∀ ch j, buffers ch j =
        if ch < channelCount ∧ j = s.bytesBuffered then
          ffReverse (src.getD (i * channelCount + ch) 0)
        else s.channelBuffers ch j) →
      bufferedColumns channelCount buffers (s.bytesBuffered + 1) =
        c.2 ++ [(List.range channelCount).map fun ch =>
          bitReverse (src.getD (i * channelCount + ch) 0)] := by
    intro buffers hb
    rw [← h.buffer]
    simp only [bufferedColumns, List.range_succ, List.map_append, List.map_cons, List.map_nil]
    congr 1
    · apply List.map_congr_left
      intro j hj
      have hne : j ≠ s.bytesBuffered := Nat.ne_of_lt (List.mem_range.mp hj)
      simp [hb, hne]
    · congr 1
      apply List.map_congr_left
      intro ch hch
      simp [hb, List.mem_range.mp hch, ffReverse_eq_bitReverse]
  unfold pushSample push
  by_cases hfull : s.bytesBuffered + 1 = dsfBlockSize
  · rw [if_pos hfull, if_pos (by rw [hlen]; exact hfull)]
    refine ⟨?_, by simp [bufferedColumns]⟩
    simp only [List.flatMap_append, List.flatMap_cons, List.flatMap_nil, List.append_nil]
    rw [h.output, ← hgrown _ (fun _ _ => rfl), hfull, interleave_bufferedColumns]
  · rw [if_neg hfull, if_neg (by rw [hlen]; exact hfull)]
    exact ⟨h.output, hgrown _ (fun _ _ => rfl)⟩

theorem foldl_pushSample_holds {channelCount : Nat} (src : Bytes) (is : List Nat)
    {s : BlockState} {c : List (List Column) × List Column} (h : s.Holds channelCount c) :
    (is.foldl (pushSample channelCount src) s).Holds channelCount
      ((is.map fun i => (List.range channelCount).map fun ch =>
        bitReverse (src.getD (i * channelCount + ch) 0)).foldl (push dsfBlockSize) c) := by
  induction is generalizing s c with
  | nil => exact h
  | cons i is ih => exact ih (pushSample_holds src i h)

/-! ## What the two operations do to the column stream -/

/-- The frame's columns join the buffered ones; complete blocks are in the
transform buffer, the rest stays buffered. -/
structure TransformSpec (f g : VfsFile) (src : Bytes) : Prop where
  transformBuffer : g.transformBuffer =
    (fullBlocks dsfBlockSize (f.buffered ++ columnsOf f.info.channelCount src)).flatMap
      (interleave f.info.channelCount)
  buffered : g.buffered =
    remainder dsfBlockSize (f.buffered ++ columnsOf f.info.channelCount src)
  pos : g.transformBufferPos = 0
  len : g.transformBufferLen = g.transformBuffer.length

theorem transformDsdFrame_spec {f : VfsFile} (src : Bytes) (hb : f.bytesBuffered < dsfBlockSize) :
    TransformSpec f (transformDsdFrame f src) src := by
  have hstart : (BlockState.mk f.channelBuffers f.bytesBuffered []).Holds f.info.channelCount
      ([], f.buffered) := ⟨rfl, rfl⟩
  have hloop := foldl_pushSample_holds src (List.range (src.length / f.info.channelCount)) hstart
  rw [show ((List.range (src.length / f.info.channelCount)).map fun i =>
      (List.range f.info.channelCount).map fun ch =>
        bitReverse (src.getD (i * f.info.channelCount + ch) 0)) =
      columnsOf f.info.channelCount src from rfl,
    foldl_push (by decide) _ _ _ (by rw [f.buffered_length]; exact hb), List.nil_append] at hloop
  exact ⟨hloop.output, hloop.buffer, rfl, rfl⟩

theorem flatMap_append_replicate_zero (channelCount n : Nat) (buffers : Nat → Nat → UInt8) (m : Nat) :
    ((List.range channelCount).flatMap fun ch =>
        (List.range n).map (buffers ch) ++ List.replicate m 0) =
      interleave channelCount
        (bufferedColumns channelCount buffers n ++ List.replicate m (zeroColumn channelCount)) := by
  unfold interleave
  apply List.flatMap_congr
  intro ch hch
  have hlt : ch < channelCount := List.mem_range.mp hch
  simp [bufferedColumns, zeroColumn, hlt]

/-- A flush writes the one padded block and leaves nothing buffered. -/
theorem flushBlockBuffers_spec {f : VfsFile} (hpos : 0 < f.bytesBuffered)
    (hb : f.bytesBuffered < dsfBlockSize) :
    (flushBlockBuffers f).transformBuffer =
        (paddedRemainder dsfBlockSize (zeroColumn f.info.channelCount) f.buffered).flatMap
          (interleave f.info.channelCount) ∧
      (flushBlockBuffers f).bytesBuffered = 0 ∧
      (flushBlockBuffers f).transformBufferPos = 0 ∧
      (flushBlockBuffers f).transformBufferLen = (flushBlockBuffers f).transformBuffer.length := by
  have hshort : f.buffered.length < dsfBlockSize := by rw [f.buffered_length]; exact hb
  have hne : f.buffered ≠ [] := by
    intro h
    have := f.buffered_length
    rw [h, List.length_nil] at this
    omega
  have hbuf : (flushBlockBuffers f).transformBuffer =
      interleave f.info.channelCount (f.buffered ++
        List.replicate (dsfBlockSize - f.bytesBuffered) (zeroColumn f.info.channelCount)) := by
    rw [VfsFile.buffered, ← flatMap_append_replicate_zero]
    simp [flushBlockBuffers, writeBlockGroup, hpos, hb]
  refine ⟨?_, by simp [flushBlockBuffers, hpos], by simp [flushBlockBuffers, hpos, writeBlockGroup],
    ?_⟩
  · rw [hbuf, paddedRemainder, remainder_of_short hshort, if_neg hne, f.buffered_length]
    simp
  · rw [hbuf, interleave_length]
    simp only [flushBlockBuffers, hpos, if_true, writeBlockGroup, List.length_append,
      f.buffered_length, List.length_replicate]
    rw [Nat.mul_comm]
    congr 1
    omega

/-! ## Frame: what the two operations leave alone -/

@[simp] theorem transformDsdFrame_info (f : VfsFile) (src : Bytes) :
    (transformDsdFrame f src).info = f.info := rfl
@[simp] theorem transformDsdFrame_position (f : VfsFile) (src : Bytes) :
    (transformDsdFrame f src).position = f.position := rfl
@[simp] theorem transformDsdFrame_currentFrame (f : VfsFile) (src : Bytes) :
    (transformDsdFrame f src).currentFrame = f.currentFrame := rfl
@[simp] theorem transformDsdFrame_endFrame (f : VfsFile) (src : Bytes) :
    (transformDsdFrame f src).endFrame = f.endFrame := rfl
@[simp] theorem transformDsdFrame_seekSkipBytes (f : VfsFile) (src : Bytes) :
    (transformDsdFrame f src).seekSkipBytes = f.seekSkipBytes := rfl
@[simp] theorem transformDsdFrame_audioEarlyEof (f : VfsFile) (src : Bytes) :
    (transformDsdFrame f src).audioEarlyEof = f.audioEarlyEof := rfl

theorem flushBlockBuffers_frame (f : VfsFile) :
    (flushBlockBuffers f).info = f.info ∧ (flushBlockBuffers f).position = f.position ∧
      (flushBlockBuffers f).currentFrame = f.currentFrame ∧
      (flushBlockBuffers f).endFrame = f.endFrame ∧
      (flushBlockBuffers f).seekSkipBytes = f.seekSkipBytes ∧
      (flushBlockBuffers f).audioEarlyEof = f.audioEarlyEof := by
  unfold flushBlockBuffers writeBlockGroup
  split <;> exact ⟨rfl, rfl, rfl, rfl, rfl, rfl⟩

theorem VfsFile.OpenedOn.transform {t : Track} {f : VfsFile} (h : f.OpenedOn t) (src : Bytes) :
    (transformDsdFrame f src).OpenedOn t :=
  ⟨h.info, h.header, h.headerSize, h.start, h.stop, h.decoder⟩

theorem VfsFile.OpenedOn.flush {t : Track} {f : VfsFile} (h : f.OpenedOn t) :
    (flushBlockBuffers f).OpenedOn t := by
  unfold flushBlockBuffers writeBlockGroup
  split
  · exact ⟨h.info, h.header, h.headerSize, h.start, h.stop, h.decoder⟩
  · exact h

end DsdNexus.Vfs
