import DsdNexus.Dsf.Layout
import DsdNexus.Vfs.Transform

/-! # DSF: the audio of a file

Read column by column, one byte of every channel, what `dsf_write_audio_data` does with its
input is the cut into blocks of 4096 columns, each written channel after channel; the flush
pads the last one. `dsf_read_audio_data` plays the blocks column by column again.
-/

namespace DsdNexus.Dsf

open Program FileProgram Endian Blocks
open Vfs (Column columnsOf interleave bufferedColumns zeroColumn interleave_length
  bufferedColumns_length columnsOf_length)

/-! ## Blocks of columns -/

/-- The first `n` columns of a byte-interleaved input, bits reversed. -/
def sampleColumns (channelCount n : Nat) (input : Bytes) : List Column :=
  (List.range n).map fun i =>
    (List.range channelCount).map fun ch => bitReverse (input.getD (i * channelCount + ch) 0)

theorem columnsOf_eq (channelCount : Nat) (input : Bytes) :
    columnsOf channelCount input = sampleColumns channelCount (input.length / channelCount) input :=
  rfl

theorem sampleColumns_length (channelCount n : Nat) (input : Bytes) :
    (sampleColumns channelCount n input).length = n := by simp [sampleColumns]

/-- The column of the input the loop stores next. -/
def firstColumn (channelCount : Nat) (input : Bytes) : Column :=
  (List.range channelCount).map fun ch => bitReverse (input.getD ch 0)

theorem sampleColumns_succ (channelCount n : Nat) (input : Bytes) :
    sampleColumns channelCount (n + 1) input =
      firstColumn channelCount input :: sampleColumns channelCount n (input.drop channelCount) := by
  have hplace : ∀ i ch, (i + 1) * channelCount + ch = channelCount + (i * channelCount + ch) := by
    intro i ch
    rw [Nat.add_mul, Nat.one_mul]
    omega
  rw [sampleColumns, List.range_succ_eq_map, List.map_cons, List.map_map]
  congr 1
  · simp [firstColumn]
  · apply List.map_congr_left
    intro i _
    apply List.map_congr_left
    intro ch _
    rw [hplace, List.getD_eq_getElem?_getD, List.getD_eq_getElem?_getD, List.getElem?_drop]

/-- Blocks written channel after channel. -/
def emitted (channelCount : Nat) (blocks : List (List Column)) : Bytes :=
  blocks.flatMap (interleave channelCount)

theorem emitted_append (channelCount : Nat) (a b : List (List Column)) :
    emitted channelCount (a ++ b) = emitted channelCount a ++ emitted channelCount b :=
  List.flatMap_append

theorem emitted_length {channelCount : Nat} {blocks : List (List Column)}
    (h : ∀ b ∈ blocks, b.length = blockSizePerChannel) :
    (emitted channelCount blocks).length =
      blocks.length * (blockSizePerChannel * channelCount) := by
  induction blocks with
  | nil => simp [emitted]
  | cons b blocks ih =>
    have hrest := ih fun x hx => h x (.tail _ hx)
    rw [emitted] at hrest
    rw [emitted, List.flatMap_cons, List.length_append, hrest, interleave_length, h b (.head _),
      List.length_cons, Nat.add_mul, Nat.one_mul, Nat.mul_comm channelCount, Nat.add_comm]

/-- The bytes of the complete blocks. -/
def fullBytes (channelCount : Nat) (columns : List Column) : Bytes :=
  emitted channelCount (fullBlocks blockSizePerChannel columns)

/-- The bytes of all blocks, the last one padded. -/
def audioBytes (channelCount : Nat) (columns : List Column) : Bytes :=
  emitted channelCount (paddedBlocks blockSizePerChannel (zeroColumn channelCount) columns)

theorem fullBytes_length (channelCount : Nat) (columns : List Column) :
    (fullBytes channelCount columns).length =
      columns.length / blockSizePerChannel * (blockSizePerChannel * channelCount) := by
  rw [fullBytes, emitted_length fun b hb => length_of_mem_fullBlocks hb,
    fullBlocks_length (by decide)]

theorem audioBytes_length (channelCount : Nat) (columns : List Column) :
    (audioBytes channelCount columns).length =
      (columns.length + blockSizePerChannel - 1) / blockSizePerChannel *
        (blockSizePerChannel * channelCount) := by
  rw [audioBytes, emitted_length fun b hb => length_of_mem_paddedBlocks (by decide) hb,
    paddedBlocks_length (by decide)]

/-- What a channel has buffered and the zeroes behind it are a block of columns. -/
theorem channelBlocks_flatten (h : Handle) {n blockBytes : Nat} (hle : n ≤ blockBytes)
    (channelCount : Nat) :
    ((List.range channelCount).map (channelBlock h n blockBytes)).flatten =
      interleave channelCount (bufferedColumns channelCount h.channelBuffers n ++
        List.replicate (blockBytes - n) (zeroColumn channelCount)) := by
  obtain ⟨m, rfl⟩ := Nat.exists_eq_add_of_le hle
  rw [← List.flatMap_def, interleave]
  apply List.flatMap_congr
  intro ch hch
  have hlt : ch < channelCount := List.mem_range.1 hch
  rw [channelBlock, List.range_add, List.map_append, List.map_append, List.map_map,
    Nat.add_sub_cancel_left]
  congr 1
  · simp only [bufferedColumns, List.map_map]
    apply List.map_congr_left
    intro i hi
    simp [List.mem_range.1 hi, hlt]
  · have hzero : (zeroColumn channelCount).getD ch 0 = 0 := by simp [zeroColumn, hlt]
    rw [List.map_replicate, hzero, List.eq_replicate_iff]
    exact ⟨by simp, by simp⟩

/-! ## Writing -/

/-- A handle in write mode that has been given these columns. -/
structure Holds (info : FileInfo) (columns : List Column) (s : OpenHandle) : Prop where
  mode : s.handle.mode = .write
  channelCount : s.handle.info.channelCount = info.channelCount
  bitsPerSample : s.handle.info.bitsPerSample = info.bitsPerSample
  io : s.io = ⟨layout info ⟨0, 0, 0, dataChunkHeaderSize⟩
      (fullBytes info.channelCount.toNat columns),
    headSize + (fullBytes info.channelCount.toNat columns).length⟩
  room : headSize + (fullBytes info.channelCount.toNat columns).length ≤ ByteFile.offMax
  buffered : bufferedColumns info.channelCount.toNat s.handle.channelBuffers
    s.handle.bytesBuffered = remainder blockSizePerChannel columns

/-- How many samples of a channel a byte is counted as. -/
def samplesPerByte (info : FileInfo) : Nat := if info.bitsPerSample = 1 then 8 else 1

/-- What the loop leaves alone. -/
structure Kept (s s' : OpenHandle) : Prop where
  info : s'.handle.info = s.handle.info
  samplesWritten : s'.handle.samplesWritten = s.handle.samplesWritten
  metadata : s'.handle.metadata = s.handle.metadata

section Write

variable {info : FileInfo} {columns : List Column} {s : OpenHandle}

theorem Holds.bytesBuffered (h : Holds info columns s) :
    s.handle.bytesBuffered = columns.length % blockSizePerChannel := by
  have hlength := congrArg List.length h.buffered
  rwa [bufferedColumns_length, remainder_length] at hlength

/-- A column enters the buffers. -/
theorem bufferedColumns_storeSamples (h : Handle) (input : Bytes) :
    bufferedColumns h.info.channelCount.toNat (h.storeSamples input).channelBuffers
        (h.bytesBuffered + 1) =
      bufferedColumns h.info.channelCount.toNat h.channelBuffers h.bytesBuffered ++
        [firstColumn h.info.channelCount.toNat input] := by
  simp only [bufferedColumns, List.range_succ, List.map_append, List.map_cons, List.map_nil]
  congr 1
  · apply List.map_congr_left
    intro i hi
    have hne : i ≠ h.bytesBuffered := Nat.ne_of_lt (List.mem_range.1 hi)
    simp [Handle.storeSamples, hne]
  · rw [firstColumn]
    congr 1
    apply List.map_congr_left
    intro ch hch
    simp [Handle.storeSamples, List.mem_range.1 hch, ffReverse_eq_bitReverse]

/-- One column more either stays in the buffer or completes a block. -/
theorem cut_snoc (columns : List Column) (column : Column) :
    (fullBlocks blockSizePerChannel (columns ++ [column]),
      remainder blockSizePerChannel (columns ++ [column])) =
    push blockSizePerChannel
      (fullBlocks blockSizePerChannel columns, remainder blockSizePerChannel columns) column := by
  have h := foldl_push (n := blockSizePerChannel) (by decide)
    (fullBlocks blockSizePerChannel columns) (remainder blockSizePerChannel columns) [column]
    (remainder_length_lt (by decide) columns)
  rw [← fullBlocks_append (by decide), ← remainder_append (by decide)] at h
  exact h.symm

/-- The block group `dsf_write_block_group` assembles. -/
def blockGroup (h : Handle) (n blockBytes : Nat) : Bytes :=
  interleave h.info.channelCount.toNat
    (bufferedColumns h.info.channelCount.toNat h.channelBuffers n ++
      List.replicate (blockBytes - n) (zeroColumn h.info.channelCount.toNat))

/-- A block group goes to the end of the file, or there is no room for it. -/
theorem writeBlockGroup_outcome {pre : Bytes} (hio : s.io = ⟨pre, pre.length⟩) (n : Nat)
    (padToBlock : Bool) {blockBytes : Nat}
    (hblock : (if padToBlock = true then blockSizePerChannel else n) = blockBytes)
    (hle : n ≤ blockBytes) :
    ((∃ bytesWritten, writeBlockGroup n padToBlock s =
          (.ok (), ⟨{ s.handle with bytesWritten := bytesWritten },
            ⟨pre ++ blockGroup s.handle n blockBytes,
              (pre ++ blockGroup s.handle n blockBytes).length⟩⟩)) ∧
        (pre ++ blockGroup s.handle n blockBytes).length ≤ ByteFile.offMax) ∨
      ByteFile.offMax < (pre ++ blockGroup s.handle n blockBytes).length ∧
        ∃ e s', writeBlockGroup n padToBlock s = (.error e, s') := by
  have hbytes : ((List.range s.handle.info.channelCount.toNat).map
      (channelBlock s.handle n blockBytes)).flatten = blockGroup s.handle n blockBytes :=
    channelBlocks_flatten s.handle hle _
  by_cases hroom : pre.length + (blockGroup s.handle n blockBytes).length ≤ ByteFile.offMax
  · have hwrite : ioWriteBytes (blockGroup s.handle n blockBytes) s.io =
        (.ok (), ⟨pre ++ blockGroup s.handle n blockBytes,
          (pre ++ blockGroup s.handle n blockBytes).length⟩) := by
      rw [hio]
      exact (writes_emit Error.write _).at_end _ hroom
    left
    rw [List.length_append] at hwrite ⊢
    refine ⟨?_, hroom⟩
    simp only [writeBlockGroup, bind_apply, get_apply, liftIo, zoom_apply, update, modify_apply,
      hblock, hbytes, hwrite]
    exact ⟨_, rfl⟩
  · have hwrite : ioWriteBytes (blockGroup s.handle n blockBytes) s.io = (.error .write, s.io) := by
      rw [hio]
      exact if_neg hroom
    right
    rw [List.length_append]
    refine ⟨by omega, ?_⟩
    simp only [writeBlockGroup, bind_apply, get_apply, liftIo, zoom_apply, hblock, hbytes, hwrite]
    exact ⟨_, _, rfl⟩

/-- Where the column goes: behind those in the buffer, or with them into a block. -/
theorem cut_of_held (h : Holds info columns s) (column : Column) :
    (fullBlocks blockSizePerChannel (columns ++ [column]),
        remainder blockSizePerChannel (columns ++ [column])) =
      if s.handle.bytesBuffered + 1 = blockSizePerChannel then
        (fullBlocks blockSizePerChannel columns ++
          [remainder blockSizePerChannel columns ++ [column]], [])
      else (fullBlocks blockSizePerChannel columns,
        remainder blockSizePerChannel columns ++ [column]) := by
  rw [cut_snoc, push, remainder_length, ← h.bytesBuffered]

/-- A turn of the loop takes in a column, or there is no room for the block it completes. -/
theorem writeAudioTurn_outcome (h : Holds info columns s) (n : Nat) (input : Bytes) :
    (∃ written s', writeAudioLoop (n + 1) input s =
          (writeAudioLoop n (input.drop info.channelCount.toNat) >>= fun more =>
            pure (written + more)) s' ∧ Kept s s' ∧
        Holds info (columns ++ [firstColumn info.channelCount.toNat input]) s') ∨
      ByteFile.offMax < headSize + (fullBytes info.channelCount.toNat
          (columns ++ [firstColumn info.channelCount.toNat input])).length ∧
        ∃ e s', writeAudioLoop (n + 1) input s = (.error e, s') := by
  let c := info.channelCount.toNat
  let stored : OpenHandle := { s with handle := s.handle.storeSamples input }
  have hc : s.handle.info.channelCount.toNat = c := by rw [h.channelCount]
  have hfew : s.handle.bytesBuffered < blockSizePerChannel := by
    rw [h.bytesBuffered]
    exact Nat.mod_lt _ (by decide)
  have hstored := bufferedColumns_storeSamples s.handle input
  rw [hc, h.buffered] at hstored
  have hcut := cut_of_held h (firstColumn c input)
  by_cases hfull : s.handle.bytesBuffered + 1 = blockSizePerChannel
  · rw [if_pos hfull, Prod.mk.injEq] at hcut
    have hgroup : blockGroup stored.handle blockSizePerChannel blockSizePerChannel =
        interleave c (remainder blockSizePerChannel columns ++ [firstColumn c input]) := by
      rw [hfull] at hstored
      have hcount : stored.handle.info.channelCount.toNat = c := hc
      rw [blockGroup, hcount, Nat.sub_self, List.replicate_zero, List.append_nil]
      exact congrArg (interleave c) hstored
    have hbytes : fullBytes c (columns ++ [firstColumn c input]) =
        fullBytes c columns ++ blockGroup stored.handle blockSizePerChannel blockSizePerChannel := by
      rw [fullBytes, hcut.1, emitted_append, hgroup, fullBytes]
      simp [emitted]
    have hturn : writeAudioLoop (n + 1) input s =
        (writeBlockGroup blockSizePerChannel false >>= fun _ => do
          update fun h => { h with bytesBuffered := 0 }
          let written ← writeAudioLoop n (input.drop c)
          pure (blockSizePerChannel * c + written)) stored := by
      rw [writeAudioLoop, bind_of_ok (get_apply s), require_bind hfew, hc]
      exact congrFun (if_pos hfull) stored
    have hio : stored.io =
        ⟨layout info ⟨0, 0, 0, dataChunkHeaderSize⟩ (fullBytes c columns),
          (layout info ⟨0, 0, 0, dataChunkHeaderSize⟩ (fullBytes c columns)).length⟩ := by
      rw [layout_length]
      exact h.io
    have hblock : (if false = true then blockSizePerChannel else blockSizePerChannel) =
        blockSizePerChannel := rfl
    rw [hturn]
    rcases writeBlockGroup_outcome hio blockSizePerChannel false hblock (Nat.le_refl _) with
      ⟨⟨bytesWritten, hwrite⟩, hroom⟩ | ⟨hroom, e, t, hwrite⟩
    · rw [layout_append, ← hbytes, layout_length] at hwrite hroom
      refine .inl ⟨blockSizePerChannel * c,
        ⟨{ stored.handle with bytesWritten := bytesWritten, bytesBuffered := 0 }, _⟩,
        bind_of_ok hwrite, ⟨rfl, rfl, rfl⟩, h.mode, h.channelCount, h.bitsPerSample, rfl, hroom, ?_⟩
      rw [hcut.2]
      rfl
    · rw [layout_append, ← hbytes, layout_length] at hroom
      exact .inr ⟨hroom, e, t, bind_of_error hwrite⟩
  · rw [if_neg hfull, Prod.mk.injEq] at hcut
    have hturn : writeAudioLoop (n + 1) input s = writeAudioLoop n (input.drop c) stored := by
      rw [writeAudioLoop, bind_of_ok (get_apply s), require_bind hfew, hc]
      exact congrFun (if_neg hfull) stored
    have hbytes : fullBytes c (columns ++ [firstColumn c input]) = fullBytes c columns := by
      rw [fullBytes, hcut.1, fullBytes]
    refine .inl ⟨0, stored, ?_, ⟨rfl, rfl, rfl⟩, h.mode, h.channelCount, h.bitsPerSample, ?_, ?_, ?_⟩
    · rw [hturn, bind_apply]
      cases writeAudioLoop n (input.drop c) stored with
      | mk r t =>
        cases r with
        | ok more => simp only [Nat.zero_add, pure_apply]
        | error e => rfl
    · rw [hbytes]
      exact h.io
    · rw [hbytes]
      exact h.room
    · rw [hcut.2]
      exact hstored

/-- The loop takes in one column after the other, or there is no room for the blocks. -/
theorem writeAudioLoop_outcome (h : Holds info columns s) (n : Nat) (input : Bytes)
    {total : Nat} (htotal : headSize + (columns.length + n) / blockSizePerChannel *
      (blockSizePerChannel * info.channelCount.toNat) ≤ total) :
    (∃ written s', writeAudioLoop n input s = (.ok written, s') ∧ Kept s s' ∧
        Holds info (columns ++ sampleColumns info.channelCount.toNat n input) s') ∨
      ByteFile.offMax < total ∧ ∃ e s', writeAudioLoop n input s = (.error e, s') := by
  induction n generalizing columns s input with
  | zero =>
    refine .inl ⟨0, s, rfl, ⟨rfl, rfl, rfl⟩, ?_⟩
    rwa [sampleColumns, List.range_zero, List.map_nil, List.append_nil]
  | succ n ih =>
    have hsplit : columns ++ sampleColumns info.channelCount.toNat (n + 1) input =
        columns ++ [firstColumn info.channelCount.toNat input] ++
          sampleColumns info.channelCount.toNat n (input.drop info.channelCount.toNat) := by
      rw [sampleColumns_succ, List.append_assoc, List.singleton_append]
    have hnext : headSize +
        ((columns ++ [firstColumn info.channelCount.toNat input]).length + n) /
          blockSizePerChannel * (blockSizePerChannel * info.channelCount.toNat) ≤ total := by
      rw [List.length_append, List.length_singleton, Nat.add_assoc, Nat.add_comm 1]
      exact htotal
    rw [hsplit]
    rcases writeAudioTurn_outcome h n input with
      ⟨written, t, hturn, hkept, hholds⟩ | ⟨hroom, hfail⟩
    · rw [hturn]
      rcases ih hholds _ hnext with ⟨more, s', hrun, hmore, hend⟩ | ⟨hlt, e, s', hrun⟩
      · exact .inl ⟨written + more, s', bind_of_ok hrun,
          ⟨hmore.info.trans hkept.info, hmore.samplesWritten.trans hkept.samplesWritten,
            hmore.metadata.trans hkept.metadata⟩, hend⟩
      · exact .inr ⟨hlt, e, s', bind_of_error hrun⟩
    · refine .inr ⟨lt_of_lt_of_le hroom ?_, hfail⟩
      rw [fullBytes_length]
      refine le_trans (Nat.add_le_add_left ?_ _) hnext
      exact Nat.mul_le_mul_right _ (Nat.div_le_div_right (Nat.le_add_right _ _))

/-- `dsf_write_audio_data` takes in the columns of its input. -/
theorem writeAudioData_outcome (h : Holds info columns s) {input : Bytes}
    (hwhole : input.length % info.channelCount.toNat = 0) {total : Nat}
    (htotal : headSize + (columns.length + input.length / info.channelCount.toNat) /
      blockSizePerChannel * (blockSizePerChannel * info.channelCount.toNat) ≤ total) :
    (∃ written s', writeAudioData input s = (.ok written, s') ∧
        Holds info (columns ++ columnsOf info.channelCount.toNat input) s' ∧
        s'.handle.metadata = s.handle.metadata ∧
        s'.handle.info.sampleCount = s'.handle.samplesWritten ∧
        s'.handle.samplesWritten = (s.handle.samplesWritten +
          input.length / info.channelCount.toNat * samplesPerByte info) % 2 ^ 64) ∨
      ByteFile.offMax < total ∧ ∃ e s', writeAudioData input s = (.error e, s') := by
  have hc : s.handle.info.channelCount.toNat = info.channelCount.toNat := by rw [h.channelCount]
  rw [columnsOf_eq]
  rcases writeAudioLoop_outcome h (input.length / info.channelCount.toNat) input htotal with
    ⟨written, t, hrun, hkept, hholds⟩ | ⟨hlt, e, t, hrun⟩
  · left
    rw [writeAudioData, bind_of_ok (get_apply s), require_bind h.mode, hc, require_bind hwhole,
      bind_of_ok hrun]
    refine ⟨written, _, rfl, ⟨hholds.mode, hholds.channelCount, hholds.bitsPerSample, hholds.io,
      hholds.room, hholds.buffered⟩, hkept.metadata, rfl, ?_⟩
    have hsamples : (if t.handle.info.bitsPerSample = 1 then
        input.length / info.channelCount.toNat * 8 else input.length / info.channelCount.toNat) =
        input.length / info.channelCount.toNat * samplesPerByte info := by
      rw [hholds.bitsPerSample, samplesPerByte]
      split
      · rfl
      · exact (Nat.mul_one _).symm
    simp only [hsamples, hkept.samplesWritten]
  · right
    refine ⟨hlt, e, t, ?_⟩
    rw [writeAudioData, bind_of_ok (get_apply s), require_bind h.mode, hc, require_bind hwhole,
      bind_of_error hrun]

end Write

end DsdNexus.Dsf
