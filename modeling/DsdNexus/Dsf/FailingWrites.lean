import DsdNexus.Dsf.Stream
import DsdNexus.Dsf.Written

/-! # DSF: writes that fail

A writer whose file takes in only a part of some of its block groups. The flush keeps what it
could not write and tries again; `dsf_write_audio_data` returns before it resets the buffer,
which is then full.
-/

namespace DsdNexus.Dsf

open Program FileProgram Blocks
open Vfs (Column columnsOf interleave bufferedColumns zeroColumn interleave_length
  bufferedColumns_length columnsOf_length)

/-! ## The writer -/

/-- An open handle, and how many bytes the file takes in of each `fwrite` to come; all of
them where nothing is said. -/
structure Writer where
  file : OpenHandle
  accepts : List Nat

abbrev OnWriter := Program Error Writer

/-- `dsf_io_write_bytes` on a file that may take in less. -/
def ioWriteAccepted (bytes : Bytes) : OnWriter Unit := fun w =>
  let accepted := w.accepts.headD bytes.length
  (if bytes.length ≤ accepted then .ok () else .error .write,
    { file := { w.file with io := w.file.io.write (bytes.take accepted) }
      accepts := w.accepts.tail })

def updateWriter (f : Handle → Handle) : OnWriter Unit :=
  modify fun w => { w with file := { w.file with handle := f w.file.handle } }

/-- `dsf_write_block_group`. The copies stay in the channel buffers and in the scratch
buffer. -/
def writeBlockGroupOn (bytesToWrite : Nat) (padToBlock : Bool) : OnWriter Unit := do
  let w ← get
  let channelCount := w.file.handle.info.channelCount
  require (bytesToWrite ≤ blockSizePerChannel ∧ channelCount ≤ maxChannels) .undefined
  let blockBytes := if padToBlock then blockSizePerChannel else bytesToWrite
  let blocks := (List.range channelCount.toNat).map
    (channelBlock w.file.handle bytesToWrite blockBytes)
  ioWriteAccepted blocks.flatten
  updateWriter fun h => { h with
    bytesWritten := (h.bytesWritten + blockBytes * h.info.channelCount.toNat) % 2 ^ 64 }

/-- The loop of `dsf_write_audio_data`. -/
def writeAudioLoopOn : Nat → Bytes → OnWriter Nat
  | 0, _ => pure 0
  | n + 1, input => do
    let w ← get
    let channelCount := w.file.handle.info.channelCount.toNat
    require (w.file.handle.bytesBuffered < blockSizePerChannel) .undefined
    updateWriter fun h => h.storeSamples input
    let w ← get
    if w.file.handle.bytesBuffered = blockSizePerChannel then
      writeBlockGroupOn blockSizePerChannel false
      updateWriter fun h => { h with bytesBuffered := 0 }
      let written ← writeAudioLoopOn n (input.drop channelCount)
      pure (blockSizePerChannel * channelCount + written)
    else
      writeAudioLoopOn n (input.drop channelCount)

/-- `dsf_write_audio_data`. -/
def writeAudioDataOn (buffer : Bytes) : OnWriter Nat := do
  let w ← get
  require (w.file.handle.mode = .write) .invalidMode
  let channelCount := w.file.handle.info.channelCount.toNat
  require (buffer.length % channelCount = 0) .invalidArg
  let bytesPerChannel := buffer.length / channelCount
  let written ← writeAudioLoopOn bytesPerChannel buffer
  updateWriter fun h =>
    let samples := if h.info.bitsPerSample = 1 then bytesPerChannel * 8 else bytesPerChannel
    let samplesWritten := (h.samplesWritten + samples) % 2 ^ 64
    { h with
      samplesWritten := samplesWritten
      info := { h.info with
        sampleCount := samplesWritten
        audioDataSize := h.bytesWritten
        bitRate := calculateBitRate h.info.channelCount h.info.samplingFrequency
          h.info.bitsPerSample } }
  pure written

/-- `dsf_flush_audio_data`. -/
def flushAudioDataOn : OnWriter Unit := do
  let w ← get
  require (w.file.handle.mode = .write) .invalidMode
  when (0 < w.file.handle.bytesBuffered) (do
    writeBlockGroupOn w.file.handle.bytesBuffered true
    updateWriter fun h => { h with
      info := { h.info with audioDataSize := h.bytesWritten }, bytesBuffered := 0 })

section Unlimited

variable {s s' : OpenHandle}

theorem ioWriteBytes_eq_ok {bytes : Bytes} {f g : ByteFile} {u : Unit}
    (h : ioWriteBytes bytes f = (.ok u, g)) : g = f.write bytes := by
  unfold ioWriteBytes emit at h
  split at h
  · cases h
    rfl
  · cases h

/-- Where the file takes in everything, this is writing to an open handle. -/
theorem writeBlockGroupOn_unlimited {n : Nat} {padToBlock : Bool} (hn : n ≤ blockSizePerChannel)
    (hchannels : s.handle.info.channelCount ≤ maxChannels)
    (h : writeBlockGroup n padToBlock s = (.ok (), s')) :
    writeBlockGroupOn n padToBlock ⟨s, []⟩ = (.ok (), ⟨s', []⟩) ∧
      s'.handle.info = s.handle.info := by
  obtain ⟨_, _, hget, h⟩ := bind_eq_ok h
  cases hget
  obtain ⟨_, t, hlift, h⟩ := bind_eq_ok h
  obtain ⟨f, hwrite, rfl⟩ := zoom_eq_ok_iff.1 hlift
  cases h
  refine ⟨?_, rfl⟩
  rw [ioWriteBytes_eq_ok hwrite]
  simp only [writeBlockGroupOn, bind_apply, get_apply, require_of (And.intro hn hchannels),
    pure_apply, ioWriteAccepted, List.headD_nil, Nat.le_refl, if_true, updateWriter, modify_apply,
    List.take_length, List.tail_nil]

theorem writeAudioLoopOn_unlimited {n written : Nat} {input : Bytes}
    (hchannels : s.handle.info.channelCount ≤ maxChannels)
    (h : writeAudioLoop n input s = (.ok written, s')) :
    writeAudioLoopOn n input ⟨s, []⟩ = (.ok written, ⟨s', []⟩) := by
  induction n generalizing s input written with
  | zero =>
    cases h
    rfl
  | succ n ih =>
    obtain ⟨_, _, hget, h⟩ := bind_eq_ok h
    cases hget
    obtain ⟨_, _, hcheck, h⟩ := bind_eq_ok h
    obtain ⟨hfew, rfl⟩ := require_eq_ok_iff.1 hcheck
    obtain ⟨_, t, hstore, h⟩ := bind_eq_ok h
    cases hstore
    obtain ⟨_, _, hget, h⟩ := bind_eq_ok h
    cases hget
    rw [writeAudioLoopOn, bind_of_ok (get_apply _), require_bind hfew]
    split at h
    · next hfull =>
      obtain ⟨_, t, hgroup, h⟩ := bind_eq_ok h
      obtain ⟨_, _, hempty, h⟩ := bind_eq_ok h
      cases hempty
      obtain ⟨more, _, hrest, h⟩ := bind_eq_ok h
      cases h
      obtain ⟨hgroup, hinfo⟩ := writeBlockGroupOn_unlimited (n := blockSizePerChannel)
        (s := { s with handle := s.handle.storeSamples input }) (Nat.le_refl _) hchannels hgroup
      have hrest := ih (by rw [hinfo]; exact hchannels) hrest
      refine Eq.trans (congrFun (if_pos hfull) _) ?_
      exact (bind_of_ok hgroup).trans ((bind_of_ok rfl).trans (bind_of_ok hrest))
    · next hfull => exact Eq.trans (congrFun (if_neg hfull) _) (ih hchannels h)

theorem writeAudioDataOn_unlimited {buffer : Bytes} {n : Nat}
    (hchannels : s.handle.info.channelCount ≤ maxChannels)
    (h : writeAudioData buffer s = (.ok n, s')) :
    writeAudioDataOn buffer ⟨s, []⟩ = (.ok n, ⟨s', []⟩) := by
  obtain ⟨_, _, hget, h⟩ := bind_eq_ok h
  cases hget
  obtain ⟨_, _, hcheck, h⟩ := bind_eq_ok h
  obtain ⟨hmode, rfl⟩ := require_eq_ok_iff.1 hcheck
  obtain ⟨_, _, hcheck, h⟩ := bind_eq_ok h
  obtain ⟨hwhole, rfl⟩ := require_eq_ok_iff.1 hcheck
  obtain ⟨written, t, hloop, h⟩ := bind_eq_ok h
  cases h
  rw [writeAudioDataOn, bind_of_ok (get_apply _), require_bind hmode, require_bind hwhole,
    bind_of_ok (writeAudioLoopOn_unlimited hchannels hloop)]
  rfl

theorem flushAudioDataOn_unlimited (hchannels : s.handle.info.channelCount ≤ maxChannels)
    (hfew : s.handle.bytesBuffered ≤ blockSizePerChannel)
    (h : flushAudioData s = (.ok (), s')) : flushAudioDataOn ⟨s, []⟩ = (.ok (), ⟨s', []⟩) := by
  obtain ⟨_, _, hget, h⟩ := bind_eq_ok h
  cases hget
  obtain ⟨_, _, hcheck, h⟩ := bind_eq_ok h
  obtain ⟨hmode, rfl⟩ := require_eq_ok_iff.1 hcheck
  rw [flushAudioDataOn, bind_of_ok (get_apply _), require_bind hmode]
  by_cases hsome : 0 < s.handle.bytesBuffered
  · rw [when_of hsome] at h ⊢
    obtain ⟨_, t, hgroup, h⟩ := bind_eq_ok h
    cases h
    rw [bind_of_ok (writeBlockGroupOn_unlimited hfew hchannels hgroup).1]
    rfl
  · rw [when_of_not hsome] at h ⊢
    cases h
    rfl

end Unlimited

/-! ## What a run does -/

inductive WriterCall where
  | write (buffer : Bytes)
  | flush

/-- A call: whether it worked, or how it failed, and the writer behind it. -/
def WriterCall.run : WriterCall → Writer → Except Error Unit × Writer
  | .write buffer, w =>
    ((writeAudioDataOn buffer w).1.map fun _ => (), (writeAudioDataOn buffer w).2)
  | .flush, w => flushAudioDataOn w

/-- A block group that was tried: written whole, or only so many bytes of it, which are in
the file beside what comes later. A torn group may be tried again or be lost. -/
inductive Attempt where
  | written (columns : List Column)
  | torn (columns : List Column) (accepted : Nat) (lost : Bool)

/-- The bytes of a block group, padded where it is short. -/
def groupBytes (channelCount : Nat) (columns : List Column) : Bytes :=
  interleave channelCount (columns ++
    List.replicate (blockSizePerChannel - columns.length) (zeroColumn channelCount))

def Attempt.bytes (channelCount : Nat) : Attempt → Bytes
  | .written columns => groupBytes channelCount columns
  | .torn columns accepted _ => (groupBytes channelCount columns).take accepted

/-- The columns that have left the buffer with it. -/
def Attempt.columns : Attempt → List Column
  | .written columns => columns
  | .torn columns _ lost => if lost then columns else []

/-- A torn group that was not lost is what comes next. -/
def Retried : List Attempt → List Column → Prop
  | [], _ => True
  | .torn columns _ false :: attempts, buffered =>
    columns <+: attempts.flatMap Attempt.columns ++ buffered ∧ Retried attempts buffered
  | _ :: attempts, buffered => Retried attempts buffered

/-- The columns in the buffer. -/
def bufferOf (info : FileInfo) (w : Writer) : List Column :=
  bufferedColumns info.channelCount.toNat w.file.handle.channelBuffers w.file.handle.bytesBuffered

/-- The file has the groups that were tried and nothing else. -/
def Intact (info : FileInfo) (attempts : List Attempt) (w : Writer) : Prop :=
  w.file.io.content = layout info ⟨0, 0, 0, dataChunkHeaderSize⟩
      (attempts.flatMap (Attempt.bytes info.channelCount.toNat)) ∧
    Retried attempts (bufferOf info w)

/-- What a call may have tried: groups that were written, and where the file failed it, one
more that was torn. -/
def Attempted (result : Except Error Unit) (attempts : List Attempt) : Prop :=
  ∃ groups : List (List Column), attempts = groups.map .written ∨
    result = .error .write ∧
      ∃ columns accepted lost, attempts = groups.map .written ++ [.torn columns accepted lost]

/-- What a call may have taken in: all its columns where it worked, and the first of them
where it failed. -/
def WriterCall.Takes (channelCount : Nat) : WriterCall → Except Error Unit → List Column → Prop
  | .write buffer, .ok (), columns => columns = columnsOf channelCount buffer
  | .write buffer, .error _, columns => columns <+: columnsOf channelCount buffer
  | .flush, _, columns => columns = []

/-- No store is out of range, the buffer is never full between calls, and each column taken
in is in one group or in the buffer, in order: nothing is lost or duplicated but what belongs
to a group that failed. -/
def NeverOverruns (info : FileInfo) : List WriterCall → List Attempt → Writer → Prop
  | [], _, _ => True
  | call :: calls, attempts, w =>
    (call.run w).1 ≠ .error .undefined ∧
      (call.run w).2.file.handle.bytesBuffered < blockSizePerChannel ∧
      ∃ more columns, Attempted (call.run w).1 more ∧
        call.Takes info.channelCount.toNat (call.run w).1 columns ∧
        more.flatMap Attempt.columns ++ bufferOf info (call.run w).2 =
          bufferOf info w ++ columns ∧
        Intact info (attempts ++ more) (call.run w).2 ∧
        NeverOverruns info calls (attempts ++ more) (call.run w).2

/-- The file takes in whole every block group that `dsf_write_audio_data` writes; what it
does with a flush may be anything. -/
def BlocksFit (channelCount : Nat) : List WriterCall → Nat → List Nat → Prop
  | [], _, _ => True
  | .write buffer :: calls, buffered, accepts =>
    if buffer.length % channelCount = 0 then
      (∀ accepted ∈ accepts.take ((buffered + buffer.length / channelCount) /
          blockSizePerChannel), groupSize channelCount ≤ accepted) ∧
        BlocksFit channelCount calls
          ((buffered + buffer.length / channelCount) % blockSizePerChannel)
          (accepts.drop ((buffered + buffer.length / channelCount) / blockSizePerChannel))
    else BlocksFit channelCount calls buffered accepts
  | .flush :: calls, buffered, accepts =>
    if buffered = 0 then BlocksFit channelCount calls buffered accepts
    else if groupSize channelCount ≤ accepts.headD (groupSize channelCount) then
      BlocksFit channelCount calls 0 accepts.tail
    else BlocksFit channelCount calls buffered accepts.tail

/-! ## The buffer and the file -/

section Retried

variable {attempts : List Attempt} {buffered : List Column}

theorem Retried.more (h : Retried attempts buffered) (columns : List Column) :
    Retried attempts (buffered ++ columns) := by
  induction attempts with
  | nil => trivial
  | cons attempt attempts ih =>
    match attempt, h with
    | .written _, h => exact ih h
    | .torn _ _ true, h => exact ih h
    | .torn _ _ false, h =>
      refine ⟨?_, ih h.2⟩
      rw [← List.append_assoc]
      exact h.1.trans (List.prefix_append _ _)

/-- A group takes over what was buffered. -/
theorem Retried.written (h : Retried attempts buffered) :
    Retried (attempts ++ [.written buffered]) [] := by
  induction attempts with
  | nil => trivial
  | cons attempt attempts ih =>
    match attempt, h with
    | .written _, h => exact ih h
    | .torn _ _ true, h => exact ih h
    | .torn _ _ false, h =>
      refine ⟨?_, ih h.2⟩
      simpa [Attempt.columns] using h.1

/-- A torn group stays in the buffer. -/
theorem Retried.torn (h : Retried attempts buffered) (accepted : Nat) :
    Retried (attempts ++ [.torn buffered accepted false]) buffered := by
  induction attempts with
  | nil => exact ⟨List.prefix_refl _, trivial⟩
  | cons attempt attempts ih =>
    match attempt, h with
    | .written _, h => exact ih h
    | .torn _ _ true, h => exact ih h
    | .torn _ _ false, h =>
      refine ⟨?_, ih h.2⟩
      simpa [Attempt.columns] using h.1

end Retried

theorem groupBytes_length (channelCount : Nat) {columns : List Column}
    (h : columns.length ≤ blockSizePerChannel) :
    (groupBytes channelCount columns).length = groupSize channelCount := by
  rw [groupBytes, interleave_length, List.length_append, List.length_replicate, groupSize,
    Nat.add_sub_cancel' h, Nat.mul_comm]

/-- A writer whose file has the groups tried, with fewer columns buffered than a group. -/
structure Keeping (info : FileInfo) (attempts : List Attempt) (buffered : List Column)
    (w : Writer) : Prop where
  mode : w.file.handle.mode = .write
  channelCount : w.file.handle.info.channelCount = info.channelCount
  io : w.file.io = ⟨layout info ⟨0, 0, 0, dataChunkHeaderSize⟩
      (attempts.flatMap (Attempt.bytes info.channelCount.toNat)),
    (layout info ⟨0, 0, 0, dataChunkHeaderSize⟩
      (attempts.flatMap (Attempt.bytes info.channelCount.toNat))).length⟩
  buffer : bufferOf info w = buffered
  few : buffered.length < blockSizePerChannel
  retried : Retried attempts buffered

section Keeping

variable {info : FileInfo} {attempts : List Attempt} {buffered : List Column} {w : Writer}

theorem Keeping.bytesBuffered (h : Keeping info attempts buffered w) :
    w.file.handle.bytesBuffered = buffered.length := by
  have hlength := congrArg List.length h.buffer
  rwa [bufferOf, bufferedColumns_length] at hlength

/-- The writer once a group was tried. -/
def Writer.tried (w : Writer) (group : Bytes) : Writer where
  file := { w.file with io := w.file.io.write (group.take (w.accepts.headD group.length)) }
  accepts := w.accepts.tail

/-- The writer once a group was written and counted. -/
def Writer.counted (w : Writer) : Writer :=
  { w with file := { w.file with handle := { w.file.handle with
    bytesWritten := (w.file.handle.bytesWritten +
      blockSizePerChannel * w.file.handle.info.channelCount.toNat) % 2 ^ 64 } } }

/-- What is in the channel buffers goes to the file as a group, or a part of it does. -/
theorem writeBlockGroupOn_eq {n : Nat} {padToBlock : Bool} {group : Bytes}
    (hchannels : w.file.handle.info.channelCount ≤ maxChannels) (hn : n ≤ blockSizePerChannel)
    (hblock : (if padToBlock = true then blockSizePerChannel else n) = blockSizePerChannel)
    (hgroup : group = groupBytes w.file.handle.info.channelCount.toNat
      (bufferedColumns w.file.handle.info.channelCount.toNat w.file.handle.channelBuffers n)) :
    writeBlockGroupOn n padToBlock w =
      if group.length ≤ w.accepts.headD group.length then (.ok (), (w.tried group).counted)
      else (.error .write, w.tried group) := by
  have hbytes : ((List.range w.file.handle.info.channelCount.toNat).map
      (channelBlock w.file.handle n blockSizePerChannel)).flatten = group := by
    rw [channelBlocks_flatten w.file.handle hn, hgroup, groupBytes, bufferedColumns_length]
  by_cases hfits : group.length ≤ w.accepts.headD group.length
  · simp only [writeBlockGroupOn, bind_apply, get_apply, require_of (And.intro hn hchannels),
      pure_apply, hblock, hbytes, ioWriteAccepted, if_pos hfits]
    rfl
  · simp only [writeBlockGroupOn, bind_apply, get_apply, require_of (And.intro hn hchannels),
      pure_apply, hblock, hbytes, ioWriteAccepted, if_neg hfits]
    rfl

/-- The columns a column joins. -/
theorem Keeping.stored (h : Keeping info attempts buffered w) (input : Bytes) :
    bufferedColumns info.channelCount.toNat (w.file.handle.storeSamples input).channelBuffers
        (buffered.length + 1) = buffered ++ [firstColumn info.channelCount.toNat input] := by
  have hstored := bufferedColumns_storeSamples w.file.handle input
  have hbuffer := h.buffer
  rw [bufferOf] at hbuffer
  rwa [h.channelCount, hbuffer, h.bytesBuffered] at hstored

/-- The file goes on behind what it took in. -/
theorem Keeping.io_tried (h : Keeping info attempts buffered w) {attempt : Attempt}
    {group : Bytes} (hbytes : attempt.bytes info.channelCount.toNat =
      group.take (w.accepts.headD group.length)) :
    (w.tried group).file.io = ⟨layout info ⟨0, 0, 0, dataChunkHeaderSize⟩
        ((attempts ++ [attempt]).flatMap (Attempt.bytes info.channelCount.toNat)),
      (layout info ⟨0, 0, 0, dataChunkHeaderSize⟩
        ((attempts ++ [attempt]).flatMap (Attempt.bytes info.channelCount.toNat))).length⟩ := by
  have happend : (attempts ++ [attempt]).flatMap (Attempt.bytes info.channelCount.toNat) =
      attempts.flatMap (Attempt.bytes info.channelCount.toNat) ++
        group.take (w.accepts.headD group.length) := by
    rw [List.flatMap_append, ← hbytes]
    simp
  rw [Writer.tried, h.io, ByteFile.write_at_end, happend, ← layout_append, List.length_append]

/-- The writer once a column was stored. -/
def Writer.stored (w : Writer) (input : Bytes) : Writer :=
  { w with file := { w.file with handle := w.file.handle.storeSamples input } }

/-- A column that does not complete a block group. -/
theorem Keeping.store (h : Keeping info attempts buffered w) (n : Nat) (input : Bytes)
    (hfew : buffered.length + 1 < blockSizePerChannel) :
    writeAudioLoopOn (n + 1) input w =
        writeAudioLoopOn n (input.drop info.channelCount.toNat) (w.stored input) ∧
      Keeping info attempts (buffered ++ [firstColumn info.channelCount.toNat input])
        (w.stored input) := by
  have hbuffered := h.bytesBuffered
  have hroom : w.file.handle.bytesBuffered < blockSizePerChannel := by omega
  have hmore : (w.file.handle.storeSamples input).bytesBuffered ≠ blockSizePerChannel := by
    show w.file.handle.bytesBuffered + 1 ≠ _
    omega
  constructor
  · simp only [writeAudioLoopOn, bind_apply, get_apply, require_of hroom, pure_apply, updateWriter,
      modify_apply, if_neg hmore, h.channelCount]
    rfl
  · constructor
    case mode => exact h.mode
    case channelCount => exact h.channelCount
    case io => exact h.io
    case buffer =>
      have hstored := h.stored input
      rw [← h.bytesBuffered] at hstored
      exact hstored
    case few =>
      rw [List.length_append]
      exact hfew
    case retried => exact h.retried.more _

/-- The block group that a column completes is tried. -/
theorem Keeping.complete (h : Keeping info attempts buffered w)
    (hchannels : info.channelCount ≤ maxChannels) (n : Nat) (input : Bytes)
    (hlast : buffered.length + 1 = blockSizePerChannel) {group : Bytes}
    (hgroup : group = groupBytes info.channelCount.toNat
      (buffered ++ [firstColumn info.channelCount.toNat input])) :
    writeAudioLoopOn (n + 1) input w =
      if group.length ≤ w.accepts.headD group.length then
        (updateWriter (fun h => { h with bytesBuffered := 0 }) >>= fun _ =>
          writeAudioLoopOn n (input.drop info.channelCount.toNat) >>= fun written =>
            pure (blockSizePerChannel * info.channelCount.toNat + written))
          (((w.stored input).tried group).counted)
      else (.error .write, (w.stored input).tried group) := by
  have hbuffered := h.bytesBuffered
  have hroom : w.file.handle.bytesBuffered < blockSizePerChannel := by omega
  have hfull : (w.file.handle.storeSamples input).bytesBuffered = blockSizePerChannel := by
    show w.file.handle.bytesBuffered + 1 = _
    omega
  have hstored := h.stored input
  rw [hlast, ← h.channelCount] at hstored
  rw [← h.channelCount] at hgroup hchannels
  have hwrite : writeBlockGroupOn blockSizePerChannel false (w.stored input) = _ :=
    writeBlockGroupOn_eq hchannels (Nat.le_refl _) rfl
      (hgroup.trans (congrArg _ hstored.symm))
  have hloop : writeAudioLoopOn (n + 1) input w =
      (writeBlockGroupOn blockSizePerChannel false >>= fun _ =>
        updateWriter (fun h => { h with bytesBuffered := 0 }) >>= fun _ =>
          writeAudioLoopOn n (input.drop info.channelCount.toNat) >>= fun written =>
            pure (blockSizePerChannel * info.channelCount.toNat + written)) (w.stored input) := by
    rw [writeAudioLoopOn, bind_of_ok (get_apply w), require_bind hroom, h.channelCount]
    exact congrFun (if_pos hfull) _
  rw [hloop]
  by_cases hfits : group.length ≤ w.accepts.headD group.length
  · rw [if_pos hfits]
    exact bind_of_ok (hwrite.trans (if_pos hfits))
  · rw [if_neg hfits]
    exact bind_of_error (hwrite.trans (if_neg hfits))

/-- The writer with nothing buffered. -/
def Writer.emptied (w : Writer) : Writer :=
  { w with file := { w.file with handle := { w.file.handle with bytesBuffered := 0 } } }

/-- A group that was written whole. -/
theorem Keeping.group (h : Keeping info attempts buffered w) (input : Bytes) {group : Bytes}
    (hgroup : group = groupBytes info.channelCount.toNat
      (buffered ++ [firstColumn info.channelCount.toNat input]))
    (hfits : group.length ≤ w.accepts.headD group.length) :
    Keeping info
      (attempts ++ [.written (buffered ++ [firstColumn info.channelCount.toNat input])]) []
      (((w.stored input).tried group).counted.emptied) where
  mode := h.mode
  channelCount := h.channelCount
  io := h.io_tried (hgroup.symm.trans (List.take_of_length_le hfits).symm)
  buffer := rfl
  few := Nat.zero_lt_succ _
  retried := (h.retried.more _).written

section

variable {n : Nat}

/-- How many groups the next columns complete. -/
theorem div_of_last (h : buffered.length + 1 = blockSizePerChannel) :
    (buffered.length + (n + 1)) / blockSizePerChannel =
      (([] : List Column).length + n) / blockSizePerChannel + 1 := by
  rw [List.length_nil, Nat.zero_add, ← Nat.add_div_right n (by decide)]
  congr 1
  omega

theorem mod_of_last (h : buffered.length + 1 = blockSizePerChannel) :
    (buffered.length + (n + 1)) % blockSizePerChannel =
      (([] : List Column).length + n) % blockSizePerChannel := by
  rw [List.length_nil, Nat.zero_add, ← Nat.add_mod_right n]
  congr 1
  omega

end

theorem forall_take_succ {p : Nat → Prop} {l : List Nat} {k d : Nat} (hd : p d) :
    (∀ a ∈ l.take (k + 1), p a) ↔ p (l.headD d) ∧ ∀ a ∈ l.tail.take k, p a := by
  cases l <;> simp [hd]

/-- Where the file takes in the groups that the loop completes, they are written, and the
other columns are buffered. -/
theorem Keeping.loop (hchannels : info.channelCount ≤ maxChannels) (n : Nat) (input : Bytes)
    (h : Keeping info attempts buffered w)
    (hfits : ∀ accepted ∈ w.accepts.take ((buffered.length + n) / blockSizePerChannel),
      groupSize info.channelCount.toNat ≤ accepted) :
    ∃ written, ∃ groups : List (List Column), ∃ buffered' w',
      writeAudioLoopOn n input w = (.ok written, w') ∧
      Keeping info (attempts ++ groups.map .written) buffered' w' ∧
      groups.flatten ++ buffered' = buffered ++ sampleColumns info.channelCount.toNat n input ∧
      w'.accepts = w.accepts.drop ((buffered.length + n) / blockSizePerChannel) ∧
      buffered'.length = (buffered.length + n) % blockSizePerChannel := by
  induction n generalizing attempts buffered w input with
  | zero =>
    have hfew := h.few
    refine ⟨0, [], buffered, w, rfl, ?_, ?_, ?_, ?_⟩
    · simpa using h
    · simp [sampleColumns]
    · rw [Nat.add_zero, Nat.div_eq_of_lt hfew, List.drop_zero]
    · rw [Nat.add_zero, Nat.mod_eq_of_lt hfew]
  | succ n ih =>
    have hfew := h.few
    rw [sampleColumns_succ]
    by_cases hlast : buffered.length + 1 = blockSizePerChannel
    · have hdiv := div_of_last (n := n) hlast
      have hmod := mod_of_last (n := n) hlast
      have hcomplete : (buffered ++ [firstColumn info.channelCount.toNat input]).length ≤
          blockSizePerChannel := by
        rw [List.length_append]
        exact hlast.le
      have hlength := groupBytes_length info.channelCount.toNat hcomplete
      rw [hdiv, forall_take_succ (p := (groupSize info.channelCount.toNat ≤ ·))
        (Nat.le_refl _), ← hlength] at hfits
      obtain ⟨written, groups, buffered', w', hrun, hkeeping, hcolumns, haccepts, hcount⟩ :=
        ih (input.drop info.channelCount.toNat) (h.group input rfl hfits.1)
          (by rw [← hlength]; exact hfits.2)
      refine ⟨blockSizePerChannel * info.channelCount.toNat + written,
        (buffered ++ [firstColumn info.channelCount.toNat input]) :: groups, buffered', w', ?_,
        ?_, ?_, ?_, ?_⟩
      · rw [h.complete hchannels n input hlast rfl, if_pos hfits.1]
        exact (bind_of_ok rfl).trans (bind_of_ok hrun)
      · rw [List.append_assoc] at hkeeping
        exact hkeeping
      · rw [List.flatten_cons, List.append_assoc, hcolumns]
        simp
      · rw [haccepts, hdiv, ← List.drop_tail]
        rfl
      · rw [hcount, hmod]
    · obtain ⟨hturn, hkept⟩ := h.store n input (by omega)
      have hsum : (buffered ++ [firstColumn info.channelCount.toNat input]).length + n =
          buffered.length + (n + 1) := by
        rw [List.length_append, List.length_singleton]
        omega
      obtain ⟨written, groups, buffered', w', hrun, hkeeping, hcolumns, haccepts, hcount⟩ :=
        ih (input.drop info.channelCount.toNat) hkept (by rw [hsum]; exact hfits)
      refine ⟨written, groups, buffered', w', hturn.trans hrun, hkeeping, ?_, ?_, ?_⟩
      · rw [hcolumns, List.append_assoc, List.singleton_append]
      · rw [haccepts, hsum]
        rfl
      · rw [hcount, hsum]

/-- A writer whose buffer is full. -/
structure Full (info : FileInfo) (w : Writer) : Prop where
  mode : w.file.handle.mode = .write
  channelCount : w.file.handle.info.channelCount = info.channelCount
  bytesBuffered : w.file.handle.bytesBuffered = blockSizePerChannel

/-- Where it does not, the loop ends with a buffer that is full. -/
theorem Keeping.loop_full (hchannels : info.channelCount ≤ maxChannels) (n : Nat)
    (input : Bytes) (h : Keeping info attempts buffered w)
    (hfails : ¬ ∀ accepted ∈ w.accepts.take ((buffered.length + n) / blockSizePerChannel),
      groupSize info.channelCount.toNat ≤ accepted) :
    ∃ e w', writeAudioLoopOn n input w = (.error e, w') ∧ Full info w' := by
  induction n generalizing attempts buffered w input with
  | zero =>
    rw [Nat.add_zero, Nat.div_eq_of_lt h.few] at hfails
    exact absurd (by simp) hfails
  | succ n ih =>
    have hfew := h.few
    by_cases hlast : buffered.length + 1 = blockSizePerChannel
    · have hdiv := div_of_last (n := n) hlast
      have hcomplete : (buffered ++ [firstColumn info.channelCount.toNat input]).length ≤
          blockSizePerChannel := by
        rw [List.length_append]
        exact hlast.le
      have hlength := groupBytes_length info.channelCount.toNat hcomplete
      rw [hdiv, forall_take_succ (p := (groupSize info.channelCount.toNat ≤ ·))
        (Nat.le_refl _), ← hlength] at hfails
      rw [h.complete hchannels n input hlast rfl]
      by_cases hfits : (groupBytes info.channelCount.toNat
          (buffered ++ [firstColumn info.channelCount.toNat input])).length ≤
          w.accepts.headD (groupBytes info.channelCount.toNat
            (buffered ++ [firstColumn info.channelCount.toNat input])).length
      · obtain ⟨e, w', hrun, hfull⟩ := ih (input.drop info.channelCount.toNat)
          (h.group input rfl hfits) (by rw [← hlength]; exact fun hall => hfails ⟨hfits, hall⟩)
        refine ⟨e, w', ?_, hfull⟩
        rw [if_pos hfits]
        exact (bind_of_ok rfl).trans (bind_of_error hrun)
      · refine ⟨.write, _, if_neg hfits, h.mode, h.channelCount, ?_⟩
        have hbuffered := h.bytesBuffered
        show w.file.handle.bytesBuffered + 1 = _
        omega
    · obtain ⟨hturn, hkept⟩ := h.store n input (by omega)
      have hsum : (buffered ++ [firstColumn info.channelCount.toNat input]).length + n =
          buffered.length + (n + 1) := by
        rw [List.length_append, List.length_singleton]
        omega
      rw [hturn]
      exact ih (input.drop info.channelCount.toNat) hkept (by rw [hsum]; exact hfails)

end Keeping

/-! ## The calls -/

section Calls

variable {info : FileInfo} {attempts : List Attempt} {buffered : List Column} {w : Writer}

/-- What `dsf_write_audio_data` records once all its columns are taken in. -/
def Handle.accounted (h : Handle) (bytesPerChannel : Nat) : Handle :=
  let samples := if h.info.bitsPerSample = 1 then bytesPerChannel * 8 else bytesPerChannel
  let samplesWritten := (h.samplesWritten + samples) % 2 ^ 64
  { h with
    samplesWritten := samplesWritten
    info := { h.info with
      sampleCount := samplesWritten
      audioDataSize := h.bytesWritten
      bitRate := calculateBitRate h.info.channelCount h.info.samplingFrequency
        h.info.bitsPerSample } }

/-- A write of whole columns whose groups the file takes in. -/
theorem Keeping.write (h : Keeping info attempts buffered w)
    (hchannels : info.channelCount ≤ maxChannels) {buffer : Bytes}
    (hwhole : buffer.length % info.channelCount.toNat = 0)
    (hfits : ∀ accepted ∈ w.accepts.take ((buffered.length +
        buffer.length / info.channelCount.toNat) / blockSizePerChannel),
      groupSize info.channelCount.toNat ≤ accepted) :
    ∃ groups : List (List Column), ∃ buffered' w',
      (WriterCall.write buffer).run w = (.ok (), w') ∧
      Keeping info (attempts ++ groups.map .written) buffered' w' ∧
      groups.flatten ++ buffered' = buffered ++ columnsOf info.channelCount.toNat buffer ∧
      w'.accepts = w.accepts.drop ((buffered.length +
        buffer.length / info.channelCount.toNat) / blockSizePerChannel) ∧
      buffered'.length = (buffered.length +
        buffer.length / info.channelCount.toNat) % blockSizePerChannel := by
  obtain ⟨written, groups, buffered', t, hloop, hkeeping, hcolumns, haccepts, hlength⟩ :=
    h.loop hchannels (buffer.length / info.channelCount.toNat) buffer hfits
  rw [← h.channelCount] at hwhole hloop
  let n := buffer.length / w.file.handle.info.channelCount.toNat
  refine ⟨groups, buffered', ⟨⟨t.file.handle.accounted n, t.file.io⟩, t.accepts⟩, ?_, ?_,
    hcolumns, haccepts, hlength⟩
  · rw [WriterCall.run, writeAudioDataOn, bind_of_ok (get_apply w), require_bind h.mode,
      require_bind hwhole, bind_of_ok hloop]
    rfl
  · exact {
      mode := hkeeping.mode
      channelCount := hkeeping.channelCount
      io := hkeeping.io
      buffer := hkeeping.buffer
      few := hkeeping.few
      retried := hkeeping.retried }

/-- A write of whole columns that the file fails. -/
theorem Keeping.write_full (h : Keeping info attempts buffered w)
    (hchannels : info.channelCount ≤ maxChannels) {buffer : Bytes}
    (hwhole : buffer.length % info.channelCount.toNat = 0)
    (hfails : ¬ ∀ accepted ∈ w.accepts.take ((buffered.length +
        buffer.length / info.channelCount.toNat) / blockSizePerChannel),
      groupSize info.channelCount.toNat ≤ accepted) :
    Full info ((WriterCall.write buffer).run w).2 := by
  obtain ⟨e, t, hloop, hfull⟩ :=
    h.loop_full hchannels (buffer.length / info.channelCount.toNat) buffer hfails
  rw [← h.channelCount] at hwhole hloop
  rw [WriterCall.run, writeAudioDataOn, bind_of_ok (get_apply w), require_bind h.mode,
    require_bind hwhole, bind_of_error hloop]
  exact hfull

/-- The next write stores behind the end of the buffer. -/
theorem Full.write (h : Full info w) {buffer : Bytes}
    (hwhole : buffer.length % info.channelCount.toNat = 0)
    (hsome : buffer.length / info.channelCount.toNat ≠ 0) :
    (WriterCall.write buffer).run w = (.error .undefined, w) := by
  obtain ⟨n, hn⟩ := Nat.exists_eq_succ_of_ne_zero hsome
  have hfull : ¬ w.file.handle.bytesBuffered < blockSizePerChannel := by
    rw [h.bytesBuffered]
    exact Nat.lt_irrefl _
  rw [← h.channelCount] at hwhole hn
  have hloop : writeAudioLoopOn (n + 1) buffer w = (.error .undefined, w) := by
    rw [writeAudioLoopOn, bind_of_ok (get_apply w), require_bind_not hfull]
  rw [WriterCall.run, writeAudioDataOn, bind_of_ok (get_apply w), require_bind h.mode,
    require_bind hwhole, hn, bind_of_error hloop]
  rfl

/-- A write of a part of a column is refused. -/
theorem Keeping.write_refused (h : Keeping info attempts buffered w) {buffer : Bytes}
    (hpart : ¬ buffer.length % info.channelCount.toNat = 0) :
    (WriterCall.write buffer).run w = (.error .invalidArg, w) := by
  rw [← h.channelCount] at hpart
  rw [WriterCall.run, writeAudioDataOn, bind_of_ok (get_apply w), require_bind h.mode,
    require_bind_not hpart]
  rfl

theorem Keeping.flush_none (h : Keeping info attempts [] w) :
    WriterCall.flush.run w = (.ok (), w) := by
  have hnone : ¬ 0 < w.file.handle.bytesBuffered := by
    rw [h.bytesBuffered]
    exact Nat.lt_irrefl 0
  rw [WriterCall.run, flushAudioDataOn, bind_of_ok (get_apply w), require_bind h.mode,
    when_of_not hnone]
  rfl

/-- The writer behind a flush that worked. -/
def Writer.flushed (w : Writer) : Writer :=
  { w with file := { w.file with handle := { w.file.handle with
    info := { w.file.handle.info with audioDataSize := w.file.handle.bytesWritten }
    bytesBuffered := 0 } } }

/-- The short group of a flush goes to the file, or a part of it does and it stays in the
buffer. -/
theorem Keeping.flush (h : Keeping info attempts buffered w)
    (hchannels : info.channelCount ≤ maxChannels) (hsome : buffered.length ≠ 0) :
    ∃ w', w'.accepts = w.accepts.tail ∧
      if groupSize info.channelCount.toNat ≤
          w.accepts.headD (groupSize info.channelCount.toNat) then
        WriterCall.flush.run w = (.ok (), w') ∧
          Keeping info (attempts ++ [.written buffered]) [] w'
      else WriterCall.flush.run w = (.error .write, w') ∧
        Keeping info (attempts ++
          [.torn buffered (w.accepts.headD (groupSize info.channelCount.toNat)) false])
          buffered w' := by
  let group := groupBytes info.channelCount.toNat buffered
  have hlength : group.length = groupSize info.channelCount.toNat :=
    groupBytes_length _ h.few.le
  have hcount := h.bytesBuffered
  have hbuffer := h.buffer
  rw [bufferOf] at hbuffer
  have hgroup : group = groupBytes w.file.handle.info.channelCount.toNat
      (bufferedColumns w.file.handle.info.channelCount.toNat w.file.handle.channelBuffers
        w.file.handle.bytesBuffered) := by
    rw [h.channelCount, hbuffer]
  have hwrite : writeBlockGroupOn w.file.handle.bytesBuffered true w = _ :=
    writeBlockGroupOn_eq (by rw [h.channelCount]; exact hchannels)
      (by rw [hcount]; exact h.few.le) rfl hgroup
  have hpositive : 0 < w.file.handle.bytesBuffered := by omega
  have hflush : WriterCall.flush.run w = (writeBlockGroupOn w.file.handle.bytesBuffered true >>=
      fun _ => updateWriter fun h => { h with
        info := { h.info with audioDataSize := h.bytesWritten }, bytesBuffered := 0 }) w := by
    rw [WriterCall.run, flushAudioDataOn, bind_of_ok (get_apply w), require_bind h.mode,
      when_of hpositive]
  rw [← hlength]
  by_cases hfits : group.length ≤ w.accepts.headD group.length
  · rw [if_pos hfits] at hwrite
    rw [hflush, bind_of_ok hwrite]
    refine ⟨(w.tried group).counted.flushed, rfl, ?_⟩
    rw [if_pos hfits]
    exact ⟨rfl, {
      mode := h.mode
      channelCount := h.channelCount
      io := h.io_tried (List.take_of_length_le hfits).symm
      buffer := rfl
      few := Nat.zero_lt_succ _
      retried := h.retried.written }⟩
  · rw [if_neg hfits] at hwrite
    rw [hflush, bind_of_error hwrite]
    refine ⟨w.tried group, rfl, ?_⟩
    rw [if_neg hfits]
    exact ⟨rfl, {
      mode := h.mode
      channelCount := h.channelCount
      io := h.io_tried (by rw [Attempt.bytes])
      buffer := h.buffer
      few := h.few
      retried := h.retried.torn _ }⟩

/-! ## The runs -/

theorem Keeping.intact (h : Keeping info attempts buffered w) : Intact info attempts w :=
  ⟨congrArg ByteFile.content h.io, by rw [h.buffer]; exact h.retried⟩

theorem Keeping.full (h : Keeping info attempts buffered w) :
    w.file.handle.bytesBuffered < blockSizePerChannel := by
  rw [h.bytesBuffered]
  exact h.few

theorem columns_written (groups : List (List Column)) :
    (groups.map Attempt.written).flatMap Attempt.columns = groups.flatten := by
  rw [List.flatMap_map]
  simp [Attempt.columns, List.flatMap_id']

/-- Where every block fits, no call overruns the buffer. -/
theorem neverOverruns_of_fit (hchannels : info.channelCount ≤ maxChannels)
    (calls : List WriterCall) (h : Keeping info attempts buffered w)
    (hfit : BlocksFit info.channelCount.toNat calls buffered.length w.accepts) :
    NeverOverruns info calls attempts w := by
  induction calls generalizing attempts buffered w with
  | nil => trivial
  | cons call calls ih =>
    match call, hfit with
    | .write buffer, hfit =>
      rw [BlocksFit] at hfit
      split at hfit
      · next hwhole =>
        obtain ⟨groups, buffered', w', hrun, hkeeping, hcolumns, haccepts, hlength⟩ :=
          h.write hchannels hwhole hfit.1
        rw [NeverOverruns, hrun]
        refine ⟨by simp, hkeeping.full, groups.map .written, columnsOf _ buffer,
          ⟨groups, .inl rfl⟩, rfl, ?_, hkeeping.intact, ih hkeeping ?_⟩
        · rw [columns_written, hkeeping.buffer, h.buffer, hcolumns]
        · rw [hlength, haccepts]
          exact hfit.2
      · next hpart =>
        rw [NeverOverruns, h.write_refused hpart]
        refine ⟨by simp, h.full, [], [], ⟨[], .inl rfl⟩, List.nil_prefix, ?_, ?_, ?_⟩
        · simp
        · simpa using h.intact
        · simpa using ih h hfit
    | .flush, hfit =>
      rw [BlocksFit] at hfit
      split at hfit
      · next hnone =>
        obtain rfl := List.eq_nil_of_length_eq_zero hnone
        rw [NeverOverruns, h.flush_none]
        refine ⟨by simp, h.full, [], [], ⟨[], .inl rfl⟩, rfl, ?_, ?_, ?_⟩
        · simp
        · simpa using h.intact
        · simpa using ih h hfit
      · next hsome =>
        obtain ⟨w', haccepts, hflush⟩ := h.flush hchannels hsome
        split at hflush
        · next hfits =>
          rw [if_pos hfits] at hfit
          obtain ⟨hrun, hkeeping⟩ := hflush
          rw [NeverOverruns, hrun]
          refine ⟨by simp, hkeeping.full, [.written buffered], [], ⟨[buffered], .inl rfl⟩, rfl, ?_,
            hkeeping.intact, ih hkeeping (by rw [haccepts]; exact hfit)⟩
          rw [hkeeping.buffer, h.buffer]
          simp [Attempt.columns]
        · next hfits =>
          rw [if_neg hfits] at hfit
          obtain ⟨hrun, hkeeping⟩ := hflush
          rw [NeverOverruns, hrun]
          refine ⟨by simp, hkeeping.full, _, [], ⟨[], .inr ⟨rfl, buffered, _, false, rfl⟩⟩, rfl, ?_,
            hkeeping.intact, ih hkeeping (by rw [haccepts]; exact hfit)⟩
          rw [hkeeping.buffer, h.buffer]
          simp [Attempt.columns]

/-- Where the buffer is never full between calls, every block fitted. -/
theorem fit_of_neverOverruns (hchannels : info.channelCount ≤ maxChannels)
    (calls : List WriterCall) {counted : List Attempt} (h : Keeping info attempts buffered w)
    (hnever : NeverOverruns info calls counted w) :
    BlocksFit info.channelCount.toNat calls buffered.length w.accepts := by
  induction calls generalizing attempts counted buffered w with
  | nil => trivial
  | cons call calls ih =>
    obtain ⟨-, hfew, more, -, -, -, -, -, hrest⟩ := hnever
    match call, hfew, hrest with
    | .write buffer, hfew, hrest =>
      rw [BlocksFit]
      split
      · next hwhole =>
        by_cases hfits : ∀ accepted ∈ w.accepts.take ((buffered.length +
            buffer.length / info.channelCount.toNat) / blockSizePerChannel),
            groupSize info.channelCount.toNat ≤ accepted
        · obtain ⟨groups, buffered', w', hrun, hkeeping, -, haccepts, hlength⟩ :=
            h.write hchannels hwhole hfits
          rw [hrun] at hrest
          refine ⟨hfits, ?_⟩
          rw [← hlength, ← haccepts]
          exact ih hkeeping hrest
        · rw [(h.write_full hchannels hwhole hfits).bytesBuffered] at hfew
          exact absurd hfew (Nat.lt_irrefl _)
      · next hpart =>
        rw [h.write_refused hpart] at hrest
        exact ih h hrest
    | .flush, hfew, hrest =>
      rw [BlocksFit]
      split
      · next hnone =>
        obtain rfl := List.eq_nil_of_length_eq_zero hnone
        rw [h.flush_none] at hrest
        exact ih h hrest
      · next hsome =>
        obtain ⟨w', haccepts, hflush⟩ := h.flush hchannels hsome
        rw [← haccepts]
        split at hflush
        · next hfits =>
          rw [if_pos hfits]
          rw [hflush.1] at hrest
          exact ih hflush.2 hrest
        · next hfits =>
          rw [if_neg hfits]
          rw [hflush.1] at hrest
          exact ih hflush.2 hrest

end Calls

theorem keeping_created {info : FileInfo} (accepts : List Nat) :
    Keeping info [] [] ⟨created info, accepts⟩ where
  mode := rfl
  channelCount := rfl
  io := (created_holds info).io.trans (by
    rw [← layout_length info ⟨0, 0, 0, dataChunkHeaderSize⟩]
    simp [fullBytes, emitted])
  buffer := rfl
  few := Nat.zero_lt_succ _
  retried := trivial

/-- From a new file on, whatever the file takes in, the write buffer is never full between
calls, no store is out of range and nothing is lost or duplicated but what belongs to a group
that failed, exactly where no block group of `dsf_write_audio_data` fails. -/
theorem write_buffer_iff {sampleRate channelType channelCount bitsPerSample : UInt32}
    {s : OpenHandle} (h : dsfCreate sampleRate channelType channelCount bitsPerSample = .ok s)
    (calls : List WriterCall) (accepts : List Nat) :
    NeverOverruns (createInfo sampleRate channelType channelCount bitsPerSample) calls []
        ⟨s, accepts⟩ ↔ BlocksFit channelCount.toNat calls 0 accepts := by
  have hwritable := writable_of_create h
  rw [dsfCreate_eq hwritable] at h
  cases h
  have hchannels : (createInfo sampleRate channelType channelCount bitsPerSample).channelCount ≤
      maxChannels := by
    have hvalid := hwritable.channelCount
    simp only [isValidChannelCount, Bool.and_eq_true, decide_eq_true_eq] at hvalid
    exact hvalid.2
  exact ⟨fit_of_neverOverruns hchannels calls (keeping_created accepts),
    neverOverruns_of_fit hchannels calls (keeping_created accepts)⟩

theorem stereo_writable : (createInfo 2822400 2 2 1).Writable := by
  constructor <;> decide

/-- A flush that fails after five bytes is made up for. -/
theorem write_buffer_iff_stereo :
    NeverOverruns (createInfo 2822400 2 2 1) [.write (List.replicate 8194 0x69), .flush, .flush]
      [] ⟨created (createInfo 2822400 2 2 1), [8192, 5]⟩ := by
  refine (write_buffer_iff (dsfCreate_eq stereo_writable) _ _).2 ?_
  generalize hbuffer : List.replicate 8194 (0x69 : UInt8) = buffer
  have hlength : buffer.length = 8194 := by rw [← hbuffer, List.length_replicate]
  simp only [BlocksFit, hlength]
  decide

theorem mono_writable : (createInfo 2822400 1 1 1).Writable := by
  constructor <;> decide

/-- A block group of one channel that the file does not take leaves the buffer full, and the
next byte is stored behind its end. -/
theorem failed_write_overruns :
    dsfCreate 2822400 1 1 1 = .ok (created (createInfo 2822400 1 1 1)) ∧
      let w := ((WriterCall.write (List.replicate 4096 0x69)).run
        ⟨created (createInfo 2822400 1 1 1), [0]⟩).2
      w.file.handle.bytesBuffered = 4096 ∧ (WriterCall.write [0x69]).run w = (.error .undefined, w) ∧
        ¬ NeverOverruns (createInfo 2822400 1 1 1)
          [.write (List.replicate 4096 0x69), .write [0x69]] []
          ⟨created (createInfo 2822400 1 1 1), [0]⟩ := by
  have hfull : Full (createInfo 2822400 1 1 1)
      ((WriterCall.write (List.replicate 4096 0x69)).run
        ⟨created (createInfo 2822400 1 1 1), [0]⟩).2 := by
    refine (keeping_created [0]).write_full (by decide) ?_ ?_
    · simp only [List.length_replicate]
      decide
    · simp only [List.length_replicate]
      decide
  refine ⟨dsfCreate_eq mono_writable, hfull.bytesBuffered, hfull.write rfl nofun, ?_⟩
  rintro ⟨-, hfew, -⟩
  rw [hfull.bytesBuffered] at hfew
  exact Nat.lt_irrefl _ hfew

end DsdNexus.Dsf
