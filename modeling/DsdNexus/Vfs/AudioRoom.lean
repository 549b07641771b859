import DsdNexus.Lib.Outcomes
import DsdNexus.Vfs.Threaded

/-! # Room for the audio

The audio region has room for frames of nominal size. What a handle has still to hand out
ends inside it, the bytes a seek has left to skip aside: they come off complete blocks only,
and where the last, padded block is all there is left, nothing comes off it and the audio
ends that much later.
-/

namespace DsdNexus.Vfs

open Scheduled

/-- No frame of the track has more than its nominal size. -/
def Track.FramesFit (t : Track) : Prop :=
  ∀ n, t.startFrame ≤ n → n < t.startFrame + t.frameCount → ∀ data, t.frameData n = some data →
    data.length / t.channelCount ≤ frameSize64

/-- The audio from frame `n` on ends at frame `e`, the end of the track or, with threads, a
frame that is not read. -/
structure EndsAt (t : Track) (threads : Bool) (n e : Nat) : Prop where
  ahead : n ≤ e
  ends : e = t.startFrame + t.frameCount ∨
    (threads = true ∧ e < t.startFrame + t.frameCount ∧ t.soundData e = none)
  decodes : ∀ k, n ≤ k → k < e → t.Decodes k

/-- The columns on hand once the frames from `n` up to `e` are taken. -/
def columnsTo (t : Track) (f : VfsFile) (n e : Nat) : Nat := f.bytesBuffered + t.columns n e

/-- Bytes of the padded block group behind them. -/
def flushedTail (t : Track) (f : VfsFile) (n e : Nat) : Nat :=
  if columnsTo t f n e % dsfBlockSize = 0 then 0 else t.groupSize

/-- File position at which the handle goes on with the audio. -/
def audioFrom (t : Track) (f : VfsFile) : Nat :=
  max f.position (generateDsfHeader t.info).length

/-- File position at which the audio is handed out that ends at `e`. -/
def audioEnd (t : Track) (f : VfsFile) (n e : Nat) : Nat :=
  audioFrom t f + f.pending.length +
    (columnsTo t f n e / dsfBlockSize * t.groupSize - f.seekSkipBytes) + flushedTail t f n e

/-- The audio ends inside the file. -/
def EndsInside (t : Track) (threads : Bool) (f : VfsFile) (n : Nat) : Prop :=
  ∀ e, EndsAt t threads n e → audioEnd t f n e ≤ t.info.totalSize

/-- Where the frames ahead do not fill the blocks to skip, the padded last block still ends
inside the file. -/
def SkipInside (t : Track) (threads : Bool) (f : VfsFile) (n : Nat) : Prop :=
  ∀ e, EndsAt t threads n e →
    columnsTo t f n e / dsfBlockSize * t.groupSize < f.seekSkipBytes →
      audioFrom t f + f.pending.length + flushedTail t f n e ≤ t.info.totalSize

/-! ## The room of a handle -/

/-- Block groups that frames of nominal size fill, from the current frame on. -/
def groupsAhead (t : Track) (f : VfsFile) : Nat :=
  (f.bytesBuffered + (t.startFrame + t.frameCount - f.currentFrame) * frameSize64 +
    dsfBlockSize - 1) / dsfBlockSize

/-- What is on hand and what frames of nominal size add to it end in the audio region, the
bytes to skip aside; and those come off before anything is handed out. -/
structure HasRoom (t : Track) (f : VfsFile) : Prop where
  room : f.position < t.info.metadataOffset →
    audioFrom t f + f.pending.length + groupsAhead t f * t.groupSize ≤
      t.info.metadataOffset + f.seekSkipBytes
  skips : f.pending ≠ [] → f.currentFrame < t.startFrame + t.frameCount → f.seekSkipBytes = 0

section

variable {t : Track} {f : VfsFile}

theorem Track.FramesFit.columns_le (hfit : t.FramesFit) {n e : Nat} (hlo : t.startFrame ≤ n)
    (hle : n ≤ e) (hhi : e ≤ t.startFrame + t.frameCount) :
    t.columns n e ≤ (e - n) * frameSize64 := by
  induction e, hle using Nat.le_induction with
  | base =>
    rw [t.columns_self]
    exact Nat.zero_le _
  | succ e hle ih =>
    have hrest := ih (by omega)
    have hframe : (t.frameColumns e).length ≤ frameSize64 := by
      rw [Track.frameColumns, columnsOf_length]
      cases hdata : t.frameData e with
      | none =>
        rw [Option.getD_none, List.length_nil, Nat.zero_div]
        exact Nat.zero_le _
      | some data => exact hfit e (by omega) (by omega) data hdata
    rw [t.columns_succ hle, Nat.succ_sub hle, Nat.succ_mul]
    omega

/-- What the frames ahead fill, with the padded block, is no more than their room. -/
theorem blocks_le_groupsAhead (hfit : t.FramesFit) {e : Nat} (hlo : t.startFrame ≤ f.currentFrame)
    (hle : f.currentFrame ≤ e) (hhi : e ≤ t.startFrame + t.frameCount) :
    columnsTo t f f.currentFrame e / dsfBlockSize * t.groupSize +
      flushedTail t f f.currentFrame e ≤ groupsAhead t f * t.groupSize := by
  have hcols := hfit.columns_le hlo hle hhi
  have hmul : (e - f.currentFrame) * frameSize64 ≤
      (t.startFrame + t.frameCount - f.currentFrame) * frameSize64 :=
    Nat.mul_le_mul_right _ (by omega)
  have hall : columnsTo t f f.currentFrame e ≤ f.bytesBuffered +
      (t.startFrame + t.frameCount - f.currentFrame) * frameSize64 := by
    unfold columnsTo
    omega
  unfold flushedTail groupsAhead
  generalize columnsTo t f f.currentFrame e = columns at hall ⊢
  generalize f.bytesBuffered + (t.startFrame + t.frameCount - f.currentFrame) * frameSize64 =
    nominal at hall ⊢
  split
  · rw [Nat.add_zero]
    apply Nat.mul_le_mul_right
    unfold dsfBlockSize
    omega
  · rw [← Nat.succ_mul]
    apply Nat.mul_le_mul_right
    unfold dsfBlockSize at *
    omega

/-- In a handle with room the audio ends inside the file, unless bytes to skip are left over. -/
theorem HasRoom.endsInside (h : HasRoom t f) (hfit : t.FramesFit) {threads : Bool}
    (hlo : t.startFrame ≤ f.currentFrame) (hpos : f.position < t.info.metadataOffset)
    (hskip : SkipInside t threads f f.currentFrame) : EndsInside t threads f f.currentFrame := by
  intro e he
  have hhi : e ≤ t.startFrame + t.frameCount := by
    obtain hend | ⟨-, hlt, -⟩ := he.ends
    · omega
    · omega
  have hroom := h.room hpos
  have hblocks := blocks_le_groupsAhead (f := f) hfit hlo he.ahead hhi
  have htotal := t.info_totalSize
  have hleft := hskip e he
  unfold audioEnd
  omega

theorem skipInside_of_zero {threads : Bool} {n : Nat} (h : f.seekSkipBytes = 0) :
    SkipInside t threads f n := by
  intro e _ hlt
  omega

/-! ### One turn -/

theorem audioFrom_consume (hhead : (generateDsfHeader t.info).length ≤ f.position) (k : Nat) :
    audioFrom t (f.consume k) = audioFrom t f + k := by
  have hpos : (f.consume k).position = f.position + k := rfl
  unfold audioFrom
  omega

theorem HasRoom.consume (h : HasRoom t f) {k : Nat}
    (hhead : (generateDsfHeader t.info).length ≤ f.position)
    (hpos : f.position < t.info.metadataOffset) (hk : k ≤ f.pending.length) :
    HasRoom t (f.consume k) := by
  have hpend : (f.consume k).pending.length = f.pending.length - k := by
    rw [pending_consume, List.length_drop]
  constructor
  · intro _
    have hroom := h.room hpos
    have hahead : groupsAhead t (f.consume k) = groupsAhead t f := rfl
    have hskip : (f.consume k).seekSkipBytes = f.seekSkipBytes := rfl
    rw [audioFrom_consume hhead, hpend, hahead, hskip]
    omega
  · intro hne hcur
    refine h.skips (fun hnil => hne ?_) hcur
    rw [pending_consume, hnil, List.drop_nil]

theorem EndsInside.consume {threads : Bool} {n k : Nat} (h : EndsInside t threads f n)
    (hhead : (generateDsfHeader t.info).length ≤ f.position) (hk : k ≤ f.pending.length) :
    EndsInside t threads (f.consume k) n := by
  intro e he
  have hend := h e he
  have hpend : (f.consume k).pending.length = f.pending.length - k := by
    rw [pending_consume, List.length_drop]
  have hcols : columnsTo t (f.consume k) n e = columnsTo t f n e := rfl
  have htail : flushedTail t (f.consume k) n e = flushedTail t f n e := rfl
  have hskip : (f.consume k).seekSkipBytes = f.seekSkipBytes := rfl
  unfold audioEnd at hend ⊢
  rw [audioFrom_consume hhead, hpend, hcols, htail, hskip]
  omega

/-- A frame that is passed over leaves its room. -/
theorem HasRoom.nextFrame (h : HasRoom t f) : HasRoom t f.nextFrame := by
  constructor
  · intro hpos
    apply le_trans _ (h.room hpos)
    apply Nat.add_le_add_left
    apply Nat.mul_le_mul_right
    apply Nat.div_le_div_right
    have hmul : (t.startFrame + t.frameCount - f.nextFrame.currentFrame) * frameSize64 ≤
        (t.startFrame + t.frameCount - f.currentFrame) * frameSize64 :=
      Nat.mul_le_mul_right _ (by rw [VfsFile.nextFrame_currentFrame]; omega)
    have hbuf : f.nextFrame.bytesBuffered = f.bytesBuffered := rfl
    omega
  · intro hne hcur
    rw [VfsFile.nextFrame_currentFrame] at hcur
    exact h.skips hne (by omega)

section TakeFrame

variable {data : Bytes} (hr : Ready t f) (hempty : f.pending = [])
  (hcur : f.currentFrame < t.startFrame + t.frameCount)
  (hdata : t.frameData f.currentFrame = some data)
include hr hempty hdata

omit hr hempty hdata in
theorem takeFrame_position (f : VfsFile) (data : Bytes) :
    (takeFrame f data).position = f.position := (skipAfterSeek_frame _).2.1

omit hr hempty hdata in
theorem takeFrame_audioFrom (f : VfsFile) (data : Bytes) :
    audioFrom t (takeFrame f data) = audioFrom t f := by
  rw [audioFrom, takeFrame_position, audioFrom]

omit hr hempty hdata in
theorem takeFrame_current (f : VfsFile) (data : Bytes) :
    (takeFrame f data).currentFrame = f.currentFrame + 1 := by
  rw [takeFrame, skipAfterSeek_currentFrame]
  rfl

include hcur in
theorem HasRoom.takeFrame (h : HasRoom t f) (hfit : t.FramesFit) :
    HasRoom t (takeFrame f data) := by
  obtain ⟨hbuf, hpend, hskip⟩ := takeFrame_lengths hr hdata
  have hframe : (t.frameColumns f.currentFrame).length ≤ frameSize64 := by
    rw [Track.frameColumns, hdata, Option.getD_some, columnsOf_length]
    exact hfit _ hr.start_le hcur data hdata
  constructor
  · intro hpos
    rw [takeFrame_position] at hpos
    have hroom := h.room hpos
    rw [takeFrame_audioFrom, hpend, hskip]
    rw [hempty, List.length_nil] at hroom
    -- the blocks the frame fills and those still ahead
    have hgroups : (f.bytesBuffered + (t.frameColumns f.currentFrame).length) / dsfBlockSize +
        groupsAhead t (Vfs.takeFrame f data) ≤ groupsAhead t f := by
      have hleft : (t.startFrame + t.frameCount - f.currentFrame) * frameSize64 =
          (t.startFrame + t.frameCount - (f.currentFrame + 1)) * frameSize64 + frameSize64 := by
        rw [← Nat.succ_mul]
        congr 1
        omega
      unfold groupsAhead
      rw [hbuf, takeFrame_current, hleft]
      unfold dsfBlockSize frameSize64 at *
      omega
    have hbytes := Nat.mul_le_mul_right t.groupSize hgroups
    rw [Nat.add_mul] at hbytes
    omega
  · intro hne _
    have hpos : 0 < (Vfs.takeFrame f data).pending.length := List.length_pos_of_ne_nil hne
    omega

theorem EndsInside.takeFrame {threads : Bool} (h : EndsInside t threads f f.currentFrame) :
    EndsInside t threads (takeFrame f data) (takeFrame f data).currentFrame := by
  obtain ⟨hbuf, hpend, hskip⟩ := takeFrame_lengths hr hdata
  intro e he
  have hahead := he.ahead
  rw [takeFrame_current] at hahead
  have hfrom : EndsAt t threads f.currentFrame e := by
    refine ⟨by omega, he.ends, fun k hk hke => ?_⟩
    obtain rfl | hlt := Nat.eq_or_lt_of_le hk
    · exact ⟨data, hdata⟩
    · exact he.decodes k (by rw [takeFrame_current]; exact hlt) hke
  have hend := h e hfrom
  have hsum : columnsTo t f f.currentFrame e =
      f.bytesBuffered + (t.frameColumns f.currentFrame).length +
        t.columns (f.currentFrame + 1) e := by
    rw [columnsTo, t.columns_step (by omega), Nat.add_assoc]
  have hrest : columnsTo t (Vfs.takeFrame f data) (Vfs.takeFrame f data).currentFrame e =
      (f.bytesBuffered + (t.frameColumns f.currentFrame).length) % dsfBlockSize +
        t.columns (f.currentFrame + 1) e := by
    rw [columnsTo, hbuf, takeFrame_current]
  have hblocks : columnsTo t f f.currentFrame e / dsfBlockSize =
      (f.bytesBuffered + (t.frameColumns f.currentFrame).length) / dsfBlockSize +
        columnsTo t (Vfs.takeFrame f data) (Vfs.takeFrame f data).currentFrame e /
          dsfBlockSize := by
    rw [hsum, hrest]
    unfold dsfBlockSize
    omega
  have htail : flushedTail t (Vfs.takeFrame f data) (Vfs.takeFrame f data).currentFrame e =
      flushedTail t f f.currentFrame e := by
    unfold flushedTail
    rw [hsum, hrest]
    congr 1
    unfold dsfBlockSize
    rw [eq_iff_iff]
    omega
  unfold audioEnd at hend ⊢
  rw [hempty, List.length_nil, hblocks, Nat.add_mul] at hend
  rw [takeFrame_audioFrom, hpend, hskip, htail]
  omega

end TakeFrame

section Flush

variable (hr : Ready t f) (hempty : f.pending = []) (hbuf : 0 < f.bytesBuffered)
include hr hbuf

omit hr hbuf in
theorem flush_audioFrom (f : VfsFile) : audioFrom t (flushBlockBuffers f) = audioFrom t f := by
  rw [audioFrom, (flushBlockBuffers_frame f).2.1, audioFrom]

/-- At the end of the audio there is the padded block, and nothing to skip comes off it. -/
theorem audioEnd_here : audioEnd t f f.currentFrame f.currentFrame =
    audioFrom t f + f.pending.length + t.groupSize := by
  have hlt := hr.buffered_lt
  rw [audioEnd, flushedTail, columnsTo, t.columns_self, Nat.add_zero, Nat.div_eq_of_lt hlt,
    Nat.zero_mul, Nat.zero_sub, if_neg (by rw [Nat.mod_eq_of_lt hlt]; omega), Nat.add_zero]

include hempty in
theorem flush_pending (threads : Bool) (h : EndsInside t threads f f.currentFrame)
    (hend : EndsAt t threads f.currentFrame f.currentFrame) :
    audioFrom t (flushBlockBuffers f) + (flushBlockBuffers f).pending.length ≤
      t.info.totalSize := by
  have hhere := h _ hend
  rw [audioEnd_here hr hbuf, hempty, List.length_nil] at hhere
  rw [flush_audioFrom, (flushBlockBuffers_lengths hr hbuf).1]
  omega

include hempty in
theorem HasRoom.flush (h : HasRoom t f) (hend : t.startFrame + t.frameCount ≤ f.currentFrame) :
    HasRoom t (flushBlockBuffers f) := by
  obtain ⟨hpend, hzero⟩ := flushBlockBuffers_lengths hr hbuf
  obtain ⟨-, hpos, hcur, -, -, -⟩ := flushBlockBuffers_frame f
  have hskip : (flushBlockBuffers f).seekSkipBytes = f.seekSkipBytes := by
    rw [flushBlockBuffers, if_pos hbuf]
    rfl
  constructor
  · intro hlt
    rw [hpos] at hlt
    have hroom := h.room hlt
    have hone : groupsAhead t f = 1 := by
      have hlt := hr.buffered_lt
      unfold groupsAhead
      rw [Nat.sub_eq_zero_of_le hend, Nat.zero_mul]
      unfold dsfBlockSize at *
      omega
    have hnone : groupsAhead t (flushBlockBuffers f) = 0 := by
      unfold groupsAhead
      rw [hzero, hcur, Nat.sub_eq_zero_of_le hend, Nat.zero_mul]
      rfl
    rw [hone, hempty, List.length_nil] at hroom
    rw [flush_audioFrom, hpend, hnone, hskip]
    omega
  · intro _ hlt
    rw [hcur] at hlt
    omega

end Flush

end

/-! ## The loops

A read goes on either inside the file, whatever the audio does, or with audio that ends
inside the file. -/

structure Going (t : Track) (threads : Bool) (f : VfsFile) (size : Nat) : Prop where
  ready : Ready t f
  room : HasRoom t f
  header : (generateDsfHeader t.info).length ≤ f.position
  inFile : f.position ≤ t.info.totalSize
  bounded : f.position + size ≤ t.info.totalSize ∨ EndsInside t threads f f.currentFrame

/-- What the audio reader leaves of a request for `size` bytes behind `totalRead`. -/
structure LoopRead (t : Track) (f : VfsFile) (size : Nat) (totalRead : Bytes) (r : ReadResult) :
    Prop where
  position : r.file.position + totalRead.length = f.position + r.data.length
  short : r.data.length ≤ totalRead.length + size
  inFile : r.file.position ≤ t.info.totalSize
  error : r.status ≠ .ok → r.data = []

/-- An audio read of `size` bytes stays inside the file, `next` being where its frames go on. -/
def Bounded (t : Track) (threads : Bool) (next : Nat → Prop) (f : VfsFile) (size : Nat) : Prop :=
  f.audioEarlyEof = true ∨ t.info.metadataOffset ≤ f.position ∨
    (t.FramesFit ∧
      (f.position + size ≤ t.info.totalSize ∨ ∀ n, next n → EndsInside t threads f n))

/-- The handle between two calls. -/
structure Steady (t : Track) (f : VfsFile) : Prop where
  openedOn : f.OpenedOn t
  audio : f.audioEarlyEof = false → Ready t f ∧ HasRoom t f

section

variable {t : Track} {threads : Bool} {f : VfsFile} {size : Nat}

theorem Going.steady (h : Going t threads f size) : Steady t f :=
  ⟨h.ready.openedOn, fun _ => ⟨h.ready, h.room⟩⟩

/-- All that is on hand ends inside the file, as far as it is asked for. -/
theorem Going.pending_le (h : Going t threads f size) (hpos : f.position < t.info.metadataOffset)
    {k : Nat} (hk : k ≤ f.pending.length) (hsize : k ≤ size) :
    f.position + k ≤ t.info.totalSize := by
  have hfrom : f.position ≤ audioFrom t f := Nat.le_max_left _ _
  have htotal := t.info_totalSize
  obtain hlow | hends := h.bounded
  · omega
  · obtain hend | hcur := Nat.eq_or_lt_of_le h.ready.le_stop
    · have hhere := hends _ ⟨Nat.le_refl _, .inl hend, fun k hk hlt => by omega⟩
      unfold audioEnd at hhere
      omega
    · by_cases hempty : f.pending = []
      · have hin := h.inFile
        rw [hempty, List.length_nil] at hk
        omega
      · have hskip := h.room.skips hempty hcur
        have hroom := h.room.room hpos
        omega

theorem Going.consume (h : Going t threads f size) (hpos : f.position < t.info.metadataOffset)
    {k : Nat} (hk : k ≤ f.pending.length) (hsize : k ≤ size) :
    Going t threads (f.consume k) (size - k) := by
  have hin := h.pending_le hpos hk hsize
  have hnew : (f.consume k).position = f.position + k := rfl
  refine ⟨h.ready.consume hk, h.room.consume h.header hpos hk, ?_, ?_, ?_⟩
  · have hhead := h.header
    omega
  · omega
  · obtain hlow | hends := h.bounded
    · exact .inl (by omega)
    · exact .inr (hends.consume h.header hk)

theorem Going.takeFrame (h : Going t threads f size) (hfit : t.FramesFit)
    (hempty : f.pending = []) (hcur : f.currentFrame < t.startFrame + t.frameCount)
    {data : Bytes} (hdata : t.frameData f.currentFrame = some data) :
    Going t threads (takeFrame f data) size := by
  refine ⟨h.ready.takeFrame hcur data, h.room.takeFrame h.ready hempty hcur hdata hfit, ?_, ?_, ?_⟩
  · rw [takeFrame_position]
    exact h.header
  · rw [takeFrame_position]
    exact h.inFile
  · obtain hlow | hends := h.bounded
    · exact .inl (by rw [takeFrame_position]; exact hlow)
    · exact .inr (hends.takeFrame h.ready hempty hdata)

theorem Going.flush (h : Going t threads f size) (hempty : f.pending = [])
    (hbuf : 0 < f.bytesBuffered) (hend : f.currentFrame = t.startFrame + t.frameCount) :
    Going t threads (flushBlockBuffers f) size := by
  obtain ⟨-, hpos, hcur, -, -, -⟩ := flushBlockBuffers_frame f
  have hr := h.ready.flush hbuf
  refine ⟨hr, h.room.flush h.ready hempty hbuf (Nat.le_of_eq hend.symm), ?_, ?_, ?_⟩
  · rw [hpos]
    exact h.header
  · rw [hpos]
    exact h.inFile
  · obtain hlow | hends := h.bounded
    · exact .inl (by rw [hpos]; exact hlow)
    · right
      intro e he
      have hlast : e = f.currentFrame := by
        have hahead := he.ahead
        rw [hcur] at hahead
        obtain hstop | ⟨-, hlt, -⟩ := he.ends
        · omega
        · omega
      have hin := flush_pending h.ready hempty hbuf threads hends
        ⟨Nat.le_refl _, .inl hend, fun k hk hlt => by omega⟩
      have hzero := (flushBlockBuffers_lengths h.ready hbuf).2
      rw [hlast, hcur, audioEnd, flushedTail, columnsTo, t.columns_self, hzero]
      simpa using hin

/-- The loop ends where it is. -/
theorem Going.ends (h : Going t threads f size) (totalRead : Bytes) (eof : Bool) :
    LoopRead t f size totalRead ⟨.ok, totalRead, { f with audioEarlyEof := eof }⟩ :=
  ⟨rfl, Nat.le_add_right _ _, h.inFile, fun hne => absurd rfl hne⟩

theorem LoopRead.consume {k : Nat} {totalRead part : Bytes} {r : ReadResult}
    (h : LoopRead t (f.consume k) (size - k) (totalRead ++ part) r) (hpart : part.length = k)
    (hk : k ≤ size) : LoopRead t f size totalRead r := by
  have hpos := h.position
  have hshort := h.short
  have hnew : (f.consume k).position = f.position + k := rfl
  rw [List.length_append, hnew] at hpos
  rw [List.length_append] at hshort
  exact ⟨by omega, by omega, h.inFile, h.error⟩

theorem LoopRead.of_position {g : VfsFile} {totalRead : Bytes} {r : ReadResult}
    (h : LoopRead t g size totalRead r) (hpos : g.position = f.position) :
    LoopRead t f size totalRead r :=
  ⟨hpos ▸ h.position, h.short, h.inFile, h.error⟩

theorem Going.going_on {next : Nat → Prop} (h : Going t threads f size) (hfit : t.FramesFit)
    (hnext : ∀ n, next n → n = f.currentFrame) : Bounded t threads next f size := by
  refine .inr (.inr ⟨hfit, ?_⟩)
  obtain hlow | hends := h.bounded
  · exact .inl hlow
  · exact .inr fun n hn => hnext n hn ▸ hends

/-- The next frame of a handle without threads. -/
def atCurrent (f : VfsFile) (n : Nat) : Prop := n = f.currentFrame

theorem readAudioLoop_stays (hfit : t.FramesFit) (f : VfsFile) (size : Nat) (totalRead : Bytes)
    (h : Going t false f size)
    (htaken : totalRead ≠ [] → f.currentFrame < t.startFrame + t.frameCount →
      f.seekSkipBytes = 0) :
    let r := readAudioLoop t f size totalRead
    LoopRead t f size totalRead r ∧ Steady t r.file ∧ (r.data ≠ [] → Bounded t false
      (atCurrent r.file) r.file (size + totalRead.length - r.data.length)) := by
  have hmeta : f.info.metadataOffset = t.info.metadataOffset := by rw [h.ready.openedOn.info]
  have hstop := h.ready.openedOn.stop
  fun_induction readAudioLoop t f size totalRead with
  | case1 f size totalRead hloop hpend toCopy ih =>
    have hlen := h.ready.pending_length
    have hdef : toCopy = min size (f.transformBufferLen - f.transformBufferPos) := rfl
    clear_value toCopy
    have hcopy : toCopy ≤ f.pending.length := by omega
    have hpart : ((f.transformBuffer.drop f.transformBufferPos).take toCopy).length = toCopy := by
      have hle := h.ready.len_le
      rw [List.length_take, List.length_drop]
      omega
    have hne : f.pending ≠ [] := List.ne_nil_of_length_pos (by omega)
    obtain ⟨hread, hsteady, hbounded⟩ := ih (h.consume (by omega) hcopy (by omega))
      (fun _ => h.room.skips hne) hmeta hstop
    refine ⟨hread.consume hpart (by omega), hsteady, fun hdata => ?_⟩
    have hrest := hbounded hdata
    rwa [List.length_append, hpart, show size - toCopy + (totalRead.length + toCopy) =
      size + totalRead.length by omega] at hrest
  | case2 f size totalRead hloop hpend hend hbuf ih =>
    obtain ⟨hinfo, hpos, hcur, hendf, -⟩ := flushBlockBuffers_frame f
    have hle := h.ready.le_stop
    obtain ⟨hread, hsteady, hbounded⟩ := ih
      (h.flush (pending_eq_nil (by omega)) hbuf (by omega)) (fun _ hlt => by omega)
      (by rw [hinfo]; exact hmeta) (by rw [hendf]; exact hstop)
    exact ⟨hread.of_position hpos, hsteady, hbounded⟩
  | case3 f size totalRead hloop hpend hend hbuf =>
    refine ⟨h.ends totalRead f.audioEarlyEof, h.steady, fun _ => ?_⟩
    rw [Nat.add_sub_cancel]
    exact h.going_on hfit fun n hn => hn
  | case4 f size totalRead hloop hpend hend hnone =>
    have hopen := h.ready.openedOn
    exact ⟨h.ends totalRead true, ⟨⟨hopen.info, hopen.header, hopen.headerSize, hopen.start,
      hopen.stop, hopen.decoder⟩, fun heof => Bool.noConfusion heof⟩, fun _ => .inl rfl⟩
  | case5 f size totalRead hloop hpend hend frame hframe f' hdec htotal =>
    have hcur : f.currentFrame < t.startFrame + t.frameCount := by omega
    have hskip := htaken (List.ne_nil_of_length_pos htotal) hcur
    have hopen := h.ready.openedOn
    have hr : Ready t f.nextFrame := ⟨⟨hopen.info, hopen.header, hopen.headerSize, hopen.start,
      hopen.stop, hopen.decoder⟩, h.ready.buffered_lt, h.ready.pos_le, h.ready.len_le,
      Nat.le_succ_of_le h.ready.start_le, hcur, h.ready.noEof⟩
    refine ⟨⟨rfl, Nat.le_add_right _ _, h.inFile, fun hne => absurd rfl hne⟩,
      ⟨hr.openedOn, fun _ => ⟨hr, h.room.nextFrame⟩⟩, fun _ => ?_⟩
    have hnext : EndsInside t false f.nextFrame f.nextFrame.currentFrame :=
      h.room.nextFrame.endsInside hfit hr.start_le (by rw [← hmeta]; exact hloop.2)
        (skipInside_of_zero hskip)
    exact .inr (.inr ⟨hfit, .inr fun n hn => hn ▸ hnext⟩)
  | case6 f size totalRead hloop hpend hend frame hframe f' hdec htotal =>
    have hcur : f.currentFrame < t.startFrame + t.frameCount := by omega
    have hopen := h.ready.openedOn
    have hr : Ready t f.nextFrame := ⟨⟨hopen.info, hopen.header, hopen.headerSize, hopen.start,
      hopen.stop, hopen.decoder⟩, h.ready.buffered_lt, h.ready.pos_le, h.ready.len_le,
      Nat.le_succ_of_le h.ready.start_le, hcur, h.ready.noEof⟩
    have hnil : totalRead = [] := List.eq_nil_of_length_eq_zero (by omega)
    refine ⟨⟨?_, Nat.zero_le _, h.inFile, fun _ => rfl⟩,
      ⟨hr.openedOn, fun _ => ⟨hr, h.room.nextFrame⟩⟩, fun hne => absurd rfl hne⟩
    rw [hnil]
    rfl
  | case7 f size totalRead hloop hpend hend frame hframe f' data hdec ih =>
    have hcur : f.currentFrame < t.startFrame + t.frameCount := by omega
    have hdata : t.frameData f.currentFrame = some data := by
      rw [Track.frameData, hframe, Option.bind_some, ← decodeFrame_eq h.ready.openedOn]
      exact hdec
    have hempty := pending_eq_nil (f := f) (by omega)
    have hgoing := h.takeFrame hfit hempty hcur hdata
    have hskip := (takeFrame_lengths h.ready hdata).2.2
    obtain ⟨hread, hsteady, hbounded⟩ := ih hgoing
      (fun hne _ => by
        have hzero := htaken hne hcur
        show (takeFrame f data).seekSkipBytes = 0
        omega)
      (by rw [← takeFrame, hgoing.ready.openedOn.info]) hgoing.ready.openedOn.stop
    exact ⟨hread.of_position (takeFrame_position f data), hsteady, hbounded⟩
  | case8 f size totalRead hdone =>
    refine ⟨h.ends totalRead f.audioEarlyEof, h.steady, fun _ => ?_⟩
    rw [Nat.add_sub_cancel]
    exact h.going_on hfit fun n hn => hn

end

/-! ### With threads -/

/-- A handle with threads between two calls: `h` takes the frames the queue goes on with. -/
def SteadyMt (t : Track) (f : VfsFile) (p : Pipeline) : Prop :=
  ∃ h frame, f = VfsFile.threaded h frame f.audioEarlyEof ∧ h.OpenedOn t ∧
    (f.audioEarlyEof = false → Ready t h ∧ HasRoom t h ∧ p.Streams t h.currentFrame)

theorem Holds.unique {t : Track} {cur n n' : Nat} {waiting : Bool} {queue : List Slot}
    (h : Holds t cur waiting n queue) (h' : Holds t cur waiting n' queue) : n = n' := by
  induction queue generalizing n n' with
  | nil => exact h.1.trans h'.1.symm
  | cons s rest ih =>
    rcases h with ⟨-, hrest⟩ | ⟨-, rfl, rfl, hn, -⟩
    · rcases h' with ⟨-, hrest'⟩ | ⟨-, rfl, rfl, -⟩
      · exact Nat.succ_injective (ih hrest hrest')
      · exact absurd hrest.2 Bool.noConfusion
    · rcases h' with ⟨-, hrest'⟩ | ⟨-, -, -, hn', -⟩
      · exact absurd hrest'.2 Bool.noConfusion
      · exact hn.trans hn'.symm

theorem vfsDstDecodeFunc_of_undecodable {t : Track} (hdst : t.frameFormat = .dst) {frame : Bytes}
    (h : t.decode frame = none) (n : Nat) :
    (vfsDstDecodeFunc t (Job.frame n frame)).isEof = false ∧
      (vfsDstDecodeFunc t (Job.frame n frame)).errorCode ≠ 0 := by
  rw [Track.decode, if_pos hdst] at h
  refine ⟨vfsDstDecodeFunc_isEof t _, ?_⟩
  cases hdec : t.dstDecode frame with
  | none => simp [vfsDstDecodeFunc, Job.frame, hdec]
  | some decoded =>
    rw [hdec] at h
    simp only at h
    split at h
    · next hzero => simp [vfsDstDecodeFunc, Job.frame, hdec, hzero]
    · cases h

section

variable {t : Track} {p : Pipeline}

theorem steadyMt_ended {h : VfsFile} (hopen : h.OpenedOn t) (frame : Nat) :
    SteadyMt t (h.threaded frame true) p :=
  ⟨h, frame, rfl, hopen, fun heof => Bool.noConfusion heof⟩

/-- Once the sentinel is taken what is on hand is handed out, and no more. -/
theorem readAudioLoopMt_drains (fuel frame : Nat) {h : VfsFile} (size : Nat) (totalRead : Bytes)
    (hr : Ready t h) (hin : h.position ≤ t.info.totalSize)
    (hpend : h.position + min size h.pending.length ≤ t.info.totalSize) (hfuel : size < fuel) :
    Delivers (readAudioLoopMt t fuel (h.threaded frame true) size totalRead) p fun r p' =>
      LoopRead t h size totalRead r ∧ SteadyMt t r.file p' ∧ r.file.audioEarlyEof = true := by
  induction fuel generalizing h size totalRead with
  | zero => omega
  | succ fuel ih =>
    have hlen := hr.pending_length
    have hhere : LoopRead t h size totalRead ⟨.ok, totalRead, h.threaded frame true⟩ :=
      ⟨rfl, Nat.le_add_right _ _, hin, fun hne => absurd rfl hne⟩
    have hend := steadyMt_ended (p := p) hr.openedOn frame
    rw [readAudioLoopMt]
    split
    · next hloop =>
      split
      · next hmore =>
        replace hmore : h.transformBufferPos < h.transformBufferLen := hmore
        have hsize := hloop.1
        obtain ⟨toCopy, hdef⟩ : ∃ k, k = min size (h.transformBufferLen - h.transformBufferPos) :=
          ⟨_, rfl⟩
        have hpart : ((h.transformBuffer.drop h.transformBufferPos).take toCopy).length =
            toCopy := by
          have hle := hr.len_le
          rw [List.length_take, List.length_drop]
          omega
        have hpos : (h.consume toCopy).position = h.position + toCopy := rfl
        have hrest : (h.consume toCopy).pending.length = h.pending.length - toCopy := by
          rw [pending_consume, List.length_drop]
        change Delivers (readAudioLoopMt t fuel ((h.consume (min size
          (h.transformBufferLen - h.transformBufferPos))).threaded frame true)
          (size - min size (h.transformBufferLen - h.transformBufferPos))
          (totalRead ++ (h.transformBuffer.drop h.transformBufferPos).take
            (min size (h.transformBufferLen - h.transformBufferPos)))) p _
        rw [← hdef]
        refine Delivers.mono (ih _ _ (hr.consume (by omega)) (by omega) (by omega) (by omega))
          fun r p' hrest => ⟨hrest.1.consume hpart (by omega), hrest.2⟩
      · rw [if_pos (by exact rfl)]
        exact Delivers.pure ⟨hhere, hend, rfl⟩
    · exact Delivers.pure ⟨hhere, hend, rfl⟩

theorem readAudioLoopMt_stays (hdst : t.frameFormat = .dst) (hfit : t.FramesFit) (fuel frame : Nat)
    {h : VfsFile} (size : Nat) (totalRead : Bytes) (hg : Going t true h size)
    (hp : p.Streams t h.currentFrame)
    (hfuel : size + (t.startFrame + t.frameCount - h.currentFrame) + 2 ≤ fuel) :
    Delivers (readAudioLoopMt t fuel (h.threaded frame false) size totalRead) p fun r p' =>
      LoopRead t h size totalRead r ∧ SteadyMt t r.file p' ∧
        (r.data ≠ [] → Bounded t true (fun n => p'.Streams t n) r.file
          (size + totalRead.length - r.data.length)) := by
  induction fuel generalizing h size totalRead p with
  | zero => omega
  | succ fuel ih =>
    have hr := hg.ready
    have hlen := hr.pending_length
    have hmeta : h.info.metadataOffset = t.info.metadataOffset := by rw [hr.openedOn.info]
    have hhere : ∀ eof, LoopRead t h size totalRead ⟨.ok, totalRead, h.threaded frame eof⟩ :=
      fun _ => ⟨rfl, Nat.le_add_right _ _, hg.inFile, fun hne => absurd rfl hne⟩
    rw [readAudioLoopMt]
    split
    · next hloop =>
      replace hloop : 0 < size ∧ h.position < h.info.metadataOffset := hloop
      have hpos : h.position < t.info.metadataOffset := by
        rw [← hmeta]
        exact hloop.2
      have hsize := hloop.1
      split
      · next hmore =>
        replace hmore : h.transformBufferPos < h.transformBufferLen := hmore
        obtain ⟨toCopy, hdef⟩ : ∃ k, k = min size (h.transformBufferLen - h.transformBufferPos) :=
          ⟨_, rfl⟩
        have hpart : ((h.transformBuffer.drop h.transformBufferPos).take toCopy).length =
            toCopy := by
          have hle := hr.len_le
          rw [List.length_take, List.length_drop]
          omega
        have hcur : (h.consume toCopy).currentFrame = h.currentFrame := rfl
        change Delivers (readAudioLoopMt t fuel ((h.consume (min size
          (h.transformBufferLen - h.transformBufferPos))).threaded frame false)
          (size - min size (h.transformBufferLen - h.transformBufferPos))
          (totalRead ++ (h.transformBuffer.drop h.transformBufferPos).take
            (min size (h.transformBufferLen - h.transformBufferPos)))) p _
        rw [← hdef]
        refine Delivers.mono (ih _ _ (hg.consume hpos (by omega) (by omega)) hp (by omega))
          fun r p' hrest => ⟨hrest.1.consume hpart (by omega), hrest.2.1, fun hne => ?_⟩
        have hbounded := hrest.2.2 hne
        rwa [List.length_append, hpart, show size - toCopy + (totalRead.length + toCopy) =
          size + totalRead.length by omega] at hbounded
      · next hnone =>
        have hempty : h.pending = [] := pending_eq_nil (Nat.le_of_not_lt hnone)
        rw [if_neg (by exact Bool.false_ne_true)]
        refine (nextResultWait_delivers hp).bind fun job p' hjob => ?_
        rcases hjob with ⟨hcur, fr, hframe, rfl, hp'⟩ | ⟨hex, rfl⟩
        · cases hdecode : t.decode fr with
          | none =>
            obtain ⟨heof, herr⟩ := vfsDstDecodeFunc_of_undecodable hdst hdecode h.currentFrame
            rw [if_neg (by rw [heof]; exact Bool.false_ne_true), if_pos (.inl herr)]
            exact Delivers.pure ⟨hhere true, steadyMt_ended hr.openedOn frame, fun _ => .inl rfl⟩
          | some data =>
            obtain ⟨hjob, hne⟩ := vfsDstDecodeFunc_of_decode hdst hdecode h.currentFrame
            have hdata : t.frameData h.currentFrame = some data := by
              rw [Track.frameData, hframe, Option.bind_some, hdecode]
            rw [hjob, if_neg (by exact Bool.false_ne_true), if_neg (by simp [hne]),
              threaded_takeFrame]
            have hnext := ih size totalRead (hg.takeFrame hfit hempty hcur hdata)
              (by rw [takeFrame_current]; exact hp') (by rw [takeFrame_current]; omega)
            exact Delivers.mono hnext fun r p'' hrest =>
              ⟨hrest.1.of_position (takeFrame_position h data), hrest.2⟩
        · have hends : EndsAt t true h.currentFrame h.currentFrame := by
            have hle := hr.le_stop
            refine ⟨Nat.le_refl _, ?_, fun k hk hlt => by omega⟩
            rcases hex with hstop | hunread
            · exact .inl (by omega)
            · obtain hstop | hlt := Nat.eq_or_lt_of_le hle
              · exact .inl hstop
              · exact .inr ⟨rfl, hlt, hunread⟩
          change Delivers (if 0 < h.bytesBuffered then readAudioLoopMt t fuel
            (flushBlockBuffers (h.threaded frame true)) size totalRead
            else pure ⟨.ok, totalRead, h.threaded frame true⟩) p' _
          split
          · next hbuf =>
            have hflushed : (flushBlockBuffers h).position = h.position :=
              (flushBlockBuffers_frame h).2.1
            have hpend : (flushBlockBuffers h).position +
                min size (flushBlockBuffers h).pending.length ≤ t.info.totalSize := by
              obtain hlow | hinside := hg.bounded
              · omega
              · have hin := flush_pending hr hempty hbuf true hinside hends
                have hfrom : (flushBlockBuffers h).position ≤ audioFrom t (flushBlockBuffers h) :=
                  Nat.le_max_left _ _
                omega
            rw [threaded_flush]
            have hdrain := readAudioLoopMt_drains (p := p') fuel frame size totalRead
              (hr.flush hbuf) (by rw [hflushed]; exact hg.inFile) hpend (by omega)
            exact Delivers.mono hdrain fun r p'' hrest =>
              ⟨hrest.1.of_position hflushed, hrest.2.1, fun _ => .inl hrest.2.2⟩
          · exact Delivers.pure ⟨hhere true, steadyMt_ended hr.openedOn frame, fun _ => .inl rfl⟩
    · refine Delivers.pure ⟨hhere false, ⟨h, frame, rfl, hr.openedOn,
        fun _ => ⟨hr, hg.room, hp⟩⟩, fun _ => ?_⟩
      have hbounded : Bounded t true (fun n => p.Streams t n) h size :=
        hg.going_on hfit fun n hn => Holds.unique hn hp
      rw [Nat.add_sub_cancel]
      rcases hbounded with heof | hbounded
      · exact absurd heof (by rw [hr.noEof]; exact Bool.false_ne_true)
      · exact .inr hbounded

end

/-! ## The audio region -/

/-- What a read of the audio region leaves, `steady` and `bounded` being those of the kind of
handle. -/
structure AudioRead (t : Track) (f : VfsFile) (size : Nat) (steady : VfsFile → Prop)
    (bounded : VfsFile → Nat → Prop) (r : ReadResult) : Prop where
  read : LoopRead t f size [] r
  steady : steady r.file
  bounded : r.data ≠ [] ∨ r.file.audioEarlyEof = true → bounded r.file (size - r.data.length)

section

variable {t : Track} {f : VfsFile} {size : Nat}

theorem fillGap_read (hinfo : f.info = t.info) (hpos : f.position < t.info.metadataOffset) :
    ∃ n, (fillGap f size).file = f.advance n ∧ LoopRead t f size [] (fillGap f size) := by
  have htotal := t.info_totalSize
  unfold fillGap
  split
  · exact ⟨0, rfl, rfl, Nat.zero_le _, Nat.le_trans (Nat.le_of_lt hpos) (by omega), fun _ => rfl⟩
  · simp only [hinfo]
    have hlen : (List.replicate (min (t.info.metadataOffset - f.position) size)
        (0x96 : UInt8)).length = min (t.info.metadataOffset - f.position) size :=
      List.length_replicate
    refine ⟨_, rfl, ?_, ?_, ?_, fun hne => absurd rfl hne⟩
    · rw [hlen]
      rfl
    · rw [hlen]
      exact (Nat.min_le_right _ _).trans (Nat.le_add_left _ _)
    · simp only [VfsFile.advance_position]
      omega

theorem Steady.going (h : Steady t f) (heof : f.audioEarlyEof = false)
    (hhead : (generateDsfHeader t.info).length ≤ f.position)
    (hpos : f.position < t.info.metadataOffset) {threads : Bool}
    (hbounded : f.position + size ≤ t.info.totalSize ∨ EndsInside t threads f f.currentFrame) :
    Going t threads f size := by
  obtain ⟨hr, hroom⟩ := h.audio heof
  have htotal := t.info_totalSize
  exact ⟨hr, hroom, hhead, by omega, hbounded⟩

theorem readAudioRegion_stays (h : Steady t f)
    (hhead : (generateDsfHeader t.info).length ≤ f.position)
    (hpos : f.position < t.info.metadataOffset) (hb : Bounded t false (atCurrent f) f size) :
    AudioRead t f size (Steady t) (fun g n => Bounded t false (atCurrent g) g n)
      (readAudioRegion t f size) := by
  have hinfo := h.openedOn.info
  cases heof : f.audioEarlyEof with
  | true =>
    rw [readAudioRegion, if_pos ⟨heof, by rw [hinfo]; exact hpos⟩]
    obtain ⟨n, hfile, hread⟩ : ∃ n, (fillGap f size).file = f.advance n ∧ LoopRead t f size [] _ :=
      fillGap_read hinfo hpos
    have hended : (f.advance n).audioEarlyEof = true := heof
    refine ⟨hread, ?_, fun _ => .inl ?_⟩
    · rw [hfile]
      exact ⟨h.openedOn.advance n, fun hopen => absurd hended (by rw [hopen]; decide)⟩
    · rw [hfile]
      exact hended
  | false =>
    rw [readAudioRegion, if_neg (by simp [heof])]
    rcases hb with hended | hlate | ⟨hfit, hinside⟩
    · rw [heof] at hended
      cases hended
    · omega
    · have hgoing := h.going heof hhead hpos (hinside.imp_right fun hin => hin _ rfl)
      obtain ⟨hread, hsteady, hbounded⟩ := readAudioLoop_stays hfit f size [] hgoing
        (fun hne => absurd rfl hne)
      refine ⟨hread, hsteady, fun hmore => ?_⟩
      rcases hmore with hdata | hended
      · exact hbounded hdata
      · exact .inl hended

theorem readAudioRegionMt_stays {p : Pipeline} (hdst : t.frameFormat = .dst) (h : SteadyMt t f p)
    (hhead : (generateDsfHeader t.info).length ≤ f.position)
    (hpos : f.position < t.info.metadataOffset)
    (hb : Bounded t true (fun n => p.Streams t n) f size) :
    Delivers (readAudioRegionMt t f size) p fun r p' =>
      AudioRead t f size (SteadyMt t · p')
        (fun g n => Bounded t true (fun k => p'.Streams t k) g n) r := by
  obtain ⟨h, frame, hview, hopen, haudio⟩ := h
  have hinfo : f.info = t.info := by
    rw [hview]
    exact hopen.info
  cases heof : f.audioEarlyEof with
  | true =>
    rw [heof] at hview
    rw [readAudioRegionMt, if_pos ⟨heof, by rw [hinfo]; exact hpos⟩]
    obtain ⟨n, hfile, hread⟩ : ∃ n, (fillGap f size).file = f.advance n ∧ LoopRead t f size [] _ :=
      fillGap_read hinfo hpos
    have hended : (f.advance n).audioEarlyEof = true := heof
    refine Delivers.pure ⟨hread, ?_, fun _ => .inl ?_⟩
    · rw [hfile, hview]
      exact steadyMt_ended (hopen.advance n) frame
    · rw [hfile]
      exact hended
  | false =>
    rw [heof] at hview
    obtain ⟨hr, hroom, hp⟩ := haudio heof
    rw [readAudioRegionMt, if_neg (by simp [heof])]
    rcases hb with hended | hlate | ⟨hfit, hinside⟩
    · rw [heof] at hended
      cases hended
    · omega
    · subst hview
      have hsteady : Steady t h := ⟨hopen, fun _ => ⟨hr, hroom⟩⟩
      have hgoing : Going t true h size := hsteady.going hr.noEof hhead hpos
        (hinside.imp_right fun hin => hin _ hp)
      have hlo := hr.start_le
      refine Delivers.mono (readAudioLoopMt_stays hdst hfit (size + t.frameCount + 3) frame size []
        hgoing hp (by omega)) fun r p' hrest =>
          ⟨hrest.1.of_position rfl, hrest.2.1, fun hmore => ?_⟩
      rcases hmore with hdata | hended
      · exact hrest.2.2 hdata
      · exact .inl hended

end

/-! ## Opening and seeking -/

section

variable {t : Track} {f : VfsFile}

/-- Frames of nominal size fill the audio region from any aligned frame on. -/
theorem Repositioned.hasRoom {g : VfsFile} {p frame skip : Nat} (h : Repositioned t g p frame skip)
    (hroom : p < t.info.metadataOffset → max p (generateDsfHeader t.info).length +
      numBlocks (t.startFrame + t.frameCount - frame) * t.groupSize ≤
        t.info.metadataOffset + skip) : HasRoom t g := by
  have hempty : g.pending = [] := pending_eq_nil (by rw [h.pos, h.len])
  refine ⟨fun hpos => ?_, fun hne => absurd hempty hne⟩
  rw [h.position] at hpos
  rw [audioFrom, h.position, hempty, groupsAhead, h.buffered, h.currentFrame, h.skip, Nat.zero_add]
  exact hroom hpos

theorem repositionAudio_room (h : f.OpenedOn t) (p : Nat) :
    Ready t (repositionAudio f p) ∧ HasRoom t (repositionAudio f p) := by
  have hmeta := t.info_metadataOffset
  have haudio := t.info_audioDataSize
  rcases repositionAudio_cases h p with ⟨hhead, hr⟩ | ⟨hlo, hhi, g, hgdef, hg, hr⟩ | ⟨hlo, hr⟩
  · refine ⟨hr.ready (Nat.le_refl _) (Nat.le_add_right _ _), hr.hasRoom fun _ => ?_⟩
    rw [Nat.add_sub_cancel_left]
    omega
  · refine ⟨hr.ready (Nat.le_add_right _ _) (by omega), hr.hasRoom fun _ => ?_⟩
    have hblocks : numBlocks (t.startFrame + t.frameCount -
        (t.startFrame + g * frameBlockAlignment)) + g * 147 = numBlocks t.frameCount := by
      unfold numBlocks frameBlockAlignment frameSize64 dsfBlockSize at *
      omega
    have hbytes := congrArg (· * t.groupSize) hblocks
    simp only [Nat.add_mul] at hbytes
    have hout : g * outputPerAlignment t.channelCount = g * 147 * t.groupSize := by
      rw [outputPerAlignment_eq, Track.groupSize, Nat.mul_assoc]
    have hle : g * outputPerAlignment t.channelCount ≤ p - (generateDsfHeader t.info).length := by
      rw [hgdef]
      exact Nat.div_mul_le_self _ _
    omega
  · exact ⟨hr.ready (Nat.le_add_right _ _) (Nat.le_refl _), hr.hasRoom fun hlt => by omega⟩

theorem repositionAudio_steady (h : f.OpenedOn t) (p : Nat) : Steady t (repositionAudio f p) :=
  ⟨repositionAudio_openedOn h p, fun _ => repositionAudio_room h p⟩

theorem sacdVfsFileOpen_steady (t : Track) : Steady t (sacdVfsFileOpen t) := by
  refine ⟨sacdVfsFileOpen_openedOn t, fun _ => ⟨(sacdVfsFileOpen_inStep t).ready, ?_⟩⟩
  have hmeta := t.info_metadataOffset
  have haudio := t.info_audioDataSize
  have hstart : Repositioned t (sacdVfsFileOpen t) 0 t.startFrame 0 :=
    ⟨sacdVfsFileOpen_openedOn t, rfl, rfl, rfl, rfl, rfl, rfl, rfl⟩
  refine hstart.hasRoom fun _ => ?_
  rw [Nat.add_sub_cancel_left]
  omega

theorem repositionAudio_steadyMt {p p' : Pipeline} (h : SteadyMt t f p) (newPos : Nat)
    (hp : p'.Streams t (repositionAudio f newPos).currentFrame) :
    SteadyMt t (repositionAudio f newPos) p' := by
  obtain ⟨h, frame, hview, hopen, -⟩ := h
  rw [hview, threaded_repositionAudio] at hp ⊢
  obtain ⟨hr, hroom⟩ := repositionAudio_room hopen newPos
  exact ⟨_, _, rfl, hr.openedOn, fun _ => ⟨hr, hroom, hp⟩⟩

theorem sacdVfsFileOpenMt_steadyMt (t : Track) :
    SteadyMt t (sacdVfsFileOpenMt t) (Pipeline.start t) := by
  obtain ⟨hopen, haudio⟩ := sacdVfsFileOpen_steady t
  obtain ⟨hr, hroom⟩ := haudio rfl
  exact ⟨sacdVfsFileOpen t, t.startFrame, rfl, hopen, fun _ => ⟨hr, hroom, rfl, rfl⟩⟩

end

end DsdNexus.Vfs
