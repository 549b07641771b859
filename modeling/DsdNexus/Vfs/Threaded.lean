import DsdNexus.Vfs.Pipeline
import DsdNexus.Vfs.RandomAccess

/-! # Handles with and without threads

The two read loops run side by side. They agree while the frames they take
decode, and on an unreadable frame at a block boundary; they part on a frame
that does not decode, on an unreadable one with a partial block buffered, at
the end of audio that falls short of its region, and on a read that starts
while the flushed last block is partly handed out.
-/

namespace DsdNexus.Vfs

open Blocks Scheduled

/-! ## What a read takes from the track -/

/-- The columns of the frames from `n` up to `k`. -/
def Track.columns (t : Track) (n k : Nat) : Nat :=
  ((List.range' n (k - n)).flatMap t.frameColumns).length

/-- Frame `n` is read and decoded. -/
def Track.Decodes (t : Track) (n : Nat) : Prop := ∃ data, t.frameData n = some data

/-- The bytes on hand once the frames before `n` are taken. -/
def available (t : Track) (f : VfsFile) (n : Nat) : Nat :=
  f.pending.length +
    ((f.bytesBuffered + t.columns f.currentFrame n) / dsfBlockSize * t.groupSize - f.seekSkipBytes)

/-- Bytes of the padded block group behind the frames before `n`. -/
def paddedTail (t : Track) (f : VfsFile) (n : Nat) : Nat :=
  if (f.bytesBuffered + t.columns f.currentFrame n) % dsfBlockSize = 0 then 0 else t.groupSize

/-- Handing out `wanted` audio bytes takes frame `n`. -/
structure Takes (t : Track) (f : VfsFile) (wanted n : Nat) : Prop where
  ahead : f.currentFrame ≤ n
  inTrack : n < t.startFrame + t.frameCount
  short : available t f n < wanted
  before : ∀ k, f.currentFrame ≤ k → k < n → t.Decodes k

/-- The audio bytes a read of `size` bytes asks for. -/
def wanted (t : Track) (f : VfsFile) (size : Nat) : Nat :=
  min (f.position + size) t.info.metadataOffset - max f.position (generateDsfHeader t.info).length

/-- The frames that are taken decode, or end the audio at a block boundary; and
where all frames decode there is enough audio. -/
structure Supplied (t : Track) (f : VfsFile) (wanted : Nat) : Prop where
  frames : ∀ n, Takes t f wanted n → t.Decodes n ∨
    (t.soundData n = none ∧ (f.bytesBuffered + t.columns f.currentFrame n) % dsfBlockSize = 0)
  enough : (∀ k, f.currentFrame ≤ k → k < t.startFrame + t.frameCount → t.Decodes k) →
    wanted ≤ available t f (t.startFrame + t.frameCount) +
      paddedTail t f (t.startFrame + t.frameCount)

/-- A part of the flushed last block is still to be handed out; `restart` is the
frame the last seek went to. -/
def HoldsFlushed (t : Track) (restart : Nat) (f : VfsFile) : Prop :=
  t.startFrame + t.frameCount ≤ f.currentFrame ∧ f.bytesBuffered = 0 ∧ f.pending ≠ [] ∧
    t.columns restart (t.startFrame + t.frameCount) % dsfBlockSize ≠ 0

/-- A read the two kinds of handle answer alike. -/
def ReadsAlike (t : Track) (restart : Nat) (f : VfsFile) (size : Nat) : Prop :=
  f.audioEarlyEof = false → Supplied t f (wanted t f size) ∧
    (0 < wanted t f size → ¬ HoldsFlushed t restart f)

def Op.Alike (t : Track) (restart : Nat) (f : VfsFile) : Op → Prop
  | .seek _ _ => True
  | .read size => ReadsAlike t restart f size

/-- The frame the last seek that moved the position went to. -/
def Op.restart (f : VfsFile) (restart : Nat) : Op → Nat
  | .seek offset whence =>
    if (fileSeek f offset whence).2.position = f.position then restart
    else (fileSeek f offset whence).2.currentFrame
  | .read _ => restart

/-- Every read of the run is one the two kinds of handle answer alike. -/
def RunsAlike (t : Track) : Nat → VfsFile → List Op → Prop
  | _, _, [] => True
  | restart, f, op :: ops =>
    op.Alike t restart f ∧ RunsAlike t (op.restart f restart) (op.run t f) ops

/-! ### Bookkeeping -/

theorem Track.columns_self (t : Track) (n : Nat) : t.columns n n = 0 := by
  simp [Track.columns]

theorem Track.columns_step (t : Track) {n k : Nat} (h : n < k) :
    t.columns n k = (t.frameColumns n).length + t.columns (n + 1) k := by
  rw [Track.columns, show k - n = (k - (n + 1)) + 1 by omega, List.range'_succ, List.flatMap_cons,
    List.length_append, Track.columns]

theorem Track.columns_succ (t : Track) {n k : Nat} (h : n ≤ k) :
    t.columns n (k + 1) = t.columns n k + (t.frameColumns k).length := by
  rw [Track.columns, show k + 1 - n = (k - n) + 1 by omega, List.range'_concat, List.flatMap_append,
    List.length_append, Track.columns, show n + 1 * (k - n) = k by omega]
  simp

/-- What a frame leaves: its complete blocks less the bytes to skip, and the rest. -/
theorem takeFrame_lengths {t : Track} {f : VfsFile} (h : Ready t f) {data : Bytes}
    (hdata : t.frameData f.currentFrame = some data) :
    (takeFrame f data).bytesBuffered =
        (f.bytesBuffered + (t.frameColumns f.currentFrame).length) % dsfBlockSize ∧
      (takeFrame f data).pending.length =
        (f.bytesBuffered + (t.frameColumns f.currentFrame).length) / dsfBlockSize * t.groupSize -
          f.seekSkipBytes ∧
      (takeFrame f data).seekSkipBytes = f.seekSkipBytes -
        (f.bytesBuffered + (t.frameColumns f.currentFrame).length) / dsfBlockSize * t.groupSize := by
  have hb : f.nextFrame.bytesBuffered < dsfBlockSize := h.buffered_lt
  have hspec := transformDsdFrame_spec data hb
  have hcols : columnsOf f.info.channelCount data = t.frameColumns f.currentFrame := by
    rw [Track.frameColumns, hdata, Option.getD_some, h.channelCount]
  have hlen : (transformDsdFrame f.nextFrame data).transformBuffer.length =
      (f.bytesBuffered + (t.frameColumns f.currentFrame).length) / dsfBlockSize * t.groupSize := by
    have hbuf : (transformDsdFrame f.nextFrame data).transformBuffer =
        t.emit (fullBlocks dsfBlockSize (f.buffered ++ t.frameColumns f.currentFrame)) := by
      rw [hspec.transformBuffer, ← hcols, Track.emit, ← h.channelCount]
      rfl
    rw [hbuf, t.emit_length (fun b hb => length_of_mem_fullBlocks hb),
      fullBlocks_length (by decide), List.length_append, f.buffered_length]
    rfl
  have hrest : (transformDsdFrame f.nextFrame data).bytesBuffered =
      (f.bytesBuffered + (t.frameColumns f.currentFrame).length) % dsfBlockSize := by
    rw [← VfsFile.buffered_length, hspec.buffered, remainder_length, List.length_append,
      VfsFile.buffered_length, ← hcols]
    rfl
  have hskip : (transformDsdFrame f.nextFrame data).seekSkipBytes = f.seekSkipBytes := rfl
  have hpend := congrArg List.length (skipAfterSeek_spec hspec.pos hspec.len [])
  rw [List.drop_nil, List.append_nil, List.append_nil, List.length_drop, hlen, hskip] at hpend
  refine ⟨?_, hpend, ?_⟩
  · rw [takeFrame, (skipAfterSeek_frame _).2.2.1, hrest]
  · rw [takeFrame, skipAfterSeek]
    split
    · simp only [hspec.len, hlen, hskip]
      omega
    · next hc =>
      rw [hspec.len, hlen, hskip] at hc
      rw [hskip]
      omega

theorem available_consume (t : Track) {f : VfsFile} {k : Nat} (hk : k ≤ f.pending.length) (n : Nat) :
    available t (f.consume k) n = available t f n - k := by
  have hpend : (f.consume k).pending.length = f.pending.length - k := by
    rw [pending_consume, List.length_drop]
  rw [available, available, hpend]
  change f.pending.length - k + ((f.bytesBuffered + t.columns f.currentFrame n) / dsfBlockSize *
    t.groupSize - f.seekSkipBytes) = _
  omega

/-- Taking a frame moves bytes from the track into the buffers and loses none. -/
theorem available_takeFrame {t : Track} {f : VfsFile} (h : Ready t f)
    (hempty : f.pending = []) {data : Bytes} (hdata : t.frameData f.currentFrame = some data) {n : Nat}
    (hn : f.currentFrame < n) :
    available t (takeFrame f data) n = available t f n ∧
      ((takeFrame f data).bytesBuffered + t.columns (takeFrame f data).currentFrame n) %
          dsfBlockSize =
        (f.bytesBuffered + t.columns f.currentFrame n) % dsfBlockSize := by
  obtain ⟨hb, hp, hs⟩ := takeFrame_lengths h hdata
  have hcur : (takeFrame f data).currentFrame = f.currentFrame + 1 := by
    rw [takeFrame, skipAfterSeek_currentFrame]
    rfl
  have hblocks : (f.bytesBuffered + t.columns f.currentFrame n) / dsfBlockSize =
      (f.bytesBuffered + (t.frameColumns f.currentFrame).length) / dsfBlockSize +
        ((f.bytesBuffered + (t.frameColumns f.currentFrame).length) % dsfBlockSize +
          t.columns (f.currentFrame + 1) n) / dsfBlockSize := by
    rw [t.columns_step hn]
    unfold dsfBlockSize
    omega
  constructor
  · rw [available, available, hb, hp, hs, hcur, hempty, hblocks, Nat.add_mul, List.length_nil]
    omega
  · rw [hb, hcur, t.columns_step hn]
    unfold dsfBlockSize
    omega

theorem flushBlockBuffers_lengths {t : Track} {f : VfsFile} (h : Ready t f)
    (hpos : 0 < f.bytesBuffered) :
    (flushBlockBuffers f).pending.length = t.groupSize ∧ (flushBlockBuffers f).bytesBuffered = 0 := by
  obtain ⟨hbuf, hzero, hp, hl⟩ := flushBlockBuffers_spec hpos h.buffered_lt
  have hlt := h.buffered_lt
  have hlen := f.buffered_length
  have hshort : f.buffered.length < dsfBlockSize := by omega
  have hne : f.buffered ≠ [] := List.ne_nil_of_length_pos (by omega)
  refine ⟨?_, hzero⟩
  rw [pending_eq_transformBuffer hp hl, hbuf, paddedRemainder, remainder_of_short hshort,
    if_neg hne, List.flatMap_singleton, interleave_length, List.length_append,
    List.length_replicate, h.channelCount, Track.groupSize, Nat.mul_comm,
    Nat.add_sub_cancel' (Nat.le_of_lt hshort)]

/-! ### What stays supplied -/

theorem Supplied.consume {t : Track} {f : VfsFile} {w k : Nat} (h : Supplied t f w)
    (hk : k ≤ f.pending.length) : Supplied t (f.consume k) (w - k) := by
  constructor
  · intro n hn
    have hshort := hn.short
    rw [available_consume t hk] at hshort
    exact h.frames n ⟨hn.ahead, hn.inTrack, by omega, hn.before⟩
  · intro hall
    have hen := h.enough hall
    rw [available_consume t hk]
    change w - k ≤ _ + paddedTail t f _
    omega

theorem Supplied.takeFrame {t : Track} {f : VfsFile} {w : Nat} (h : Supplied t f w)
    (hr : Ready t f) (hempty : f.pending = []) {data : Bytes}
    (hdata : t.frameData f.currentFrame = some data)
    (hcur : f.currentFrame < t.startFrame + t.frameCount) : Supplied t (takeFrame f data) w := by
  have hnext : (Vfs.takeFrame f data).currentFrame = f.currentFrame + 1 := by
    rw [Vfs.takeFrame, skipAfterSeek_currentFrame]
    rfl
  constructor
  · intro n hn
    have hahead := hn.ahead
    rw [hnext] at hahead
    obtain ⟨hav, hmod⟩ := available_takeFrame hr hempty hdata (n := n) (by omega)
    rw [hmod]
    refine h.frames n ⟨by omega, hn.inTrack, by rw [← hav]; exact hn.short, fun k hk hkn => ?_⟩
    by_cases hke : k = f.currentFrame
    · exact ⟨data, by rw [hke]; exact hdata⟩
    · exact hn.before k (by rw [hnext]; omega) hkn
  · intro hall
    obtain ⟨hav, hmod⟩ := available_takeFrame hr hempty hdata hcur
    rw [hav, paddedTail, hmod]
    refine h.enough fun k hk hkn => ?_
    by_cases hke : k = f.currentFrame
    · exact ⟨data, by rw [hke]; exact hdata⟩
    · exact hall k (by rw [hnext]; omega) hkn

theorem Supplied.flush {t : Track} {f : VfsFile} {w : Nat} (h : Supplied t f w) (hr : Ready t f)
    (hempty : f.pending = []) (hend : t.startFrame + t.frameCount ≤ f.currentFrame)
    (hpos : 0 < f.bytesBuffered) : Supplied t (flushBlockBuffers f) w := by
  obtain ⟨hp, hzero⟩ := flushBlockBuffers_lengths hr hpos
  have hcur : (flushBlockBuffers f).currentFrame = f.currentFrame := (flushBlockBuffers_frame f).2.2.1
  have hcols : t.columns f.currentFrame (t.startFrame + t.frameCount) = 0 := by
    rw [Track.columns, Nat.sub_eq_zero_of_le hend]
    rfl
  have hlt := hr.buffered_lt
  have hdiv : f.bytesBuffered / dsfBlockSize = 0 := Nat.div_eq_of_lt hlt
  constructor
  · intro n hn
    have hahead := hn.ahead
    have hin := hn.inTrack
    omega
  · intro _
    have hen := h.enough fun k hk hkn => by omega
    rw [available, paddedTail, hcols, Nat.add_zero, hdiv, hempty, List.length_nil, Nat.zero_mul] at hen
    rw [available, hp]
    split at hen <;> omega

theorem supplied_zero (t : Track) (f : VfsFile) : Supplied t f 0 :=
  ⟨fun _ hn => absurd hn.short (Nat.not_lt_zero _), fun _ => Nat.zero_le _⟩

/-! ## The two handles side by side -/

/-- The handle with threads that goes with `f`: the decoder is gone, the frame
is the one of the last seek, and the end of the audio may be noted earlier. -/
def VfsFile.threaded (f : VfsFile) (frame : Nat) (eof : Bool) : VfsFile :=
  { f with dstDecoder := false, currentFrame := frame, audioEarlyEof := eof }

/-- Both handles are inside the audio: the queue goes on where the reads without
threads are, or the sentinel is taken and the last block flushed. -/
structure Live (t : Track) (restart : Nat) (f : VfsFile) (eof : Bool) (p : Pipeline) : Prop where
  ready : Ready t f
  source : (eof = false ∧ p.Streams t f.currentFrame ∧ restart ≤ f.currentFrame ∧
      f.bytesBuffered = t.columns restart f.currentFrame % dsfBlockSize) ∨
    (eof = true ∧ t.startFrame + t.frameCount ≤ f.currentFrame ∧ f.bytesBuffered = 0 ∧
      t.columns restart (t.startFrame + t.frameCount) % dsfBlockSize ≠ 0)

/-- Both handles have noted the end of the audio and fill with silence. -/
structure Silent (t : Track) (f : VfsFile) (eof : Bool) : Prop where
  openedOn : f.OpenedOn t
  noted : f.audioEarlyEof = true
  noted' : eof = true

def Coupled (t : Track) (restart : Nat) (f : VfsFile) (eof : Bool) (p : Pipeline) : Prop :=
  Live t restart f eof p ∨ Silent t f eof

/-- The threads deliver `r`, on a handle coupled to that of `r`. -/
def Matches (t : Track) (restart : Nat) (r r' : ReadResult) (p : Pipeline) : Prop :=
  ∃ frame eof, r' = ⟨r.status, r.data, r.file.threaded frame eof⟩ ∧ Coupled t restart r.file eof p

theorem Live.consume {t : Track} {restart : Nat} {f : VfsFile} {eof : Bool} {p : Pipeline}
    (h : Live t restart f eof p) {k : Nat} (hk : k ≤ f.pending.length) :
    Live t restart (f.consume k) eof p := ⟨h.ready.consume hk, h.source⟩

/-- The frame without threads takes next is the next result. -/
theorem Live.takeFrame {t : Track} {restart : Nat} {f : VfsFile} {p p' : Pipeline}
    (h : Live t restart f false p) {data : Bytes} (hdata : t.frameData f.currentFrame = some data)
    (hcur : f.currentFrame < t.startFrame + t.frameCount)
    (hp : p'.Streams t (f.currentFrame + 1)) : Live t restart (takeFrame f data) false p' := by
  have hnext : (Vfs.takeFrame f data).currentFrame = f.currentFrame + 1 := by
    rw [Vfs.takeFrame, skipAfterSeek_currentFrame]
    rfl
  refine ⟨h.ready.takeFrame hcur data, Or.inl ⟨rfl, by rw [hnext]; exact hp, ?_, ?_⟩⟩
  · rcases h.source with ⟨-, -, hle, -⟩ | ⟨heof, -⟩
    · omega
    · cases heof
  · rcases h.source with ⟨-, -, hle, hb⟩ | ⟨heof, -⟩
    · rw [(takeFrame_lengths h.ready hdata).1, hnext, t.columns_succ hle, hb]
      unfold dsfBlockSize
      omega
    · cases heof

theorem Live.flush {t : Track} {restart : Nat} {f : VfsFile} {p q : Pipeline}
    (h : Live t restart f false p) (hend : t.startFrame + t.frameCount ≤ f.currentFrame)
    (hpos : 0 < f.bytesBuffered) : Live t restart (flushBlockBuffers f) true q := by
  have hcur : (flushBlockBuffers f).currentFrame = f.currentFrame := (flushBlockBuffers_frame f).2.2.1
  refine ⟨h.ready.flush hpos, Or.inr ⟨rfl, by omega, (flushBlockBuffers_lengths h.ready hpos).2, ?_⟩⟩
  have hstop : f.currentFrame = t.startFrame + t.frameCount := Nat.le_antisymm h.ready.le_stop hend
  rcases h.source with ⟨-, -, -, hb⟩ | ⟨heof, -⟩
  · rw [hstop] at hb
    omega
  · cases heof

/-! ### A job and its frame -/

theorem vfsDstDecodeFunc_of_decode {t : Track} (hdst : t.frameFormat = .dst) {frame data : Bytes}
    (h : t.decode frame = some data) (n : Nat) :
    vfsDstDecodeFunc t (Job.frame n frame) = ⟨n, frame, false, data, 0⟩ ∧ data.length ≠ 0 := by
  rw [Track.decode, if_pos hdst] at h
  cases hdec : t.dstDecode frame with
  | none =>
    rw [hdec] at h
    cases h
  | some decoded =>
    rw [hdec] at h
    simp only at h
    split at h
    · cases h
    · next hne =>
      obtain rfl : decoded = data := by simpa using h
      exact ⟨by simp [vfsDstDecodeFunc, Job.frame, hdec, hne], hne⟩

theorem threaded_takeFrame (f : VfsFile) (frame : Nat) (eof : Bool) (data : Bytes) :
    skipAfterSeek (transformDsdFrame (f.threaded frame eof) data) =
      (takeFrame f data).threaded frame eof := by
  rw [takeFrame]
  unfold skipAfterSeek
  split
  · next hc => rw [if_pos (by exact hc)]; rfl
  · next hc => rw [if_neg (by exact hc)]; rfl

theorem threaded_flush (f : VfsFile) (frame : Nat) (eof : Bool) :
    flushBlockBuffers (f.threaded frame eof) = (flushBlockBuffers f).threaded frame eof := by
  unfold flushBlockBuffers
  split
  · next hc => rw [if_pos (by exact hc)]; rfl
  · next hc => rw [if_neg (by exact hc)]

/-! ### The loops -/

/-- A result of an audio read that stored all it could. -/
def Settles (t : Track) (r : ReadResult) (size : Nat) (totalRead : Bytes) : Prop :=
  r.status = .ok ∧ (r.file.audioEarlyEof = false →
    totalRead.length + size ≤ r.data.length ∨ t.info.metadataOffset ≤ r.file.position)

theorem Live.metadataOffset {t : Track} {restart : Nat} {f : VfsFile} {eof : Bool} {p : Pipeline}
    (h : Live t restart f eof p) : f.info.metadataOffset = t.info.metadataOffset := by
  rw [h.ready.openedOn.info]

theorem Live.endFrame {t : Track} {restart : Nat} {f : VfsFile} {eof : Bool} {p : Pipeline}
    (h : Live t restart f eof p) : f.endFrame = t.startFrame + t.frameCount := h.ready.openedOn.stop

/-- Inside the track the threads have not noted the end. -/
theorem Live.eof_false {t : Track} {restart : Nat} {f : VfsFile} {eof : Bool} {p : Pipeline}
    (h : Live t restart f eof p) (hopen : f.currentFrame < t.startFrame + t.frameCount ∨
      0 < f.bytesBuffered) : eof = false ∧ p.Streams t f.currentFrame := by
  rcases h.source with ⟨heof, hp, -⟩ | ⟨-, hend, hb, -⟩
  · exact ⟨heof, hp⟩
  · omega

theorem takes_current {t : Track} {restart : Nat} {f : VfsFile} {eof : Bool} {p : Pipeline}
    (h : Live t restart f eof p) (hempty : f.pending = []) {w : Nat} (hw : 0 < w)
    (hcur : f.currentFrame < t.startFrame + t.frameCount) : Takes t f w f.currentFrame := by
  refine ⟨Nat.le_refl _, hcur, ?_, fun k hk hkn => by omega⟩
  rw [available, hempty, t.columns_self, Nat.add_zero, Nat.div_eq_of_lt h.ready.buffered_lt,
    Nat.zero_mul, Nat.zero_sub]
  exact hw

/-- Supplied at the end of the track, with nothing on hand, nothing is wanted. -/
theorem Supplied.exhausted {t : Track} {f : VfsFile} {w : Nat} (h : Supplied t f w)
    (hempty : f.pending = []) (hend : t.startFrame + t.frameCount ≤ f.currentFrame)
    (hb : f.bytesBuffered = 0) : w = 0 := by
  have hen := h.enough fun k hk hkn => by omega
  have hcols : t.columns f.currentFrame (t.startFrame + t.frameCount) = 0 := by
    rw [Track.columns, Nat.sub_eq_zero_of_le hend]
    rfl
  rw [available, paddedTail, hempty, hcols, hb] at hen
  simpa using hen

/-- Turn by turn the two loops store the same bytes. -/
theorem readAudioLoopMt_delivers {t : Track} (hdst : t.frameFormat = .dst) {restart : Nat}
    (f : VfsFile) (size : Nat) (totalRead : Bytes) (fuel frame : Nat) {eof : Bool} {p : Pipeline}
    (h : Live t restart f eof p)
    (hs : Supplied t f (min size (t.info.metadataOffset - f.position)))
    (hfuel : size + (t.startFrame + t.frameCount - f.currentFrame) + (if eof then 1 else 2) ≤ fuel) :
    Settles t (readAudioLoop t f size totalRead) size totalRead ∧
      Delivers (readAudioLoopMt t fuel (f.threaded frame eof) size totalRead) p
        (Matches t restart (readAudioLoop t f size totalRead)) := by
  have hmeta := h.metadataOffset
  have hstop := h.endFrame
  fun_induction readAudioLoop t f size totalRead generalizing fuel frame eof p with
  | case1 f size totalRead hloop hpend toCopy =>
    rename_i ih
    obtain ⟨fuel, rfl⟩ : ∃ k, fuel = k + 1 := ⟨fuel - 1, by split at hfuel <;> omega⟩
    have hlen := h.ready.pending_length
    have hdef : toCopy = min size (f.transformBufferLen - f.transformBufferPos) := rfl
    clear_value toCopy
    have hcopy : toCopy ≤ f.pending.length := by omega
    have hposc : (f.consume toCopy).position = f.position + toCopy := rfl
    have hwant : min (size - toCopy) (t.info.metadataOffset - (f.consume toCopy).position) =
        min size (t.info.metadataOffset - f.position) - toCopy := by omega
    have hs' : Supplied t (f.consume toCopy)
        (min (size - toCopy) (t.info.metadataOffset - (f.consume toCopy).position)) := by
      rw [hwant]
      exact hs.consume hcopy
    have hstep := ih fuel frame (h.consume hcopy) hs'
      (by rw [show (f.consume toCopy).currentFrame = f.currentFrame from rfl]; omega) hmeta hstop
    refine ⟨⟨hstep.1.1, fun heof => ?_⟩, ?_⟩
    · rcases hstep.1.2 heof with hsize | hpos
      · left
        rw [List.length_append, List.length_take, List.length_drop] at hsize
        have := h.ready.len_le
        omega
      · exact Or.inr hpos
    · subst hdef
      rw [readAudioLoopMt, if_pos (by exact hloop), if_pos (by exact hpend)]
      exact hstep.2
  | case2 f size totalRead hloop hpend hend hbuf ih =>
    obtain ⟨fuel, rfl⟩ : ∃ k, fuel = k + 1 := ⟨fuel - 1, by split at hfuel <;> omega⟩
    have hempty := pending_eq_nil (f := f) (by omega)
    obtain ⟨rfl, hstream⟩ := h.eof_false (Or.inr hbuf)
    rw [hstop] at hend
    obtain ⟨hinfo, hpos, hcur, hendf, -⟩ := flushBlockBuffers_frame f
    have hs' := hs.flush h.ready hempty hend hbuf
    rw [← hpos] at hs'
    have hrest := fun p' => ih fuel frame (h.flush (q := p') hend hbuf) hs'
      (by rw [hcur]; simp only [Bool.false_eq_true, if_false] at hfuel; simp only [if_true]; omega)
      (by rw [hinfo]; exact hmeta) (by rw [hendf]; exact hstop)
    refine ⟨(hrest p).1, ?_⟩
    rw [readAudioLoopMt, if_pos (by exact hloop), if_neg (by exact hpend),
      if_neg (by exact Bool.false_ne_true)]
    refine (nextResultWait_delivers hstream).bind fun job p' hjob => ?_
    rcases hjob with ⟨hlt, -⟩ | ⟨-, rfl⟩
    · omega
    · change Delivers (if 0 < f.bytesBuffered then readAudioLoopMt t fuel
        (flushBlockBuffers (f.threaded frame true)) size totalRead else _) p' _
      rw [if_pos hbuf, threaded_flush]
      exact (hrest p').2
  | case3 f size totalRead hloop hpend hend hbuf =>
    have hw := hs.exhausted (pending_eq_nil (by omega)) (by rw [← hstop]; exact hend) (by omega)
    omega
  | case4 f size totalRead hloop hpend hend hnone =>
    obtain ⟨fuel, rfl⟩ : ∃ k, fuel = k + 1 := ⟨fuel - 1, by split at hfuel <;> omega⟩
    have hempty := pending_eq_nil (f := f) (by omega)
    obtain ⟨rfl, hstream⟩ := h.eof_false (Or.inl (by omega))
    have htakes := takes_current h hempty (w := min size (t.info.metadataOffset - f.position))
      (by omega) (by omega)
    have hb : f.bytesBuffered = 0 := by
      rcases hs.frames _ htakes with ⟨data, hdata⟩ | ⟨-, hmod⟩
      · rw [Track.frameData, hnone] at hdata
        cases hdata
      · rw [t.columns_self, Nat.add_zero, Nat.mod_eq_of_lt h.ready.buffered_lt] at hmod
        exact hmod
    refine ⟨⟨rfl, fun hf => absurd hf (by simp)⟩, ?_⟩
    rw [readAudioLoopMt, if_pos (by exact hloop), if_neg (by exact hpend),
      if_neg (by exact Bool.false_ne_true)]
    refine (nextResultWait_delivers hstream).bind fun job p' hjob => ?_
    rcases hjob with ⟨-, fr, hfr, -⟩ | ⟨-, rfl⟩
    · rw [hnone] at hfr
      cases hfr
    · change Delivers (if 0 < f.bytesBuffered then _ else
        pure (ReadResult.mk .ok totalRead (f.threaded frame true)) : Threads ReadResult) p' _
      rw [if_neg (by omega)]
      have hopen := h.ready.openedOn
      have hopen' : ({ f with audioEarlyEof := true } : VfsFile).OpenedOn t := ⟨hopen.info,
        hopen.header, hopen.headerSize, hopen.start, hopen.stop, hopen.decoder⟩
      exact Delivers.pure (Q := Matches t restart ⟨.ok, totalRead, { f with audioEarlyEof := true }⟩)
        ⟨frame, true, rfl, Or.inr ⟨hopen', rfl, rfl⟩⟩
  | case5 f size totalRead hloop hpend hend fr hframe f' hdec =>
    have htakes := takes_current h (pending_eq_nil (by omega))
      (w := min size (t.info.metadataOffset - f.position)) (by omega) (by omega)
    rw [decodeFrame_eq h.ready.openedOn] at hdec
    rcases hs.frames _ htakes with ⟨data, hdata⟩ | ⟨hnone, -⟩
    · rw [Track.frameData, hframe, Option.bind_some, hdec] at hdata
      cases hdata
    · rw [hframe] at hnone
      cases hnone
  | case6 f size totalRead hloop hpend hend fr hframe f' hdec =>
    have htakes := takes_current h (pending_eq_nil (by omega))
      (w := min size (t.info.metadataOffset - f.position)) (by omega) (by omega)
    rw [decodeFrame_eq h.ready.openedOn] at hdec
    rcases hs.frames _ htakes with ⟨data, hdata⟩ | ⟨hnone, -⟩
    · rw [Track.frameData, hframe, Option.bind_some, hdec] at hdata
      cases hdata
    · rw [hframe] at hnone
      cases hnone
  | case7 f size totalRead hloop hpend hend fr hframe f' data hdec =>
    rename_i ih
    obtain ⟨fuel, rfl⟩ : ∃ k, fuel = k + 1 := ⟨fuel - 1, by split at hfuel <;> omega⟩
    have hempty := pending_eq_nil (f := f) (by omega)
    have hcur : f.currentFrame < t.startFrame + t.frameCount := by omega
    obtain ⟨rfl, hstream⟩ := h.eof_false (Or.inl hcur)
    have hdecode : t.decode fr = some data := by rw [← decodeFrame_eq h.ready.openedOn]; exact hdec
    have hdata : t.frameData f.currentFrame = some data := by
      rw [Track.frameData, hframe, Option.bind_some, hdecode]
    have hs' : Supplied t (takeFrame f data)
        (min size (t.info.metadataOffset - (takeFrame f data).position)) := by
      rw [show (takeFrame f data).position = f.position from (skipAfterSeek_frame _).2.1]
      exact hs.takeFrame h.ready hempty hdata hcur
    have hnext : (takeFrame f data).currentFrame = f.currentFrame + 1 := by
      rw [takeFrame, skipAfterSeek_currentFrame]
      rfl
    have hrest := fun (p' : Pipeline) (hp' : p'.Streams t (f.currentFrame + 1)) =>
      ih fuel frame (h.takeFrame hdata hcur hp') hs'
        (by rw [← takeFrame, hnext]; simp only [Bool.false_eq_true, if_false] at hfuel ⊢; omega)
        (h.takeFrame hdata hcur hp').metadataOffset (h.takeFrame hdata hcur hp').endFrame
    refine ⟨(hrest ⟨f.currentFrame + 1, false, []⟩ ⟨rfl, rfl⟩).1, ?_⟩
    rw [readAudioLoopMt, if_pos (by exact hloop), if_neg (by exact hpend),
      if_neg (by exact Bool.false_ne_true)]
    refine (nextResultWait_delivers hstream).bind fun job p' hjob => ?_
    rcases hjob with ⟨-, fr', hfr, rfl, hp'⟩ | ⟨hex, -⟩
    · obtain rfl : fr = fr' := by simpa [hframe] using hfr
      obtain ⟨hjob, hne⟩ := vfsDstDecodeFunc_of_decode hdst hdecode f.currentFrame
      rw [hjob, if_neg (by exact Bool.false_ne_true), if_neg (by simp [hne]), threaded_takeFrame]
      exact (hrest p' hp').2
    · rcases hex with hend' | hnone
      · omega
      · rw [hframe] at hnone
        cases hnone
  | case8 f size totalRead hdone =>
    obtain ⟨fuel, rfl⟩ : ∃ k, fuel = k + 1 := ⟨fuel - 1, by split at hfuel <;> omega⟩
    refine ⟨⟨rfl, fun _ => ?_⟩, ?_⟩
    · change totalRead.length + size ≤ totalRead.length ∨ t.info.metadataOffset ≤ f.position
      omega
    · rw [readAudioLoopMt, if_neg (by exact hdone)]
      exact Delivers.pure ⟨frame, eof, rfl, Or.inl h⟩

/-! ### One region after another -/

theorem VfsFile.OpenedOn.advance {t : Track} {f : VfsFile} (h : f.OpenedOn t) (n : Nat) :
    (f.advance n).OpenedOn t :=
  ⟨h.info, h.header, h.headerSize, h.start, h.stop, h.decoder⟩

theorem Coupled.openedOn {t : Track} {restart : Nat} {f : VfsFile} {eof : Bool} {p : Pipeline}
    (h : Coupled t restart f eof p) : f.OpenedOn t :=
  h.elim (fun hl => hl.ready.openedOn) (fun hs => hs.openedOn)

theorem Coupled.advance {t : Track} {restart : Nat} {f : VfsFile} {eof : Bool} {p : Pipeline}
    (h : Coupled t restart f eof p) (n : Nat) : Coupled t restart (f.advance n) eof p := by
  rcases h with h | h
  · exact Or.inl ⟨h.ready.advance n, h.source⟩
  · exact Or.inr ⟨h.openedOn.advance n, h.noted, h.noted'⟩

theorem Supplied.advance {t : Track} {f : VfsFile} {w : Nat} (h : Supplied t f w) (n : Nat) :
    Supplied t (f.advance n) w :=
  ⟨fun k hk => h.frames k ⟨hk.ahead, hk.inTrack, hk.short, hk.before⟩, h.enough⟩

theorem readsAlike_of_wanted_zero {t : Track} {restart : Nat} {f : VfsFile} {size : Nat}
    (h : wanted t f size = 0) : ReadsAlike t restart f size := by
  intro _
  rw [h]
  exact ⟨supplied_zero t f, fun h0 => absurd h0 (Nat.lt_irrefl 0)⟩

/-- After one region the rest of the read is still answered alike; a region that
stored nothing is the end of the audio or of the file. -/
def Turned (t : Track) (restart size : Nat) (r : ReadResult) : Prop :=
  ReadsAlike t restart r.file (size - r.data.length) ∧
    (r.data.length = 0 → r.file.audioEarlyEof = false → t.info.metadataOffset ≤ r.file.position)

section

variable {t : Track} {restart : Nat} {f : VfsFile} {eof : Bool} {p : Pipeline} (frame size : Nat)

theorem readHeaderRegion_turned (h : Coupled t restart f eof p)
    (ha : ReadsAlike t restart f size) (hsize : 0 < size) (hpos : f.position < f.dsfHeaderSize) :
    Turned t restart size (readHeaderRegion f size) ∧
      Matches t restart (readHeaderRegion f size) (readHeaderRegion (f.threaded frame eof) size) p := by
  have hh := h.openedOn
  have hlen : (readHeaderRegion f size).data.length =
      min size ((generateDsfHeader t.info).length - f.position) := by
    simp only [readHeaderRegion, hh.header, hh.headerSize, List.length_take, List.length_drop]
    omega
  have hfile : (readHeaderRegion f size).file =
      f.advance (min size ((generateDsfHeader t.info).length - f.position)) := by
    simp only [readHeaderRegion, hh.headerSize]
  rw [hh.headerSize] at hpos
  refine ⟨⟨?_, fun hz => by omega⟩, ⟨frame, eof, rfl, ?_⟩⟩
  · rw [hlen, hfile]
    have hw : wanted t (f.advance (min size ((generateDsfHeader t.info).length - f.position)))
        (size - min size ((generateDsfHeader t.info).length - f.position)) = wanted t f size := by
      simp only [wanted, VfsFile.advance_position]
      omega
    intro heof
    rw [hw]
    exact ⟨(ha heof).1.advance _, (ha heof).2⟩
  · rw [hfile]
    exact h.advance _

theorem readMetadataRegion_turned (h : Coupled t restart f eof p)
    (hpos : t.info.metadataOffset ≤ f.position) :
    Turned t restart size (readMetadataRegion t f size) ∧
      Matches t restart (readMetadataRegion t f size)
        (readMetadataRegion t (f.threaded frame eof) size) p := by
  have hfile : ∃ n, (readMetadataRegion t f size).file = f.advance n := by
    unfold readMetadataRegion
    split
    · exact ⟨0, rfl⟩
    · split
      · exact ⟨0, rfl⟩
      · simp only
        split
        · exact ⟨0, rfl⟩
        · exact ⟨_, rfl⟩
  obtain ⟨n, hn⟩ := hfile
  have hlate : t.info.metadataOffset ≤ (readMetadataRegion t f size).file.position := by
    rw [hn, VfsFile.advance_position]
    omega
  refine ⟨⟨readsAlike_of_wanted_zero ?_, fun _ _ => hlate⟩, ⟨frame, eof, ?_, ?_⟩⟩
  · rw [wanted]
    omega
  · unfold readMetadataRegion
    rw [show (f.threaded frame eof).info = f.info from rfl]
    split
    · rfl
    · split
      · rfl
      · simp only
        rw [show (f.threaded frame eof).position = f.position from rfl]
        split <;> rfl
  · rw [hn]
    exact h.advance n

theorem readAudioRegionMt_delivers (hdst : t.frameFormat = .dst) (h : Coupled t restart f eof p)
    (ha : ReadsAlike t restart f size) (hsize : 0 < size) (hlo : f.dsfHeaderSize ≤ f.position)
    (hhi : f.position < f.info.metadataOffset) :
    Turned t restart size (readAudioRegion t f size) ∧
      Delivers (readAudioRegionMt t (f.threaded frame eof) size) p
        (Matches t restart (readAudioRegion t f size)) := by
  rcases h with h | h
  · have hh := h.ready.openedOn
    have hw : wanted t f size = min size (t.info.metadataOffset - f.position) := by
      rw [hh.headerSize] at hlo
      rw [wanted]
      omega
    have hwpos : 0 < min size (t.info.metadataOffset - f.position) := by
      rw [hh.info] at hhi
      omega
    obtain ⟨hs, hheld⟩ := ha h.ready.noEof
    rw [hw] at hs hheld
    have heof : eof = false := by
      rcases h.source with ⟨heof, -⟩ | ⟨-, hend, hb, hcols⟩
      · exact heof
      · by_cases hempty : f.pending = []
        · have hz := hs.exhausted hempty hend hb
          omega
        · exact absurd ⟨hend, hb, hempty, hcols⟩ (hheld hwpos)
    subst heof
    have hlow := h.ready.start_le
    obtain ⟨⟨-, hdone⟩, hdel⟩ := readAudioLoopMt_delivers hdst f size [] (size + t.frameCount + 3)
      frame h hs (by simp only [Bool.false_eq_true, if_false]; omega)
    have hst : readAudioRegion t f size = readAudioLoop t f size [] := by
      rw [readAudioRegion, if_neg (by simp [h.ready.noEof])]
    have hmt : readAudioRegionMt t (f.threaded frame false) size =
        readAudioLoopMt t (size + t.frameCount + 3) (f.threaded frame false) size [] := by
      rw [readAudioRegionMt, if_neg (by exact fun hc => Bool.false_ne_true hc.1)]
    rw [hst, hmt]
    refine ⟨⟨fun heof => ?_, fun hz heof => ?_⟩, hdel⟩
    · refine readsAlike_of_wanted_zero ?_ heof
      rcases hdone heof with hfull | hlate
      · rw [List.length_nil] at hfull
        rw [wanted]
        omega
      · rw [wanted]
        omega
    · rcases hdone heof with hfull | hlate
      · rw [List.length_nil] at hfull
        omega
      · exact hlate
  · have hfill : readAudioRegion t f size = fillGap f size := by
      rw [readAudioRegion, if_pos ⟨h.noted, hhi⟩]
    have hfill' : readAudioRegionMt t (f.threaded frame eof) size =
        pure (fillGap (f.threaded frame eof) size) := by
      rw [readAudioRegionMt, if_pos (by exact ⟨h.noted', hhi⟩)]
    have hgap : fillGap f size = ⟨.ok, List.replicate
        (min (f.info.metadataOffset - f.position) size) 0x96,
        f.advance (min (f.info.metadataOffset - f.position) size)⟩ := by
      rw [fillGap, if_neg (by omega)]
    have hgap' : fillGap (f.threaded frame eof) size = ⟨.ok, List.replicate
        (min (f.info.metadataOffset - f.position) size) 0x96,
        (f.advance (min (f.info.metadataOffset - f.position) size)).threaded frame eof⟩ := by
      rw [fillGap, if_neg (by omega)]
      rfl
    rw [hfill, hfill', hgap, hgap']
    have hnoted : ∀ n, (f.advance n).audioEarlyEof = true := fun _ => h.noted
    refine ⟨⟨fun heof => ?_, fun _ heof => ?_⟩, Delivers.pure ⟨frame, eof, rfl, Or.inr
      ⟨h.openedOn.advance _, h.noted, h.noted'⟩⟩⟩
    · rw [hnoted] at heof
      cases heof
    · rw [hnoted] at heof
      cases heof

theorem readRegionMt_delivers (hdst : t.frameFormat = .dst) (h : Coupled t restart f eof p)
    (ha : ReadsAlike t restart f size) (hsize : 0 < size) :
    Turned t restart size (readRegion (m := Id) t (readAudioRegion t) f size) ∧
      Delivers (readRegion t (readAudioRegionMt t) (f.threaded frame eof) size) p
        (Matches t restart (readRegion (m := Id) t (readAudioRegion t) f size)) := by
  have hinfo := h.openedOn.info
  unfold readRegion
  rw [show (f.threaded frame eof).position = f.position from rfl,
    show (f.threaded frame eof).dsfHeaderSize = f.dsfHeaderSize from rfl,
    show (f.threaded frame eof).info = f.info from rfl]
  by_cases hhead : f.position < f.dsfHeaderSize
  · rw [if_pos hhead, if_pos hhead]
    obtain ⟨hturn, hmatch⟩ := readHeaderRegion_turned frame size h ha hsize hhead
    exact ⟨hturn, Delivers.pure hmatch⟩
  · by_cases haudio : f.position < f.info.metadataOffset
    · rw [if_neg hhead, if_neg hhead, if_pos haudio, if_pos haudio]
      exact readAudioRegionMt_delivers frame size hdst h ha hsize (by omega) haudio
    · rw [if_neg hhead, if_neg hhead, if_neg haudio, if_neg haudio]
      rw [hinfo] at haudio
      obtain ⟨hturn, hmatch⟩ := readMetadataRegion_turned frame size h (by omega)
      exact ⟨hturn, Delivers.pure hmatch⟩

end

/-! ### The calls -/

section

variable {t : Track} (hdst : t.frameFormat = .dst)
include hdst

omit hdst in
/-- Two calls that branch alike. -/
theorem matches_ite {restart : Nat} {p : Pipeline} {c : Prop} [Decidable c] {r₁ r₂ : ReadResult}
    {m₁ m₂ : Threads ReadResult} (h₁ : c → Delivers m₁ p (Matches t restart r₁))
    (h₂ : ¬ c → Delivers m₂ p (Matches t restart r₂)) :
    Delivers (if c then m₁ else m₂) p (Matches t restart (if c then r₁ else r₂)) := by
  by_cases hc : c
  · rw [if_pos hc, if_pos hc]
    exact h₁ hc
  · rw [if_neg hc, if_neg hc]
    exact h₂ hc

theorem fileReadLoopMt_delivers {restart : Nat} (fuel frame remaining : Nat) (totalRead : Bytes)
    {f : VfsFile} {eof : Bool} {p : Pipeline} (h : Coupled t restart f eof p)
    (ha : ReadsAlike t restart f remaining) :
    Delivers (fileReadLoop t (readAudioRegionMt t) fuel (f.threaded frame eof) remaining totalRead)
      p (Matches t restart
        (fileReadLoop (m := Id) t (readAudioRegion t) fuel f remaining totalRead)) := by
  induction fuel generalizing f remaining totalRead frame eof p with
  | zero => exact Delivers.pure ⟨frame, eof, rfl, h⟩
  | succ fuel ih =>
    have hinfo := h.openedOn.info
    by_cases hc : 0 < remaining ∧ f.position < f.info.totalSize
    · obtain ⟨⟨hnext, hempty⟩, hdel⟩ := readRegionMt_delivers frame remaining hdst h ha hc.1
      rw [fileReadLoop, fileReadLoop, if_pos hc, if_pos (by exact hc)]
      refine hdel.bind fun r' p' hr => ?_
      change Delivers _ p' (Matches t restart
        (if (readRegion (m := Id) t (readAudioRegion t) f remaining).status ≠ .ok ∧
          (readRegion (m := Id) t (readAudioRegion t) f remaining).status ≠ .eof then _ else _))
      generalize readRegion (m := Id) t (readAudioRegion t) f remaining = r at hnext hempty hr
      obtain ⟨frame', eof', rfl, hcoupled⟩ := hr
      refine matches_ite (fun herr => matches_ite (fun _ => ?_) fun _ => ?_)
        fun herr => matches_ite (fun hz => ?_) fun hz => ?_
      · exact Delivers.pure ⟨frame', eof', rfl, hcoupled⟩
      · exact Delivers.pure ⟨frame', eof', rfl, hcoupled⟩
      · -- the next turn fills the gap, on both handles or on none
        have hsame : (r.file.audioEarlyEof = true ∧ r.file.position < r.file.info.metadataOffset) ↔
            (eof' = true ∧ r.file.position < r.file.info.metadataOffset) := by
          rw [hcoupled.openedOn.info]
          rcases hcoupled with hl | hs
          · have := hempty hz hl.ready.noEof
            omega
          · rw [hs.noted, hs.noted']
        by_cases hgap : r.file.audioEarlyEof = true ∧
            r.file.position < r.file.info.metadataOffset
        · rw [if_pos hgap, if_pos (by exact hsame.mp hgap)]
          exact ih frame' _ _ hcoupled hnext
        · rw [if_neg hgap, if_neg (by exact fun hg => hgap (hsame.mpr hg))]
          exact Delivers.pure ⟨frame', eof', rfl, hcoupled⟩
      · exact ih frame' _ _ hcoupled hnext
    · rw [fileReadLoop, fileReadLoop, if_neg hc, if_neg (by exact hc)]
      exact Delivers.pure ⟨frame, eof, rfl, h⟩

theorem fileReadMt_delivers {restart : Nat} (frame size : Nat) {f : VfsFile} {eof : Bool}
    {p : Pipeline} (h : Coupled t restart f eof p) (ha : ReadsAlike t restart f size) :
    Delivers (sacdVfsFileRead t (readAudioRegionMt t) (f.threaded frame eof) size) p
      (Matches t restart (fileRead t f size)) := by
  rw [fileRead, sacdVfsFileRead, sacdVfsFileRead]
  by_cases hend : f.info.totalSize ≤ f.position
  · rw [if_pos hend, if_pos (by exact hend)]
    exact Delivers.pure ⟨frame, eof, rfl, h⟩
  · rw [if_neg hend, if_neg (by exact hend)]
    exact fileReadLoopMt_delivers hdst _ frame size [] h ha

omit hdst in
theorem threaded_repositionAudio (f : VfsFile) (frame : Nat) (eof : Bool) (newPos : Nat) :
    repositionAudio (f.threaded frame eof) newPos = (repositionAudio f newPos).threaded
      (repositionAudio f newPos).currentFrame (repositionAudio f newPos).audioEarlyEof := by
  by_cases hhead : newPos < f.dsfHeaderSize
  · simp [repositionAudio, VfsFile.threaded, hhead]
  · by_cases haudio : newPos < f.info.metadataOffset
    · by_cases hend : f.endFrame < f.startFrame +
          (newPos - f.dsfHeaderSize) / outputPerAlignment f.info.channelCount * frameBlockAlignment
      · simp [repositionAudio, VfsFile.threaded, hhead, haudio, hend]
      · simp [repositionAudio, VfsFile.threaded, hhead, haudio, hend]
    · simp [repositionAudio, VfsFile.threaded, hhead, haudio]

omit hdst in
theorem repositionAudio_frame (f : VfsFile) (newPos : Nat) :
    (repositionAudio f newPos).position = newPos ∧
      (repositionAudio f newPos).audioEarlyEof = false := by
  simp only [repositionAudio]
  split_ifs <;> exact ⟨rfl, rfl⟩

omit hdst in
theorem live_repositionAudio {f : VfsFile} (h : f.OpenedOn t) (newPos : Nat) {p : Pipeline}
    (hp : p.Streams t (repositionAudio f newPos).currentFrame) :
    Live t (repositionAudio f newPos).currentFrame (repositionAudio f newPos) false p := by
  obtain ⟨frame, skip, hr, hlo, hhi⟩ : ∃ frame skip, Repositioned t (repositionAudio f newPos)
      newPos frame skip ∧ t.startFrame ≤ frame ∧ frame ≤ t.startFrame + t.frameCount := by
    rcases repositionAudio_cases h newPos with ⟨-, hr⟩ | ⟨-, -, g, -, hg, hr⟩ | ⟨-, hr⟩
    · exact ⟨_, _, hr, by omega, by omega⟩
    · exact ⟨_, _, hr, by omega, by omega⟩
    · exact ⟨_, _, hr, by omega, by omega⟩
  exact ⟨hr.ready hlo hhi, Or.inl ⟨rfl, hp, Nat.le_refl _, by rw [hr.buffered, t.columns_self]; rfl⟩⟩

omit hdst in
/-- A seek answers alike and couples the handles at the frame it goes to. -/
theorem fileSeekMt_delivers {restart : Nat} (frame : Nat) {f : VfsFile} {eof : Bool} {p : Pipeline}
    (h : Coupled t restart f eof p) (offset : Int) (whence : Whence) :
    Delivers (sacdVfsFileSeek (seekCommand t) (f.threaded frame eof) offset whence) p
      fun r p' => r.1 = (fileSeek f offset whence).1 ∧ ∃ frame' eof',
        r.2 = (fileSeek f offset whence).2.threaded frame' eof' ∧
        Coupled t ((Op.seek offset whence).restart f restart) (fileSeek f offset whence).2 eof' p' := by
  have hstay : ∀ s : Status, fileSeek f offset whence = (s, f) →
      Coupled t ((Op.seek offset whence).restart f restart) (fileSeek f offset whence).2 eof p := by
    intro s hs
    rw [Op.restart, hs, if_pos rfl]
    exact h
  have hnone : seekTarget f.position f.info.totalSize offset whence = none →
      fileSeek f offset whence = (.invalidParameter, f) := by
    intro hseek
    rw [fileSeek, sacdVfsFileSeek, hseek]
    rfl
  have hsome : ∀ newPos, seekTarget f.position f.info.totalSize offset whence = some newPos →
      fileSeek f offset whence =
        if newPos < 0 then (.seek, f)
        else if newPos.toNat = f.position then (.ok, f)
        else (.ok, repositionAudio f newPos.toNat) := by
    intro newPos hseek
    rw [fileSeek, sacdVfsFileSeek, hseek]
    rfl
  rw [sacdVfsFileSeek, show (f.threaded frame eof).position = f.position from rfl,
    show (f.threaded frame eof).info = f.info from rfl]
  cases hseek : seekTarget f.position f.info.totalSize offset whence with
  | none =>
    have htarget := hnone hseek
    exact Delivers.pure ⟨by rw [htarget], frame, eof, by rw [htarget], hstay _ htarget⟩
  | some newPos =>
    have htarget := hsome newPos hseek
    simp only
    by_cases hneg : newPos < 0
    · rw [if_pos hneg] at htarget ⊢
      exact Delivers.pure ⟨by rw [htarget], frame, eof, by rw [htarget], hstay _ htarget⟩
    · rw [if_neg hneg] at htarget ⊢
      by_cases hsame : newPos.toNat = f.position
      · rw [if_pos hsame] at htarget ⊢
        exact Delivers.pure ⟨by rw [htarget], frame, eof, by rw [htarget], hstay _ htarget⟩
      · rw [if_neg hsame] at htarget ⊢
        rw [threaded_repositionAudio]
        refine (seekCommand_delivers t _ p).bind fun _ p' hp' => Delivers.pure ?_
        obtain ⟨hpos, heof⟩ := repositionAudio_frame f newPos.toNat
        refine ⟨by rw [htarget], _, _, by rw [htarget], ?_⟩
        rw [Op.restart, htarget, if_neg (by simp only [hpos]; exact hsame), heof]
        exact Or.inl (live_repositionAudio h.openedOn _ hp')

/-- One call after another the outputs are the same. -/
theorem outputsMt_delivers {restart : Nat} (frame : Nat) {f : VfsFile} {eof : Bool} {p : Pipeline}
    (ops : List Op) (h : Coupled t restart f eof p) (ha : RunsAlike t restart f ops) :
    Delivers (outputsMt t (f.threaded frame eof) ops) p fun outs _ => outs = outputs t f ops := by
  induction ops generalizing restart frame f eof p with
  | nil => exact Delivers.pure rfl
  | cons op ops ih =>
    obtain ⟨hop, hrest⟩ := ha
    rw [outputsMt, outputs]
    have hcall : Delivers (op.runMt t (f.threaded frame eof)) p fun r p' =>
        r.1 = op.output t f ∧ ∃ frame' eof', r.2 = (op.run t f).threaded frame' eof' ∧
          Coupled t (op.restart f restart) (op.run t f) eof' p' := by
      cases op with
      | seek offset whence =>
        refine (fileSeekMt_delivers frame h offset whence).bind fun r p' hr => Delivers.pure ?_
        obtain ⟨hstatus, frame', eof', hfile, hc⟩ := hr
        exact ⟨by rw [hstatus]; rfl, frame', eof', hfile, hc⟩
      | read size =>
        refine (fileReadMt_delivers hdst frame size h hop).bind fun r p' hr => Delivers.pure ?_
        obtain ⟨frame', eof', rfl, hc⟩ := hr
        exact ⟨rfl, frame', eof', rfl, hc⟩
    refine hcall.bind fun r p' hr => ?_
    obtain ⟨out, g⟩ := r
    obtain ⟨rfl, frame', eof', rfl, hc⟩ := hr
    exact (ih frame' hc hrest).bind fun outs _ houts => Delivers.pure (by rw [houts])

end

/-- One stereo DST frame that the disc does not give. -/
def unreadTrack : Track :=
  { channelCount := 2
    channelCount_pos := Nat.zero_lt_two
    sampleRate := 2822400
    frameFormat := .dst
    startFrame := 0
    frameCount := 1
    soundData := fun _ => none
    dstDecode := fun _ => none
    id3Tag := none }

theorem unreadTrack_runsAlike :
    RunsAlike unreadTrack 0 (sacdVfsFileOpen unreadTrack) [.seek 92 .set, .read 5] := by
  refine ⟨trivial, fun _ => ⟨⟨fun n hn => ?_, fun hall => ?_⟩, fun _ hheld => ?_⟩, trivial⟩
  · have hzero : n = 0 := Nat.lt_one_iff.mp hn.inTrack
    exact Or.inr ⟨rfl, by rw [hzero]; rfl⟩
  · obtain ⟨data, hdata⟩ := hall 0 (by decide) (by decide)
    cases hdata
  · exact hheld.2.2.1 rfl

/-- One stereo DST frame that is read and does not decode. -/
def brokenTrack : Track := { unreadTrack with soundData := fun _ => some [1] }

/-- A region that fails before anything is stored fails the read. -/
theorem fileReadLoop_error {t : Track} {f : VfsFile} {remaining : Nat} {r : ReadResult}
    (hc : 0 < remaining ∧ f.position < f.info.totalSize)
    (hr : readRegion (m := Id) t (readAudioRegion t) f remaining = r)
    (herr : r.status ≠ .ok ∧ r.status ≠ .eof) (fuel : Nat) :
    fileReadLoop (m := Id) t (readAudioRegion t) (fuel + 1) f remaining [] =
      ⟨r.status, [], r.file⟩ := by
  rw [fileReadLoop, if_pos hc]
  change (if (readRegion (m := Id) t (readAudioRegion t) f remaining).status ≠ .ok ∧
    (readRegion (m := Id) t (readAudioRegion t) f remaining).status ≠ .eof then _ else _) = _
  rw [hr, if_pos herr]
  rfl

end DsdNexus.Vfs
