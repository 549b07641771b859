import DsdNexus.Lib.Scheduled
import DsdNexus.Vfs.Image

/-! # The decoding pipeline of a handle with threads

The reader thread reads frames and dispatches them, the pool decodes them in
any order and hands the results back in dispatch order, the main thread waits
for the next result. The reader may run ahead any distance, so every order the
bounded queue allows is among the schedules. A SEEK command is one step here:
the queue is emptied and the reader restarts at the requested frame.
-/

namespace DsdNexus.Vfs

open Blocks Scheduled

/-- `vfs_dst_job_t`. -/
structure Job where
  frameNumber : Nat
  compressedData : Bytes
  isEof : Bool
  decompressedData : Bytes
  errorCode : Int
  deriving DecidableEq, Repr

def Job.frame (n : Nat) (data : Bytes) : Job := ⟨n, data, false, [], 0⟩

def Job.sentinel : Job := ⟨0, [], true, [], 0⟩

/-- `_vfs_dst_decode_func`. -/
def vfsDstDecodeFunc (t : Track) (job : Job) : Job :=
  if job.isEof then job
  else match t.dstDecode job.compressedData with
    | some decoded =>
      if decoded.length = 0 then { job with errorCode := -3 }
      else { job with decompressedData := decoded, errorCode := 0 }
    | none => { job with errorCode := -3 }

/-- A dispatched job, processed or not. -/
structure Slot where
  job : Job
  done : Bool
  deriving DecidableEq, Repr

/-- What the threads share: the frame the reader is at, whether it has
dispatched the sentinel and waits for a command, the jobs not yet handed back. -/
structure Pipeline where
  currentFrame : Nat
  waiting : Bool
  queue : List Slot
  deriving DecidableEq, Repr

inductive ThreadAction where
  | reader
  | worker (i : Nat)
  deriving DecidableEq, Repr

/-- One turn of `_vfs_reader_thread`. -/
def Pipeline.readerStep (t : Track) (p : Pipeline) : Pipeline :=
  if p.waiting then p
  else if p.currentFrame < t.startFrame + t.frameCount then
    match t.soundData p.currentFrame with
    | none => { p with waiting := true, queue := p.queue ++ [⟨Job.sentinel, false⟩] }
    | some frame =>
      { p with
        currentFrame := p.currentFrame + 1
        queue := p.queue ++ [⟨Job.frame p.currentFrame frame, false⟩] }
  else { p with waiting := true, queue := p.queue ++ [⟨Job.sentinel, false⟩] }

def Slot.process (t : Track) (s : Slot) : Slot :=
  if s.done then s else ⟨vfsDstDecodeFunc t s.job, true⟩

def Pipeline.step (t : Track) (p : Pipeline) : ThreadAction → Pipeline
  | .reader => p.readerStep t
  | .worker i => { p with queue := p.queue.modify i (Slot.process t) }

/-- The head of the queue, once it is processed. -/
def Pipeline.takeResult (p : Pipeline) : Option (Job × Pipeline) :=
  match p.queue with
  | [] => none
  | s :: rest => if s.done then some (s.job, { p with queue := rest }) else none

def Pipeline.restart (p : Pipeline) (frame : Nat) : Pipeline :=
  { p with currentFrame := frame, waiting := false, queue := [] }

/-- What the main thread computes while the others run. -/
abbrev Threads : Type → Type := Proc Pipeline ThreadAction

/-- `sa_tpool_next_result_wait`. -/
def nextResultWait (t : Track) : Threads Job := wait (Pipeline.step t) Pipeline.takeResult

/-- SEEK is published and SEEK_DONE awaited. -/
def seekCommand (t : Track) (frame : Nat) : Threads Unit :=
  wait (Pipeline.step t) fun p => some ((), p.restart frame)

/-! ## Reading -/

/-- The loop of `_read_audio_region_mt`. Every turn but two stores a byte or
takes a frame, so the request and the frames of the track are fuel enough. -/
def readAudioLoopMt (t : Track) : Nat → VfsFile → Nat → Bytes → Threads ReadResult
  | 0, _, _, _ => stuck
  | fuel + 1, f, size, totalRead =>
    if 0 < size ∧ f.position < f.info.metadataOffset then
      if f.transformBufferPos < f.transformBufferLen then
        let toCopy := min size (f.transformBufferLen - f.transformBufferPos)
        readAudioLoopMt t fuel (f.consume toCopy) (size - toCopy)
          (totalRead ++ (f.transformBuffer.drop f.transformBufferPos).take toCopy)
      else if f.audioEarlyEof then pure ⟨.ok, totalRead, f⟩
      else do
        let job ← nextResultWait t
        if job.isEof then
          let f' := { f with audioEarlyEof := true }
          if 0 < f'.bytesBuffered then
            readAudioLoopMt t fuel (flushBlockBuffers f') size totalRead
          else pure ⟨.ok, totalRead, f'⟩
        else if job.errorCode ≠ 0 ∨ job.decompressedData.length = 0 then
          pure ⟨.ok, totalRead, { f with audioEarlyEof := true }⟩
        else
          readAudioLoopMt t fuel (skipAfterSeek (transformDsdFrame f job.decompressedData)) size
            totalRead
    else pure ⟨.ok, totalRead, f⟩

/-- `_read_audio_region` of a handle with threads. -/
def readAudioRegionMt (t : Track) (f : VfsFile) (size : Nat) : Threads ReadResult :=
  if f.audioEarlyEof ∧ f.position < f.info.metadataOffset then pure (fillGap f size)
  else readAudioLoopMt t (size + t.frameCount + 3) f size []

/-! ## A handle with threads -/

/-- `sacd_vfs_file_open_mt` on a DST track: the decoder of the handle is freed. -/
def sacdVfsFileOpenMt (t : Track) : VfsFile := { sacdVfsFileOpen t with dstDecoder := false }

/-- The threads as `sacd_vfs_file_open_mt` starts them. -/
def Pipeline.start (t : Track) : Pipeline := ⟨t.startFrame, false, []⟩

/-- What a call returns to its caller. -/
abbrev Output := Status × Bytes

def Op.output (t : Track) (f : VfsFile) : Op → Output
  | .seek offset whence => ((fileSeek f offset whence).1, [])
  | .read size => ((fileRead t f size).status, (fileRead t f size).data)

/-- What the calls on a handle without threads return. -/
def outputs (t : Track) : VfsFile → List Op → List Output
  | _, [] => []
  | f, op :: ops => op.output t f :: outputs t (op.run t f) ops

def Op.runMt (t : Track) (f : VfsFile) : Op → Threads (Output × VfsFile)
  | .seek offset whence => do
    let (status, f') ← sacdVfsFileSeek (seekCommand t) f offset whence
    pure ((status, []), f')
  | .read size => do
    let r ← sacdVfsFileRead t (readAudioRegionMt t) f size
    pure ((r.status, r.data), r.file)

/-- What the calls on a handle with threads return. -/
def outputsMt (t : Track) : VfsFile → List Op → Threads (List Output)
  | _, [] => pure []
  | f, op :: ops => do
    let (out, f') ← op.runMt t f
    let outs ← outputsMt t f' ops
    pure (out :: outs)

/-! ## The jobs in the queue -/

/-- The reader stops at `n`. -/
def Exhausted (t : Track) (n : Nat) : Prop :=
  t.startFrame + t.frameCount ≤ n ∨ t.soundData n = none

/-- The slot of frame `n`. -/
def IsFrame (t : Track) (n : Nat) (s : Slot) : Prop :=
  n < t.startFrame + t.frameCount ∧ ∃ frame, t.soundData n = some frame ∧
    (s = ⟨Job.frame n frame, false⟩ ∨ s = ⟨vfsDstDecodeFunc t (Job.frame n frame), true⟩)

def IsSentinel (s : Slot) : Prop := s.job = Job.sentinel

/-- The queue holds the frames from `n` up to the reader, and behind them the
sentinel once the reader waits. -/
def Holds (t : Track) (cur : Nat) (waiting : Bool) : Nat → List Slot → Prop
  | n, [] => n = cur ∧ waiting = false
  | n, s :: rest =>
    (IsFrame t n s ∧ Holds t cur waiting (n + 1) rest) ∨
      (IsSentinel s ∧ rest = [] ∧ waiting = true ∧ n = cur ∧ Exhausted t n)

/-- The main thread has taken the frames before `n`. -/
def Pipeline.Streams (t : Track) (n : Nat) (p : Pipeline) : Prop :=
  Holds t p.currentFrame p.waiting n p.queue

theorem vfsDstDecodeFunc_sentinel (t : Track) : vfsDstDecodeFunc t Job.sentinel = Job.sentinel := rfl

theorem vfsDstDecodeFunc_isEof (t : Track) (job : Job) :
    (vfsDstDecodeFunc t job).isEof = job.isEof := by
  unfold vfsDstDecodeFunc
  split
  · rfl
  · split
    · split <;> rfl
    · rfl

theorem IsFrame.process {t : Track} {n : Nat} {s : Slot} (h : IsFrame t n s) :
    IsFrame t n (s.process t) ∧ (s.process t).done = true := by
  obtain ⟨hn, frame, hframe, rfl | rfl⟩ := h
  · exact ⟨⟨hn, frame, hframe, Or.inr rfl⟩, rfl⟩
  · exact ⟨⟨hn, frame, hframe, Or.inr rfl⟩, rfl⟩

theorem IsSentinel.process {t : Track} {s : Slot} (h : IsSentinel s) :
    IsSentinel (s.process t) ∧ (s.process t).done = true := by
  unfold IsSentinel at h
  unfold Slot.process IsSentinel
  split
  · next hdone => exact ⟨h, hdone⟩
  · exact ⟨by rw [h]; exact vfsDstDecodeFunc_sentinel t, rfl⟩

theorem Holds.append_frame {t : Track} {cur n : Nat} {queue : List Slot} {frame : Bytes}
    (h : Holds t cur false n queue) (hcur : cur < t.startFrame + t.frameCount)
    (hframe : t.soundData cur = some frame) :
    Holds t (cur + 1) false n (queue ++ [⟨Job.frame cur frame, false⟩]) := by
  induction queue generalizing n with
  | nil =>
    obtain ⟨rfl, -⟩ := h
    exact Or.inl ⟨⟨hcur, frame, hframe, Or.inl rfl⟩, rfl, rfl⟩
  | cons s rest ih =>
    rcases h with ⟨hs, hrest⟩ | ⟨-, -, hwait, -⟩
    · exact Or.inl ⟨hs, ih hrest⟩
    · cases hwait

theorem Holds.append_sentinel {t : Track} {cur n : Nat} {queue : List Slot}
    (h : Holds t cur false n queue) (hex : Exhausted t cur) :
    Holds t cur true n (queue ++ [⟨Job.sentinel, false⟩]) := by
  induction queue generalizing n with
  | nil =>
    obtain ⟨rfl, -⟩ := h
    exact Or.inr ⟨rfl, rfl, rfl, rfl, hex⟩
  | cons s rest ih =>
    rcases h with ⟨hs, hrest⟩ | ⟨-, -, hwait, -⟩
    · exact Or.inl ⟨hs, ih hrest⟩
    · cases hwait

theorem Holds.modify {t : Track} {cur n : Nat} {waiting : Bool} {queue : List Slot}
    (h : Holds t cur waiting n queue) (i : Nat) :
    Holds t cur waiting n (queue.modify i (Slot.process t)) := by
  induction queue generalizing n i with
  | nil =>
    rw [List.modify_nil]
    exact h
  | cons s rest ih =>
    cases i with
    | zero =>
      rcases h with ⟨hs, hrest⟩ | ⟨hs, hrest⟩
      · exact Or.inl ⟨hs.process.1, hrest⟩
      · exact Or.inr ⟨hs.process.1, hrest⟩
    | succ i =>
      rcases h with ⟨hs, hrest⟩ | ⟨hs, rfl, hrest⟩
      · exact Or.inl ⟨hs, ih hrest i⟩
      · exact Or.inr ⟨hs, by cases i <;> rfl, hrest⟩

theorem Pipeline.Streams.step {t : Track} {n : Nat} {p : Pipeline} (h : p.Streams t n)
    (a : ThreadAction) : (p.step t a).Streams t n := by
  cases a with
  | reader =>
    obtain ⟨cur, waiting, queue⟩ := p
    cases waiting with
    | true => exact h
    | false =>
      by_cases hcur : cur < t.startFrame + t.frameCount
      · cases hframe : t.soundData cur with
        | none =>
          have hs : Pipeline.step t ⟨cur, false, queue⟩ .reader =
              ⟨cur, true, queue ++ [⟨Job.sentinel, false⟩]⟩ := by
            simp [Pipeline.step, Pipeline.readerStep, hcur, hframe]
          rw [hs]
          exact Holds.append_sentinel h (Or.inr hframe)
        | some frame =>
          have hs : Pipeline.step t ⟨cur, false, queue⟩ .reader =
              ⟨cur + 1, false, queue ++ [⟨Job.frame cur frame, false⟩]⟩ := by
            simp [Pipeline.step, Pipeline.readerStep, hcur, hframe]
          rw [hs]
          exact Holds.append_frame h hcur hframe
      · have hs : Pipeline.step t ⟨cur, false, queue⟩ .reader =
            ⟨cur, true, queue ++ [⟨Job.sentinel, false⟩]⟩ := by
          simp [Pipeline.step, Pipeline.readerStep, hcur]
        rw [hs]
        exact Holds.append_sentinel h (Or.inl (Nat.le_of_not_lt hcur))
  | worker i => exact Holds.modify h i

/-- Processing the head makes it available; an empty queue gets a head from the reader. -/
theorem Pipeline.Streams.ready {t : Track} {n : Nat} {p : Pipeline} (h : p.Streams t n) :
    ∃ (burst : List ThreadAction) (r : Job × Pipeline),
      (burst.foldl (Pipeline.step t) p).takeResult = some r := by
  have hhead : ∀ (q : Pipeline) (s : Slot) (rest : List Slot), q.Streams t n → q.queue = s :: rest →
      ∃ r, (q.step t (.worker 0)).takeResult = some r := by
    intro q s rest hq hqueue
    have hdone : (s.process t).done = true := by
      rw [Pipeline.Streams, hqueue] at hq
      rcases hq with ⟨hs, -⟩ | ⟨hs, -⟩
      · exact hs.process.2
      · exact hs.process.2
    refine ⟨((s.process t).job, { q with queue := rest }), ?_⟩
    simp [Pipeline.step, Pipeline.takeResult, hqueue, hdone]
  cases hqueue : p.queue with
  | cons s rest =>
    obtain ⟨r, hr⟩ := hhead p s rest h hqueue
    exact ⟨[.worker 0], r, hr⟩
  | nil =>
    have hwait : p.waiting = false := by
      rw [Pipeline.Streams, hqueue] at h
      exact h.2
    have hgrow : ∃ s, (p.step t .reader).queue = [s] := by
      simp only [Pipeline.step, Pipeline.readerStep, hwait, hqueue]
      split
      · exact absurd ‹_› (by decide)
      · split
        · split <;> exact ⟨_, rfl⟩
        · exact ⟨_, rfl⟩
    obtain ⟨s, hs⟩ := hgrow
    obtain ⟨r, hr⟩ := hhead (p.step t .reader) s [] (h.step .reader) hs
    exact ⟨[.reader, .worker 0], r, hr⟩

/-- The next result is the next frame, processed, or the sentinel. -/
theorem Pipeline.Streams.take {t : Track} {n : Nat} {p p' : Pipeline} {job : Job}
    (h : p.Streams t n) (htake : p.takeResult = some (job, p')) :
    (n < t.startFrame + t.frameCount ∧ ∃ frame, t.soundData n = some frame ∧
        job = vfsDstDecodeFunc t (Job.frame n frame) ∧ p'.Streams t (n + 1)) ∨
      (Exhausted t n ∧ job = Job.sentinel) := by
  obtain ⟨cur, waiting, queue⟩ := p
  cases queue with
  | nil => simp [Pipeline.takeResult] at htake
  | cons s rest =>
    obtain ⟨hdone, rfl, rfl⟩ : s.done = true ∧ s.job = job ∧ ⟨cur, waiting, rest⟩ = p' := by
      simpa [Pipeline.takeResult] using htake
    rcases h with ⟨⟨hn, frame, hframe, rfl | rfl⟩, hrest⟩ | ⟨hs, -, -, -, hex⟩
    · cases hdone
    · exact Or.inl ⟨hn, frame, hframe, rfl, hrest⟩
    · exact Or.inr ⟨hex, hs⟩

/-! ## Specifications of the two waits -/

theorem nextResultWait_delivers {t : Track} {n : Nat} {p : Pipeline} (h : p.Streams t n) :
    Delivers (nextResultWait t) p fun job p' =>
      (n < t.startFrame + t.frameCount ∧ ∃ frame, t.soundData n = some frame ∧
          job = vfsDstDecodeFunc t (Job.frame n frame) ∧ p'.Streams t (n + 1)) ∨
        (Exhausted t n ∧ job = Job.sentinel) :=
  Delivers.wait (I := Pipeline.Streams t n) (fun _ a hp => hp.step a)
    (fun _ _ _ hp htake => hp.take htake) (fun _ hp => hp.ready) h

theorem seekCommand_delivers (t : Track) (frame : Nat) (p : Pipeline) :
    Delivers (seekCommand t frame) p fun _ p' => p'.Streams t frame :=
  Delivers.wait (I := fun _ => True) (fun _ _ _ => trivial)
    (fun s _ s' _ htake => by
      obtain rfl : s.restart frame = s' := by simpa using htake
      exact ⟨rfl, rfl⟩)
    (fun s _ => ⟨[], _, rfl⟩) trivial

end DsdNexus.Vfs
