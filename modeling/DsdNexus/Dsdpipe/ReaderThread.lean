import DsdNexus.Lib.Ring
import DsdNexus.Lib.Transition

/-! # The reader thread and its consumer

`frame_queue.c`, `reader_thread.c` and the part of `dsdpipe_process_track` that
takes batches from the queue. A step is one section a thread runs under a mutex,
or one call or test between two such sections. A thread that waits on a
condition variable sleeps until it is signalled, or wakes for no reason.
-/

namespace DsdNexus.Dsdpipe

/-- `DSDPIPE_OK`. -/
def ok : Int := 0

/-- `DSDPIPE_ERROR_OUT_OF_MEMORY`. -/
def errorOutOfMemory : Int := -2

/-- `DSDPIPE_ERROR_READ`. -/
def errorRead : Int := -7

/-- `DSDPIPE_ERROR_CANCELLED`. -/
def errorCancelled : Int := -11

/-! ## The frame queue -/

/-- `dsdpipe_frame_queue_s`: each slot holds a frame and whether it is the last. -/
structure FrameQueue (α : Type) (capacity : Nat) where
  ring : Ring (α × Bool) capacity
  eof : Bool
  cancelled : Bool

variable {α : Type} {capacity : Nat}

/-- `dsdpipe_frame_queue_create`. -/
def FrameQueue.create (h : 0 < capacity) : FrameQueue α capacity :=
  { ring := Ring.empty h, eof := false, cancelled := false }

/-- `dsdpipe_frame_queue_reset`. -/
def FrameQueue.reset (q : FrameQueue α capacity) : FrameQueue α capacity :=
  { ring := q.ring.clear, eof := false, cancelled := false }

/-- The loop of `dsdpipe_frame_queue_pop_batch`: at most `maxCount` frames, none after the
last one of the track. -/
def FrameQueue.popBatch (q : FrameQueue α capacity) (maxCount : Nat) :
    List (α × Bool) × FrameQueue α capacity :=
  let popped := Ring.popWhile (fun slot : α × Bool => slot.2) maxCount q.ring
  (popped.1, { q with ring := popped.2 })

/-! ## Sources -/

/-- How the frames of a track end: a frame with `DSDPIPE_BUF_FLAG_TRACK_END`, a frame
for which `read_frame` returns 1, an error of `read_frame`, or no buffer to read into. -/
inductive Ending (α : Type) where
  | lastFlag (frame : α)
  | endOfTrack (frame : α)
  | readError (code : Int) (h : code ≠ 0 ∧ code ≠ 1)
  | noBuffer

/-- What `seek_track` returns, and the frames `read_frame` gives after it. -/
structure Source (α : Type) where
  seek : Int
  frames : List α
  ending : Ending α

namespace Source

/-- What the `n`-th turn of the read loop gets: a frame and whether it is the last, or
the error it stores. -/
def read (src : Source α) (n : Nat) : Except Int (α × Bool) :=
  match src.frames[n]? with
  | some frame => .ok (frame, false)
  | none => match src.ending with
    | .lastFlag frame | .endOfTrack frame => .ok (frame, true)
    | .readError code _ => .error (if code < 0 then code else errorRead)
    | .noBuffer => .error errorOutOfMemory

/-- The frames the source returns for the track. -/
def delivered (src : Source α) : List α :=
  if src.seek = ok then
    match src.ending with
    | .lastFlag frame | .endOfTrack frame => src.frames ++ [frame]
    | .readError _ _ | .noBuffer => src.frames
  else []

/-- The track cannot be read to its end. -/
def Fails (src : Source α) : Prop :=
  src.seek ≠ ok ∨ match src.ending with
    | .lastFlag _ | .endOfTrack _ => False
    | .readError _ _ | .noBuffer => True

end Source

/-! ## The two threads -/

/-- What a reader does after it has marked the track as finished. -/
inductive AfterFinish where
  | eofAndNext
  | eofAndLeave
  | leave
  | cancelQueue
deriving DecidableEq

/-- Where the reader thread is. -/
inductive ReaderAt (α : Type) where
  | idle
  | asleepStart
  | resetQueue
  | seek
  | loop
  | read
  | push (frame : α) (last : Bool)
  | asleepPush (frame : α) (last : Bool)
  | finish (error : Option Int) (after : AfterFinish)
  | signalEof (next : Bool)
  | afterLoop
  | cancelQueue
  | exited

/-- Where the consumer is in `dsdpipe_process_track`. -/
inductive ConsumerAt where
  | startTrack
  | loop (trackComplete : Bool)
  | pop
  | asleepPop
  | popFailed
  | popEmpty
  | process (trackComplete : Bool)
  | cleanup
  | cancelFlag
  | cancelQueue
  | wait
  | asleepWait
  | destroy
  | destroyCancel
  | join
  | finished
deriving DecidableEq

/-- Where a reader goes on from there. -/
def AfterFinish.next : AfterFinish → ReaderAt α
  | .eofAndNext => .signalEof true
  | .eofAndLeave => .signalEof false
  | .leave => .afterLoop
  | .cancelQueue => .cancelQueue

/-- A reader asleep on `track_start_cond` wakes up. -/
def ReaderAt.wakeStart : ReaderAt α → ReaderAt α
  | .asleepStart => .idle
  | r => r

/-- A reader asleep on `not_full` wakes up. -/
def ReaderAt.wakeNotFull : ReaderAt α → ReaderAt α
  | .asleepPush frame last => .push frame last
  | r => r

/-- A consumer asleep on `not_empty` wakes up. -/
def ConsumerAt.wakeNotEmpty : ConsumerAt → ConsumerAt
  | .asleepPop => .pop
  | c => c

/-- A consumer asleep on `track_done_cond` wakes up. -/
def ConsumerAt.wakeDone : ConsumerAt → ConsumerAt
  | .asleepWait => .wait
  | c => c

/-- The queue, the reader's fields, the pipe's cancel flag and the consumer's status.
`returned` and `popped` record the frames the source has returned and the consumer has
got. -/
structure State (α : Type) (capacity : Nat) where
  queue : FrameQueue α capacity
  trackPending : Bool
  trackStarted : Bool
  trackFinished : Bool
  hasError : Bool
  lastError : Int
  cancelled : Bool
  shutdown : Bool
  pipeCancelled : Bool
  result : Int
  reader : ReaderAt α
  consumer : ConsumerAt
  returned : List α
  popped : List α

/-- The reader thread has been created. -/
def State.initial (α : Type) (h : 0 < capacity) : State α capacity where
  queue := FrameQueue.create h
  trackPending := false
  trackStarted := false
  trackFinished := false
  hasError := false
  lastError := ok
  cancelled := false
  shutdown := false
  pipeCancelled := false
  result := ok
  reader := .idle
  consumer := .startTrack
  returned := []
  popped := []

namespace State

/-! ## Signals -/

/-- Signals `track_start_cond`. -/
def wakeStart (s : State α capacity) : State α capacity := { s with reader := s.reader.wakeStart }

/-- Signals `not_full`. -/
def wakeNotFull (s : State α capacity) : State α capacity :=
  { s with reader := s.reader.wakeNotFull }

/-- Signals `not_empty`. -/
def wakeNotEmpty (s : State α capacity) : State α capacity :=
  { s with consumer := s.consumer.wakeNotEmpty }

/-- Signals `track_done_cond`. -/
def wakeDone (s : State α capacity) : State α capacity := { s with consumer := s.consumer.wakeDone }

/-- `dsdpipe_frame_queue_cancel`. -/
def queueCancel (s : State α capacity) : State α capacity :=
  wakeNotEmpty (wakeNotFull { s with queue := { s.queue with cancelled := true } })

/-- `dsdpipe_frame_queue_signal_eof`. -/
def queueSignalEof (s : State α capacity) : State α capacity :=
  wakeNotEmpty { s with queue := { s.queue with eof := true } }

/-! ## Steps of the reader -/

/-- `reader_thread_func`. -/
def stepReader (src : Source α) (s : State α capacity) : Option (State α capacity) :=
  match s.reader with
  | .idle =>
    if s.shutdown then some { s with reader := .exited }
    else if s.trackPending then
      some { s with
        trackPending := false
        trackFinished := false
        hasError := false
        lastError := ok
        reader := .resetQueue }
    else some { s with reader := .asleepStart }
  | .resetQueue => some { s with queue := s.queue.reset, reader := .seek }
  | .seek =>
    if src.seek = ok then some { s with reader := .loop }
    else some { s with reader := .finish (some src.seek) .eofAndNext }
  | .loop =>
    if s.cancelled || s.shutdown then some { s with reader := .afterLoop }
    else some { s with reader := .read }
  | .read =>
    match src.read s.returned.length with
    | .ok (frame, last) =>
      some { s with reader := .push frame last, returned := s.returned ++ [frame] }
    | .error code => some { s with reader := .finish (some code) .eofAndLeave }
  | .push frame last =>
    if s.queue.cancelled then some { s with reader := .finish none .leave }
    else if h : s.queue.ring.count < capacity then
      some (wakeNotEmpty { s with
        queue := { s.queue with ring := s.queue.ring.push h (frame, last) }
        reader := if last then .finish none .eofAndLeave else .loop })
    else some { s with reader := .asleepPush frame last }
  | .finish error after =>
    some (wakeDone { s with
      hasError := error.isSome || s.hasError
      lastError := error.getD s.lastError
      trackFinished := true
      reader := after.next })
  | .signalEof next =>
    some (queueSignalEof { s with reader := if next then .idle else .afterLoop })
  | .afterLoop =>
    if s.cancelled || s.shutdown then some { s with reader := .finish none .cancelQueue }
    else some { s with reader := .idle }
  | .cancelQueue => some (queueCancel { s with reader := .idle })
  | .asleepStart | .asleepPush _ _ | .exited => none

/-! ## Steps of the consumer -/

/-- How the frames of a batch are decoded, written and reported. -/
inductive Processed where
  | ok
  | failed (code : Int) (h : code ≠ 0)
  | stopped

/-- The batch loop and the cleanup of `dsdpipe_process_track`. -/
def stepConsumer (batchSize : Nat) (s : State α capacity) (processed : Processed) :
    Option (State α capacity) :=
  match s.consumer with
  | .startTrack =>
    -- a reader that has just been created has no earlier track to wait for
    if !s.trackFinished && s.trackStarted && !s.shutdown then none
    else if s.shutdown then some { s with result := errorRead, consumer := .destroy }
    else
      some (wakeStart { s with
        cancelled := false
        trackPending := true
        trackStarted := true
        trackFinished := false
        consumer := .loop false })
  | .loop trackComplete =>
    if !s.pipeCancelled && !trackComplete then some { s with consumer := .pop }
    else some { s with consumer := .cleanup }
  | .pop =>
    if s.queue.cancelled then some { s with consumer := .popFailed }
    else if s.queue.ring.count = 0 && !s.queue.eof then some { s with consumer := .asleepPop }
    else
      let batch := s.queue.popBatch batchSize
      let taken := { s with
        queue := batch.2
        popped := s.popped ++ batch.1.map Prod.fst }
      if batch.1.isEmpty then some { taken with result := ok, consumer := .popEmpty }
      else
        some (wakeNotFull { taken with
          result := ok
          consumer := .process (batch.1.any Prod.snd) })
  | .popFailed =>
    some { s with
      result := if s.hasError then s.lastError else errorRead
      consumer := .cleanup }
  | .popEmpty =>
    some { s with
      result := if s.hasError then s.lastError else s.result
      consumer := .cleanup }
  | .process trackComplete =>
    match processed with
    | .ok => some { s with consumer := .loop trackComplete }
    | .failed code _ => some { s with result := code, consumer := .cleanup }
    | .stopped => some { s with pipeCancelled := true, result := errorCancelled, consumer := .cleanup }
  | .cleanup =>
    if s.result ≠ ok || s.pipeCancelled then some { s with consumer := .cancelFlag }
    else some { s with consumer := .wait }
  | .cancelFlag => some { s with cancelled := true, consumer := .cancelQueue }
  | .cancelQueue => some (queueCancel { s with consumer := .wait })
  | .wait =>
    if !s.trackFinished && s.trackStarted && !s.shutdown then
      some { s with consumer := .asleepWait }
    else some { s with consumer := .destroy }
  | .destroy =>
    some (wakeStart { s with shutdown := true, cancelled := true, consumer := .destroyCancel })
  | .destroyCancel => some (queueCancel { s with consumer := .join })
  | .join =>
    match s.reader with
    | .exited => some { s with consumer := .finished }
    | _ => none
  | .asleepPop | .asleepWait | .finished => none

/-! ## Interleavings -/

/-- A step of one of the threads, a step of another thread that cancels the pipe or the
reader, or a wakeup for no reason. -/
inductive Event where
  | reader
  | consumer (processed : Processed)
  | cancelPipe
  | cancelFlag
  | cancelQueue
  | wakeReader
  | wakeConsumer

/-- One step of the threads. -/
def step (src : Source α) (batchSize : Nat) (s : State α capacity) :
    Event → Option (State α capacity)
  | .reader => s.stepReader src
  | .consumer processed => s.stepConsumer batchSize processed
  | .cancelPipe => some { s with pipeCancelled := true }
  | .cancelFlag => some { s with cancelled := true }
  | .cancelQueue => some s.queueCancel
  | .wakeReader => some s.wakeStart.wakeNotFull
  | .wakeConsumer => some s.wakeNotEmpty.wakeDone

/-- What `dsdpipe_process_track` returns. -/
def status (s : State α capacity) : Int := if s.pipeCancelled then errorCancelled else s.result

/-- The reader waits on a condition variable. -/
def ReaderBlocked (s : State α capacity) : Prop :=
  match s.reader with
  | .asleepStart | .asleepPush _ _ => True
  | _ => False

/-- The consumer waits on a condition variable, or for a reader that has not exited. -/
def ConsumerBlocked (s : State α capacity) : Prop :=
  match s.consumer with
  | .asleepPop | .asleepWait => True
  | .join => match s.reader with
    | .exited => False
    | _ => True
  | _ => False

end State

/-- The step cancels nothing, and the batch it processes is written. -/
def State.Event.Undisturbed : State.Event → Prop
  | .reader | .wakeReader | .wakeConsumer | .consumer .ok => True
  | .consumer _ | .cancelPipe | .cancelFlag | .cancelQueue => False

end DsdNexus.Dsdpipe
