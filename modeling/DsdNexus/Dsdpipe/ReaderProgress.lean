import DsdNexus.Dsdpipe.ReaderThread

/-! # The reader and the consumer do not wait for each other

Where one thread is bounds where the other can be: the track flags say how far
the reader has come, and a thread sleeps only while what it waits for is still
to happen.
-/

namespace DsdNexus.Dsdpipe

open Transition

variable {α : Type} {capacity : Nat}

/-! ## Where the threads are -/

/-- The reader waits for a track. -/
@[grind] def ReaderAt.isIdle : ReaderAt α → Bool
  | .idle | .asleepStart => true
  | .resetQueue | .seek | .loop | .read | .push _ _ | .asleepPush _ _ => false
  | .finish _ _ | .signalEof _ | .afterLoop | .cancelQueue | .exited => false

/-- The reader has taken the track and can still put frames of it into the queue. -/
@[grind] def ReaderAt.mayPush : ReaderAt α → Bool
  | .resetQueue | .seek | .loop | .read | .push _ _ | .asleepPush _ _ => true
  | .idle | .asleepStart => false
  | .finish _ _ | .signalEof _ | .afterLoop | .cancelQueue | .exited => false

/-- The reader is inside a turn of the read loop. -/
@[grind] def ReaderAt.isReading : ReaderAt α → Bool
  | .read | .push _ _ | .asleepPush _ _ => true
  | .idle | .asleepStart | .resetQueue | .seek | .loop => false
  | .finish _ _ | .signalEof _ | .afterLoop | .cancelQueue | .exited => false

/-- The reader can be there with the track marked as finished. -/
@[grind] def ReaderAt.isPast : ReaderAt α → Bool
  | .idle | .asleepStart | .signalEof _ | .afterLoop | .cancelQueue | .exited => true
  | .finish error after => error.isNone && after == .cancelQueue
  | .resetQueue | .seek | .loop | .read | .push _ _ | .asleepPush _ _ => false

/-- The reader can be there with the end signalled. -/
@[grind] def ReaderAt.isPastEof : ReaderAt α → Bool
  | .idle | .asleepStart | .afterLoop | .cancelQueue | .exited => true
  | .finish error after => error.isNone && after == .cancelQueue
  | .resetQueue | .seek | .loop | .read | .push _ _ | .asleepPush _ _ | .signalEof _ => false

/-- The consumer has seen the last frame. -/
@[grind] def ConsumerAt.isComplete : ConsumerAt → Bool
  | .loop trackComplete | .process trackComplete => trackComplete
  | .startTrack | .pop | .asleepPop | .popFailed | .popEmpty | .cleanup => false
  | .cancelFlag | .cancelQueue | .wait | .asleepWait => false
  | .destroy | .destroyCancel | .join | .finished => false

/-- The consumer waits for the end of the track. -/
@[grind] def ConsumerAt.isWaiting : ConsumerAt → Bool
  | .wait | .asleepWait => true
  | .startTrack | .loop _ | .pop | .asleepPop | .popFailed | .popEmpty | .process _ => false
  | .cleanup | .cancelFlag | .cancelQueue => false
  | .destroy | .destroyCancel | .join | .finished => false

/-- The consumer has seen the end of the track. -/
@[grind] def ConsumerAt.isEnded : ConsumerAt → Bool
  | .destroy | .destroyCancel | .join | .finished => true
  | .startTrack | .loop _ | .pop | .asleepPop | .popFailed | .popEmpty | .process _ => false
  | .cleanup | .cancelFlag | .cancelQueue | .wait | .asleepWait => false

/-- The consumer has shut the reader down. -/
@[grind] def ConsumerAt.isShut : ConsumerAt → Bool
  | .destroyCancel | .join | .finished => true
  | .startTrack | .loop _ | .pop | .asleepPop | .popFailed | .popEmpty | .process _ => false
  | .cleanup | .cancelFlag | .cancelQueue | .wait | .asleepWait | .destroy => false

theorem ReaderAt.mayPush_of_isPast {r : ReaderAt α} (h : r.isPast = true) : r.mayPush = false := by
  cases r with
  | _ => first | rfl | cases h

theorem ReaderAt.mayPush_of_isPastEof {r : ReaderAt α} (h : r.isPastEof = true) :
    r.mayPush = false := by
  cases r with
  | _ => first | rfl | cases h

/-- The reader puts no more frames of the track into the queue. -/
@[grind] def State.Over (s : State α capacity) : Prop := s.reader.mayPush = false ∧ s.trackPending = false

/-- The last frame of the track is among these. -/
def hasLast (slots : List (α × Bool)) : Bool := slots.any Prod.snd

@[grind =] theorem hasLast_nil : hasLast ([] : List (α × Bool)) = false := rfl

/-- What a thread sleeps for has not happened. -/
structure State.Sleeps (s : State α capacity) : Prop where
  push : ∀ frame last, s.reader = .asleepPush frame last →
    ¬ s.queue.ring.count < capacity ∧ s.queue.cancelled = false
  pop : s.consumer = .asleepPop →
    s.queue.ring.count = 0 ∧ s.queue.cancelled = false ∧ s.queue.eof = false
  start : s.reader = .asleepStart → s.trackPending = false ∧ s.shutdown = false
  done : s.consumer = .asleepWait →
    s.trackFinished = false ∧ s.trackStarted = true ∧ s.shutdown = false

/-- How far the reader has come, told by the flags. -/
structure State.ReaderFacts (s : State α capacity) : Prop where
  busy : s.reader.isIdle = false → s.trackStarted = true
  pending : s.trackPending = true →
    s.trackStarted = true ∧ s.reader.isIdle = true ∧ s.queue.eof = false
  idle : s.reader.isIdle = true → s.trackStarted = true → s.trackPending = false →
    s.trackFinished = true ∧ (s.queue.eof = true ∨ s.queue.cancelled = true)
  finished : s.trackFinished = true →
    s.trackStarted = true ∧ s.trackPending = false ∧ s.reader.isPast = true
  eof : s.queue.eof = true →
    s.trackStarted = true ∧ s.trackPending = false ∧ s.reader.isPastEof = true
  signalEof : ∀ next, s.reader = .signalEof next → s.trackFinished = true
  refused : ∀ error, s.reader = .finish error .leave → s.queue.cancelled = true
  cancelled : s.reader = .cancelQueue → s.trackFinished = true
  left : s.reader = .afterLoop → s.cancelled = true ∨ s.shutdown = true ∨
    s.trackFinished = true ∧ (s.queue.eof = true ∨ s.queue.cancelled = true)
  exited : s.reader = .exited → s.shutdown = true
  shutdown : s.shutdown = true → s.trackFinished = true
  error : s.hasError = true → s.lastError ≠ ok
  storing : ∀ code after, s.reader = .finish (some code) after → code ≠ ok

/-- What the consumer knows of the reader. -/
structure State.ConsumerFacts (s : State α capacity) : Prop where
  fresh : s.consumer = .startTrack →
    s.trackStarted = false ∧ s.trackPending = false ∧ s.reader.isIdle = true ∧
      s.queue.ring.contents = []
  started : s.consumer ≠ .startTrack → s.trackStarted = true
  shutdown : s.shutdown = s.consumer.isShut
  complete : s.consumer.isComplete = true → s.Over
  flagged : hasLast s.queue.ring.contents = true → s.Over
  empty : s.consumer = .popEmpty → s.Over
  cleanup : s.consumer = .cleanup → s.result = ok → s.pipeCancelled = true ∨ s.Over
  flag : s.consumer = .cancelQueue → s.cancelled = true
  waiting : s.consumer.isWaiting = true → s.Over ∨
    s.cancelled = true ∧ (s.reader.isReading = true → s.queue.cancelled = true)
  ended : s.consumer.isEnded = true → s.trackFinished = true

theorem Source.read_error {src : Source α} {n : Nat} {code : Int} (h : src.read n = .error code) :
    code ≠ ok := by
  unfold Source.read at h
  split at h
  · cases h
  · split at h
    · cases h
    · cases h
    · next c hc _ =>
      cases h
      split
      · simp [ok]
        omega
      · simp [ok, errorRead]
    · cases h
      simp [ok, errorOutOfMemory]

namespace State

variable {src : Source α} {batchSize : Nat} {s s' : State α capacity}

/-! ## What a step does -/

/-- What a step of the reader does. -/
inductive ReaderMove (src : Source α) (s : State α capacity) : State α capacity → Prop where
  | exit (hat : s.reader = .idle) (hshutdown : s.shutdown = true) :
    ReaderMove src s { s with reader := .exited }
  | take (hat : s.reader = .idle) (hshutdown : s.shutdown = false)
      (hpending : s.trackPending = true) :
    ReaderMove src s { s with
      trackPending := false
      trackFinished := false
      hasError := false
      lastError := ok
      reader := .resetQueue }
  | sleep (hat : s.reader = .idle) (hshutdown : s.shutdown = false)
      (hpending : s.trackPending = false) :
    ReaderMove src s { s with reader := .asleepStart }
  | reset (hat : s.reader = .resetQueue) :
    ReaderMove src s { s with queue := s.queue.reset, reader := .seek }
  | sought (hat : s.reader = .seek) (hseek : src.seek = ok) :
    ReaderMove src s { s with reader := .loop }
  | seekFailed (hat : s.reader = .seek) (hseek : src.seek ≠ ok) :
    ReaderMove src s { s with reader := .finish (some src.seek) .eofAndNext }
  | leave (hat : s.reader = .loop) (hstop : s.cancelled = true ∨ s.shutdown = true) :
    ReaderMove src s { s with reader := .afterLoop }
  | turn (hat : s.reader = .loop) (hcancelled : s.cancelled = false)
      (hshutdown : s.shutdown = false) :
    ReaderMove src s { s with reader := .read }
  | frame (hat : s.reader = .read) {frame : α} {last : Bool}
      (hread : src.read s.returned.length = .ok (frame, last)) :
    ReaderMove src s { s with reader := .push frame last, returned := s.returned ++ [frame] }
  | readFailed (hat : s.reader = .read) {code : Int}
      (hread : src.read s.returned.length = .error code) :
    ReaderMove src s { s with reader := .finish (some code) .eofAndLeave }
  | refused {frame : α} {last : Bool} (hat : s.reader = .push frame last)
      (hcancelled : s.queue.cancelled = true) :
    ReaderMove src s { s with reader := .finish none .leave }
  | pushed {frame : α} {last : Bool} (hat : s.reader = .push frame last)
      (hcancelled : s.queue.cancelled = false) (hroom : s.queue.ring.count < capacity) :
    ReaderMove src s { s with
      queue := { s.queue with ring := s.queue.ring.push hroom (frame, last) }
      reader := if last then .finish none .eofAndLeave else .loop
      consumer := s.consumer.wakeNotEmpty }
  | full {frame : α} {last : Bool} (hat : s.reader = .push frame last)
      (hcancelled : s.queue.cancelled = false) (hfull : ¬ s.queue.ring.count < capacity) :
    ReaderMove src s { s with reader := .asleepPush frame last }
  | finish {error : Option Int} {after : AfterFinish} (hat : s.reader = .finish error after) :
    ReaderMove src s { s with
      hasError := error.isSome || s.hasError
      lastError := error.getD s.lastError
      trackFinished := true
      reader := after.next
      consumer := s.consumer.wakeDone }
  | signalEof {next : Bool} (hat : s.reader = .signalEof next) :
    ReaderMove src s { s with
      queue := { s.queue with eof := true }
      reader := if next then .idle else .afterLoop
      consumer := s.consumer.wakeNotEmpty }
  | stop (hat : s.reader = .afterLoop) (hstop : s.cancelled = true ∨ s.shutdown = true) :
    ReaderMove src s { s with reader := .finish none .cancelQueue }
  | next (hat : s.reader = .afterLoop) (hcancelled : s.cancelled = false)
      (hshutdown : s.shutdown = false) :
    ReaderMove src s { s with reader := .idle }
  | cancelQueue (hat : s.reader = .cancelQueue) :
    ReaderMove src s { s with
      queue := { s.queue with cancelled := true }
      reader := .idle
      consumer := s.consumer.wakeNotEmpty }

theorem stepReader_move (h : s.stepReader src = some s') : ReaderMove src s s' := by
  cases hat : s.reader with
  | idle =>
    simp only [stepReader, hat] at h
    split at h
    · next hshutdown =>
      cases h
      exact .exit hat hshutdown
    · next hshutdown =>
      have hshutdown : s.shutdown = false := by simpa using hshutdown
      split at h
      · next hpending =>
        cases h
        exact .take hat hshutdown hpending
      · next hpending =>
        cases h
        exact .sleep hat hshutdown (by simpa using hpending)
  | resetQueue =>
    simp only [stepReader, hat] at h
    cases h
    exact .reset hat
  | seek =>
    simp only [stepReader, hat] at h
    split at h
    · next hseek =>
      cases h
      exact .sought hat hseek
    · next hseek =>
      cases h
      exact .seekFailed hat hseek
  | loop =>
    simp only [stepReader, hat] at h
    split at h
    · next hstop =>
      cases h
      exact .leave hat (by simpa using hstop)
    · next hstop =>
      cases h
      rw [Bool.or_eq_true, not_or, Bool.not_eq_true, Bool.not_eq_true] at hstop
      exact .turn hat hstop.1 hstop.2
  | read =>
    simp only [stepReader, hat] at h
    split at h
    · next hread =>
      cases h
      exact .frame hat hread
    · next hread =>
      cases h
      exact .readFailed hat hread
  | push frame last =>
    simp only [stepReader, hat] at h
    split at h
    · next hcancelled =>
      cases h
      exact .refused hat hcancelled
    · next hcancelled =>
      have hcancelled : s.queue.cancelled = false := by simpa using hcancelled
      split at h
      · next hroom =>
        cases h
        exact .pushed hat hcancelled hroom
      · next hfull =>
        cases h
        exact .full hat hcancelled hfull
  | finish error after =>
    simp only [stepReader, hat] at h
    cases h
    exact .finish hat
  | signalEof next =>
    simp only [stepReader, hat] at h
    cases h
    exact .signalEof hat
  | afterLoop =>
    simp only [stepReader, hat] at h
    split at h
    · next hstop =>
      cases h
      exact .stop hat (by simpa using hstop)
    · next hstop =>
      cases h
      rw [Bool.or_eq_true, not_or, Bool.not_eq_true, Bool.not_eq_true] at hstop
      exact .next hat hstop.1 hstop.2
  | cancelQueue =>
    simp only [stepReader, hat] at h
    cases h
    exact .cancelQueue hat
  | asleepStart | asleepPush _ _ | exited =>
    simp only [stepReader, hat] at h
    cases h

/-- What a step of the consumer does. -/
inductive ConsumerMove (batchSize : Nat) (s : State α capacity) : State α capacity → Prop where
  | start (hat : s.consumer = .startTrack) (hshutdown : s.shutdown = false) :
    ConsumerMove batchSize s { s with
      cancelled := false
      trackPending := true
      trackStarted := true
      trackFinished := false
      reader := s.reader.wakeStart
      consumer := .loop false }
  | refused (hat : s.consumer = .startTrack) (hshutdown : s.shutdown = true) :
    ConsumerMove batchSize s { s with result := errorRead, consumer := .destroy }
  | turn (hat : s.consumer = .loop false) (hpipe : s.pipeCancelled = false) :
    ConsumerMove batchSize s { s with consumer := .pop }
  | leave {trackComplete : Bool} (hat : s.consumer = .loop trackComplete)
      (hstop : s.pipeCancelled = true ∨ trackComplete = true) :
    ConsumerMove batchSize s { s with consumer := .cleanup }
  | cancelled (hat : s.consumer = .pop) (hcancelled : s.queue.cancelled = true) :
    ConsumerMove batchSize s { s with consumer := .popFailed }
  | sleep (hat : s.consumer = .pop) (hcancelled : s.queue.cancelled = false)
      (hcount : s.queue.ring.count = 0) (heof : s.queue.eof = false) :
    ConsumerMove batchSize s { s with consumer := .asleepPop }
  | none (hat : s.consumer = .pop) (hcancelled : s.queue.cancelled = false)
      (hready : s.queue.ring.count ≠ 0 ∨ s.queue.eof = true)
      (hnone : (s.queue.popBatch batchSize).1 = []) :
    ConsumerMove batchSize s { s with
      queue := (s.queue.popBatch batchSize).2
      popped := s.popped ++ (s.queue.popBatch batchSize).1.map Prod.fst
      result := ok
      consumer := .popEmpty }
  | popped (hat : s.consumer = .pop) (hcancelled : s.queue.cancelled = false)
      (hsome : (s.queue.popBatch batchSize).1 ≠ []) :
    ConsumerMove batchSize s { s with
      queue := (s.queue.popBatch batchSize).2
      popped := s.popped ++ (s.queue.popBatch batchSize).1.map Prod.fst
      result := ok
      reader := s.reader.wakeNotFull
      consumer := .process (hasLast (s.queue.popBatch batchSize).1) }
  | popFailed (hat : s.consumer = .popFailed) :
    ConsumerMove batchSize s { s with
      result := if s.hasError then s.lastError else errorRead
      consumer := .cleanup }
  | popEmpty (hat : s.consumer = .popEmpty) :
    ConsumerMove batchSize s { s with
      result := if s.hasError then s.lastError else s.result
      consumer := .cleanup }
  | written {trackComplete : Bool} (hat : s.consumer = .process trackComplete) :
    ConsumerMove batchSize s { s with consumer := .loop trackComplete }
  | failed {trackComplete : Bool} (hat : s.consumer = .process trackComplete) {code : Int}
      (hcode : code ≠ 0) :
    ConsumerMove batchSize s { s with result := code, consumer := .cleanup }
  | stopped {trackComplete : Bool} (hat : s.consumer = .process trackComplete) :
    ConsumerMove batchSize s { s with
      pipeCancelled := true
      result := errorCancelled
      consumer := .cleanup }
  | cancel (hat : s.consumer = .cleanup) (hstop : s.result ≠ ok ∨ s.pipeCancelled = true) :
    ConsumerMove batchSize s { s with consumer := .cancelFlag }
  | ended (hat : s.consumer = .cleanup) (hresult : s.result = ok)
      (hpipe : s.pipeCancelled = false) :
    ConsumerMove batchSize s { s with consumer := .wait }
  | cancelFlag (hat : s.consumer = .cancelFlag) :
    ConsumerMove batchSize s { s with cancelled := true, consumer := .cancelQueue }
  | cancelQueue (hat : s.consumer = .cancelQueue) :
    ConsumerMove batchSize s { s with
      queue := { s.queue with cancelled := true }
      reader := s.reader.wakeNotFull
      consumer := .wait }
  | wait (hat : s.consumer = .wait) (hfinished : s.trackFinished = false)
      (hstarted : s.trackStarted = true) (hshutdown : s.shutdown = false) :
    ConsumerMove batchSize s { s with consumer := .asleepWait }
  | waited (hat : s.consumer = .wait)
      (hdone : s.trackFinished = true ∨ s.trackStarted = false ∨ s.shutdown = true) :
    ConsumerMove batchSize s { s with consumer := .destroy }
  | destroy (hat : s.consumer = .destroy) :
    ConsumerMove batchSize s { s with
      shutdown := true
      cancelled := true
      reader := s.reader.wakeStart
      consumer := .destroyCancel }
  | destroyCancel (hat : s.consumer = .destroyCancel) :
    ConsumerMove batchSize s { s with
      queue := { s.queue with cancelled := true }
      reader := s.reader.wakeNotFull
      consumer := .join }
  | join (hat : s.consumer = .join) (hexited : s.reader = .exited) :
    ConsumerMove batchSize s { s with consumer := .finished }

theorem stepConsumer_move {processed : Processed}
    (h : s.stepConsumer batchSize processed = some s') : ConsumerMove batchSize s s' := by
  cases hat : s.consumer with
  | startTrack =>
    simp only [stepConsumer, hat] at h
    split at h
    · cases h
    · split at h
      · next hshutdown =>
        cases h
        exact .refused hat hshutdown
      · next hshutdown =>
        cases h
        exact .start hat (by simpa using hshutdown)
  | loop trackComplete =>
    simp only [stepConsumer, hat] at h
    split at h
    · next hgo =>
      cases h
      have hboth : s.pipeCancelled = false ∧ trackComplete = false := by simpa using hgo
      obtain ⟨hpipe, rfl⟩ := hboth
      exact .turn hat hpipe
    · next hstop =>
      cases h
      refine .leave hat ?_
      by_contra hnot
      simp only [not_or, Bool.not_eq_true] at hnot
      exact hstop (by simp [hnot.1, hnot.2])
  | pop =>
    simp only [stepConsumer, hat] at h
    split at h
    · next hcancelled =>
      cases h
      exact .cancelled hat hcancelled
    · next hcancelled =>
      have hcancelled : s.queue.cancelled = false := by simpa using hcancelled
      split at h
      · next hwait =>
        cases h
        have hboth : s.queue.ring.count = 0 ∧ s.queue.eof = false := by simpa using hwait
        exact .sleep hat hcancelled hboth.1 hboth.2
      · next hready =>
        have hready : s.queue.ring.count ≠ 0 ∨ s.queue.eof = true := by
          by_contra hnot
          simp only [not_or, not_not, Bool.not_eq_true] at hnot
          exact hready (by simp [hnot.1, hnot.2])
        split at h
        · next hnone =>
          cases h
          exact .none hat hcancelled hready (by simpa using hnone)
        · next hsome =>
          cases h
          exact .popped hat hcancelled (by simpa using hsome)
  | popFailed =>
    simp only [stepConsumer, hat] at h
    cases h
    exact .popFailed hat
  | popEmpty =>
    simp only [stepConsumer, hat] at h
    cases h
    exact .popEmpty hat
  | process trackComplete =>
    simp only [stepConsumer, hat] at h
    cases processed with
    | ok =>
      cases h
      exact .written hat
    | failed code hcode =>
      cases h
      exact .failed hat hcode
    | stopped =>
      cases h
      exact .stopped hat
  | cleanup =>
    simp only [stepConsumer, hat] at h
    split at h
    · next hstop =>
      cases h
      exact .cancel hat (by simpa using hstop)
    · next hend =>
      cases h
      have hboth : s.result = ok ∧ s.pipeCancelled = false := by simpa using hend
      exact .ended hat hboth.1 hboth.2
  | cancelFlag =>
    simp only [stepConsumer, hat] at h
    cases h
    exact .cancelFlag hat
  | cancelQueue =>
    simp only [stepConsumer, hat] at h
    cases h
    exact .cancelQueue hat
  | wait =>
    simp only [stepConsumer, hat] at h
    split at h
    · next hwait =>
      cases h
      have hall : (s.trackFinished = false ∧ s.trackStarted = true) ∧ s.shutdown = false := by
        simpa using hwait
      exact .wait hat hall.1.1 hall.1.2 hall.2
    · next hdone =>
      cases h
      refine .waited hat ?_
      by_contra hnot
      simp only [not_or, Bool.not_eq_true, Bool.not_eq_false] at hnot
      exact hdone (by simp [hnot.1, hnot.2.1, hnot.2.2])
  | destroy =>
    simp only [stepConsumer, hat] at h
    cases h
    exact .destroy hat
  | destroyCancel =>
    simp only [stepConsumer, hat] at h
    cases h
    exact .destroyCancel hat
  | join =>
    simp only [stepConsumer, hat] at h
    split at h
    · next hexited =>
      cases h
      exact .join hat hexited
    · cases h
  | asleepPop | asleepWait | finished =>
    simp only [stepConsumer, hat] at h
    cases h

/-! ## Waking up -/

end State

theorem ReaderAt.wakeStart_cases (r : ReaderAt α) :
    r ≠ .asleepStart ∧ r.wakeStart = r ∨ r = .asleepStart ∧ r.wakeStart = .idle := by
  cases r <;> simp [ReaderAt.wakeStart]

theorem ReaderAt.wakeNotFull_cases (r : ReaderAt α) :
    (∀ frame last, r ≠ .asleepPush frame last) ∧ r.wakeNotFull = r ∨
      ∃ frame last, r = .asleepPush frame last ∧ r.wakeNotFull = .push frame last := by
  cases r <;> simp [ReaderAt.wakeNotFull]

theorem ConsumerAt.wakeNotEmpty_cases (c : ConsumerAt) :
    c ≠ .asleepPop ∧ c.wakeNotEmpty = c ∨ c = .asleepPop ∧ c.wakeNotEmpty = .pop := by
  cases c <;> simp [ConsumerAt.wakeNotEmpty]

theorem ConsumerAt.wakeDone_cases (c : ConsumerAt) :
    c ≠ .asleepWait ∧ c.wakeDone = c ∨ c = .asleepWait ∧ c.wakeDone = .wait := by
  cases c <;> simp [ConsumerAt.wakeDone]

namespace State

variable {src : Source α} {batchSize : Nat} {s s' : State α capacity}

/-! ## Threads sleep only while they have to -/

theorem Sleeps.readerMove (hs : s.Sleeps) (h : ReaderMove src s s') : s'.Sleeps := by
  obtain ⟨hpush, hpop, hstart, hdone⟩ := hs
  cases h with
  | @finish error after hat =>
    have hwake := s.consumer.wakeDone_cases
    constructor
    all_goals cases after <;> grind -linarith [AfterFinish.next]
  | pushed hat hcancelled hroom =>
    have hwake := s.consumer.wakeNotEmpty_cases
    constructor
    all_goals grind -linarith
  | signalEof hat =>
    have hwake := s.consumer.wakeNotEmpty_cases
    constructor
    all_goals grind -linarith
  | cancelQueue hat =>
    have hwake := s.consumer.wakeNotEmpty_cases
    constructor
    all_goals grind -linarith
  | reset hat =>
    constructor
    all_goals grind -linarith [FrameQueue.reset, Ring.count_clear]
  | _ =>
    constructor
    all_goals grind -linarith

theorem popBatch_append (q : FrameQueue α capacity) (n : Nat) :
    (q.popBatch n).1 ++ (q.popBatch n).2.ring.contents = q.ring.contents :=
  Ring.popWhile_append _ n q.ring

theorem hasLast_popBatch (q : FrameQueue α capacity) (n : Nat) :
    hasLast q.ring.contents =
      (hasLast (q.popBatch n).1 || hasLast (q.popBatch n).2.ring.contents) := by
  rw [← popBatch_append q n, hasLast, List.any_append]
  rfl

theorem hasLast_push (r : Ring (α × Bool) capacity) (h : r.count < capacity) (frame : α)
    (last : Bool) : hasLast (r.push h (frame, last)).contents = (hasLast r.contents || last) := by
  simp [hasLast, Ring.contents_push]

theorem popBatch_eq_nil_iff (q : FrameQueue α capacity) {n : Nat} (hn : 0 < n) :
    (q.popBatch n).1 = [] ↔ q.ring.count = 0 := Ring.popWhile_eq_nil_iff _ hn q.ring

@[simp, grind =] theorem popBatch_eof (q : FrameQueue α capacity) (n : Nat) :
    (q.popBatch n).2.eof = q.eof := rfl

@[simp, grind =] theorem popBatch_cancelled (q : FrameQueue α capacity) (n : Nat) :
    (q.popBatch n).2.cancelled = q.cancelled := rfl

theorem Sleeps.consumerMove (hs : s.Sleeps) (h : ConsumerMove batchSize s s') : s'.Sleeps := by
  obtain ⟨hpush, hpop, hstart, hdone⟩ := hs
  cases h with
  | start hat hshutdown =>
    have hwake := s.reader.wakeStart_cases
    constructor
    all_goals grind -linarith
  | popped hat hcancelled hsome =>
    have hwake := s.reader.wakeNotFull_cases
    constructor
    all_goals grind -linarith
  | cancelQueue hat =>
    have hwake := s.reader.wakeNotFull_cases
    constructor
    all_goals grind -linarith
  | destroy hat =>
    have hwake := s.reader.wakeStart_cases
    constructor
    all_goals grind -linarith
  | destroyCancel hat =>
    have hwake := s.reader.wakeNotFull_cases
    constructor
    all_goals grind -linarith
  | none hat hcancelled hready hnone =>
    have happend := popBatch_append s.queue batchSize
    rw [hnone, List.nil_append] at happend
    have hcount : (s.queue.popBatch batchSize).2.ring.count = s.queue.ring.count := by
      rw [← Ring.contents_length, ← Ring.contents_length, happend]
    constructor
    all_goals grind -linarith
  | _ =>
    constructor
    all_goals grind -linarith

/-! ## The flags go with the reader -/

theorem ReaderFacts.readerMove (hs : s.ReaderFacts) (h : ReaderMove src s s') :
    s'.ReaderFacts := by
  obtain ⟨hbusy, hpending, hidle, hfinished, heof, hsignalEof, hrefused, hcancelled, hleft,
    hexited, hshutdown, herror, hstoring⟩ := hs
  cases h with
  | reset hat =>
    constructor
    all_goals grind -linarith [FrameQueue.reset]
  | @readFailed hat code hread =>
    have hcode := Source.read_error hread
    constructor
    all_goals grind -linarith
  | @finish error after hat =>
    constructor
    all_goals cases after <;> cases error <;> grind -linarith [AfterFinish.next]
  | _ =>
    constructor
    all_goals grind -linarith

theorem ReaderFacts.consumerMove (hs : s.ReaderFacts) (hc : s.ConsumerFacts)
    (h : ConsumerMove batchSize s s') : s'.ReaderFacts := by
  have hfresh := hc.fresh
  have hended := hc.ended
  obtain ⟨hbusy, hpending, hidle, hfinished, heof, hsignalEof, hrefused, hcancelled, hleft,
    hexited, hshutdown, herror, hstoring⟩ := hs
  cases h with
  | start hat hs =>
    have hwake := s.reader.wakeStart_cases
    constructor
    all_goals grind -linarith
  | popped hat hc hsome =>
    have hwake := s.reader.wakeNotFull_cases
    constructor
    all_goals grind -linarith
  | cancelQueue hat =>
    have hwake := s.reader.wakeNotFull_cases
    constructor
    all_goals grind -linarith
  | destroy hat =>
    have hwake := s.reader.wakeStart_cases
    constructor
    all_goals grind -linarith
  | destroyCancel hat =>
    have hwake := s.reader.wakeNotFull_cases
    constructor
    all_goals grind -linarith
  | _ =>
    constructor
    all_goals grind -linarith

/-! ## What the consumer knows stays true -/

theorem Over.readerMove (hs : s.Over) (h : ReaderMove src s s') : s'.Over := by
  cases h with
  | @finish error after hat => cases after <;> grind -linarith [AfterFinish.next]
  | _ => grind -linarith

theorem trackFinished_readerMove (hs : s.ReaderFacts) (h : ReaderMove src s s')
    (hfinished : s.trackFinished = true) : s'.trackFinished = true := by
  have hpending := hs.finished hfinished
  cases h with
  | _ => grind -linarith

/-- A consumer that has been signalled knows the same of the reader. -/
theorem ConsumerFacts.woken (hs : s.ConsumerFacts) {c : ConsumerAt}
    (hc : c = s.consumer ∨ s.consumer = .asleepPop ∧ c = .pop ∨ s.consumer = .asleepWait ∧ c = .wait) :
    ConsumerFacts { s with consumer := c } := by
  obtain ⟨hfresh, hstarted, hshutdown, hcomplete, hflagged, hempty, hcleanup, hflag, hwaiting,
    hended⟩ := hs
  rcases hc with rfl | ⟨hat, rfl⟩ | ⟨hat, rfl⟩
  · constructor
    all_goals assumption
  · constructor
    all_goals grind -linarith
  · constructor
    all_goals grind -linarith

theorem ConsumerFacts.readerMove (hs : s.ConsumerFacts) (hr : s.ReaderFacts)
    (h : ReaderMove src s s') : s'.ConsumerFacts := by
  have hover : s.Over → s'.Over := fun hover => hover.readerMove h
  have hpending := hr.pending
  have hkept := trackFinished_readerMove hr h
  obtain ⟨hfresh, hstarted, hshutdown, hcomplete, hflagged, hempty, hcleanup, hflag, hwaiting,
    hended⟩ := hs
  cases h with
  | reset hat =>
    constructor
    all_goals grind -linarith [FrameQueue.reset, Ring.contents_clear]
  | pushed hat hc hroom =>
    have hwake := s.consumer.wakeNotEmpty_cases
    constructor
    all_goals grind -linarith [hasLast_push]
  | @finish error after hat =>
    have hwake := s.consumer.wakeDone_cases
    constructor
    all_goals cases after <;> grind -linarith [AfterFinish.next]
  | signalEof hat =>
    have hwake := s.consumer.wakeNotEmpty_cases
    constructor
    all_goals grind -linarith
  | cancelQueue hat =>
    have hwake := s.consumer.wakeNotEmpty_cases
    constructor
    all_goals grind -linarith
  | _ =>
    constructor
    all_goals grind -linarith

theorem ConsumerFacts.consumerMove (hs : s.ConsumerFacts) (hr : s.ReaderFacts)
    (hbatch : 0 < batchSize) (h : ConsumerMove batchSize s s') : s'.ConsumerFacts := by
  have heof := hr.eof
  have hidle := hr.idle
  have hpast := hr.finished
  have herror := hr.error
  obtain ⟨hfresh, hstarted, hshutdown, hcomplete, hflagged, hempty, hcleanup, hflag, hwaiting,
    hended⟩ := hs
  cases h with
  | start hat hs =>
    have hwake := s.reader.wakeStart_cases
    constructor
    all_goals grind -linarith
  | popped hat hc hsome =>
    have hwake := s.reader.wakeNotFull_cases
    have hlast := hasLast_popBatch s.queue batchSize
    constructor
    all_goals grind -linarith
  | none hat hc hready hnone =>
    have hlast := hasLast_popBatch s.queue batchSize
    have hcount := (popBatch_eq_nil_iff s.queue hbatch).1 hnone
    have hpastEof := heof (hready.resolve_left (fun hne => hne hcount))
    have hmay := ReaderAt.mayPush_of_isPastEof hpastEof.2.2
    constructor
    all_goals grind -linarith
  | cancelQueue hat =>
    have hwake := s.reader.wakeNotFull_cases
    constructor
    all_goals grind -linarith
  | destroy hat =>
    have hwake := s.reader.wakeStart_cases
    constructor
    all_goals grind -linarith
  | destroyCancel hat =>
    have hwake := s.reader.wakeNotFull_cases
    constructor
    all_goals grind -linarith
  | popFailed hat =>
    constructor
    all_goals grind -linarith [errorRead, ok]
  | popEmpty hat =>
    constructor
    all_goals grind -linarith
  | _ =>
    constructor
    all_goals grind -linarith [errorCancelled, ok]

/-! ## Every reachable state -/

/-- What holds of the threads in every reachable state. -/
structure Coupled (s : State α capacity) : Prop where
  sleeps : s.Sleeps
  reader : s.ReaderFacts
  consumer : s.ConsumerFacts

theorem Coupled.initial (h : 0 < capacity) : (State.initial α h).Coupled := by
  refine ⟨?_, ?_, ?_⟩
  · constructor
    all_goals simp [State.initial]
  · constructor
    all_goals simp [State.initial, FrameQueue.create, ReaderAt.isIdle]
  · constructor
    all_goals simp [State.initial, FrameQueue.create, ReaderAt.isIdle, ConsumerAt.isShut,
      ConsumerAt.isComplete, ConsumerAt.isWaiting, ConsumerAt.isEnded, hasLast]

theorem Coupled.cancelQueue (hs : s.Coupled) : s.queueCancel.Coupled := by
  have hreader := s.reader.wakeNotFull_cases
  have hconsumer := s.consumer.wakeNotEmpty_cases
  obtain ⟨⟨hpush, hpop, hstart, hdone⟩, hr, hc⟩ := hs
  obtain ⟨hbusy, hpending, hidle, hfinished, heof, hsignalEof, hrefused, hcancelled, hleft,
    hexited, hshutdown, herror, hstoring⟩ := hr
  obtain ⟨hfresh, hstarted, hshut, hcomplete, hflagged, hempty, hcleanup, hflag, hwaiting,
    hended⟩ := hc
  simp only [queueCancel, State.wakeNotFull, State.wakeNotEmpty]
  refine ⟨?_, ?_, ?_⟩
  · constructor
    all_goals grind -linarith
  · constructor
    all_goals grind -linarith
  · constructor
    all_goals grind -linarith

theorem Coupled.wakeReader (hs : s.Coupled) : s.wakeStart.wakeNotFull.Coupled := by
  have hstartCases := s.reader.wakeStart_cases
  have hfullCases := s.reader.wakeStart.wakeNotFull_cases
  obtain ⟨⟨hpush, hpop, hstart, hdone⟩, hr, hc⟩ := hs
  obtain ⟨hbusy, hpending, hidle, hfinished, heof, hsignalEof, hrefused, hcancelled, hleft,
    hexited, hshutdown, herror, hstoring⟩ := hr
  obtain ⟨hfresh, hstarted, hshut, hcomplete, hflagged, hempty, hcleanup, hflag, hwaiting,
    hended⟩ := hc
  simp only [State.wakeNotFull, State.wakeStart]
  refine ⟨?_, ?_, ?_⟩
  · constructor
    all_goals grind -linarith
  · constructor
    all_goals grind -linarith
  · constructor
    all_goals grind -linarith

theorem Coupled.wakeConsumer (hs : s.Coupled) : s.wakeNotEmpty.wakeDone.Coupled := by
  have hemptyCases := s.consumer.wakeNotEmpty_cases
  have hdoneCases := s.consumer.wakeNotEmpty.wakeDone_cases
  obtain ⟨⟨hpush, hpop, hstart, hdone⟩, hr, hc⟩ := hs
  obtain ⟨hbusy, hpending, hidle, hfinished, heof, hsignalEof, hrefused, hcancelled, hleft,
    hexited, hshutdown, herror, hstoring⟩ := hr
  obtain ⟨hfresh, hstarted, hshut, hcomplete, hflagged, hempty, hcleanup, hflag, hwaiting,
    hended⟩ := hc
  simp only [State.wakeNotEmpty, State.wakeDone]
  refine ⟨?_, ?_, ?_⟩
  · constructor
    all_goals grind -linarith
  · constructor
    all_goals grind -linarith
  · constructor
    all_goals grind -linarith

theorem Coupled.cancelPipe (hs : s.Coupled) : Coupled { s with pipeCancelled := true } := by
  obtain ⟨⟨hpush, hpop, hstart, hdone⟩, hr, hc⟩ := hs
  obtain ⟨hfresh, hstarted, hshut, hcomplete, hflagged, hempty, hcleanup, hflag, hwaiting,
    hended⟩ := hc
  refine ⟨?_, ?_, ?_⟩
  · constructor
    all_goals assumption
  · cases hr
    constructor
    all_goals assumption
  · constructor
    all_goals grind -linarith

theorem Coupled.cancelFlag (hs : s.Coupled) : Coupled { s with cancelled := true } := by
  obtain ⟨⟨hpush, hpop, hstart, hdone⟩, hr, hc⟩ := hs
  obtain ⟨hbusy, hpending, hidle, hfinished, heof, hsignalEof, hrefused, hcancelled, hleft,
    hexited, hshutdown, herror, hstoring⟩ := hr
  obtain ⟨hfresh, hstarted, hshut, hcomplete, hflagged, hempty, hcleanup, hflag, hwaiting,
    hended⟩ := hc
  refine ⟨?_, ?_, ?_⟩
  · constructor
    all_goals assumption
  · constructor
    all_goals grind -linarith
  · constructor
    all_goals grind -linarith

theorem Coupled.step (hs : s.Coupled) (hbatch : 0 < batchSize) {e : Event}
    (h : State.step src batchSize s e = some s') : s'.Coupled := by
  cases e with
  | reader =>
    have hmove := stepReader_move h
    exact ⟨hs.sleeps.readerMove hmove, hs.reader.readerMove hmove,
      hs.consumer.readerMove hs.reader hmove⟩
  | consumer processed =>
    have hmove := stepConsumer_move h
    exact ⟨hs.sleeps.consumerMove hmove, hs.reader.consumerMove hs.consumer hmove,
      hs.consumer.consumerMove hs.reader hbatch hmove⟩
  | cancelPipe =>
    cases h
    exact hs.cancelPipe
  | cancelFlag =>
    cases h
    exact hs.cancelFlag
  | cancelQueue =>
    cases h
    exact hs.cancelQueue
  | wakeReader =>
    cases h
    exact hs.wakeReader
  | wakeConsumer =>
    cases h
    exact hs.wakeConsumer

/-- The threads are never both blocked. -/
theorem Coupled.not_both_blocked (hs : s.Coupled) (hcapacity : 0 < capacity) :
    ¬ (s.ReaderBlocked ∧ s.ConsumerBlocked) := by
  rintro ⟨hreader, hconsumer⟩
  obtain ⟨⟨hpush, hpop, hstart, hdone⟩, hr, hc⟩ := hs
  obtain ⟨hbusy, hpending, hidle, hfinished, heof, hsignalEof, hrefused, hcancelled, hleft,
    hexited, hshutdown, herror, hstoring⟩ := hr
  obtain ⟨hfresh, hstarted, hshut, hcomplete, hflagged, hempty, hcleanup, hflag, hwaiting,
    hended⟩ := hc
  unfold ReaderBlocked at hreader
  unfold ConsumerBlocked at hconsumer
  split at hreader
  · next hat =>
    have hnot := hstart hat
    split at hconsumer
    · grind -linarith
    · grind -linarith
    · grind -linarith
    · exact hconsumer
  · next frame last hat =>
    have hnot := hpush _ _ hat
    split at hconsumer
    · grind -linarith
    · grind -linarith
    · grind -linarith
    · exact hconsumer
  · exact hreader

/-- As long as the consumer has not finished, one of the two can go on. -/
theorem Coupled.can_step (hs : s.Coupled) (hcapacity : 0 < capacity)
    (hfinished : s.consumer ≠ .finished) :
    (s.stepReader src).isSome = true ∨ (s.stepConsumer batchSize .ok).isSome = true := by
  have hnot := hs.not_both_blocked hcapacity
  have hexited := hs.reader.exited
  have hshut := hs.consumer.shutdown
  have hfresh := hs.consumer.fresh
  by_cases hreader : s.reader = .exited ∨ s.ReaderBlocked
  · right
    have hshutdown : s.reader = .exited → s.consumer.isShut = true := by
      intro hat
      rw [← hshut, hexited hat]
    unfold ConsumerBlocked at hnot
    unfold stepConsumer
    grind -linarith
  · left
    unfold ReaderBlocked at hreader
    unfold stepReader
    grind -linarith

end State

end DsdNexus.Dsdpipe
