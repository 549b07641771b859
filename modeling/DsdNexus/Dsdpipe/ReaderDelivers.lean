import DsdNexus.Dsdpipe.ReaderProgress

/-! # What the consumer gets

The frames the source has returned are the frames popped, the frames in the
queue and the frame the reader holds, in this order, until a cancelled reader
drops the one it holds. Where nothing is cancelled the consumer ends with every
frame of the source, and with an error where the reader failed.
-/

namespace DsdNexus.Dsdpipe

open Transition

variable {α : Type} {capacity : Nat}

/-! ## Turns of the read loop -/

namespace Source

variable {src : Source α} {returned : List α}

theorem read_frame (hpre : returned <+: src.frames) {frame : α}
    (h : src.read returned.length = .ok (frame, false)) : returned ++ [frame] <+: src.frames := by
  unfold read at h
  split at h
  · next f hget =>
    cases h
    obtain ⟨rest, hrest⟩ := hpre
    rw [← hrest, List.getElem?_append_right (Nat.le_refl _), Nat.sub_self] at hget
    cases rest with
    | nil => cases hget
    | cons g rest =>
      cases hget
      exact ⟨rest, by rw [← hrest]; simp⟩
  · split at h
    all_goals cases h

theorem eq_frames_of_getElem? (hpre : returned <+: src.frames)
    (h : src.frames[returned.length]? = none) : returned = src.frames :=
  hpre.eq_of_length_le (List.getElem?_eq_none_iff.1 h)

theorem read_last (hseek : src.seek = ok) (hpre : returned <+: src.frames) {frame : α}
    (h : src.read returned.length = .ok (frame, true)) :
    returned ++ [frame] = src.delivered ∧ ¬ src.Fails := by
  cases hget : src.frames[returned.length]? with
  | some f => simp [read, hget] at h
  | none =>
    rw [eq_frames_of_getElem? hpre hget]
    cases hend : src.ending with
    | lastFlag f =>
      obtain rfl : f = frame := by simpa [read, hget, hend] using h
      simp [delivered, Fails, hseek, hend]
    | endOfTrack f =>
      obtain rfl : f = frame := by simpa [read, hget, hend] using h
      simp [delivered, Fails, hseek, hend]
    | readError code hcode => simp [read, hget, hend] at h
    | noBuffer => simp [read, hget, hend] at h

theorem read_failed (hseek : src.seek = ok) (hpre : returned <+: src.frames) {code : Int}
    (h : src.read returned.length = .error code) : returned = src.delivered ∧ src.Fails := by
  cases hget : src.frames[returned.length]? with
  | some f => simp [read, hget] at h
  | none =>
    rw [eq_frames_of_getElem? hpre hget]
    cases hend : src.ending with
    | lastFlag f => simp [read, hget, hend] at h
    | endOfTrack f => simp [read, hget, hend] at h
    | readError code hcode => simp [delivered, Fails, hseek, hend]
    | noBuffer => simp [delivered, Fails, hseek, hend]

theorem frames_prefix (hseek : src.seek = ok) : src.frames <+: src.delivered := by
  cases hend : src.ending with
  | lastFlag f => simp [delivered, hseek, hend]
  | endOfTrack f => simp [delivered, hseek, hend]
  | readError code hcode => simp [delivered, hseek, hend]
  | noBuffer => simp [delivered, hseek, hend]

theorem seek_failed (hseek : src.seek ≠ ok) : src.delivered = [] ∧ src.Fails :=
  ⟨if_neg hseek, .inl hseek⟩

end Source

/-! ## Where the frames are -/

/-- The frame the reader holds. -/
@[grind] def ReaderAt.inHand : ReaderAt α → List α
  | .push frame _ | .asleepPush frame _ => [frame]
  | .idle | .asleepStart | .resetQueue | .seek | .loop | .read => []
  | .finish _ _ | .signalEof _ | .afterLoop | .cancelQueue | .exited => []

/-- The consumer still takes frames. -/
@[grind] def ConsumerAt.isEarly : ConsumerAt → Bool
  | .startTrack | .loop _ | .pop | .asleepPop | .popEmpty | .process _ => true
  | .popFailed | .cleanup | .cancelFlag | .cancelQueue | .wait | .asleepWait => false
  | .destroy | .destroyCancel | .join | .finished => false

namespace State

variable {src : Source α} {batchSize : Nat} {s s' : State α capacity}

/-- The frames in the queue. -/
def queued (s : State α capacity) : List α := s.queue.ring.contents.map Prod.fst

/-- No frame before the end of these is the last of the track. -/
def LastAtEnd (slots : List (α × Bool)) : Prop := hasLast slots.dropLast = false

/-- The frames returned so far are where they should be. -/
structure Flow (src : Source α) (s : State α capacity) : Prop where
  before : s.trackStarted = false ∨ s.trackPending = true ∨ s.reader = .resetQueue ∨
    s.reader = .seek → s.returned = [] ∧ s.popped = [] ∧ s.queue.ring.contents = []
  flow : s.popped ++ s.queued ++ s.reader.inHand = s.returned ∨
    s.queue.cancelled = true ∧ s.Over ∧ s.popped ++ s.queued <+: s.returned
  looping : s.reader = .loop ∨ s.reader = .read → src.seek = ok ∧ s.returned <+: src.frames
  pushing : ∀ frame last, s.reader = .push frame last ∨ s.reader = .asleepPush frame last →
    src.seek = ok ∧ (last = false → s.returned <+: src.frames) ∧
      (last = true → s.returned = src.delivered ∧ ¬ src.Fails)
  soFar : s.returned <+: src.delivered
  lastQueued : hasLast s.queue.ring.contents = true →
    s.popped ++ s.queued = src.delivered ∧ ¬ src.Fails ∧
      LastAtEnd s.queue.ring.contents
  complete : s.consumer.isComplete = true → s.popped = src.delivered ∧ ¬ src.Fails

/-- The end of the track is where the source puts it, with an error where the source fails. -/
structure Ends (src : Source α) (s : State α capacity) : Prop where
  clean : s.reader.mayPush = true → s.hasError = false
  failing : ∀ code after, s.reader = .finish (some code) after →
    s.returned = src.delivered ∧ src.Fails
  finishing : s.reader = .finish none .eofAndLeave →
    s.returned = src.delivered ∧ ¬ src.Fails ∧ s.hasError = false
  seeking : s.reader ≠ .finish none .eofAndNext
  signalEof : ∀ next, s.reader = .signalEof next →
    s.returned = src.delivered ∧ (s.hasError = true ↔ src.Fails)
  ended : s.queue.eof = true → s.returned = src.delivered ∧ (s.hasError = true ↔ src.Fails)
  error : s.hasError = true → src.Fails

theorem queued_push (s : State α capacity) (h : s.queue.ring.count < capacity) (frame : α)
    (last : Bool) :
    (s.queue.ring.push h (frame, last)).contents.map Prod.fst = s.queued ++ [frame] := by
  simp [queued, Ring.contents_push]

theorem lastAtEnd_push {r : Ring (α × Bool) capacity} (hnone : hasLast r.contents = false)
    (h : r.count < capacity) (frame : α) (last : Bool) :
    LastAtEnd (r.push h (frame, last)).contents := by
  rw [LastAtEnd, Ring.contents_push, List.dropLast_concat]
  exact hnone

theorem Flow.readerMove (hs : s.Flow src) (hr : s.ReaderFacts) (hc : s.ConsumerFacts)
    (h : ReaderMove src s s') : s'.Flow src := by
  have hpendingIdle := hr.pending
  have hbusy := hr.busy
  have hlastOver := hc.flagged
  obtain ⟨hbefore, hflow, hlooping, hpushing, hsoFar, hlastQueued, hcomplete⟩ := hs
  cases h with
  | reset hat =>
    constructor
    all_goals grind -linarith [queued, FrameQueue.reset, Ring.contents_clear]
  | @frame hat frame last hread =>
    have hloop := hlooping (.inr hat)
    cases last with
    | false =>
      have hnext := Source.read_frame hloop.2 hread
      have hpre := hnext.trans (Source.frames_prefix hloop.1)
      constructor
      all_goals grind -linarith [queued]
    | true =>
      have hnext := Source.read_last hloop.1 hloop.2 hread
      constructor
      all_goals grind -linarith [queued]
  | @refused frame last hat hcancelled =>
    have hprefix : s.popped ++ s.queued <+: s.popped ++ s.queued ++ [frame] :=
      List.prefix_append _ _
    constructor
    all_goals grind -linarith [queued]
  | @pushed frame last hat hcancelled hroom =>
    have hwake := s.consumer.wakeNotEmpty_cases
    have hqueued := queued_push s hroom frame last
    have hlast := hasLast_push s.queue.ring hroom frame last
    have hend := fun hnone => lastAtEnd_push (r := s.queue.ring) hnone hroom frame last
    have hpush := hpushing frame last (.inl hat)
    constructor
    all_goals grind -linarith [queued]
  | @finish error after hat =>
    have hwake := s.consumer.wakeDone_cases
    constructor
    all_goals cases after <;> grind -linarith [AfterFinish.next, queued]
  | signalEof hat =>
    have hwake := s.consumer.wakeNotEmpty_cases
    constructor
    all_goals grind -linarith [queued]
  | cancelQueue hat =>
    have hwake := s.consumer.wakeNotEmpty_cases
    constructor
    all_goals grind -linarith [queued]
  | _ =>
    constructor
    all_goals grind -linarith [queued]

theorem Ends.readerMove (hs : s.Ends src) (hr : s.ReaderFacts) (hflow : s.Flow src)
    (h : ReaderMove src s s') : s'.Ends src := by
  have hpastEof := hr.eof
  have hpending := hr.pending
  have hlooping := hflow.looping
  have hpushing := hflow.pushing
  have hbefore := hflow.before
  obtain ⟨hclean, hfailing, hfinishing, hseeking, hsignalEof, hended, herror⟩ := hs
  cases h with
  | reset hat =>
    constructor
    all_goals grind -linarith [FrameQueue.reset]
  | seekFailed hat hseek =>
    have hfailed := Source.seek_failed hseek
    constructor
    all_goals grind -linarith
  | @readFailed hat code hread =>
    have hloop := hlooping (.inr hat)
    have hfailed := Source.read_failed hloop.1 hloop.2 hread
    constructor
    all_goals grind -linarith
  | @finish error after hat =>
    constructor
    all_goals cases after <;> cases error <;> grind -linarith [AfterFinish.next]
  | _ =>
    constructor
    all_goals grind -linarith

/-! ## What the consumer takes -/

theorem queued_popBatch (q : FrameQueue α capacity) (n : Nat) :
    (q.popBatch n).1.map Prod.fst ++ (q.popBatch n).2.ring.contents.map Prod.fst =
      q.ring.contents.map Prod.fst := by
  rw [← List.map_append, popBatch_append]

/-- The last frame of the track is the last one to leave the queue. -/
theorem popBatch_hasLast (q : FrameQueue α capacity) {n : Nat} (hend : LastAtEnd q.ring.contents)
    (hlast : hasLast (q.popBatch n).1 = true) : (q.popBatch n).2.ring.contents = [] := by
  by_contra hne
  rw [LastAtEnd, ← popBatch_append q n, List.dropLast_append_of_ne_nil hne, hasLast,
    List.any_append, Bool.or_eq_false_iff] at hend
  rw [hasLast, hend.1] at hlast
  cases hlast

theorem lastAtEnd_popBatch (q : FrameQueue α capacity) {n : Nat}
    (hend : LastAtEnd q.ring.contents) : LastAtEnd (q.popBatch n).2.ring.contents := by
  by_cases hne : (q.popBatch n).2.ring.contents = []
  · rw [hne]
    rfl
  · rw [LastAtEnd, ← popBatch_append q n, List.dropLast_append_of_ne_nil hne, hasLast,
      List.any_append, Bool.or_eq_false_iff] at hend
    exact hend.2

/-- The state with a batch taken from the queue. -/
def taken (s : State α capacity) (n : Nat) : State α capacity :=
  { s with
    queue := (s.queue.popBatch n).2
    popped := s.popped ++ (s.queue.popBatch n).1.map Prod.fst }

theorem taken_frames (s : State α capacity) (n : Nat) :
    (s.taken n).popped ++ (s.taken n).queued = s.popped ++ s.queued := by
  simp only [taken, queued]
  rw [List.append_assoc, queued_popBatch]

theorem Flow.taken (hs : s.Flow src) (hat : s.consumer = .pop) (n : Nat) :
    (s.taken n).Flow src := by
  obtain ⟨hbefore, hflow, hlooping, hpushing, hsoFar, hlastQueued, hcomplete⟩ := hs
  constructor
  case before =>
    intro h
    obtain ⟨hreturned, hpopped, hcontents⟩ := hbefore h
    have happend := popBatch_append s.queue n
    rw [hcontents, List.append_eq_nil_iff] at happend
    exact ⟨hreturned, by simp [State.taken, hpopped, happend.1], happend.2⟩
  case flow =>
    rw [taken_frames]
    exact hflow
  case looping => exact hlooping
  case pushing => exact hpushing
  case soFar => exact hsoFar
  case lastQueued =>
    intro hlast
    have hmore : hasLast s.queue.ring.contents = true := by
      rw [hasLast_popBatch s.queue n, Bool.or_eq_true]
      exact .inr hlast
    obtain ⟨hall, hfails, hend⟩ := hlastQueued hmore
    rw [taken_frames]
    exact ⟨hall, hfails, lastAtEnd_popBatch s.queue hend⟩
  case complete =>
    intro hcomplete
    simp [State.taken, hat, ConsumerAt.isComplete] at hcomplete

theorem inHand_of_isIdle {r : ReaderAt α} (h : r.isIdle = true) : r.inHand = [] := by
  cases r with
  | _ => first | rfl | cases h

theorem Flow.complete_of_taken (hs : s.Flow src) {n : Nat}
    (hlast : hasLast (s.queue.popBatch n).1 = true) :
    (s.taken n).popped = src.delivered ∧ ¬ src.Fails := by
  have hmore : hasLast s.queue.ring.contents = true := by
    rw [hasLast_popBatch s.queue n, Bool.or_eq_true]
    exact .inl hlast
  obtain ⟨hall, hfails, hend⟩ := hs.lastQueued hmore
  have hempty : (s.taken n).queued = [] := by
    show (s.queue.popBatch n).2.ring.contents.map Prod.fst = []
    rw [popBatch_hasLast s.queue hend hlast]
    rfl
  rw [← taken_frames s n, hempty, List.append_nil] at hall
  exact ⟨hall, hfails⟩

/-- The frames do not depend on where the consumer is, or on what the reader sleeps for. -/
theorem Flow.congr (hs : s.Flow src) (hqueue : s'.queue.ring = s.queue.ring)
    (hcancelled : s.queue.cancelled = true → s'.queue.cancelled = true)
    (hpending : s'.trackPending = s.trackPending) (hstarted : s'.trackStarted = s.trackStarted)
    (hreader : s'.reader = s.reader ∨ s'.reader = s.reader.wakeStart ∨
      s'.reader = s.reader.wakeNotFull)
    (hreturned : s'.returned = s.returned) (hpopped : s'.popped = s.popped)
    (hcomplete : s'.consumer.isComplete = true → s'.popped = src.delivered ∧ ¬ src.Fails) :
    s'.Flow src := by
  have hstart := s.reader.wakeStart_cases
  have hfull := s.reader.wakeNotFull_cases
  obtain ⟨hbefore, hflow, hlooping, hpushing, hsoFar, hlastQueued, _⟩ := hs
  constructor
  all_goals grind -linarith [queued]

theorem Flow.consumerMove (hs : s.Flow src) (hc : s.ConsumerFacts)
    (h : ConsumerMove batchSize s s') : s'.Flow src := by
  have hcomplete := hs.complete
  cases h with
  | start hat hshutdown =>
    obtain ⟨hstarted, hpending, hidle, hempty⟩ := hc.fresh hat
    have hnone := hs.before (.inl hstarted)
    have hinHand := inHand_of_isIdle hidle
    have hwake := s.reader.wakeStart_cases
    obtain ⟨hbefore, hflow, hlooping, hpushing, hsoFar, hlastQueued, _⟩ := hs
    constructor
    all_goals grind -linarith [queued]
  | popped hat hcancelled hsome =>
    have hend := @Flow.complete_of_taken _ _ _ _ hs batchSize
    exact (hs.taken hat batchSize).congr rfl id rfl rfl (.inr (.inr rfl)) rfl rfl hend
  | none hat hcancelled hready hnone =>
    exact (hs.taken hat batchSize).congr rfl id rfl rfl (.inl rfl) rfl rfl nofun
  | cancelQueue hat =>
    exact hs.congr rfl (fun _ => rfl) rfl rfl (.inr (.inr rfl)) rfl rfl nofun
  | destroy hat => exact hs.congr rfl id rfl rfl (.inr (.inl rfl)) rfl rfl nofun
  | destroyCancel hat =>
    exact hs.congr rfl (fun _ => rfl) rfl rfl (.inr (.inr rfl)) rfl rfl nofun
  | written hat =>
    refine hs.congr rfl id rfl rfl (.inl rfl) rfl rfl fun hlast => hcomplete ?_
    rw [hat]
    exact hlast
  | _ => exact hs.congr rfl id rfl rfl (.inl rfl) rfl rfl nofun

theorem Ends.consumerMove (hs : s.Ends src) (h : ConsumerMove batchSize s s') : s'.Ends src := by
  obtain ⟨hclean, hfailing, hfinishing, hseeking, hsignalEof, hended, herror⟩ := hs
  cases h with
  | start hat hs =>
    have hwake := s.reader.wakeStart_cases
    constructor
    all_goals grind -linarith
  | popped hat hc hsome =>
    have hwake := s.reader.wakeNotFull_cases
    constructor
    all_goals grind -linarith
  | cancelQueue hat =>
    have hwake := s.reader.wakeNotFull_cases
    constructor
    all_goals grind -linarith
  | destroy hat =>
    have hwake := s.reader.wakeStart_cases
    constructor
    all_goals grind -linarith
  | destroyCancel hat =>
    have hwake := s.reader.wakeNotFull_cases
    constructor
    all_goals grind -linarith
  | _ =>
    constructor
    all_goals grind -linarith

/-! ## Every reachable state -/

/-- What holds of the threads and the frames in every reachable state. -/
structure Delivers (src : Source α) (s : State α capacity) : Prop where
  coupled : s.Coupled
  flow : s.Flow src
  ends : s.Ends src

theorem Delivers.initial (src : Source α) (h : 0 < capacity) :
    (State.initial α h).Delivers src := by
  refine ⟨Coupled.initial h, ?_, ?_⟩
  · constructor
    all_goals simp [State.initial, FrameQueue.create, queued, ReaderAt.inHand,
      ConsumerAt.isComplete, hasLast]
  · constructor
    all_goals simp [State.initial, FrameQueue.create, ReaderAt.mayPush]

theorem isComplete_wakeNotEmpty (c : ConsumerAt) :
    c.wakeNotEmpty.isComplete = c.isComplete := by
  cases c with
  | _ => rfl

theorem isComplete_wakeDone (c : ConsumerAt) :
    c.wakeDone.isComplete = c.isComplete := by
  cases c with
  | _ => rfl

theorem Ends.wakeReader (hs : s.Ends src) : s.wakeStart.wakeNotFull.Ends src := by
  have hstart := s.reader.wakeStart_cases
  have hfull := s.reader.wakeStart.wakeNotFull_cases
  obtain ⟨hclean, hfailing, hfinishing, hseeking, hsignalEof, hended, herror⟩ := hs
  simp only [State.wakeNotFull, State.wakeStart]
  constructor
  all_goals grind -linarith

theorem Ends.cancelQueue (hs : s.Ends src) : s.queueCancel.Ends src := by
  have hfull := s.reader.wakeNotFull_cases
  obtain ⟨hclean, hfailing, hfinishing, hseeking, hsignalEof, hended, herror⟩ := hs
  simp only [queueCancel, State.wakeNotFull, State.wakeNotEmpty]
  constructor
  all_goals grind -linarith

theorem Delivers.step (hs : s.Delivers src) (hbatch : 0 < batchSize) {e : Event}
    (h : State.step src batchSize s e = some s') : s'.Delivers src := by
  have hcoupled := hs.coupled.step hbatch h
  suffices hrest : s'.Flow src ∧ s'.Ends src from ⟨hcoupled, hrest.1, hrest.2⟩
  obtain ⟨hold, hflow, hends⟩ := hs
  have hcomplete := hflow.complete
  cases e with
  | reader =>
    have hmove := stepReader_move h
    exact ⟨hflow.readerMove hold.reader hold.consumer hmove,
      hends.readerMove hold.reader hflow hmove⟩
  | consumer processed =>
    have hmove := stepConsumer_move h
    exact ⟨hflow.consumerMove hold.consumer hmove, hends.consumerMove hmove⟩
  | cancelPipe =>
    cases h
    refine ⟨hflow.congr rfl id rfl rfl (.inl rfl) rfl rfl hcomplete, ?_⟩
    cases hends
    constructor
    all_goals assumption
  | cancelFlag =>
    cases h
    refine ⟨hflow.congr rfl id rfl rfl (.inl rfl) rfl rfl hcomplete, ?_⟩
    cases hends
    constructor
    all_goals assumption
  | cancelQueue =>
    cases h
    refine ⟨hflow.congr rfl (fun _ => rfl) rfl rfl (.inr (.inr rfl)) rfl rfl fun hlast => ?_,
      hends.cancelQueue⟩
    refine hcomplete ?_
    rw [← isComplete_wakeNotEmpty]
    exact hlast
  | wakeReader =>
    cases h
    have hfirst : s.wakeStart.Flow src :=
      hflow.congr rfl id rfl rfl (.inr (.inl rfl)) rfl rfl hcomplete
    exact ⟨hfirst.congr rfl id rfl rfl (.inr (.inr rfl)) rfl rfl hcomplete, hends.wakeReader⟩
  | wakeConsumer =>
    cases h
    refine ⟨hflow.congr rfl id rfl rfl (.inl rfl) rfl rfl fun hlast => hcomplete ?_, ?_⟩
    · rw [← isComplete_wakeNotEmpty, ← isComplete_wakeDone]
      exact hlast
    · cases hends
      constructor
      all_goals assumption

theorem Delivers.run (hbatch : 0 < batchSize) (hcapacity : 0 < capacity) {events : List Event}
    (h : Transition.run (State.step src batchSize) (State.initial α hcapacity) events = some s) :
    s.Delivers src :=
  run_invariant (fun _ _ _ hs _ hstep => hs.step hbatch hstep)
    (Delivers.initial src hcapacity) (along_of_forall (fun _ _ => trivial) _ _) h

theorem Flow.popped_prefix (hs : s.Flow src) : s.popped <+: s.returned := by
  have hpopped : s.popped <+: s.popped ++ s.queued := List.prefix_append _ _
  rcases hs.flow with heq | ⟨_, _, hpre⟩
  · rw [← heq, List.append_assoc]
    exact List.prefix_append _ _
  · exact hpopped.trans hpre

/-! ## Nothing is cancelled -/

/-- What holds besides where nothing is cancelled and every batch is written. -/
structure Undisturbed (src : Source α) (s : State α capacity) : Prop where
  pipe : s.pipeCancelled = false
  early : s.consumer.isEarly = true →
    s.result = ok ∧ s.cancelled = false ∧ s.queue.cancelled = false ∧
      s.reader ≠ .cancelQueue ∧ ∀ error, s.reader ≠ .finish error .cancelQueue
  popFailed : s.consumer ≠ .popFailed
  empty : s.consumer = .popEmpty → s.popped = src.delivered ∧ (s.hasError = true ↔ src.Fails)
  late : s.consumer.isEarly = false →
    s.popped = src.delivered ∧ (s.result ≠ ok ↔ src.Fails) ∧ (src.Fails → s.hasError = true) ∧
      s.trackPending = false

theorem Undisturbed.initial (src : Source α) (h : 0 < capacity) :
    (State.initial α h).Undisturbed src := by
  constructor
  all_goals simp [State.initial, FrameQueue.create, ConsumerAt.isEarly]

theorem isEarly_wakeNotEmpty (c : ConsumerAt) : c.wakeNotEmpty.isEarly = c.isEarly := by
  cases c with
  | _ => rfl

theorem isEarly_wakeDone (c : ConsumerAt) : c.wakeDone.isEarly = c.isEarly := by
  cases c with
  | _ => rfl

theorem isShut_of_isEarly {c : ConsumerAt} (h : c.isEarly = true) : c.isShut = false := by
  cases c with
  | _ => first | rfl | cases h

theorem Undisturbed.readerMove (hs : s.Undisturbed src) (hd : s.Delivers src)
    (h : ReaderMove src s s') : s'.Undisturbed src := by
  have hover := hd.coupled.consumer.empty
  have hshutdown := hd.coupled.consumer.shutdown
  have hshut := @isShut_of_isEarly s.consumer
  have hfailing := hd.ends.failing
  have herror := hd.ends.error
  obtain ⟨hpipe, hearly, hpopFailed, hempty, hlate⟩ := hs
  cases h with
  | reset hat =>
    constructor
    all_goals grind -linarith [FrameQueue.reset]
  | pushed hat hcancelled hroom =>
    have hwake := s.consumer.wakeNotEmpty_cases
    constructor
    all_goals grind -linarith
  | @finish error after hat =>
    have hwake := s.consumer.wakeDone_cases
    constructor
    all_goals cases after <;> cases error <;> grind -linarith [AfterFinish.next]
  | signalEof hat =>
    have hwake := s.consumer.wakeNotEmpty_cases
    constructor
    all_goals grind -linarith
  | cancelQueue hat =>
    have hwake := s.consumer.wakeNotEmpty_cases
    constructor
    all_goals grind -linarith
  | _ =>
    constructor
    all_goals grind -linarith

/-- With nothing left to take and the end signalled the consumer has every frame. -/
theorem Delivers.popped_eq (hd : s.Delivers src) (hcancelled : s.queue.cancelled = false)
    (hcount : s.queue.ring.count = 0) (heof : s.queue.eof = true) :
    s.popped = src.delivered := by
  have hqueued : s.queued = [] := by
    rw [queued, Ring.contents_eq_nil hcount]
    rfl
  have hinHand : s.reader.inHand = [] := by
    have hpast := (hd.coupled.reader.eof heof).2.2
    generalize s.reader = r at hpast
    cases r with
    | _ => first | rfl | cases hpast
  rcases hd.flow.flow with heq | ⟨htrue, _⟩
  · rw [hqueued, hinHand, List.append_nil, List.append_nil] at heq
    rw [heq]
    exact (hd.ends.ended heof).1
  · rw [hcancelled] at htrue
    cases htrue

theorem Undisturbed.consumerMove (hs : s.Undisturbed src) (hd : s.Delivers src)
    (hbatch : 0 < batchSize) (h : s.stepConsumer batchSize .ok = some s') :
    s'.Undisturbed src := by
  have hmove := stepConsumer_move h
  have hover := hd.coupled.consumer.empty
  have hshut := hd.coupled.consumer.shutdown
  have hcomplete := hd.flow.complete
  have hcompleteOver := hd.coupled.consumer.complete
  have hstored := hd.coupled.reader.error
  have hends := hd.ends.ended
  have hall := hd.popped_eq
  obtain ⟨hpipe, hearly, hpopFailed, hempty, hlate⟩ := hs
  cases hmove with
  | start hat hshutdown =>
    have hwake := s.reader.wakeStart_cases
    constructor
    all_goals grind -linarith
  | none hat hcancelled hready hnone =>
    have hcount := (popBatch_eq_nil_iff s.queue hbatch).1 hnone
    have heof := hready.resolve_left (fun hne => hne hcount)
    constructor
    all_goals grind -linarith
  | popped hat hcancelled hsome =>
    have hwake := s.reader.wakeNotFull_cases
    constructor
    all_goals grind -linarith
  | failed hat hcode => simp [stepConsumer, hat] at h
  | stopped hat => simp [stepConsumer, hat] at h
  | cancelQueue hat =>
    have hwake := s.reader.wakeNotFull_cases
    constructor
    all_goals grind -linarith
  | destroy hat =>
    have hwake := s.reader.wakeStart_cases
    constructor
    all_goals grind -linarith
  | destroyCancel hat =>
    have hwake := s.reader.wakeNotFull_cases
    constructor
    all_goals grind -linarith
  | _ =>
    constructor
    all_goals grind -linarith

theorem Undisturbed.step (hs : s.Undisturbed src) (hd : s.Delivers src) (hbatch : 0 < batchSize)
    {e : Event} (he : e.Undisturbed) (h : State.step src batchSize s e = some s') :
    s'.Undisturbed src := by
  cases e with
  | reader => exact hs.readerMove hd (stepReader_move h)
  | consumer processed =>
    cases processed with
    | ok => exact hs.consumerMove hd hbatch h
    | failed code hcode => exact he.elim
    | stopped => exact he.elim
  | wakeReader =>
    cases h
    have hstart := s.reader.wakeStart_cases
    have hfull := s.reader.wakeStart.wakeNotFull_cases
    obtain ⟨hpipe, hearly, hpopFailed, hempty, hlate⟩ := hs
    simp only [State.wakeNotFull, State.wakeStart]
    constructor
    all_goals grind -linarith
  | wakeConsumer =>
    cases h
    have hstart := s.consumer.wakeNotEmpty_cases
    have hdone := s.consumer.wakeNotEmpty.wakeDone_cases
    obtain ⟨hpipe, hearly, hpopFailed, hempty, hlate⟩ := hs
    simp only [State.wakeNotEmpty, State.wakeDone]
    constructor
    all_goals grind -linarith
  | cancelPipe | cancelFlag | cancelQueue => exact he.elim

theorem Undisturbed.run (hbatch : 0 < batchSize) (hcapacity : 0 < capacity) {events : List Event}
    (hevents : ∀ e ∈ events, e.Undisturbed)
    (h : Transition.run (State.step src batchSize) (State.initial α hcapacity) events = some s) :
    s.Undisturbed src := by
  have hboth : s.Delivers src ∧ s.Undisturbed src :=
    run_invariant (I := fun s => s.Delivers src ∧ s.Undisturbed src)
      (fun _ _ _ hs he hstep => ⟨hs.1.step hbatch hstep, hs.2.step hs.1 hbatch he hstep⟩)
      ⟨Delivers.initial src hcapacity, Undisturbed.initial src hcapacity⟩
      (along_of_mem hevents _) h
  exact hboth.2

end State

/-! ## The results -/

/-- In every reachable state the frames popped are a prefix of the frames the source has
returned, which are a prefix of its frames; where nothing is cancelled and both threads have
ended, the consumer has every frame and reports an error if the reader failed and only then;
and the two threads are never both blocked. -/
theorem reader_delivers_prefix (src : Source α) {batchSize : Nat} (hcapacity : 0 < capacity)
    (hbatch : 0 < batchSize) (events : List State.Event) (s : State α capacity)
    (h : run (State.step src batchSize) (State.initial α hcapacity) events = some s) :
    (s.popped <+: s.returned ∧ s.returned <+: src.delivered) ∧
      ((∀ e ∈ events, e.Undisturbed) → s.reader = .exited → s.consumer = .finished →
        s.popped = src.delivered ∧ (s.status ≠ ok ↔ s.hasError = true) ∧
          (s.hasError = true ↔ src.Fails)) ∧
      ¬ (s.ReaderBlocked ∧ s.ConsumerBlocked) ∧
      (s.consumer ≠ .finished → (s.stepReader src).isSome = true ∨
        (s.stepConsumer batchSize .ok).isSome = true) := by
  have hdelivers := State.Delivers.run hbatch hcapacity h
  refine ⟨⟨hdelivers.flow.popped_prefix, hdelivers.flow.soFar⟩, ?_,
    hdelivers.coupled.not_both_blocked hcapacity, hdelivers.coupled.can_step hcapacity⟩
  intro hevents _ hfinished
  have hundisturbed := State.Undisturbed.run hbatch hcapacity hevents h
  obtain ⟨hall, hresult, herror, _⟩ := hundisturbed.late (by rw [hfinished]; rfl)
  have hfails : s.hasError = true ↔ src.Fails := ⟨hdelivers.ends.error, herror⟩
  have hstatus : s.status = s.result := by
    rw [State.status, hundisturbed.pipe]
    rfl
  refine ⟨hall, ?_, hfails⟩
  rw [hstatus, hresult, hfails]

/-- A track of three frames. -/
def threeFrames : Source Nat := { seek := ok, frames := [1, 2], ending := .endOfTrack 3 }

/-- The reader goes on while it can; the consumer takes over while the reader waits. -/
def alternating : List State.Event :=
  ([(1, 1), (9, 2), (4, 3), (5, 8), (1, 2)] : List (Nat × Nat)).flatMap fun turns =>
    List.replicate turns.1 State.Event.reader ++
      List.replicate turns.2 (State.Event.consumer .ok)

theorem alternating_isSome :
    (run (State.step threeFrames 1) (State.initial Nat Nat.one_pos) alternating).isSome = true := by
  rfl

theorem alternating_undisturbed : ∀ e ∈ alternating, e.Undisturbed := by
  intro e he
  obtain ⟨turns, _, hmem⟩ := List.mem_flatMap.1 he
  rcases List.mem_append.1 hmem with hreader | hconsumer
  · rw [List.eq_of_mem_replicate hreader]
    trivial
  · rw [List.eq_of_mem_replicate hconsumer]
    trivial

/-- Through a queue of one slot the three frames arrive. -/
theorem reader_delivers_prefix_threeFrames :
    ∃ s, run (State.step threeFrames 1) (State.initial Nat Nat.one_pos) alternating = some s ∧
      s.popped = [1, 2, 3] ∧ s.status = ok := by
  have hrun := (Option.some_get alternating_isSome).symm
  obtain ⟨_, hall, _⟩ := reader_delivers_prefix threeFrames Nat.one_pos Nat.one_pos alternating
    (Option.get _ alternating_isSome) hrun
  have hpopped := (hall alternating_undisturbed rfl rfl).1
  exact ⟨_, hrun, hpopped, rfl⟩

end DsdNexus.Dsdpipe
