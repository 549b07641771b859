import DsdNexus.Dst.DecoderBatch

/-! # When a batch decode gets stuck

The results of a call are only taken after its last dispatch, so that all its jobs have
to find room in the queue: half of them as inputs, half as results.
-/

namespace DsdNexus.Dst

open Util Transition

def BatchEvent.IsWorker : BatchEvent → Prop
  | .take | .finish _ _ => True
  | _ => False

/-- A step of the call under way, or of the workers. -/
def BatchEvent.WithinCall : BatchEvent → Prop
  | .call _ => False
  | _ => True

/-- A queue of the batch decoder that is neither shut down nor woken, within its limits. -/
structure OpenQueue (q : TpoolProcess DecodeJob DoneJob) : Prop where
  qsize : q.qsize = dstQueueSize
  noMoreInput : q.noMoreInput = false
  shutdown : q.shutdown = false
  wakeDispatch : q.wakeDispatch = false
  input : q.input.length ≤ dstQueueSize
  room : q.processing.length + q.output.length ≤ dstQueueSize

/-- The jobs and results in a queue. -/
def queuedIn (q : TpoolProcess DecodeJob DoneJob) : Nat :=
  q.input.length + q.processing.length + q.output.length

section Queue

variable {q q' : TpoolProcess DecodeJob DoneJob}

theorem OpenQueue.waits_iff (h : OpenQueue q) : q.Waits ↔ dstQueueSize ≤ q.input.length := by
  simp [TpoolProcess.Waits, TpoolProcess.Full, h.noMoreInput, h.shutdown, h.wakeDispatch, h.qsize]

/-- A blocking dispatch enters a queue with room and waits for one without. -/
theorem OpenQueue.dispatchFinish (h : OpenQueue q) (j : TpoolJob DecodeJob) :
    (dstQueueSize ≤ q.input.length ∧ q.dispatchFinish j .wait = none) ∨
      (q.input.length < dstQueueSize ∧ ∃ q', q.dispatchFinish j .wait = some (true, q') ∧
        OpenQueue q' ∧ queuedIn q' = queuedIn q + 1) := by
  unfold TpoolProcess.dispatchFinish
  simp only [if_true]
  by_cases hfull : dstQueueSize ≤ q.input.length
  · left
    rw [if_pos (h.waits_iff.2 hfull)]
    exact ⟨hfull, rfl⟩
  · right
    rw [if_neg fun hwaits => hfull (h.waits_iff.1 hwaits)]
    simp only [h.noMoreInput, h.shutdown, Bool.false_eq_true, or_self, if_false]
    refine ⟨by omega, _, rfl, ?_, ?_⟩
    · exact
        { qsize := h.qsize
          noMoreInput := h.noMoreInput
          shutdown := h.shutdown
          wakeDispatch := rfl
          input := by
            simp only [TpoolProcess.append, List.length_append, List.length_singleton]
            omega
          room := h.room }
    · simp only [queuedIn, TpoolProcess.append, List.length_append, List.length_singleton]
      omega

theorem OpenQueue.workerTake (h : OpenQueue q) (htake : q.workerTake = some q') :
    OpenQueue q' ∧ queuedIn q' = queuedIn q ∧ q'.input.length + 1 = q.input.length ∧
      q'.processing.length = q.processing.length + 1 := by
  unfold TpoolProcess.workerTake at htake
  split at htake
  · cases htake
  · next j rest hinput =>
    split at htake
    · next hroom =>
      cases htake
      have hlen := h.input
      have hsize := h.qsize
      rw [hinput, List.length_cons] at hlen
      refine ⟨{ h with input := ?_, room := ?_ }, ?_, ?_, ?_⟩
      · simp only
        omega
      · simp only [List.length_append, List.length_singleton]
        omega
      · simp only [queuedIn, hinput, List.length_append, List.length_cons, List.length_nil]
        omega
      · simp only [hinput, List.length_cons]
      · simp only [List.length_append, List.length_singleton]
    · cases htake

theorem OpenQueue.addResult {func : DecodeJob → DoneJob} {i : Nat} (h : OpenQueue q)
    (hadd : q.addResult func i = some q') :
    OpenQueue q' ∧ queuedIn q' = queuedIn q ∧ q'.input = q.input ∧
      q'.processing.length + 1 = q.processing.length := by
  obtain ⟨j, hj, rfl⟩ := TpoolProcess.addResult_getElem? hadd
  have hlt : i < q.processing.length := (List.getElem?_eq_some_iff.1 hj).1
  have herase : (q.processing.eraseIdx i).length + 1 = q.processing.length := by
    rw [List.length_eraseIdx_of_lt hlt]
    omega
  have hroom := h.room
  refine ⟨{ h with room := ?_ }, ?_, rfl, herase⟩
  · simp only [List.length_append, List.length_singleton]
    omega
  · simp only [queuedIn, List.length_append, List.length_singleton]
    omega

theorem OpenQueue.nextResult {r : TpoolResult DoneJob} (h : OpenQueue q)
    (hnext : q.nextResult = some (r, q')) : OpenQueue q' ∧ queuedIn q' ≤ queuedIn q := by
  obtain ⟨-, -, -, rfl⟩ := TpoolProcess.nextResult_some hnext
  have hlen : (q.output.erase r).length ≤ q.output.length := List.length_erase_le
  have hroom := h.room
  refine ⟨{ h with room := ?_ }, ?_⟩
  · simp only
    omega
  · simp only [queuedIn]
    omega

/-- A worker can finish a job or take one, unless nothing runs and there is no input or no
room for a result. -/
theorem OpenQueue.workerTake_isSome (h : OpenQueue q) (hinput : q.input ≠ [])
    (hroom : q.processing.length + q.output.length < dstQueueSize) : q.workerTake ≠ none := by
  have hsize := h.qsize
  unfold TpoolProcess.workerTake
  split
  · next hnil => exact absurd hnil hinput
  · rw [if_pos ⟨by omega, by simp [h.shutdown]⟩]
    simp

/-- What a blocking dispatch does to an open queue. -/
theorem OpenQueue.dispatch {p : PoolRun DecodeJob DoneJob} (h : OpenQueue p.q) (job : DecodeJob) :
    OpenQueue (p.dispatch job .wait).q ∧
      ((dstQueueSize ≤ p.q.input.length ∧
          (p.dispatch job .wait).waiting = p.waiting ++ [⟨p.q.currSerial, job⟩] ∧
          (p.dispatch job .wait).q = { p.q with currSerial := p.q.currSerial + 1 }) ∨
        (p.q.input.length < dstQueueSize ∧ (p.dispatch job .wait).waiting = p.waiting ∧
          queuedIn (p.dispatch job .wait).q = queuedIn p.q + 1)) := by
  have henter : p.q.dispatchEnter job .wait =
      some (⟨p.q.currSerial, job⟩, { p.q with currSerial := p.q.currSerial + 1 }) := by
    simp [TpoolProcess.dispatchEnter]
  have hentered : OpenQueue { p.q with currSerial := p.q.currSerial + 1 } := { h with }
  unfold PoolRun.dispatch
  simp only [henter]
  rcases hentered.dispatchFinish ⟨p.q.currSerial, job⟩ with
    ⟨hfull, hwait⟩ | ⟨hroom, q', henters, hopen, hcount⟩
  · simp only [hwait]
    exact ⟨hentered, Or.inl ⟨hfull, trivial, trivial⟩⟩
  · simp only [henters]
    exact ⟨hopen, Or.inr ⟨hroom, trivial, hcount⟩⟩

/-- What a look of a waiting dispatch does. -/
theorem OpenQueue.resume {p : PoolRun DecodeJob DoneJob} (h : OpenQueue p.q)
    {j : TpoolJob DecodeJob} : p.resume 0 j = p ∨
      (OpenQueue (p.resume 0 j).q ∧ (p.resume 0 j).waiting = p.waiting.tail ∧
        queuedIn (p.resume 0 j).q = queuedIn p.q + 1) := by
  unfold PoolRun.resume
  rcases h.dispatchFinish j with ⟨-, hwait⟩ | ⟨-, q', henters, hopen, hcount⟩
  · left
    simp only [hwait]
  · right
    simp only [henters]
    exact ⟨hopen, List.eraseIdx_zero, hcount⟩

end Queue

namespace BatchState

/-- The dispatching thread waits in `sa_tpool_dispatch`. -/
def Blocked (s : BatchState) : Prop := s.pool.waiting ≠ [] ∧ s.pool.q.Waits

/-- The dispatching thread waits, and no worker can take a job or finish one. -/
def Stuck (s : BatchState) : Prop :=
  s.Blocked ∧ ∀ e : BatchEvent, e.IsWorker → s.step e = none

def queued (s : BatchState) : Nat := queuedIn s.pool.q

/-- An open queue and workers, and a dispatch that waits only while jobs are dispatched. -/
structure ProgressInv (s : BatchState) : Prop where
  queue : OpenQueue s.pool.q
  workers : 0 < s.decoders.length
  waiting : s.pool.waiting.length ≤ 1
  dispatching : s.pool.waiting ≠ [] → ∃ frames i, s.caller = .dispatching frames i

/-- A call of `n` frames that began with `t` jobs and results in the queue. -/
def CountInv (n t : Nat) (s : BatchState) : Prop :=
  ∀ frames i, s.caller = .dispatching frames i →
    frames.length = n ∧ i ≤ n ∧ s.queued + s.pool.waiting.length ≤ t + i

section Step

variable {s s' : BatchState} {frames : List BatchFrame} {i n t : Nat}

theorem ProgressInv.start {threads : Nat} (h : 0 < threads) (d : DstDecoder) :
    (BatchState.start threads d).ProgressInv where
  queue := ⟨rfl, rfl, rfl, rfl, Nat.zero_le _, Nat.zero_le _⟩
  workers := by simpa [BatchState.start] using h
  waiting := Nat.zero_le _
  dispatching := fun hne => absurd rfl hne

theorem ProgressInv.waiting_eq_nil (h : s.ProgressInv)
    (hcaller : ∀ frames i, s.caller ≠ .dispatching frames i) : s.pool.waiting = [] := by
  by_contra hne
  obtain ⟨frames, i, hdispatching⟩ := h.dispatching hne
  exact hcaller frames i hdispatching

theorem ProgressInv.call (h : s.ProgressInv) (hidle : s.caller = .idle) :
    (s.call frames).ProgressInv := by
  have hwaiting : s.pool.waiting = [] := h.waiting_eq_nil (by simp [hidle])
  unfold BatchState.call
  simp only
  split
  · exact { h with dispatching := fun hne => absurd hwaiting hne }
  · exact { h with dispatching := fun hne => absurd hwaiting hne }

theorem ProgressInv.dispatch (h : s.ProgressInv) {f : BatchFrame} {alloc : Bool}
    (hwaiting : s.pool.waiting = []) : (s.dispatch frames i f alloc).ProgressInv := by
  unfold BatchState.dispatch
  split
  · obtain ⟨hopen, hcases⟩ := h.queue.dispatch ⟨s.callNo, i, f⟩
    refine ⟨hopen, h.workers, ?_, fun _ => ⟨_, _, rfl⟩⟩
    rcases hcases with ⟨-, hwait, -⟩ | ⟨-, hsame, -⟩
    · simp [hwait, hwaiting]
    · simp [hsame, hwaiting]
  · exact ⟨h.queue, h.workers, h.waiting, fun hne => absurd hwaiting hne⟩

theorem ProgressInv.collect (h : s.ProgressInv) {sizes : List Nat}
    (hcaller : s.caller = .collecting frames sizes) : (s.collect frames sizes).ProgressInv := by
  have hwaiting : s.pool.waiting = [] := h.waiting_eq_nil (by simp [hcaller])
  unfold BatchState.collect
  split
  · exact h
  · next r q' hnext =>
    have hpool : s.pool.next = { s.pool with q := q', returned := s.pool.returned ++ [r.data] } := by
      unfold PoolRun.next
      rw [hnext]
    have hopen := (h.queue.nextResult hnext).1
    simp only [hpool]
    split
    · exact ⟨hopen, h.workers, h.waiting, fun hne => absurd hwaiting hne⟩
    · exact ⟨hopen, h.workers, h.waiting, fun hne => absurd hwaiting hne⟩

theorem ProgressInv.step {e : BatchEvent} (h : s.ProgressInv) (hstep : s.step e = some s') :
    s'.ProgressInv := by
  cases e with
  | call frames =>
    simp only [BatchState.step] at hstep
    split at hstep
    · next hidle =>
      cases hstep
      exact h.call hidle
    · cases hstep
  | dispatch alloc =>
    simp only [BatchState.step] at hstep
    split at hstep
    · next frames i hcaller =>
      split at hstep
      · next hwaiting =>
        obtain ⟨f, -, rfl⟩ := Option.map_eq_some_iff.1 hstep
        exact h.dispatch (List.isEmpty_iff.1 hwaiting)
      · cases hstep
    · cases hstep
  | resume =>
    obtain ⟨j, hj, rfl⟩ := Option.map_eq_some_iff.1 hstep
    have hne : s.pool.waiting ≠ [] := by
      intro hnil
      rw [hnil] at hj
      cases hj
    rcases h.queue.resume (j := j) with hsame | ⟨hopen, htail, -⟩
    · rw [hsame]
      exact h
    · refine ⟨hopen, h.workers, ?_, fun _ => h.dispatching hne⟩
      have hlen := h.waiting
      simp only [htail, List.length_tail]
      omega
  | collectBegin =>
    simp only [BatchState.step] at hstep
    split at hstep
    · next frames i hcaller =>
      split at hstep
      · next hdone =>
        cases hstep
        exact { h with dispatching := fun hne => absurd (List.isEmpty_iff.1 hdone.1) hne }
      · cases hstep
    · cases hstep
  | collect =>
    simp only [BatchState.step] at hstep
    split at hstep
    · next frames sizes hcaller =>
      cases hstep
      exact h.collect hcaller
    · cases hstep
  | take =>
    simp only [BatchState.step] at hstep
    split at hstep
    · obtain ⟨q', htake, rfl⟩ := Option.map_eq_some_iff.1 hstep
      exact { h with queue := (h.queue.workerTake htake).1 }
    · cases hstep
  | finish m k =>
    simp only [BatchState.step] at hstep
    split at hstep
    · obtain ⟨q', hadd, rfl⟩ := Option.map_eq_some_iff.1 hstep
      exact
        { h with
          queue := (h.queue.addResult hadd).1
          workers := by simpa using h.workers }
    · cases hstep

theorem CountInv.dispatch (h : CountInv n t s) (hqueue : OpenQueue s.pool.q) {f : BatchFrame}
    {alloc : Bool} (hcaller : s.caller = .dispatching frames i) (hwaiting : s.pool.waiting = [])
    (hf : frames[i]? = some f) : CountInv n t (s.dispatch frames i f alloc) := by
  obtain ⟨hlen, -, hcount⟩ := h frames i hcaller
  have hlt : i < frames.length := (List.getElem?_eq_some_iff.1 hf).1
  rw [hwaiting] at hcount
  unfold BatchState.dispatch
  split
  · intro frames' i' hnew
    cases hnew
    refine ⟨hlen, by omega, ?_⟩
    rcases (hqueue.dispatch ⟨s.callNo, i, f⟩).2 with ⟨-, hwait, hq⟩ | ⟨-, hsame, hq⟩
    · simp only [queued, hq, hwait, hwaiting, List.nil_append, List.length_singleton]
      simp only [queued, List.length_nil] at hcount
      exact Nat.add_le_add_right hcount 1
    · simp only [queued, hq, hsame, hwaiting, List.length_nil]
      simp only [queued, List.length_nil] at hcount
      omega
  · intro frames' i' hnew
    cases hnew

theorem CountInv.step {e : BatchEvent} (h : CountInv n t s) (hinv : s.ProgressInv)
    (hwithin : e.WithinCall) (hstep : s.step e = some s') : CountInv n t s' := by
  cases e with
  | call frames => exact hwithin.elim
  | dispatch alloc =>
    simp only [BatchState.step] at hstep
    split at hstep
    · next frames i hcaller =>
      split at hstep
      · next hwaiting =>
        obtain ⟨f, hf, rfl⟩ := Option.map_eq_some_iff.1 hstep
        exact h.dispatch hinv.queue hcaller (List.isEmpty_iff.1 hwaiting) hf
      · cases hstep
    · cases hstep
  | resume =>
    obtain ⟨j, hj, rfl⟩ := Option.map_eq_some_iff.1 hstep
    rcases hinv.queue.resume (j := j) with hsame | ⟨-, htail, hq⟩
    · rw [hsame]
      exact h
    · intro frames i hcaller
      obtain ⟨hlen, hle, hcount⟩ := h frames i hcaller
      have hpos : 0 < s.pool.waiting.length := (List.getElem?_eq_some_iff.1 hj).1
      refine ⟨hlen, hle, ?_⟩
      simp only [queued, hq, htail, List.length_tail] at hcount ⊢
      omega
  | collectBegin =>
    simp only [BatchState.step] at hstep
    split at hstep
    · split at hstep
      · cases hstep
        nofun
      · cases hstep
    · cases hstep
  | collect =>
    simp only [BatchState.step] at hstep
    split at hstep
    · next frames sizes hcaller =>
      cases hstep
      unfold BatchState.collect
      split
      · exact h
      · simp only
        split
        · nofun
        · nofun
    · cases hstep
  | take =>
    simp only [BatchState.step] at hstep
    split at hstep
    · obtain ⟨q', htake, rfl⟩ := Option.map_eq_some_iff.1 hstep
      intro frames i hcaller
      obtain ⟨hlen, hle, hcount⟩ := h frames i hcaller
      simp only [queued, (hinv.queue.workerTake htake).2.1] at hcount ⊢
      exact ⟨hlen, hle, hcount⟩
    · cases hstep
  | finish m k =>
    simp only [BatchState.step] at hstep
    split at hstep
    · obtain ⟨q', hadd, rfl⟩ := Option.map_eq_some_iff.1 hstep
      intro frames i hcaller
      obtain ⟨hlen, hle, hcount⟩ := h frames i hcaller
      simp only [queued, (hinv.queue.addResult hadd).2.1] at hcount ⊢
      exact ⟨hlen, hle, hcount⟩
    · cases hstep

/-! ## With room for all jobs -/

/-- A worker with a job can finish it. -/
theorem ProgressInv.finish_isSome (h : s.ProgressInv) (hprocessing : s.pool.q.processing ≠ []) :
    ∃ s', s.step (.finish 0 0) = some s' := by
  have hpos := List.length_pos_of_ne_nil hprocessing
  have hj : s.pool.q.processing[0]? = some (s.pool.q.processing.get ⟨0, hpos⟩) :=
    List.getElem?_eq_getElem hpos
  have hd : s.decoders[0]? = some (s.decoders.get ⟨0, h.workers⟩) := List.getElem?_eq_getElem h.workers
  simp only [BatchState.step, hj, hd, BatchState.finish, TpoolProcess.addResult, Option.map_some]
  exact ⟨_, rfl⟩

/-- A worker without a job can take one where there is room for the result. -/
theorem ProgressInv.take_isSome (h : s.ProgressInv) (hprocessing : s.pool.q.processing = [])
    (hinput : s.pool.q.input ≠ []) (houtput : s.pool.q.output.length < dstQueueSize) :
    ∃ s', s.step .take = some s' := by
  have htake := h.queue.workerTake_isSome hinput (by rw [hprocessing]; simpa using houtput)
  obtain ⟨q', hq'⟩ := Option.ne_none_iff_exists'.1 htake
  have hfree : s.pool.q.processing.length < s.decoders.length := by
    rw [hprocessing]
    exact h.workers
  simp only [BatchState.step, if_pos hfree, hq', Option.map_some]
  exact ⟨_, rfl⟩

theorem not_stuck_of_count (hinv : s.ProgressInv) (hcount : CountInv n t s)
    (hle : t + n ≤ 2 * dstQueueSize) : ¬ s.Stuck := by
  rintro ⟨⟨hwaiting, hwaits⟩, hworkers⟩
  obtain ⟨frames, i, hcaller⟩ := hinv.dispatching hwaiting
  obtain ⟨-, hi, hqueued⟩ := hcount frames i hcaller
  have hfull := hinv.queue.waits_iff.1 hwaits
  have hpos := List.length_pos_of_ne_nil hwaiting
  simp only [queued, queuedIn] at hqueued
  by_cases hprocessing : s.pool.q.processing = []
  · have hinput : s.pool.q.input ≠ [] := by
      intro hnil
      rw [hnil] at hfull
      exact absurd hfull (by decide)
    obtain ⟨s', hs'⟩ := hinv.take_isSome hprocessing hinput (by omega)
    rw [hworkers .take trivial] at hs'
    cases hs'
  · obtain ⟨s', hs'⟩ := hinv.finish_isSome hprocessing
    rw [hworkers (.finish 0 0) trivial] at hs'
    cases hs'

/-! ## Without it -/

/-- What a step of a worker leaves alone, and that it brings the jobs further. -/
structure WorkerStep (s s' : BatchState) : Prop where
  inv : s'.ProgressInv
  caller : s'.caller = s.caller
  waiting : s'.pool.waiting = s.pool.waiting
  queued : s'.queued = s.queued
  further : 2 * s'.pool.q.input.length + s'.pool.q.processing.length <
    2 * s.pool.q.input.length + s.pool.q.processing.length

theorem ProgressInv.workerStep {e : BatchEvent} (h : s.ProgressInv) (he : e.IsWorker)
    (hstep : s.step e = some s') : WorkerStep s s' := by
  have hinv := h.step hstep
  cases e with
  | call | dispatch | resume | collectBegin | collect => exact he.elim
  | take =>
    simp only [BatchState.step] at hstep
    split at hstep
    · obtain ⟨q', htake, rfl⟩ := Option.map_eq_some_iff.1 hstep
      obtain ⟨-, hqueued, hinput, hprocessing⟩ := h.queue.workerTake htake
      refine ⟨hinv, rfl, rfl, hqueued, ?_⟩
      simp only
      omega
    · cases hstep
  | finish m k =>
    simp only [BatchState.step] at hstep
    split at hstep
    · obtain ⟨q', hadd, rfl⟩ := Option.map_eq_some_iff.1 hstep
      obtain ⟨-, hqueued, hinput, hprocessing⟩ := h.queue.addResult hadd
      refine ⟨hinv, rfl, rfl, hqueued, ?_⟩
      simp only [hinput]
      omega
    · cases hstep

/-- Nothing runs, and nothing can be taken. -/
structure Quiet (s : BatchState) : Prop where
  processing : s.pool.q.processing = []
  input : s.pool.q.input = [] ∨ dstQueueSize ≤ s.pool.q.output.length

theorem Quiet.worker_none (h : s.Quiet) (hinv : s.ProgressInv) {e : BatchEvent} (he : e.IsWorker) :
    s.step e = none := by
  cases e with
  | call | dispatch | resume | collectBegin | collect => exact he.elim
  | take =>
    have htake : s.pool.q.workerTake = none := by
      have hsize := hinv.queue.qsize
      unfold TpoolProcess.workerTake
      split
      · rfl
      · next j rest hinput =>
        rcases h.input with hnil | hfull
        · rw [hinput] at hnil
          cases hnil
        · rw [if_neg]
          rintro ⟨hroom, -⟩
          omega
    simp only [BatchState.step, htake, Option.map_none, ite_self]
  | finish m k => simp [BatchState.step, h.processing]

/-- The workers run until they are quiet. -/
theorem ProgressInv.drain {s : BatchState} (h : s.ProgressInv) : ∃ events s',
    (∀ e ∈ events, BatchEvent.WithinCall e) ∧ run BatchState.step s events = some s' ∧
      s'.ProgressInv ∧ s'.caller = s.caller ∧ s'.pool.waiting = s.pool.waiting ∧
      s'.queued = s.queued ∧ s'.Quiet := by
  by_cases hworker : ∃ e s', BatchEvent.IsWorker e ∧ s.step e = some s'
  · obtain ⟨e, s₁, he, hstep⟩ := hworker
    have hfurther := h.workerStep he hstep
    obtain ⟨events, s', hwithin, hrun, hinv, hcaller, hwaiting, hqueued, hquiet⟩ :=
      hfurther.inv.drain
    refine ⟨e :: events, s', ?_, ?_, hinv, hcaller.trans hfurther.caller,
      hwaiting.trans hfurther.waiting, hqueued.trans hfurther.queued, hquiet⟩
    · intro e' he'
      rcases List.mem_cons.1 he' with rfl | hmem
      · cases e' with
        | call => exact he.elim
        | _ => trivial
      · exact hwithin e' hmem
    · rw [run, hstep]
      exact hrun
  · refine ⟨[], s, by simp, rfl, h, rfl, rfl, rfl, ?_⟩
    have hprocessing : s.pool.q.processing = [] := by
      by_contra hne
      obtain ⟨s', hs'⟩ := h.finish_isSome hne
      exact hworker ⟨.finish 0 0, s', trivial, hs'⟩
    refine ⟨hprocessing, ?_⟩
    by_contra hnot
    rw [not_or] at hnot
    obtain ⟨s', hs'⟩ := h.take_isSome hprocessing hnot.1 (by omega)
    exact hworker ⟨.take, s', trivial, hs'⟩
termination_by 2 * s.pool.q.input.length + s.pool.q.processing.length
decreasing_by exact hfurther.further

/-- More jobs than the queue has room for end in a dispatch that waits for ever. -/
theorem reach_stuck {r : Nat} (hinv : s.ProgressInv) (hcaller : s.caller = .dispatching frames i)
    (hwaiting : s.pool.waiting = []) (hr : i + r = frames.length)
    (hmany : 2 * dstQueueSize < s.queued + r) : ∃ events s',
      (∀ e ∈ events, BatchEvent.WithinCall e) ∧ run BatchState.step s events = some s' ∧ s'.Stuck := by
  induction r generalizing s i with
  | zero =>
    have hinput := hinv.queue.input
    have hroom := hinv.queue.room
    simp only [queued, queuedIn] at hmany
    omega
  | succ r ih =>
    obtain ⟨events, s₁, hwithin, hrun, hinv₁, hcaller₁, hwaiting₁, hqueued₁, hquiet⟩ := hinv.drain
    rw [hcaller] at hcaller₁
    rw [hwaiting] at hwaiting₁
    have hi : i < frames.length := by omega
    have hf : frames[i]? = some frames[i] := List.getElem?_eq_getElem hi
    have hstep : s₁.step (.dispatch true) = some (s₁.dispatch frames i frames[i] true) := by
      simp only [BatchState.step, hcaller₁, hwaiting₁, List.isEmpty_nil, if_true, hf, Option.map_some]
    have hnext := hinv₁.step hstep
    have hdispatched : s₁.dispatch frames i frames[i] true =
        { s₁ with
          pool := s₁.pool.dispatch ⟨s₁.callNo, i, frames[i]⟩ .wait
          caller := .dispatching frames (i + 1) } := rfl
    rcases (hinv₁.queue.dispatch ⟨s₁.callNo, i, frames[i]⟩).2 with
      ⟨hfull, hwait, hq⟩ | ⟨hroom, hsame, hq⟩
    · -- no input can be taken: the results fill their half, and this dispatch waits
      refine ⟨events ++ [.dispatch true], s₁.dispatch frames i frames[i] true, ?_, ?_, ⟨?_, ?_⟩, ?_⟩
      · intro e he
        rcases List.mem_append.1 he with hmem | hlast
        · exact hwithin e hmem
        · rw [List.mem_singleton.1 hlast]
          trivial
      · rw [run_append, hrun, Option.bind_some, run, hstep]
        rfl
      · rw [hdispatched, hwait]
        simp
      · rw [hnext.queue.waits_iff, hdispatched]
        simp only [hq]
        exact hfull
      · intro e he
        refine Quiet.worker_none ⟨?_, ?_⟩ hnext he
        · rw [hdispatched]
          simp only [hq]
          exact hquiet.processing
        · rw [hdispatched]
          simp only [hq]
          exact hquiet.input
    · obtain ⟨events', s', hwithin', hrun', hstuck⟩ := ih hnext rfl
        (by rw [hdispatched, hsame, hwaiting₁]) (by omega) (by
          simp only [hdispatched, queued, hq]
          simp only [queued] at hqueued₁ hmany
          omega)
      refine ⟨events ++ .dispatch true :: events', s', ?_, ?_, hstuck⟩
      · intro e he
        rcases List.mem_append.1 he with hmem | hmem
        · exact hwithin e hmem
        · rcases List.mem_cons.1 hmem with rfl | hmem
          · trivial
          · exact hwithin' e hmem
      · rw [run_append, hrun, Option.bind_some, run, hstep]
        exact hrun'

end Step

/-- In any state a batch decoder can be in between two calls, a call cannot get stuck if
and only if its frames and what is left in the queue fit the two halves of the queue. -/
theorem never_stuck_iff {channelCount threads : Nat} {s₀ s : BatchState} {events : List BatchEvent}
    (hcreate : dstBatchDecoderCreate channelCount threads = some s₀)
    (hrun : run BatchState.step s₀ events = some s) (hidle : s.caller = .idle)
    (frames : List BatchFrame) :
    (∀ events' s', (∀ e ∈ events', BatchEvent.WithinCall e) →
      run BatchState.step s (.call frames :: events') = some s' → ¬ s'.Stuck) ↔
    s.queued + frames.length ≤ 2 * dstQueueSize := by
  obtain ⟨d, -, rfl, hthreads⟩ := dstBatchDecoderCreate_some hcreate
  have hinv : s.ProgressInv :=
    run_invariant (P := fun _ _ => True) (fun _ _ _ h _ hst => h.step hst)
      (ProgressInv.start hthreads d) (along_of_forall (fun _ _ => trivial) _ _) hrun
  have hstep : s.step (.call frames) = some (s.call frames) := by
    simp only [BatchState.step, hidle]
  have hcall := hinv.step hstep
  have hqueued : (s.call frames).queued = s.queued := by
    unfold BatchState.call
    simp only
    split
    · rfl
    · rfl
  have hwaiting : s.pool.waiting = [] := hinv.waiting_eq_nil (by simp [hidle])
  constructor
  · intro hnever
    by_contra hmany
    have hfit : s.queued ≤ 2 * dstQueueSize := by
      have hinput := hinv.queue.input
      have hroom := hinv.queue.room
      simp only [queued, queuedIn]
      omega
    have hne : frames ≠ [] := by
      rintro rfl
      exact hmany (by simpa using hfit)
    have hdispatching : (s.call frames).caller = .dispatching frames 0 := by
      unfold BatchState.call
      simp only [if_neg hne]
    have hwaiting' : (s.call frames).pool.waiting = [] := by
      unfold BatchState.call
      simp only [if_neg hne]
      exact hwaiting
    obtain ⟨events', s', hwithin, hrun', hstuck⟩ :=
      reach_stuck hcall hdispatching hwaiting' (Nat.zero_add _) (by rw [hqueued]; omega)
    refine hnever events' s' hwithin ?_ hstuck
    rw [run, hstep]
    exact hrun'
  · intro hfit events' s' hwithin hrun'
    have hcount : CountInv frames.length s.queued (s.call frames) := by
      intro frames' i' hcaller
      unfold BatchState.call at hcaller ⊢
      simp only at hcaller ⊢
      split at hcaller
      · cases hcaller
      · next hne =>
        cases hcaller
        simp only [if_neg hne]
        exact ⟨trivial, Nat.zero_le _, by rw [hwaiting]; exact Nat.le_refl _⟩
    rw [run, hstep] at hrun'
    have hkept : s'.ProgressInv ∧ CountInv frames.length s.queued s' := by
      refine run_invariant (P := fun _ e => BatchEvent.WithinCall e)
        (I := fun s' => s'.ProgressInv ∧ CountInv frames.length s.queued s')
        (fun _ _ _ h hw hst => ⟨h.1.step hst, h.2.step h.1 hw hst⟩) ⟨hcall, hcount⟩ ?_ hrun'
      exact along_of_mem hwithin _
    exact not_stuck_of_count hkept.1 hkept.2 hfit

/-- Three frames on a new batch decoder with four workers. -/
theorem never_stuck_iff_threeFrames : ∃ s₀, dstBatchDecoderCreate 2 4 = some s₀ ∧
    ((∀ events s, (∀ e ∈ events, BatchEvent.WithinCall e) →
      run BatchState.step s₀ (.call (List.replicate 3 ⟨⟨fun _ => 0, 2⟩, []⟩) :: events) = some s →
        ¬ s.Stuck) ↔
    s₀.queued + (List.replicate 3 (BatchFrame.mk ⟨fun _ => 0, 2⟩ [])).length ≤
      2 * dstQueueSize) := by
  obtain ⟨s₀, hcreate⟩ : ∃ s₀, dstBatchDecoderCreate 2 4 = some s₀ := ⟨_, rfl⟩
  have hrun : run BatchState.step s₀ [] = some s₀ := rfl
  have hidle : s₀.caller = .idle := by
    obtain ⟨d, -, rfl, -⟩ := dstBatchDecoderCreate_some hcreate
    rfl
  exact ⟨s₀, hcreate, never_stuck_iff hcreate hrun hidle _⟩

/-- A call of 257 frames on a new batch decoder gets stuck. -/
theorem tooManyFrames_stuck : ∃ s₀ events s, dstBatchDecoderCreate 2 1 = some s₀ ∧
    run BatchState.step s₀ (.call (List.replicate 257 ⟨⟨fun _ => 0, 2⟩, []⟩) :: events) = some s ∧
    s.Stuck := by
  obtain ⟨s₀, hcreate⟩ : ∃ s₀, dstBatchDecoderCreate 2 1 = some s₀ := ⟨_, rfl⟩
  obtain ⟨d, -, rfl, hthreads⟩ := dstBatchDecoderCreate_some hcreate
  have hinv : ((start 1 d).call (List.replicate 257 ⟨⟨fun _ => 0, 2⟩, []⟩)).ProgressInv :=
    (ProgressInv.start hthreads d).call rfl
  have hmany : 2 * dstQueueSize < ((start 1 d).call
      (List.replicate 257 ⟨⟨fun _ => 0, 2⟩, []⟩)).queued + 257 := by
    show 2 * 128 < 0 + 257
    omega
  obtain ⟨events, s, -, hrun, hstuck⟩ := reach_stuck hinv rfl rfl
    ((Nat.zero_add 257).trans List.length_replicate.symm) hmany
  exact ⟨_, events, s, hcreate, hrun, hstuck⟩

end BatchState

end DsdNexus.Dst
