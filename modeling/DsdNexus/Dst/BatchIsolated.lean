import DsdNexus.Dst.DecoderBatch
import DsdNexus.Dst.DecoderMemory

/-! # When calls of the batch decoder are isolated

A call that stops at an error leaves the results behind it in the queue, and a frame with
incomplete tables is decoded with what another frame left. Where neither happens each
call takes out all it has put in, and returns what decoders of its own would give.
-/

namespace DsdNexus.Dst

open Util Transition
open scoped List

/-! ## The condition -/

/-- The frames have complete tables, and only the last of them may fail to decode. -/
structure CleanCall (d : DstDecoder) (frames : List BatchFrame) : Prop where
  complete : ∀ f ∈ frames, TablesComplete d f.frame
  decoded : ∀ f ∈ frames.dropLast, (dstDecoderDecode d f.frame f.out).1.ret = 0

instance (d : DstDecoder) (frames : List BatchFrame) : Decidable (CleanCall d frames) :=
  decidable_of_iff ((∀ f ∈ frames, TablesComplete d f.frame) ∧
    ∀ f ∈ frames.dropLast, (dstDecoderDecode d f.frame f.out).1.ret = 0)
    ⟨fun h => ⟨h.1, h.2⟩, fun h => ⟨h.complete, h.decoded⟩⟩

/-- The calls are clean, and only the first frame of a call is refused by the pool. -/
def CleanStep (d : DstDecoder) (s : BatchState) : BatchEvent → Prop
  | .call frames => CleanCall d frames
  | .dispatch false =>
    match s.caller with
    | .dispatching _ i => i = 0
    | _ => True
  | _ => True

/-- What a call returns when each of its frames is decoded by a decoder like `d`. -/
def FinishedCall.alone (d : DstDecoder) (frames : List BatchFrame) : Option Nat → FinishedCall
  | some i => ⟨frames, some i, -1, [], frames.map BatchFrame.out⟩
  | none =>
    { frames := frames
      refused := none
      ret := (frames.getLast?.map fun f => (dstDecoderDecode d f.frame f.out).1.ret).getD 0
      sizes := frames.map fun f => ((dstDecoderDecode d f.frame f.out).1.len).getD 0
      outputs := frames.map fun f => (dstDecoderDecode d f.frame f.out).1.out }

/-! ## The jobs that are not done -/

/-- The numbers of the jobs that wait, are queued or are being run. -/
def unfinished (p : PoolRun DecodeJob DoneJob) : List Nat :=
  p.waiting.map (·.serial) ++ (p.q.input.map (·.serial) ++ p.q.processing.map (·.serial))

section Pool

variable {func : DecodeJob → DoneJob} {p : PoolRun DecodeJob DoneJob}

theorem unfinished_subset_serials {k : Nat} (h : k ∈ unfinished p) : k ∈ p.serials := by
  simp only [unfinished, List.mem_append] at h
  simp only [PoolRun.serials, TpoolProcess.serials, List.mem_append]
  tauto

/-- A blocking dispatch is a call that waits or has entered the queue. -/
theorem dispatch_wait (h : p.OrderInv func) (job : DecodeJob) :
    (p.dispatch job .wait).calls = p.calls ++ [⟨p.q.currSerial, job⟩] ∧
      (p.dispatch job .wait).returned = p.returned ∧ (p.dispatch job .wait).cleared = p.cleared ∧
      (∀ k, k ∈ unfinished (p.dispatch job .wait) ↔ k ∈ unfinished p ∨ k = p.q.currSerial) := by
  have henter : p.q.dispatchEnter job .wait =
      some (⟨p.q.currSerial, job⟩, { p.q with currSerial := p.q.currSerial + 1 }) := by
    simp [TpoolProcess.dispatchEnter]
  unfold PoolRun.dispatch
  simp only [henter]
  split
  · refine ⟨rfl, rfl, rfl, fun k => ?_⟩
    simp only [unfinished, List.map_append, List.map_cons, List.map_nil, List.mem_append,
      List.mem_singleton]
    tauto
  · next q' hfinish =>
    rcases TpoolProcess.dispatchFinish_cases hfinish with ⟨-, woken, rfl⟩ | ⟨hrefused, -⟩
    · refine ⟨rfl, rfl, rfl, fun k => ?_⟩
      simp only [unfinished, TpoolProcess.append, List.map_append, List.map_cons, List.map_nil,
        List.mem_append, List.mem_singleton]
      tauto
    · cases hrefused
  · next q' hfinish =>
    exact absurd hfinish (TpoolProcess.dispatchFinish_ne_refused h.noMoreInput h.shutdown)

theorem resume_wait (h : p.OrderInv func) {j : TpoolJob DecodeJob} (hj : p.waiting[0]? = some j) :
    (p.resume 0 j).calls = p.calls ∧ (p.resume 0 j).returned = p.returned ∧
      (p.resume 0 j).cleared = p.cleared ∧
      (∀ k, k ∈ unfinished p → k ∈ unfinished (p.resume 0 j)) := by
  unfold PoolRun.resume
  split
  · exact ⟨rfl, rfl, rfl, fun _ hk => hk⟩
  · next q' hfinish =>
    rcases TpoolProcess.dispatchFinish_cases hfinish with ⟨-, woken, rfl⟩ | ⟨hrefused, -⟩
    · refine ⟨rfl, rfl, rfl, fun k hk => ?_⟩
      cases hwaiting : p.waiting with
      | nil =>
        rw [hwaiting] at hj
        cases hj
      | cons j' rest =>
        rw [hwaiting] at hj
        cases hj
        simp only [unfinished, hwaiting, TpoolProcess.append, List.map_append, List.map_cons,
          List.map_nil, List.mem_append, List.mem_cons, List.eraseIdx_cons_zero] at hk ⊢
        tauto
    · cases hrefused
  · next q' hfinish =>
    exact absurd hfinish (TpoolProcess.dispatchFinish_ne_refused h.noMoreInput h.shutdown)

theorem unfinished_workerTake {q' : TpoolProcess DecodeJob DoneJob}
    (htake : p.q.workerTake = some q') (k : Nat) :
    k ∈ unfinished { p with q := q' } ↔ k ∈ unfinished p := by
  obtain ⟨j, rest, hinput, rfl⟩ := TpoolProcess.workerTake_some htake
  simp only [unfinished, hinput, List.map_append, List.map_cons, List.map_nil, List.mem_append,
    List.mem_cons]
  tauto

theorem unfinished_eraseIdx {i : Nat} {j : TpoolJob DecodeJob} (hj : p.q.processing[i]? = some j)
    (output : List (TpoolResult DoneJob)) {k : Nat} (hk : k ∈ unfinished p) (hne : k ≠ j.serial) :
    k ∈ unfinished { p with q := { p.q with
      processing := p.q.processing.eraseIdx i, output := output } } := by
  have hperm : p.q.processing.map (·.serial) ~
      j.serial :: (p.q.processing.eraseIdx i).map (·.serial) := by
    obtain ⟨hi, rfl⟩ := List.getElem?_eq_some_iff.1 hj
    exact ((List.getElem_cons_eraseIdx_perm hi).map (·.serial)).symm
  simp only [unfinished, List.mem_append, hperm.mem_iff, List.mem_cons] at hk ⊢
  tauto

end Pool

/-! ## A call under way -/

/-- The first `i` frames of a call are the jobs from number `base` on; each of them is
still to be done or its buffer holds what it decodes to. -/
structure CallInv (d : DstDecoder) (s : BatchState) (frames : List BatchFrame) (i base : Nat) :
    Prop where
  clean : CleanCall d frames
  nonempty : frames ≠ []
  le : i ≤ frames.length
  calls_length : s.pool.calls.length = base + i
  calls_get : ∀ k < i, ∀ f, frames[k]? = some f →
    s.pool.calls[base + k]? = some ⟨base + k, ⟨s.callNo, k, f⟩⟩
  outputs_length : s.outputs.length = frames.length
  later : ∀ k, i ≤ k → s.outputs[k]? = frames[k]?.map BatchFrame.out
  written : ∀ k < i, base + k ∈ unfinished s.pool ∨
    s.outputs[k]? = frames[k]?.map fun f => (dstDecoderDecode d f.frame f.out).1.out

/-- What holds of the thread in `dst_batch_decode`. -/
def CallerInv (d : DstDecoder) (s : BatchState) : Caller → Prop
  | .idle => s.pool.returned.length = s.pool.calls.length
  | .dispatching frames i => ∃ base, CallInv d s frames i base ∧ s.pool.returned.length = base
  | .collecting frames sizes => ∃ base, CallInv d s frames frames.length base ∧
    s.pool.returned.length = base + sizes.length ∧ sizes.length < frames.length ∧
    sizes = (frames.take sizes.length).map fun f =>
      ((dstDecoderDecode d f.frame f.out).1.len).getD 0

structure BatchInv (d : DstDecoder) (s : BatchState) : Prop where
  decoders : ∀ d' ∈ s.decoders, d'.channels = d.channels ∧ d'.sampleRate = d.sampleRate
  order : s.pool.OrderInv (dstDecodeWorker d)
  cleared : s.pool.cleared = false
  complete : ∀ j ∈ s.pool.calls, TablesComplete d j.arg.input.frame
  caller : CallerInv d s s.caller
  finished : ∀ c ∈ s.finished, c = FinishedCall.alone d c.frames c.refused

section Call

variable {d : DstDecoder} {s s' : BatchState} {frames : List BatchFrame} {i base : Nat}

/-- A step of the pool that finishes no job keeps what holds of a call. -/
theorem CallInv.of_pool (h : CallInv d s frames i base) {p : PoolRun DecodeJob DoneJob}
    (hcalls : p.calls = s.pool.calls) (hunfinished : ∀ k, k ∈ unfinished s.pool → k ∈ unfinished p) :
    CallInv d { s with pool := p } frames i base :=
  { h with
    calls_length := hcalls ▸ h.calls_length
    calls_get := hcalls ▸ h.calls_get
    written := fun k hk => (h.written k hk).imp_left (hunfinished _) }

theorem CallerInv.of_pool {c : Caller} (h : CallerInv d s c) {p : PoolRun DecodeJob DoneJob}
    (hcalls : p.calls = s.pool.calls) (hreturned : p.returned = s.pool.returned)
    (hunfinished : ∀ k, k ∈ unfinished s.pool → k ∈ unfinished p) :
    CallerInv d { s with pool := p } c := by
  cases c with
  | idle =>
    unfold CallerInv at h ⊢
    rw [hcalls, hreturned]
    exact h
  | dispatching frames i =>
    obtain ⟨base, hcall, hlen⟩ := h
    exact ⟨base, hcall.of_pool hcalls hunfinished, by rw [hreturned]; exact hlen⟩
  | collecting frames sizes =>
    obtain ⟨base, hcall, hlen, hrest⟩ := h
    exact ⟨base, hcall.of_pool hcalls hunfinished, by rw [hreturned]; exact hlen, hrest⟩

/-- A step of the pool alone. -/
theorem BatchInv.of_pool (h : BatchInv d s) {p : PoolRun DecodeJob DoneJob}
    (horder : p.OrderInv (dstDecodeWorker d)) (hcalls : p.calls = s.pool.calls)
    (hreturned : p.returned = s.pool.returned) (hcleared : p.cleared = s.pool.cleared)
    (hunfinished : ∀ k, k ∈ unfinished s.pool → k ∈ unfinished p) :
    BatchInv d { s with pool := p } where
  decoders := h.decoders
  order := horder
  cleared := hcleared.trans h.cleared
  complete := hcalls ▸ h.complete
  caller := h.caller.of_pool hcalls hreturned hunfinished
  finished := h.finished

/-- A job that is not done belongs to the call under way. -/
theorem CallInv.job (h : CallInv d s frames i base) (horder : s.pool.OrderInv (dstDecodeWorker d))
    (hreturned : base ≤ s.pool.returned.length) {j : TpoolJob DecodeJob}
    (hj : j ∈ s.pool.q.processing) :
    ∃ k f, k < i ∧ frames[k]? = some f ∧ j = ⟨base + k, ⟨s.callNo, k, f⟩⟩ := by
  have hcall := horder.processing j hj
  have hserial : j.serial ∈ s.pool.serials := by
    apply unfinished_subset_serials
    simp only [unfinished, List.mem_append, List.mem_map]
    exact Or.inr (Or.inr ⟨j, hj, rfl⟩)
  have hge := horder.ahead _ hserial
  have hget := horder.calls_getElem? hcall
  have hlt : j.serial < base + i := by
    rw [← h.calls_length]
    exact (List.getElem?_eq_some_iff.1 hget).1
  have hle := h.le
  obtain ⟨k, hk⟩ : ∃ k, j.serial = base + k := ⟨j.serial - base, by omega⟩
  have hki : k < i := by omega
  have hkf : k < frames.length := by omega
  have hframe : frames[k]? = some (frames.get ⟨k, hkf⟩) := List.getElem?_eq_getElem hkf
  refine ⟨k, _, hki, hframe, ?_⟩
  rw [hk, h.calls_get k hki _ hframe] at hget
  exact (Option.some.inj hget).symm

theorem decode_eq (h : BatchInv d s) {d' : DstDecoder} (hd' : d' ∈ s.decoders)
    {j : TpoolJob DecodeJob} (hj : j ∈ s.pool.q.processing) :
    (dstDecoderDecode d' j.arg.input.frame j.arg.input.out).1 =
      (dstDecoderDecode d j.arg.input.frame j.arg.input.out).1 := by
  obtain ⟨hchannels, hrate⟩ := h.decoders d' hd'
  exact dstDecoderDecode_congr hchannels hrate (h.complete j (h.order.processing j hj)) _

/-- A worker is done with a job of the call. -/
theorem CallInv.finish (h : CallInv d s frames i base) {m k : Nat} {j : TpoolJob DecodeJob}
    (hj : s.pool.q.processing[m]? = some j) {f : BatchFrame} (hk : k < i) (hf : frames[k]? = some f)
    (hjob : j = ⟨base + k, ⟨s.callNo, k, f⟩⟩) (decoders : List DstDecoder)
    (output : List (TpoolResult DoneJob)) :
    CallInv d { s with
      pool := { s.pool with q := { s.pool.q with
        processing := s.pool.q.processing.eraseIdx m, output := output } }
      decoders := decoders
      outputs := s.outputs.set k (dstDecoderDecode d f.frame f.out).1.out } frames i base :=
  { h with
    outputs_length := by rw [List.length_set, h.outputs_length]
    later := by
      intro k' hk'
      rw [List.getElem?_set_ne (by omega)]
      exact h.later k' hk'
    written := by
      intro k' hk'
      by_cases heq : k = k'
      · right
        subst heq
        have hlen : k < s.outputs.length := by
          rw [h.outputs_length]
          exact (List.getElem?_eq_some_iff.1 hf).1
        rw [List.getElem?_set_self hlen, hf]
        rfl
      · rcases h.written k' hk' with hunfinished | hdone
        · left
          refine unfinished_eraseIdx hj output hunfinished ?_
          rw [hjob]
          simp only
          omega
        · right
          rw [List.getElem?_set_ne heq]
          exact hdone }

theorem CallerInv.finish {c : Caller} (h : CallerInv d s c)
    (horder : s.pool.OrderInv (dstDecodeWorker d)) {m : Nat} {j : TpoolJob DecodeJob}
    (hj : s.pool.q.processing[m]? = some j) (decoders : List DstDecoder)
    (output : List (TpoolResult DoneJob)) :
    CallerInv d { s with
      pool := { s.pool with q := { s.pool.q with
        processing := s.pool.q.processing.eraseIdx m, output := output } }
      decoders := decoders
      outputs := if j.arg.call = s.callNo then
          s.outputs.set j.arg.index (dstDecoderDecode d j.arg.input.frame j.arg.input.out).1.out
        else s.outputs } c := by
  have hjmem := List.mem_of_getElem? hj
  cases c with
  | idle => exact h
  | dispatching frames i =>
    obtain ⟨base, hcall, hlen⟩ := h
    obtain ⟨k, f, hk, hf, rfl⟩ := hcall.job horder (Nat.le_of_eq hlen.symm) hjmem
    refine ⟨base, ?_, hlen⟩
    simp only [if_true]
    exact hcall.finish hj hk hf rfl decoders output
  | collecting frames sizes =>
    obtain ⟨base, hcall, hlen, hrest⟩ := h
    obtain ⟨k, f, hk, hf, rfl⟩ := hcall.job horder (by omega) hjmem
    refine ⟨base, ?_, hlen, hrest⟩
    simp only [if_true]
    exact hcall.finish hj hk hf rfl decoders output

theorem BatchInv.finish (h : BatchInv d s) {m n : Nat} {j : TpoolJob DecodeJob} {d' : DstDecoder}
    (hj : s.pool.q.processing[m]? = some j) (hd' : s.decoders[n]? = some d')
    (hstep : s.finish m n j d' = some s') : BatchInv d s' := by
  have hjmem := List.mem_of_getElem? hj
  have hd'mem := List.mem_of_getElem? hd'
  have hdecode := decode_eq h hd'mem hjmem
  have hworker : dstDecodeWorker d' j.arg = dstDecodeWorker d j.arg := by
    unfold dstDecodeWorker
    rw [hdecode]
  obtain ⟨q', hadd, rfl⟩ := Option.map_eq_some_iff.1 hstep
  have hadd' : s.pool.q.addResult (dstDecodeWorker d) m = some q' := by
    unfold TpoolProcess.addResult at hadd ⊢
    rw [hj] at hadd ⊢
    simp only [hworker] at hadd
    exact hadd
  have horder := h.order.finish hadd'
  obtain ⟨j', hj', rfl⟩ := TpoolProcess.addResult_getElem? hadd'
  rw [hj] at hj'
  cases hj'
  have hsame := dstDecoderDecode_same d' j.arg.input.frame j.arg.input.out
  constructor
  case decoders =>
    intro d'' hd''
    rcases List.mem_or_eq_of_mem_set hd'' with hold | rfl
    · exact h.decoders d'' hold
    · exact ⟨hsame.1.trans (h.decoders d' hd'mem).1, hsame.2.trans (h.decoders d' hd'mem).2⟩
  case order => exact horder
  case cleared => exact h.cleared
  case complete => exact h.complete
  case finished => exact h.finished
  case caller =>
    simp only [hdecode]
    exact h.caller.finish h.order hj _ _

/-- A call begins with nothing of another call in the pool. -/
theorem BatchInv.call (h : BatchInv d s) (hidle : s.caller = .idle) (hclean : CleanCall d frames) :
    BatchInv d (s.call frames) := by
  have hcaller := h.caller
  rw [hidle] at hcaller
  unfold BatchState.call
  simp only
  split
  · next hnil =>
    subst hnil
    exact { h with
      caller := hcaller
      finished := by
        intro c hc
        rcases List.mem_append.1 hc with hold | hlast
        · exact h.finished c hold
        · rw [List.mem_singleton.1 hlast]
          rfl }
  · next hne =>
    refine { h with caller := ⟨s.pool.calls.length, ?_, hcaller⟩ }
    exact
      { clean := hclean
        nonempty := hne
        le := Nat.zero_le _
        calls_length := rfl
        calls_get := fun k hk => absurd hk (Nat.not_lt_zero k)
        outputs_length := by simp
        later := fun k _ => List.getElem?_map
        written := fun k hk => absurd hk (Nat.not_lt_zero k) }

theorem BatchInv.dispatch (h : BatchInv d s) {f : BatchFrame} {alloc : Bool}
    (hcaller : s.caller = .dispatching frames i) (hf : frames[i]? = some f)
    (hclean : alloc = false → i = 0) : BatchInv d (s.dispatch frames i f alloc) := by
  have hinv := h.caller
  rw [hcaller] at hinv
  obtain ⟨base, hcall, hlen⟩ := hinv
  unfold BatchState.dispatch
  cases alloc with
  | true =>
    obtain ⟨hcalls, hreturned, hcleared, hunfinished⟩ :=
      dispatch_wait h.order ⟨s.callNo, i, f⟩
    have hcurr : s.pool.q.currSerial = base + i := by
      rw [← h.order.calls_length, hcall.calls_length]
    have hlt : i < frames.length := (List.getElem?_eq_some_iff.1 hf).1
    simp only [if_true]
    constructor
    case decoders => exact h.decoders
    case order => exact h.order.dispatch _ _
    case cleared => exact hcleared.trans h.cleared
    case complete =>
      intro j hj
      rw [hcalls] at hj
      rcases List.mem_append.1 hj with hold | hlast
      · exact h.complete j hold
      · rw [List.mem_singleton.1 hlast]
        exact hcall.clean.complete f (List.mem_of_getElem? hf)
    case finished => exact h.finished
    case caller =>
      refine ⟨base, ?_, by rw [hreturned]; exact hlen⟩
      exact { hcall with
        le := hlt
        calls_length := by rw [hcalls, List.length_append, hcall.calls_length]; rfl
        calls_get := by
          intro k hk f' hf'
          rw [hcalls]
          by_cases heq : k = i
          · subst heq
            rw [hf] at hf'
            cases hf'
            rw [List.getElem?_append_right (Nat.le_of_eq hcall.calls_length), hcall.calls_length,
              Nat.sub_self, hcurr]
            rfl
          · rw [List.getElem?_append_left (by rw [hcall.calls_length]; omega)]
            exact hcall.calls_get k (by omega) f' hf'
        later := fun k hk => hcall.later k (by omega)
        written := by
          intro k hk
          by_cases heq : k = i
          · left
            rw [heq, ← hcurr]
            exact (hunfinished _).2 (Or.inr rfl)
          · exact (hcall.written k (by omega)).imp_left fun hold => (hunfinished _).2 (Or.inl hold) }
  | false =>
    have hzero := hclean rfl
    subst hzero
    simp only [Bool.false_eq_true, if_false]
    have houtputs : s.outputs = frames.map BatchFrame.out := by
      apply List.ext_getElem?
      intro k
      rw [hcall.later k (Nat.zero_le k), List.getElem?_map]
    exact { h with
      caller := by
        have hcalls := hcall.calls_length
        unfold CallerInv
        simp only [BatchState.ret]
        omega
      finished := by
        intro c hc
        rcases List.mem_append.1 hc with hold | hlast
        · exact h.finished c hold
        · rw [List.mem_singleton.1 hlast, houtputs]
          rfl }

theorem BatchInv.collectBegin (h : BatchInv d s)
    (hcaller : s.caller = .dispatching frames frames.length) :
    BatchInv d { s with caller := .collecting frames [] } := by
  have hinv := h.caller
  rw [hcaller] at hinv
  obtain ⟨base, hcall, hlen⟩ := hinv
  have hpos : 0 < frames.length := List.length_pos_of_ne_nil hcall.nonempty
  exact { h with caller := ⟨base, { hcall with }, hlen, hpos, rfl⟩ }

/-- The result that is next is that of the next frame. -/
theorem CallInv.nextResult (h : CallInv d s frames frames.length base)
    (horder : s.pool.OrderInv (dstDecodeWorker d)) (hcleared : s.pool.cleared = false) {m : Nat}
    (hlen : s.pool.returned.length = base + m) {r : TpoolResult DoneJob}
    {q' : TpoolProcess DecodeJob DoneJob} (hnext : s.pool.q.nextResult = some (r, q'))
    {f : BatchFrame} (hf : frames[m]? = some f) :
    r.data = dstDecodeWorker d ⟨s.callNo, m, f⟩ := by
  obtain ⟨hr, hserial, -, -⟩ := TpoolProcess.nextResult_some hnext
  obtain ⟨j, hj, rfl⟩ := horder.output r hr
  have hnumber : j.serial = base + m := by
    rw [← hlen, ← horder.expected hcleared]
    exact hserial
  have hget := horder.calls_getElem? hj
  have hm : m < frames.length := (List.getElem?_eq_some_iff.1 hf).1
  rw [hnumber, h.calls_get m hm f hf] at hget
  cases hget
  rfl

/-- Nothing of the pool is under way when as many results have been taken as jobs dispatched. -/
theorem serials_eq_nil {p : PoolRun DecodeJob DoneJob} (h : p.OrderInv (dstDecodeWorker d))
    (hall : p.returned.length = p.calls.length) : p.serials = [] := by
  apply List.eq_nil_iff_forall_not_mem.2
  intro k hk
  have hge := h.ahead k hk
  have hlt := h.serials_lt hk
  rw [h.calls_length] at hall
  omega

/-- With nothing under way every buffer of the call holds what its frame decodes to. -/
theorem CallInv.outputs_eq (h : CallInv d s frames frames.length base)
    (hnone : ∀ k, k ∉ unfinished s.pool) :
    s.outputs = frames.map fun f => (dstDecoderDecode d f.frame f.out).1.out := by
  apply List.ext_getElem?
  intro k
  rw [List.getElem?_map]
  by_cases hk : k < frames.length
  · exact (h.written k hk).resolve_left (hnone _)
  · rw [List.getElem?_eq_none (by rw [h.outputs_length]; omega), List.getElem?_eq_none (by omega)]
    rfl

theorem BatchInv.collect (h : BatchInv d s) {sizes : List Nat}
    (hcaller : s.caller = .collecting frames sizes) : BatchInv d (s.collect frames sizes) := by
  have hinv := h.caller
  rw [hcaller] at hinv
  obtain ⟨base, hcall, hlen, hlt, hsizes⟩ := hinv
  have hf : frames[sizes.length]? = some frames[sizes.length] := List.getElem?_eq_getElem hlt
  have hclosed : s.pool.cleared = true → ∀ r ∈ s.pool.q.output, r.serial ≠ intMax := by
    rw [h.cleared]
    nofun
  have horder := h.order.next hclosed
  unfold BatchState.collect
  split
  · exact h
  · next r q' hnext =>
    have hdata := hcall.nextResult h.order h.cleared hlen hnext hf
    have hpool : s.pool.next = { s.pool with q := q', returned := s.pool.returned ++ [r.data] } := by
      unfold PoolRun.next
      rw [hnext]
    rw [hpool] at horder
    have hsame := TpoolProcess.nextResult_same hnext
    have hunfinished : ∀ k, k ∈ unfinished s.pool ↔
        k ∈ unfinished { s.pool with q := q', returned := s.pool.returned ++ [r.data] } := by
      intro k
      simp only [unfinished, hsame.1, hsame.2]
    have hcall' := hcall.of_pool (p := { s.pool with
      q := q', returned := s.pool.returned ++ [r.data] }) rfl fun k => (hunfinished k).1
    have hsizes' : sizes ++ [r.data.outputSize] = (frames.take (sizes.length + 1)).map fun f =>
        ((dstDecoderDecode d f.frame f.out).1.len).getD 0 := by
      rw [List.take_succ_eq_append_getElem hlt, List.map_append, ← hsizes, hdata]
      rfl
    simp only [hpool]
    split
    · next hdone =>
      -- an error can only be that of the last frame
      have hlast : sizes.length + 1 = frames.length := by
        rcases hdone with herror | hall
        · by_contra hne
          have hmem : frames[sizes.length] ∈ frames.dropLast := by
            rw [List.dropLast_eq_take]
            exact List.mem_take_iff_getElem.2 ⟨sizes.length, by omega, rfl⟩
          rw [hdata] at herror
          exact herror (hcall.clean.decoded _ hmem)
        · rw [List.length_append] at hall
          exact hall
      have hreturned : (s.pool.returned ++ [r.data]).length = s.pool.calls.length := by
        rw [List.length_append, hlen, hcall.calls_length, List.length_singleton]
        omega
      have hnone := serials_eq_nil horder hreturned
      have houtputs := hcall'.outputs_eq fun k hk => by
        have hmem := unfinished_subset_serials hk
        rw [hnone] at hmem
        cases hmem
      constructor
      case decoders => exact h.decoders
      case order => exact horder
      case cleared => exact h.cleared
      case complete => exact h.complete
      case caller => exact hreturned
      case finished =>
        intro c hc
        rcases List.mem_append.1 hc with hold | hnew
        · exact h.finished c hold
        · rw [List.mem_singleton.1 hnew]
          have hlastFrame : frames.getLast? = some frames[sizes.length] := by
            rw [List.getLast?_eq_getElem?, ← hlast, Nat.add_sub_cancel]
            exact hf
          simp only [FinishedCall.alone, hlastFrame, Option.map_some, Option.getD_some,
            FinishedCall.mk.injEq, true_and]
          refine ⟨?_, ?_, houtputs⟩
          · rw [hdata]
            rfl
          · rw [hsizes', hlast, List.take_length]
    · next hmore =>
      have hne : (sizes ++ [r.data.outputSize]).length ≠ frames.length :=
        fun heq => hmore (Or.inr heq)
      rw [List.length_append, List.length_singleton] at hne
      constructor
      case decoders => exact h.decoders
      case order => exact horder
      case cleared => exact h.cleared
      case complete => exact h.complete
      case finished => exact h.finished
      case caller =>
        refine ⟨base, { hcall' with }, ?_, ?_, ?_⟩
        · simp only [List.length_append, List.length_singleton]
          omega
        · simp only [List.length_append, List.length_singleton]
          omega
        · simp only [List.length_append, List.length_singleton]
          exact hsizes'

theorem BatchInv.step {e : BatchEvent} (h : BatchInv d s) (hclean : CleanStep d s e)
    (hstep : s.step e = some s') : BatchInv d s' := by
  cases e with
  | call frames =>
    simp only [BatchState.step] at hstep
    split at hstep
    · next hidle =>
      cases hstep
      exact h.call hidle hclean
    · cases hstep
  | dispatch alloc =>
    simp only [BatchState.step] at hstep
    split at hstep
    · next frames i hcaller =>
      split at hstep
      · obtain ⟨f, hf, rfl⟩ := Option.map_eq_some_iff.1 hstep
        refine h.dispatch hcaller hf fun halloc => ?_
        subst halloc
        simp only [CleanStep, hcaller] at hclean
        exact hclean
      · cases hstep
    · cases hstep
  | resume =>
    obtain ⟨j, hj, rfl⟩ := Option.map_eq_some_iff.1 hstep
    obtain ⟨hcalls, hreturned, hcleared, hunfinished⟩ := resume_wait h.order hj
    exact h.of_pool (h.order.resume hj) hcalls hreturned hcleared hunfinished
  | collectBegin =>
    simp only [BatchState.step] at hstep
    split at hstep
    · next frames i hcaller =>
      split at hstep
      · next hdone =>
        cases hstep
        exact h.collectBegin (hdone.2 ▸ hcaller)
      · cases hstep
    · cases hstep
  | collect =>
    simp only [BatchState.step] at hstep
    split at hstep
    · next frames sizes hcaller =>
      cases hstep
      exact h.collect hcaller
    · cases hstep
  | take =>
    simp only [BatchState.step] at hstep
    split at hstep
    · obtain ⟨q', htake, rfl⟩ := Option.map_eq_some_iff.1 hstep
      have horder := h.order.take htake
      obtain ⟨j, rest, -, heq⟩ := TpoolProcess.workerTake_some htake
      refine h.of_pool horder rfl rfl rfl fun k hk => (unfinished_workerTake htake k).2 hk
    · cases hstep
  | finish m n =>
    simp only [BatchState.step] at hstep
    split at hstep
    · next j d' hj hd' => exact h.finish hj hd' hstep
    · cases hstep

end Call

theorem BatchInv.start (threads : Nat) (d : DstDecoder) : BatchInv d (BatchState.start threads d) where
  decoders := by
    intro d' hd'
    rw [List.eq_of_mem_replicate hd']
    exact ⟨rfl, rfl⟩
  order := .start _ _
  cleared := rfl
  complete := nofun
  caller := rfl
  finished := nofun

instance (d : DstDecoder) (s : BatchState) : ∀ e, Decidable (CleanStep d s e)
  | .call frames => inferInstanceAs (Decidable (CleanCall d frames))
  | .dispatch false =>
    match h : s.caller with
    | .dispatching _ i => decidable_of_iff (i = 0) (by simp [CleanStep, h])
    | .idle | .collecting _ _ => isTrue (by simp [CleanStep, h])
  | .dispatch true | .resume | .collectBegin | .collect | .take | .finish _ _ => isTrue trivial

/-- Along clean histories a call returns what the same call returns in any other, such as
one that begins with it, and leaves nothing in the queue. -/
theorem calls_isolated {channelCount threads threads' : Nat} {s₀ s₀' s s' : BatchState}
    {d : DstDecoder} {events events' : List BatchEvent}
    (hdecoder : dstDecoderInit channelCount dstSampleRate = some d)
    (hcreate : dstBatchDecoderCreate channelCount threads = some s₀)
    (hcreate' : dstBatchDecoderCreate channelCount threads' = some s₀')
    (hclean : Along BatchState.step (CleanStep d) s₀ events)
    (hclean' : Along BatchState.step (CleanStep d) s₀' events')
    (hrun : run BatchState.step s₀ events = some s)
    (hrun' : run BatchState.step s₀' events' = some s') :
    (∀ c ∈ s.finished, ∀ c' ∈ s'.finished,
      c.frames = c'.frames → c.refused = c'.refused → c = c') ∧
    (s.caller = .idle → s.pool.waiting = [] ∧ s.pool.q.input = [] ∧
      s.pool.q.processing = [] ∧ s.pool.q.output = []) := by
  have hinv : ∀ {threads : Nat} {s₀ s : BatchState} {events : List BatchEvent},
      dstBatchDecoderCreate channelCount threads = some s₀ →
      Along BatchState.step (CleanStep d) s₀ events → run BatchState.step s₀ events = some s →
      BatchInv d s := by
    intro threads s₀ s events hcreate hclean hrun
    obtain ⟨d', hd', rfl, -⟩ := dstBatchDecoderCreate_some hcreate
    rw [hdecoder] at hd'
    cases hd'
    exact run_invariant (fun _ _ _ h hc hst => h.step hc hst) (.start threads d) hclean hrun
  have h := hinv hcreate hclean hrun
  have h' := hinv hcreate' hclean' hrun'
  constructor
  · intro c hc c' hc' hframes hrefused
    rw [h.finished c hc, h'.finished c' hc', hframes, hrefused]
  · intro hidle
    have hcaller := h.caller
    rw [hidle] at hcaller
    have hnone := serials_eq_nil h.order hcaller
    simp only [PoolRun.serials, TpoolProcess.serials, List.append_eq_nil_iff,
      List.map_eq_nil_iff] at hnone
    exact ⟨hnone.1, hnone.2.1, hnone.2.2.1, hnone.2.2.2⟩

/-! ## Two calls -/

section Calls

/-- A frame whose samples follow as they are, of `n` bytes. -/
private def plainFrame (n : Nat) : BatchFrame := ⟨⟨fun i => i.toUInt8, n⟩, []⟩

/-- A frame of one byte, which is refused. -/
private def shortFrame : BatchFrame := ⟨⟨fun _ => 0, 1⟩, []⟩

private def oneCall (frames : List BatchFrame) : List BatchEvent :=
  [.call frames] ++ List.replicate frames.length (.dispatch true) ++ [.collectBegin] ++
    (List.replicate frames.length [.take, .finish 0 0, .collect]).flatten

private def batchDecoder (threads : Nat) : BatchState :=
  BatchState.start threads
    { channels := 2
      sampleRate := dstSampleRate
      status := fun _ => ⟨0, 0⟩
      filter := fun _ _ _ => 0
      gb := ⟨fun _ => 0, 0, 0⟩
      ac := ⟨0, 0⟩
      fsets := .blank
      probs := .blank }

private theorem batchDecoder_created {threads : Nat} (h : 0 < threads) :
    dstBatchDecoderCreate 2 threads = some (batchDecoder threads) := by
  unfold dstBatchDecoderCreate
  rw [if_neg (by omega)]
  rfl

private theorem twoCalls_isSome : (run BatchState.step (batchDecoder 1)
    (oneCall [plainFrame 3, shortFrame] ++ oneCall [plainFrame 5])).isSome = true := by decide

private theorem singleCall_isSome :
    (run BatchState.step (batchDecoder 2) (oneCall [plainFrame 5])).isSome = true := by decide

/-- The last frame of the first call fails, and the second call is not affected. -/
theorem calls_isolated_twoCalls :
    (∀ c ∈ (Option.get _ twoCalls_isSome).finished,
      ∀ c' ∈ (Option.get _ singleCall_isSome).finished,
        c.frames = c'.frames → c.refused = c'.refused → c = c') ∧
    ((Option.get _ twoCalls_isSome).caller = .idle →
      (Option.get _ twoCalls_isSome).pool.waiting = [] ∧
      (Option.get _ twoCalls_isSome).pool.q.input = [] ∧
      (Option.get _ twoCalls_isSome).pool.q.processing = [] ∧
      (Option.get _ twoCalls_isSome).pool.q.output = []) :=
  calls_isolated rfl (batchDecoder_created (by decide)) (batchDecoder_created (by decide))
    (by decide) (by decide) (Option.some_get twoCalls_isSome).symm (Option.some_get singleCall_isSome).symm

private theorem errorFirst_isSome : (run BatchState.step (batchDecoder 1)
    ([.call [shortFrame, plainFrame 3], .dispatch true, .dispatch true, .collectBegin, .take,
      .finish 0 0, .take, .finish 0 0, .collect] ++
      [.call [plainFrame 5], .dispatch true, .collectBegin, .collect])).isSome = true := by decide

/-- The first frame of the first call fails: the second call takes the result of the
frame behind it. -/
theorem errorFirst_not_isolated :
    dstBatchDecoderCreate 2 1 = some (batchDecoder 1) ∧
      ∃ c ∈ (Option.get _ errorFirst_isSome).finished,
        ∃ c' ∈ (Option.get _ singleCall_isSome).finished,
          c.frames = c'.frames ∧ c.refused = c'.refused ∧ c.sizes = [3] ∧ c'.sizes = [5] ∧
            (Option.get _ errorFirst_isSome).pool.q.input ≠ [] := by
  refine ⟨batchDecoder_created (by decide),
    (Option.get _ errorFirst_isSome).finished.get ⟨1, by decide⟩, List.get_mem _ _,
    (Option.get _ singleCall_isSome).finished.get ⟨0, by decide⟩, List.get_mem _ _, rfl, rfl, ?_, ?_, ?_⟩
  · decide
  · decide
  · intro hnil
    have hlen : (Option.get _ errorFirst_isSome).pool.q.input.length = 1 := by decide
    rw [hnil] at hlen
    cases hlen

end Calls

end DsdNexus.Dst
