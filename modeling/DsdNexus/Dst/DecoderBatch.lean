import DsdNexus.Dst.Decoder
import DsdNexus.Util.TpoolOrder

/-! # The batch decoder

`dst_batch_decode` hands all frames of a call to the thread pool and then collects their
results in order, up to the first error. A worker decodes with a decoder it has to
itself. A result carries the fields of its job as the worker left them; that the jobs of
a call are freed when it returns is not modelled.
-/

namespace DsdNexus.Dst

open Util

/-- The sample rate of the decoders, `DST_SAMPLE_RATE`. -/
def dstSampleRate : Nat := 2822400

/-- `DST_QUEUE_SIZE`. -/
def dstQueueSize : Nat := 128

/-- One entry of `inputs` and `input_sizes`, and what the entry of `outputs` holds. -/
structure BatchFrame where
  frame : DstFrame
  out : List UInt8

/-- `dst_decode_job_t` as it is dispatched: the call it belongs to and its place in it. -/
structure DecodeJob where
  call : Nat
  index : Nat
  input : BatchFrame

/-- `dst_decode_job_t` as a worker leaves it. -/
structure DoneJob where
  call : Nat
  index : Nat
  error : Int
  outputSize : Nat
  deriving DecidableEq

/-- What `dst_decode_worker` makes of a job with the decoder it has acquired. -/
def dstDecodeWorker (d : DstDecoder) (job : DecodeJob) : DoneJob :=
  let result := (dstDecoderDecode d job.input.frame job.input.out).1
  ⟨job.call, job.index, result.ret, result.len.getD 0⟩

/-- Where the thread in `dst_batch_decode` is. -/
inductive Caller where
  | idle
  /-- `i` frames have been given to `sa_tpool_dispatch`; the last may still wait there. -/
  | dispatching (frames : List BatchFrame) (i : Nat)
  /-- The results of as many frames as there are sizes have been taken. -/
  | collecting (frames : List BatchFrame) (sizes : List Nat)

/-- A call that has returned; `refused` is the frame that was not dispatched. -/
structure FinishedCall where
  frames : List BatchFrame
  refused : Option Nat
  ret : Int
  sizes : List Nat
  outputs : List (List UInt8)

/-- `dst_batch_decoder_s`, the calls to it and their output buffers. -/
structure BatchState where
  decoders : List DstDecoder
  pool : PoolRun DecodeJob DoneJob
  callNo : Nat
  caller : Caller
  /-- The output buffers of the latest call. -/
  outputs : List (List UInt8)
  finished : List FinishedCall

inductive BatchEvent where
  | call (frames : List BatchFrame)
  /-- The next frame is dispatched, if there is memory for it. -/
  | dispatch (alloc : Bool)
  | resume
  | collectBegin
  | collect
  | take
  /-- The worker with the job at place `i` is done, with decoder `k`. -/
  | finish (i k : Nat)

namespace BatchState

def start (threads : Nat) (d : DstDecoder) : BatchState where
  decoders := List.replicate threads d
  pool := PoolRun.start dstQueueSize
  callNo := 0
  caller := .idle
  outputs := []
  finished := []

/-- `dst_batch_decode` returns. -/
def ret (s : BatchState) (frames : List BatchFrame) (refused : Option Nat) (ret : Int)
    (sizes : List Nat) : BatchState :=
  { s with
    caller := .idle
    finished := s.finished ++ [⟨frames, refused, ret, sizes, s.outputs⟩] }

def call (s : BatchState) (frames : List BatchFrame) : BatchState :=
  let s := { s with callNo := s.callNo + 1, outputs := frames.map BatchFrame.out }
  if frames = [] then s.ret [] none 0 [] else { s with caller := .dispatching frames 0 }

/-- `sa_tpool_dispatch` of frame `i`. -/
def dispatch (s : BatchState) (frames : List BatchFrame) (i : Nat) (f : BatchFrame) (alloc : Bool) :
    BatchState :=
  if alloc then
    { s with
      pool := s.pool.dispatch ⟨s.callNo, i, f⟩ .wait
      caller := .dispatching frames (i + 1) }
  else s.ret frames (some i) (-1) []

/-- The body of the loop that collects the results. -/
def collect (s : BatchState) (frames : List BatchFrame) (sizes : List Nat) : BatchState :=
  match s.pool.q.nextResult with
  | none => s
  | some (r, _) =>
    let sizes := sizes ++ [r.data.outputSize]
    let s := { s with pool := s.pool.next }
    if r.data.error ≠ 0 ∨ sizes.length = frames.length then s.ret frames none r.data.error sizes
    else { s with caller := .collecting frames sizes }

/-- The decoder writes to the buffer of the job. -/
def finish (s : BatchState) (i k : Nat) (j : TpoolJob DecodeJob) (d : DstDecoder) :
    Option BatchState :=
  let decoded := dstDecoderDecode d j.arg.input.frame j.arg.input.out
  (s.pool.q.addResult (dstDecodeWorker d) i).map fun q =>
    { s with
      pool := { s.pool with q := q }
      decoders := s.decoders.set k decoded.2
      outputs := if j.arg.call = s.callNo then s.outputs.set j.arg.index decoded.1.out
        else s.outputs }

def step (s : BatchState) : BatchEvent → Option BatchState
  | .call frames =>
    match s.caller with
    | .idle => some (s.call frames)
    | _ => none
  | .dispatch alloc =>
    match s.caller with
    | .dispatching frames i =>
      if s.pool.waiting.isEmpty then frames[i]?.map fun f => s.dispatch frames i f alloc else none
    | _ => none
  | .resume => s.pool.waiting[0]?.map fun j => { s with pool := s.pool.resume 0 j }
  | .collectBegin =>
    match s.caller with
    | .dispatching frames i =>
      if s.pool.waiting.isEmpty ∧ i = frames.length then
        some { s with caller := .collecting frames [] }
      else none
    | _ => none
  | .collect =>
    match s.caller with
    | .collecting frames sizes => some (s.collect frames sizes)
    | _ => none
  | .take =>
    if s.pool.q.processing.length < s.decoders.length then
      s.pool.q.workerTake.map fun q => { s with pool := { s.pool with q := q } }
    else none
  | .finish i k =>
    match s.pool.q.processing[i]?, s.decoders[k]? with
    | some j, some d => s.finish i k j d
    | _, _ => none

end BatchState

/-- `dst_batch_decoder_create_with_pool`. -/
def dstBatchDecoderCreate (channelCount threads : Nat) : Option BatchState :=
  if (channelCount ≠ 2 ∧ channelCount ≠ 6) ∨ threads = 0 then none
  else (dstDecoderInit channelCount dstSampleRate).map (BatchState.start threads)

theorem dstBatchDecoderCreate_some {channelCount threads : Nat} {s : BatchState}
    (h : dstBatchDecoderCreate channelCount threads = some s) :
    ∃ d, dstDecoderInit channelCount dstSampleRate = some d ∧ s = BatchState.start threads d ∧
      0 < threads := by
  unfold dstBatchDecoderCreate at h
  split at h
  · cases h
  · next hargs =>
    obtain ⟨d, hd, rfl⟩ := Option.map_eq_some_iff.1 h
    exact ⟨d, hd, rfl, by omega⟩

end DsdNexus.Dst
