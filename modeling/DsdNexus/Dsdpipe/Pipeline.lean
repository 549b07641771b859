import DsdNexus.Lib.Triple
import DsdNexus.Dsdpipe.ReaderThread

/-! # The pipeline

`dsdpipe.c` with the transforms and the sinks it drives. Source, transforms, sinks and
memory answer each call with a status; the log keeps the calls in their order with the
statuses. What the frame queue hands out is the feed of a track.
-/

namespace DsdNexus.Dsdpipe

open Program

/-- `DSDPIPE_ERROR_INVALID_ARG`. -/
def errorInvalidArg : Int := -1

/-- `DSDPIPE_ERROR_NOT_CONFIGURED`. -/
def errorNotConfigured : Int := -3

/-- `DSDPIPE_ERROR_ALREADY_RUNNING`. -/
def errorAlreadyRunning : Int := -4

/-- `DSDPIPE_ERROR_SINK_OPEN`. -/
def errorSinkOpen : Int := -6

/-- `DSDPIPE_ERROR_WRITE`. -/
def errorWrite : Int := -8

/-- `DSDPIPE_ERROR_DST_DECODE`. -/
def errorDstDecode : Int := -9

/-- `DSDPIPE_ERROR_PCM_CONVERT`. -/
def errorPcmConvert : Int := -10

/-- `DSDPIPE_ERROR_NO_SOURCE`. -/
def errorNoSource : Int := -12

/-- `DSDPIPE_ERROR_NO_SINKS`. -/
def errorNoSinks : Int := -13

/-! ## Formats, sinks and transforms -/

inductive FormatType where
  | unknown
  | dsdRaw
  | dst
  | pcmInt16
  | pcmInt24
  | pcmInt32
  | pcmFloat32
  | pcmFloat64
deriving DecidableEq

structure Format where
  type : FormatType
  sampleRate : Nat
  channelCount : Nat
  bitsPerSample : Nat
  frameRate : Nat
deriving DecidableEq

/-- The format of a record that has only been cleared. -/
def Format.zero : Format where
  type := .unknown
  sampleRate := 0
  channelCount := 0
  bitsPerSample := 0
  frameRate := 0

/-- The bits `DSDPIPE_SINK_CAP_…`. -/
structure Caps where
  dsd : Bool
  dst : Bool
  pcm : Bool
  metadata : Bool
  markers : Bool
  multiTrack : Bool
deriving DecidableEq

/-- The test in `dsdpipe_write_to_sinks`. -/
def Caps.accepts (caps : Caps) : FormatType → Bool
  | .pcmInt16 | .pcmInt24 | .pcmInt32 | .pcmFloat32 | .pcmFloat64 => caps.pcm
  | .dst => caps.dst
  | .dsdRaw => caps.dsd
  | .unknown => false

inductive SinkType where
  | dsf
  | dsdiff
  | dsdiffEdit
  | wav
  | flac
  | print
  | cue
  | xml
  | id3
deriving DecidableEq

/-- A sink: what it is, the option `write_dst`, and its cached capabilities. -/
structure Sink where
  type : SinkType
  writeDst : Bool
  caps : Caps
deriving DecidableEq

/-- `get_capabilities` of the sinks. -/
def SinkType.getCapabilities (type : SinkType) (writeDst : Bool) : Caps :=
  { dsd := match type with
      | .dsf | .dsdiff | .dsdiffEdit => true
      | .wav | .flac | .print | .cue | .xml | .id3 => false
    dst := match type with
      | .dsdiff | .dsdiffEdit => writeDst
      | .dsf | .wav | .flac | .print | .cue | .xml | .id3 => false
    pcm := match type with
      | .wav | .flac => true
      | .dsf | .dsdiff | .dsdiffEdit | .print | .cue | .xml | .id3 => false
    metadata := true
    markers := match type with
      | .dsdiffEdit | .cue | .xml => true
      | .dsf | .dsdiff | .wav | .flac | .print | .id3 => false
    multiTrack := match type with
      | .dsdiffEdit => true
      | .dsf | .dsdiff | .wav | .flac | .print | .cue | .xml | .id3 => false }

def Sink.create (type : SinkType) (writeDst : Bool) : Sink :=
  ⟨type, writeDst, type.getCapabilities writeDst⟩

/-- The sinks that keep a container file of libdsf or libdsdiff for each track. -/
def SinkType.opensTracks : SinkType → Bool
  | .dsf | .dsdiff => true
  | .dsdiffEdit | .wav | .flac | .print | .cue | .xml | .id3 => false

structure Transform where
  isInitialized : Bool
  inputFormat : Format
  outputFormat : Format
deriving DecidableEq

/-- What the create functions allocate. -/
def Transform.created : Transform := ⟨false, Format.zero, Format.zero⟩

inductive SourceType where
  | none
  | sacd
  | dsdiff
  | dsf
deriving DecidableEq

inductive PipeState where
  | created
  | configured
  | running
  | finished
  | error
deriving DecidableEq

/-- `dsdpipe_t`. For each place in the list of sinks it also tells whether the sink is
open and whether the sink holds an open container file. -/
structure Pipe where
  state : PipeState
  sourceType : SourceType
  sourceFormat : Format
  sinks : List Sink
  isOpen : Nat → Bool
  fileOpen : Nat → Bool
  tracks : List Nat
  dstDecoder : Option Transform
  dsd2pcm : Option Transform
  pcmQuality : Int
  pcmUseFp64 : Bool
  poolsInitialized : Bool
  cancelled : Bool

/-! ## Calls and answers -/

/-- What a buffer holds: a frame of the source, the empty buffer with which the source
ends a track, or what a transform made of it. -/
inductive Payload (α : Type) where
  | source (frame : α)
  | endMark
  | decoded (of : Payload α)
  | converted (of : Payload α)

structure Buffer (α : Type) where
  payload : Payload α
  format : Format

/-- Where a sink closes its container file. -/
inductive Occasion where
  | trackStart (k : Nat)
  | trackEnd (k : Nat)
  | finalize
  | close
deriving DecidableEq

/-- The calls of a run. Sinks go by their place, tracks by their place in the selection,
batches and their buffers by their place in the track. -/
inductive Call (α : Type) where
  | getTrackCount
  | addTrack (track : Nat)
  | initPools
  | createDecoder
  | initDecoder (input : Format)
  | createConverter (quality : Int) (useFp64 : Bool) (rate : Nat)
  | initConverter (input : Format)
  | getAlbumMetadata
  | setTrackCount (i count : Nat)
  | openSink (i : Nat) (format : Format)
  | getTrackMetadata (k track : Nat)
  | getTrackFrames (k track : Nat)
  | trackStart (i k track : Nat)
  | createQueue (k : Nat)
  | createReader (k : Nat)
  | startReader (k track : Nat)
  | readTrack (k : Nat)
  | allocOutput (k b j : Nat)
  | decodeBatch (k b : Nat)
  | writeFrame (i k b j : Nat) (buffer : Buffer α)
  | allocPcm (k b j : Nat)
  | convertBatch (k b : Nat)
  | reportProgress (k b : Nat)
  | finalizeFile (i : Nat) (occasion : Occasion)
  | closeFile (i : Nat) (occasion : Occasion)
  | trackEnd (i k track : Nat)
  | finalizeSink (i : Nat)
  | closeSink (i : Nat)

/-- The batches the consumer pops in a track: frames before the last, a batch that ends
with the flagged last frame, or one that ends with the buffer of the end-of-track return;
an empty one after the end of the queue, with the error of the reader or `ok`; or a
cancelled queue. -/
inductive Feed (α : Type) where
  | batch (first : α) (others : List α) (rest : Feed α)
  | lastBatch (first : α) (others : List α)
  | endBatch (frames : List α)
  | ended (status : Int)
  | refused (status : Int)

/-- The frames the source delivers. -/
def Feed.frames : Feed α → List α
  | .batch first others rest => first :: others ++ rest.frames
  | .lastBatch first others => first :: others
  | .endBatch frames => frames
  | .ended _ | .refused _ => []

/-- The track ends with the end-of-track return. -/
def Feed.endsByReturn : Feed α → Bool
  | .batch _ _ rest => rest.endsByReturn
  | .endBatch _ => true
  | .lastBatch _ _ | .ended _ | .refused _ => false

/-- Where the cancel flag is looked at: before a turn of the batch loop, in the cleanup,
and on leaving the track. -/
inductive Poll where
  | turn (k b : Nat)
  | cleanup (k : Nat)
  | leave (k : Nat)
deriving DecidableEq

/-- What a run meets: the answers to its calls, the number of tracks, the feed of each
track, and whether the flag has been raised since it was last looked at. -/
structure Env (α : Type) where
  answer : Call α → Int
  trackCount : Fin 256
  feed : Nat → Feed α
  cancels : Poll → Bool

/-- A source of one track has a count. -/
theorem one_lt_256 : 1 < 256 := by decide

/-- A run: the pipe and the calls so far. -/
structure Run (α : Type) where
  pipe : Pipe
  log : List (Call α × Int)

/-- How `dsdpipe_process_track` leaves its batch loop early. -/
inductive Exit where
  | returned (code : Int)
  | cleanup (code : Int)

variable {α ε : Type}

/-- The run after one more call. -/
def Run.logged (s : Run α) (c : Call α) (status : Int) : Run α :=
  { s with log := s.log ++ [(c, status)] }

def Run.withPipe (s : Run α) (f : Pipe → Pipe) : Run α := { s with pipe := f s.pipe }

def setPipe (f : Pipe → Pipe) : Program ε (Run α) Unit := modify fun s => s.withPipe f

def record (c : Call α) (status : Int) : Program ε (Run α) Unit := modify fun s => s.logged c status

/-- A call whose status is not looked at. -/
def ignore (e : Env α) (c : Call α) : Program ε (Run α) Unit := record c (e.answer c)

/-- A call with this status, given up with an error unless it is `ok`. -/
def demand (c : Call α) (status : Int) (exit : Int → ε) : Program ε (Run α) Unit := do
  record c status
  require (status = ok) (exit status)

def attempt (e : Env α) (c : Call α) (exit : Int → ε) : Program ε (Run α) Unit :=
  demand c (e.answer c) exit

/-- A look at the cancel flag. -/
def poll (e : Env α) (at' : Poll) : Program ε (Run α) Bool := do
  setPipe fun p => { p with cancelled := p.cancelled || e.cancels at' }
  let s ← get
  pure s.pipe.cancelled

section Rules

variable {P : Run α → Prop} {Q : Unit → Run α → Prop} {E : ε → Run α → Prop}

@[simp] theorem Run.logged_log (s : Run α) (c : Call α) (status : Int) :
    (s.logged c status).log = s.log ++ [(c, status)] := rfl

@[simp] theorem Run.logged_pipe (s : Run α) (c : Call α) (status : Int) :
    (s.logged c status).pipe = s.pipe := rfl

@[simp] theorem Run.withPipe_log (s : Run α) (f : Pipe → Pipe) : (s.withPipe f).log = s.log := rfl

@[simp] theorem Run.withPipe_pipe (s : Run α) (f : Pipe → Pipe) :
    (s.withPipe f).pipe = f s.pipe := rfl

theorem setPipe_triple {f : Pipe → Pipe} (h : ∀ s, P s → Q () (s.withPipe f)) :
    Triple P (setPipe f) Q E := .modify h

theorem record_triple {c : Call α} {status : Int} (h : ∀ s, P s → Q () (s.logged c status)) :
    Triple P (record c status) Q E := .modify h

theorem demand_triple {c : Call α} {status : Int} {exit : Int → ε}
    (hok : ∀ s, P s → status = ok → Q () (s.logged c status))
    (hfail : ∀ s, P s → status ≠ ok → E (exit status) (s.logged c status)) :
    Triple P (demand c status exit) Q E := by
  have hrecord : Triple P (record c status)
      (fun _ s => ∃ t, P t ∧ s = t.logged c status) E := record_triple fun s hs => ⟨s, hs, rfl⟩
  refine hrecord.bind fun _ => .require ?_ ?_
  · rintro s ⟨t, ht, rfl⟩ hstatus
    exact hok t ht hstatus
  · rintro s ⟨t, ht, rfl⟩ hstatus
    exact hfail t ht hstatus

/-- A look at the flag finds it raised, or leaves it down. -/
theorem poll_triple {e : Env α} {at' : Poll} {Q : Bool → Run α → Prop}
    (h : ∀ s flag, P s → flag = (s.pipe.cancelled || e.cancels at') →
      Q flag (s.withPipe fun p => { p with cancelled := flag })) :
    Triple P (poll e at') Q E := by
  have hset : Triple P
      (setPipe fun p => { p with cancelled := p.cancelled || e.cancels at' })
      (fun _ s => Q s.pipe.cancelled s) E := setPipe_triple fun s hs => h s _ hs rfl
  exact hset.bind fun _ => (Triple.get (Q := fun t s => Q t.pipe.cancelled s) fun s hs => hs).bind
    fun _ => .pure fun s hs => hs

end Rules

/-! ## Before the sinks are opened -/

def Pipe.needsPcm (p : Pipe) : Bool := p.sinks.any fun sink => sink.caps.pcm && !sink.caps.dsd

def Pipe.needsDsd (p : Pipe) : Bool := p.sinks.any fun sink => sink.caps.dsd

def Pipe.canAcceptDst (p : Pipe) : Bool := p.sinks.any fun sink => sink.caps.dst

/-- `dsdpipe_select_all_tracks`. The counter of its loop is a byte: with 255 tracks it
comes round to track 0, which the selection refuses. -/
def selectAllTracks (e : Env α) : Program Int (Run α) Unit := do
  attempt e .getTrackCount id
  setPipe fun p => { p with tracks := [] }
  forEach (List.range e.trackCount) fun _ n => do
    attempt e (.addTrack (n + 1)) id
    setPipe fun p => { p with tracks := p.tracks ++ [n + 1] }
  require (e.trackCount.val ≠ 255) errorInvalidArg

/-- `dsdpipe_init_pools`. -/
def initPools (e : Env α) : Program Int (Run α) Unit := do
  let s ← get
  when (s.pipe.poolsInitialized = false) do
    attempt e .initPools id
    setPipe fun p => { p with poolsInitialized := true }

/-- The sinks with their capabilities asked for again. -/
def Pipe.refreshCaps (p : Pipe) : Pipe :=
  { p with sinks := p.sinks.map fun sink => Sink.create sink.type sink.writeDst }

/-- A DST decoder goes before the sinks. -/
def Pipe.wantsDecoder (p : Pipe) : Bool :=
  p.sourceFormat.type == .dst && (p.needsDsd || p.needsPcm) && !p.canAcceptDst

/-- `dsdpipe_transform_dst_create` and the `init` of the transform. -/
def setupDecoder (e : Env α) (source : Format) : Program Int (Run α) Unit := do
  attempt e .createDecoder id
  setPipe fun p => { p with dstDecoder := some Transform.created }
  demand (.initDecoder source)
    (if source.type = .dst ∧ 1 ≤ source.channelCount ∧ source.channelCount ≤ 6
      then e.answer (.initDecoder source) else errorInvalidArg)
    fun _ => errorDstDecode
  setPipe fun p => { p with dstDecoder := some ⟨true, source, { source with type := .dsdRaw }⟩ }

/-- What the converter makes of its input. -/
def pcmFormat (useFp64 : Bool) (input : Format) : Format where
  type := if useFp64 then .pcmFloat64 else .pcmFloat32
  sampleRate := input.sampleRate / 32
  channelCount := input.channelCount
  bitsPerSample := if useFp64 then 64 else 32
  frameRate := input.frameRate

/-- `dsdpipe_transform_dsd2pcm_create` and the `init` of the transform. -/
def setupConverter (e : Env α) (p : Pipe) (input : Format) : Program Int (Run α) Unit := do
  let create := Call.createConverter p.pcmQuality p.pcmUseFp64 (input.sampleRate / 32)
  demand create (if 0 ≤ p.pcmQuality ∧ p.pcmQuality ≤ 2 then e.answer create else errorInvalidArg) id
  setPipe fun p => { p with dsd2pcm := some Transform.created }
  demand (.initConverter input)
    (if input.type = .dsdRaw ∧ 1 ≤ input.channelCount ∧ input.channelCount ≤ 6
      then e.answer (.initConverter input) else errorInvalidArg)
    fun _ => errorPcmConvert
  setPipe fun q => { q with dsd2pcm := some ⟨true, input, pcmFormat p.pcmUseFp64 input⟩ }

/-- The format behind the decoder, where one is set up. -/
def Pipe.dsdFormat (p : Pipe) : Format :=
  if p.wantsDecoder then { p.sourceFormat with type := .dsdRaw } else p.sourceFormat

/-- `dsdpipe_setup_transforms`. -/
def setupTransforms (e : Env α) (p : Pipe) : Program Int (Run α) Unit := do
  when (p.wantsDecoder = true) (setupDecoder e p.sourceFormat)
  when (p.needsPcm = true) (setupConverter e p p.dsdFormat)

/-! ## The sinks -/

/-- `close_current_track` and `close_edit_master` of the sinks for DSF and DSDIFF. -/
def closeFile (e : Env α) (i : Nat) (occasion : Occasion) : Program ε (Run α) Unit := do
  let s ← get
  when (s.pipe.fileOpen i = true) do
    ignore e (.finalizeFile i occasion)
    ignore e (.closeFile i occasion)
    setPipe fun p => { p with fileOpen := Function.update p.fileOpen i false }

/-- The format `dsdpipe_open_sinks` gives to a sink. -/
def Pipe.sinkFormat (p : Pipe) (sink : Sink) : Format :=
  match sink.caps.pcm, p.dsd2pcm, p.dstDecoder with
  | true, some converter, _ => converter.outputFormat
  | _, _, some decoder => decoder.outputFormat
  | _, _, none => p.sourceFormat

def openSink (e : Env α) (p : Pipe) (sink : Sink) (i : Nat) : Program Int (Run α) Unit := do
  when (sink.type = .dsdiffEdit) (record (.setTrackCount i (p.tracks.length % 256)) ok)
  attempt e (.openSink i (p.sinkFormat sink)) fun _ => errorSinkOpen
  setPipe fun q => { q with
    isOpen := Function.update q.isOpen i true
    fileOpen := Function.update q.fileOpen i (q.fileOpen i || sink.type == .dsdiffEdit) }

/-- `dsdpipe_open_sinks`. -/
def openSinks (e : Env α) (p : Pipe) : Program Int (Run α) Unit :=
  forEach p.sinks (openSink e p)

def startSink (e : Env α) (k track : Nat) (sink : Sink) (i : Nat) : Program Int (Run α) Unit := do
  when (sink.type.opensTracks = true) (closeFile e i (.trackStart k))
  attempt e (.trackStart i k track) id
  setPipe fun p => { p with
    fileOpen := Function.update p.fileOpen i (p.fileOpen i || sink.type.opensTracks) }

def endSink (e : Env α) (k track : Nat) (sink : Sink) (i : Nat) : Program Int (Run α) Unit := do
  when (sink.type.opensTracks = true) (closeFile e i (.trackEnd k))
  ignore e (.trackEnd i k track)

def finalizeSink (e : Env α) (i : Nat) : Program Int (Run α) Unit := do
  let s ← get
  when (s.pipe.isOpen i = true) do
    closeFile e i .finalize
    ignore e (.finalizeSink i)

def closeSink (e : Env α) (i : Nat) : Program Int (Run α) Unit := do
  let s ← get
  when (s.pipe.isOpen i = true) do
    closeFile e i .close
    record (.closeSink i) ok
    setPipe fun p => { p with isOpen := Function.update p.isOpen i false }

/-! ## A batch -/

/-- `dsdpipe_write_to_sinks`. -/
def writeToSinks (e : Env α) (p : Pipe) (k b : Nat) (buffer : Buffer α) (j : Nat) :
    Program Exit (Run α) Unit :=
  forEach p.sinks fun sink i =>
    when (sink.caps.accepts buffer.format.type = true)
      (attempt e (.writeFrame i k b j buffer) fun _ => .cleanup errorWrite)

/-- The buffers `dst_decoder` makes of a batch. -/
def decodedBuffers (decoder : Transform) (buffers : List (Buffer α)) : List (Buffer α) :=
  buffers.map fun buffer => ⟨.decoded buffer.payload, decoder.outputFormat⟩

/-- The buffers `dsd2pcm` makes of a batch. -/
def convertedBuffers (converter : Transform) (buffers : List (Buffer α)) : List (Buffer α) :=
  buffers.map fun buffer => ⟨.converted buffer.payload, converter.outputFormat⟩

/-- The decoder the batches go through. -/
def Pipe.decoderInUse (p : Pipe) : Option Transform :=
  if p.sourceFormat.type = .dst then p.dstDecoder else none

/-- The converter the batches go through. -/
def Pipe.converterInUse (p : Pipe) : Option Transform :=
  if p.needsPcm = true then p.dsd2pcm else none

/-- The second phase of a turn: output buffers for the batch, and the decoder. -/
def decodeBatch (e : Env α) (p : Pipe) (k b : Nat) (buffers : List (Buffer α)) :
    Program Exit (Run α) (List (Buffer α)) :=
  match p.decoderInUse with
  | none => pure buffers
  | some decoder => do
    forEach buffers fun _ j => attempt e (.allocOutput k b j) fun _ => .returned errorOutOfMemory
    demand (.decodeBatch k b)
      (if decoder.isInitialized then e.answer (.decodeBatch k b) else errorNotConfigured) .cleanup
    pure (decodedBuffers decoder buffers)

/-- The third phase for the sinks that take PCM. -/
def convertBatch (e : Env α) (p : Pipe) (k b : Nat) (buffers : List (Buffer α)) :
    Program Exit (Run α) Unit :=
  match p.converterInUse with
  | none => pure ()
  | some converter => do
    forEach buffers fun _ j => attempt e (.allocPcm k b j) fun _ => .cleanup errorOutOfMemory
    demand (.convertBatch k b)
      (if converter.isInitialized then e.answer (.convertBatch k b) else errorNotConfigured) .cleanup
    forEach (convertedBuffers converter buffers) (writeToSinks e p k b)

/-- `dsdpipe_report_progress` and what follows when the callback asks to stop. -/
def reportProgress (e : Env α) (k b : Nat) : Program Exit (Run α) Unit := do
  ignore e (.reportProgress k b)
  when (e.answer (.reportProgress k b) ≠ ok) do
    setPipe fun p => { p with cancelled := true }
    fail (.cleanup errorCancelled)

/-- A turn of the batch loop after the pop. -/
def processBatch (e : Env α) (p : Pipe) (k b : Nat) (buffers : List (Buffer α)) :
    Program Exit (Run α) Unit := do
  let outputs ← decodeBatch e p k b buffers
  when (p.needsDsd = true) (forEach outputs (writeToSinks e p k b))
  convertBatch e p k b outputs
  reportProgress e k b

/-! ## A track -/

/-- The buffers `read_frame` fills. -/
def Pipe.sourceBuffers (p : Pipe) (frames : List α) : List (Buffer α) :=
  frames.map fun frame => ⟨.source frame, p.sourceFormat⟩

/-- The buffer the end-of-track return leaves as it was allocated. -/
def endMark : Buffer α := ⟨.endMark, Format.zero⟩

/-- The condition of the batch loop. -/
def pollTurn (e : Env α) (k b : Nat) : Program Exit (Run α) Unit := do
  let cancelled ← poll e (.turn k b)
  require (cancelled = false) (.cleanup ok)

/-- The batch loop of `dsdpipe_process_track`. -/
def batchLoop (e : Env α) (p : Pipe) (k : Nat) : Nat → Feed α → Program Exit (Run α) Unit
  | b, .batch first others rest => do
    pollTurn e k b
    processBatch e p k b (p.sourceBuffers (first :: others))
    batchLoop e p k (b + 1) rest
  | b, .lastBatch first others => do
    pollTurn e k b
    processBatch e p k b (p.sourceBuffers (first :: others))
  | b, .endBatch frames => do
    pollTurn e k b
    processBatch e p k b (p.sourceBuffers frames ++ [endMark])
  | b, .ended status => do
    pollTurn e k b
    demand (.readTrack k) status .cleanup
  | b, .refused status => do
    pollTurn e k b
    demand (.readTrack k) (if status = ok then errorRead else status) .cleanup

/-- How `dsdpipe_process_track` goes on after the batch loop. -/
def Exit.settled : Exit → Except Int Int
  | .returned code => .error code
  | .cleanup code => .ok code

/-- The cleanup of `dsdpipe_process_track`. -/
def cleanup (e : Env α) (p : Pipe) (k track : Nat) (result : Int) : Program Int (Run α) Unit := do
  let _ ← poll e (.cleanup k)
  forEach p.sinks (endSink e k track)
  let cancelled ← poll e (.leave k)
  require (cancelled = false) errorCancelled
  require (result = ok) result

/-- `dsdpipe_process_track`. -/
def processTrack (e : Env α) (p : Pipe) (track k : Nat) : Program Int (Run α) Unit := do
  ignore e (.getTrackMetadata k track)
  ignore e (.getTrackFrames k track)
  forEach p.sinks (startSink e k track)
  attempt e (.createQueue k) fun _ => errorOutOfMemory
  attempt e (.createReader k) fun _ => errorOutOfMemory
  attempt e (.startReader k track) fun _ => errorRead
  let result ← settle ok Exit.settled (batchLoop e p k 0 (e.feed k))
  cleanup e p k track result

/-! ## A run -/

/-- Select, allocate and set up, up to the sinks. -/
def prepare (e : Env α) : Program Int (Run α) Unit := do
  let s ← get
  require (s.pipe.sourceType ≠ .none) errorNoSource
  require (s.pipe.sinks ≠ []) errorNoSinks
  require (s.pipe.state ≠ .running) errorAlreadyRunning
  when (s.pipe.tracks = []) (selectAllTracks e)
  initPools e
  setPipe Pipe.refreshCaps
  let s ← get
  setupTransforms e s.pipe

/-- From the album metadata on, with the pipe as it has been prepared. -/
def runPrepared (e : Env α) (p : Pipe) : Program Int (Run α) Unit := do
  ignore e .getAlbumMetadata
  openSinks e p
  setPipe fun q => { q with state := .running, cancelled := false }
  let result ← settle ok .ok (forEach p.tracks (processTrack e p))
  forEach p.sinks fun _ i => finalizeSink e i
  forEach p.sinks fun _ i => closeSink e i
  setPipe fun q => { q with state := if result = ok then .finished else .error }
  require (result = ok) result

/-- `dsdpipe_run`. -/
def dsdpipeRun (e : Env α) : Program Int (Run α) Unit := do
  prepare e
  let s ← get
  runPrepared e s.pipe

/-- The status a run returns. -/
def Pipe.status (p : Pipe) (e : Env α) : Int :=
  match (dsdpipeRun e ⟨p, []⟩).1 with
  | .ok _ => ok
  | .error code => code

/-- The pipe a run leaves. -/
def Pipe.after (p : Pipe) (e : Env α) : Pipe := (dsdpipeRun e ⟨p, []⟩).2.pipe

/-- The calls of a run with their statuses. -/
def Pipe.calls (p : Pipe) (e : Env α) : List (Call α × Int) := (dsdpipeRun e ⟨p, []⟩).2.log

end DsdNexus.Dsdpipe
