import Mathlib.Data.List.Induction
import DsdNexus.Dsdpipe.PipelineCalls
import DsdNexus.Dsdpipe.PipelineStatus

/-! # The life of a pipe

`dsdpipe_create`, the functions that configure a pipe and the runs between them. What a
run leaves in the pipe stays there for the next one.
-/

namespace DsdNexus.Dsdpipe

open Program

variable {α ε : Type}

/-! ## Configuration -/

/-- A source that has been opened. -/
structure OpenSource where
  type : SourceType
  format : Format
  isOpen : type ≠ .none
  isDsd : format.type = .dsdRaw ∨ format.type = .dst

/-- The calls that configure a pipe. The functions that select tracks clear the selection
before they fill it. -/
inductive Setting where
  | setSource (source : OpenSource)
  | setSourceFails
  | addSink (type : SinkType) (writeDst : Bool)
  | clearSinks
  | selectTracks (tracks : List Nat)
  | setPcmQuality (quality : Int)
  | setPcmUseFp64 (useFp64 : Bool)
  | cancel
  | reset

/-- `DSDPIPE_MAX_SINKS`. -/
def maxSinks : Nat := 8

/-- `dsdpipe_create`. -/
def Pipe.created : Pipe where
  state := .created
  sourceType := .none
  sourceFormat := Format.zero
  sinks := []
  isOpen := fun _ => false
  fileOpen := fun _ => false
  tracks := []
  dstDecoder := none
  dsd2pcm := none
  pcmQuality := 1
  pcmUseFp64 := false
  poolsInitialized := false
  cancelled := false

/-- `dsdpipe_clear_sinks`. -/
def Pipe.clearSinks (p : Pipe) : Pipe :=
  { p with sinks := [], isOpen := fun _ => false, fileOpen := fun _ => false }

/-- `dsdpipe_add_sink_internal`. -/
def Pipe.addSink (p : Pipe) (sink : Sink) : Pipe :=
  if maxSinks ≤ p.sinks.length then p
  else { p with
    sinks := p.sinks ++ [sink]
    isOpen := Function.update p.isOpen p.sinks.length false
    fileOpen := Function.update p.fileOpen p.sinks.length false }

/-- `dsdpipe_reset`. -/
def Pipe.reset (p : Pipe) : Pipe :=
  { p.clearSinks with
    tracks := []
    dstDecoder := none
    dsd2pcm := none
    state := if p.sourceType ≠ .none then .configured else .created
    cancelled := false }

/-- The pipe after the call. -/
def Pipe.set (p : Pipe) : Setting → Pipe
  | .setSource source =>
    if p.state = .running then p
    else { p with sourceType := source.type, sourceFormat := source.format, state := .configured }
  | .setSourceFails => if p.state = .running then p else { p with sourceType := .none }
  | .addSink type writeDst => p.addSink (Sink.create type writeDst)
  | .clearSinks => p.clearSinks
  | .selectTracks tracks => { p with tracks := tracks }
  | .setPcmQuality quality => { p with pcmQuality := quality }
  | .setPcmUseFp64 useFp64 => { p with pcmUseFp64 := useFp64 }
  | .cancel => { p with cancelled := true }
  | .reset => p.reset

/-- What is done with a pipe: it is configured, or it runs. -/
inductive Action (α : Type) where
  | set (setting : Setting)
  | run (e : Env α)

def Pipe.act (p : Pipe) : Action α → Pipe
  | .set setting => p.set setting
  | .run e => p.after e

/-- The pipe after a history that starts with its creation. -/
def play (history : List (Action α)) : Pipe := history.foldl Pipe.act Pipe.created

theorem play_snoc (history : List (Action α)) (a : Action α) :
    play (history ++ [a]) = (play history).act a := by
  simp only [play, List.foldl_append, List.foldl_cons, List.foldl_nil]

/-- What every action keeps holds after every history. -/
theorem play_induction {R : Pipe → Prop} (hcreated : R Pipe.created)
    (hset : ∀ p setting, R p → R (p.set setting)) (hrun : ∀ p (e : Env α), R p → R (p.after e))
    (history : List (Action α)) : R (play history) := by
  induction history using List.reverseRecOn with
  | nil => exact hcreated
  | append_singleton history a ih =>
    rw [play_snoc]
    cases a with
    | set setting => exact hset _ setting ih
    | run e => exact hrun _ e ih

/-! ## What every pipe has -/

/-- The sinks and the transforms of a pipe are as the create functions and the runs make
them, and the source is in DSD or DST. -/
structure Pipe.Built (p : Pipe) : Prop where
  source : p.sourceType ≠ .none → p.sourceFormat.type = .dsdRaw ∨ p.sourceFormat.type = .dst
  sinks : ∀ sink ∈ p.sinks, sink.caps = sink.type.getCapabilities sink.writeDst
  decoder : ∀ decoder ∈ p.dstDecoder, decoder = Transform.created ∨
    decoder.isInitialized = true ∧ decoder.outputFormat.type = .dsdRaw

theorem Pipe.Built.created : Pipe.created.Built :=
  ⟨fun h => absurd rfl h, fun _ h => absurd h List.not_mem_nil,
    fun _ h => absurd h (Option.not_mem_none _)⟩

theorem Pipe.Built.refreshCaps {p : Pipe} (h : p.Built) : p.refreshCaps.sinks = p.sinks := by
  have hsame : ∀ sink ∈ p.sinks, Sink.create sink.type sink.writeDst = sink := by
    intro sink hsink
    rw [Sink.create, ← h.sinks sink hsink]
  exact (List.map_congr_left hsame).trans (List.map_id p.sinks)

theorem Pipe.Built.inherits {p q : Pipe} (h : p.Built) (hq : p.Inherits q) : q.Built := by
  have hsinks : q.sinks = p.sinks := hq.sinks.elim id fun hs => hs.trans h.refreshCaps
  refine ⟨?_, ?_, ?_⟩
  · rw [hq.source, hq.format]
    exact h.source
  · rw [hsinks]
    exact h.sinks
  · intro decoder hdecoder
    rcases hq.decoder with hd | hd | hd
    · exact h.decoder decoder (hd ▸ hdecoder)
    · exact .inl (Option.mem_some.1 (hd ▸ hdecoder)).symm
    · rw [hd, Option.mem_some] at hdecoder
      subst hdecoder
      exact .inr ⟨rfl, rfl⟩

theorem Pipe.Built.set {p : Pipe} (h : p.Built) (setting : Setting) : (p.set setting).Built := by
  cases setting with
  | setSource source =>
    rw [Pipe.set]
    split
    · exact h
    · exact ⟨fun _ => source.isDsd, h.sinks, h.decoder⟩
  | setSourceFails =>
    rw [Pipe.set]
    split
    · exact h
    · exact ⟨fun hne => absurd rfl hne, h.sinks, h.decoder⟩
  | addSink type writeDst =>
    rw [Pipe.set, Pipe.addSink]
    split
    · exact h
    · refine ⟨h.source, fun sink hsink => ?_, h.decoder⟩
      rcases List.mem_append.1 hsink with hold | hnew
      · exact h.sinks sink hold
      · rw [List.mem_singleton.1 hnew]
        rfl
  | clearSinks => exact ⟨h.source, fun _ hsink => absurd hsink List.not_mem_nil, h.decoder⟩
  | selectTracks tracks => exact ⟨h.source, h.sinks, h.decoder⟩
  | setPcmQuality quality => exact ⟨h.source, h.sinks, h.decoder⟩
  | setPcmUseFp64 useFp64 => exact ⟨h.source, h.sinks, h.decoder⟩
  | cancel => exact ⟨h.source, h.sinks, h.decoder⟩
  | reset =>
    exact ⟨h.source, fun _ hsink => absurd hsink List.not_mem_nil,
      fun _ hdecoder => absurd hdecoder (Option.not_mem_none _)⟩

theorem play_built (history : List (Action α)) : (play history).Built :=
  play_induction Pipe.Built.created (fun _ setting h => h.set setting)
    (fun p e h => h.inherits (after_inherits p e)) history

/-! ## The state between runs -/

/-- The run is not going on. -/
def Stopped (s : Run α) : Prop := s.pipe.state ≠ .running

section Stopped

variable {e : Env α} {p : Pipe} {E : ε → Run α → Prop}

theorem record_stopped {c : Call α} {status : Int} :
    Triple Stopped (record c status) (fun _ => Stopped) E := record_triple fun _ hs => hs

theorem openSinks_stopped :
    Triple Stopped (openSinks e p) (fun _ => Stopped) (fun _ => Stopped) := by
  refine .forEach (fun _ => Stopped) fun i sink _ => ?_
  refine (Triple.when (fun _ => record_stopped) fun _ _ hs => hs).bind fun _ => ?_
  have hopen : Triple Stopped
      (attempt e (.openSink i (p.sinkFormat sink)) fun _ => errorSinkOpen) (fun _ => Stopped)
      (fun (_ : Int) => Stopped) := demand_triple (fun _ hs _ => hs) fun _ hs _ => hs
  exact hopen.bind fun _ => setPipe_triple fun _ hs => hs

/-- Once the sinks are open, a run goes on to its end, and leaves the pipe stopped. -/
theorem runPrepared_stopped :
    Triple Stopped (runPrepared e p) (fun _ => Stopped) (fun _ => Stopped) := by
  have hrunning : Triple Stopped
      (setPipe fun q => { q with state := .running, cancelled := false })
      (fun _ (_ : Run α) => True) (fun (_ : Int) => Stopped) := setPipe_triple fun _ _ => trivial
  have htracks : Triple (fun _ => True) (settle ok .ok (forEach p.tracks (processTrack e p)))
      (fun _ _ => True) (fun (_ : Int) => Stopped) := by
    have hany : Triple (fun _ => True) (forEach p.tracks (processTrack e p)) (fun _ _ => True)
        (fun _ _ => True) := ⟨fun _ _ => trivial, fun _ _ => trivial⟩
    refine hany.settle (fun _ _ => trivial) (fun _ _ _ _ _ => trivial) ?_
    rintro _ _ _ _ ⟨⟩
  have hfinish : ∀ {m : Program Int (Run α) Unit}, Unnoticed m →
      Triple (fun _ => True) m (fun _ _ => True) (fun _ => Stopped) :=
    fun h => h.triple (F := fun _ _ => True)
  refine record_stopped.bind fun _ => openSinks_stopped.bind fun _ => hrunning.bind fun _ =>
    htracks.bind fun result => ?_
  refine (hfinish (.forEach fun _ _ => finalizeSink_unnoticed)).bind fun _ =>
    (hfinish (.forEach fun _ _ => closeSink_unnoticed)).bind fun _ => ?_
  have hend : Triple (fun _ => True)
      (setPipe fun q => { q with state := if result = ok then .finished else .error })
      (fun _ => Stopped) (fun (_ : Int) (s : Run α) => Stopped s) := by
    refine setPipe_triple fun s _ => ?_
    rw [Stopped, Run.withPipe_pipe]
    dsimp only
    split
    · exact nofun
    · exact nofun
  exact hend.bind fun _ => .require (fun _ hs _ => hs) fun _ hs _ => hs

theorem after_stopped (h : p.state ≠ .running) : (p.after e).state ≠ .running := by
  have hprepare : Triple (fun s => s = (⟨p, []⟩ : Run α)) (prepare e) (fun _ => Stopped)
      (fun _ => Stopped) := .of_leaves fun s hs => by
    subst hs
    rw [Stopped, (calls_prepare _).pipe.1]
    exact h
  have hrun : Triple (fun s => s = (⟨p, []⟩ : Run α)) (dsdpipeRun e) (fun _ => Stopped)
      (fun _ => Stopped) := hprepare.bind fun _ => .inspect fun t ht =>
    runPrepared_stopped.weaken fun s hs => hs ▸ ht
  exact hrun.leaves rfl

theorem play_stopped (history : List (Action α)) : (play history).state ≠ .running := by
  refine play_induction (R := fun p => p.state ≠ .running) nofun ?_ ?_ history
  · intro p setting h
    cases setting with
    | setSource source | setSourceFails | addSink type writeDst =>
      simp only [Pipe.set, Pipe.addSink]
      split
      · exact h
      · first | exact h | exact fun h => by cases h
    | clearSinks | selectTracks tracks | setPcmQuality quality => exact h
    | setPcmUseFp64 useFp64 | cancel => exact h
    | reset =>
      simp only [Pipe.set, Pipe.reset]
      split
      · exact nofun
      · exact nofun
  · exact fun p e => after_stopped

end Stopped

end DsdNexus.Dsdpipe
