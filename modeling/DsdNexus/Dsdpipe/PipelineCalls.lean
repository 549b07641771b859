import DsdNexus.Dsdpipe.Pipeline

/-! # The calls of each part of a run

Each part of a run only adds calls of its own kind to the log, and a run that gets as far
as its sinks has prepared the pipe in one way.
-/

namespace DsdNexus.Dsdpipe

open Program

variable {α ε : Type}

/-- The part of a run. The batches of a track are a part of their own. -/
inductive Place where
  | prepare
  | opening
  | track (k : Nat)
  | batch (k : Nat)
  | finish
deriving DecidableEq

/-- The part belongs to the track. -/
def Place.inTrack (k : Nat) : Place → Prop
  | .track l | .batch l => l = k
  | .prepare | .opening | .finish => False

def Occasion.place : Occasion → Place
  | .trackStart k | .trackEnd k => .track k
  | .finalize | .close => .finish

/-- The part of a run a call belongs to. -/
def Call.place : Call α → Place
  | .getTrackCount | .addTrack _ | .initPools | .createDecoder | .initDecoder _ => .prepare
  | .createConverter _ _ _ | .initConverter _ => .prepare
  | .getAlbumMetadata | .setTrackCount _ _ | .openSink _ _ => .opening
  | .getTrackMetadata k _ | .getTrackFrames k _ | .trackStart _ k _ | .createQueue k => .track k
  | .createReader k | .startReader k _ | .trackEnd _ k _ => .track k
  | .readTrack k | .allocOutput k _ _ | .decodeBatch k _ | .writeFrame _ k _ _ _ => .batch k
  | .allocPcm k _ _ | .convertBatch k _ | .reportProgress k _ => .batch k
  | .finalizeSink _ | .closeSink _ => .finish
  | .finalizeFile _ occasion | .closeFile _ occasion => occasion.place

/-- The pipe is the same but for its flags: its state, the cancel flag, and what is open. -/
def Pipe.Flagged (p q : Pipe) : Prop :=
  q = { p with
    state := q.state
    isOpen := q.isOpen
    fileOpen := q.fileOpen
    cancelled := q.cancelled }

instance : Std.Refl Pipe.Flagged := ⟨fun _ => rfl⟩

instance : IsTrans Pipe Pipe.Flagged where
  trans := by
    intro p q r hq hr
    rw [Pipe.Flagged, hr, hq]

/-- The state and the flags of the pipe are the same. -/
def Pipe.Steady (p q : Pipe) : Prop :=
  q.state = p.state ∧ q.isOpen = p.isOpen ∧ q.fileOpen = p.fileOpen

instance : Std.Refl Pipe.Steady := ⟨fun _ => ⟨rfl, rfl, rfl⟩⟩

instance : IsTrans Pipe Pipe.Steady where
  trans := by
    rintro p q r ⟨hstate, hopen, hfile⟩ ⟨hstate', hopen', hfile'⟩
    exact ⟨hstate'.trans hstate, hopen'.trans hopen, hfile'.trans hfile⟩

/-- The log has grown by calls of this kind, and the pipe has changed in this way. -/
structure Grown (D : Call α → Prop) (C : Pipe → Pipe → Prop) (s t : Run α) : Prop where
  log : ∃ calls, t.log = s.log ++ calls ∧ ∀ c ∈ calls, D c.1
  pipe : C s.pipe t.pipe

instance {D : Call α → Prop} {C : Pipe → Pipe → Prop} [Std.Refl C] : Std.Refl (Grown D C) :=
  ⟨fun s => ⟨⟨[], by simp, nofun⟩, Std.Refl.refl s.pipe⟩⟩

instance {D : Call α → Prop} {C : Pipe → Pipe → Prop} [IsTrans Pipe C] :
    IsTrans (Run α) (Grown D C) where
  trans := by
    rintro s t u ⟨⟨l, hl, hD⟩, hC⟩ ⟨⟨l', hl', hD'⟩, hC'⟩
    refine ⟨⟨l ++ l', by rw [hl', hl, List.append_assoc], fun c hc => ?_⟩, ?_⟩
    · exact (List.mem_append.1 hc).elim (hD c) (hD' c)
    · exact IsTrans.trans _ _ _ hC hC'

/-- Whatever comes of the program, it has made calls of this kind only, and has changed the
pipe in this way. -/
abbrev Calls (D : Call α → Prop) (C : Pipe → Pipe → Prop) {β : Type} (m : Program ε (Run α) β) :
    Prop := Keeps (Grown D C) m

/-- The calls of a part of a run. -/
abbrev callsOf (place : Place) : Call α → Prop := fun c => c.place = place

section Calls

variable {D : Call α → Prop} {C : Pipe → Pipe → Prop} {e : Env α}

theorem calls_record [Std.Refl C] {c : Call α} {place : Place} (h : c.place = place) (status : Int) :
    Calls (callsOf place) C (record c status : Program ε (Run α) Unit) := fun s =>
  ⟨⟨[(c, status)], rfl, by simpa using h⟩, Std.Refl.refl s.pipe⟩

theorem calls_setPipe {f : Pipe → Pipe} (h : ∀ p, C p (f p)) :
    Calls D C (setPipe f : Program ε (Run α) Unit) := fun s =>
  ⟨⟨[], by simp [setPipe], nofun⟩, h s.pipe⟩

theorem calls_demand [Std.Refl C] [IsTrans Pipe C] {c : Call α} {place : Place} (h : c.place = place) {status : Int}
    {exit : Int → ε} : Calls (callsOf place) C (demand c status exit) :=
  (calls_record h status).bind fun _ => Keeps.require _ _

theorem calls_poll {at' : Poll} : Calls D Pipe.Flagged (poll e at' : Program ε (Run α) Bool) := by
  refine (calls_setPipe ?_).bind fun _ => Keeps.get.bind fun _ => Keeps.pure _
  exact fun _ => rfl

theorem calls_forM [Std.Refl C] [IsTrans Pipe C] {γ : Type} {xs : List γ}
    {f : γ → Program ε (Run α) Unit}
    (h : ∀ x ∈ xs, Calls D C (f x)) : Calls D C (xs.forM f) := by
  induction xs with
  | nil => exact Keeps.pure ()
  | cons x xs ih => exact (h x (.head _)).bind fun _ => ih fun y hy => h y (.tail _ hy)

theorem calls_forEach [Std.Refl C] [IsTrans Pipe C] {γ : Type} {xs : List γ}
    {f : γ → Nat → Program ε (Run α) Unit}
    (h : ∀ x i, Calls D C (f x i)) : Calls D C (forEach xs f) := calls_forM fun x _ => h x.1 x.2

theorem calls_settle {ε' : Type} {done : Int} {f : ε → Except ε' Int}
    {m : Program ε (Run α) Unit} (h : Calls D C m) : Calls D C (settle done f m) := by
  intro s
  have hs := h s
  cases hms : m s with
  | mk r t =>
    rw [hms] at hs
    cases r with
    | ok _ =>
      rw [settle_of_ok hms]
      exact hs
    | error _ =>
      rw [settle_of_error hms]
      exact hs

theorem calls_closeFile {i : Nat} {occasion : Occasion} {place : Place}
    (h : occasion.place = place) :
    Calls (callsOf place) Pipe.Flagged (closeFile e i occasion : Program ε (Run α) Unit) := by
  subst h
  refine Keeps.get.bind fun _ => .when ((calls_record (by rfl) _).bind fun _ =>
    (calls_record (by rfl) _).bind fun _ => calls_setPipe ?_)
  exact fun _ => rfl

variable {p : Pipe} {k b j i track : Nat} {sink : Sink}

theorem calls_selectAllTracks : Calls (callsOf .prepare) Pipe.Steady (selectAllTracks e) := by
  refine (calls_demand (by rfl)).bind fun _ => (calls_setPipe (by intro; exact ⟨rfl, rfl, rfl⟩)).bind fun _ => Keeps.bind ?_ fun _ =>
    Keeps.require _ _
  exact calls_forEach fun _ _ => (calls_demand (by rfl)).bind fun _ => calls_setPipe (by intro; exact ⟨rfl, rfl, rfl⟩)

theorem calls_setupTransforms : Calls (callsOf .prepare) Pipe.Steady (setupTransforms e p) := by
  refine (Keeps.when ?_).bind fun _ => Keeps.when ?_
  · exact (calls_demand (by rfl)).bind fun _ => (calls_setPipe (by intro; exact ⟨rfl, rfl, rfl⟩)).bind fun _ =>
      (calls_demand (by rfl)).bind fun _ => calls_setPipe (by intro; exact ⟨rfl, rfl, rfl⟩)
  · exact (calls_demand (by rfl)).bind fun _ => (calls_setPipe (by intro; exact ⟨rfl, rfl, rfl⟩)).bind fun _ =>
      (calls_demand (by rfl)).bind fun _ => calls_setPipe (by intro; exact ⟨rfl, rfl, rfl⟩)

theorem calls_prepare : Calls (callsOf .prepare) Pipe.Steady (prepare e) := by
  refine Keeps.get.bind fun s => (Keeps.require _ _).bind fun _ => (Keeps.require _ _).bind fun _ =>
    (Keeps.require _ _).bind fun _ => (Keeps.when calls_selectAllTracks).bind fun _ => ?_
  refine Keeps.bind ?_ fun _ => (calls_setPipe (by intro; exact ⟨rfl, rfl, rfl⟩)).bind fun _ => Keeps.get.bind fun s =>
    calls_setupTransforms
  exact Keeps.get.bind fun _ => Keeps.when ((calls_demand (by rfl)).bind fun _ => calls_setPipe (by intro; exact ⟨rfl, rfl, rfl⟩))

theorem calls_openSinks : Calls (callsOf .opening) Pipe.Flagged (openSinks e p) := by
  refine calls_forEach fun _ _ => (Keeps.when (calls_record (by rfl) _)).bind fun _ =>
    (calls_demand (by rfl)).bind fun _ => calls_setPipe ?_
  exact fun _ => rfl

theorem calls_startSink :
    Calls (callsOf (.track k)) Pipe.Flagged (startSink e k track sink i) := by
  refine (Keeps.when (calls_closeFile (by rfl))).bind fun _ => (calls_demand (by rfl)).bind fun _ =>
    calls_setPipe ?_
  exact fun _ => rfl

theorem calls_endSink : Calls (callsOf (.track k)) Pipe.Flagged (endSink e k track sink i) :=
  (Keeps.when (calls_closeFile (by rfl))).bind fun _ => calls_record (by rfl) _

theorem calls_writeToSinks {buffer : Buffer α} :
    Calls (callsOf (.batch k)) Pipe.Flagged (writeToSinks e p k b buffer j) :=
  calls_forEach fun _ _ => Keeps.when (calls_demand (by rfl))

theorem calls_decodeBatch {buffers : List (Buffer α)} :
    Calls (callsOf (.batch k)) Pipe.Flagged (decodeBatch e p k b buffers) := by
  unfold decodeBatch
  cases p.decoderInUse with
  | none => exact Keeps.pure _
  | some decoder =>
    refine Keeps.bind (calls_forEach fun _ _ => ?_) fun _ => ?_
    · exact calls_demand (by rfl)
    · exact (calls_demand (by rfl)).bind fun _ => Keeps.pure _

theorem calls_convertBatch {buffers : List (Buffer α)} :
    Calls (callsOf (.batch k)) Pipe.Flagged (convertBatch e p k b buffers) := by
  unfold convertBatch
  cases p.converterInUse with
  | none => exact Keeps.pure _
  | some converter =>
    refine Keeps.bind (calls_forEach fun _ _ => ?_) fun _ => ?_
    · exact calls_demand (by rfl)
    · exact (calls_demand (by rfl)).bind fun _ => calls_forEach fun _ _ => calls_writeToSinks

theorem calls_processBatch {buffers : List (Buffer α)} :
    Calls (callsOf (.batch k)) Pipe.Flagged (processBatch e p k b buffers) := by
  refine calls_decodeBatch.bind fun _ =>
    (Keeps.when (calls_forEach fun _ _ => calls_writeToSinks)).bind fun _ =>
      calls_convertBatch.bind fun _ => (calls_record (by rfl) _).bind fun _ =>
        Keeps.when ((calls_setPipe ?_).bind fun _ => Keeps.fail _)
  exact fun _ => rfl

theorem calls_batchLoop {feed : Feed α} :
    Calls (callsOf (.batch k)) Pipe.Flagged (batchLoop e p k b feed) := by
  have hturn : ∀ b, Calls (callsOf (.batch k)) Pipe.Flagged (pollTurn e k b) := fun b =>
    calls_poll.bind fun _ => Keeps.require _ _
  induction feed generalizing b with
  | batch first others rest ih =>
    exact (hturn b).bind fun _ => calls_processBatch.bind fun _ => ih
  | lastBatch first others => exact (hturn b).bind fun _ => calls_processBatch
  | endBatch frames => exact (hturn b).bind fun _ => calls_processBatch
  | ended status => exact (hturn b).bind fun _ => calls_demand (by rfl)
  | refused status => exact (hturn b).bind fun _ => calls_demand (by rfl)

theorem calls_cleanup {result : Int} :
    Calls (callsOf (.track k)) Pipe.Flagged (cleanup e p k track result) :=
  calls_poll.bind fun _ => (calls_forEach fun _ _ => calls_endSink).bind fun _ =>
    calls_poll.bind fun _ => (Keeps.require _ _).bind fun _ => Keeps.require _ _

theorem Calls.mono {D D' : Call α → Prop} {β : Type} {m : Program ε (Run α) β}
    (h : Calls D C m) (hD : ∀ c, D c → D' c) : Calls D' C m := fun s => by
  obtain ⟨⟨calls, hlog, hcalls⟩, hpipe⟩ := h s
  exact ⟨⟨calls, hlog, fun c hc => hD _ (hcalls c hc)⟩, hpipe⟩

theorem calls_processTrack :
    Calls (fun c => c.place.inTrack k) Pipe.Flagged (processTrack e p track k) := by
  have htrack : ∀ {ε β : Type} {m : Program ε (Run α) β}, Calls (callsOf (.track k)) Pipe.Flagged m →
      Calls (fun c => c.place.inTrack k) Pipe.Flagged m := fun h => h.mono fun c hc => by
    rw [show c.place = .track k from hc]
    rfl
  have hbatch : Calls (ε := Int) (fun c => c.place.inTrack k) Pipe.Flagged
      (settle ok Exit.settled (batchLoop e p k 0 (e.feed k))) :=
    calls_settle (calls_batchLoop.mono fun c hc => by
      rw [show c.place = .batch k from hc]
      rfl)
  have hrecord : ∀ c, c.place = .track k →
      Calls (ε := Int) (fun c => c.place.inTrack k) Pipe.Flagged (ignore e c) :=
    fun c hc => htrack (calls_record hc _)
  have hattempt : ∀ {c} {exit : Int → Int}, c.place = .track k →
      Calls (fun c => c.place.inTrack k) Pipe.Flagged (attempt e c exit) :=
    fun hc => htrack (calls_demand hc)
  refine (hrecord _ (by rfl)).bind fun _ => (hrecord _ (by rfl)).bind fun _ => ?_
  refine (htrack (calls_forEach fun _ _ => calls_startSink)).bind fun _ => ?_
  exact (hattempt (by rfl)).bind fun _ => (hattempt (by rfl)).bind fun _ =>
    (hattempt (by rfl)).bind fun _ => hbatch.bind fun _ => htrack calls_cleanup

theorem calls_finalizeSink : Calls (callsOf .finish) Pipe.Flagged (finalizeSink e i) :=
  Keeps.get.bind fun _ => Keeps.when ((calls_closeFile (by rfl)).bind fun _ => calls_record (by rfl) _)

theorem calls_closeSink : Calls (callsOf .finish) Pipe.Flagged (closeSink e i) := by
  refine Keeps.get.bind fun _ => Keeps.when ((calls_closeFile (by rfl)).bind fun _ =>
    (calls_record (by rfl) _).bind fun _ => calls_setPipe ?_)
  exact fun _ => rfl

/-- The calls of one part of a run are not those of another. -/
theorem Calls.elsewhere {place place' : Place} {β : Type} {m : Program ε (Run α) β}
    (h : Calls (callsOf place) C m) (hne : place ≠ place') :
    Calls (fun c => c.place ≠ place') C m :=
  h.mono fun _ (hc : _ = place) heq => hne (hc.symm.trans heq)

/-- From the opening of the sinks on, only flags of the pipe change. -/
theorem calls_runPrepared :
    Calls (fun c => c.place ≠ .prepare) Pipe.Flagged (runPrepared e p) := by
  have htracks : Calls (ε := Int) (fun c => c.place ≠ .prepare) Pipe.Flagged
      (settle ok .ok (forEach p.tracks (processTrack e p))) :=
    calls_settle (calls_forEach fun _ _ => calls_processTrack.mono fun c hc h => by
      rw [h] at hc
      exact hc)
  have halbum : (Call.getAlbumMetadata : Call α).place = .opening := rfl
  refine ((calls_record halbum _).elsewhere (by decide)).bind fun _ =>
    (calls_openSinks.elsewhere (by decide)).bind fun _ => (calls_setPipe ?_).bind fun _ =>
      htracks.bind fun _ => Keeps.bind ?_ fun _ => Keeps.bind ?_ fun _ =>
        (calls_setPipe ?_).bind fun _ => Keeps.require _ _
  · exact fun _ => rfl
  · exact calls_forEach fun _ _ => calls_finalizeSink.elsewhere (by decide)
  · exact calls_forEach fun _ _ => calls_closeSink.elsewhere (by decide)
  · exact fun _ => rfl

end Calls

/-! ## The prepared pipe -/

/-- The tracks of a run. -/
def Pipe.selection (p : Pipe) (e : Env α) : List Nat :=
  if p.tracks = [] then (List.range e.trackCount).map (· + 1) else p.tracks

/-- The pipe with its transforms set up. -/
def Pipe.withTransforms (p : Pipe) : Pipe :=
  { p with
    dstDecoder := if p.wantsDecoder = true
      then some ⟨true, p.sourceFormat, { p.sourceFormat with type := .dsdRaw }⟩ else p.dstDecoder
    dsd2pcm := if p.needsPcm = true
      then some ⟨true, p.dsdFormat, pcmFormat p.pcmUseFp64 p.dsdFormat⟩ else p.dsd2pcm }

/-- The pipe with the tracks selected, as `prepare` leaves it. -/
def Pipe.prepared (p : Pipe) (e : Env α) : Pipe :=
  ({ p with tracks := p.selection e, poolsInitialized := true } : Pipe).refreshCaps.withTransforms

/-- The pipe is this one. -/
def PipeIs (p : Pipe) (s : Run α) : Prop := s.pipe = p

/-- What a run may make of a pipe. -/
structure Pipe.Inherits (p q : Pipe) : Prop where
  source : q.sourceType = p.sourceType
  format : q.sourceFormat = p.sourceFormat
  quality : q.pcmQuality = p.pcmQuality
  fp64 : q.pcmUseFp64 = p.pcmUseFp64
  sinks : q.sinks = p.sinks ∨ q.sinks = p.refreshCaps.sinks
  tracks : p.tracks = [] ∨ q.tracks = p.tracks
  decoder : q.dstDecoder = p.dstDecoder ∨ q.dstDecoder = some Transform.created ∨
    q.dstDecoder = some ⟨true, p.sourceFormat, { p.sourceFormat with type := .dsdRaw }⟩

section Prepared

variable {e : Env α} {p q : Pipe} {β : Type} {E : ε → Run α → Prop}

theorem Pipe.Inherits.refl (p : Pipe) : p.Inherits p where
  source := rfl
  format := rfl
  quality := rfl
  fp64 := rfl
  sinks := .inl rfl
  tracks := .inr rfl
  decoder := .inl rfl

theorem Pipe.Inherits.flagged {r : Pipe} (h : p.Inherits q) (hr : q.Flagged r) :
    p.Inherits r := by
  rw [hr]
  exact ⟨h.source, h.format, h.quality, h.fp64, h.sinks, h.tracks, h.decoder⟩

/-- The run has left of the pipe what a run may leave. -/
def LeftOf (p : Pipe) (s : Run α) : Prop := p.Inherits s.pipe

theorem demand_pipe {c : Call α} {status : Int} {exit : Int → ε} (h : p.Inherits q) :
    Triple (PipeIs q) (demand c status exit) (fun _ => PipeIs q) (fun _ => LeftOf p) := by
  refine demand_triple (fun _ hs _ => hs) fun s hs _ => ?_
  rw [LeftOf, Run.logged_pipe, show s.pipe = q from hs]
  exact h

theorem setPipe_pipe {f : Pipe → Pipe} :
    Triple (PipeIs q) (setPipe f) (fun _ => PipeIs (f q)) E :=
  setPipe_triple fun _ hs => congrArg f hs

theorem selectAllTracks_pipe (h : p.tracks = []) :
    Triple (PipeIs p) (selectAllTracks e)
      (fun _ => PipeIs { p with tracks := (List.range e.trackCount).map (· + 1) })
      (fun _ => LeftOf p) := by
  have hleft : ∀ tracks, p.Inherits { p with tracks := tracks } := fun tracks =>
    ⟨rfl, rfl, rfl, rfl, .inl rfl, .inl h, .inl rfl⟩
  refine (demand_pipe (.refl p)).bind fun _ => setPipe_pipe.bind fun _ => ?_
  have hloop := Triple.forEach (l := List.range e.trackCount) (E := fun (_ : Int) => LeftOf p)
    (f := fun _ n => do
      attempt e (.addTrack (n + 1)) id
      setPipe fun p => { p with tracks := p.tracks ++ [n + 1] })
    (fun m => PipeIs { p with tracks := (List.range m).map (· + 1) }) fun m x _ => by
      refine (demand_pipe (hleft _)).bind fun _ => setPipe_triple fun s hs => ?_
      rw [PipeIs, Run.withPipe_pipe, show s.pipe = _ from hs, List.range_succ, List.map_append]
      rfl
  rw [List.length_range] at hloop
  refine hloop.bind fun _ => .require (fun _ hs _ => hs) fun s hs _ => ?_
  rw [LeftOf, show s.pipe = _ from hs]
  exact hleft _

theorem setupTransforms_pipe (h : p.Inherits q) (hformat : q.sourceFormat = p.sourceFormat) :
    Triple (PipeIs q) (setupTransforms e q) (fun _ => PipeIs q.withTransforms)
      (fun _ => LeftOf p) := by
  let decoded : Pipe := { q with
    dstDecoder := if q.wantsDecoder = true
      then some ⟨true, q.sourceFormat, { q.sourceFormat with type := .dsdRaw }⟩ else q.dstDecoder }
  have hdecoded : p.Inherits decoded := by
    refine ⟨h.source, h.format, h.quality, h.fp64, h.sinks, h.tracks, ?_⟩
    by_cases hwants : q.wantsDecoder = true
    · refine .inr (.inr ?_)
      simp only [decoded, if_pos hwants, hformat]
    · simpa only [decoded, if_neg hwants] using h.decoder
  have hdecoder : Triple (PipeIs q) (Program.when (q.wantsDecoder = true)
      (setupDecoder e q.sourceFormat)) (fun _ => PipeIs decoded) (fun _ => LeftOf p) := by
    refine .when (fun hwants => ?_) fun hwants s hs => ?_
    · refine (demand_pipe h).bind fun _ => setPipe_pipe.bind fun _ => ?_
      have hcreated : p.Inherits { q with dstDecoder := some Transform.created } :=
        ⟨h.source, h.format, h.quality, h.fp64, h.sinks, h.tracks, .inr (.inl rfl)⟩
      refine (demand_pipe hcreated).bind fun _ => setPipe_triple fun s hs => ?_
      rw [PipeIs, Run.withPipe_pipe, show s.pipe = _ from hs]
      simp only [decoded, if_pos hwants]
    · simpa only [decoded, if_neg hwants] using hs
  refine hdecoder.bind fun _ => .when (fun hneeds => ?_) fun hneeds s hs => ?_
  · have hconverting : ∀ converter, p.Inherits { decoded with dsd2pcm := converter } :=
      fun _ => ⟨hdecoded.source, hdecoded.format, hdecoded.quality, hdecoded.fp64,
        hdecoded.sinks, hdecoded.tracks, hdecoded.decoder⟩
    refine (demand_pipe hdecoded).bind fun _ => setPipe_pipe.bind fun _ => ?_
    refine (demand_pipe (hconverting _)).bind fun _ => setPipe_triple fun s hs => ?_
    rw [PipeIs, Run.withPipe_pipe, show s.pipe = _ from hs]
    simp only [decoded, Pipe.withTransforms, if_pos hneeds]
  · rw [PipeIs, show s.pipe = _ from hs]
    simp only [decoded, Pipe.withTransforms, if_neg hneeds]

/-- A run that comes to its sinks has prepared the pipe in this way. -/
theorem prepare_pipe :
    Triple (PipeIs p) (prepare e) (fun _ => PipeIs (p.prepared e)) (fun _ => LeftOf p) := by
  have hsame : ∀ {t : Run α}, PipeIs p t → LeftOf p t := by
    intro t ht
    rw [LeftOf, show t.pipe = p from ht]
    exact .refl p
  refine .inspect fun t ht => ?_
  refine .requireThen (fun _ => ?_) fun _ _ hs => hsame (hs ▸ ht)
  refine .requireThen (fun _ => ?_) fun _ _ hs => hsame (hs ▸ ht)
  refine .requireThen (fun _ => ?_) fun _ _ hs => hsame (hs ▸ ht)
  have hselect : Triple (fun s => s = t) (Program.when (t.pipe.tracks = []) (selectAllTracks e))
      (fun _ => PipeIs { p with tracks := p.selection e }) (fun _ => LeftOf p) := by
    refine .when (fun htracks => ?_) fun htracks s hs => ?_
    · rw [show t.pipe = p from ht] at htracks
      rw [Pipe.selection, if_pos htracks]
      exact (selectAllTracks_pipe htracks).weaken fun s hs => hs ▸ ht
    · rw [show t.pipe = p from ht] at htracks
      rw [Pipe.selection, if_neg htracks, hs]
      exact ht
  have hselected : p.Inherits { p with tracks := p.selection e } := by
    refine ⟨rfl, rfl, rfl, rfl, .inl rfl, ?_, .inl rfl⟩
    by_cases htracks : p.tracks = []
    · exact .inl htracks
    · exact .inr (if_neg htracks)
  have hpools : Triple (PipeIs { p with tracks := p.selection e }) (initPools e)
      (fun _ => PipeIs { p with tracks := p.selection e, poolsInitialized := true })
      (fun _ => LeftOf p) := by
    refine .inspect fun u hu => .when (fun _ => ?_) fun hinit s hs => ?_
    · exact ((demand_pipe hselected).weaken fun s hs => hs ▸ hu).bind fun _ => setPipe_pipe
    · subst hs
      rw [show s.pipe = _ from hu, Bool.not_eq_false] at hinit
      rw [PipeIs, show s.pipe = _ from hu]
      simpa using hinit
  refine hselect.bind fun _ => hpools.bind fun _ => setPipe_pipe.bind fun _ => ?_
  refine .inspect fun u hu => ?_
  rw [show u.pipe = _ from hu]
  have hrefreshed : p.Inherits
      ({ p with tracks := p.selection e, poolsInitialized := true } : Pipe).refreshCaps :=
    ⟨rfl, rfl, rfl, rfl, .inr rfl, hselected.tracks, .inl rfl⟩
  exact (setupTransforms_pipe hrefreshed rfl).weaken fun s hs => hs ▸ hu

theorem prepared_inherits (p : Pipe) (e : Env α) : p.Inherits (p.prepared e) := by
  refine ⟨rfl, rfl, rfl, rfl, .inr rfl, ?_, ?_⟩
  · by_cases htracks : p.tracks = []
    · exact .inl htracks
    · exact .inr (if_neg htracks)
  · unfold Pipe.prepared Pipe.withTransforms
    dsimp only
    split
    · exact .inr (.inr rfl)
    · exact .inl rfl

/-- What a run leaves of a pipe. -/
theorem after_inherits (p : Pipe) (e : Env α) : p.Inherits (p.after e) := by
  have hrun : Triple (fun s => s = (⟨p, []⟩ : Run α)) (dsdpipeRun e) (fun _ => LeftOf p)
      (fun _ => LeftOf p) := by
    refine (prepare_pipe.weaken fun s hs => congrArg Run.pipe hs).bind fun _ => ?_
    refine .inspect fun t ht => .of_leaves fun s hs => ?_
    have hprepared : p.Inherits t.pipe := (show t.pipe = _ from ht) ▸ prepared_inherits p e
    exact hprepared.flagged (hs ▸ (calls_runPrepared s).pipe)
  exact hrun.leaves rfl

end Prepared

end DsdNexus.Dsdpipe
