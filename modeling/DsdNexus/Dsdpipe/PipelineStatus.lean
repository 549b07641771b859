import DsdNexus.Dsdpipe.Pipeline

/-! # What the status of a run tells

A run returns success exactly when it was ready to start, nobody cancelled it and every
call whose status it looks at succeeded. It does not look at the status of the metadata
calls, nor at what becomes of the files when a track or a sink ends.
-/

namespace DsdNexus.Dsdpipe

open Program

variable {α ε : Type}

/-- The calls whose status is dropped. -/
def Call.isIgnored : Call α → Bool
  | .getAlbumMetadata | .getTrackMetadata _ _ | .getTrackFrames _ _ => true
  | .finalizeFile _ _ | .closeFile _ _ | .trackEnd _ _ _ | .finalizeSink _ => true
  | .getTrackCount | .addTrack _ | .initPools | .createDecoder | .initDecoder _ => false
  | .createConverter _ _ _ | .initConverter _ | .setTrackCount _ _ | .openSink _ _ => false
  | .trackStart _ _ _ | .createQueue _ | .createReader _ | .startReader _ _ => false
  | .readTrack _ | .allocOutput _ _ _ | .decodeBatch _ _ | .writeFrame _ _ _ _ _ => false
  | .allocPcm _ _ _ | .convertBatch _ _ | .reportProgress _ _ | .closeSink _ => false

/-- A run can start from the pipe. -/
def Pipe.Ready (p : Pipe) (e : Env α) : Prop :=
  p.sourceType ≠ .none ∧ p.sinks ≠ [] ∧ p.state ≠ .running ∧
    (p.tracks = [] → e.trackCount.val ≠ 255)

namespace Run

/-- Every call that is looked at has succeeded. -/
def Clean (s : Run α) : Prop := ∀ c ∈ s.log, c.1.isIgnored = false → c.2 = ok

/-- Something has gone wrong, and the run can tell. -/
def Failed (s : Run α) : Prop := ¬ s.Clean ∨ s.pipe.cancelled = true

/-- Nothing that is looked at has failed, and the pipe is as described. -/
def Fine (R : Pipe → Prop) (s : Run α) : Prop := s.Clean ∧ R s.pipe

variable {s : Run α} {c : Call α} {status : Int}

theorem clean_logged : (s.logged c status).Clean ↔ s.Clean ∧ (c.isIgnored = false → status = ok) := by
  simp only [Clean, logged_log, List.mem_append, List.mem_singleton]
  constructor
  · intro h
    exact ⟨fun d hd => h d (.inl hd), h (c, status) (.inr rfl)⟩
  · rintro ⟨h, hlast⟩ d (hd | rfl)
    · exact h d hd
    · exact hlast

theorem clean_logged_of_ignored (h : c.isIgnored = true) : (s.logged c status).Clean ↔ s.Clean := by
  simp [clean_logged, h]

end Run

open Run

/-! ## Calls that are looked at -/

section Fine

variable {e : Env α} {R : Pipe → Prop} {E : ε → Run α → Prop} {c : Call α} {status : Int}
  {exit : Int → ε}

theorem demand_fine (hc : c.isIgnored = false)
    (hE : ∀ s : Run α, status ≠ ok → ¬ s.Clean → E (exit status) s) :
    Triple (Fine R) (demand c status exit) (fun _ => Fine R) E := by
  refine demand_triple (fun s hs hstatus => ?_) fun s hs hstatus => ?_
  · exact ⟨clean_logged.2 ⟨hs.1, fun _ => hstatus⟩, hs.2⟩
  · exact hE _ hstatus fun hclean => hstatus ((clean_logged.1 hclean).2 hc)

theorem attempt_fine (hc : c.isIgnored = false)
    (hE : ∀ (s : Run α) st, st ≠ ok → ¬ s.Clean → E (exit st) s) :
    Triple (Fine R) (attempt e c exit) (fun _ => Fine R) E :=
  demand_fine hc fun s => hE s _

theorem record_fine (hc : c.isIgnored = true ∨ status = ok) :
    Triple (Fine R) (record c status) (fun _ => Fine R) E :=
  record_triple fun _ hs => ⟨clean_logged.2 ⟨hs.1, fun h => by simpa [h] using hc⟩, hs.2⟩

theorem setPipe_fine {f : Pipe → Pipe} (T : Pipe → Prop) (h : ∀ p, R p → T (f p)) :
    Triple (Fine R) (setPipe f) (fun _ => Fine T) E :=
  setPipe_triple fun _ hs => ⟨hs.1, h _ hs.2⟩

end Fine

/-- An error that a run can account for. -/
def Told (code : Int) (s : Run α) : Prop := code ≠ ok ∧ s.Failed

theorem told_of_not_clean {code : Int} {s : Run α} (hcode : code ≠ ok) (h : ¬ s.Clean) :
    Told code s := ⟨hcode, .inl h⟩

/-! ## Calls that are not looked at -/

/-- The program runs through and changes nothing a run can tell. -/
def Unnoticed (m : Program ε (Run α) Unit) : Prop :=
  ∀ s, ∃ t, m s = (.ok (), t) ∧ (t.Clean ↔ s.Clean) ∧ t.pipe.cancelled = s.pipe.cancelled

namespace Unnoticed

variable {m n : Program ε (Run α) Unit} {P : Run α → Prop} {E : ε → Run α → Prop}

theorem pure : Unnoticed (pure () : Program ε (Run α) Unit) := fun s => ⟨s, rfl, Iff.rfl, rfl⟩

theorem record {c : Call α} {status : Int} (hc : c.isIgnored = true ∨ status = ok) :
    Unnoticed (record c status : Program ε (Run α) Unit) := by
  refine fun s => ⟨s.logged c status, rfl, ?_, rfl⟩
  rw [clean_logged]
  exact ⟨fun h => h.1, fun h => ⟨h, fun hnot => by simpa [hnot] using hc⟩⟩

theorem setPipe {f : Pipe → Pipe} (h : ∀ p, (f p).cancelled = p.cancelled) :
    Unnoticed (setPipe f : Program ε (Run α) Unit) := fun s => ⟨s.withPipe f, rfl, Iff.rfl, h _⟩

theorem bind (hm : Unnoticed m) (hn : Unnoticed n) : Unnoticed (m >>= fun _ => n) := by
  intro s
  obtain ⟨t, ht, hclean, hcancelled⟩ := hm s
  obtain ⟨u, hu, hclean', hcancelled'⟩ := hn t
  exact ⟨u, (bind_of_ok ht).trans hu, hclean'.trans hclean, hcancelled'.trans hcancelled⟩

theorem when {p : Prop} [Decidable p] (h : Unnoticed m) : Unnoticed (when p m) := by
  unfold Program.when
  split
  · exact h
  · exact pure

theorem get {k : Run α → Program ε (Run α) Unit} (h : ∀ s, Unnoticed (k s)) :
    Unnoticed (get >>= k) := fun s => h s s

theorem forM {β : Type} {xs : List β} {f : β → Program ε (Run α) Unit}
    (h : ∀ x, Unnoticed (f x)) : Unnoticed (xs.forM f) := by
  induction xs with
  | nil => exact pure
  | cons x xs ih => exact (h x).bind ih

theorem forEach {β : Type} {xs : List β} {f : β → Nat → Program ε (Run α) Unit}
    (h : ∀ x i, Unnoticed (f x i)) : Unnoticed (forEach xs f) := forM fun x => h x.1 x.2

theorem triple (h : Unnoticed m) {F : Prop → Bool → Prop} :
    Triple (fun s => F s.Clean s.pipe.cancelled) m (fun _ s => F s.Clean s.pipe.cancelled) E := by
  refine .of_forall fun s hs => ?_
  obtain ⟨t, ht, hclean, hcancelled⟩ := h s
  refine .inl ⟨(), t, ht, ?_⟩
  rw [propext hclean, hcancelled]
  exact hs

end Unnoticed

variable {e : Env α}

theorem closeFile_unnoticed {i : Nat} {occasion : Occasion} :
    Unnoticed (closeFile e i occasion : Program ε (Run α) Unit) :=
  .get fun _ => .when ((Unnoticed.record (.inl rfl)).bind
    ((Unnoticed.record (.inl rfl)).bind (.setPipe fun _ => rfl)))

theorem endSink_unnoticed {k track : Nat} {sink : Sink} {i : Nat} :
    Unnoticed (endSink e k track sink i) :=
  (Unnoticed.when closeFile_unnoticed).bind (.record (.inl rfl))

theorem finalizeSink_unnoticed {i : Nat} : Unnoticed (finalizeSink e i) :=
  .get fun _ => .when (closeFile_unnoticed.bind (.record (.inl rfl)))

theorem closeSink_unnoticed {i : Nat} : Unnoticed (closeSink e i) :=
  .get fun _ => .when (closeFile_unnoticed.bind
    ((Unnoticed.record (.inr rfl)).bind (.setPipe fun _ => rfl)))

/-! ## Before the sinks are opened -/

/-- Nothing is asked of the pipe. -/
def anyPipe : Pipe → Prop := fun _ => True

/-- What an error tells before the sinks are opened. -/
def Unready (p : Pipe) (e : Env α) (code : Int) (s : Run α) : Prop :=
  code ≠ ok ∧ (¬ s.Clean ∨ ¬ p.Ready e)

section Prepare

variable {p q : Pipe}

theorem selectAllTracks_fine :
    Triple (Fine anyPipe) (selectAllTracks e) (fun _ s => Fine anyPipe s ∧ e.trackCount.val ≠ 255)
      (fun code s => code ≠ ok ∧ (¬ s.Clean ∨ e.trackCount.val = 255)) := by
  refine (attempt_fine rfl fun _ _ hst h => ⟨hst, .inl h⟩).bind fun _ => ?_
  refine (setPipe_fine anyPipe fun _ _ => trivial).bind fun _ => ?_
  refine (Triple.forEach (fun _ => Fine anyPipe) fun _ _ _ => ?_).bind fun _ => ?_
  · refine (attempt_fine rfl fun _ _ hst h => ⟨hst, .inl h⟩).bind fun _ => ?_
    exact setPipe_fine anyPipe fun _ _ => trivial
  · refine .require (fun s hs hcount => ⟨hs, hcount⟩) fun s _ hcount => ?_
    exact ⟨by decide, .inr (not_not.1 hcount)⟩

theorem initPools_fine :
    Triple (Fine anyPipe) (initPools e) (fun _ => Fine anyPipe) (Unready p e) := by
  refine .inspect fun t ht => ?_
  refine .when (fun _ => ?_) fun _ s hs => hs ▸ ht
  refine Triple.weaken ?_ fun s hs => hs ▸ ht
  refine (attempt_fine rfl fun _ _ hst h => ⟨hst, .inl h⟩).bind fun _ => ?_
  exact setPipe_fine anyPipe fun _ _ => trivial

theorem setupDecoder_fine {source : Format} :
    Triple (Fine anyPipe) (setupDecoder e source) (fun _ => Fine anyPipe) (Unready p e) := by
  refine (attempt_fine rfl fun _ _ hst h => ⟨hst, .inl h⟩).bind fun _ => ?_
  refine (setPipe_fine anyPipe fun _ _ => trivial).bind fun _ => ?_
  refine (demand_fine rfl fun _ _ h => ⟨by decide, .inl h⟩).bind fun _ => ?_
  exact setPipe_fine anyPipe fun _ _ => trivial

theorem setupConverter_fine {input : Format} :
    Triple (Fine anyPipe) (setupConverter e q input) (fun _ => Fine anyPipe) (Unready p e) := by
  refine (demand_fine rfl fun _ hst h => ⟨hst, .inl h⟩).bind fun _ => ?_
  refine (setPipe_fine anyPipe fun _ _ => trivial).bind fun _ => ?_
  refine (demand_fine rfl fun _ _ h => ⟨by decide, .inl h⟩).bind fun _ => ?_
  exact setPipe_fine anyPipe fun _ _ => trivial

theorem setupTransforms_fine :
    Triple (Fine anyPipe) (setupTransforms e q) (fun _ => Fine anyPipe) (Unready p e) :=
  (Triple.when (fun _ => setupDecoder_fine) fun _ _ hs => hs).bind fun _ =>
    .when (fun _ => setupConverter_fine) fun _ _ hs => hs

theorem fine_start : Fine anyPipe (⟨p, []⟩ : Run α) := ⟨by simp [Clean], trivial⟩

theorem prepare_fine :
    Triple (fun s => s = ⟨p, []⟩) (prepare e) (fun _ s => Fine anyPipe s ∧ p.Ready e)
      (Unready p e) := by
  refine .inspect fun t ht => ?_
  subst ht
  refine .requireThen (fun hsource => ?_)
    fun hsource s _ => ⟨by decide, .inr fun hready => hsource hready.1⟩
  refine .requireThen (fun hsinks => ?_)
    fun hsinks s _ => ⟨by decide, .inr fun hready => hsinks hready.2.1⟩
  refine .requireThen (fun hstate => ?_)
    fun hstate s _ => ⟨by decide, .inr fun hready => hstate hready.2.2.1⟩
  have hselect : Triple (fun s => s = (⟨p, []⟩ : Run α))
      (Program.when (p.tracks = []) (selectAllTracks e))
      (fun _ s => Fine anyPipe s ∧ p.Ready e) (Unready p e) := by
    refine .when (fun htracks => ?_) fun htracks s hs => ?_
    · refine selectAllTracks_fine.conseq (fun s hs => hs ▸ fine_start) ?_ ?_
      · exact fun _ s hs => ⟨hs.1, hsource, hsinks, hstate, fun _ => hs.2⟩
      · exact fun code s hs => ⟨hs.1, hs.2.imp_right fun hcount hready => hready.2.2.2 htracks hcount⟩
    · exact ⟨hs ▸ fine_start, hsource, hsinks, hstate, fun h => absurd h htracks⟩
  refine hselect.bind fun _ => ?_
  refine Triple.frame (P := Fine anyPipe) (Q := fun _ => Fine anyPipe) ?_ _
  refine initPools_fine.bind fun _ => ?_
  refine (setPipe_fine anyPipe fun _ _ => trivial).bind fun _ => ?_
  exact .inspect fun t ht => setupTransforms_fine.weaken fun s hs => hs ▸ ht

end Prepare

/-! ## A track -/

/-- The flag is down. -/
def calm : Pipe → Prop := fun p => p.cancelled = false

/-- What a way out of the batch loop tells. -/
def Exit.Tells : Exit → Run α → Prop
  | .returned code, s => Told code s
  | .cleanup code, s => code ≠ ok ∧ ¬ s.Clean ∨ s.pipe.cancelled = true

/-- What the code with which the cleanup begins tells. -/
def Pending (code : Int) (clean : Prop) (cancelled : Bool) : Prop :=
  code = ok ∧ clean ∧ cancelled = false ∨ code ≠ ok ∧ ¬ clean ∨ cancelled = true

section Track

variable {p : Pipe} {k b j i track : Nat} {sink : Sink}

theorem closeFile_fine {occasion : Occasion} {E : ε → Run α → Prop} :
    Triple (Fine calm) (closeFile e i occasion) (fun _ => Fine calm) E :=
  closeFile_unnoticed.triple (F := fun clean cancelled => clean ∧ cancelled = false)

theorem openSinks_fine :
    Triple (Fine anyPipe) (openSinks e p) (fun _ => Fine anyPipe) Told := by
  refine .forEach (fun _ => Fine anyPipe) fun i sink _ => ?_
  refine (Triple.when (fun _ => record_fine (.inr rfl)) fun _ _ hs => hs).bind fun _ => ?_
  refine (attempt_fine rfl fun _ _ _ h => told_of_not_clean (by decide) h).bind fun _ => ?_
  exact setPipe_fine anyPipe fun _ _ => trivial

theorem startSink_fine :
    Triple (Fine calm) (startSink e k track sink i) (fun _ => Fine calm) Told := by
  refine (Triple.when (fun _ => closeFile_fine) fun _ _ hs => hs).bind fun _ => ?_
  refine (attempt_fine rfl fun _ _ hst h => told_of_not_clean hst h).bind fun _ => ?_
  exact setPipe_fine calm fun _ hq => hq

theorem writeToSinks_fine {buffer : Buffer α} :
    Triple (Fine calm) (writeToSinks e p k b buffer j) (fun _ => Fine calm) Exit.Tells := by
  refine .forEach (fun _ => Fine calm) fun i sink _ => ?_
  refine .when (fun _ => ?_) fun _ _ hs => hs
  exact attempt_fine rfl fun _ _ _ h => .inl ⟨by decide, h⟩

theorem decodeBatch_fine {buffers : List (Buffer α)} :
    Triple (Fine calm) (decodeBatch e p k b buffers) (fun _ => Fine calm) Exit.Tells := by
  unfold decodeBatch
  cases p.decoderInUse with
  | none => exact .pure fun _ hs => hs
  | some decoder =>
    refine (Triple.forEach (fun _ => Fine calm) fun _ _ _ => ?_).bind fun _ => ?_
    · exact attempt_fine rfl fun _ _ _ h => told_of_not_clean (by decide) h
    · refine (demand_fine rfl fun _ hst h => .inl ⟨hst, h⟩).bind fun _ => ?_
      exact .pure fun _ hs => hs

theorem convertBatch_fine {buffers : List (Buffer α)} :
    Triple (Fine calm) (convertBatch e p k b buffers) (fun _ => Fine calm) Exit.Tells := by
  unfold convertBatch
  cases p.converterInUse with
  | none => exact .pure fun _ hs => hs
  | some converter =>
    refine (Triple.forEach (fun _ => Fine calm) fun _ _ _ => ?_).bind fun _ => ?_
    · exact attempt_fine rfl fun _ _ _ h => .inl ⟨by decide, h⟩
    · refine (demand_fine rfl fun _ hst h => .inl ⟨hst, h⟩).bind fun _ => ?_
      exact .forEach (fun _ => Fine calm) fun _ _ _ => writeToSinks_fine

theorem reportProgress_fine :
    Triple (Fine calm) (reportProgress e k b) (fun _ => Fine calm) Exit.Tells := by
  by_cases hst : e.answer (.reportProgress k b) = ok
  · refine (record_fine (.inr hst)).bind fun _ => ?_
    exact .when (fun hne => absurd hst hne) fun _ _ hs => hs
  · have hrecord : Triple (Fine calm) (ignore e (.reportProgress k b)) (fun _ (_ : Run α) => True)
        Exit.Tells := record_triple fun _ _ => trivial
    refine hrecord.bind fun _ => .when (fun _ => ?_) fun hnot => absurd hst hnot
    refine (setPipe_triple (Q := fun _ s => s.pipe.cancelled = true) fun _ _ => rfl).bind fun _ => ?_
    exact .fail fun _ hs => .inr hs

theorem processBatch_fine {buffers : List (Buffer α)} :
    Triple (Fine calm) (processBatch e p k b buffers) (fun _ => Fine calm) Exit.Tells := by
  refine decodeBatch_fine.bind fun outputs => ?_
  have hwrite : Triple (Fine calm) (forEach outputs (writeToSinks e p k b)) (fun _ => Fine calm)
      Exit.Tells := .forEach (fun _ => Fine calm) fun _ _ _ => writeToSinks_fine
  refine (Triple.when (fun _ => hwrite) fun _ _ hs => hs).bind fun _ => ?_
  exact convertBatch_fine.bind fun _ => reportProgress_fine

theorem pollTurn_fine :
    Triple (Fine calm) (pollTurn e k b) (fun _ => Fine calm) Exit.Tells := by
  refine (poll_triple (Q := fun flag s => s.Clean ∧ s.pipe.cancelled = flag)
    fun _ _ hs _ => ⟨hs.1, rfl⟩).bind fun flag => ?_
  refine .require (fun s hs hflag => ⟨hs.1, hs.2.trans hflag⟩) fun s hs hflag => .inr ?_
  rw [hs.2]
  simpa using hflag

theorem batchLoop_fine {feed : Feed α} :
    Triple (Fine calm) (batchLoop e p k b feed) (fun _ => Fine calm) Exit.Tells := by
  induction feed generalizing b with
  | batch first others rest ih =>
    exact pollTurn_fine.bind fun _ => processBatch_fine.bind fun _ => ih
  | lastBatch first others => exact pollTurn_fine.bind fun _ => processBatch_fine
  | endBatch frames => exact pollTurn_fine.bind fun _ => processBatch_fine
  | ended status =>
    exact pollTurn_fine.bind fun _ => demand_fine rfl fun _ hst h => .inl ⟨hst, h⟩
  | refused status =>
    exact pollTurn_fine.bind fun _ => demand_fine rfl fun _ hst h => .inl ⟨hst, h⟩

theorem cleanup_fine {result : Int} :
    Triple (fun s => Pending result s.Clean s.pipe.cancelled) (cleanup e p k track result)
      (fun _ => Fine calm) Told := by
  have hpoll : ∀ at', Triple (fun s : Run α => Pending result s.Clean s.pipe.cancelled)
      (poll e at') (fun flag s => Pending result s.Clean flag ∧ s.pipe.cancelled = flag) Told := by
    intro at'
    refine poll_triple fun s flag hs hflag => ⟨?_, rfl⟩
    cases flag with
    | true => exact .inr (.inr rfl)
    | false =>
      have hdown : s.pipe.cancelled = false := by simp_all
      rwa [hdown] at hs
  have hend : Triple (fun s : Run α => Pending result s.Clean s.pipe.cancelled)
      (forEach p.sinks (endSink e k track)) (fun _ s => Pending result s.Clean s.pipe.cancelled)
      Told := (Unnoticed.forEach fun _ _ => endSink_unnoticed).triple
  have hforget : ∀ flag (s : Run α), Pending result s.Clean flag ∧ s.pipe.cancelled = flag →
      Pending result s.Clean s.pipe.cancelled := fun flag s hs => hs.2 ▸ hs.1
  refine (hpoll _).bind fun flag => ?_
  refine (hend.weaken (hforget flag)).bind fun _ => ?_
  refine (hpoll _).bind fun flag => ?_
  refine .requireThen (fun hflag => .require ?_ ?_) fun hflag s hs => ⟨by decide, .inr ?_⟩
  · rintro s ⟨hpending, hcancelled⟩ hresult
    subst hflag
    rcases hpending with ⟨_, hclean, _⟩ | ⟨hresult', _⟩ | hup
    · exact ⟨hclean, hcancelled⟩
    · exact absurd hresult hresult'
    · cases hup
  · rintro s ⟨hpending, _⟩ hresult
    subst hflag
    rcases hpending with ⟨hresult', _⟩ | ⟨_, hclean⟩ | hup
    · exact absurd hresult' hresult
    · exact told_of_not_clean hresult hclean
    · cases hup
  · rw [hs.2]
    simpa using hflag

theorem processTrack_fine :
    Triple (Fine calm) (processTrack e p track k) (fun _ => Fine calm) Told := by
  refine (record_fine (.inl rfl)).bind fun _ => (record_fine (.inl rfl)).bind fun _ => ?_
  refine (Triple.forEach (fun _ => Fine calm) fun _ _ _ => startSink_fine).bind fun _ => ?_
  refine (attempt_fine rfl fun _ _ _ h => told_of_not_clean (by decide) h).bind fun _ => ?_
  refine (attempt_fine rfl fun _ _ _ h => told_of_not_clean (by decide) h).bind fun _ => ?_
  refine (attempt_fine rfl fun _ _ _ h => told_of_not_clean (by decide) h).bind fun _ => ?_
  have hloop : Triple (Fine calm) (settle ok Exit.settled (batchLoop e p k 0 (e.feed k)))
      (fun result s => Pending result s.Clean s.pipe.cancelled) Told := by
    refine batchLoop_fine.settle (fun s hs => .inl ⟨rfl, hs.1, hs.2⟩) ?_ ?_
    · rintro (code | code) s _ hs ⟨⟩
      exact .inr hs
    · rintro (code | code) s _ hs ⟨⟩
      exact hs
  exact hloop.bind fun result => cleanup_fine

end Track

/-! ## A run -/

/-- What the code with which the sinks are finalized tells. -/
def Over (code : Int) (clean : Prop) (cancelled : Bool) : Prop :=
  code = ok ∧ clean ∧ cancelled = false ∨ code ≠ ok ∧ (¬ clean ∨ cancelled = true)

theorem runPrepared_fine {p : Pipe} :
    Triple (Fine anyPipe) (runPrepared e p) (fun _ => Fine calm) Told := by
  refine (record_fine (.inl rfl)).bind fun _ => openSinks_fine.bind fun _ => ?_
  refine (setPipe_fine calm (by intros; rfl)).bind fun _ => ?_
  have htracks : Triple (Fine calm) (settle ok .ok (forEach p.tracks (processTrack e p)))
      (fun result s => Over result s.Clean s.pipe.cancelled) Told := by
    refine (Triple.forEach (fun _ => Fine calm) fun _ _ _ => processTrack_fine).settle ?_ ?_ ?_
    · exact fun s hs => .inl ⟨rfl, hs.1, hs.2⟩
    · rintro code s _ hs ⟨⟩
      exact .inr hs
    · rintro code s _ _ ⟨⟩
  refine htracks.bind fun result => ?_
  refine ((Unnoticed.forEach fun _ _ => finalizeSink_unnoticed).triple (F := Over result)).bind
    fun _ => ?_
  refine ((Unnoticed.forEach fun _ _ => closeSink_unnoticed).triple (F := Over result)).bind
    fun _ => ?_
  refine ((Unnoticed.setPipe (by intro; rfl)).triple (F := Over result)).bind fun _ => .require ?_ ?_
  · rintro s (⟨_, hclean, hcancelled⟩ | ⟨hresult', _⟩) hresult
    · exact ⟨hclean, hcancelled⟩
    · exact absurd hresult hresult'
  · rintro s (⟨hresult', _⟩ | hs) hresult
    · exact absurd hresult' hresult
    · exact hs

/-- The calls of the run that are looked at have succeeded. -/
def Pipe.CallsClean (p : Pipe) (e : Env α) : Prop :=
  ∀ c ∈ p.calls e, c.1.isIgnored = false → c.2 = ok

theorem dsdpipeRun_fine {p : Pipe} :
    Triple (fun s => s = (⟨p, []⟩ : Run α)) (dsdpipeRun e) (fun _ s => Fine calm s ∧ p.Ready e)
      (fun code s => code ≠ ok ∧ (s.Failed ∨ ¬ p.Ready e)) := by
  have hprepare : Triple (fun s => s = (⟨p, []⟩ : Run α)) (prepare e)
      (fun _ s => Fine anyPipe s ∧ p.Ready e)
      (fun code s => code ≠ ok ∧ (s.Failed ∨ ¬ p.Ready e)) :=
    prepare_fine.conseq (fun _ => id) (fun _ _ => id)
      fun code s hs => ⟨hs.1, hs.2.imp_left .inl⟩
  refine hprepare.bind fun _ => .inspect fun t ht => ?_
  have hrest := (runPrepared_fine (e := e) (p := t.pipe)).frame (p.Ready e)
  exact hrest.conseq (fun s hs => hs ▸ ht) (fun _ _ => id) fun code s hs => ⟨hs.1, .inl hs.2⟩

theorem Pipe.status_ok_iff (p : Pipe) (e : Env α) :
    p.status e = ok ↔ p.Ready e ∧ p.CallsClean e ∧ (p.after e).cancelled = false := by
  unfold Pipe.status Pipe.CallsClean Pipe.calls Pipe.after
  cases hres : dsdpipeRun e ⟨p, []⟩ with
  | mk r s =>
    cases r with
    | ok u =>
      have hdone := dsdpipeRun_fine.ok rfl hres
      exact ⟨fun _ => ⟨hdone.2, hdone.1.1, hdone.1.2⟩, fun _ => rfl⟩
    | error code =>
      have htold := dsdpipeRun_fine.error rfl hres
      refine ⟨fun h => absurd h htold.1, fun ⟨hready, hclean, hcancelled⟩ => ?_⟩
      rcases htold.2 with (hnot | hup) | hunready
      · exact absurd hclean hnot
      · rw [show s.pipe.cancelled = false from hcancelled] at hup
        cases hup
      · exact absurd hready hunready

/-! ## Success over a failure -/

/-- A run that could start, was not cancelled and saw none of its calls fail reports
success over no failure exactly when no call failed whose status it drops. -/
theorem success_over_failure_iff (p : Pipe) (e : Env α) :
    (p.status e = ok → ∀ c ∈ p.calls e, c.2 = ok) ↔
      (p.Ready e → p.CallsClean e → (p.after e).cancelled = false →
        ∀ c ∈ p.calls e, c.1.isIgnored = true → c.2 = ok) := by
  rw [p.status_ok_iff e]
  constructor
  · intro h hready hclean hcancelled c hc _
    exact h ⟨hready, hclean, hcancelled⟩ c hc
  · rintro h ⟨hready, hclean, hcancelled⟩ c hc
    cases hignored : c.1.isIgnored with
    | true => exact h hready hclean hcancelled c hc hignored
    | false => exact hclean c hc hignored

/-- A new pipe with a DSF sink for a source in DSD. -/
def dsfCopy : Pipe where
  state := .configured
  sourceType := .dsf
  sourceFormat := ⟨.dsdRaw, 2822400, 2, 1, 75⟩
  sinks := [Sink.create .dsf false]
  isOpen := fun _ => false
  fileOpen := fun _ => false
  tracks := []
  dstDecoder := none
  dsd2pcm := none
  pcmQuality := 1
  pcmUseFp64 := false
  poolsInitialized := false
  cancelled := false

/-- One track of one frame; the file of the sink cannot be finalized. -/
def lostHeader : Env Unit where
  answer
    | .finalizeFile _ _ => -21
    | _ => ok
  trackCount := ⟨1, one_lt_256⟩
  feed := fun _ => .lastBatch () []
  cancels := fun _ => false

theorem lostHeader_reported_good : ¬ ∀ (p : Pipe) (e : Env Unit),
    p.status e = ok → ∀ c ∈ p.calls e, c.2 = ok := by
  intro h
  have hstatus : dsfCopy.status lostHeader = ok := rfl
  have hcall : (Call.finalizeFile 0 (.trackEnd 0), -21) ∈ dsfCopy.calls lostHeader :=
    List.mem_of_getElem? (i := 13) rfl
  exact absurd (h _ _ hstatus _ hcall) (by decide)

end DsdNexus.Dsdpipe
