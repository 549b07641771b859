import DsdNexus.Dsdpipe.Pipeline
import Mathlib.Data.List.Induction

/-! # The calls a sink sees

A sink is to be opened, given its tracks, finalized and closed. A call that fails is to be
followed only by the calls that wind the sink up. A run keeps to this as long as none of
the calls fails after which it returns without winding up, and no `track_end` fails before
another track.
-/

namespace DsdNexus.Dsdpipe

open Program

variable {α ε : Type}

/-! ## The protocol -/

/-- Where a sink is in `open (track_start write_frame* track_end)* finalize close`. After
a failed `write_frame` the track has still to be ended, after another failed call only
`finalize` and `close` may follow. -/
inductive Phase where
  | fresh
  | opened
  | inTrack (k : Nat)
  | ending (k : Nat)
  | closing
  | finalized
  | closed
  | refused
  | broken
deriving DecidableEq

/-- The sink a call is made on. -/
def Call.sink : Call α → Option Nat
  | .openSink i _ | .trackStart i _ _ | .writeFrame i _ _ _ _ => some i
  | .trackEnd i _ _ | .finalizeSink i | .closeSink i => some i
  | .getTrackCount | .addTrack _ | .initPools | .createDecoder | .initDecoder _ => none
  | .createConverter _ _ _ | .initConverter _ | .getAlbumMetadata | .setTrackCount _ _ => none
  | .getTrackMetadata _ _ | .getTrackFrames _ _ | .createQueue _ | .createReader _ => none
  | .startReader _ _ | .readTrack _ | .allocOutput _ _ _ | .decodeBatch _ _ => none
  | .allocPcm _ _ _ | .convertBatch _ _ | .reportProgress _ _ => none
  | .finalizeFile _ _ | .closeFile _ _ => none

/-- One call on the sink, and whether it succeeds. -/
def Phase.next (phase : Phase) (c : Call α) (good : Bool) : Phase :=
  match c, phase with
  | .openSink _ _, .fresh => if good then .opened else .refused
  | .trackStart _ k _, .opened => if good then .inTrack k else .closing
  | .writeFrame _ k _ _ _, .inTrack l =>
    if k = l then (if good then .inTrack k else .ending k) else .broken
  | .trackEnd _ k _, .inTrack l => if k = l then (if good then .opened else .closing) else .broken
  | .trackEnd _ k _, .ending l => if k = l then .closing else .broken
  | .finalizeSink _, .opened | .finalizeSink _, .closing => .finalized
  | .closeSink _, .finalized => .closed
  | _, _ => .broken

/-- The sink has not been opened, or has been wound up. -/
def Phase.IsOver (phase : Phase) : Prop := phase = .fresh ∨ phase = .refused ∨ phase = .closed

/-- Where the calls leave the sink. -/
def phaseOf (i : Nat) (log : List (Call α × Int)) : Phase :=
  log.foldl (fun phase c => if c.1.sink = some i then phase.next c.1 (c.2 == ok) else phase) .fresh

/-- The sink sees the calls of the protocol, up to the end. -/
def Obeyed (i : Nat) (log : List (Call α × Int)) : Prop := (phaseOf i log).IsOver

/-- A call after which `dsdpipe_run` departs from the protocol, by the calls before it. -/
def Fault (before : List (Call α × Int)) : Call α × Int → Prop
  | (.openSink i _, status) => i ≠ 0 ∧ status ≠ ok
  | (.trackStart i _ _, status) =>
    i ≠ 0 ∧ status ≠ ok ∨ ∃ k track st, (.trackEnd i k track, st) ∈ before ∧ st ≠ ok
  | (.createQueue _, status) | (.createReader _, status) | (.startReader _ _, status)
  | (.allocOutput _ _ _, status) => status ≠ ok
  | _ => False

/-- Some call of the run is a fault. -/
def Breach (log : List (Call α × Int)) : Prop :=
  ∃ before c after, log = before ++ c :: after ∧ Fault before c

/-! ## One more call -/

theorem phaseOf_snoc (i : Nat) (log : List (Call α × Int)) (c : Call α) (status : Int) :
    phaseOf i (log ++ [(c, status)]) =
      if c.sink = some i then (phaseOf i log).next c (status == ok) else phaseOf i log := by
  simp only [phaseOf, List.foldl_append, List.foldl_cons, List.foldl_nil]

theorem breach_snoc {log : List (Call α × Int)} {c : Call α × Int} :
    Breach (log ++ [c]) ↔ Breach log ∨ Fault log c := by
  constructor
  · rintro ⟨before, d, after, heq, hfault⟩
    rcases List.eq_nil_or_concat after with rfl | ⟨after', last, rfl⟩
    · obtain ⟨rfl, hlast⟩ := List.append_inj' heq rfl
      cases hlast
      exact .inr hfault
    · rw [List.concat_eq_append, ← List.cons_append, ← List.append_assoc] at heq
      obtain ⟨rfl, -⟩ := List.append_inj' heq rfl
      exact .inl ⟨before, d, after', rfl, hfault⟩
  · rintro (⟨before, d, after, rfl, hfault⟩ | hfault)
    · exact ⟨before, d, after ++ [c], by simp, hfault⟩
    · exact ⟨log, c, [], rfl, hfault⟩

/-- The sink has been given up after a failed `track_end`. -/
def EndFailed (i : Nat) (log : List (Call α × Int)) : Prop :=
  ∃ k track st, (Call.trackEnd i k track, st) ∈ log ∧ st ≠ ok

/-- The sink takes no more tracks. -/
def Phase.isLate : Phase → Bool
  | .closing | .finalized | .closed | .broken => true
  | .fresh | .opened | .inTrack _ | .ending _ | .refused => false

theorem Phase.isLate_next {phase : Phase} (h : phase.isLate = true) (c : Call α) (good : Bool) :
    (phase.next c good).isLate = true := by
  cases phase with
  | closing | finalized | closed | broken => cases c <;> rfl
  | fresh | opened | inTrack _ | ending _ | refused => cases h

theorem Phase.isLate_trackEnd (phase : Phase) (i k track : Nat) :
    (phase.next (.trackEnd i k track : Call α) false).isLate = true := by
  cases phase with
  | inTrack l | ending l => simp only [Phase.next]; split <;> rfl
  | fresh | opened | closing | finalized | closed | refused | broken => rfl

/-- After a failed `track_end` the sink takes no more tracks. -/
theorem isLate_of_endFailed {i : Nat} {log : List (Call α × Int)} (h : EndFailed i log) :
    (phaseOf i log).isLate = true := by
  induction log using List.reverseRecOn with
  | nil =>
    obtain ⟨k, track, st, hmem, -⟩ := h
    cases hmem
  | append_singleton log c ih =>
    obtain ⟨c, status⟩ := c
    rw [phaseOf_snoc]
    obtain ⟨k, track, st, hmem, hst⟩ := h
    rw [List.mem_append, List.mem_singleton] at hmem
    rcases hmem with hmem | hlast
    · have hlate := ih ⟨k, track, st, hmem, hst⟩
      split
      · exact Phase.isLate_next hlate c _
      · exact hlate
    · cases hlast
      have hbad : (status == ok) = false := by simpa using hst
      rw [if_pos (by rfl), hbad]
      exact Phase.isLate_trackEnd _ _ _ _

theorem endFailed_snoc {i : Nat} {log : List (Call α × Int)} {c : Call α} {status : Int}
    (hc : c.sink ≠ some i) : EndFailed i (log ++ [(c, status)]) ↔ EndFailed i log := by
  constructor
  · rintro ⟨k, track, st, hmem, hst⟩
    rw [List.mem_append, List.mem_singleton] at hmem
    rcases hmem with hmem | hlast
    · exact ⟨k, track, st, hmem, hst⟩
    · cases hlast
      exact absurd rfl hc
  · rintro ⟨k, track, st, hmem, hst⟩
    exact ⟨k, track, st, List.mem_append_left _ hmem, hst⟩

/-! ## Where the sinks are -/

/-- A sink that has left the protocol, after a fault. -/
def Run.Lost (s : Run α) : Prop := Breach s.log ∧ ∃ i, phaseOf i s.log = .broken

/-- What is known of one sink: its place, where it is, whether it is open, and whether a
`track_end` of it has failed. -/
abbrev Stage : Type := Nat → Phase → Bool → Prop → Prop

/-- Without a fault so far, every sink is at the stage. -/
structure Run.Sound (n : Nat) (F : Stage) (s : Run α) : Prop where
  sound : ¬ Breach s.log
  inside : ∀ i < n, F i (phaseOf i s.log) (s.pipe.isOpen i) (EndFailed i s.log)
  outside : ∀ i, n ≤ i → phaseOf i s.log = .fresh

def Run.At (n : Nat) (F : Stage) (s : Run α) : Prop := s.Lost ∨ s.Sound n F

theorem Phase.next_broken (c : Call α) (good : Bool) : Phase.broken.next c good = .broken := by
  cases c <;> rfl

namespace Run

variable {n : Nat} {F G : Stage} {s : Run α} {c : Call α} {status : Int}

theorem Lost.logged (h : s.Lost) : (s.logged c status).Lost := by
  obtain ⟨hbreach, i, hi⟩ := h
  refine ⟨breach_snoc.2 (.inl hbreach), i, ?_⟩
  rw [logged_log, phaseOf_snoc, hi, Phase.next_broken, ite_self]

theorem At.mono (h : s.At n F) (hFG : ∀ i < n, ∀ phase isOpen failed,
    F i phase isOpen failed → G i phase isOpen failed) :
    s.At n G :=
  h.imp_right fun hs => ⟨hs.sound, fun i hi => hFG i hi _ _ _ (hs.inside i hi), hs.outside⟩

/-- A call on no sink that is no fault. -/
theorem At.logged_off (h : s.At n F) (hc : c.sink = none) (hfault : ¬ Fault s.log (c, status)) :
    (s.logged c status).At n F := by
  refine h.imp Lost.logged fun hs => ⟨?_, ?_, ?_⟩
  · rw [logged_log, breach_snoc]
    exact not_or.2 ⟨hs.sound, hfault⟩
  · intro i hi
    rw [logged_log, phaseOf_snoc, endFailed_snoc (by simp [hc]), hc, if_neg (by simp)]
    exact hs.inside i hi
  · intro i hi
    rw [logged_log, phaseOf_snoc, hc, if_neg (by simp)]
    exact hs.outside i hi

/-- A call on a sink that is no fault moves this sink. -/
theorem Sound.logged_on (hs : s.Sound n F) {j : Nat} (hc : c.sink = some j) (hj : j < n)
    (hfault : ¬ Fault s.log (c, status))
    (hself : G j ((phaseOf j s.log).next c (status == ok)) (s.pipe.isOpen j)
      (EndFailed j (s.log ++ [(c, status)])))
    (hothers : ∀ i < n, i ≠ j → ∀ phase isOpen failed,
      F i phase isOpen failed → G i phase isOpen failed) :
    (s.logged c status).Sound n G := by
  refine ⟨?_, ?_, ?_⟩
  · rw [logged_log, breach_snoc]
    exact not_or.2 ⟨hs.sound, hfault⟩
  · intro i hi
    rw [logged_log, phaseOf_snoc, hc]
    by_cases hij : j = i
    · subst hij
      rw [if_pos rfl]
      exact hself
    · rw [if_neg (by simpa using hij), endFailed_snoc (by simpa [hc] using hij)]
      exact hothers i hi (Ne.symm hij) _ _ _ (hs.inside i hi)
  · intro i hi
    rw [logged_log, phaseOf_snoc, hc, if_neg (by simp; omega)]
    exact hs.outside i hi

theorem At.withPipe (h : s.At n F) {f : Pipe → Pipe} (hf : (f s.pipe).isOpen = s.pipe.isOpen) :
    (s.withPipe f).At n F :=
  h.imp_right fun hs => ⟨hs.sound, fun i hi => by
    rw [withPipe_pipe, hf]
    exact hs.inside i hi, hs.outside⟩

end Run

open Run

section Rules

variable {e : Env α} {n : Nat} {F : Stage} {E : ε → Run α → Prop} {c : Call α} {status : Int}
  {exit : Int → ε}

theorem record_at (hc : c.sink = none) (hfault : ∀ before, ¬ Fault before (c, status)) :
    Triple (At n F) (record c status) (fun _ => At n F) E :=
  record_triple fun _ hs => hs.logged_off hc (hfault _)

theorem demand_at (hc : c.sink = none) (hfault : ∀ before, ¬ Fault before (c, status))
    (hE : ∀ s, status ≠ ok → At n F s → E (exit status) s) :
    Triple (At n F) (demand c status exit) (fun _ => At n F) E :=
  demand_triple (fun _ hs _ => hs.logged_off hc (hfault _))
    fun _ hs hstatus => hE _ hstatus (hs.logged_off hc (hfault _))

theorem setPipe_at {f : Pipe → Pipe} (hf : ∀ p, (f p).isOpen = p.isOpen) :
    Triple (At n F) (setPipe f) (fun _ => At n F) E :=
  setPipe_triple fun _ hs => hs.withPipe (hf _)

theorem poll_at {at' : Poll} : Triple (At n F) (poll e at') (fun _ => At n F) E :=
  poll_triple fun _ _ hs _ => hs.withPipe rfl

theorem closeFile_at {i : Nat} {occasion : Occasion} :
    Triple (At n F) (closeFile e i occasion) (fun _ => At n F) E := by
  refine .inspect fun t ht => .when (fun _ => ?_) fun _ s hs => hs ▸ ht
  refine Triple.weaken ?_ fun s hs => hs ▸ ht
  refine (record_at rfl fun _ => id).bind fun _ => (record_at rfl fun _ => id).bind fun _ => ?_
  exact setPipe_at fun _ => rfl

end Rules

/-! ## Opening -/

/-- What a run has come to when it returns. -/
def Verdict (s : Run α) : Prop := (∀ i, Obeyed i s.log) ↔ ¬ Breach s.log

theorem verdict_of_breach {s : Run α} (h : Breach s.log) {i : Nat}
    (hi : ¬ (phaseOf i s.log).IsOver) : Verdict s :=
  ⟨fun hall => absurd (hall i) hi, fun hnot => absurd h hnot⟩

theorem Run.Lost.verdict {s : Run α} (h : s.Lost) : Verdict s := by
  obtain ⟨hbreach, i, hi⟩ := h
  exact verdict_of_breach hbreach (i := i) (by simp [Phase.IsOver, hi])

theorem Run.At.verdict {s : Run α} {n : Nat} {F : Stage} (h : s.At n F)
    (hF : ∀ i < n, ∀ phase isOpen failed, F i phase isOpen failed → phase.IsOver) : Verdict s := by
  rcases h with hlost | hs
  · exact hlost.verdict
  · refine ⟨fun _ => hs.sound, fun _ i => ?_⟩
    rcases Nat.lt_or_ge i n with hi | hi
    · exact hF i hi _ _ _ (hs.inside i hi)
    · exact .inl (hs.outside i hi)

/-- The sinks before the place are open. -/
def openedUpTo (m : Nat) : Stage := fun i phase isOpen _ =>
  if i < m then phase = .opened ∧ isOpen = true else phase = .fresh

section Opening

variable {e : Env α} {p : Pipe}

theorem openSink_protocol {m n : Nat} (hm : m < n) (sink : Sink) :
    Triple (At n (openedUpTo m)) (openSink e p sink m) (fun _ => At n (openedUpTo (m + 1)))
      (fun _ => Verdict) := by
  have hcount : Triple (At n (openedUpTo m)) (Program.when (sink.type = .dsdiffEdit)
      (record (.setTrackCount m (p.tracks.length % 256)) ok : Program Int (Run α) Unit))
      (fun _ => At n (openedUpTo m)) (fun _ => Verdict) :=
    .when (fun _ => record_at rfl fun _ => id) fun _ _ hs => hs
  let opening : Stage := fun i phase isOpen _ =>
    if i < m then phase = .opened ∧ isOpen = true
    else if i = m then phase = .opened else phase = .fresh
  have hopen : Triple (At n (openedUpTo m)) (attempt e (.openSink m (p.sinkFormat sink))
      fun _ => errorSinkOpen) (fun _ => At n opening) (fun _ => Verdict) := by
    refine demand_triple (fun s hs hstatus => ?_) fun s hs hstatus => ?_
    · refine hs.imp Lost.logged fun hs => hs.logged_on rfl hm (fun hf => hf.2 hstatus) ?_ ?_
      · have hself := hs.inside m hm
        simp only [openedUpTo, Nat.lt_irrefl, if_false] at hself
        simp [opening, hself, Phase.next, hstatus]
      · intro i _ hne phase isOpen failed hi
        simpa [opening, openedUpTo, hne] using hi
    · rcases hs with hlost | hs
      · exact hlost.logged.verdict
      · have hself := hs.inside m hm
        simp only [openedUpTo, Nat.lt_irrefl, if_false] at hself
        by_cases hzero : m = 0
        · subst hzero
          refine At.verdict (n := n) (F := fun _ phase _ _ => phase = .refused ∨ phase = .fresh)
            (.inr (hs.logged_on rfl hm (fun hf => hf.1 rfl) ?_ ?_)) ?_
          · simp [hself, Phase.next, hstatus]
          · intro i _ hne phase isOpen failed hi
            exact .inr (by simpa [openedUpTo] using hi)
          · rintro i _ phase _ _ (rfl | rfl)
            · exact .inr (.inl rfl)
            · exact .inl rfl
        · have hfirst := hs.inside 0 (by omega)
          simp only [openedUpTo, Nat.pos_of_ne_zero hzero, if_true] at hfirst
          refine verdict_of_breach (i := 0) (breach_snoc.2 (.inr ⟨hzero, hstatus⟩)) ?_
          rw [logged_log, phaseOf_snoc, if_neg (by simpa [Call.sink] using hzero), hfirst.1]
          simp [Phase.IsOver]
  refine hcount.bind fun _ => hopen.bind fun _ => setPipe_triple fun s hs => ?_
  refine hs.imp_right fun hs => ⟨hs.sound, fun i hi => ?_, hs.outside⟩
  have hat := hs.inside i hi
  simp only [opening] at hat
  simp only [openedUpTo, withPipe_log, withPipe_pipe, Function.update_apply]
  split at hat
  · next hlt => simp [Nat.lt_succ_of_lt hlt, Nat.ne_of_lt hlt, hat]
  · next hge =>
    split at hat
    · next heq =>
      subst heq
      simp [hat]
    · next hne => simp [show ¬ i < m + 1 by omega, hat]

theorem openSinks_protocol :
    Triple (At p.sinks.length (openedUpTo 0)) (openSinks e p)
      (fun _ => At p.sinks.length (openedUpTo p.sinks.length)) (fun _ => Verdict) :=
  .forEach (fun m => At p.sinks.length (openedUpTo m)) fun _ sink hm =>
    openSink_protocol (List.getElem?_eq_some_iff.1 hm).1 sink

end Opening

/-! ## Tracks -/

/-- The sink can be finalized. -/
def wound : Stage := fun _ phase isOpen _ => isOpen = true ∧ (phase = .opened ∨ phase = .closing)

/-- The sink takes another track, unless a `track_end` of it has failed. -/
def between : Stage := fun _ phase isOpen failed =>
  isOpen = true ∧ (phase = .opened ∨ phase = .closing ∧ failed)

/-- The track has been started on the sinks before the place. -/
def startedUpTo (k m : Nat) : Stage := fun i phase isOpen failed =>
  isOpen = true ∧ if i < m then phase = .inTrack k else phase = .opened ∨ phase = .closing ∧ failed

/-- The track goes on, or ends with the code of a failed `write_frame`. -/
def inTracks (k : Nat) (code : Int) : Stage := fun _ phase isOpen _ =>
  isOpen = true ∧ (phase = .inTrack k ∨ phase = .ending k ∧ code ≠ ok)

/-- The track has been ended on the sinks before the place. -/
def endedUpTo (k : Nat) (code : Int) (m : Nat) : Stage := fun i phase isOpen failed =>
  isOpen = true ∧ if i < m then phase = .opened ∨ phase = .closing ∧ (failed ∨ code ≠ ok)
    else phase = .inTrack k ∨ phase = .ending k ∧ code ≠ ok

/-- A sink still has its track open after a fault, and the run does not end it. -/
def Doomed (n : Nat) (s : Run α) : Prop :=
  s.Lost ∨ Breach s.log ∧ ∃ i < n, s.pipe.isOpen i = true ∧ ∃ k, phaseOf i s.log = .inTrack k

/-- What an error of a track leaves for the end of the run. -/
def Unwound (n : Nat) (s : Run α) : Prop := s.At n wound ∨ Doomed n s

theorem not_fault_trackStart {i k track : Nat} {log : List (Call α × Int)} {status : Int}
    (hphase : phaseOf i log = .opened) (h : i = 0 ∨ status = ok) :
    ¬ Fault log (.trackStart i k track, status) := by
  rintro (⟨hne, hstatus⟩ | hfailed)
  · exact h.elim hne hstatus
  · have hlate := isLate_of_endFailed hfailed
    rw [hphase] at hlate
    cases hlate

section Tracks

variable {e : Env α} {p : Pipe} {n k track : Nat}

theorem startSink_protocol {m : Nat} (hm : m < n) (sink : Sink) :
    Triple (At n (startedUpTo k m)) (startSink e k track sink m)
      (fun _ => At n (startedUpTo k (m + 1))) (fun _ => Unwound n) := by
  have hclose : Triple (At n (startedUpTo k m)) (Program.when (sink.type.opensTracks = true)
      (closeFile e m (.trackStart k) : Program Int (Run α) Unit))
      (fun _ => At n (startedUpTo k m)) (fun _ => Unwound n) :=
    .when (fun _ => closeFile_at) fun _ _ hs => hs
  have hself : ∀ s : Run α, s.Sound n (startedUpTo k m) → s.pipe.isOpen m = true ∧
      (phaseOf m s.log = .opened ∨ phaseOf m s.log = .closing ∧ EndFailed m s.log) := by
    intro s hs
    simpa [startedUpTo] using hs.inside m hm
  have hlost : ∀ (s : Run α) status, phaseOf m s.log = .closing → EndFailed m s.log →
      (s.logged (.trackStart m k track) status).Lost := by
    intro s status hphase hfailed
    refine ⟨breach_snoc.2 (.inr (.inr hfailed)), m, ?_⟩
    rw [logged_log, phaseOf_snoc, if_pos (by rfl), hphase]
    rfl
  have hstart : Triple (At n (startedUpTo k m)) (attempt e (.trackStart m k track) id)
      (fun _ => At n (startedUpTo k (m + 1))) (fun _ => Unwound n) := by
    refine demand_triple (fun s hs hstatus => ?_) fun s hs hstatus => ?_
    · rcases hs with hs | hs
      · exact .inl hs.logged
      · obtain ⟨hopen, hphase | ⟨hphase, hfailed⟩⟩ := hself s hs
        · refine .inr (hs.logged_on rfl hm (not_fault_trackStart hphase (.inr hstatus)) ?_ ?_)
          · simp [startedUpTo, hphase, Phase.next, hstatus, hopen]
          · intro i _ hne phase isOpen failed hi
            simpa only [startedUpTo, show i < m + 1 ↔ i < m by omega] using hi
        · exact .inl (hlost s _ hphase hfailed)
    · rcases hs with hs | hs
      · exact .inl (.inl hs.logged)
      · obtain ⟨hopen, hphase | ⟨hphase, hfailed⟩⟩ := hself s hs
        · by_cases hzero : m = 0
          · subst hzero
            refine .inl (.inr (hs.logged_on rfl hm (not_fault_trackStart hphase (.inl rfl)) ?_ ?_))
            · simp [wound, hphase, Phase.next, hstatus, hopen]
            · intro i _ _ phase isOpen failed hi
              simp only [startedUpTo, Nat.not_lt_zero, if_false] at hi
              exact ⟨hi.1, hi.2.imp_right And.left⟩
          · have hfirst := hs.inside 0 (by omega)
            simp only [startedUpTo, Nat.pos_of_ne_zero hzero, if_true] at hfirst
            refine .inr (.inr ⟨breach_snoc.2 (.inr (.inl ⟨hzero, hstatus⟩)), 0, by omega,
              hfirst.1, k, ?_⟩)
            rw [logged_log, phaseOf_snoc, if_neg (by simpa [Call.sink] using hzero)]
            exact hfirst.2
        · exact .inl (.inl (hlost s _ hphase hfailed))
  exact hclose.bind fun _ => hstart.bind fun _ => setPipe_at fun _ => rfl

theorem startSinks_protocol :
    Triple (At p.sinks.length between) (forEach p.sinks (startSink e k track))
      (fun _ => At p.sinks.length (inTracks k ok)) (fun _ => Unwound p.sinks.length) := by
  have hloop := Triple.forEach (l := p.sinks) (f := startSink e k track)
    (fun m => At p.sinks.length (startedUpTo k m)) (E := fun _ => Unwound p.sinks.length)
    fun _ sink hm => startSink_protocol (List.getElem?_eq_some_iff.1 hm).1 sink
  refine hloop.conseq (fun s hs => ?_) (fun _ s hs => ?_) fun _ _ => id
  · refine hs.mono fun i _ phase isOpen failed hi => ?_
    simpa only [startedUpTo, between, Nat.not_lt_zero, if_false] using hi
  · refine hs.mono fun i hi phase isOpen failed hat => ?_
    simp only [startedUpTo, hi, if_true] at hat
    exact ⟨hat.1, .inl hat.2⟩

/-! ## Batches -/

/-- What a way out of the batch loop leaves. -/
def Exit.Leaves (n k : Nat) : Exit → Run α → Prop
  | .returned _, s => Unwound n s
  | .cleanup code, s => s.At n (inTracks k code)

theorem inTracks_mono {s : Run α} (h : s.At n (inTracks k ok)) (code : Int) :
    s.At n (inTracks k code) :=
  h.mono fun _ _ _ _ _ hi => ⟨hi.1, hi.2.imp_right fun hend => absurd rfl hend.2⟩

theorem inTrack_of_ok {s : Run α} (h : s.Sound n (inTracks k ok)) {i : Nat} (hi : i < n) :
    s.pipe.isOpen i = true ∧ phaseOf i s.log = .inTrack k :=
  (h.inside i hi).imp_right fun hphase => hphase.resolve_right fun hend => hend.2 rfl

/-- A fault on no sink while the sinks are in a track. -/
theorem doomed_logged {s : Run α} (h : s.At n (inTracks k ok)) (hn : 0 < n) {c : Call α}
    (hc : c.sink = none) {status : Int} (hfault : ∀ before, Fault before (c, status)) :
    Unwound n (s.logged c status) := by
  rcases h with hs | hs
  · exact .inl (.inl hs.logged)
  · obtain ⟨hopen, hphase⟩ := inTrack_of_ok hs hn
    refine .inr (.inr ⟨breach_snoc.2 (.inr (hfault _)), 0, hn, hopen, k, ?_⟩)
    rw [logged_log, phaseOf_snoc, hc, if_neg (by simp), hphase]

variable {b j : Nat}

theorem writeToSinks_protocol {buffer : Buffer α} :
    Triple (At p.sinks.length (inTracks k ok)) (writeToSinks e p k b buffer j)
      (fun _ => At p.sinks.length (inTracks k ok)) (Exit.Leaves p.sinks.length k) := by
  refine .forEach (fun _ => At p.sinks.length (inTracks k ok)) fun m sink hm => ?_
  have hlt := (List.getElem?_eq_some_iff.1 hm).1
  refine .when (fun _ => demand_triple ?_ ?_) fun _ _ hs => hs
  · intro s hs hstatus
    refine hs.imp Lost.logged fun hs => hs.logged_on rfl hlt id ?_ fun _ _ _ _ _ _ => id
    obtain ⟨hopen, hphase⟩ := inTrack_of_ok hs hlt
    simp [inTracks, hopen, hphase, Phase.next, hstatus]
  · intro s hs hstatus
    refine hs.imp Lost.logged fun hs => hs.logged_on rfl hlt id ?_ ?_
    · obtain ⟨hopen, hphase⟩ := inTrack_of_ok hs hlt
      simp [inTracks, hopen, hphase, Phase.next, hstatus, show errorWrite ≠ ok by decide]
    · intro i _ _ phase isOpen failed hi
      exact ⟨hi.1, hi.2.imp_right fun hend => absurd rfl hend.2⟩

/-- A demanded call on no sink that sends a failure to the cleanup. -/
theorem demand_leaves {c : Call α} {status : Int} {exit : Int → Int} (hc : c.sink = none)
    (hfault : ∀ before, ¬ Fault before (c, status)) :
    Triple (At n (inTracks k ok)) (demand c status fun st => Exit.cleanup (exit st))
      (fun _ => At n (inTracks k ok)) (Exit.Leaves n k) :=
  demand_at hc hfault fun _ _ hs => inTracks_mono hs _

theorem decodeBatch_protocol (hn : 0 < n) {buffers : List (Buffer α)} :
    Triple (At n (inTracks k ok)) (decodeBatch e p k b buffers)
      (fun _ => At n (inTracks k ok)) (Exit.Leaves n k) := by
  unfold decodeBatch
  cases p.decoderInUse with
  | none => exact .pure fun _ hs => hs
  | some decoder =>
    refine (Triple.forEach (fun _ => At n (inTracks k ok)) fun j _ _ => ?_).bind fun _ => ?_
    · refine demand_triple (fun s hs hstatus => ?_) fun s hs hstatus => ?_
      · exact hs.logged_off rfl fun hfault => hfault hstatus
      · exact doomed_logged hs hn rfl fun _ => hstatus
    · exact (demand_leaves rfl fun _ => id).bind fun _ => .pure fun _ hs => hs

theorem convertBatch_protocol {buffers : List (Buffer α)} :
    Triple (At p.sinks.length (inTracks k ok)) (convertBatch e p k b buffers)
      (fun _ => At p.sinks.length (inTracks k ok)) (Exit.Leaves p.sinks.length k) := by
  unfold convertBatch
  cases p.converterInUse with
  | none => exact .pure fun _ hs => hs
  | some converter =>
    refine (Triple.forEach (fun _ => At p.sinks.length (inTracks k ok))
      fun _ _ _ => demand_leaves rfl fun _ => id).bind fun _ => ?_
    refine (demand_leaves rfl fun _ => id).bind fun _ => ?_
    exact .forEach (fun _ => At p.sinks.length (inTracks k ok)) fun _ _ _ => writeToSinks_protocol

theorem reportProgress_protocol :
    Triple (At n (inTracks k ok)) (reportProgress e k b) (fun _ => At n (inTracks k ok))
      (Exit.Leaves n k) := by
  refine (record_at rfl fun _ => id).bind fun _ => .when (fun _ => ?_) fun _ _ hs => hs
  refine (setPipe_at (by intro; rfl)).bind fun _ => .fail fun s hs => ?_
  exact inTracks_mono hs errorCancelled

theorem processBatch_protocol (hn : 0 < p.sinks.length) {buffers : List (Buffer α)} :
    Triple (At p.sinks.length (inTracks k ok)) (processBatch e p k b buffers)
      (fun _ => At p.sinks.length (inTracks k ok)) (Exit.Leaves p.sinks.length k) := by
  refine (decodeBatch_protocol hn).bind fun outputs => ?_
  have hwrite : Triple (At p.sinks.length (inTracks k ok)) (forEach outputs (writeToSinks e p k b))
      (fun _ => At p.sinks.length (inTracks k ok)) (Exit.Leaves p.sinks.length k) :=
    .forEach (fun _ => At p.sinks.length (inTracks k ok)) fun _ _ _ => writeToSinks_protocol
  refine (Triple.when (fun _ => hwrite) fun _ _ hs => hs).bind fun _ => ?_
  exact convertBatch_protocol.bind fun _ => reportProgress_protocol

theorem pollTurn_protocol :
    Triple (At n (inTracks k ok)) (pollTurn e k b) (fun _ => At n (inTracks k ok))
      (Exit.Leaves n k) :=
  poll_at.bind fun _ => .require (fun _ hs _ => hs) fun _ hs _ => hs

theorem batchLoop_protocol (hn : 0 < p.sinks.length) {feed : Feed α} :
    Triple (At p.sinks.length (inTracks k ok)) (batchLoop e p k b feed)
      (fun _ => At p.sinks.length (inTracks k ok)) (Exit.Leaves p.sinks.length k) := by
  induction feed generalizing b with
  | batch first others rest ih =>
    exact pollTurn_protocol.bind fun _ => (processBatch_protocol hn).bind fun _ => ih
  | lastBatch first others => exact pollTurn_protocol.bind fun _ => processBatch_protocol hn
  | endBatch frames => exact pollTurn_protocol.bind fun _ => processBatch_protocol hn
  | ended status => exact pollTurn_protocol.bind fun _ => demand_leaves rfl fun _ => id
  | refused status => exact pollTurn_protocol.bind fun _ => demand_leaves rfl fun _ => id

/-! ## The end of a track -/

theorem endSink_protocol {code : Int} {m : Nat} (hm : m < n) (sink : Sink) :
    Triple (At n (endedUpTo k code m)) (endSink e k track sink m)
      (fun _ => At n (endedUpTo k code (m + 1))) (fun _ => Unwound n) := by
  have hclose : Triple (At n (endedUpTo k code m)) (Program.when (sink.type.opensTracks = true)
      (closeFile e m (.trackEnd k) : Program Int (Run α) Unit))
      (fun _ => At n (endedUpTo k code m)) (fun _ => Unwound n) :=
    .when (fun _ => closeFile_at) fun _ _ hs => hs
  refine hclose.bind fun _ => record_triple fun s hs => ?_
  refine hs.imp Lost.logged fun hs => hs.logged_on rfl hm id ?_ ?_
  · have hself := hs.inside m hm
    simp only [endedUpTo, Nat.lt_irrefl, if_false] at hself
    obtain ⟨hopen, hphase | ⟨hphase, hcode⟩⟩ := hself
    · refine ⟨hopen, ?_⟩
      rw [if_pos (Nat.lt_succ_self m), hphase]
      by_cases hstatus : e.answer (.trackEnd m k track) = ok
      · exact .inl (by simp [Phase.next, hstatus])
      · refine .inr ⟨by simp [Phase.next, hstatus], .inl ⟨k, track, _, ?_, hstatus⟩⟩
        exact List.mem_append_right _ (List.mem_singleton.2 rfl)
    · refine ⟨hopen, ?_⟩
      rw [if_pos (Nat.lt_succ_self m), hphase]
      exact .inr ⟨by simp [Phase.next], .inr hcode⟩
  · intro i _ hne phase isOpen failed hi
    simpa only [endedUpTo, show i < m + 1 ↔ i < m by omega] using hi

theorem cleanup_protocol {code : Int} :
    Triple (At p.sinks.length (inTracks k code)) (cleanup e p k track code)
      (fun _ => At p.sinks.length between) (fun _ => Unwound p.sinks.length) := by
  have hloop := Triple.forEach (l := p.sinks) (f := endSink e k track)
    (fun m => At p.sinks.length (endedUpTo k code m)) (E := fun _ => Unwound p.sinks.length)
    fun _ sink hm => endSink_protocol (List.getElem?_eq_some_iff.1 hm).1 sink
  have hend : Triple (At p.sinks.length (inTracks k code)) (forEach p.sinks (endSink e k track))
      (fun _ => At p.sinks.length (endedUpTo k code p.sinks.length))
      (fun _ => Unwound p.sinks.length) := by
    refine hloop.weaken fun s hs => hs.mono fun i _ phase isOpen failed hi => ?_
    simpa only [endedUpTo, inTracks, Nat.not_lt_zero, if_false] using hi
  have hwound : ∀ s : Run α, s.At p.sinks.length (endedUpTo k code p.sinks.length) →
      Unwound p.sinks.length s := by
    refine fun s hs => .inl (hs.mono fun i hi phase isOpen failed hat => ?_)
    simp only [endedUpTo, hi, if_true] at hat
    exact ⟨hat.1, hat.2.imp_right And.left⟩
  refine poll_at.bind fun _ => hend.bind fun _ => poll_at.bind fun _ => ?_
  refine .requireThen (fun _ => ?_) fun _ s hs => hwound s hs
  refine .require (fun s hs hcode => ?_) fun s hs _ => hwound s hs
  refine hs.mono fun i hi phase isOpen failed hat => ?_
  simp only [endedUpTo, hi, if_true] at hat
  exact ⟨hat.1, hat.2.imp_right fun hclosing =>
    ⟨hclosing.1, hclosing.2.resolve_right fun hne => hne hcode⟩⟩

theorem processTrack_protocol (hn : 0 < p.sinks.length) :
    Triple (At p.sinks.length between) (processTrack e p track k)
      (fun _ => At p.sinks.length between) (fun _ => Unwound p.sinks.length) := by
  refine (record_at rfl fun _ => id).bind fun _ => (record_at rfl fun _ => id).bind fun _ => ?_
  have hget : ∀ (c : Call α) (exit : Int → Int), c.sink = none →
      (∀ before st, Fault before (c, st) ↔ st ≠ ok) →
      Triple (At p.sinks.length (inTracks k ok)) (attempt e c exit)
        (fun _ => At p.sinks.length (inTracks k ok)) (fun _ => Unwound p.sinks.length) := by
    intro c exit hc hfault
    refine demand_triple (fun s hs hstatus => ?_) fun s hs hstatus => ?_
    · exact hs.logged_off hc fun hf => (hfault _ _).1 hf hstatus
    · exact doomed_logged hs hn hc fun _ => (hfault _ _).2 hstatus
  refine startSinks_protocol.bind fun _ => ?_
  refine (hget _ _ rfl fun _ _ => Iff.rfl).bind fun _ => ?_
  refine (hget _ _ rfl fun _ _ => Iff.rfl).bind fun _ => ?_
  refine (hget _ _ rfl fun _ _ => Iff.rfl).bind fun _ => ?_
  have hloop : Triple (At p.sinks.length (inTracks k ok))
      (settle ok Exit.settled (batchLoop e p k 0 (e.feed k)))
      (fun code => At p.sinks.length (inTracks k code)) (fun _ => Unwound p.sinks.length) := by
    refine (batchLoop_protocol hn).settle (fun s hs => hs) ?_ ?_
    · rintro (code | code) s _ hs ⟨⟩
      exact hs
    · rintro (code | code) s _ hs ⟨⟩
      exact hs
  exact hloop.bind fun code => cleanup_protocol

end Tracks

/-! ## The end of a run -/

/-- The sinks before the place are finalized. -/
def finalizedUpTo (m : Nat) : Stage := fun i phase isOpen _ =>
  isOpen = true ∧ if i < m then phase = .finalized else phase = .opened ∨ phase = .closing

/-- The sinks before the place are closed. -/
def closedUpTo (m : Nat) : Stage := fun i phase isOpen _ =>
  if i < m then phase = .closed else phase = .finalized ∧ isOpen = true

section Finish

variable {e : Env α} {p : Pipe} {n : Nat} {E : Int → Run α → Prop}

theorem record_lost {c : Call α} {status : Int} :
    Triple Lost (record c status) (fun _ => Lost) E := record_triple fun _ hs => hs.logged

theorem closeFile_lost {i : Nat} {occasion : Occasion} :
    Triple Lost (closeFile e i occasion) (fun _ => Lost) E := by
  refine .inspect fun t ht => .when (fun _ => ?_) fun _ s hs => hs ▸ ht
  refine Triple.weaken ?_ fun s hs => hs ▸ ht
  exact record_lost.bind fun _ => record_lost.bind fun _ => setPipe_triple fun _ hs => hs

theorem finalizeSink_lost {i : Nat} : Triple Lost (finalizeSink e i) (fun _ => Lost) E := by
  refine .inspect fun t ht => .when (fun _ => ?_) fun _ s hs => hs ▸ ht
  exact (closeFile_lost.weaken fun s hs => hs ▸ ht).bind fun _ => record_lost

theorem closeSink_lost {i : Nat} : Triple Lost (closeSink e i) (fun _ => Lost) E := by
  refine .inspect fun t ht => .when (fun _ => ?_) fun _ s hs => hs ▸ ht
  refine (closeFile_lost.weaken fun s hs => hs ▸ ht).bind fun _ => record_lost.bind fun _ => ?_
  exact setPipe_triple fun _ hs => hs

theorem finalizeSink_protocol {m : Nat} (hm : m < n) :
    Triple (At n (finalizedUpTo m)) (finalizeSink e m) (fun _ => At n (finalizedUpTo (m + 1))) E := by
  refine .inspect fun t ht => .when (fun _ => ?_) fun hclosed s hs => ?_
  · refine (closeFile_at.weaken fun s hs => hs ▸ ht).bind fun _ => record_triple fun s hs => ?_
    refine hs.imp Lost.logged fun hs => hs.logged_on rfl hm id ?_ ?_
    · have hself := hs.inside m hm
      simp only [finalizedUpTo, Nat.lt_irrefl, if_false] at hself
      obtain ⟨hopen, hphase | hphase⟩ := hself <;>
        simp [finalizedUpTo, hopen, hphase, Phase.next]
    · intro i _ hne phase isOpen failed hi
      simpa only [finalizedUpTo, show i < m + 1 ↔ i < m by omega] using hi
  · subst hs
    exact ht.elim .inl fun hs => absurd (hs.inside m hm).1 hclosed

theorem closeSink_protocol {m : Nat} (hm : m < n) :
    Triple (At n (closedUpTo m)) (closeSink e m) (fun _ => At n (closedUpTo (m + 1))) E := by
  refine .inspect fun t ht => .when (fun _ => ?_) fun hclosed s hs => ?_
  · have hclose : Triple (At n (closedUpTo m)) (record (.closeSink m) ok : Program Int (Run α) Unit)
        (fun _ => At n fun i phase isOpen _ => if i < m + 1 then phase = .closed
          else phase = .finalized ∧ isOpen = true) E := by
      refine record_triple fun s hs => hs.imp Lost.logged fun hs => hs.logged_on rfl hm id ?_ ?_
      · have hself := hs.inside m hm
        simp only [closedUpTo, Nat.lt_irrefl, if_false] at hself
        simp [hself, Phase.next]
      · intro i _ hne phase isOpen failed hi
        simpa only [closedUpTo, show i < m + 1 ↔ i < m by omega] using hi
    refine (closeFile_at.weaken fun s hs => hs ▸ ht).bind fun _ => hclose.bind fun _ => ?_
    refine setPipe_triple fun s hs => hs.imp_right fun hs => ⟨hs.sound, fun i hi => ?_, hs.outside⟩
    have hat := hs.inside i hi
    simp only [closedUpTo, withPipe_log, withPipe_pipe, Function.update_apply]
    split at hat
    · next hlt => simp [hlt, hat]
    · next hge => simp [show ¬ i < m + 1 by omega, show i ≠ m by omega, hat]
  · subst hs
    refine ht.elim .inl fun hs => absurd ?_ hclosed
    have hself := hs.inside m hm
    simp only [closedUpTo, Nat.lt_irrefl, if_false] at hself
    exact hself.2

/-- A sink at or behind the place has its track open after a fault. -/
def DoomedFrom (n m : Nat) (s : Run α) : Prop :=
  s.Lost ∨ Breach s.log ∧ ∃ i, m ≤ i ∧ i < n ∧ s.pipe.isOpen i = true ∧
    ∃ k, phaseOf i s.log = .inTrack k

theorem DoomedFrom.logged_off {m : Nat} {s : Run α} (h : DoomedFrom n m s) {c : Call α}
    {status : Int} (hc : c.sink = none) : DoomedFrom n m (s.logged c status) := by
  refine h.imp Lost.logged fun ⟨hbreach, i, hm, hi, hopen, k, hphase⟩ =>
    ⟨breach_snoc.2 (.inl hbreach), i, hm, hi, hopen, k, ?_⟩
  rw [logged_log, phaseOf_snoc, hc, if_neg (by simp), hphase]

theorem finalizeSink_doomed {m : Nat} :
    Triple (DoomedFrom n m) (finalizeSink e m) (fun _ => DoomedFrom n (m + 1)) E := by
  have hclose : Triple (DoomedFrom n m) (closeFile e m .finalize : Program Int (Run α) Unit)
      (fun _ => DoomedFrom n m) E := by
    have hrecord : ∀ (c : Call α) status, c.sink = none → Triple (DoomedFrom n m)
        (record c status : Program Int (Run α) Unit) (fun _ => DoomedFrom n m) E :=
      fun c status hc => record_triple fun s hs => hs.logged_off hc
    refine .inspect fun t ht => .when (fun _ => ?_) fun _ s hs => hs ▸ ht
    refine Triple.weaken ?_ fun s hs => hs ▸ ht
    refine (hrecord _ _ rfl).bind fun _ => (hrecord _ _ rfl).bind fun _ => ?_
    exact setPipe_triple fun _ hs => hs
  refine .inspect fun t ht => .when (fun _ => ?_) fun hclosed s hs => ?_
  · have hstart : Triple (fun s => s = t) (closeFile e m .finalize : Program Int (Run α) Unit)
        (fun _ => DoomedFrom n m) E := hclose.weaken fun s hs => hs ▸ ht
    refine hstart.bind fun _ => record_triple fun s hs => ?_
    rcases hs with hs | ⟨hbreach, i, hm, hi, hopen, k, hphase⟩
    · exact .inl hs.logged
    · by_cases hmi : m = i
      · subst hmi
        refine .inl ⟨breach_snoc.2 (.inl hbreach), m, ?_⟩
        rw [logged_log, phaseOf_snoc, if_pos (by rfl), hphase]
        rfl
      · refine .inr ⟨breach_snoc.2 (.inl hbreach), i, by omega, hi, hopen, k, ?_⟩
        rw [logged_log, phaseOf_snoc, if_neg (by simpa [Call.sink] using hmi), hphase]
  · subst hs
    refine ht.imp_right fun ⟨hbreach, i, hm, hi, hopen, hphase⟩ =>
      ⟨hbreach, i, ?_, hi, hopen, hphase⟩
    have hne : m ≠ i := by
      rintro rfl
      exact hclosed hopen
    omega

/-- However the tracks have ended, the sinks are finalized, or one of them is lost. -/
theorem finalizeSinks_protocol :
    Triple (Unwound p.sinks.length) (forEach p.sinks fun _ i => finalizeSink e i)
      (fun _ => At p.sinks.length (closedUpTo 0)) E := by
  have hfinalize := Triple.forEach (l := p.sinks) (f := fun _ i => finalizeSink e i)
    (fun m => At p.sinks.length (finalizedUpTo m)) (E := E)
    fun _ _ hm => finalizeSink_protocol (List.getElem?_eq_some_iff.1 hm).1
  have hdoomed := Triple.forEach (l := p.sinks) (f := fun _ i => finalizeSink e i)
    (fun m => DoomedFrom p.sinks.length m) (E := E) fun _ _ _ => finalizeSink_doomed
  refine Triple.or ?_ ?_
  · refine hfinalize.conseq (fun s hs => ?_) (fun _ s hs => ?_) fun _ _ => id
    · refine hs.mono fun i _ phase isOpen failed hat => ?_
      simpa only [finalizedUpTo, wound, Nat.not_lt_zero, if_false] using hat
    · refine hs.mono fun i hi phase isOpen failed hat => ?_
      simp only [finalizedUpTo, hi, if_true] at hat
      exact ⟨hat.2, hat.1⟩
  · refine hdoomed.conseq (fun s hs => ?_) (fun _ s hs => ?_) fun _ _ => id
    · exact hs.imp_right fun ⟨hbreach, i, hi, hopen, hphase⟩ =>
        ⟨hbreach, i, Nat.zero_le i, hi, hopen, hphase⟩
    · exact .inl (hs.resolve_right fun ⟨_, i, hge, hlt, _⟩ => absurd hlt (Nat.not_lt.2 hge))

theorem closeSinks_protocol :
    Triple (At p.sinks.length (closedUpTo 0)) (forEach p.sinks fun _ i => closeSink e i)
      (fun _ => Verdict) E := by
  have hclose := Triple.forEach (l := p.sinks) (f := fun _ i => closeSink e i)
    (fun m => At p.sinks.length (closedUpTo m)) (E := E)
    fun _ _ hm => closeSink_protocol (List.getElem?_eq_some_iff.1 hm).1
  refine hclose.conseq (fun _ => id) (fun _ s hs => ?_) fun _ _ => id
  refine hs.verdict fun i hi phase isOpen failed hat => ?_
  simp only [closedUpTo, hi, if_true] at hat
  exact .inr (.inr hat)

theorem runPrepared_protocol (hn : 0 < p.sinks.length) :
    Triple (At p.sinks.length (openedUpTo 0)) (runPrepared e p) (fun _ => Verdict)
      (fun _ => Verdict) := by
  refine (record_at rfl fun _ => id).bind fun _ => openSinks_protocol.bind fun _ => ?_
  refine (setPipe_at (by intro; rfl)).bind fun _ => ?_
  have htracks : Triple (At p.sinks.length (openedUpTo p.sinks.length))
      (settle ok .ok (forEach p.tracks (processTrack e p)))
      (fun _ => Unwound p.sinks.length) (fun (_ : Int) => Verdict) := by
    have hloop := Triple.forEach (l := p.tracks) (f := processTrack e p)
      (fun _ => At p.sinks.length between) (E := fun _ => Unwound p.sinks.length)
      fun k track _ => processTrack_protocol hn
    have hsettled : Triple (At p.sinks.length between)
        (settle ok .ok (forEach p.tracks (processTrack e p)))
        (fun _ => Unwound p.sinks.length) (fun (_ : Int) => Verdict) := by
      refine hloop.settle (fun s hs => .inl (hs.mono ?_)) (fun _ _ _ hs _ => hs) ?_
      · exact fun i _ phase isOpen failed hat => ⟨hat.1, hat.2.imp_right And.left⟩
      · rintro _ _ _ _ ⟨⟩
    refine hsettled.weaken fun s hs => hs.mono fun i hi phase isOpen failed hat => ?_
    simp only [openedUpTo, hi, if_true] at hat
    exact ⟨hat.2, .inl hat.1⟩
  refine htracks.bind fun code => finalizeSinks_protocol.bind fun _ => ?_
  refine closeSinks_protocol.bind fun _ => ?_
  refine (setPipe_triple (Q := fun _ => Verdict) fun s hs => hs).bind fun _ => ?_
  exact .require (fun _ hs _ => hs) fun _ hs _ => hs

end Finish

/-! ## Before the sinks -/

/-- No call on a sink so far, and no fault. -/
def Untouched (s : Run α) : Prop := (∀ i, phaseOf i s.log = .fresh) ∧ ¬ Breach s.log

section Prepare

variable {e : Env α} {p : Pipe}

theorem Untouched.verdict {s : Run α} (h : Untouched s) : Verdict s :=
  ⟨fun _ => h.2, fun _ i => .inl (h.1 i)⟩

theorem Untouched.logged {s : Run α} (h : Untouched s) {c : Call α} {status : Int}
    (hc : c.sink = none) (hfault : ¬ Fault s.log (c, status)) : Untouched (s.logged c status) := by
  constructor
  · intro i
    rw [logged_log, phaseOf_snoc, hc, if_neg (by simp), h.1 i]
  · rw [logged_log, breach_snoc]
    exact not_or.2 ⟨h.2, hfault⟩

/-- The sinks are there and untouched. -/
def Idle (s : Run α) : Prop := Untouched s ∧ s.pipe.sinks ≠ []

theorem demand_idle {c : Call α} {status : Int} {exit : Int → Int} (hc : c.sink = none)
    (hfault : ∀ before, ¬ Fault before (c, status)) :
    Triple Idle (demand c status exit) (fun _ => Idle) (fun _ => Verdict) :=
  demand_triple (fun _ hs _ => ⟨hs.1.logged hc (hfault _), hs.2⟩)
    fun _ hs _ => (hs.1.logged hc (hfault _)).verdict

theorem setPipe_idle {f : Pipe → Pipe} (hf : ∀ p, (f p).sinks = p.sinks) {E : Int → Run α → Prop} :
    Triple Idle (setPipe f) (fun _ => Idle) E :=
  setPipe_triple fun s hs => ⟨hs.1, fun h => hs.2 ((hf s.pipe).symm.trans h)⟩

theorem selectAllTracks_idle :
    Triple Idle (selectAllTracks e) (fun _ => Idle) (fun _ => Verdict) := by
  refine (demand_idle rfl fun _ => id).bind fun _ => (setPipe_idle (by intro; rfl)).bind fun _ => ?_
  refine (Triple.forEach (fun _ => Idle) fun _ _ _ => ?_).bind fun _ => ?_
  · exact (demand_idle rfl fun _ => id).bind fun _ => setPipe_idle (by intro; rfl)
  · exact .require (fun _ hs _ => hs) fun _ hs _ => hs.1.verdict

theorem setupTransforms_idle :
    Triple Idle (setupTransforms e p) (fun _ => Idle) (fun _ => Verdict) := by
  have hdecoder : Triple Idle (setupDecoder e p.sourceFormat) (fun _ => Idle) (fun _ => Verdict) :=
    (demand_idle rfl fun _ => id).bind fun _ => (setPipe_idle (by intro; rfl)).bind fun _ =>
      (demand_idle rfl fun _ => id).bind fun _ => setPipe_idle (by intro; rfl)
  have hconverter : Triple Idle (setupConverter e p p.dsdFormat) (fun _ => Idle)
      (fun _ => Verdict) :=
    (demand_idle rfl fun _ => id).bind fun _ => (setPipe_idle (by intro; rfl)).bind fun _ =>
      (demand_idle rfl fun _ => id).bind fun _ => setPipe_idle (by intro; rfl)
  exact (Triple.when (fun _ => hdecoder) fun _ _ hs => hs).bind fun _ =>
    .when (fun _ => hconverter) fun _ _ hs => hs

theorem prepare_idle :
    Triple (fun s => s = ⟨p, []⟩) (prepare e) (fun _ => Idle) (fun _ => Verdict) := by
  have hstart : Untouched (⟨p, []⟩ : Run α) := by
    refine ⟨fun _ => rfl, ?_⟩
    rintro ⟨before, c, after, heq, _⟩
    simp at heq
  refine .inspect fun t ht => ?_
  subst ht
  refine .requireThen (fun _ => ?_) fun _ s hs => hs ▸ hstart.verdict
  refine .requireThen (fun hsinks => ?_) fun _ s hs => hs ▸ hstart.verdict
  refine .requireThen (fun _ => ?_) fun _ s hs => hs ▸ hstart.verdict
  refine Triple.weaken ?_ fun s (hs : s = ⟨p, []⟩) => (hs ▸ ⟨hstart, hsinks⟩ : Idle s)
  refine (Triple.when (fun _ => selectAllTracks_idle) fun _ _ hs => hs).bind fun _ => ?_
  have hpools : Triple Idle (initPools e) (fun _ => Idle) (fun _ => Verdict) := by
    refine .inspect fun t ht => .when (fun _ => ?_) fun _ s hs => hs ▸ ht
    refine Triple.weaken ?_ fun s hs => hs ▸ ht
    exact (demand_idle rfl fun _ => id).bind fun _ => setPipe_idle (by intro; rfl)
  refine hpools.bind fun _ => (setPipe_triple (Q := fun _ => Idle) fun s hs => ?_).bind fun _ => ?_
  · exact ⟨hs.1, fun h => hs.2 (List.map_eq_nil_iff.1 h)⟩
  · exact .inspect fun t ht => setupTransforms_idle.weaken fun s hs => hs ▸ ht

end Prepare

/-- Every sink sees the calls of the protocol, exactly when no call of the run is a fault:
no sink but the first fails to open or to start a track, the frame queue, the reader and
the output buffers can be had, and no `track_end` fails before another track. -/
theorem sinks_obey_protocol_iff (p : Pipe) (e : Env α) :
    (∀ i, Obeyed i (p.calls e)) ↔ ¬ Breach (p.calls e) := by
  have hrun : Triple (fun s => s = ⟨p, []⟩) (dsdpipeRun e) (fun _ => Verdict)
      (fun _ => Verdict) := by
    refine prepare_idle.bind fun _ => .inspect fun t ht => ?_
    refine (runPrepared_protocol (List.length_pos_iff.2 ht.2)).weaken fun s hs => ?_
    subst hs
    exact .inr ⟨ht.1.2, fun i _ => by simpa [openedUpTo] using ht.1.1 i, fun i _ => ht.1.1 i⟩
  unfold Pipe.calls
  cases hres : dsdpipeRun e ⟨p, []⟩ with
  | mk r s =>
    cases r with
    | ok u => exact hrun.ok rfl hres
    | error code => exact hrun.error rfl hres

/-- A new pipe with a DSF and a DSDIFF sink for a source in DSD. -/
def doubleCopy : Pipe where
  state := .configured
  sourceType := .dsf
  sourceFormat := ⟨.dsdRaw, 2822400, 2, 1, 75⟩
  sinks := [Sink.create .dsf false, Sink.create .dsdiff false]
  isOpen := fun _ => false
  fileOpen := fun _ => false
  tracks := []
  dstDecoder := none
  dsd2pcm := none
  pcmQuality := 1
  pcmUseFp64 := false
  poolsInitialized := false
  cancelled := false

/-- The second sink cannot be opened. -/
def secondRefused : Env Unit where
  answer
    | .openSink 1 _ => -20
    | _ => ok
  trackCount := ⟨1, one_lt_256⟩
  feed := fun _ => .lastBatch () []
  cancels := fun _ => false

theorem secondRefused_not_obeyed :
    ¬ ∀ (p : Pipe) (e : Env Unit) (i : Nat), Obeyed i (p.calls e) := by
  intro h
  have hphase : phaseOf 0 (doubleCopy.calls secondRefused) = .opened := rfl
  have hover := h doubleCopy secondRefused 0
  rw [Obeyed, hphase] at hover
  simp [Phase.IsOver] at hover

end DsdNexus.Dsdpipe
