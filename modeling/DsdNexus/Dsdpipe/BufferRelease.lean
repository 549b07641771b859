import DsdNexus.Dsdpipe.Pipeline

/-! # The buffers of a track

The batch loop of `dsdpipe_process_track` as far as it takes and gives up buffers: the inputs
it pops from the queue, the outputs and the PCM buffers it allocates. Every part of the
pipeline answers with a status, and each exit has loops of its own that release what is
still held.
-/

namespace DsdNexus.Dsdpipe

open Program

/-- `batch_inputs`, `batch_outputs` and `pcm_buffers`. -/
inductive BufferRole where
  | input
  | output
  | pcm
deriving DecidableEq

/-- A buffer of a frame of a batch. -/
structure PipeBuffer where
  role : BufferRole
  batch : Nat
  frame : Nat
deriving DecidableEq

/-- A buffer is popped or allocated, or `dsdpipe_buffer_unref` is called on it. -/
inductive RefEvent where
  | acquired (x : PipeBuffer)
  | unref (x : PipeBuffer)
deriving DecidableEq

/-- What is done with buffers, as a list. -/
abbrev Holding : Type := Program Int (List RefEvent) Unit

def acquire (x : PipeBuffer) : Holding := modify fun log => log ++ [.acquired x]

/-- `dsdpipe_buffer_unref`. -/
def unref (x : PipeBuffer) : Holding := modify fun log => log ++ [.unref x]

/-- `for (j = lo; j < hi; j++)`. -/
def forFrames (lo hi : Nat) (body : Nat → Holding) : Holding := (List.range' lo (hi - lo)).forM body

/-- The parts of the pipeline a track passes through, and whether they take whole batches. -/
structure Wiring where
  needDstDecode : Bool
  decoderBatches : Bool
  needsDsd : Bool
  converts : Bool
  converterBatches : Bool

/-- What they answer for the frames of a batch. -/
structure BatchAnswers where
  frames : Nat
  outputAllocated : Nat → Bool
  decodeBatch : Int
  decode : Nat → Int
  writeDsd : Nat → Int
  pcmAllocated : Nat → Bool
  convertBatch : Int
  convert : Nat → Int
  writePcm : Nat → Int
  progress : Int

section Batch

variable (w : Wiring) (b : Nat) (a : BatchAnswers)

/-- The loop most exits have: inputs and outputs from a frame on. -/
def releaseFrom (k : Nat) : Holding :=
  forFrames k a.frames fun i => do
    unref ⟨.input, b, i⟩
    when (w.needDstDecode = true) (unref ⟨.output, b, i⟩)

/-- The batch is given up: what is released, and the status. -/
def giveUp (release : Holding) (status : Int) : Holding := do
  release
  fail status

/-- The outputs of the decoder. -/
def allocateOutputs : Holding :=
  forFrames 0 a.frames fun j =>
    if a.outputAllocated j then acquire ⟨.output, b, j⟩
    else giveUp (do
      forFrames 0 j fun k => unref ⟨.output, b, k⟩
      forFrames 0 a.frames fun k => unref ⟨.input, b, k⟩) errorOutOfMemory

/-- `process_batch`, or `process` for each frame until one fails. -/
def BatchAnswers.decodeStatus : Int :=
  if w.decoderBatches then a.decodeBatch
  else (((List.range a.frames).map a.decode).find? (· ≠ ok)).getD ok

/-- Phase 2. -/
def decodeFrames : Holding :=
  when (w.needDstDecode = true) do
    allocateOutputs b a
    if a.decodeStatus w = ok then pure () else giveUp (releaseFrom w b a 0) (a.decodeStatus w)

/-- The DSD frames are written one by one. -/
def writeFrames : Holding :=
  when (w.needsDsd = true) (forFrames 0 a.frames fun j =>
    if a.writeDsd j = ok then pure () else giveUp (releaseFrom w b a j) errorWrite)

/-- The conversion of a whole batch. -/
def convertWhole : Holding := do
  forFrames 0 a.frames fun j =>
    if a.pcmAllocated j then acquire ⟨.pcm, b, j⟩
    else giveUp (do
      forFrames 0 j fun k => unref ⟨.pcm, b, k⟩
      releaseFrom w b a 0) errorOutOfMemory
  if a.convertBatch = ok then pure ()
  else giveUp (do
    forFrames 0 a.frames fun k => unref ⟨.pcm, b, k⟩
    releaseFrom w b a 0) a.convertBatch
  forFrames 0 a.frames fun j => do
    unref ⟨.pcm, b, j⟩
    if a.writePcm j = ok then pure ()
    else giveUp (do
      forFrames (j + 1) a.frames fun k => unref ⟨.pcm, b, k⟩
      releaseFrom w b a 0) errorWrite

/-- The fallback, frame by frame. -/
def convertSingly : Holding :=
  forFrames 0 a.frames fun j =>
    if a.pcmAllocated j then do
      acquire ⟨.pcm, b, j⟩
      if a.convert j = ok then do
        unref ⟨.pcm, b, j⟩
        if a.writePcm j = ok then pure () else giveUp (releaseFrom w b a j) errorWrite
      else giveUp (do
        unref ⟨.pcm, b, j⟩
        releaseFrom w b a j) (a.convert j)
    else giveUp (releaseFrom w b a j) errorOutOfMemory

/-- The frames of a batch, from their pop to their release. -/
def handleBatch : Holding := do
  forFrames 0 a.frames fun j => acquire ⟨.input, b, j⟩
  decodeFrames w b a
  writeFrames w b a
  when (w.converts = true) (if w.converterBatches then convertWhole w b a else convertSingly w b a)
  releaseFrom w b a 0
  require (a.progress = ok) errorCancelled

end Batch

/-- The batch loop, over the batches that are popped until the track is complete or cancelled:
it ends where a batch is empty, and where one is given up. -/
def handleBatches (w : Wiring) : Nat → List BatchAnswers → Holding
  | _, [] => pure ()
  | b, a :: rest =>
    if a.frames = 0 then pure ()
    else do
      handleBatch w b a
      handleBatches w (b + 1) rest

/-- The list of a track, whatever its batches come to. -/
def trackLog (w : Wiring) (as : List BatchAnswers) : List RefEvent := (handleBatches w 0 as []).2

/-- Every buffer that is taken is released, once, and no other. -/
def Conserved (log : List RefEvent) : Prop :=
  ∀ x, log.count (.acquired x) ≤ 1 ∧ log.count (.unref x) = log.count (.acquired x)

/-! ## Where a batch fails -/

section Answers

variable (w : Wiring) (a : BatchAnswers)

/-- The frames are decoded, where they have to be. -/
def BatchAnswers.Decodes : Prop :=
  w.needDstDecode = true → (∀ j < a.frames, a.outputAllocated j = true) ∧ a.decodeStatus w = ok

/-- All DSD frames up to one are written, where any are. -/
def BatchAnswers.Writes (n : Nat) : Prop := w.needsDsd = true → ∀ j < n, a.writeDsd j = ok

/-- The fallback conversion takes a frame. -/
def BatchAnswers.Converts (j : Nat) : Prop :=
  a.pcmAllocated j = true ∧ a.convert j = ok ∧ a.writePcm j = ok

/-- The batch gets to its DSD frames, and a write fails that is not the first. -/
def BatchAnswers.LateWrite : Prop :=
  a.Decodes w ∧ w.needsDsd = true ∧
    ∃ j, 0 < j ∧ j < a.frames ∧ a.Writes w j ∧ a.writeDsd j ≠ ok

/-- The batch gets to the fallback conversion, and it fails for a frame that is not the first. -/
def BatchAnswers.LateConversion : Prop :=
  a.Decodes w ∧ a.Writes w a.frames ∧ w.converts = true ∧ w.converterBatches = false ∧
    ∃ j, 0 < j ∧ j < a.frames ∧ (∀ i < j, a.Converts i) ∧ ¬ a.Converts j

/-- The batch fails where frames before the failing one are still held. -/
def BatchAnswers.FailsLate : Prop := a.LateWrite w ∨ a.LateConversion w

/-- All frames are converted, where they have to be. -/
def BatchAnswers.ConvertsAll : Prop :=
  w.converts = true → if w.converterBatches then
      (∀ j < a.frames, a.pcmAllocated j = true) ∧ a.convertBatch = ok ∧
        ∀ j < a.frames, a.writePcm j = ok
    else ∀ j < a.frames, a.Converts j

/-- The batch goes through, so that the loop takes another. -/
def BatchAnswers.GoesOn : Prop :=
  0 < a.frames ∧ a.Decodes w ∧ a.Writes w a.frames ∧
    a.ConvertsAll w ∧ a.progress = ok

end Answers

/-! ## Counting -/

/-- What the list has come to, for each buffer. -/
def Counts (g u : PipeBuffer → Nat) (log : List RefEvent) : Prop :=
  ∀ x, log.count (.acquired x) = g x ∧ log.count (.unref x) = u x

/-- One for each buffer of a role that belongs to these frames of a batch. -/
def within (role : BufferRole) (b lo hi : Nat) (x : PipeBuffer) : Nat :=
  if x.role = role ∧ x.batch = b ∧ lo ≤ x.frame ∧ x.frame < hi then 1 else 0

theorem within_self (role : BufferRole) (b j : Nat) (x : PipeBuffer) :
    within role b j (j + 1) x = if ⟨role, b, j⟩ = x then 1 else 0 := by
  obtain ⟨r, c, i⟩ := x
  unfold within
  simp only [PipeBuffer.mk.injEq]
  grind

theorem within_empty (role : BufferRole) (b j : Nat) : within role b j j = 0 := by
  funext x
  exact if_neg fun h => by omega

theorem within_add {role : BufferRole} {b lo mid hi : Nat} (h : lo ≤ mid) (h' : mid ≤ hi) :
    within role b lo mid + within role b mid hi = within role b lo hi := by
  funext x
  simp only [within, Pi.add_apply]
  grind

theorem add_within_add (g : PipeBuffer → Nat) {role : BufferRole} {b lo mid hi : Nat}
    (h : lo ≤ mid) (h' : mid ≤ hi) :
    g + within role b lo mid + within role b mid hi = g + within role b lo hi := by
  rw [add_assoc, within_add h h']

section Triples

variable {g u : PipeBuffer → Nat} {E : Int → List RefEvent → Prop} {P : List RefEvent → Prop}

theorem acquire_triple (role : BufferRole) (b j : Nat) :
    Triple (Counts g u) (acquire ⟨role, b, j⟩)
      (fun _ => Counts (g + within role b j (j + 1)) u) E := by
  refine .modify fun log h x => ?_
  rw [Pi.add_apply, within_self, ← (h x).1, ← (h x).2]
  simp [List.count_append, List.count_singleton]

theorem unref_triple (role : BufferRole) (b j : Nat) :
    Triple (Counts g u) (unref ⟨role, b, j⟩)
      (fun _ => Counts g (u + within role b j (j + 1))) E := by
  refine .modify fun log h x => ?_
  rw [Pi.add_apply, within_self, ← (h x).1, ← (h x).2]
  simp [List.count_append, List.count_singleton]

/-- The rule of a loop over frames. -/
theorem forFrames_triple {lo hi : Nat} (hle : lo ≤ hi) (body : Nat → Holding)
    (I : Nat → List RefEvent → Prop)
    (h : ∀ j, lo ≤ j → j < hi → Triple (I j) (body j) (fun _ => I (j + 1)) E) :
    Triple (I lo) (forFrames lo hi body) (fun _ => I hi) E := by
  have hloop : Triple (I (lo + 0)) ((List.range' lo (hi - lo)).forM body)
      (fun _ => I (lo + (List.range' lo (hi - lo)).length)) E :=
    Triple.forM (fun k => I (lo + k)) fun k j hj => by
      obtain ⟨hk, rfl⟩ := List.getElem?_eq_some_iff.1 hj
      rw [List.length_range'] at hk
      rw [List.getElem_range', Nat.one_mul]
      exact h (lo + k) (by omega) (by omega)
  rw [List.length_range', Nat.add_sub_cancel' hle] at hloop
  exact hloop

theorem unrefs_triple {role : BufferRole} {b lo hi : Nat} (hle : lo ≤ hi) :
    Triple (Counts g u) (forFrames lo hi fun k => unref ⟨role, b, k⟩)
      (fun _ => Counts g (u + within role b lo hi)) E := by
  have hloop := forFrames_triple (E := E) hle (fun k => unref ⟨role, b, k⟩)
    (fun j => Counts g (u + within role b lo j)) fun j hlo _ => by
      rw [← within_add hlo (Nat.le_succ j), ← add_assoc]
      exact unref_triple role b j
  rwa [within_empty, add_zero] at hloop

theorem giveUp_triple {release : Holding} {status : Int} {Q : Unit → List RefEvent → Prop}
    (h : Triple P release (fun _ log => E status log) E) : Triple P (giveUp release status) Q E :=
  h.bind fun _ => .fail fun _ hlog => hlog

/-- What a batch holds of frames that are neither released nor given up. -/
def held (w : Wiring) (b lo hi : Nat) : PipeBuffer → Nat :=
  within .input b lo hi + if w.needDstDecode = true then within .output b lo hi else 0

theorem held_empty (w : Wiring) (b j : Nat) : held w b j j = 0 := by
  unfold held
  split <;> simp [within_empty]

theorem held_add {w : Wiring} {b lo mid hi : Nat} (h : lo ≤ mid) (h' : mid ≤ hi) :
    held w b lo mid + held w b mid hi = held w b lo hi := by
  unfold held
  split
  · rw [← within_add h h', ← within_add h h']
    exact add_add_add_comm _ _ _ _
  · rw [add_zero, add_zero, add_zero, within_add h h']

theorem releaseFrom_triple (w : Wiring) (b : Nat) (a : BatchAnswers) {k : Nat}
    (hk : k ≤ a.frames) : Triple (Counts g u) (releaseFrom w b a k)
      (fun _ => Counts g (u + held w b k a.frames)) E := by
  have hloop := forFrames_triple (E := E) hk (fun i => do
      unref ⟨.input, b, i⟩
      when (w.needDstDecode = true) (unref ⟨.output, b, i⟩))
    (fun j => Counts g (u + held w b k j)) fun j hlo _ => by
      refine (unref_triple .input b j).bind fun _ => .when (fun hdecode => ?_) fun hplain _ h => ?_
      · rw [← held_add hlo (Nat.le_succ j), ← add_assoc]
        have hone : held w b j (j + 1) = within .input b j (j + 1) + within .output b j (j + 1) := by
          rw [held, if_pos hdecode]
        rw [hone, ← add_assoc]
        exact unref_triple .output b j
      · have hone : held w b j (j + 1) = within .input b j (j + 1) := by
          rw [held, if_neg hplain, add_zero]
        rwa [← held_add hlo (Nat.le_succ j), ← add_assoc, hone]
  rwa [held_empty, add_zero] at hloop

end Triples

/-! ## What a batch leaves behind -/

/-- All that was taken by the batches before this one is released, once. -/
def Settled (b : Nat) (log : List RefEvent) : Prop :=
  ∃ g, Counts g g log ∧ ∀ x, g x ≤ 1 ∧ (b ≤ x.batch → g x = 0)

/-- The first input of a batch is not. -/
def Leaks (b : Nat) (log : List RefEvent) : Prop :=
  log.count (.acquired ⟨.input, b, 0⟩) = 1 ∧ log.count (.unref ⟨.input, b, 0⟩) = 0

theorem Settled.conserved {b : Nat} {log : List RefEvent} (h : Settled b log) :
    Conserved log := by
  obtain ⟨g, hg, hbound⟩ := h
  intro x
  rw [(hg x).1, (hg x).2]
  exact ⟨(hbound x).1, rfl⟩

theorem Leaks.not_conserved {b : Nat} {log : List RefEvent} (h : Leaks b log) :
    ¬ Conserved log := by
  intro hcons
  have hfirst := (hcons ⟨.input, b, 0⟩).2
  rw [h.1, h.2] at hfirst
  cases hfirst

/-- What holds of the list where a batch ends the loop. -/
def Ends (w : Wiring) (b : Nat) (a : BatchAnswers) (log : List RefEvent) : Prop :=
  ¬ a.GoesOn w ∧ (a.FailsLate w → Leaks b log) ∧ (¬ a.FailsLate w → Settled (b + 1) log)

section Batch

variable {w : Wiring} {b : Nat} {a : BatchAnswers} {g : PipeBuffer → Nat}

/-- The buffers before the batch. -/
structure Before (b : Nat) (g : PipeBuffer → Nat) : Prop where
  le_one : ∀ x, g x ≤ 1
  fresh : ∀ x, b ≤ x.batch → g x = 0

/-- Where all that the batch took is released. -/
theorem Before.settled (hg : Before b g) {n j m : Nat} {log : List RefEvent}
    (h : Counts (g + (within .input b 0 n + within .output b 0 j + within .pcm b 0 m))
      (g + (within .input b 0 n + within .output b 0 j + within .pcm b 0 m)) log) :
    Settled (b + 1) log := by
  refine ⟨_, h, fun x => ?_⟩
  have hle := hg.le_one x
  have hfresh := hg.fresh x
  obtain ⟨role, c, i⟩ := x
  simp only [Pi.add_apply]
  cases role <;> simp [within] at * <;> grind

theorem held_eq (w : Wiring) (b n : Nat) : held w b 0 n =
    within .input b 0 n + within .output b 0 (if w.needDstDecode = true then n else 0) := by
  unfold held
  split
  · rfl
  · rw [within_empty]

/-- The exits with a loop that starts at a frame: everything is released where it is the first
frame, and the first one is left where it is not. -/
theorem Before.ends (hg : Before b g) {k m : Nat} {log : List RefEvent} (hk : k < a.frames)
    (hstop : ¬ a.GoesOn w) (hlate : a.FailsLate w ↔ 0 < k)
    (h : Counts (g + held w b 0 a.frames + within .pcm b 0 m)
      (g + within .pcm b 0 m + held w b k a.frames) log) : Ends w b a log := by
  refine ⟨hstop, ?_, ?_⟩
  · intro hfails
    have hpos := hlate.1 hfails
    have hfirst := h ⟨.input, b, 0⟩
    have hzero := hg.fresh ⟨.input, b, 0⟩ (Nat.le_refl b)
    unfold Leaks
    rw [hfirst.1, hfirst.2]
    simp only [Pi.add_apply, held]
    split <;> simp [within, hzero] <;> omega
  · intro hfails
    have hzero : k = 0 := by
      have hnot := mt hlate.2 hfails
      omega
    subst hzero
    rw [add_right_comm g, add_assoc g, held_eq, add_comm (within .pcm b 0 m)] at h
    exact hg.settled h

theorem take_triple {E : Int → List RefEvent → Prop} (n : Nat) :
    Triple (Counts g g) (forFrames 0 n fun j => acquire ⟨.input, b, j⟩)
      (fun _ => Counts (g + within .input b 0 n) g) E := by
  have hloop := forFrames_triple (E := E) (Nat.zero_le n)
    (fun j => acquire ⟨.input, b, j⟩) (fun j => Counts (g + within .input b 0 j) g)
    fun j hlo _ => by
      rw [← within_add hlo (Nat.le_succ j), ← add_assoc]
      exact acquire_triple .input b j
  rwa [within_empty, add_zero] at hloop

/-! ## The phases of a batch -/

/-- The exits in front of the writes are no late ones. -/
theorem not_failsLate_of_not_decodes (h : ¬ a.Decodes w) : ¬ a.FailsLate w :=
  fun hlate => hlate.elim (fun hwrite => h hwrite.1) fun hconv => h hconv.1

theorem allocateOutputs_triple (hg : Before b g) (hneed : w.needDstDecode = true) :
    Triple (Counts (g + within .input b 0 a.frames) g) (allocateOutputs b a)
      (fun _ log => Counts (g + within .input b 0 a.frames + within .output b 0 a.frames) g log ∧
        ∀ j < a.frames, a.outputAllocated j = true) (fun _ => Ends w b a) := by
  have hloop := forFrames_triple (E := fun _ => Ends w b a) (Nat.zero_le a.frames)
    (fun j =>
      if a.outputAllocated j then acquire ⟨.output, b, j⟩
      else giveUp (do
        forFrames 0 j fun k => unref ⟨.output, b, k⟩
        forFrames 0 a.frames fun k => unref ⟨.input, b, k⟩) errorOutOfMemory)
    (fun j log => Counts (g + within .input b 0 a.frames + within .output b 0 j) g log ∧
      ∀ i < j, a.outputAllocated i = true) fun j hlo hj => by
      by_cases halloc : a.outputAllocated j = true
      · rw [if_pos halloc, ← within_add hlo (Nat.le_succ j), ← add_assoc]
        refine ((acquire_triple .output b j).frame _).conseq (fun _ h => h) (fun _ _ h => ?_)
          fun _ _ h => h
        exact ⟨h.1, fun i hi => (Nat.lt_succ_iff_lt_or_eq.1 hi).elim (h.2 i) fun heq => heq ▸ halloc⟩
      · rw [if_neg halloc]
        refine giveUp_triple (((unrefs_triple (Nat.zero_le j)).bind fun _ =>
          unrefs_triple (Nat.zero_le a.frames)).conseq (fun _ h => h.1) (fun _ log h => ?_)
          fun _ _ h => h)
        have hfails : ¬ a.Decodes w := fun hdec => halloc ((hdec hneed).1 j hj)
        refine ⟨fun hgoes => hfails hgoes.2.1,
          fun hlate => absurd hlate (not_failsLate_of_not_decodes hfails),
          fun _ => hg.settled (n := a.frames) (j := j) (m := 0) ?_⟩
        rw [within_empty, add_zero, ← add_assoc]
        rwa [add_right_comm g (within .output b 0 j)] at h
  rw [within_empty, add_zero] at hloop
  exact hloop.weaken fun _ h => ⟨h, fun i hi => absurd hi (Nat.not_lt_zero i)⟩

theorem decodeFrames_triple (hg : Before b g) (hframes : 0 < a.frames) :
    Triple (Counts (g + within .input b 0 a.frames) g) (decodeFrames w b a)
      (fun _ log => Counts (g + held w b 0 a.frames) g log ∧ a.Decodes w)
      (fun _ => Ends w b a) := by
  refine .when (fun hneed => ?_) fun hplain log h => ?_
  · refine (allocateOutputs_triple hg hneed).bind fun _ => ?_
    have hheld : g + within .input b 0 a.frames + within .output b 0 a.frames =
        g + held w b 0 a.frames := by
      rw [held, if_pos hneed, add_assoc]
    rw [hheld]
    by_cases hstatus : a.decodeStatus w = ok
    · rw [if_pos hstatus]
      exact .pure fun log h => ⟨h.1, fun _ => ⟨h.2, hstatus⟩⟩
    · rw [if_neg hstatus]
      refine giveUp_triple ((releaseFrom_triple w b a (Nat.zero_le _)).conseq (fun _ h => h.1)
        (fun _ log h => ?_) fun _ _ h => h)
      have hfails : ¬ a.Decodes w := fun hdec => hstatus (hdec hneed).2
      refine hg.ends (m := 0) hframes (fun hgoes => hfails hgoes.2.1)
        (iff_of_false (not_failsLate_of_not_decodes hfails) (Nat.lt_irrefl 0)) ?_
      rwa [within_empty, add_zero, add_zero]
  · have hheld : held w b 0 a.frames = within .input b 0 a.frames := by
      rw [held, if_neg hplain, add_zero]
    exact ⟨hheld ▸ h, fun hneed => absurd hneed hplain⟩

theorem writeFrames_triple (hg : Before b g) (hdec : a.Decodes w) :
    Triple (Counts (g + held w b 0 a.frames) g) (writeFrames w b a)
      (fun _ log => Counts (g + held w b 0 a.frames) g log ∧ a.Writes w a.frames)
      (fun _ => Ends w b a) := by
  refine .when (fun hneeds => ?_) fun hnone log h => ⟨h, fun hneeds => absurd hneeds hnone⟩
  have hloop := forFrames_triple (E := fun _ => Ends w b a) (Nat.zero_le a.frames)
    (fun j => if a.writeDsd j = ok then pure () else giveUp (releaseFrom w b a j) errorWrite)
    (fun j log => Counts (g + held w b 0 a.frames) g log ∧ a.Writes w j) fun j _ hj => by
      by_cases hwrite : a.writeDsd j = ok
      · rw [if_pos hwrite]
        exact .pure fun log h => ⟨h.1, fun hneeds i hi =>
          (Nat.lt_succ_iff_lt_or_eq.1 hi).elim (h.2 hneeds i) fun heq => heq ▸ hwrite⟩
      · rw [if_neg hwrite]
        refine giveUp_triple (((releaseFrom_triple w b a hj.le).frame _).conseq (fun _ h => h)
          (fun _ log h => ?_) fun _ _ h => h)
        have hshows : Counts (g + held w b 0 a.frames + within .pcm b 0 0)
            (g + within .pcm b 0 0 + held w b j a.frames) log := by
          rw [within_empty, add_zero, add_zero]
          exact h.1
        refine hg.ends hj (fun hgoes => hwrite (hgoes.2.2.1 hneeds j hj)) ⟨?_, ?_⟩ hshows
        · -- A late failure has the first frame written.
          intro hlate
          by_contra hzero
          obtain rfl : j = 0 := by omega
          rcases hlate with ⟨-, -, i, hi, -, hbefore, -⟩ | ⟨-, hall, -⟩
          · exact hwrite (hbefore hneeds 0 hi)
          · exact hwrite (hall hneeds 0 hj)
        · intro hpos
          exact .inl ⟨hdec, hneeds, j, hpos, hj, h.2, hwrite⟩
  exact hloop.weaken fun _ h => ⟨h, fun _ i hi => absurd hi (Nat.not_lt_zero i)⟩

/-- The conversion of a whole batch starts all its releases at the first frame. -/
theorem convertWhole_triple (hg : Before b g) (hframes : 0 < a.frames)
    (hconverts : w.converts = true) (hwhole : w.converterBatches = true)
    (hwrites : a.Writes w a.frames) :
    Triple (Counts (g + held w b 0 a.frames) g) (convertWhole w b a)
      (fun _ log => Counts (g + held w b 0 a.frames + within .pcm b 0 a.frames)
          (g + within .pcm b 0 a.frames) log ∧
        (∀ j < a.frames, a.pcmAllocated j = true) ∧ a.convertBatch = ok ∧
          ∀ j < a.frames, a.writePcm j = ok)
      (fun _ => Ends w b a) := by
  have hnot : ¬ a.FailsLate w := by
    rintro (⟨-, hneeds, i, -, hi, -, hfail⟩ | ⟨-, -, -, hsingle, -⟩)
    · exact hfail (hwrites hneeds i hi)
    · rw [hwhole] at hsingle
      cases hsingle
  have hgoes : a.GoesOn w → (∀ j < a.frames, a.pcmAllocated j = true) ∧ a.convertBatch = ok ∧
      ∀ j < a.frames, a.writePcm j = ok := by
    intro h
    have hconv := h.2.2.2.1 hconverts
    rwa [if_pos hwhole] at hconv
  have hends : ∀ {m : Nat} {log : List RefEvent}, ¬ a.GoesOn w →
      Counts (g + held w b 0 a.frames + within .pcm b 0 m)
        (g + within .pcm b 0 m + held w b 0 a.frames) log → Ends w b a log :=
    fun hstop => hg.ends hframes hstop (iff_of_false hnot (Nat.lt_irrefl 0))
  have halloc := forFrames_triple (E := fun _ => Ends w b a) (Nat.zero_le a.frames)
    (fun j =>
      if a.pcmAllocated j then acquire ⟨.pcm, b, j⟩
      else giveUp (do
        forFrames 0 j fun k => unref ⟨.pcm, b, k⟩
        releaseFrom w b a 0) errorOutOfMemory)
    (fun j log => Counts (g + held w b 0 a.frames + within .pcm b 0 j) g log ∧
      ∀ i < j, a.pcmAllocated i = true) fun j hlo hj => by
      by_cases halloc : a.pcmAllocated j = true
      · rw [if_pos halloc, ← within_add hlo (Nat.le_succ j), ← add_assoc]
        refine ((acquire_triple .pcm b j).frame _).conseq (fun _ h => h) (fun _ _ h => ?_)
          fun _ _ h => h
        exact ⟨h.1, fun i hi => (Nat.lt_succ_iff_lt_or_eq.1 hi).elim (h.2 i) fun heq => heq ▸ halloc⟩
      · rw [if_neg halloc]
        refine giveUp_triple (((unrefs_triple (Nat.zero_le j)).bind fun _ =>
          releaseFrom_triple w b a (Nat.zero_le _)).conseq (fun _ h => h.1) (fun _ log h => ?_)
          fun _ _ h => h)
        exact hends (fun h => halloc ((hgoes h).1 j hj)) h
  have hwrite := forFrames_triple (E := fun _ => Ends w b a) (Nat.zero_le a.frames)
    (fun j => do
      unref ⟨.pcm, b, j⟩
      if a.writePcm j = ok then pure ()
      else giveUp (do
        forFrames (j + 1) a.frames fun k => unref ⟨.pcm, b, k⟩
        releaseFrom w b a 0) errorWrite)
    (fun j log => Counts (g + held w b 0 a.frames + within .pcm b 0 a.frames)
        (g + within .pcm b 0 j) log ∧ ∀ i < j, a.writePcm i = ok) fun j hlo hj => by
      refine ((unref_triple .pcm b j).frame _).bind fun _ => ?_
      rw [add_within_add g hlo (Nat.le_succ j)]
      by_cases hwrite : a.writePcm j = ok
      · rw [if_pos hwrite]
        exact .pure fun log h => ⟨h.1, fun i hi =>
          (Nat.lt_succ_iff_lt_or_eq.1 hi).elim (h.2 i) fun heq => heq ▸ hwrite⟩
      · rw [if_neg hwrite]
        refine giveUp_triple (((unrefs_triple (Nat.succ_le_of_lt hj)).bind fun _ =>
          releaseFrom_triple w b a (Nat.zero_le _)).conseq (fun _ h => h.1) (fun _ log h => ?_)
          fun _ _ h => h)
        rw [add_within_add g (Nat.zero_le _) (Nat.succ_le_of_lt hj)] at h
        exact hends (fun hgo => hwrite ((hgoes hgo).2.2 j hj)) h
  rw [within_empty, add_zero] at halloc hwrite
  have hnone : ∀ {P : Nat → Prop}, ∀ i < 0, P i := fun i hi => absurd hi (Nat.not_lt_zero i)
  refine (halloc.weaken fun _ h => ⟨h, hnone⟩).bind fun _ => ?_
  by_cases hconvert : a.convertBatch = ok
  · rw [if_pos hconvert]
    exact ((hwrite.weaken fun _ h => ⟨h, hnone⟩).frame _).conseq (fun _ h => h)
      (fun _ _ h => ⟨h.1.1, h.2, hconvert, h.1.2⟩) fun _ _ h => h
  · rw [if_neg hconvert]
    refine Triple.bind (Q := fun _ _ => False) (giveUp_triple ?_) fun _ => ⟨nofun, nofun⟩
    exact ((unrefs_triple (Nat.zero_le _)).bind fun _ =>
      releaseFrom_triple w b a (Nat.zero_le _)).conseq (fun _ h => h.1)
        (fun _ log h => hends (fun hgo => hconvert (hgoes hgo).2.1) h) fun _ _ h => h

/-- The fallback conversion starts its releases at the frame that fails. -/
theorem convertSingly_triple (hg : Before b g) (hdec : a.Decodes w)
    (hconverts : w.converts = true) (hsingly : w.converterBatches = false)
    (hwrites : a.Writes w a.frames) :
    Triple (Counts (g + held w b 0 a.frames) g) (convertSingly w b a)
      (fun _ log => Counts (g + held w b 0 a.frames + within .pcm b 0 a.frames)
          (g + within .pcm b 0 a.frames) log ∧ ∀ j < a.frames, a.Converts j)
      (fun _ => Ends w b a) := by
  have hends : ∀ {j m : Nat} {log : List RefEvent}, j < a.frames → (∀ i < j, a.Converts i) →
      ¬ a.Converts j → Counts (g + held w b 0 a.frames + within .pcm b 0 m)
        (g + within .pcm b 0 m + held w b j a.frames) log → Ends w b a log := by
    intro j m log hj hbefore hfail hshows
    refine hg.ends hj (fun hgoes => ?_) ⟨fun hlate => ?_, fun hpos => ?_⟩ hshows
    · have hconv := hgoes.2.2.2.1 hconverts
      rw [if_neg (by simp [hsingly])] at hconv
      exact hfail (hconv j hj)
    · by_contra hzero
      obtain rfl : j = 0 := by omega
      rcases hlate with ⟨-, hneeds, i, -, hi, -, hwrite⟩ | ⟨-, -, -, -, i, hi, -, hconv, -⟩
      · exact hwrite (hwrites hneeds i hi)
      · exact hfail (hconv 0 hi)
    · exact .inr ⟨hdec, hwrites, hconverts, hsingly, j, hpos, hj, hbefore, hfail⟩
  have hloop := forFrames_triple (E := fun _ => Ends w b a) (Nat.zero_le a.frames)
    (fun j =>
      if a.pcmAllocated j then do
        acquire ⟨.pcm, b, j⟩
        if a.convert j = ok then do
          unref ⟨.pcm, b, j⟩
          if a.writePcm j = ok then pure () else giveUp (releaseFrom w b a j) errorWrite
        else giveUp (do
          unref ⟨.pcm, b, j⟩
          releaseFrom w b a j) (a.convert j)
      else giveUp (releaseFrom w b a j) errorOutOfMemory)
    (fun j log => Counts (g + held w b 0 a.frames + within .pcm b 0 j) (g + within .pcm b 0 j) log ∧
      ∀ i < j, a.Converts i) fun j hlo hj => by
      by_cases halloc : a.pcmAllocated j = true
      swap
      · rw [if_neg halloc]
        refine giveUp_triple (((releaseFrom_triple w b a hj.le).frame _).conseq (fun _ h => h)
          (fun _ log h => ?_) fun _ _ h => h)
        exact hends hj h.2 (fun hconv => halloc hconv.1) h.1
      rw [if_pos halloc]
      refine ((acquire_triple .pcm b j).frame _).bind fun _ => ?_
      rw [add_within_add _ hlo (Nat.le_succ j)]
      by_cases hconvert : a.convert j = ok
      swap
      · rw [if_neg hconvert]
        refine giveUp_triple ((((unref_triple .pcm b j).bind fun _ =>
          releaseFrom_triple w b a hj.le).frame _).conseq (fun _ h => h) (fun _ log h => ?_)
          fun _ _ h => h)
        rw [add_within_add g hlo (Nat.le_succ j)] at h
        exact hends hj h.2 (fun hconv => hconvert hconv.2.1) h.1
      rw [if_pos hconvert]
      refine ((unref_triple .pcm b j).frame _).bind fun _ => ?_
      rw [add_within_add g hlo (Nat.le_succ j)]
      by_cases hwrite : a.writePcm j = ok
      · rw [if_pos hwrite]
        exact .pure fun log h => ⟨h.1, fun i hi => (Nat.lt_succ_iff_lt_or_eq.1 hi).elim (h.2 i)
          fun heq => heq ▸ ⟨halloc, hconvert, hwrite⟩⟩
      · rw [if_neg hwrite]
        refine giveUp_triple (((releaseFrom_triple w b a hj.le).frame _).conseq (fun _ h => h)
          (fun _ log h => ?_) fun _ _ h => h)
        exact hends hj h.2 (fun hconv => hwrite hconv.2.2) h.1
  rw [within_empty, add_zero, add_zero] at hloop
  exact hloop.weaken fun _ h => ⟨h, fun i hi => absurd hi (Nat.not_lt_zero i)⟩

/-- A batch that is converted has no late failure. -/
theorem not_failsLate_of_all (hwrites : a.Writes w a.frames) (hall : a.ConvertsAll w) :
    ¬ a.FailsLate w := by
  rintro (⟨-, hneeds, i, -, hi, -, hfail⟩ | ⟨-, -, hconverts, hsingly, i, -, hi, -, hfail⟩)
  · exact hfail (hwrites hneeds i hi)
  · have hconv := hall hconverts
    rw [if_neg (by simp [hsingly])] at hconv
    exact hfail (hconv i hi)

/-- Whichever way the frames are converted, no PCM buffer is left. -/
theorem convert_triple (hg : Before b g) (hframes : 0 < a.frames) (hdec : a.Decodes w)
    (hwrites : a.Writes w a.frames) :
    Triple (Counts (g + held w b 0 a.frames) g)
      (when (w.converts = true)
        (if w.converterBatches then convertWhole w b a else convertSingly w b a))
      (fun _ log => (∃ m, Counts (g + held w b 0 a.frames + within .pcm b 0 m)
        (g + within .pcm b 0 m) log) ∧ a.ConvertsAll w)
      (fun _ => Ends w b a) := by
  refine .when (fun hconverts => ?_) fun hnone log h => ?_
  · by_cases hwhole : w.converterBatches = true
    · rw [if_pos hwhole]
      refine (convertWhole_triple hg hframes hconverts hwhole hwrites).conseq (fun _ h => h)
        (fun _ log h => ⟨⟨a.frames, h.1⟩, fun _ => ?_⟩) fun _ _ h => h
      rw [if_pos hwhole]
      exact h.2
    · rw [if_neg hwhole]
      refine (convertSingly_triple hg hdec hconverts (by simpa using hwhole) hwrites).conseq
        (fun _ h => h) (fun _ log h => ⟨⟨a.frames, h.1⟩, fun _ => ?_⟩) fun _ _ h => h
      rw [if_neg hwhole]
      exact h.2
  · refine ⟨⟨0, ?_⟩, fun hconverts => absurd hconverts hnone⟩
    rwa [within_empty, add_zero, add_zero]

end Batch

/-- A batch that goes through has released all it took, and what one that does not leaves
behind is told by where it fails. -/
theorem handleBatch_triple (w : Wiring) (b : Nat) {a : BatchAnswers} (hframes : 0 < a.frames) :
    Triple (Settled b) (handleBatch w b a)
      (fun _ log => Settled (b + 1) log ∧ a.GoesOn w ∧ ¬ a.FailsLate w) (fun _ => Ends w b a) := by
  have hmain : ∀ g, Before b g → Triple (Counts g g) (handleBatch w b a)
      (fun _ log => Settled (b + 1) log ∧ a.GoesOn w ∧ ¬ a.FailsLate w)
      (fun _ => Ends w b a) := by
    intro g hg
    refine (take_triple a.frames).bind fun _ => (decodeFrames_triple hg hframes).bind fun _ =>
      .assume fun hdec => (writeFrames_triple hg hdec).bind fun _ => .assume fun hwrites =>
        (convert_triple hg hframes hdec hwrites).bind fun _ => .assume fun hall => ?_
    have hnot := not_failsLate_of_all hwrites hall
    have hrelease : Triple (fun log => ∃ m, Counts (g + held w b 0 a.frames + within .pcm b 0 m)
        (g + within .pcm b 0 m) log) (releaseFrom w b a 0)
        (fun _ => Settled (b + 1)) (fun _ => Ends w b a) := by
      have heach : ∀ m, Triple (Counts (g + held w b 0 a.frames + within .pcm b 0 m)
          (g + within .pcm b 0 m)) (releaseFrom w b a 0) (fun _ => Settled (b + 1))
          (fun _ => Ends w b a) := fun m =>
        (releaseFrom_triple w b a (Nat.zero_le _)).conseq (fun _ h => h) (fun _ log h => by
          rw [add_right_comm g, add_assoc g, held_eq, add_comm (within .pcm b 0 m)] at h
          exact hg.settled h) fun _ _ h => h
      exact ⟨fun ⟨m, hm⟩ hrun => (heach m).ok hm hrun, fun ⟨m, hm⟩ hrun => (heach m).error hm hrun⟩
    refine hrelease.bind fun _ => .require (fun log h hprogress => ?_) fun log h hrefused => ?_
    · exact ⟨h, ⟨hframes, hdec, hwrites, hall, hprogress⟩, hnot⟩
    · exact ⟨fun hgoes => hrefused hgoes.2.2.2.2, fun hlate => absurd hlate hnot, fun _ => h⟩
  exact ⟨fun ⟨g, hg, hbound⟩ hrun =>
      (hmain g ⟨fun x => (hbound x).1, fun x => (hbound x).2⟩).ok hg hrun,
    fun ⟨g, hg, hbound⟩ hrun =>
      (hmain g ⟨fun x => (hbound x).1, fun x => (hbound x).2⟩).error hg hrun⟩

/-! ## All batches -/

/-- No batch that is reached fails late. -/
def NoneFailsLate (w : Wiring) (as : List BatchAnswers) : Prop :=
  ∀ before a rest, as = before ++ a :: rest → (∀ x ∈ before, x.GoesOn w) → ¬ a.FailsLate w

theorem noneFailsLate_cons {w : Wiring} {a : BatchAnswers} {rest : List BatchAnswers} :
    NoneFailsLate w (a :: rest) ↔ ¬ a.FailsLate w ∧ (a.GoesOn w → NoneFailsLate w rest) := by
  constructor
  · intro h
    refine ⟨h [] a rest rfl nofun, fun hgoes before x after hsplit hbefore => ?_⟩
    exact h (a :: before) x after (congrArg (a :: ·) hsplit)
      (List.forall_mem_cons.2 ⟨hgoes, hbefore⟩)
  · rintro ⟨hfirst, hrest⟩ before x after hsplit hbefore
    cases before with
    | nil =>
      cases hsplit
      exact hfirst
    | cons y before =>
      obtain ⟨rfl, htail⟩ := List.cons.inj hsplit
      obtain ⟨hgoes, hothers⟩ := List.forall_mem_cons.1 hbefore
      exact hrest hgoes before x after htail hothers

theorem handleBatches_triple (w : Wiring) (b : Nat) (as : List BatchAnswers) :
    Triple (Settled b) (handleBatches w b as)
      (fun _ log => Conserved log ↔ NoneFailsLate w as)
      (fun _ log => Conserved log ↔ NoneFailsLate w as) := by
  induction as generalizing b with
  | nil =>
    refine .pure fun log h => iff_of_true h.conserved fun before a rest hsplit => ?_
    simp at hsplit
  | cons a rest ih =>
    unfold handleBatches
    by_cases hzero : a.frames = 0
    · rw [if_pos hzero]
      refine .pure fun log h => iff_of_true h.conserved (noneFailsLate_cons.2 ⟨?_, fun hgoes => ?_⟩)
      · rintro (⟨-, -, j, -, hj, -⟩ | ⟨-, -, -, -, j, -, hj, -⟩) <;> omega
      · exact absurd hgoes.1 (by omega)
    · rw [if_neg hzero]
      refine ((handleBatch_triple w b (Nat.pos_of_ne_zero hzero)).conseq (fun _ h => h)
        (fun _ _ h => h) fun _ log h => ?_).bind fun _ => .assume fun hgoes => ?_
      · -- The batch ends the loop.
        obtain ⟨hstop, hleaks, hsettled⟩ := h
        rw [noneFailsLate_cons]
        by_cases hlate : a.FailsLate w
        · exact iff_of_false (hleaks hlate).not_conserved fun h => h.1 hlate
        · exact iff_of_true (hsettled hlate).conserved ⟨hlate, fun hgoes => absurd hgoes hstop⟩
      · refine (ih (b + 1)).conseq (fun _ h => h) (fun _ log h => ?_) fun _ log h => ?_
        all_goals
          rw [h, noneFailsLate_cons]
          exact ⟨fun hrest => ⟨hgoes.2, fun _ => hrest⟩, fun h => h.2 hgoes.1⟩

/-- The buffers of a track are conserved exactly where no batch fails with frames before the
failing one still held. -/
theorem buffers_conserved_iff (w : Wiring) (as : List BatchAnswers) :
    Conserved (trackLog w as) ↔ NoneFailsLate w as := by
  have hstart : Settled 0 [] := ⟨0, fun _ => ⟨rfl, rfl⟩, fun _ => ⟨Nat.zero_le 1, fun _ => rfl⟩⟩
  exact (handleBatches_triple w 0 as).leaves hstart

/-- Two frames without a decoder, of which the sink refuses the second. -/
def refusedSecond : BatchAnswers where
  frames := 2
  outputAllocated _ := true
  decodeBatch := ok
  decode _ := ok
  writeDsd j := if j = 1 then errorWrite else ok
  pcmAllocated _ := true
  convertBatch := ok
  convert _ := ok
  writePcm _ := ok
  progress := ok

theorem buffers_not_conserved : ¬ Conserved (trackLog ⟨false, true, true, false, true⟩
    [refusedSecond]) := by
  intro hcons
  exact absurd (hcons ⟨.input, 0, 0⟩).2 (by decide)

end DsdNexus.Dsdpipe
