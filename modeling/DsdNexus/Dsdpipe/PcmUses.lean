import Mathlib.Algebra.Order.BigOperators.Group.List
import Mathlib.Algebra.Order.Ring.Nat
import DsdNexus.Dsdpipe.PcmBatch

/-! # Which batches are converted whole

A batch loses what is left after its last nominal frame, and its samples are dealt out by a
division. What goes to the engine and to the sinks is right when neither leaves anything
over.
-/

namespace DsdNexus.Dsdpipe

open Blocks

variable {c : PcmSetup} {σ α : Type}

/-- The size of the buffers of the PCM pool, `DSDPIPE_MAX_DSD_SIZE * 4`. -/
def pcmCapacity : Nat := 28224 * 4

/-- Every byte of the frames goes to the engine, the last nominal frame padded, and all it
makes of them to the sinks, in buffers of whole sample frames that fit their capacity. -/
def Engine.UsesEveryByte (eng : Engine c σ α) (t : Dsd2pcm σ) (batches : List (List Bytes)) :
    Prop :=
  ∃ run padding, eng.processTrack t batches = .ok run ∧ padding.length < c.frameDsdBytes ∧
    run.ranges.flatten = batches.flatten.flatten ++ padding ∧
    run.buffers.flatten = (eng.outputs t.decoder
      (fullBlocks c.frameDsdBytes (batches.flatten.flatten ++ padding))).2 ∧
    ∀ buffer ∈ run.buffers, c.channels ∣ buffer.length ∧
      buffer.length * c.bytesPerSample ≤ pcmCapacity

/-! ## When it holds -/

/-- The samples the frames of a batch are to get: of the early ones each its part of a nominal
frame, the last one the rest. -/
def PcmSetup.shares (c : PcmSetup) (sizes : List Nat) : List Nat :=
  let early := sizes.dropLast.map fun size => c.framePcmSamples * size / c.frameDsdBytes
  early ++ [c.framePcmSamples * (sizes.sum / c.frameDsdBytes) - early.sum]

/-- A number of samples that makes whole sample frames and fits a buffer. -/
def PcmSetup.Holds (c : PcmSetup) (n : Nat) : Prop :=
  c.channels ∣ n ∧ n * c.bytesPerSample ≤ pcmCapacity

/-- A batch with these sizes gets by: it has bytes, or is one empty frame after others that
had some. -/
def HasBytes (capacity : Nat) (sizes : List Nat) : Prop :=
  0 < sizes.sum ∨ 0 < capacity ∧ sizes.length = 1

/-- The batches all have bytes. -/
def AllHaveBytes : Nat → List (List Nat) → Prop
  | _, [] => True
  | capacity, sizes :: batches =>
    (sizes ≠ [] → HasBytes capacity sizes) ∧ AllHaveBytes (max capacity sizes.sum) batches

/-- Every batch is made of whole nominal frames, and every frame gets a share that its buffer
can hold. -/
structure PcmSetup.Fits (c : PcmSetup) (capacity : Nat) (batches : List (List Nat)) : Prop where
  haveBytes : AllHaveBytes capacity batches
  whole : ∀ sizes ∈ batches, c.frameDsdBytes ∣ sizes.sum
  shares : ∀ sizes ∈ batches, sizes ≠ [] → ∀ n ∈ c.shares sizes, c.Holds n

/-! ## A batch -/

section Batch

variable (eng : Engine c σ α) {t : Dsd2pcm σ} {inputs : List Bytes} {run : PcmRun σ α}

theorem sum_sizes (inputs : List Bytes) :
    (inputs.map List.length).sum = inputs.flatten.length := List.length_flatten.symm

theorem processBatch_isOk :
    (∃ run, eng.processBatch t inputs = .ok run) ↔
      (inputs.map List.length ≠ [] → HasBytes t.batchDsdCapacity (inputs.map List.length)) := by
  unfold Engine.processBatch HasBytes
  rw [sum_sizes, List.length_map, ne_eq, List.map_eq_nil_iff]
  by_cases hne : inputs = []
  · simp [hne]
  · have hlength : 0 < inputs.length := List.length_pos_iff.2 hne
    simp only [if_neg hne]
    by_cases hcapacity : max t.batchDsdCapacity inputs.flatten.length = 0
    · simp only [if_pos hcapacity]
      constructor
      · rintro ⟨run, hrun⟩
        cases hrun
      · intro h
        have := h hne
        omega
    · rw [if_neg hcapacity]
      by_cases hzero : 1 < inputs.length ∧ inputs.flatten.length = 0
      · simp only [if_pos hzero]
        constructor
        · rintro ⟨run, hrun⟩
          cases hrun
        · intro h
          have := h hne
          omega
      · rw [if_neg hzero]
        refine ⟨fun _ _ => ?_, fun _ => ⟨_, rfl⟩⟩
        omega

/-- What a batch comes to. -/
structure Engine.Comes (eng : Engine c σ α) (t : Dsd2pcm σ) (frames : List Bytes)
    (dealtOut : List Nat) (size : Nat) (run : PcmRun σ α) : Prop where
  ranges : run.ranges = frames
  decoder : run.transform.decoder = (eng.outputs t.decoder frames).1
  capacity : run.transform.batchDsdCapacity = max t.batchDsdCapacity size
  samples : run.buffers.flatten = (eng.outputs t.decoder frames).2
  lengths : run.buffers.map List.length = dealtOut

/-- The lengths of the buffers of a batch. -/
def PcmSetup.dealtOut (c : PcmSetup) (sizes : List Nat) : List Nat :=
  if sizes = [] then []
  else dealt (c.framePcmSamples * (sizes.sum / c.frameDsdBytes)) sizes.sum sizes

theorem processBatch_comes (h : eng.processBatch t inputs = .ok run) :
    eng.Comes t (fullBlocks c.frameDsdBytes inputs.flatten) (c.dealtOut (inputs.map List.length))
      inputs.flatten.length run := by
  unfold Engine.processBatch at h
  by_cases hne : inputs = []
  · rw [if_pos hne] at h
    cases h
    subst hne
    exact ⟨by simp, by simp [Engine.outputs], by simp, by simp [Engine.outputs],
      by simp [PcmSetup.dealtOut]⟩
  · rw [if_neg hne] at h
    dsimp only at h
    split at h
    · cases h
    · split at h
      · cases h
      · cases h
        have hsizes : inputs.map List.length ≠ [] := fun hnil => hne (List.map_eq_nil_iff.1 hnil)
        have hdealt := distribute_spec
          (eng.convertFrames t.decoder inputs.flatten).samples hsizes
        rw [sum_sizes, eng.convertFrames_eq] at hdealt
        have hcount := eng.outputs_length t.decoder (fullBlocks c.frameDsdBytes inputs.flatten)
        rw [fullBlocks_length c.frameDsdBytes_pos] at hcount
        rw [hcount] at hdealt
        refine ⟨?_, ?_, rfl, ?_, ?_⟩
        · rw [eng.convertFrames_eq]
        · rw [eng.convertFrames_eq]
        · rw [eng.convertFrames_eq]
          exact hdealt.1
        · rw [eng.convertFrames_eq, PcmSetup.dealtOut, if_neg hsizes, sum_sizes]
          exact hdealt.2

/-- Where a batch is made of whole nominal frames, its samples are dealt out in shares. -/
theorem dealtOut_of_whole {sizes : List Nat} (hne : sizes ≠ [])
    (hwhole : c.frameDsdBytes ∣ sizes.sum) : c.dealtOut sizes = c.shares sizes := by
  obtain ⟨frames, hframes⟩ := hwhole
  have hpos := c.frameDsdBytes_pos
  have hearly : (sizes.dropLast.map fun size =>
      c.framePcmSamples * (sizes.sum / c.frameDsdBytes) * size / sizes.sum) =
      sizes.dropLast.map fun size => c.framePcmSamples * size / c.frameDsdBytes := by
    apply List.map_congr_left
    intro size hsize
    have hle : size ≤ sizes.sum := List.le_sum_of_mem (List.dropLast_subset _ hsize)
    rw [hframes, Nat.mul_div_cancel_left _ hpos]
    rcases Nat.eq_zero_or_pos frames with hzero | hfew
    · rw [hzero, Nat.mul_zero] at hframes
      have hnone : size = 0 := by omega
      simp [hnone]
    · rw [Nat.mul_right_comm, Nat.mul_comm c.frameDsdBytes, Nat.mul_comm _ frames,
        Nat.mul_div_mul_left _ _ hfew]
  rw [PcmSetup.dealtOut, if_neg hne, dealt, PcmSetup.shares, hearly]

end Batch

/-! ## A track -/

section Track

variable (eng : Engine c σ α) {t : Dsd2pcm σ} {batches : List (List Bytes)} {run : PcmRun σ α}

/-- The sizes of the frames of the batches. -/
def sizesOf (batches : List (List Bytes)) : List (List Nat) :=
  batches.map fun inputs => inputs.map List.length

/-- The ranges that are handed to the engine. -/
def PcmSetup.handed (c : PcmSetup) (batches : List (List Bytes)) : List Bytes :=
  batches.flatMap fun inputs => fullBlocks c.frameDsdBytes inputs.flatten

theorem processTrack_cons (inputs : List Bytes) :
    eng.processTrack t (inputs :: batches) = .ok run ↔
      ∃ first rest, eng.processBatch t inputs = .ok first ∧
        eng.processTrack first.transform batches = .ok rest ∧
        run = ⟨rest.transform, first.ranges ++ rest.ranges, first.buffers ++ rest.buffers⟩ := by
  rw [Engine.processTrack]
  cases hfirst : eng.processBatch t inputs with
  | error fault => simp
  | ok first =>
    cases hrest : eng.processTrack first.transform batches with
    | error fault => simp [hrest]
    | ok rest => simp [hrest, eq_comm]

theorem processTrack_comes (h : eng.processTrack t batches = .ok run) :
    eng.Comes t (c.handed batches) ((sizesOf batches).flatMap c.dealtOut)
      (run.transform.batchDsdCapacity) run := by
  induction batches generalizing t run with
  | nil =>
    cases h
    exact ⟨rfl, rfl, (Nat.max_self _).symm, rfl, rfl⟩
  | cons inputs batches ih =>
    obtain ⟨first, rest, hfirst, hrest, rfl⟩ := (processTrack_cons eng inputs).1 h
    have hone := processBatch_comes eng hfirst
    have hall := ih hrest
    have houtputs := eng.outputs_append t.decoder
      (fullBlocks c.frameDsdBytes inputs.flatten) (c.handed batches)
    rw [← hone.decoder] at houtputs
    refine ⟨?_, ?_, ?_, ?_, ?_⟩
    · exact congrArg₂ (· ++ ·) hone.ranges hall.ranges
    · exact hall.decoder.trans (congrArg Prod.fst houtputs).symm
    · have hfirst' := hone.capacity
      have hrest' := hall.capacity
      dsimp only
      omega
    · rw [List.flatten_append, hone.samples, hall.samples]
      exact (congrArg Prod.snd houtputs).symm
    · rw [List.map_append, hone.lengths, hall.lengths]
      rfl

theorem processTrack_isOk :
    (∃ run, eng.processTrack t batches = .ok run) ↔
      AllHaveBytes t.batchDsdCapacity (sizesOf batches) := by
  induction batches generalizing t with
  | nil => exact ⟨fun _ => trivial, fun _ => ⟨_, rfl⟩⟩
  | cons inputs batches ih =>
    have hstep : AllHaveBytes t.batchDsdCapacity (sizesOf (inputs :: batches)) ↔
        (inputs.map List.length ≠ [] →
          HasBytes t.batchDsdCapacity (inputs.map List.length)) ∧
        AllHaveBytes (max t.batchDsdCapacity inputs.flatten.length) (sizesOf batches) := by
      rw [← sum_sizes]
      exact Iff.rfl
    rw [hstep, ← processBatch_isOk eng]
    constructor
    · rintro ⟨run, hrun⟩
      obtain ⟨first, rest, hfirst, hrest, -⟩ := (processTrack_cons eng inputs).1 hrun
      refine ⟨⟨first, hfirst⟩, ?_⟩
      rw [← (processBatch_comes eng hfirst).capacity]
      exact ih.1 ⟨rest, hrest⟩
    · rintro ⟨⟨first, hfirst⟩, hall⟩
      rw [← (processBatch_comes eng hfirst).capacity] at hall
      obtain ⟨rest, hrest⟩ := ih.2 hall
      exact ⟨_, (processTrack_cons eng inputs).2 ⟨first, rest, hfirst, hrest, rfl⟩⟩

/-- If as many bytes are handed over as there are, each batch is made of whole frames. -/
theorem whole_of_length {n : Nat} {sizes : List Nat} {padding : Nat}
    (h : (sizes.map fun size => size / n * n).sum = sizes.sum + padding) :
    padding = 0 ∧ ∀ size ∈ sizes, n ∣ size := by
  have hle : ∀ sizes : List Nat, (sizes.map fun size => size / n * n).sum ≤ sizes.sum := by
    intro sizes
    induction sizes with
    | nil => exact Nat.le_refl 0
    | cons size sizes ih =>
      have hone := Nat.div_mul_le_self size n
      rw [List.map_cons, List.sum_cons, List.sum_cons]
      omega
  induction sizes with
  | nil =>
    refine ⟨?_, nofun⟩
    simpa [eq_comm] using h
  | cons size sizes ih =>
    have hone := Nat.div_mul_le_self size n
    have hrest := hle sizes
    rw [List.map_cons, List.sum_cons, List.sum_cons] at h
    obtain ⟨hpadding, hall⟩ := ih (by omega)
    refine ⟨hpadding, fun x hx => ?_⟩
    rcases List.mem_cons.1 hx with rfl | hx
    · exact ⟨x / n, by rw [Nat.mul_comm]; omega⟩
    · exact hall x hx

theorem handed_length (batches : List (List Bytes)) :
    (c.handed batches).flatten.length =
      (((sizesOf batches).map List.sum).map fun size =>
        size / c.frameDsdBytes * c.frameDsdBytes).sum := by
  induction batches with
  | nil => rfl
  | cons inputs batches ih =>
    have hone : (fullBlocks c.frameDsdBytes inputs.flatten).flatten.length =
        inputs.flatten.length / c.frameDsdBytes * c.frameDsdBytes :=
      flatten_fullBlocks_length c.frameDsdBytes_pos _
    rw [PcmSetup.handed, List.flatMap_cons, List.flatten_append, List.length_append, hone,
      ← sum_sizes]
    exact congrArg (_ + ·) ih

theorem flatten_length (batches : List (List Bytes)) :
    batches.flatten.flatten.length = ((sizesOf batches).map List.sum).sum := by
  induction batches with
  | nil => rfl
  | cons inputs batches ih =>
    rw [List.flatten_cons, List.flatten_append, List.length_append, ih, ← sum_sizes]
    rfl

/-- Batches of whole frames are cut as their concatenation is. -/
theorem handed_of_whole
    (hwhole : ∀ sizes ∈ sizesOf batches, c.frameDsdBytes ∣ sizes.sum) :
    c.handed batches = fullBlocks c.frameDsdBytes batches.flatten.flatten ∧
      c.frameDsdBytes ∣ batches.flatten.flatten.length := by
  induction batches with
  | nil => exact ⟨(fullBlocks_nil _).symm, Nat.dvd_zero _⟩
  | cons inputs batches ih =>
    obtain ⟨hcut, hdvd⟩ := ih fun sizes hsizes => hwhole sizes (.tail _ hsizes)
    have hone : c.frameDsdBytes ∣ inputs.flatten.length := by
      rw [← sum_sizes]
      exact hwhole _ (.head _)
    rw [List.flatten_cons, List.flatten_append]
    constructor
    · rw [fullBlocks_append_of_dvd c.frameDsdBytes_pos _ hone, ← hcut]
      rfl
    · rw [List.length_append]
      exact Nat.dvd_add hone hdvd

/-- In each of the buffers is what its share says, where the batches are whole. -/
theorem dealt_shares (hwhole : ∀ sizes ∈ sizesOf batches, c.frameDsdBytes ∣ sizes.sum) (n : Nat) :
    n ∈ (sizesOf batches).flatMap c.dealtOut ↔
      ∃ sizes ∈ sizesOf batches, sizes ≠ [] ∧ n ∈ c.shares sizes := by
  rw [List.mem_flatMap]
  refine exists_congr fun sizes => and_congr_right fun hsizes => ?_
  by_cases hne : sizes = []
  · simp [hne, PcmSetup.dealtOut]
  · rw [dealtOut_of_whole hne (hwhole sizes hsizes)]
    simp [hne]

/-- PCM conversion uses every byte of a track if and only if each batch is made of whole nominal
frames and each frame gets a share that its buffer can hold. -/
theorem usesEveryByte_iff (t : Dsd2pcm σ) (batches : List (List Bytes)) :
    eng.UsesEveryByte t batches ↔ c.Fits t.batchDsdCapacity (sizesOf batches) := by
  constructor
  · rintro ⟨run, padding, hrun, -, hranges, -, hbuffers⟩
    have hcomes := processTrack_comes eng hrun
    have hlength := congrArg List.length hranges
    rw [hcomes.ranges, handed_length, List.length_append, flatten_length] at hlength
    have hwhole : ∀ sizes ∈ sizesOf batches, c.frameDsdBytes ∣ sizes.sum := fun sizes hsizes =>
      (whole_of_length hlength).2 _ (List.mem_map_of_mem hsizes)
    refine ⟨(processTrack_isOk eng).1 ⟨run, hrun⟩, hwhole, fun sizes hsizes hne n hn => ?_⟩
    have hmem := (dealt_shares hwhole n).2 ⟨sizes, hsizes, hne, hn⟩
    rw [← hcomes.lengths] at hmem
    obtain ⟨buffer, hbuffer, rfl⟩ := List.mem_map.1 hmem
    exact hbuffers buffer hbuffer
  · intro h
    obtain ⟨run, hrun⟩ := (processTrack_isOk eng).2 h.haveBytes
    have hcomes := processTrack_comes eng hrun
    obtain ⟨hcut, hdvd⟩ := handed_of_whole h.whole
    refine ⟨run, [], hrun, c.frameDsdBytes_pos, ?_, ?_, fun buffer hbuffer => ?_⟩
    · rw [hcomes.ranges, hcut, List.append_nil]
      exact flatten_fullBlocks_of_dvd c.frameDsdBytes_pos hdvd
    · rw [hcomes.samples, hcut, List.append_nil]
    · have hmem : buffer.length ∈ (sizesOf batches).flatMap c.dealtOut := by
        rw [← hcomes.lengths]
        exact List.mem_map_of_mem hbuffer
      obtain ⟨sizes, hsizes, hne, hn⟩ := (dealt_shares h.whole _).1 hmem
      exact h.shares sizes hsizes hne _ hn

end Track

/-- A stereo disc at 2822400 Hz, converted to 88200 Hz in single precision. -/
def stereo : PcmSetup := ⟨2, 75, 2822400, 88200, false, by decide⟩

/-- An engine without sound. -/
def silentEngine : Engine stereo Unit Int where
  convert s _ := (s, List.replicate stereo.framePcmSamples 0)
  length_convert _ _ := List.length_replicate
  toFloat := id

/-- A track of one short frame is dropped. -/
theorem short_track_dropped :
    ¬ ∀ (c : PcmSetup) (eng : Engine c Unit Int) (t : Dsd2pcm Unit)
      (batches : List (List Bytes)), eng.UsesEveryByte t batches := by
  intro h
  have hshort := h stereo silentEngine ⟨(), 0⟩ [[List.replicate 100 0]]
  obtain ⟨run, padding, hrun, -, hranges, -⟩ := hshort
  have hcomes := processTrack_comes silentEngine hrun
  have hnone : stereo.handed [[List.replicate 100 0]] = [] := by
    rw [PcmSetup.handed, List.flatMap_singleton, List.flatten_singleton]
    exact fullBlocks_of_short (by decide)
  rw [hcomes.ranges, hnone] at hranges
  exact absurd (congrArg List.length hranges) (by simp)

end DsdNexus.Dsdpipe
