import DsdNexus.Lib.Blocks
import DsdNexus.Lib.Slice
import DsdNexus.Util.Reverse
import DsdNexus.Dsdpipe.Pipeline

/-! # Converting batches to PCM

`dsd2pcm_transform_process_batch` of `transform_dsd2pcm.c` over `dsdpcm_wrapper.cpp`. A
batch is put together, cut into nominal frames for the conversion engine, and the samples
are dealt out again in proportion to the frames. The engine is a parameter.
-/

namespace DsdNexus.Dsdpipe

open Blocks

/-! ## The wrapper -/

/-- What the transform and the decoder are initialized with. -/
structure PcmSetup where
  channels : Nat
  frameRate : Nat
  dsdSampleRate : Nat
  pcmSampleRate : Nat
  useFp64 : Bool
  frame_pos : 0 < dsdSampleRate / 8 / frameRate * channels

/-- `frame_dsd_bytes`. -/
def PcmSetup.frameDsdBytes (c : PcmSetup) : Nat := c.dsdSampleRate / 8 / c.frameRate * c.channels

/-- `frame_pcm_samples`. -/
def PcmSetup.framePcmSamples (c : PcmSetup) : Nat := c.pcmSampleRate / c.frameRate * c.channels

/-- `bytes_per_sample`. -/
def PcmSetup.bytesPerSample (c : PcmSetup) : Nat := if c.useFp64 then 8 else 4

theorem PcmSetup.frameDsdBytes_pos (c : PcmSetup) : 0 < c.frameDsdBytes := c.frame_pos

/-- The conversion engine: what it makes of a nominal frame, and its next state. `toFloat`
rounds a sample to single precision. -/
structure Engine (c : PcmSetup) (σ α : Type) where
  convert : σ → Bytes → σ × List α
  length_convert : ∀ s data, (convert s data).2.length = c.framePcmSamples
  toFloat : α → α

variable {c : PcmSetup} {σ α : Type}

/-- The sample as it is stored. -/
def Engine.store (eng : Engine c σ α) (sample : α) : α :=
  if c.useFp64 then sample else eng.toFloat sample

/-- What a call of the wrapper does: the ranges it hands to the engine, and the samples. -/
structure Converted (σ α : Type) where
  state : σ
  ranges : List Bytes
  samples : List α

/-- The loop of `dsdpcm_convert_fp32` and `dsdpcm_convert_fp64`. -/
def Engine.convertFrames (eng : Engine c σ α) (s : σ) (dsdData : Bytes) : Converted σ α :=
  if _h : c.frameDsdBytes ≤ dsdData.length then
    let frame := dsdData.take c.frameDsdBytes
    let out := eng.convert s frame
    let rest := eng.convertFrames out.1 (dsdData.drop c.frameDsdBytes)
    ⟨rest.state, frame :: rest.ranges, out.2.map eng.store ++ rest.samples⟩
  else ⟨s, [], []⟩
termination_by dsdData.length
decreasing_by
  have hpos := c.frameDsdBytes_pos
  rw [List.length_drop]
  omega

/-! ## The transform -/

/-- `dsdpipe_transform_dsd2pcm_ctx_t`: the engine's state and `batch_dsd_capacity`, which is
0 while there is no buffer for the batches. -/
structure Dsd2pcm (σ : Type) where
  decoder : σ
  batchDsdCapacity : Nat

/-- How a batch goes wrong. -/
inductive BatchFault where
  | error (code : Int)
  | divisionByZero
deriving DecidableEq

/-- The samples dealt out to the frames of a batch, from an offset in the samples on. -/
def distribute (pcm : List α) (totalDsdSize : Nat) : Nat → List Nat → List (List α)
  | _, [] => []
  | pcmOffset, size :: sizes =>
    let framePcmSamples :=
      if sizes = [] then pcm.length - pcmOffset else pcm.length * size / totalDsdSize
    let frame :=
      if pcmOffset + framePcmSamples ≤ pcm.length then slice pcm pcmOffset framePcmSamples
      else slice pcm pcmOffset (pcm.length - pcmOffset)
    frame :: distribute pcm totalDsdSize (pcmOffset + framePcmSamples) sizes

/-- What a batch, or a whole track, has come to. -/
structure PcmRun (σ α : Type) where
  transform : Dsd2pcm σ
  ranges : List Bytes
  buffers : List (List α)

/-- `dsd2pcm_transform_process_batch`. The wrapper refuses a batch without a buffer. -/
def Engine.processBatch (eng : Engine c σ α) (t : Dsd2pcm σ) (inputs : List Bytes) :
    Except BatchFault (PcmRun σ α) :=
  if inputs = [] then .ok ⟨t, [], []⟩
  else
    let dsdData := inputs.flatten
    let capacity := max t.batchDsdCapacity dsdData.length
    if capacity = 0 then .error (.error errorPcmConvert)
    else if 1 < inputs.length ∧ dsdData.length = 0 then .error .divisionByZero
    else
      let out := eng.convertFrames t.decoder dsdData
      .ok ⟨⟨out.state, capacity⟩, out.ranges,
        distribute out.samples dsdData.length 0 (inputs.map List.length)⟩

/-- The batches of a track, one after the other, as `dsdpipe_process_track` converts them and
hands the buffers to the sinks. -/
def Engine.processTrack (eng : Engine c σ α) (t : Dsd2pcm σ) :
    List (List Bytes) → Except BatchFault (PcmRun σ α)
  | [] => .ok ⟨t, [], []⟩
  | inputs :: batches =>
    match eng.processBatch t inputs with
    | .error fault => .error fault
    | .ok first =>
      match eng.processTrack first.transform batches with
      | .error fault => .error fault
      | .ok rest =>
        .ok ⟨rest.transform, first.ranges ++ rest.ranges, first.buffers ++ rest.buffers⟩

/-! ## The engine over several frames -/

/-- The samples of one nominal frame after the other, and the state they leave. -/
def Engine.outputs (eng : Engine c σ α) : σ → List Bytes → σ × List α
  | s, [] => (s, [])
  | s, frame :: frames =>
    let out := eng.convert s frame
    let rest := eng.outputs out.1 frames
    (rest.1, out.2.map eng.store ++ rest.2)

theorem Engine.outputs_append (eng : Engine c σ α) (s : σ) (xs ys : List Bytes) :
    eng.outputs s (xs ++ ys) =
      ((eng.outputs (eng.outputs s xs).1 ys).1,
        (eng.outputs s xs).2 ++ (eng.outputs (eng.outputs s xs).1 ys).2) := by
  induction xs generalizing s with
  | nil => rfl
  | cons frame xs ih =>
    rw [List.cons_append, Engine.outputs, Engine.outputs, ih]
    simp only [List.append_assoc]

theorem Engine.outputs_length (eng : Engine c σ α) (s : σ) (frames : List Bytes) :
    (eng.outputs s frames).2.length = c.framePcmSamples * frames.length := by
  induction frames generalizing s with
  | nil => rfl
  | cons frame frames ih =>
    rw [Engine.outputs, List.length_append, List.length_map, eng.length_convert, ih,
      List.length_cons, Nat.mul_add, Nat.mul_one, Nat.add_comm]

/-- The wrapper hands over the complete nominal frames and leaves the rest. -/
theorem Engine.convertFrames_eq (eng : Engine c σ α) (s : σ) (dsdData : Bytes) :
    eng.convertFrames s dsdData =
      ⟨(eng.outputs s (fullBlocks c.frameDsdBytes dsdData)).1,
        fullBlocks c.frameDsdBytes dsdData,
        (eng.outputs s (fullBlocks c.frameDsdBytes dsdData)).2⟩ := by
  have hpos := c.frameDsdBytes_pos
  induction hn : dsdData.length using Nat.strongRecOn generalizing s dsdData with
  | ind n ih =>
    rw [Engine.convertFrames, fullBlocks]
    by_cases hfull : c.frameDsdBytes ≤ dsdData.length
    · have hshort : (dsdData.drop c.frameDsdBytes).length < n := by
        rw [List.length_drop]
        omega
      rw [dif_pos hfull, if_pos ⟨hpos, hfull⟩, Engine.outputs]
      dsimp only
      rw [ih _ hshort _ _ rfl]
    · rw [dif_neg hfull, if_neg fun h => hfull h.2]
      rfl

/-! ## Dealing out the samples -/

/-- The lengths of the buffers of a batch with so many samples. -/
def dealt (samples totalDsdSize : Nat) (sizes : List Nat) : List Nat :=
  let early := sizes.dropLast.map fun size => samples * size / totalDsdSize
  early ++ [samples - early.sum]

theorem distribute_from (pcm : List α) (total : Nat) (sizes : List Nat) (offset : Nat)
    (hne : sizes ≠ []) (hoffset : offset ≤ pcm.length)
    (hroom : offset * total + pcm.length * sizes.sum ≤ pcm.length * total) :
    (distribute pcm total offset sizes).flatten = pcm.drop offset ∧
      (distribute pcm total offset sizes).map List.length =
        (sizes.dropLast.map fun size => pcm.length * size / total) ++
          [pcm.length - offset -
            (sizes.dropLast.map fun size => pcm.length * size / total).sum] := by
  induction sizes generalizing offset with
  | nil => exact absurd rfl hne
  | cons size sizes ih =>
    rw [distribute]
    cases hsizes : sizes with
    | nil =>
      have hend : offset + (pcm.length - offset) ≤ pcm.length := by omega
      have hslice : slice pcm offset (pcm.length - offset) = pcm.drop offset :=
        slice_to_end (by omega)
      have hlength : (slice pcm offset (pcm.length - offset)).length = pcm.length - offset :=
        slice_length_of_le hend
      simp only [if_true, if_pos hend, distribute, List.dropLast_singleton, List.map_nil,
        List.sum_nil, Nat.sub_zero, List.nil_append, List.map_cons, hlength, and_true]
      rw [List.flatten_singleton, hslice]
    | cons next others =>
      rw [← hsizes]
      have hsne : sizes ≠ [] := by
        rw [hsizes]
        exact List.cons_ne_nil _ _
      rw [List.sum_cons, Nat.mul_add] at hroom
      let share := pcm.length * size / total
      have hshare : share * total ≤ pcm.length * size := Nat.div_mul_le_self _ _
      have hroom' : (offset + share) * total + pcm.length * sizes.sum ≤ pcm.length * total := by
        rw [Nat.add_mul]
        omega
      have hfits : offset + share ≤ pcm.length := by
        rcases Nat.eq_zero_or_pos total with hzero | hpos
        · have hnone : share = 0 := by
            simp only [share, hzero, Nat.div_zero]
          omega
        · exact Nat.le_of_mul_le_mul_right ((Nat.le_add_right _ _).trans hroom') hpos
      obtain ⟨hflatten, hlengths⟩ := ih (offset + share) hsne hfits hroom'
      have hlength : (slice pcm offset share).length = share := slice_length_of_le hfits
      have hdrop : (size :: sizes).dropLast = size :: sizes.dropLast :=
        List.dropLast_cons_of_ne_nil hsne
      constructor
      · have hcut : slice pcm offset share ++ pcm.drop (offset + share) = pcm.drop offset := by
          rw [slice, ← List.drop_drop, List.take_append_drop]
        simp only [if_neg hsne]
        rw [if_pos hfits, List.flatten_cons, hflatten]
        exact hcut
      · simp only [if_neg hsne]
        rw [if_pos hfits, List.map_cons, hlengths, hdrop, List.map_cons, List.sum_cons,
          List.cons_append, show (slice pcm offset (pcm.length * size / total)).length = share
            from hlength]
        congr 3
        omega

/-- All samples are dealt out, in order. -/
theorem distribute_spec (pcm : List α) {sizes : List Nat} (hne : sizes ≠ []) :
    (distribute pcm sizes.sum 0 sizes).flatten = pcm ∧
      (distribute pcm sizes.sum 0 sizes).map List.length = dealt pcm.length sizes.sum sizes := by
  exact distribute_from pcm sizes.sum sizes 0 hne (Nat.zero_le _) (by omega)

end DsdNexus.Dsdpipe
