import DsdNexus.Dst.Decoder

/-! # The length a decode reports

A compressed frame fills its whole place in the output buffer, whatever stood there. A
frame of plain samples reports its own size, the head included, and copies one byte less.
-/

namespace DsdNexus.Dst

open Util

/-- The bytes a decoded frame has. -/
def DstDecoder.decodedSize (d : DstDecoder) : Nat :=
  dstSamplesPerFrame d.sampleRate / 8 * d.channels

/-- A frame of plain samples, as `dst_decoder_decode` accepts it. -/
structure DstFrame.Plain (frame : DstFrame) : Prop where
  size : 1 < frame.size
  fits : frame.size ≤ 0x7FFFFFFF / 8 ∧ frame.size * 8 < 0x7FFFFFFF - 512
  notCoded : (frame.data 0).toNat / 128 = 0
  reserved : (frame.data 0).toNat % 64 = 0

/-- A success reports the decoded frame size, and none of these bytes is what stood in the
buffer before. -/
def ReportsWritten (d : DstDecoder) (frame : DstFrame) : Prop :=
  ∀ out out' : List UInt8, out.length = out'.length → (dstDecoderDecode d frame out).1.ret = 0 →
    (dstDecoderDecode d frame out).1.len = some d.decodedSize ∧
      (d.decodedSize ≤ out.length →
        (dstDecoderDecode d frame out).1.out.take d.decodedSize =
          (dstDecoderDecode d frame out').1.out.take d.decodedSize)

/-! ## Plain frames -/

section Head

variable {channels : Nat} {frame : DstFrame}

theorem readSegments_ne_plain (gb : GetBitContext) (channels : Nat) :
    readSegments gb channels ≠ .plain := by
  unfold readSegments
  simp only
  split
  · simp
  · split
    · simp
    · split
      · simp
      · split <;> simp

/-- The seven bits behind the first are those of the first byte. -/
theorem reserved_bits (data : Nat → UInt8) (size : Nat) (hsize : 2 ≤ size) :
    ((((⟨data, size * 8, 0⟩ : GetBitContext).getBits1.2).skip 1).getBits 6).1 =
      (data 0).toNat % 64 := by
  have hbit : (0 : Nat) < size * 8 + 8 := by omega
  have hindex : min (size * 8 + 8) 2 = 2 := by omega
  have h0 := (data 0).toNat_lt
  have h1 := (data 1).toNat_lt
  have h2 := (data 2).toNat_lt
  have h3 := (data 3).toNat_lt
  simp only [GetBitContext.getBits1, if_pos hbit, GetBitContext.skip, GetBitContext.getBits,
    GetBitContext.showUbits, GetBitContext.cache, Nat.zero_add, Nat.cast_one,
    Int.reduceAdd, Int.reduceToNat, hindex, Nat.reduceDiv, Nat.reduceMod, Nat.reducePow,
    Nat.reduceSub]
  omega

theorem readHead_plain_iff : readHead channels frame = .plain ↔ frame.Plain := by
  unfold readHead
  by_cases hsize : frame.size ≤ 1
  · rw [if_pos hsize]
    exact ⟨nofun, fun h => absurd h.size (by omega)⟩
  rw [if_neg hsize]
  by_cases hfits : frame.size < 0 ∨ 0x7FFFFFFF / 8 < frame.size ∨ 0x7FFFFFFF - 512 ≤ frame.size * 8
  · rw [GetBitContext.init8, if_pos hfits]
    refine ⟨nofun, fun h => ?_⟩
    have := h.fits
    omega
  rw [GetBitContext.init8, if_neg hfits]
  have hbits := reserved_bits frame.data frame.size.toNat (by omega)
  have hbyte := (frame.data 0).toNat_lt
  by_cases hcoded : (frame.data 0).toNat / 128 = 0
  · have hbit : (⟨frame.data, frame.size.toNat * 8, 0⟩ : GetBitContext).getBits1.1 = 0 := by
      simp only [GetBitContext.getBits1, Nat.zero_div, Nat.zero_mod, Nat.sub_zero, Nat.reducePow]
      omega
    simp only [if_pos hbit, hbits]
    by_cases hreserved : (frame.data 0).toNat % 64 = 0
    · rw [if_pos hreserved]
      exact ⟨fun _ => ⟨by omega, by omega, hcoded, hreserved⟩, fun _ => rfl⟩
    · rw [if_neg hreserved]
      exact ⟨nofun, fun h => absurd h.reserved hreserved⟩
  · have hbit : (⟨frame.data, frame.size.toNat * 8, 0⟩ : GetBitContext).getBits1.1 ≠ 0 := by
      simp only [GetBitContext.getBits1, Nat.zero_div, Nat.zero_mod, Nat.sub_zero, Nat.reducePow]
      omega
    simp only [if_neg hbit]
    exact ⟨fun h => absurd h (readSegments_ne_plain _ _), fun h => absurd h.notCoded hcoded⟩

/-- One byte less than a plain frame reports is copied, or there is less room. -/
theorem decode_plain (d : DstDecoder) (h : frame.Plain) (out : List UInt8) :
    (dstDecoderDecode d frame out).1 = ⟨0, some frame.size.toNat,
      (List.range (min (frame.size.toNat - 1) d.decodedSize)).map (fun i => frame.data (i + 1)) ++
        out.drop (min (frame.size.toNat - 1) d.decodedSize)⟩ := by
  unfold dstDecoderDecode
  rw [readHead_plain_iff.2 h]
  rfl

end Head

/-! ## Compressed frames -/

section Coded

variable {n : Nat}

/-- Two states that differ only in what lies behind the first `n` bytes of the output. -/
structure SampleState.SameFront (n : Nat) (s s' : SampleState) : Prop where
  gb : s.gb = s'.gb
  ac : s.ac = s'.ac
  status : s.status = s'.status
  out : s.out.take n = s'.out.take n

theorem SampleState.SameFront.decodeSample {s s' : SampleState} (h : s.SameFront n s')
    (t : Tables) (channels i ch : Nat) :
    (decodeSample t channels i s ch).SameFront n (Dst.decodeSample t channels i s' ch) := by
  obtain ⟨gb, ac, status, out⟩ := s
  obtain ⟨gb', ac', status', out'⟩ := s'
  obtain ⟨rfl, rfl, rfl, hout⟩ := h
  refine ⟨rfl, rfl, rfl, ?_⟩
  simp only [Dst.decodeSample, List.take_modify, hout]

theorem SampleState.SameFront.foldl {α : Type} {step : SampleState → α → SampleState}
    (hstep : ∀ s s' a, s.SameFront n s' → (step s a).SameFront n (step s' a)) (as : List α)
    {s s' : SampleState} (h : s.SameFront n s') :
    (as.foldl step s).SameFront n (as.foldl step s') := by
  induction as generalizing s s' with
  | nil => exact h
  | cons a as ih => exact ih (hstep s s' a h)

theorem SampleState.SameFront.decodeSamples {s s' : SampleState} (h : s.SameFront n s')
    (t : Tables) (channels samples : Nat) :
    (decodeSamples t channels samples s).SameFront n (Dst.decodeSamples t channels samples s') :=
  h.foldl (fun _ _ i hs => hs.foldl (fun _ _ ch hc => hc.decodeSample t channels i ch) _) _

/-- Where the samples of a coded frame start from. -/
def codedStart (d : DstDecoder) (out : List UInt8) : SampleState :=
  let ac := acInit d.gb
  let xbit := acGet ac.1 ac.2 (probDstXBit (d.fsets.coeff 0 0))
  { gb := xbit.2.2
    ac := xbit.2.1
    status := fun _ => ⟨0xAAAAAAAAAAAAAAAA, 0xAAAAAAAAAAAAAAAA⟩
    out := List.replicate d.decodedSize 0 ++ out.drop d.decodedSize }

theorem decodeCoded_eq (d : DstDecoder) (mapFelem mapPelem halfProb : Nat → Nat)
    (out : List UInt8) :
    (decodeCoded d mapFelem mapPelem halfProb out).1 = ⟨0, some d.decodedSize,
      (decodeSamples ⟨d.fsets, d.probs,
        (buildFilter d.fsets (filterEntries d.fsets.elements) d.filter).2, mapFelem, mapPelem,
        halfProb⟩ d.channels (dstSamplesPerFrame d.sampleRate) (codedStart d out)).out⟩ := rfl

/-- The place of the frame is cleared before its samples are set. -/
theorem codedStart_sameFront (d : DstDecoder) (out out' : List UInt8) :
    (codedStart d out).SameFront d.decodedSize (codedStart d out') := by
  have hlength : (List.replicate d.decodedSize (0 : UInt8)).length = d.decodedSize :=
    List.length_replicate
  have hfront : ∀ rest : List UInt8,
      (List.replicate d.decodedSize (0 : UInt8) ++ rest).take d.decodedSize =
        List.replicate d.decodedSize 0 := fun rest => List.take_left' hlength
  exact ⟨rfl, rfl, rfl, (hfront _).trans (hfront _).symm⟩

theorem averrorInvalidData_ne : averrorInvalidData ≠ 0 := by decide

theorem averrorPatchWelcome_ne : averrorPatchWelcome ≠ 0 := by decide

/-- Behind the head a frame is refused whatever the buffer holds, or is decoded. -/
theorem decodeMapped_reports {d : DstDecoder} (felem pelem : MapResult) (out out' : List UInt8)
    (hret : (decodeMapped d felem pelem out).1.ret = 0) :
    (decodeMapped d felem pelem out).1.len = some d.decodedSize ∧
      (decodeMapped d felem pelem out).1.out.take d.decodedSize =
        (decodeMapped d felem pelem out').1.out.take d.decodedSize := by
  unfold decodeMapped at hret ⊢
  by_cases hreserved : (readTables d felem pelem).probs.gb.getBits1.1 = 1
  · simp only [if_pos hreserved] at hret
    exact absurd hret averrorInvalidData_ne
  · simp only [if_neg hreserved, decodeCoded_eq]
    generalize hread : ({ d with
      fsets := (readTables d felem pelem).fsets.table
      probs := (readTables d felem pelem).probs.table
      gb := (readTables d felem pelem).probs.gb.getBits1.2 } : DstDecoder) = read
    have hsize : read.decodedSize = d.decodedSize := by rw [← hread]; rfl
    rw [← hsize]
    exact ⟨rfl, ((codedStart_sameFront read out out').decodeSamples _ _ _).out⟩

end Coded

/-! ## Any frame -/

/-- A plain frame of the decoded size reports a byte it did not copy. -/
theorem not_reportsWritten_of_plain (d : DstDecoder) {frame : DstFrame} (hplain : frame.Plain) :
    ¬ ReportsWritten d frame := by
  intro h
  have hold := h (List.replicate d.decodedSize 0) (List.replicate d.decodedSize 1) (by simp)
  rw [decode_plain d hplain, decode_plain d hplain] at hold
  obtain ⟨hlen, hfront⟩ := hold rfl
  have hsize : frame.size.toNat = d.decodedSize := Option.some.inj hlen
  have hmany : 1 < frame.size.toNat := by
    have := hplain.size
    omega
  have hcopied : min (frame.size.toNat - 1) d.decodedSize = d.decodedSize - 1 := by omega
  have hroom : d.decodedSize ≤ (List.replicate d.decodedSize (0 : UInt8)).length := by simp
  have hlast := congrArg (fun bytes : List UInt8 => bytes[d.decodedSize - 1]?) (hfront hroom)
  rw [hcopied] at hlast
  have hin : d.decodedSize - 1 < d.decodedSize := by omega
  simp [hin] at hlast

theorem reportsWritten_of_not_plain (d : DstDecoder) {frame : DstFrame} (hplain : ¬ frame.Plain) :
    ReportsWritten d frame := by
  intro out out' hlength hret
  have hhead : readHead d.channels frame ≠ .plain := fun h => hplain (readHead_plain_iff.1 h)
  unfold dstDecoderDecode at hret ⊢
  cases h : readHead d.channels frame with
  | invalid | invalidMap felem pelem =>
    rw [h] at hret
    exact absurd hret averrorInvalidData_ne
  | unsupported =>
    rw [h] at hret
    exact absurd hret averrorPatchWelcome_ne
  | plain => exact absurd h hhead
  | mapped felem pelem =>
    rw [h] at hret
    have hreports := decodeMapped_reports felem pelem out out' hret
    exact ⟨hreports.1, fun _ => hreports.2⟩

/-- A decode reports what it wrote exactly for frames that are not plain. -/
theorem reportsWritten_iff (d : DstDecoder) (frame : DstFrame) :
    ReportsWritten d frame ↔ ¬ frame.Plain :=
  ⟨fun h hplain => not_reportsWritten_of_plain d hplain h, reportsWritten_of_not_plain d⟩

/-- A stereo frame of plain samples, all of them there. -/
private def misreportedFrame : DstFrame := ⟨fun _ => 0, 9409⟩

/-- It reports a byte more than a frame has. -/
theorem plainFrame_misreported :
    ∃ d, dstDecoderInit 2 2822400 = some d ∧ d.decodedSize = 9408 ∧
      (dstDecoderDecode d misreportedFrame []).1.len = some 9409 ∧
        ¬ ReportsWritten d misreportedFrame := by
  have hplain : misreportedFrame.Plain := ⟨by decide, by decide, by decide, by decide⟩
  refine ⟨_, rfl, rfl, ?_, not_reportsWritten_of_plain _ hplain⟩
  rw [decode_plain _ hplain]
  rfl

end DsdNexus.Dst
