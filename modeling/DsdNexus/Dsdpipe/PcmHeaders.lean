import DsdNexus.Dsdpipe.Pipeline
import Mathlib.Data.UInt

/-! # The headers of PCM files

What the sinks for WAV and FLAC declare when they open the file of a track, and what
`write_frame` then hands to the libraries that write it. The rate is chosen three times: for the
converter, for the header, and by the caller.
-/

namespace DsdNexus.Dsdpipe

open Program

/-- The options of `dsdpipe_add_sink_wav` and `dsdpipe_add_sink_flac`. -/
inductive PcmOptions where
  | wav (bitDepth sampleRate : Int32)
  | flac (bitDepth compression : Int32)
deriving DecidableEq

def PcmOptions.type : PcmOptions → SinkType
  | .wav _ _ => .wav
  | .flac _ _ => .flac

/-- What the two functions check. -/
def PcmOptions.Accepted : PcmOptions → Prop
  | .wav bitDepth _ => bitDepth = 16 ∨ bitDepth = 24 ∨ bitDepth = 32
  | .flac bitDepth compression =>
    (bitDepth = 16 ∨ bitDepth = 24) ∧ 0 ≤ compression ∧ compression ≤ 8

/-- The context of an open sink. -/
structure PcmSink where
  bitDepth : Int32
  sampleRate : Int32
  format : Format

/-- A rate above 100000 is taken for one of DSD. -/
def autoRate (format : Format) : Int32 :=
  if 100000 < format.sampleRate then Int32.ofNat (format.sampleRate / 32)
  else Int32.ofNat format.sampleRate

/-- `wav_sink_open` -/
def wavSinkOpen (bitDepth sampleRate : Int32) (format : Format) : PcmSink where
  bitDepth := if bitDepth ≠ 16 ∧ bitDepth ≠ 24 ∧ bitDepth ≠ 32 then 24 else bitDepth
  sampleRate := if sampleRate = 0 then autoRate format else sampleRate
  format := format

/-- `flac_sink_open` -/
def flacSinkOpen (bitDepth : Int32) (format : Format) : PcmSink where
  bitDepth := if bitDepth ≠ 16 ∧ bitDepth ≠ 24 then 24 else bitDepth
  sampleRate := autoRate format
  format := format

def PcmOptions.openSink : PcmOptions → Format → PcmSink
  | .wav bitDepth sampleRate => wavSinkOpen bitDepth sampleRate
  | .flac bitDepth _ => flacSinkOpen bitDepth

/-- `drwav_data_format`, and the settings of a FLAC encoder. -/
structure PcmHeader where
  isFloat : Bool
  channels : Nat
  sampleRate : UInt32
  bitsPerSample : UInt32
deriving DecidableEq

/-- What `wav_sink_track_start` and `flac_sink_track_start` declare. -/
def PcmOptions.header (options : PcmOptions) (sink : PcmSink) : PcmHeader where
  isFloat := match options with
    | .wav _ _ => sink.bitDepth = 32
    | .flac _ _ => false
  channels := sink.format.channelCount
  sampleRate := sink.sampleRate.toUInt32
  bitsPerSample := sink.bitDepth.toUInt32

/-- `get_bytes_per_sample` -/
def FormatType.bytesPerSample : FormatType → Nat
  | .pcmInt16 => 2
  | .pcmInt24 => 3
  | .pcmInt32 => 4
  | .pcmFloat32 => 4
  | .pcmFloat64 => 8
  | .unknown | .dsdRaw | .dst => 0

/-- `get_output_bytes_per_sample` -/
def outputBytesPerSample (bitDepth : Int32) : Nat :=
  if bitDepth = 16 then 2 else if bitDepth = 24 then 3 else if bitDepth = 32 then 4 else 2

/-- The bits `flac_sink_write_frame` brings the samples of a type to. -/
def flacSampleBits (bitDepth : Int32) : FormatType → UInt32
  | .pcmInt16 | .pcmInt24 => if bitDepth = 16 then 16 else 24
  | .pcmInt32 => if bitDepth = 24 then 24 else 16
  | .pcmFloat32 | .pcmFloat64 => bitDepth.toUInt32
  | .unknown | .dsdRaw | .dst => 0

/-- What `write_frame` hands over: so many frames of all channels, with the rate their samples
have. -/
structure Written where
  frames : Nat
  channels : Nat
  sampleRate : Nat
  bitsPerSample : UInt32
deriving DecidableEq

/-- `WAV_SINK_MAX_CHANNELS` and `FLAC_SINK_MAX_CHANNELS` -/
def PcmOptions.maxChannels : PcmOptions → Nat
  | .wav _ _ => 6
  | .flac _ _ => 8

/-- `wav_sink_write_frame` and `flac_sink_write_frame` with a buffer of so many bytes, where a
file is open and there is memory. -/
def PcmOptions.writeFrame (options : PcmOptions) (sink : PcmSink) (format : Format) (size : Nat) :
    Except Int (Option Written) :=
  let bytesPerSample := format.type.bytesPerSample
  if bytesPerSample = 0 then .error errorInvalidArg
  else if size / bytesPerSample = 0 then .ok none
  else if format.channelCount = 0 ∨ options.maxChannels < format.channelCount then
    .error errorInvalidArg
  else
    let frames := size / bytesPerSample / format.channelCount
    if frames = 0 then .ok none
    else .ok (some ⟨frames, format.channelCount, format.sampleRate, match options with
      | .wav _ _ => 8 * UInt32.ofNat (outputBytesPerSample sink.bitDepth)
      | .flac _ _ => flacSampleBits sink.bitDepth format.type⟩)

/-- The header declares what is written behind it. -/
def PcmHeader.Declares (header : PcmHeader) (written : Written) : Prop :=
  header.sampleRate.toNat = written.sampleRate ∧ header.channels = written.channels ∧
    header.bitsPerSample = written.bitsPerSample

/-- Whatever buffer the converter fills, the header of a file declares what is written. -/
def PcmOptions.DeclaresAudio (options : PcmOptions) (p : Pipe) (sink : Sink) : Prop :=
  ∀ converter, p.dsd2pcm = some converter → ∀ size written,
    options.writeFrame (options.openSink (p.sinkFormat sink)) converter.outputFormat size =
      .ok (some written) →
    (options.header (options.openSink (p.sinkFormat sink))).Declares written

/-- The rate a file gets is left to the sink, and the converter's is not taken for one of DSD;
or it is the converter's. -/
def PcmOptions.KeepsRate (options : PcmOptions) (rate : Nat) : Prop :=
  match options with
  | .wav _ sampleRate =>
    (sampleRate = 0 ∧ rate / 32 ≤ 100000) ∨ sampleRate = Int32.ofNat (rate / 32)
  | .flac _ _ => rate / 32 ≤ 100000

section Setup

variable {α : Type} {e : Env α} {p : Pipe} {r r' : Run α}

theorem demand_eq_ok {ε : Type} {c : Call α} {status : Int} {exit : Int → ε} {u : Unit}
    (h : demand c status exit r = (.ok u, r')) : status = ok ∧ r' = r.logged c status := by
  obtain ⟨_, s, hrecord, hrequire⟩ := bind_eq_ok h
  obtain ⟨hstatus, rfl⟩ := require_eq_ok hrequire
  cases hrecord
  exact ⟨hstatus, rfl⟩

/-- Where the transforms are set up for PCM, the converter has been. -/
theorem setupConverter_spec {input : Format} {u : Unit}
    (h : setupConverter e p input r = (.ok u, r')) :
    (1 ≤ input.channelCount ∧ input.channelCount ≤ 6) ∧
      r'.pipe.dsd2pcm = some ⟨true, input, pcmFormat p.pcmUseFp64 input⟩ := by
  obtain ⟨_, r1, -, h⟩ := bind_eq_ok h
  obtain ⟨_, r2, -, h⟩ := bind_eq_ok h
  obtain ⟨_, r3, hinit, h⟩ := bind_eq_ok h
  obtain ⟨hstatus, -⟩ := demand_eq_ok hinit
  cases h
  refine ⟨?_, rfl⟩
  split at hstatus
  · next hinput => exact hinput.2
  · cases hstatus

theorem setupTransforms_converter {u : Unit} (h : setupTransforms e p r = (.ok u, r'))
    (hpcm : p.needsPcm = true) :
    (1 ≤ p.dsdFormat.channelCount ∧ p.dsdFormat.channelCount ≤ 6) ∧
      r'.pipe.dsd2pcm = some ⟨true, p.dsdFormat, pcmFormat p.pcmUseFp64 p.dsdFormat⟩ := by
  obtain ⟨_, r1, -, h⟩ := bind_eq_ok h
  rw [when_of hpcm] at h
  exact setupConverter_spec h

end Setup

/-! ## Rates -/

theorem toUInt32_eq_iff (x : Int32) {n : Nat} (hn : n < 2 ^ 32) :
    x.toUInt32.toNat = n ↔ x = Int32.ofNat n := by
  have hof : (Int32.ofNat n).toUInt32.toNat = n := UInt32.toNat_ofNat_of_lt' hn
  constructor
  · intro h
    rw [← Int32.toInt32_toUInt32 x, ← Int32.toInt32_toUInt32 (Int32.ofNat n)]
    exact congrArg UInt32.toInt32 (UInt32.toNat_inj.1 (h.trans hof.symm))
  · rintro rfl
    exact hof

theorem autoRate_eq_iff {format : Format} (hrate : format.sampleRate < 2 ^ 32) :
    (autoRate format).toUInt32.toNat = format.sampleRate ↔ format.sampleRate ≤ 100000 := by
  have hof : ∀ {n : Nat}, n < 2 ^ 32 → (Int32.ofNat n).toUInt32.toNat = n :=
    fun hn => UInt32.toNat_ofNat_of_lt' hn
  unfold autoRate
  split
  · rw [hof (by omega)]
    omega
  · rw [hof hrate]
    omega

/-- The rate in the header is that of the samples. -/
theorem PcmOptions.header_rate_iff (options : PcmOptions) {format : Format} {rate : Nat}
    (hrate : rate < 2 ^ 32) (hformat : format.sampleRate = rate / 32) :
    (options.header (options.openSink format)).sampleRate.toNat = format.sampleRate ↔
      options.KeepsRate rate := by
  have hsmall : format.sampleRate < 2 ^ 32 := by omega
  cases options with
  | wav bitDepth sampleRate =>
    change (if sampleRate = 0 then autoRate format else sampleRate).toUInt32.toNat = _ ↔
      (sampleRate = 0 ∧ rate / 32 ≤ 100000) ∨ sampleRate = Int32.ofNat (rate / 32)
    rw [← hformat]
    by_cases hzero : sampleRate = 0
    · rw [if_pos hzero, autoRate_eq_iff hsmall]
      constructor
      · exact fun hle => .inl ⟨hzero, hle⟩
      · rintro (⟨-, hle⟩ | heq)
        · exact hle
        · have hnat := (toUInt32_eq_iff sampleRate hsmall).2 heq
          rw [hzero] at hnat
          exact hnat.symm.le.trans (by decide)
    · rw [if_neg hzero, toUInt32_eq_iff sampleRate hsmall]
      exact ⟨.inr, fun h => h.resolve_left fun hleft => hzero hleft.1⟩
  | flac bitDepth compression =>
    change (autoRate format).toUInt32.toNat = _ ↔ rate / 32 ≤ 100000
    rw [← hformat]
    exact autoRate_eq_iff hsmall

/-- With options that have been accepted, the sample size in the header is that of floats
brought to it. -/
theorem PcmOptions.header_bits {options : PcmOptions} (hoptions : options.Accepted)
    {format buffer : Format} (hbuffer : buffer.type = .pcmFloat32 ∨ buffer.type = .pcmFloat64)
    {size : Nat} {written : Written}
    (h : options.writeFrame (options.openSink format) buffer size = .ok (some written)) :
    (options.header (options.openSink format)).bitsPerSample = written.bitsPerSample ∧
      written.channels = buffer.channelCount ∧ written.sampleRate = buffer.sampleRate := by
  unfold writeFrame at h
  dsimp only at h
  split at h
  · cases h
  split at h
  · cases h
  split at h
  · cases h
  split at h
  · cases h
  obtain rfl := Option.some.inj (Except.ok.inj h)
  refine ⟨?_, rfl, rfl⟩
  cases options with
  | wav bitDepth sampleRate =>
    rcases hoptions with rfl | rfl | rfl <;> rfl
  | flac bitDepth compression =>
    rcases hbuffer with htype | htype <;> (dsimp only; rw [htype]; rfl)

section Setup

variable {α : Type} {e : Env α} {p : Pipe} {r r' : Run α}

/-- A buffer with a sample for each channel is written. -/
theorem PcmOptions.writeFrame_some (options : PcmOptions) (sink : PcmSink) {format : Format}
    (hbytes : format.type.bytesPerSample ≠ 0) (hlow : 1 ≤ format.channelCount)
    (hhigh : format.channelCount ≤ 6) :
    ∃ written, options.writeFrame sink format
      (format.channelCount * format.type.bytesPerSample) = .ok (some written) := by
  have hmax : format.channelCount ≤ options.maxChannels := by
    cases options with
    | wav => exact hhigh
    | flac => exact hhigh.trans (show 6 ≤ 8 by decide)
  have hframes : format.channelCount * format.type.bytesPerSample / format.type.bytesPerSample =
      format.channelCount := Nat.mul_div_cancel _ (Nat.pos_of_ne_zero hbytes)
  unfold writeFrame
  dsimp only
  rw [if_neg hbytes, hframes, if_neg (by omega), if_neg (by omega), Nat.div_self hlow,
    if_neg (by decide)]
  exact ⟨_, rfl⟩

theorem Pipe.dsdFormat_rate (p : Pipe) : p.dsdFormat.sampleRate = p.sourceFormat.sampleRate := by
  unfold Pipe.dsdFormat
  split <;> rfl

theorem PcmOptions.caps (options : PcmOptions) (writeDst : Bool) :
    (Sink.create options.type writeDst).caps.pcm = true ∧
      (Sink.create options.type writeDst).caps.dsd = false := by
  cases options <;> exact ⟨rfl, rfl⟩

theorem declaresAudio_of_converter {q : Pipe} {options : PcmOptions} (hoptions : options.Accepted)
    {writeDst useFp64 : Bool} {input : Format} (hrate : input.sampleRate < 2 ^ 32)
    (hlow : 1 ≤ input.channelCount) (hhigh : input.channelCount ≤ 6)
    (hconverter : q.dsd2pcm = some ⟨true, input, pcmFormat useFp64 input⟩) :
    options.DeclaresAudio q (Sink.create options.type writeDst) ↔
      options.KeepsRate input.sampleRate := by
  obtain ⟨format, hformat⟩ : ∃ format, pcmFormat useFp64 input = format := ⟨_, rfl⟩
  rw [hformat] at hconverter
  have hgiven : q.sinkFormat (Sink.create options.type writeDst) = format := by
    unfold Pipe.sinkFormat
    rw [(options.caps writeDst).1, hconverter]
  have hpcmRate : format.sampleRate = input.sampleRate / 32 := by
    rw [← hformat]
    rfl
  have htype : format.type = .pcmFloat32 ∨ format.type = .pcmFloat64 := by
    rw [← hformat]
    cases useFp64
    · exact .inl rfl
    · exact .inr rfl
  have hchannels : format.channelCount = input.channelCount := by
    rw [← hformat]
    rfl
  have hbytes : format.type.bytesPerSample ≠ 0 := by
    rcases htype with htype | htype <;> (rw [htype]; decide)
  rw [← options.header_rate_iff hrate hpcmRate]
  unfold PcmOptions.DeclaresAudio
  rw [hgiven, hconverter]
  constructor
  · intro h
    obtain ⟨written, hwritten⟩ := options.writeFrame_some (options.openSink format) hbytes
      (hchannels ▸ hlow) (hchannels ▸ hhigh)
    obtain ⟨-, -, hsampleRate⟩ := PcmOptions.header_bits hoptions htype hwritten
    rw [← hsampleRate]
    exact (h _ rfl _ _ hwritten).1
  · intro h converter hsome size written hwritten
    obtain rfl := Option.some.inj hsome
    obtain ⟨hbits, hwrittenChannels, hsampleRate⟩ :=
      PcmOptions.header_bits hoptions htype hwritten
    refine ⟨h.trans hsampleRate.symm, ?_, hbits⟩
    rw [hwrittenChannels]
    cases options <;> rfl

/-- Behind transforms that have been set up, the file of a sink for PCM declares the audio it
contains if and only if its options keep the converter's rate. -/
theorem declares_audio_iff (hsetup : setupTransforms e p r = (.ok (), r'))
    {options : PcmOptions} (hoptions : options.Accepted) {writeDst : Bool}
    (hsink : Sink.create options.type writeDst ∈ p.sinks)
    (hrate : p.sourceFormat.sampleRate < 2 ^ 32) :
    options.DeclaresAudio r'.pipe (Sink.create options.type writeDst) ↔
      options.KeepsRate p.sourceFormat.sampleRate := by
  obtain ⟨hpcm, hdsd⟩ := options.caps writeDst
  have hneeds : p.needsPcm = true :=
    List.any_eq_true.2 ⟨_, hsink, by rw [hpcm, hdsd]; rfl⟩
  obtain ⟨⟨hlow, hhigh⟩, hconverter⟩ := setupTransforms_converter hsetup hneeds
  rw [← p.dsdFormat_rate] at hrate ⊢
  exact declaresAudio_of_converter hoptions hrate hlow hhigh hconverter

end Setup

/-- A pipe with a stereo source of DSD and one sink. -/
def dsdPipe (rate : Nat) (type : SinkType) : Pipe where
  state := .configured
  sourceType := .dsf
  sourceFormat := ⟨.dsdRaw, rate, 2, 1, 75⟩
  sinks := [Sink.create type false]
  isOpen := fun _ => false
  fileOpen := fun _ => false
  tracks := [1]
  dstDecoder := none
  dsd2pcm := none
  pcmQuality := 1
  pcmUseFp64 := false
  poolsInitialized := true
  cancelled := false

/-- What a run meets where nothing fails. -/
def untroubled : Env Unit := ⟨fun _ => ok, 1, fun _ => .ended ok, fun _ => false⟩

/-- DSD64 to WAV, with the rate left to the sink. -/
theorem declares_audio_iff_dsd64 :
    ∃ r', setupTransforms untroubled (dsdPipe 2822400 .wav) ⟨dsdPipe 2822400 .wav, []⟩ =
        (.ok (), r') ∧
      ((PcmOptions.wav 24 0).DeclaresAudio r'.pipe (Sink.create .wav false) ↔
        (PcmOptions.wav 24 0).KeepsRate 2822400) :=
  ⟨_, rfl, declares_audio_iff (e := untroubled) (p := dsdPipe 2822400 .wav) rfl
    (show (PcmOptions.wav 24 0).Accepted from .inr (.inl rfl)) List.mem_cons_self (by decide)⟩

/-- DSD128 to FLAC: samples of 176400 Hz behind a header of 5512 Hz. -/
theorem dsd128_misdeclared :
    ∃ r', setupTransforms untroubled (dsdPipe 5644800 .flac) ⟨dsdPipe 5644800 .flac, []⟩ =
        (.ok (), r') ∧
      ¬ (PcmOptions.flac 24 5).DeclaresAudio r'.pipe (Sink.create .flac false) := by
  refine ⟨_, rfl, fun h => ?_⟩
  have hkeeps : (PcmOptions.flac 24 5).KeepsRate 5644800 :=
    (declaresAudio_of_converter
      (show (PcmOptions.flac 24 5).Accepted from ⟨.inr rfl, by decide, by decide⟩)
      (by decide) (by decide) (by decide) rfl).1 h
  exact absurd hkeeps (show ¬ 5644800 / 32 ≤ 100000 by decide)

end DsdNexus.Dsdpipe
