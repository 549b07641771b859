import DsdNexus.Dsdpipe.DsdiffFrames

/-! # What reading a track covers

The frames of the DSDIFF source are put together and compared with the bytes of the track.
-/

namespace DsdNexus.Dsdpipe

open Program
open Dsdiff (OpenHandle ReadsAudio readDsdData seekDsdData delivered)

namespace DsdiffSource

/-! ## One frame -/

/-- The context behind so many sample frames of the track. -/
structure At (s : OpenHandle) (t : TrackInfo) (k : Nat) (src : DsdiffSource) : Prop where
  opened : Opened s src
  playing : src.currentTrack ≠ 0
  finish : src.trackEndSample = t.endSample
  position : src.dsdiff.io.pos = s.handle.soundDataStartPos +
    (t.startSample.toNat / 8 + k) * s.handle.channelCount.toNat
  sample : src.currentSample.toNat = t.startSample.toNat + 8 * k

/-- How many sample frames are read of the track. -/
def readable (t : TrackInfo) : Nat := (t.endSample.toNat - t.startSample.toNat) / 8

section Reads

variable {s : OpenHandle} {t : TrackInfo} {src : DsdiffSource} {k capacity : Nat}

theorem InFile.le (hin : InFile s t) : t.startSample.toNat ≤ t.endSample.toNat :=
  UInt64.le_iff_toNat_le.1 hin.ordered

/-- Places in the track are places in the sound data and in the file. -/
theorem InFile.place_le (hin : InFile s t) {n : Nat} (hn : n ≤ t.endSample.toNat / 8) :
    s.handle.soundDataStartPos + n * s.handle.channelCount.toNat ≤ s.handle.soundDataEndPos ∧
      s.handle.soundDataStartPos + n * s.handle.channelCount.toNat ≤ s.io.content.length := by
  have hmul := Nat.mul_le_mul_right s.handle.channelCount.toNat hn
  have hsound := hin.inSound
  have hcontent := hin.inContent
  omega

theorem At.bytesRemaining (h : At s t k src) (hs : ReadsAudio s) (hin : InFile s t)
    (hk : t.startSample.toNat + 8 * k ≤ t.endSample.toNat) :
    src.bytesRemaining.toNat = (readable t - k) * s.handle.channelCount.toNat := by
  have hle : src.currentSample ≤ src.trackEndSample := by
    rw [UInt64.le_iff_toNat_le, h.sample, h.finish]
    exact hk
  have hdiv : (t.endSample.toNat - (t.startSample.toNat + 8 * k)) / 8 = readable t - k := by
    unfold readable
    omega
  have hsmall := Nat.mul_le_mul_right s.handle.channelCount.toNat
    (show readable t - k ≤ t.endSample.toNat / 8 by unfold readable; omega)
  have hsound := hin.inSound
  have hmax := hs.end_le
  unfold Dsdpipe.DsdiffSource.bytesRemaining
  rw [UInt64.toNat_mul, UInt64.toNat_div, UInt64.toNat_sub_of_le _ _ hle, h.sample, h.finish,
    UInt16.toNat_toUInt64, h.opened.channelCount]
  simp only [UInt64.reduceToNat]
  rw [hdiv, Nat.mod_eq_of_lt (by unfold ByteFile.offMax at hmax; omega)]

theorem At.bytesToRead (capacity : Nat) (h : At s t k src) (hs : ReadsAudio s) (hin : InFile s t)
    (hk : t.startSample.toNat + 8 * k ≤ t.endSample.toNat) :
    (src.bytesToRead capacity).toNat =
      min (readSize s capacity) ((readable t - k) * s.handle.channelCount.toNat) := by
  rw [bytesToRead_toNat, h.bytesRemaining hs hin hk, h.opened.bytesPerFrame,
    calcBytesPerFrame_toNat]
  rfl

theorem readSize_le (s : OpenHandle) (capacity : Nat) :
    readSize s capacity ≤ s.handle.sampleRate.toNat / 600 * s.handle.channelCount.toNat :=
  (Nat.min_le_left _ _).trans (Nat.mod_le _ _)

theorem At.readsAudio (h : At s t k src) (hs : ReadsAudio s) (hin : InFile s t)
    (hk : t.startSample.toNat / 8 + k ≤ t.endSample.toNat / 8) : ReadsAudio src.dsdiff :=
  readsAudio_of_same hs h.opened.file (h.position ▸ Nat.le_add_right _ _)
    (h.position ▸ (hin.place_le hk).1)

/-- Nothing is left to read, or there is no room for it. -/
theorem At.readFrame_none (capacity : Nat) (h : At s t k src) (hs : ReadsAudio s) (hin : InFile s t)
    (hk : t.startSample.toNat / 8 + k ≤ t.endSample.toNat / 8)
    (hzero : t.startSample.toNat + 8 * k < t.endSample.toNat →
      (src.bytesToRead capacity).toNat = 0) :
    ∃ next, readFrame capacity src = (.ok none, next) := by
  unfold DsdiffSource.readFrame
  rw [if_neg h.playing]
  by_cases hend : src.trackEndSample ≤ src.currentSample
  · rw [if_pos hend]
    exact ⟨_, rfl⟩
  rw [if_neg hend]
  rw [UInt64.le_iff_toNat_le, h.sample, h.finish] at hend
  have hnone : src.bytesToRead capacity = 0 := UInt32.toNat_inj.1 (hzero (by omega))
  have hexact : (Dsdiff.DsdCall.read 0).Exact src.dsdiff :=
    Dsdiff.read_exact (h.readsAudio hs hin hk) (by
      have hcontent := (hin.place_le hk).2
      change src.dsdiff.io.pos + min 0 _ ≤ _
      rw [h.position, h.opened.file.2]
      omega)
  have hdelivered : delivered (readDsdData 0 src.dsdiff).1 = [] := by
    rw [show readDsdData 0 src.dsdiff = (Dsdiff.DsdCall.read 0).run src.dsdiff from rfl,
      hexact.delivered, Dsdiff.DsdCall.delivers]
    exact List.take_zero
  rw [hnone]
  dsimp only
  rw [hdelivered, if_pos rfl]
  exact ⟨_, rfl⟩

/-- A frame of so many bytes: how far the counters go, and that the context keeps up where these
are whole sample frames. -/
structure Delivers (s : OpenHandle) (t : TrackInfo) (k m : Nat) (frame : SourceFrame)
    (next : DsdiffSource) : Prop where
  data : frame.data = slice s.io.content (s.handle.soundDataStartPos +
    (t.startSample.toNat / 8 + k) * s.handle.channelCount.toNat) m
  length : frame.data.length = m
  sample : next.currentSample.toNat =
    t.startSample.toNat + 8 * (k + m / s.handle.channelCount.toNat)
  lastFlag : frame.trackEnd = true ↔ t.endSample.toNat ≤ next.currentSample.toNat
  next : s.handle.channelCount.toNat ∣ m → At s t (k + m / s.handle.channelCount.toNat) next

/-- What the library reads for the frame. -/
theorem At.read_data (h : At s t k src) (hs : ReadsAudio s) (hin : InFile s t) {m : Nat}
    (hsize : (src.bytesToRead capacity).toNat = m)
    (hend : (t.startSample.toNat / 8 + k) * s.handle.channelCount.toNat + m ≤
      t.endSample.toNat / 8 * s.handle.channelCount.toNat)
    (hk : t.startSample.toNat / 8 + k ≤ t.endSample.toNat / 8) :
    delivered (readDsdData (src.bytesToRead capacity) src.dsdiff).1 =
        slice s.io.content (s.handle.soundDataStartPos +
          (t.startSample.toNat / 8 + k) * s.handle.channelCount.toNat) m ∧
      (readDsdData (src.bytesToRead capacity) src.dsdiff).2.io.pos = src.dsdiff.io.pos + m := by
  obtain ⟨place, hplace⟩ : ∃ place, s.handle.soundDataStartPos +
    (t.startSample.toNat / 8 + k) * s.handle.channelCount.toNat = place := ⟨_, rfl⟩
  have hpos : src.dsdiff.io.pos = place := h.position.trans hplace
  have hsound := hin.inSound
  have hlen := hin.inContent
  obtain ⟨hhandle, hcontent⟩ := h.opened.file
  have hexact : (Dsdiff.DsdCall.read (src.bytesToRead capacity)).Exact src.dsdiff :=
    Dsdiff.read_exact (h.readsAudio hs hin hk) (by
      change src.dsdiff.io.pos + min _ _ ≤ _
      rw [hsize, hpos, hcontent]
      omega)
  have hall : min m (s.handle.soundDataEndPos - place) = m := by omega
  constructor
  · have hdelivered := hexact.delivered
    rw [hplace]
    rwa [Dsdiff.DsdCall.delivers, hsize, hpos, hcontent, hhandle, hall] at hdelivered
  · have hposition := hexact.position
    rw [Dsdiff.clampToSound, Dsdiff.DsdCall.target, hsize, hhandle, hpos] at hposition
    change ((readDsdData (src.bytesToRead capacity) src.dsdiff).2.io.pos : Int) = _ at hposition
    omega

/-- The 32 bits are enough for the samples of a frame. -/
theorem Opened.samplesRead (capacity : Nat) (h : Opened s src) {data : List UInt8}
    (hsize : data.length ≤ readSize s capacity) :
    (src.samplesRead data).toNat = 8 * (data.length / s.handle.channelCount.toNat) := by
  have hle := readSize_le s capacity
  have h32 : readSize s capacity < 2 ^ 32 :=
    (Nat.min_le_left _ _).trans_lt (Nat.mod_lt _ (by decide))
  have hframes : data.length / s.handle.channelCount.toNat ≤ s.handle.sampleRate.toNat / 600 :=
    Nat.div_le_of_le_mul (by rw [Nat.mul_comm]; omega)
  have hrate := s.handle.sampleRate.toNat_lt
  unfold DsdiffSource.samplesRead
  rw [UInt32.toNat_mul, UInt32.toNat_div, UInt16.toNat_toUInt32, h.channelCount,
    UInt32.toNat_ofNat_of_lt' (by change data.length < 2 ^ 32; omega)]
  simp only [UInt32.reduceToNat]
  omega

theorem At.readFrame_some (h : At s t k src) (hs : ReadsAudio s) (hin : InFile s t)
    (hk : t.startSample.toNat + 8 * k ≤ t.endSample.toNat) {m : Nat} (hm : 0 < m)
    (hsize : (src.bytesToRead capacity).toNat = m) :
    ∃ frame next, readFrame capacity src = (.ok (some frame), next) ∧
      Delivers s t k m frame next := by
  have hmin := h.bytesToRead capacity hs hin hk
  rw [hsize] at hmin
  obtain ⟨channels, hch⟩ : ∃ channels, s.handle.channelCount.toNat = channels := ⟨_, rfl⟩
  rw [hch] at hmin
  have hroom : m ≤ (readable t - k) * channels := by omega
  have hpos : 0 < (readable t - k) * channels := hm.trans_le hroom
  have hleft : k < readable t := Nat.lt_of_sub_pos (Nat.pos_of_mul_pos_right hpos)
  have hchannels : 0 < channels := Nat.pos_of_mul_pos_left hpos
  have hreadable : 8 * readable t ≤ t.endSample.toNat - t.startSample.toNat :=
    Nat.mul_div_le _ _
  have hend : (t.startSample.toNat / 8 + k) * channels + m ≤
      t.endSample.toNat / 8 * channels := by
    have hsum : t.startSample.toNat / 8 + k + (readable t - k) ≤ t.endSample.toNat / 8 := by omega
    have hmul := Nat.mul_le_mul_right channels hsum
    rw [Nat.add_mul] at hmul
    omega
  obtain ⟨hdata, hnext⟩ := h.read_data hs hin hsize (by rwa [hch]) (by omega)
  obtain ⟨data, hdataEq⟩ : ∃ data,
    delivered (readDsdData (src.bytesToRead capacity) src.dsdiff).1 = data := ⟨_, rfl⟩
  rw [hdataEq, hch] at hdata
  have hlength : data.length = m := by
    have hcontent := hin.inContent
    rw [hdata]
    exact slice_length_of_le (by rw [hch] at hcontent; omega)
  have hcurrent : ¬ src.trackEndSample ≤ src.currentSample := by
    rw [UInt64.le_iff_toNat_le, h.sample, h.finish]
    omega
  have hsome : data ≠ [] := by
    rintro rfl
    exact hm.ne hlength
  have hzero : src.channelCount ≠ 0 := by
    rw [h.opened.channelCount]
    intro hzero
    rw [hzero] at hch
    exact hchannels.ne hch
  have hrun : readFrame capacity src = (.ok (some (fillBuffer
      { src with dsdiff := (readDsdData (src.bytesToRead capacity) src.dsdiff).2 } data).1),
      (fillBuffer { src with dsdiff := (readDsdData (src.bytesToRead capacity) src.dsdiff).2 }
        data).2) := by
    unfold DsdiffSource.readFrame
    rw [if_neg h.playing, if_neg hcurrent]
    dsimp only
    rw [hdataEq, if_neg hsome, if_neg hzero]
  have hwhole : m / channels ≤ readable t - k := Nat.div_le_of_le_mul (by
    rw [Nat.mul_comm]
    exact hroom)
  have hsample : (src.currentSample + (src.samplesRead data).toUInt64).toNat =
      t.startSample.toNat + 8 * (k + m / channels) := by
    have hfinish := t.endSample.toNat_lt
    rw [UInt64.toNat_add, UInt32.toNat_toUInt64,
      h.opened.samplesRead capacity (by omega), hlength, hch, h.sample]
    omega
  refine ⟨_, _, hrun, ?_, hlength, ?_, ?_, fun hdvd => ⟨?_, h.playing, h.finish, ?_, ?_⟩⟩
  · rw [hch]
    exact hdata
  · rw [hch]
    exact hsample
  · change decide (src.trackEndSample ≤ src.currentSample + _) = true ↔ _
    rw [decide_eq_true_eq, UInt64.le_iff_toNat_le, h.finish]
    rfl
  · exact h.opened.of_file (sameFile_readDsdData _ src.dsdiff) rfl
  · change (readDsdData (src.bytesToRead capacity) src.dsdiff).2.io.pos = _
    rw [hch] at hdvd
    rw [hnext, h.position, hch, ← Nat.add_assoc, Nat.add_mul _ (m / channels),
      Nat.div_mul_cancel hdvd]
    omega
  · rw [hch]
    exact hsample

/-- Behind the seek the context stands at the start of the track. -/
theorem Opened.seek (h : Opened s src) (hs : ReadsAudio s) (hin : InFile s t) {number : UInt8}
    (htrack : (openedSource s).track number = some t) :
    ∃ sought, src.seekTrack number = (.ok (), sought) ∧ At s t 0 sought := by
  obtain ⟨hhandle, hcontent⟩ := h.file
  obtain ⟨channels, hch⟩ : ∃ channels, s.handle.channelCount.toNat = channels := ⟨_, rfl⟩
  have hplace := (hin.place_le (n := t.startSample.toNat / 8)
    (Nat.div_le_div_right hin.le)).1
  rw [hch] at hplace
  have hmax := hs.end_le
  have hsrc : src.track number = some t := by
    rw [← htrack, track, track, h.tracks]
  have hoffset : (t.startSample / 8).toInt64.toInt = (t.startSample.toNat / 8 : Nat) := by
    have hdiv : (t.startSample / 8).toNat = t.startSample.toNat / 8 := UInt64.toNat_div _ _
    have hsmall := t.startSample.toNat_lt
    have hmod : (t.startSample / 8).toInt64.toInt =
        ((t.startSample / 8).toNat : Int).bmod (2 ^ 64) := BitVec.toInt_eq_toNat_bmod _
    rw [hmod, hdiv]
    exact Int.bmod_eq_of_le (by omega) (by omega)
  have hseek : seekDsdData (t.startSample / 8).toInt64 .start src.dsdiff = (.ok (),
      ⟨src.dsdiff.handle, ⟨src.dsdiff.io.content,
        s.handle.soundDataStartPos + t.startSample.toNat / 8 * channels⟩⟩) := by
    have hmode : src.dsdiff.handle.mode = .read := hhandle ▸ hs.mode
    have hdst : src.dsdiff.handle.isDstFormat = false := hhandle ▸ hs.isDsd
    have hbytes : Dsdiff.byteOffset (t.startSample / 8).toInt64 src.dsdiff.handle.channelCount =
        (t.startSample.toNat / 8 * channels : Nat) := by
      unfold ByteFile.offMax at hmax
      rw [Dsdiff.byteOffset, hoffset, hhandle, hch, ← Nat.cast_mul]
      exact Int.bmod_eq_of_le (by omega) (by omega)
    have htarget : min (max (Dsdiff.seekTarget src.dsdiff.handle src.dsdiff.io.pos
        (Dsdiff.byteOffset (t.startSample / 8).toInt64 src.dsdiff.handle.channelCount) .start)
        src.dsdiff.handle.soundDataStartPos) src.dsdiff.handle.soundDataEndPos =
          s.handle.soundDataStartPos + t.startSample.toNat / 8 * channels := by
      unfold ByteFile.offMax at hmax
      rw [hbytes, hhandle, Dsdiff.seekTarget, if_pos (Int.natCast_nonneg _), Dsdiff.offsetFrom,
        if_pos (Int.natCast_nonneg _), Int.toNat_natCast, Nat.mod_eq_of_lt (by omega)]
      omega
    rw [seekDsdData, bind_of_ok (get_apply _), if_neg (Bool.eq_false_iff.1 hdst),
      require_bind (by rw [hmode]; decide), if_pos hmode, htarget, Dsdiff.liftIo, zoom_apply,
      Dsdiff.ioSeekSet_of_le (hplace.trans hmax)]
  refine ⟨_, by unfold DsdiffSource.seekTrack; rw [hsrc]; dsimp only; rw [hseek], ?_⟩
  refine ⟨h.of_file ⟨rfl, rfl⟩ rfl, ?_, rfl, ?_, rfl⟩
  · rintro rfl
    cases htrack
  · rw [hch, Nat.add_zero]

end Reads

/-! ## A whole track -/

section Track

variable {s : OpenHandle} {t : TrackInfo} {src : DsdiffSource} {k capacity : Nat}

theorem returns_of_frame {run : FrameRun} {frame : SourceFrame} {next : DsdiffSource}
    {r : Except SourceError FrameRun × DsdiffSource}
    (hread : readFrame capacity src = (.ok (some frame), next))
    (hrest : Loop.Returns (readTurn capacity) (run ++ [(frame, next)], next) r) :
    Loop.Returns (readTurn capacity) (run, src) r :=
  Loop.returns_of_inl (by unfold readTurn; rw [hread]) hrest

theorem returns_of_none {run : FrameRun} {next : DsdiffSource}
    (hread : readFrame capacity src = (.ok none, next)) :
    Loop.Returns (readTurn capacity) (run, src) (.ok run, next) :=
  Loop.returns_of_inr (by unfold readTurn; rw [hread])

/-- Frames of whole sample frames, from a place in the track to the last one that is read. -/
inductive Paced (s : OpenHandle) (t : TrackInfo) : Nat → FrameRun → Prop where
  | done {k : Nat} (hk : k = readable t) : Paced s t k []
  | frame {k j : Nat} {frame : SourceFrame} {next : DsdiffSource} {rest : FrameRun} (hj : 0 < j)
      (hdelivers : Delivers s t k (j * s.handle.channelCount.toNat) frame next)
      (hrest : Paced s t (k + j) rest) : Paced s t k ((frame, next) :: rest)

/-- What is whole for the track is whole for the rest of it. -/
theorem dvd_min_of_dvd {channels size n : Nat} (h : channels ∣ min size (n * channels)) (k : Nat) :
    channels ∣ min size ((n - k) * channels) := by
  have hle : (n - k) * channels ≤ n * channels := Nat.mul_le_mul_right _ (Nat.sub_le _ _)
  rcases Nat.le_total size ((n - k) * channels) with hsize | hsize
  · rw [Nat.min_eq_left (hsize.trans hle)] at h
    rwa [Nat.min_eq_left hsize]
  · rw [Nat.min_eq_right hsize]
    exact Dvd.intro_left _ rfl

/-- Where what is read at once are whole sample frames, so are the frames. -/
theorem At.paced (h : At s t k src) (hs : ReadsAudio s) (hin : InFile s t)
    (hchannels : 0 < s.handle.channelCount.toNat)
    (hsize : k < readable t → 0 < readSize s capacity)
    (hdvd : s.handle.channelCount.toNat ∣
      min (readSize s capacity) (readable t * s.handle.channelCount.toNat))
    (hk : k ≤ readable t) (run : FrameRun) :
    ∃ rest last, Loop.Returns (readTurn capacity) (run, src) (.ok (run ++ rest), last) ∧
      Paced s t k rest := by
  induction hn : readable t - k using Nat.strongRecOn generalizing k src run with
  | _ n ih =>
    have hreadable : 8 * readable t ≤ t.endSample.toNat - t.startSample.toNat :=
      Nat.mul_div_le _ _
    have hle := hin.le
    have hmin := h.bytesToRead capacity hs hin (by omega)
    rcases hk.eq_or_lt with rfl | hlt
    · rw [Nat.sub_self, Nat.zero_mul, Nat.min_zero] at hmin
      obtain ⟨next, hread⟩ := h.readFrame_none capacity hs hin (by omega) fun _ => hmin
      exact ⟨[], next, by rw [List.append_nil]; exact returns_of_none hread, .done rfl⟩
    · obtain ⟨j, hj⟩ := dvd_min_of_dvd hdvd k
      rw [hj] at hmin
      have hpos : 0 < j := by
        rcases Nat.eq_zero_or_pos j with rfl | hpos
        · have hleft := Nat.mul_pos (Nat.sub_pos_of_lt hlt) hchannels
          have hroom := hsize hlt
          omega
        · exact hpos
      rw [Nat.mul_comm] at hmin
      obtain ⟨frame, next, hread, hdelivers⟩ := h.readFrame_some hs hin (by omega)
        (Nat.mul_pos hpos hchannels) hmin
      have hnext := hdelivers.next (Dvd.intro_left j rfl)
      rw [Nat.mul_div_cancel _ hchannels] at hnext
      have hfar : k + j ≤ readable t := by
        have hroom : j * s.handle.channelCount.toNat ≤
            (readable t - k) * s.handle.channelCount.toNat := by
          rw [Nat.mul_comm j]
          omega
        have hj := Nat.le_of_mul_le_mul_right hroom hchannels
        omega
      obtain ⟨rest, last, hreturns, hpaced⟩ := ih (readable t - (k + j)) (by omega) hnext
        (fun hlt => hsize (by omega)) hfar (run ++ [(frame, next)]) rfl
      rw [List.append_assoc] at hreturns
      exact ⟨(frame, next) :: rest, last, returns_of_frame hread hreturns,
        .frame hpos hdelivers hpaced⟩

theorem Paced.le {run : FrameRun} (h : Paced s t k run) : k ≤ readable t := by
  induction h with
  | done hk => exact hk.le
  | frame => omega

/-- The bytes of the frames, one behind the other. -/
theorem Paced.bytes {run : FrameRun} (h : Paced s t k run) :
    run.bytes = slice s.io.content (s.handle.soundDataStartPos +
      (t.startSample.toNat / 8 + k) * s.handle.channelCount.toNat)
        ((readable t - k) * s.handle.channelCount.toNat) := by
  induction h with
  | done hk =>
    rw [hk, Nat.sub_self, Nat.zero_mul]
    rfl
  | @frame k j frame next rest hj hdelivers hrest ih =>
    have hle := hrest.le
    have hsplit : (readable t - k) * s.handle.channelCount.toNat =
        j * s.handle.channelCount.toNat +
          (readable t - (k + j)) * s.handle.channelCount.toNat := by
      rw [← Nat.add_mul]
      congr 1
      omega
    have hplace : s.handle.soundDataStartPos +
        (t.startSample.toNat / 8 + k) * s.handle.channelCount.toNat +
          j * s.handle.channelCount.toNat = s.handle.soundDataStartPos +
            (t.startSample.toNat / 8 + (k + j)) * s.handle.channelCount.toNat := by
      rw [Nat.add_assoc, ← Nat.add_mul, Nat.add_assoc]
    change frame.data ++ FrameRun.bytes rest = _
    rw [hsplit, Stripes.slice_add, hplace, hdelivers.data, ih]

/-- What has been counted behind a frame, and whether more are to come. -/
theorem Paced.behind {run : FrameRun} (h : Paced s t k run) {front : FrameRun}
    {x : SourceFrame × DsdiffSource} {rest : FrameRun} (hrun : run = front ++ x :: rest)
    (hchannels : 0 < s.handle.channelCount.toNat) :
    ∃ n, (FrameRun.bytes (front ++ [x])).length = (n - k) * s.handle.channelCount.toNat ∧ k ≤ n ∧
      n ≤ readable t ∧ x.2.currentSample.toNat = t.startSample.toNat + 8 * n ∧
      (x.1.trackEnd = true ↔ t.endSample.toNat ≤ x.2.currentSample.toNat) ∧
      (rest = [] ↔ n = readable t) := by
  induction h generalizing front with
  | done => simp at hrun
  | @frame k j frame next tail hj hdelivers htail ih =>
    have hlength := hdelivers.length
    cases front with
    | nil =>
      obtain ⟨rfl, rfl⟩ := List.cons.inj hrun
      have hsample := hdelivers.sample
      rw [Nat.mul_div_cancel _ hchannels] at hsample
      refine ⟨k + j, ?_, Nat.le_add_right k j, htail.le, hsample, hdelivers.lastFlag, ?_⟩
      · rw [Nat.add_sub_cancel_left, ← hlength]
        simp [FrameRun.bytes]
      · constructor
        · rintro rfl
          cases htail with
          | done hk => exact hk
        · intro hn
          cases htail with
          | done => rfl
          | frame hj _ hrest =>
            have hle := hrest.le
            omega
    | cons y front =>
      obtain ⟨rfl, rfl⟩ := List.cons.inj hrun
      obtain ⟨n, hbytes, hle, hrest⟩ := ih rfl
      refine ⟨n, ?_, by omega, hrest⟩
      change (frame.data ++ FrameRun.bytes (front ++ [x])).length = _
      rw [List.length_append, hbytes, hlength, ← Nat.add_mul]
      congr 1
      omega

/-- Where the frames are whole sample frames, reading covers the track if and only if it ends at
a bit of a byte where it starts. -/
theorem Paced.covers_iff {run : FrameRun} (h : Paced s t 0 run) (hin : InFile s t)
    (hchannels : 0 < s.handle.channelCount.toNat)
    (hframes : t.startSample.toNat / 8 < t.endSample.toNat / 8) :
    run.Covers t.startSample.toNat s.handle.channelCount.toNat (trackBytes s t) ↔
      t.startSample.toNat % 8 = t.endSample.toNat % 8 := by
  have hle := hin.le
  have hbytes := h.bytes
  rw [Nat.add_zero, Nat.sub_zero] at hbytes
  have hreadable : readable t = (t.endSample.toNat - t.startSample.toNat) / 8 := rfl
  constructor
  · rintro ⟨hdata, -, hlast⟩
    have hplace := hin.inContent
    have hinside : ∀ n, t.startSample.toNat / 8 + n ≤ t.endSample.toNat / 8 →
        (slice s.io.content (s.handle.soundDataStartPos +
          t.startSample.toNat / 8 * s.handle.channelCount.toNat)
            (n * s.handle.channelCount.toNat)).length = n * s.handle.channelCount.toNat := by
      intro n hn
      have hmul := Nat.mul_le_mul_right s.handle.channelCount.toNat hn
      rw [Nat.add_mul] at hmul
      exact slice_length_of_le (by omega)
    rw [hbytes, trackBytes] at hdata
    have hlength := congrArg List.length hdata
    rw [hinside _ (by omega), hinside _ (by omega)] at hlength
    have hsame := Nat.eq_of_mul_eq_mul_right hchannels hlength
    obtain ⟨front, x, hrun⟩ : ∃ front x, run = front ++ [x] := by
      rcases List.eq_nil_or_concat run with rfl | ⟨front, x, hrun⟩
      · cases h with
        | done hk => omega
      · exact ⟨front, x, hrun.trans List.concat_eq_append⟩
    obtain ⟨n, -, -, -, hsample, hflag, hrest⟩ := h.behind hrun hchannels
    have hend := hflag.1 ((hlast front x [] hrun).2 rfl)
    have hn := hrest.1 rfl
    omega
  · intro hbits
    refine ⟨?_, ?_, ?_⟩
    · rw [hbytes, trackBytes, show readable t =
        t.endSample.toNat / 8 - t.startSample.toNat / 8 by omega]
    · intro front x rest hrun
      obtain ⟨n, hcount, -, -, hsample, -, -⟩ := h.behind hrun hchannels
      rw [hcount, hsample, Nat.sub_zero, Nat.add_mul, Nat.mul_assoc]
    · intro front x rest hrun
      obtain ⟨n, -, -, hn, hsample, hflag, hrest⟩ := h.behind hrun hchannels
      rw [hflag, hsample, hrest]
      omega

/-- The first frame stays the first one. -/
theorem first_of_returns {run : FrameRun} {frame : SourceFrame} {next last : DsdiffSource}
    (hread : readFrame capacity src = (.ok (some frame), next))
    (h : Loop.Returns (readTurn capacity) ([], src) (.ok run, last)) :
    [(frame, next)] <+: run := by
  have hfirst : readTurn capacity ([], src) = .inl ([(frame, next)], next) := by
    unfold readTurn
    rw [hread]
    rfl
  refine Loop.Returns.of_invariant (I := fun r => r = ([], src) ∨ [(frame, next)] <+: r.1)
    (Q := fun r => ∀ run, r.1 = .ok run → [(frame, next)] <+: run) ?_ ?_ (.inl rfl) h run rfl
  · rintro r r' (rfl | hr) hturn
    · obtain rfl := Sum.inl.inj (hfirst.symm.trans hturn)
      exact .inr (List.prefix_refl _)
    · unfold readTurn at hturn
      split at hturn
      · obtain rfl := Sum.inl.inj hturn
        exact .inr (hr.trans (List.prefix_append _ _))
      · cases hturn
      · cases hturn
  · rintro r result (rfl | hr) hturn run hrun
    · cases hfirst.symm.trans hturn
    · unfold readTurn at hturn
      split at hturn
      · cases hturn
      · obtain rfl := Sum.inr.inj hturn
        obtain rfl := Except.ok.inj hrun
        exact hr
      · obtain rfl := Sum.inr.inj hturn
        cases hrun

/-- Where the context stands at the start of the track, what reading covers. -/
theorem At.covers_iff (h : At s t 0 src) (hs : ReadsAudio s) (hin : InFile s t) :
    (∃ run last, Loop.Returns (readTurn capacity) ([], src) (.ok run, last) ∧
        run.Covers t.startSample.toNat s.handle.channelCount.toNat (trackBytes s t)) ↔
      (t.startSample.toNat / 8 < t.endSample.toNat / 8 → s.handle.channelCount ≠ 0 →
        t.startSample.toNat % 8 = t.endSample.toNat % 8 ∧ 0 < readSize s capacity ∧
          s.handle.channelCount.toNat ∣ min (readSize s capacity)
            ((t.endSample.toNat / 8 - t.startSample.toNat / 8) *
              s.handle.channelCount.toNat)) := by
  have hle := hin.le
  have hreadable : readable t = (t.endSample.toNat - t.startSample.toNat) / 8 := rfl
  have hsize := h.bytesToRead capacity hs hin (by omega)
  rw [Nat.sub_zero] at hsize
  constructor
  · rintro ⟨run, last, hreturns, hcovers⟩ hframes hzero
    have hchannels : 0 < s.handle.channelCount.toNat :=
      Nat.pos_of_ne_zero fun h => hzero (UInt16.toNat_inj.1 h)
    have hmore : run.bytes ≠ [] := by
      have hcontent := hin.inContent
      have hmul := Nat.mul_le_mul_right s.handle.channelCount.toNat
        (show t.startSample.toNat / 8 + (t.endSample.toNat / 8 - t.startSample.toNat / 8) ≤
          t.endSample.toNat / 8 by omega)
      rw [Nat.add_mul] at hmul
      rw [hcovers.bytes, ← List.length_pos_iff, trackBytes, slice_length_of_le (by omega)]
      exact Nat.mul_pos (by omega) hchannels
    obtain ⟨m, hm⟩ : ∃ m, (src.bytesToRead capacity).toNat = m := ⟨_, rfl⟩
    rcases Nat.eq_zero_or_pos m with rfl | hpos
    · obtain ⟨next, hread⟩ := h.readFrame_none capacity hs hin (by omega) fun _ => hm
      have hnone := Loop.returns_unique hreturns (returns_of_none hread)
      cases hnone
      exact absurd rfl hmore
    · obtain ⟨frame, next, hread, hdelivers⟩ := h.readFrame_some hs hin (by omega) hpos hm
      obtain ⟨rest, hrun⟩ := first_of_returns hread hreturns
      have hcount := hcovers.counted [] (frame, next) rest hrun.symm
      have hlength : (FrameRun.bytes ([] ++ [(frame, next)])).length = m := by
        rw [← hdelivers.length]
        simp [FrameRun.bytes]
      rw [hlength, hdelivers.sample, Nat.zero_add, Nat.add_mul, Nat.mul_assoc] at hcount
      have hdvd : s.handle.channelCount.toNat ∣ m :=
        Dvd.intro_left (m / s.handle.channelCount.toNat) (by omega)
      rw [← hm, hsize] at hdvd
      have hread0 : 0 < readSize s capacity := by omega
      obtain ⟨paced, last', hreturns', hpaced⟩ :=
        h.paced hs hin hchannels (fun _ => hread0) hdvd (Nat.zero_le _) []
      cases Loop.returns_unique hreturns hreturns'
      have hbits := (hpaced.covers_iff hin hchannels hframes).1 hcovers
      rw [show t.endSample.toNat / 8 - t.startSample.toNat / 8 = readable t by omega]
      exact ⟨hbits, hread0, hdvd⟩
  · intro hwhole
    by_cases hframes : t.startSample.toNat / 8 < t.endSample.toNat / 8 ∧
      s.handle.channelCount ≠ 0
    · obtain ⟨hbits, hread0, hdvd⟩ := hwhole hframes.1 hframes.2
      have hchannels : 0 < s.handle.channelCount.toNat :=
        Nat.pos_of_ne_zero fun h => hframes.2 (UInt16.toNat_inj.1 h)
      rw [show t.endSample.toNat / 8 - t.startSample.toNat / 8 = readable t by omega] at hdvd
      obtain ⟨run, last, hreturns, hpaced⟩ :=
        h.paced hs hin hchannels (fun _ => hread0) hdvd (Nat.zero_le _) []
      exact ⟨run, last, hreturns, (hpaced.covers_iff hin hchannels hframes.1).2 hbits⟩
    · have hnone : (t.endSample.toNat / 8 - t.startSample.toNat / 8) *
          s.handle.channelCount.toNat = 0 := by
        rcases not_and_or.1 hframes with hnot | hnot
        · rw [Nat.sub_eq_zero_of_le (Nat.not_lt.1 hnot), Nat.zero_mul]
        · rw [not_not.1 hnot]
          rfl
      have hzero : readable t * s.handle.channelCount.toNat = 0 :=
        Nat.le_zero.1 (hnone ▸ Nat.mul_le_mul_right _ (by omega))
      obtain ⟨next, hread⟩ := h.readFrame_none capacity hs hin (by omega)
        fun _ => by rw [hsize, hzero, Nat.min_zero]
      refine ⟨[], next, returns_of_none hread, ?_, ?_, ?_⟩
      · rw [trackBytes, hnone]
        rfl
      · intro front x rest hrun
        simp at hrun
      · intro front x rest hrun
        simp at hrun

theorem readsTrack_iff (h : Opened s src) (hs : ReadsAudio s) (hin : InFile s t) {number : UInt8}
    (htrack : (openedSource s).track number = some t) :
    ReadsTrack s src capacity number t ↔ WholeFrames s capacity t := by
  obtain ⟨sought, hseek, hat⟩ := h.seek hs hin htrack
  have hcounted : getTrackFrames number src ≠ .error .undefined ↔
      75 ≤ s.handle.sampleRate.toNat := by
    have hsrc : src.track number = some t := by
      rw [← htrack, track, track, h.tracks]
    have hdiv : src.sampleRate / dsdiffSourceFrameRate = 0 ↔
        ¬ 75 ≤ s.handle.sampleRate.toNat := by
      rw [← UInt32.toNat_inj, UInt32.toNat_div, h.sampleRate]
      exact Nat.div_eq_zero_iff_lt (by decide) |>.trans Nat.not_le.symm
    unfold getTrackFrames
    rw [hsrc]
    dsimp only
    split
    · next hzero => simpa using hdiv.1 hzero
    · next hzero => simpa using not_not.1 (mt hdiv.2 hzero)
  constructor
  · rintro ⟨⟨sought', run, last, hseek', hreturns, hcovers⟩, hdefined⟩
    cases hseek.symm.trans hseek'
    exact ⟨hcounted.1 hdefined, (hat.covers_iff hs hin).1 ⟨run, last, hreturns, hcovers⟩⟩
  · rintro ⟨hrate, hframes⟩
    obtain ⟨run, last, hreturns, hcovers⟩ := (hat.covers_iff hs hin).2 hframes
    exact ⟨⟨sought, run, last, hseek, hreturns, hcovers⟩, hcounted.2 hrate⟩

end Track

section File

variable {nameLen : Nat → Nat} {fuel : Nat} {content : List UInt8} {s : OpenHandle}

instance (s : OpenHandle) (t : TrackInfo) : Decidable (InFile s t) :=
  decidable_of_iff (t.startSample ≤ t.endSample ∧
    s.handle.soundDataStartPos + t.endSample.toNat / 8 * s.handle.channelCount.toNat ≤
      s.handle.soundDataEndPos ∧
    s.handle.soundDataStartPos + t.endSample.toNat / 8 * s.handle.channelCount.toNat ≤
      s.io.content.length)
    ⟨fun h => ⟨h.1, h.2.1, h.2.2⟩, fun h => ⟨h.1, h.2, h.3⟩⟩

/-- Where a file has a track, it reads audio. -/
theorem InFile.readsAudio (hopen : Dsdiff.dsdiffOpen nameLen fuel content = some (.ok s))
    (hfile : content.length ≤ ByteFile.offMax) (hdsd : s.handle.isDstFormat = false)
    {t : TrackInfo} (hin : InFile s t) : ReadsAudio s :=
  Dsdiff.readsAudio_of_open hopen hfile hdsd (by
    have hsound := hin.inSound
    omega)

/-- Whatever has been read before, a track that is in the file is read as it has to be if and
only if its frames are whole. -/
theorem reads_track_iff (hopen : Dsdiff.dsdiffOpen nameLen fuel content = some (.ok s))
    (hfile : content.length ≤ ByteFile.offMax) (hdsd : s.handle.isDstFormat = false)
    (calls : List Call) (capacity : Nat) {number : UInt8} {t : TrackInfo}
    (htrack : (openedSource s).track number = some t) (hin : InFile s t) :
    ReadsTrack s ((openedSource s).after calls) capacity number t ↔ WholeFrames s capacity t :=
  have hs := hin.readsAudio hopen hfile hdsd
  readsTrack_iff ((openedSource_opened s).after hs.mode calls) hs hin htrack

/-- The eight bytes of `stereoFile`, with a marker that starts a track at a sample. -/
def markedFile (sample : UInt8) : List UInt8 :=
  [70, 82, 77, 56, 0, 0, 0, 0, 0, 0, 0, 172, 68, 83, 68, 32,
   70, 86, 69, 82, 0, 0, 0, 0, 0, 0, 0, 4, 1, 5, 0, 0,
   80, 82, 79, 80, 0, 0, 0, 0, 0, 0, 0, 74, 83, 78, 68, 32,
   70, 83, 32, 32, 0, 0, 0, 0, 0, 0, 0, 4, 0, 43, 17, 0,
   67, 72, 78, 76, 0, 0, 0, 0, 0, 0, 0, 10, 0, 2, 83, 76, 70, 84, 83, 82, 71, 84,
   67, 77, 80, 82, 0, 0, 0, 0, 0, 0, 0, 20, 68, 83, 68, 32,
   14, 110, 111, 116, 32, 99, 111, 109, 112, 114, 101, 115, 115, 101, 100, 0,
   68, 83, 68, 32, 0, 0, 0, 0, 0, 0, 0, 8, 1, 2, 3, 4, 5, 6, 7, 8,
   68, 73, 73, 78, 0, 0, 0, 0, 0, 0, 0, 34, 77, 65, 82, 75, 0, 0, 0, 0, 0, 0, 0, 22,
   0, 0, 0, 0, 0, 0, 0, sample, 0, 0, 0, 0, 0, 0, 0, 0, 0, 0, 0, 0, 0, 0]

/-- The track of the marker at sample 8, with the buffers of the pipeline. -/
theorem reads_track_iff_marked :
    ∃ s t, Dsdiff.dsdiffOpen (fun _ => 255) 40 (markedFile 8) = some (.ok s) ∧
      (openedSource s).track 1 = some t ∧
      (ReadsTrack s ((openedSource s).after [.read 28224, .seek 1, .read 28224]) 28224 1 t ↔
        WholeFrames s 28224 t) := by
  obtain ⟨s, hopen, hcheck⟩ := Dsdiff.dsdiffOpen_of_check (fun s =>
    decide (s.handle.isDstFormat = false) &&
      ((openedSource s).track 1).any fun t => decide (InFile s t))
    (show (Dsdiff.dsdiffOpen (fun _ => 255) 40 (markedFile 8)).any _ = true by decide +kernel)
  simp only [Bool.and_eq_true, decide_eq_true_eq, Option.any_eq_true] at hcheck
  obtain ⟨hdsd, t, htrack, hin⟩ := hcheck
  exact ⟨s, t, hopen, htrack, reads_track_iff hopen (by decide +kernel) hdsd _ 28224 htrack hin⟩

/-- A track from sample 4 on loses its last byte of each channel, and no frame has the flag. -/
theorem marked_track_not_read :
    ∃ s t, Dsdiff.dsdiffOpen (fun _ => 255) 40 (markedFile 4) = some (.ok s) ∧
      (openedSource s).track 1 = some t ∧ InFile s t ∧
      ¬ ReadsTrack s (openedSource s) 28224 1 t := by
  obtain ⟨s, hopen, hcheck⟩ := Dsdiff.dsdiffOpen_of_check (fun s =>
    decide (s.handle.isDstFormat = false) && (decide (s.handle.channelCount ≠ 0) &&
      ((openedSource s).track 1).any fun t => decide (InFile s t ∧
        t.startSample.toNat / 8 < t.endSample.toNat / 8 ∧
        t.startSample.toNat % 8 ≠ t.endSample.toNat % 8)))
    (show (Dsdiff.dsdiffOpen (fun _ => 255) 40 (markedFile 4)).any _ = true by decide +kernel)
  simp only [Bool.and_eq_true, decide_eq_true_eq, Option.any_eq_true] at hcheck
  obtain ⟨hdsd, hchannels, t, htrack, hin, hframes, hbits⟩ := hcheck
  have hs := hin.readsAudio hopen (by decide +kernel) hdsd
  refine ⟨s, t, hopen, htrack, hin, fun hreads => hbits ?_⟩
  have hwhole := (readsTrack_iff (openedSource_opened s) hs hin htrack).1 hreads
  exact (hwhole.frames hframes hchannels).1

end File

end DsdiffSource

end DsdNexus.Dsdpipe
