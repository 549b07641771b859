import DsdNexus.Dsf.Opened

/-! # DSF: the end of the audio

Reading goes from block group to block group and never asks for the size of the data. What
stands behind the data is delivered as audio as far as it fills block groups, and the read
that comes upon the rest fails.
-/

namespace DsdNexus.Dsf

open Program FileProgram

/-- Reads in sequence, with what comes of each. -/
def readAll : List Nat → OpenHandle → List (Except Error Delivered)
  | [], _ => []
  | n :: ns, s => (readAudioData n s).1 :: readAll ns (readAudioData n s).2

/-- A stream that ends: a read past its end delivers what is left, and is no error. -/
def served : Bytes → List Nat → List Delivered
  | _, [] => []
  | stream, n :: ns => (stream.take n, none) :: served (stream.drop n) ns

/-- A stream whose end is an error. -/
def servedOrFailed : Bytes → List Nat → List Delivered
  | _, [] => []
  | stream, n :: ns =>
    (stream.take n, if n ≤ stream.length then none else some .read) ::
      servedOrFailed (stream.drop n) ns

/-- How many bytes the reads ask for. -/
def total (ns : List Nat) : Nat := ns.foldr (· + ·) 0

/-- From the start of the audio the reads deliver the audio of the data chunk and stop. -/
def StopsAtEnd (content : Bytes) (s : OpenHandle) (ns : List Nat) : Prop :=
  (seekToAudioStart s).1 = .ok () ∧
    readAll ns (seekToAudioStart s).2 = (served (audioStream content) ns).map .ok

section

variable {content : Bytes} {s : OpenHandle}

/-- The reads drain what is pending. -/
theorem readAll_eq (ns : List Nat) (hmode : s.handle.mode = .read ∨ s.handle.mode = .modify)
    (hc : 0 < s.handle.info.channelCount.toNat) :
    readAll ns s = (servedOrFailed (pending s) ns).map .ok := by
  induction ns generalizing s with
  | nil => rfl
  | cons n ns ih =>
    have hread := readAudioLoop_delivers n n s hc (Nat.le_refl n)
    obtain ⟨buffer, pos, hframe⟩ := hread.frame
    have hfirst : (readAudioLoop n n s).1 =
        ((pending s).take n, if n ≤ (pending s).length then none else some .read) :=
      Prod.ext hread.bytes hread.error
    have hnext := ih (s := (readAudioLoop n n s).2) (by rwa [hframe]) (by rwa [hframe])
    rw [readAll, readAudioData_of_mode hmode, hnext, hread.pending, hfirst, servedOrFailed,
      List.map_cons]

/-- A longer stream serves as its start does exactly as long as the start lasts. -/
theorem servedOrFailed_eq_served_iff {stream front : Bytes} (h : front <+: stream)
    (ns : List Nat) :
    servedOrFailed stream ns = served front ns ↔ total ns ≤ front.length := by
  induction ns generalizing stream front with
  | nil => simp [servedOrFailed, served, total]
  | cons n ns ih =>
    have htotal : total (n :: ns) = n + total ns := rfl
    have hle := h.length_le
    rw [servedOrFailed, served, List.cons.injEq, Prod.mk.injEq, htotal]
    by_cases hn : n ≤ front.length
    · have htake : stream.take n = front.take n := by
        obtain ⟨behind, rfl⟩ := h
        rw [List.take_append_of_le_length hn]
      have hdrop : front.drop n <+: stream.drop n := by
        obtain ⟨behind, rfl⟩ := h
        rw [List.drop_append_of_le_length hn]
        exact List.prefix_append _ _
      rw [ih hdrop, if_pos (hn.trans hle), List.length_drop]
      constructor
      · exact fun hserved => by omega
      · exact fun hserved => ⟨⟨htake, rfl⟩, by omega⟩
    · constructor
      · rintro ⟨⟨hbytes, herror⟩, -⟩
        have hlong : n ≤ stream.length := by
          by_contra hshort
          rw [if_neg hshort] at herror
          cases herror
        have hlength := congrArg List.length hbytes
        rw [List.length_take, List.length_take] at hlength
        omega
      · exact fun hserved => absurd hserved (by omega)

theorem Opened.seekToAudioStart_eq (h : Opened content s)
    (hmode : s.handle.mode = .read ∨ s.handle.mode = .modify) :
    seekToAudioStart s = (.ok (),
      ⟨{ s.handle with readBuffer := [], readBufferPos := 0 }, ⟨content, headSize⟩⟩) := by
  have hoffset : int64 s.handle.info.audioDataOffset = (headSize : Nat) := by
    have hlt : headSize < 2 ^ 63 := by decide
    rw [h.info]
    exact int64_of_lt hlt
  have hseek := ioSeekSet_of_le (p := headSize) (by decide) s.io
  simp only [seekToAudioStart, seekInvalidating, bind_apply, get_apply, require_of hmode, liftIo,
    zoom_apply, hoffset, hseek, update, modify_apply, pure_apply, h.bytes]

/-- Both are what streams serve: the file behind its head, and the data chunk. -/
theorem stopsAtEnd_iff_served (h : IsOpen content s) (ns : List Nat) :
    StopsAtEnd content s ns ↔
      servedOrFailed (playback (storedChannels content) (content.drop headSize)) ns =
        served (audioStream content) ns := by
  obtain ⟨hopened, hmode⟩ := h.opened
  have hseek := hopened.seekToAudioStart_eq hmode
  have hchannels := hopened.channels
  have hc := hopened.storedChannels_pos
  have hpending : pending ⟨{ s.handle with readBuffer := [], readBufferPos := 0 },
      ⟨content, headSize⟩⟩ = playback (storedChannels content) (content.drop headSize) := by
    rw [pending, unread, List.drop_nil, List.nil_append, hchannels, ByteFile.rest]
  have hreads := readAll_eq (s := ⟨{ s.handle with readBuffer := [], readBufferPos := 0 },
    ⟨content, headSize⟩⟩) ns hmode (by rwa [hchannels])
  have hinj : Function.Injective (List.map (Except.ok (ε := Error) (α := Delivered))) :=
    List.map_injective_iff.2 fun _ _ heq => Except.ok.inj heq
  rw [StopsAtEnd, hseek, hreads, hpending, hinj.eq_iff]
  exact and_iff_right rfl

/-- Reading delivers the audio and nothing else exactly as long as no more than the audio is
asked for: what comes upon its end reads on into the metadata, or fails. -/
theorem reading_stops_iff (h : IsOpen content s) (ns : List Nat) :
    StopsAtEnd content s ns ↔ total ns ≤ (audioStream content).length := by
  have hc := h.opened.1.storedChannels_pos
  rw [stopsAtEnd_iff_served h, servedOrFailed_eq_served_iff (audioStream_isPrefix hc)]

end

/-- Some of the audio of a file of one block group, and then none. -/
theorem reading_stops_iff_stereo :
    StopsAtEnd (stereoFile 92 1 (List.replicate 8192 105))
      (stereoHandle 92 1 (List.replicate 8192 105)) [100, 8092, 0] := by
  refine (reading_stops_iff (stereo_open _ (by decide) (by decide) (by decide)) _).2 ?_
  rw [stereo_audioStream_length (by decide) (by decide) (by decide) List.length_replicate]
  decide

/-- The first byte asked of a file without audio is a read error. -/
theorem end_of_audio_fails : ¬ ∀ (content : Bytes) (s : OpenHandle) (ns : List Nat),
    IsOpen content s → StopsAtEnd content s ns := by
  intro h
  have hopen : IsOpen (stereoFile 92 0 []) (stereoHandle 92 0 []) :=
    stereo_open [] (by decide) (by decide) (by decide)
  have hserved := (stopsAtEnd_iff_served hopen [1]).1 (h _ _ [1] hopen)
  rw [servedOrFailed, served, List.cons.injEq, Prod.mk.injEq] at hserved
  have hempty : playback (storedChannels (stereoFile 92 0 []))
      ((stereoFile 92 0 []).drop headSize) = [] := playback_of_short (by decide)
  rw [hempty] at hserved
  exact absurd hserved.1.2 (by decide)

end DsdNexus.Dsf
