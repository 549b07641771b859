import DsdNexus.Dsdiff.MetadataBytes
import DsdNexus.Dsdiff.Opened

/-! # DSDIFF: reading DSD audio

`dsdiff_read_dsd_data`, `dsdiff_skip_dsd_data` and `dsdiff_seek_dsd_data`. A file that is
read is compared with a position that moves to the exact place and stops at either end of
the sound data.
-/

namespace DsdNexus.Dsdiff

open Program FileProgram

/-- `dsdiff_seek_dir_t`. -/
inductive SeekDir where
  | start
  | current
  | finish
deriving DecidableEq

/-- `dsdiff_read_dsd_data`: the bytes that are delivered. -/
def readDsdData (byteCount : UInt32) : Dsd (List UInt8) := do
  let s ← get
  if s.handle.isDstFormat then
    pure []
  else
    require (s.handle.mode ≠ .closed) .notOpen
    require (s.handle.mode = .read) .modeWriteOnly
    if byteCount = 0 then
      pure []
    else if s.io.pos < s.handle.soundDataEndPos then
      liftIo (ioReadBytes (if s.handle.soundDataEndPos < s.io.pos + byteCount.toNat then
        s.handle.soundDataEndPos - s.io.pos else byteCount.toNat))
    else fail .endOfData

/-- `dsdiff_skip_dsd_data`: how many sample frames were skipped. Without channels the code
divides by zero. -/
def skipDsdData (skipCount : UInt32) : Dsd UInt32 := do
  let s ← get
  require (s.handle.mode ≠ .closed) .notOpen
  require (s.handle.mode = .read ∨ s.handle.mode = .modify) .modeWriteOnly
  if skipCount = 0 then
    pure 0
  else if s.io.pos < s.handle.soundDataEndPos then
    let wanted := skipCount.toNat * s.handle.channelCount.toNat
    let offset := if s.handle.soundDataEndPos < s.io.pos + wanted then
      s.handle.soundDataEndPos - s.io.pos else wanted
    liftIo (ioSeekCur offset)
    require (s.handle.channelCount ≠ 0) .undefined
    pure (UInt32.ofNat (offset / s.handle.channelCount.toNat))
  else fail .endOfData

/-- The offset in bytes: the product is taken in 64 bits. -/
def byteOffset (frameOffset : Int64) (channelCount : UInt16) : Int :=
  (frameOffset.toInt * channelCount.toNat).bmod (2 ^ 64)

/-- The `switch` over the origin: an offset from a place. -/
def offsetFrom (place : Nat) (offset : Int) : Nat :=
  if 0 ≤ offset then (place + offset.toNat) % 2 ^ 64
  else if place < (-offset).toNat then 0
  else place - (-offset).toNat

/-- From the start of the sound data a negative offset leads there. -/
def seekTarget (h : Handle) (filePos : Nat) (offset : Int) : SeekDir → Nat
  | .start => if 0 ≤ offset then offsetFrom h.soundDataStartPos offset else h.soundDataStartPos
  | .current => offsetFrom filePos offset
  | .finish => offsetFrom h.soundDataEndPos offset

/-- `dsdiff_seek_dsd_data`: while a file is read the target stops at the end of the sound
data, and otherwise the end is moved to it, before the seek. -/
def seekDsdData (frameOffset : Int64) (origin : SeekDir) : Dsd Unit := do
  let s ← get
  if s.handle.isDstFormat then
    pure ()
  else
    require (s.handle.mode ≠ .closed) .notOpen
    let target := max (seekTarget s.handle s.io.pos
      (byteOffset frameOffset s.handle.channelCount) origin) s.handle.soundDataStartPos
    if s.handle.mode = .read then
      liftIo (ioSeekSet (min target s.handle.soundDataEndPos))
    else
      update fun h => { h with soundDataEndPos := max h.soundDataEndPos target }
      liftIo (ioSeekSet target)

/-! ## Calls -/

/-- A call on a file that is read. -/
inductive DsdCall where
  | seek (frameOffset : Int64) (origin : SeekDir)
  | skip (skipCount : UInt32)
  | read (byteCount : UInt32)
deriving DecidableEq

/-- The call, with the bytes it delivers. -/
def DsdCall.run : DsdCall → Dsd (List UInt8)
  | .seek frameOffset origin => do
    seekDsdData frameOffset origin
    pure []
  | .skip skipCount => do
    let _ ← skipDsdData skipCount
    pure []
  | .read byteCount => readDsdData byteCount

/-- What is delivered; an error delivers nothing. -/
def delivered : Except Error (List UInt8) → List UInt8
  | .ok bytes => bytes
  | .error _ => []

/-- A call with the state before it. -/
def callsFrom : OpenHandle → List DsdCall → List (OpenHandle × DsdCall)
  | _, [] => []
  | s, call :: calls => (s, call) :: callsFrom (call.run s).2 calls

/-! ## What the calls are to do -/

/-- The place in the sound data that is closest to the target. -/
def clampToSound (h : Handle) (target : Int) : Int :=
  max h.soundDataStartPos (min h.soundDataEndPos target)

/-- The place an origin stands for. -/
def SeekDir.base (s : OpenHandle) : SeekDir → Nat
  | .start => s.handle.soundDataStartPos
  | .current => s.io.pos
  | .finish => s.handle.soundDataEndPos

/-- Where the call goes, were there no ends. -/
def DsdCall.target (s : OpenHandle) : DsdCall → Int
  | .seek frameOffset origin => origin.base s + frameOffset.toInt * s.handle.channelCount.toNat
  | .skip skipCount => s.io.pos + skipCount.toNat * s.handle.channelCount.toNat
  | .read byteCount => s.io.pos + byteCount.toNat

/-- The bytes the call has to deliver. -/
def DsdCall.delivers (s : OpenHandle) : DsdCall → List UInt8
  | .read byteCount => (s.io.content.drop s.io.pos).take
    (min byteCount.toNat (s.handle.soundDataEndPos - s.io.pos))
  | _ => []

/-- The file stands in the sound data. -/
def InSound (s : OpenHandle) : Prop :=
  s.handle.soundDataStartPos ≤ s.io.pos ∧ s.io.pos ≤ s.handle.soundDataEndPos

/-- A call goes to its target, or as far as the sound data go, and delivers what it has to. -/
structure DsdCall.Exact (s : OpenHandle) (call : DsdCall) : Prop where
  position : ((call.run s).2.io.pos : Int) = clampToSound s.handle (call.target s)
  inSound : InSound (call.run s).2
  delivered : delivered (call.run s).1 = call.delivers s
  defined : (call.run s).1 ≠ .error .undefined
  kept : (call.run s).2.handle = s.handle ∧ (call.run s).2.io.content = s.io.content

/-- The offset of a seek in bytes is a number of 64 bits, a skip has channels to skip, and the
bytes a read asks for are in the file. -/
def DsdCall.Fine (s : OpenHandle) : DsdCall → Prop
  | .seek frameOffset _ => -2 ^ 63 ≤ frameOffset.toInt * s.handle.channelCount.toNat ∧
    frameOffset.toInt * s.handle.channelCount.toNat < 2 ^ 63
  | .skip skipCount => skipCount = 0 ∨ s.io.pos = s.handle.soundDataEndPos ∨
    s.handle.channelCount ≠ 0
  | .read byteCount =>
    s.io.pos + min byteCount.toNat (s.handle.soundDataEndPos - s.io.pos) ≤ s.io.content.length

instance (s : OpenHandle) (call : DsdCall) : Decidable (call.Fine s) :=
  match call with
  | .seek frameOffset _ => inferInstanceAs (Decidable
      (-2 ^ 63 ≤ frameOffset.toInt * s.handle.channelCount.toNat ∧
        frameOffset.toInt * s.handle.channelCount.toNat < 2 ^ 63))
  | .skip skipCount => inferInstanceAs (Decidable
      (skipCount = 0 ∨ s.io.pos = s.handle.soundDataEndPos ∨ s.handle.channelCount ≠ 0))
  | .read byteCount => inferInstanceAs (Decidable
      (s.io.pos + min byteCount.toNat (s.handle.soundDataEndPos - s.io.pos) ≤
        s.io.content.length))

/-- A file of DSD audio that is read, and stands in the sound data. -/
structure ReadsAudio (s : OpenHandle) : Prop where
  mode : s.handle.mode = .read
  isDsd : s.handle.isDstFormat = false
  inSound : InSound s
  end_le : s.handle.soundDataEndPos ≤ ByteFile.offMax

section Calls

variable {s : OpenHandle}

theorem byteOffset_eq {frameOffset : Int64} {channelCount : UInt16}
    (hlow : -2 ^ 63 ≤ frameOffset.toInt * channelCount.toNat)
    (hhigh : frameOffset.toInt * channelCount.toNat < 2 ^ 63) :
    byteOffset frameOffset channelCount = frameOffset.toInt * channelCount.toNat :=
  Int.bmod_eq_of_le (by omega) (by omega)

/-- A place that stays in the sound data is the one closest to the target. -/
theorem offsetFrom_eq {place : Nat} {offset : Int} (hplace : place ≤ ByteFile.offMax)
    (hlow : -2 ^ 63 ≤ offset) (hhigh : offset < 2 ^ 63) :
    (offsetFrom place offset : Int) = max 0 (place + offset) := by
  unfold offsetFrom ByteFile.offMax at *
  split
  · rw [Nat.mod_eq_of_lt (by omega)]
    omega
  · split <;> omega

theorem seekTarget_clamps (hs : ReadsAudio s) {offset : Int} (hlow : -2 ^ 63 ≤ offset)
    (hhigh : offset < 2 ^ 63) (origin : SeekDir) :
    ((min (max (seekTarget s.handle s.io.pos offset origin) s.handle.soundDataStartPos)
      s.handle.soundDataEndPos : Nat) : Int) = clampToSound s.handle (origin.base s + offset) := by
  obtain ⟨hstart, hend⟩ := hs.inSound
  have hmax := hs.end_le
  unfold clampToSound
  cases origin with
  | start =>
    have hfrom := offsetFrom_eq (hstart.trans (hend.trans hmax)) hlow hhigh
    simp only [seekTarget, SeekDir.base]
    split <;> omega
  | current =>
    have hfrom := offsetFrom_eq (hend.trans hmax) hlow hhigh
    simp only [seekTarget, SeekDir.base]
    omega
  | finish =>
    have hfrom := offsetFrom_eq hmax hlow hhigh
    simp only [seekTarget, SeekDir.base]
    omega

/-- A call that only moves the position is exact where it moves it to the right place. -/
theorem exact_of_run (hs : ReadsAudio s) {call : DsdCall} {ret : Except Error (List UInt8)}
    {place : Nat} (hrun : call.run s = (ret, ⟨s.handle, ⟨s.io.content, place⟩⟩))
    (hplace : (place : Int) = clampToSound s.handle (call.target s))
    (hdelivered : delivered ret = call.delivers s) (hdefined : ret ≠ .error .undefined) :
    call.Exact s := by
  have horder : s.handle.soundDataStartPos ≤ s.handle.soundDataEndPos :=
    hs.inSound.1.trans hs.inSound.2
  refine ⟨?_, ?_, ?_, ?_, ?_⟩ <;> rw [hrun]
  · exact hplace
  · unfold clampToSound at hplace
    exact ⟨by dsimp only; omega, by dsimp only; omega⟩
  · exact hdelivered
  · exact hdefined
  · exact ⟨rfl, rfl⟩

theorem ReadsAudio.isOpen (hs : ReadsAudio s) : s.handle.mode ≠ .closed := by
  rw [hs.mode]
  decide

theorem ReadsAudio.next (hs : ReadsAudio s) {call : DsdCall} (hexact : call.Exact s) :
    ReadsAudio (call.run s).2 := by
  have hhandle := hexact.kept.1
  exact ⟨hhandle ▸ hs.mode, hhandle ▸ hs.isDsd, hexact.inSound, hhandle ▸ hs.end_le⟩

theorem seek_exact (hs : ReadsAudio s) {frameOffset : Int64} {origin : SeekDir}
    (hfine : (DsdCall.seek frameOffset origin).Fine s) :
    (DsdCall.seek frameOffset origin).Exact s := by
  obtain ⟨hlow, hhigh⟩ := hfine
  have hclamps := seekTarget_clamps hs hlow hhigh origin
  rw [← byteOffset_eq hlow hhigh] at hclamps
  obtain ⟨place, hplace⟩ : ∃ place, min (max (seekTarget s.handle s.io.pos
      (byteOffset frameOffset s.handle.channelCount) origin) s.handle.soundDataStartPos)
      s.handle.soundDataEndPos = place := ⟨_, rfl⟩
  have hmax := hs.end_le
  have hle : place ≤ ByteFile.offMax := by omega
  have hseek : liftIo (ioSeekSet place) s = (.ok (), ⟨s.handle, ⟨s.io.content, place⟩⟩) := by
    rw [liftIo, zoom_apply, ioSeekSet_of_le hle]
  have hrun : seekDsdData frameOffset origin s =
      (.ok (), ⟨s.handle, ⟨s.io.content, place⟩⟩) := by
    rw [seekDsdData, bind_of_ok (get_apply s), if_neg (Bool.eq_false_iff.1 hs.isDsd),
      require_bind hs.isOpen, if_pos hs.mode, hplace, hseek]
  rw [hplace, byteOffset_eq hlow hhigh] at hclamps
  exact exact_of_run hs (bind_of_ok hrun) hclamps rfl (by simp)

theorem seekCur_sound {offset : Nat} (hoffset : s.io.pos + offset ≤ ByteFile.offMax) :
    liftIo (ioSeekCur offset) s = (.ok (), ⟨s.handle, ⟨s.io.content, s.io.pos + offset⟩⟩) := by
  have hsigned : int64 offset = offset :=
    int64_of_lt (by unfold ByteFile.offMax at hoffset; omega)
  rw [liftIo, zoom_apply, ioSeekCur, hsigned, seekBy_of_le _ hoffset]

/-- A call that leaves the file where it stands is exact where it was to go nowhere. -/
theorem exact_of_stay (hs : ReadsAudio s) {call : DsdCall} {ret : Except Error (List UInt8)}
    (hrun : call.run s = (ret, s))
    (hplace : (s.io.pos : Int) = clampToSound s.handle (call.target s))
    (hdelivered : delivered ret = call.delivers s) (hdefined : ret ≠ .error .undefined) :
    call.Exact s :=
  exact_of_run hs hrun hplace hdelivered hdefined

theorem skip_exact (hs : ReadsAudio s) {skipCount : UInt32}
    (hfine : (DsdCall.skip skipCount).Fine s) : (DsdCall.skip skipCount).Exact s := by
  obtain ⟨hstart, hend⟩ := hs.inSound
  have hmax := hs.end_le
  have hmode : s.handle.mode = .read ∨ s.handle.mode = .modify := .inl hs.mode
  obtain ⟨wanted, hwanted⟩ : ∃ wanted, skipCount.toNat * s.handle.channelCount.toNat = wanted :=
    ⟨_, rfl⟩
  have htarget : (DsdCall.skip skipCount).target s = s.io.pos + wanted := by
    rw [DsdCall.target, ← hwanted]
    push_cast
    rfl
  by_cases hzero : skipCount = 0
  · have hrun : skipDsdData skipCount s = (.ok 0, s) := by
      rw [skipDsdData, bind_of_ok (get_apply s), require_bind hs.isOpen, require_bind hmode,
        if_pos hzero]
      rfl
    have hnone : wanted = 0 := by rw [← hwanted, hzero]; exact Nat.zero_mul _
    refine exact_of_stay hs (bind_of_ok hrun) ?_ rfl (by simp)
    rw [htarget, clampToSound, hnone]
    omega
  by_cases hbefore : s.io.pos < s.handle.soundDataEndPos
  · have hchannels : s.handle.channelCount ≠ 0 := by
      rcases hfine with hzero' | hend' | hchannels
      · exact absurd hzero' hzero
      · omega
      · exact hchannels
    obtain ⟨offset, hoffset⟩ : ∃ offset, (if s.handle.soundDataEndPos < s.io.pos + wanted then
        s.handle.soundDataEndPos - s.io.pos else wanted) = offset := ⟨_, rfl⟩
    have hplace : s.io.pos + offset = min s.handle.soundDataEndPos (s.io.pos + wanted) := by
      split at hoffset <;> omega
    have hrun : ∃ n, skipDsdData skipCount s =
        (.ok n, ⟨s.handle, ⟨s.io.content, s.io.pos + offset⟩⟩) := by
      rw [skipDsdData, bind_of_ok (get_apply s), require_bind hs.isOpen, require_bind hmode,
        if_neg hzero, if_pos hbefore, hwanted, hoffset, bind_of_ok (seekCur_sound (by omega)),
        require_bind hchannels]
      exact ⟨_, rfl⟩
    obtain ⟨n, hrun⟩ := hrun
    refine exact_of_run hs (bind_of_ok hrun) ?_ rfl (by simp)
    rw [htarget, clampToSound]
    omega
  · have hrun : skipDsdData skipCount s = (.error .endOfData, s) := by
      rw [skipDsdData, bind_of_ok (get_apply s), require_bind hs.isOpen, require_bind hmode,
        if_neg hzero, if_neg hbefore]
      rfl
    refine exact_of_stay hs (bind_of_error hrun) ?_ rfl (by simp)
    rw [htarget, clampToSound]
    omega

theorem read_exact (hs : ReadsAudio s) {byteCount : UInt32}
    (hfine : (DsdCall.read byteCount).Fine s) : (DsdCall.read byteCount).Exact s := by
  obtain ⟨hstart, hend⟩ := hs.inSound
  have hmax := hs.end_le
  obtain ⟨wanted, hwanted⟩ : ∃ wanted, byteCount.toNat = wanted := ⟨_, rfl⟩
  have hroom : s.io.pos + min wanted (s.handle.soundDataEndPos - s.io.pos) ≤
      s.io.content.length := hwanted ▸ hfine
  have htarget : (DsdCall.read byteCount).target s = s.io.pos + wanted := by
    rw [DsdCall.target, hwanted]
  have hdelivers : (DsdCall.read byteCount).delivers s = (s.io.content.drop s.io.pos).take
      (min wanted (s.handle.soundDataEndPos - s.io.pos)) := by
    rw [DsdCall.delivers, hwanted]
  by_cases hzero : byteCount = 0
  · have hrun : readDsdData byteCount s = (.ok [], s) := by
      rw [readDsdData, bind_of_ok (get_apply s), if_neg (Bool.eq_false_iff.1 hs.isDsd),
        require_bind hs.isOpen, require_bind hs.mode, if_pos hzero]
      rfl
    have hnone : wanted = 0 := by rw [← hwanted, hzero]; rfl
    refine exact_of_stay hs hrun ?_ ?_ (by simp)
    · rw [htarget, clampToSound, hnone]
      omega
    · rw [hdelivers, hnone, Nat.zero_min, List.take_zero]
      rfl
  by_cases hbefore : s.io.pos < s.handle.soundDataEndPos
  · obtain ⟨count, hcount⟩ : ∃ count, (if s.handle.soundDataEndPos < s.io.pos + wanted then
        s.handle.soundDataEndPos - s.io.pos else wanted) = count := ⟨_, rfl⟩
    have hmin : count = min wanted (s.handle.soundDataEndPos - s.io.pos) := by
      split at hcount <;> omega
    have hread : liftIo (ioReadBytes count) s = (.ok ((s.io.content.drop s.io.pos).take count),
        ⟨s.handle, ⟨s.io.content, s.io.pos + count⟩⟩) := by
      rw [liftIo, zoom_apply, ioReadBytes_of_le (hmin ▸ hroom)]
    have hrun : readDsdData byteCount s = (.ok ((s.io.content.drop s.io.pos).take count),
        ⟨s.handle, ⟨s.io.content, s.io.pos + count⟩⟩) := by
      rw [readDsdData, bind_of_ok (get_apply s), if_neg (Bool.eq_false_iff.1 hs.isDsd),
        require_bind hs.isOpen, require_bind hs.mode, if_neg hzero, if_pos hbefore, hwanted,
        hcount, hread]
    refine exact_of_run hs hrun ?_ ?_ (by simp)
    · rw [htarget, clampToSound]
      omega
    · rw [hdelivers, ← hmin]
      rfl
  · have hrun : readDsdData byteCount s = (.error .endOfData, s) := by
      rw [readDsdData, bind_of_ok (get_apply s), if_neg (Bool.eq_false_iff.1 hs.isDsd),
        require_bind hs.isOpen, require_bind hs.mode, if_neg hzero, if_neg hbefore]
      rfl
    have hnone : s.handle.soundDataEndPos - s.io.pos = 0 := by omega
    refine exact_of_stay hs hrun ?_ ?_ (by simp)
    · rw [htarget, clampToSound]
      omega
    · rw [hdelivers, hnone, Nat.min_zero, List.take_zero]
      rfl

theorem DsdCall.exact_of_fine (hs : ReadsAudio s) {call : DsdCall} (hfine : call.Fine s) :
    call.Exact s := by
  cases call with
  | seek frameOffset origin => exact seek_exact hs hfine
  | skip skipCount => exact skip_exact hs hfine
  | read byteCount => exact read_exact hs hfine

/-- While the calls are fine, each does what it has to. -/
theorem callsFrom_exact (hs : ReadsAudio s) {calls : List DsdCall}
    (hfine : ∀ step ∈ callsFrom s calls, step.2.Fine step.1) :
    ∀ step ∈ callsFrom s calls, step.2.Exact step.1 := by
  induction calls generalizing s with
  | nil =>
    intro step hstep
    cases hstep
  | cons call calls ih =>
    have hfirst := DsdCall.exact_of_fine hs (hfine (s, call) List.mem_cons_self)
    have hrest := ih (hs.next hfirst) fun step hstep => hfine step (List.mem_cons_of_mem _ hstep)
    intro step hstep
    rcases List.mem_cons.1 hstep with rfl | hstep
    · exact hfirst
    · exact hrest step hstep

end Calls

section Opened

variable {nameLen : Nat → Nat} {fuel : Nat} {content : List UInt8} {s : OpenHandle}

theorem readsAudio_of_open (hopen : dsdiffOpen nameLen fuel content = some (.ok s))
    (hfile : content.length ≤ ByteFile.offMax) (hdsd : s.handle.isDstFormat = false)
    (horder : s.handle.soundDataStartPos ≤ s.handle.soundDataEndPos) : ReadsAudio s := by
  obtain ⟨hparsed, hcontent⟩ := dsdiffOpen_parsed hopen
  obtain ⟨env, -, hseek, hhandle⟩ := dsdiffOpen_eq_ok hopen
  have hend := hparsed.end_le (hcontent ▸ hfile)
  have hpos : s.io.pos = s.handle.soundDataStartPos := by
    rw [← hhandle, seekDsdStart, if_neg (Bool.eq_false_iff.1 hdsd), Nat.min_eq_left horder,
      ioSeekSet_of_le (horder.trans hend)] at hseek
    exact (congrArg (fun r => r.2.pos) hseek).symm
  exact ⟨hparsed.handle.mode, hdsd, ⟨hpos.ge, hpos.trans_le horder⟩, hend⟩

/-- In a file whose sound data do not end before they start, calls that are fine move within
the sound data, each to its target or as far as they go, and deliver the bytes there. -/
theorem dsd_calls_exact (hopen : dsdiffOpen nameLen fuel content = some (.ok s))
    (hfile : content.length ≤ ByteFile.offMax) (hdsd : s.handle.isDstFormat = false)
    (horder : s.handle.soundDataStartPos ≤ s.handle.soundDataEndPos) {calls : List DsdCall}
    (hfine : ∀ step ∈ callsFrom s calls, step.2.Fine step.1) :
    InSound s ∧ ∀ step ∈ callsFrom s calls, step.2.Exact step.1 :=
  have hs := readsAudio_of_open hopen hfile hdsd horder
  ⟨hs.inSound, callsFrom_exact hs hfine⟩

/-- Eight bytes of stereo audio, as the library writes them. -/
def stereoFile : List UInt8 :=
  ((do
    let h ← create new .dsd 2 1 2822400
    let h ← writeDsdData h [1, 2, 3, 4, 5, 6, 7, 8]
    finalize h : Io Handle) ⟨[], 0⟩).2.content

/-- The form with FVER, PROP of 74 bytes, and the sound data. -/
theorem stereoFile_bytes : stereoFile =
    [70, 82, 77, 56, 0, 0, 0, 0, 0, 0, 0, 126, 68, 83, 68, 32,
     70, 86, 69, 82, 0, 0, 0, 0, 0, 0, 0, 4, 1, 5, 0, 0,
     80, 82, 79, 80, 0, 0, 0, 0, 0, 0, 0, 74, 83, 78, 68, 32,
     70, 83, 32, 32, 0, 0, 0, 0, 0, 0, 0, 4, 0, 43, 17, 0,
     67, 72, 78, 76, 0, 0, 0, 0, 0, 0, 0, 10, 0, 2, 83, 76, 70, 84, 83, 82, 71, 84,
     67, 77, 80, 82, 0, 0, 0, 0, 0, 0, 0, 20, 68, 83, 68, 32,
     14, 110, 111, 116, 32, 99, 111, 109, 112, 114, 101, 115, 115, 101, 100, 0,
     68, 83, 68, 32, 0, 0, 0, 0, 0, 0, 0, 8, 1, 2, 3, 4, 5, 6, 7, 8] := by
  decide +kernel

/-- There and back, and beyond the end. -/
theorem dsd_calls_exact_stereo :
    ∃ s, dsdiffOpen (fun _ => 255) 40 stereoFile = some (.ok s) ∧ InSound s ∧
      ∀ step ∈ callsFrom s [.seek 1 .current, .read 3, .seek (-9) .finish, .skip 9, .read 1],
        step.2.Exact step.1 := by
  obtain ⟨s, hopen, hcheck⟩ := dsdiffOpen_of_check (fun s =>
    decide (s.handle.isDstFormat = false) &&
      (decide (s.handle.soundDataStartPos ≤ s.handle.soundDataEndPos) &&
        (callsFrom s [.seek 1 .current, .read 3, .seek (-9) .finish, .skip 9, .read 1]).all
          fun step => decide (step.2.Fine step.1)))
    (show (dsdiffOpen (fun _ => 255) 40 stereoFile).any _ = true by
      rw [stereoFile_bytes]
      decide +kernel)
  simp only [Bool.and_eq_true, decide_eq_true_eq, List.all_eq_true] at hcheck
  have hfile : stereoFile.length ≤ ByteFile.offMax := by
    rw [stereoFile_bytes]
    decide +kernel
  exact ⟨s, hopen, dsd_calls_exact hopen hfile hcheck.1 hcheck.2.1 hcheck.2.2⟩

/-- A seek by 2 ^ 62 sample frames of two channels goes to the start. -/
theorem far_seek_not_exact :
    ∃ s, dsdiffOpen (fun _ => 255) 40 stereoFile = some (.ok s) ∧ s.handle.isDstFormat = false ∧
      ¬ (DsdCall.seek (2 ^ 62) .start).Exact s := by
  obtain ⟨s, hopen, hcheck⟩ := dsdiffOpen_of_check (fun s =>
    decide (s.handle.isDstFormat = false) && decide
      (¬ (((DsdCall.seek (2 ^ 62) .start).run s).2.io.pos : Int) =
        clampToSound s.handle ((DsdCall.seek (2 ^ 62) .start).target s)))
    (show (dsdiffOpen (fun _ => 255) 40 stereoFile).any _ = true by
      rw [stereoFile_bytes]
      decide +kernel)
  simp only [Bool.and_eq_true, decide_eq_true_eq] at hcheck
  exact ⟨s, hopen, hcheck.1, fun hexact => hcheck.2 hexact.position⟩

end Opened

end DsdNexus.Dsdiff
