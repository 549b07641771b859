import DsdNexus.Dsf.Layout
import DsdNexus.Lib.Blocks

/-! # DSF: reading the audio

What `dsf_read_audio_data` delivers is the bytes the read buffer still holds and the block
groups of the file behind them, each converted as a whole. Whatever follows the last whole
block group is not delivered: the read that comes upon it fails.
-/

namespace DsdNexus.Dsf

open Program FileProgram Blocks

/-! ## The stream -/

/-- The bytes of a block group. -/
def groupSize (channelCount : Nat) : Nat := blockSizePerChannel * channelCount

/-- The whole block groups of some bytes of a file, byte-interleaved. -/
def playback (channelCount : Nat) (bytes : Bytes) : Bytes :=
  (fullBlocks (groupSize channelCount) bytes).flatMap fun group =>
    convertBlockToByteInterleaved group channelCount

section

variable {c want : Nat} {bytes : Bytes} {s : OpenHandle} {r : Delivered × OpenHandle}

theorem groupSize_pos (hc : 0 < c) : 0 < groupSize c := Nat.mul_pos (by decide) hc

theorem convertBlockToByteInterleaved_length (group : Bytes) (c : Nat) :
    (convertBlockToByteInterleaved group c).length = groupSize c := by
  simp [convertBlockToByteInterleaved, groupSize]

theorem playback_of_short (h : bytes.length < groupSize c) : playback c bytes = [] := by
  rw [playback, fullBlocks_of_short h]
  rfl

theorem playback_of_le (hc : 0 < c) (h : groupSize c ≤ bytes.length) :
    playback c bytes = convertBlockToByteInterleaved (bytes.take (groupSize c)) c ++
      playback c (bytes.drop (groupSize c)) := by
  have hfirst : (bytes.take (groupSize c)).length = groupSize c := by
    rw [List.length_take]
    omega
  have hblocks := fullBlocks_block_append (l := bytes.drop (groupSize c)) (groupSize_pos hc) hfirst
  rw [List.take_append_drop] at hblocks
  rw [playback, hblocks, List.flatMap_cons]
  rfl

theorem playback_length (hc : 0 < c) (bytes : Bytes) :
    (playback c bytes).length = bytes.length / groupSize c * groupSize c := by
  have hall : ∀ blocks : List Bytes, (blocks.flatMap fun group =>
      convertBlockToByteInterleaved group c).length = blocks.length * groupSize c := by
    intro blocks
    induction blocks with
    | nil => simp
    | cons b blocks ih =>
      rw [List.flatMap_cons, List.length_append, convertBlockToByteInterleaved_length, ih,
        List.length_cons, Nat.add_mul, Nat.one_mul, Nat.add_comm]
  rw [playback, hall, fullBlocks_length (groupSize_pos hc)]

/-- The stream from the start of a block group on. -/
theorem playback_drop (hc : 0 < c) (bytes : Bytes) (g : Nat) :
    playback c (bytes.drop (g * groupSize c)) = (playback c bytes).drop (g * groupSize c) := by
  induction g generalizing bytes with
  | zero => simp
  | succ g ih =>
    have hsplit : (g + 1) * groupSize c = groupSize c + g * groupSize c := by
      rw [Nat.add_mul, Nat.one_mul, Nat.add_comm]
    rw [hsplit, ← List.drop_drop, ih]
    by_cases h : groupSize c ≤ bytes.length
    · have hfirst := convertBlockToByteInterleaved_length (bytes.take (groupSize c)) c
      rw [playback_of_le hc h, ← List.drop_drop, List.drop_append_of_le_length (by omega)]
      rw [List.drop_of_length_le hfirst.le, List.nil_append]
    · have hshort : bytes.drop (groupSize c) = [] := List.drop_eq_nil_iff.2 (by omega)
      have hempty : playback c ([] : Bytes) = [] := playback_of_short (groupSize_pos hc)
      rw [hshort, hempty, playback_of_short (by omega)]
      simp

/-- Where in its file a byte of the stream stands. -/
def groupIndex (channelCount j : Nat) : Nat :=
  j / groupSize channelCount * groupSize channelCount +
    (j % groupSize channelCount % channelCount * blockSizePerChannel +
      j % groupSize channelCount / channelCount)

theorem groupIndex_of_lt {j : Nat} (h : j < groupSize c) :
    groupIndex c j = j % c * blockSizePerChannel + j / c := by
  rw [groupIndex, Nat.div_eq_of_lt h, Nat.mod_eq_of_lt h, Nat.zero_mul, Nat.zero_add]

/-- The places in a group are those of the group before, one group on. -/
theorem groupIndex_add (hc : 0 < c) (g j : Nat) :
    groupIndex c (g * groupSize c + j) = g * groupSize c + groupIndex c j := by
  have hdiv : (g * groupSize c + j) / groupSize c = g + j / groupSize c := by
    rw [Nat.add_comm, Nat.add_mul_div_right _ _ (groupSize_pos hc), Nat.add_comm]
  have hmod : (g * groupSize c + j) % groupSize c = j % groupSize c := by
    rw [Nat.add_comm, Nat.add_mul_mod_self_right]
  rw [groupIndex, groupIndex, hdiv, hmod, Nat.add_mul, Nat.add_assoc]

theorem groupIndex_lt {j : Nat} (hc : 0 < c) (h : j < groupSize c) :
    j % c * blockSizePerChannel + j / c < groupSize c := by
  have hchannel : j % c + 1 ≤ c := Nat.mod_lt j hc
  have hplace : j / c < blockSizePerChannel := Nat.div_lt_of_lt_mul (by rwa [Nat.mul_comm])
  have hmul := Nat.mul_le_mul_right blockSizePerChannel hchannel
  rw [Nat.add_mul, Nat.one_mul] at hmul
  rw [groupSize, Nat.mul_comm blockSizePerChannel c]
  omega

theorem playback_getD (hc : 0 < c) (bytes : Bytes) {j : Nat}
    (h : j < (playback c bytes).length) :
    (playback c bytes).getD j 0 = ffReverse (bytes.getD (groupIndex c j) 0) := by
  induction j using Nat.strong_induction_on generalizing bytes with
  | _ j ih =>
    have hgroup : groupSize c ≤ bytes.length := by
      by_contra hshort
      rw [playback_of_short (Nat.lt_of_not_le hshort)] at h
      exact absurd h (Nat.not_lt_zero j)
    have hfirst := convertBlockToByteInterleaved_length (bytes.take (groupSize c)) c
    rw [playback_of_le hc hgroup] at h ⊢
    by_cases hj : j < groupSize c
    · have hlt := groupIndex_lt hc hj
      have hrange : j < blockSizePerChannel * c := hj
      rw [List.getD_append _ _ _ _ (by rwa [hfirst]), groupIndex_of_lt hj]
      simp [convertBlockToByteInterleaved, List.getD, hrange, List.getElem?_take, hlt]
    · have hpos := groupSize_pos hc
      rw [List.length_append, hfirst] at h
      rw [List.getD_append_right _ _ _ _ (by rw [hfirst]; omega), hfirst,
        ih (j - groupSize c) (by omega) _ (by omega)]
      have hback : j = 1 * groupSize c + (j - groupSize c) := by omega
      have hindex : groupIndex c j = groupSize c + groupIndex c (j - groupSize c) := by
        conv_lhs => rw [hback]
        rw [groupIndex_add hc, Nat.one_mul]
      rw [hindex]
      simp [List.getD]

/-- The stream of a part is a part of the stream. -/
theorem playback_isPrefix (hc : 0 < c) {front : Bytes} (h : front <+: bytes) :
    playback c front <+: playback c bytes := by
  obtain ⟨back, rfl⟩ := h
  rw [playback, playback, fullBlocks_append (groupSize_pos hc), List.flatMap_append]
  exact List.prefix_append _ _

/-! ## Reading -/

/-- What the buffer still holds. -/
def unread (s : OpenHandle) : Bytes := s.handle.readBuffer.drop s.handle.readBufferPos

/-- What can still be delivered. -/
def pending (s : OpenHandle) : Bytes :=
  unread s ++ playback s.handle.info.channelCount.toNat s.io.rest

/-- What a read of `want` bytes may change, and what it delivers. -/
structure Delivers (want : Nat) (s : OpenHandle) (r : Delivered × OpenHandle) : Prop where
  bytes : r.1.1 = (pending s).take want
  error : r.1.2 = if want ≤ (pending s).length then none else some .read
  frame : ∃ buffer pos,
    r.2.handle = { s.handle with readBuffer := buffer, readBufferPos := pos }
  content : r.2.io.content = s.io.content
  pending : pending r.2 = (pending s).drop want
  /-- Whole groups are read from the file, no more than are needed. -/
  place : want ≤ (Dsf.pending s).length → ∃ g,
    r.2.io.pos = s.io.pos + g * groupSize s.handle.info.channelCount.toNat ∧
      (unread s).length + g * groupSize s.handle.info.channelCount.toNat =
        want + (unread r.2).length ∧
      (0 < g → (unread r.2).length < groupSize s.handle.info.channelCount.toNat)

theorem ioReadBytes_of_le {n : Nat} {f : ByteFile} (h : n ≤ f.rest.length) :
    ioReadBytes n f = (.ok (f.rest.take n), { f with pos := f.pos + n }) := by
  have hlength : (f.rest.take n).length = n := by
    rw [List.length_take]
    omega
  simp only [ioReadBytes, readExact, ByteFile.read, hlength, if_true]

/-- A short read leaves nothing to be read. -/
theorem ioReadBytes_of_lt {n : Nat} {f : ByteFile} (h : f.rest.length < n) :
    ioReadBytes n f = (.error .read, { f with pos := f.pos + f.rest.length }) := by
  have hall : f.rest.take n = f.rest := List.take_of_length_le h.le
  simp only [ioReadBytes, readExact, ByteFile.read, hall]
  rw [if_neg (by omega)]

theorem unread_serve (s : OpenHandle) (want : Nat) :
    unread (serve s want).2 = (unread s).drop (serve s want).1.length := by
  simp only [unread, serve, List.drop_drop]

theorem serve_fst (s : OpenHandle) (want : Nat) : (serve s want).1 = (unread s).take want := rfl

/-- A turn that serves what the buffer holds, before the rest of the loop. -/
theorem Delivers.of_serve {want : Nat} {s : OpenHandle} {r : Delivered × OpenHandle}
    (h : Delivers (want - (serve s want).1.length) (serve s want).2 r) :
    Delivers want s (((serve s want).1 ++ r.1.1, r.1.2), r.2) := by
  have hlength : (serve s want).1.length = min want (unread s).length := by
    rw [serve_fst, List.length_take]
  have hpending : Dsf.pending (serve s want).2 = (Dsf.pending s).drop (serve s want).1.length := by
    rw [Dsf.pending, unread_serve, Dsf.pending, List.drop_append_of_le_length (by omega)]
    rfl
  have htotal : (Dsf.pending s).length = (unread s).length +
      (playback s.handle.info.channelCount.toNat s.io.rest).length := List.length_append
  have hunread : (unread (serve s want).2).length = (unread s).length - (serve s want).1.length := by
    rw [unread_serve, List.length_drop]
  obtain ⟨buffer, pos, hframe⟩ := h.frame
  constructor
  case bytes =>
    have hsplit : (Dsf.pending s).take want = (Dsf.pending s).take (serve s want).1.length ++
        ((Dsf.pending s).drop (serve s want).1.length).take (want - (serve s want).1.length) := by
      rw [← List.take_add]
      congr 1
      omega
    have hfirst : (Dsf.pending s).take (serve s want).1.length = (serve s want).1 := by
      rw [Dsf.pending, List.take_append_of_le_length (by omega), serve_fst, List.length_take,
        List.take_eq_take_iff]
      omega
    rw [hsplit, hfirst, ← hpending, ← h.bytes]
  case error =>
    have hiff : want - (serve s want).1.length ≤ (Dsf.pending (serve s want).2).length ↔
        want ≤ (Dsf.pending s).length := by
      rw [hpending, List.length_drop]
      omega
    rw [h.error]
    simp only [hiff]
  case frame => exact ⟨buffer, pos, by rw [hframe]; rfl⟩
  case content => exact h.content
  case pending =>
    rw [h.pending, hpending, List.drop_drop]
    congr 1
    omega
  case place =>
    intro hle
    obtain ⟨g, hpos, hsum, hlt⟩ := h.place (by rw [hpending, List.length_drop]; omega)
    refine ⟨g, hpos, ?_, hlt⟩
    rw [hunread] at hsum
    have hinfo : (serve s want).2.handle.info = s.handle.info := rfl
    rw [hinfo] at hsum
    show (unread s).length + g * groupSize s.handle.info.channelCount.toNat =
      want + (unread r.2).length
    omega

theorem Delivers.none (s : OpenHandle) : Delivers 0 s (([], Option.none), s) where
  bytes := by simp
  error := by simp
  frame := ⟨s.handle.readBuffer, s.handle.readBufferPos, rfl⟩
  content := rfl
  pending := by simp
  place _ := ⟨0, by simp, by simp, by simp⟩

/-- The handle once a block group was read and converted. -/
def refilled (s : OpenHandle) : OpenHandle where
  handle := { s.handle with
    readBuffer := convertBlockToByteInterleaved
      (s.io.rest.take (groupSize s.handle.info.channelCount.toNat))
      s.handle.info.channelCount.toNat
    readBufferPos := 0 }
  io := { s.io with pos := s.io.pos + groupSize s.handle.info.channelCount.toNat }

theorem readAndBufferBlockGroup_of_le (hc : 0 < s.handle.info.channelCount.toNat)
    (h : groupSize s.handle.info.channelCount.toNat ≤ s.io.rest.length) :
    readAndBufferBlockGroup s = (.ok (), refilled s) := by
  have hpos := groupSize_pos hc
  have hne : s.io.rest.take (groupSize s.handle.info.channelCount.toNat) ≠ [] := by
    rw [← List.length_pos_iff, List.length_take]
    omega
  have hread := ioReadBytes_of_le h
  unfold groupSize at hread hne
  simp only [readAndBufferBlockGroup, bind_apply, get_apply, liftIo, zoom_apply, hread,
    require_of hne, update, modify_apply, pure_apply]
  rfl

theorem readAndBufferBlockGroup_of_lt
    (h : s.io.rest.length < groupSize s.handle.info.channelCount.toNat) :
    readAndBufferBlockGroup s =
      (.error .read, { s with io := { s.io with pos := s.io.pos + s.io.rest.length } }) := by
  have hread := ioReadBytes_of_lt h
  unfold groupSize at hread
  simp only [readAndBufferBlockGroup, bind_apply, get_apply, liftIo, zoom_apply, hread]

/-- A group read into an empty buffer leaves what is pending as it is. -/
theorem pending_refilled (hc : 0 < s.handle.info.channelCount.toNat) (hempty : unread s = [])
    (h : groupSize s.handle.info.channelCount.toNat ≤ s.io.rest.length) :
    pending (refilled s) = pending s := by
  have hrest : (refilled s).io.rest =
      s.io.rest.drop (groupSize s.handle.info.channelCount.toNat) := by
    simp only [refilled, ByteFile.rest, List.drop_drop]
  have hunread : unread (refilled s) = convertBlockToByteInterleaved
      (s.io.rest.take (groupSize s.handle.info.channelCount.toNat))
      s.handle.info.channelCount.toNat := rfl
  have hinfo : (refilled s).handle.info = s.handle.info := rfl
  rw [pending, hunread, hinfo, hrest, pending, hempty, List.nil_append, playback_of_le hc h]

/-- Nothing is pending where no whole group is left. -/
theorem pending_of_lt (hempty : unread s = [])
    (h : s.io.rest.length < groupSize s.handle.info.channelCount.toNat) : pending s = [] := by
  rw [pending, hempty, playback_of_short h, List.append_nil]

theorem Delivers.of_refilled (hc : 0 < s.handle.info.channelCount.toNat)
    (hempty : unread s = []) (h : groupSize s.handle.info.channelCount.toNat ≤ s.io.rest.length)
    (hwant : 0 < want) (hr : Delivers want (refilled s) r) : Delivers want s r := by
  have hpending := pending_refilled hc hempty h
  have hinfo : (refilled s).handle.info = s.handle.info := rfl
  obtain ⟨buffer, pos, hframe⟩ := hr.frame
  constructor
  case bytes => rw [hr.bytes, hpending]
  case error => rw [hr.error, hpending]
  case frame => exact ⟨buffer, pos, hframe⟩
  case content => exact hr.content
  case pending => rw [hr.pending, hpending]
  case place =>
    intro hle
    obtain ⟨g, hpos, hsum, hlt⟩ := hr.place (by rwa [hpending])
    have hunread : (unread (refilled s)).length = groupSize s.handle.info.channelCount.toNat :=
      convertBlockToByteInterleaved_length _ _
    have hnext : (g + 1) * groupSize s.handle.info.channelCount.toNat =
        groupSize s.handle.info.channelCount.toNat +
          g * groupSize s.handle.info.channelCount.toNat := by
      rw [Nat.add_mul, Nat.one_mul, Nat.add_comm]
    rw [hunread, hinfo] at hsum
    rw [hinfo] at hpos hlt
    refine ⟨g + 1, ?_, ?_, fun _ => ?_⟩
    · rw [hpos, hnext]
      exact Nat.add_assoc _ _ _
    · rw [hempty, hnext]
      simpa using hsum
    · obtain rfl | hg := Nat.eq_zero_or_pos g
      · omega
      · exact hlt hg

/-- What the loop delivers, and what it leaves. -/
theorem readAudioLoop_delivers (fuel : Nat) :
    ∀ (want : Nat) (s : OpenHandle), 0 < s.handle.info.channelCount.toNat → want ≤ fuel →
      Delivers want s (readAudioLoop fuel want s) := by
  induction fuel with
  | zero =>
    intro want s _ hfuel
    obtain rfl : want = 0 := by omega
    exact .none s
  | succ fuel ih =>
    intro want s hc hfuel
    rw [readAudioLoop]
    by_cases hwant : want = 0
    · rw [if_pos hwant, hwant]
      exact .none s
    rw [if_neg hwant]
    -- a turn that serves from a buffer that is not empty makes progress
    have hturn : ∀ t : OpenHandle, 0 < t.handle.info.channelCount.toNat → 0 < (unread t).length →
        Delivers (want - (serve t want).1.length) (serve t want).2
          (readAudioLoop fuel (want - (serve t want).1.length) (serve t want).2) := by
      intro t ht hunread
      refine ih _ _ ht ?_
      rw [serve_fst, List.length_take]
      omega
    by_cases hbuffer : s.handle.readBufferPos < s.handle.readBuffer.length
    · rw [if_pos hbuffer]
      refine .of_serve (hturn s hc ?_)
      rw [unread, List.length_drop]
      omega
    rw [if_neg hbuffer]
    have hempty : unread s = [] := List.drop_eq_nil_iff.2 (by omega)
    by_cases hgroup : groupSize s.handle.info.channelCount.toNat ≤ s.io.rest.length
    · rw [readAndBufferBlockGroup_of_le hc hgroup]
      refine .of_refilled hc hempty hgroup (by omega) (.of_serve (hturn (refilled s) hc ?_))
      have hlength := convertBlockToByteInterleaved_length
        (s.io.rest.take (groupSize s.handle.info.channelCount.toNat))
        s.handle.info.channelCount.toNat
      show 0 < (convertBlockToByteInterleaved _ _).length
      rw [hlength]
      exact groupSize_pos hc
    · rw [readAndBufferBlockGroup_of_lt (by omega)]
      have hnone := pending_of_lt hempty (by omega)
      have hend : pending { s with io := { s.io with pos := s.io.pos + s.io.rest.length } } = [] :=
        pending_of_lt hempty (by
          have hlength := s.io.rest_length
          simp only [ByteFile.rest, List.length_drop] at hlength ⊢
          omega)
      show Delivers want s
        (([], some .read), { s with io := { s.io with pos := s.io.pos + s.io.rest.length } })
      constructor
      case bytes => rw [hnone, List.take_nil]
      case error => rw [hnone, if_neg (by simpa using hwant)]
      case frame => exact ⟨_, _, rfl⟩
      case content => rfl
      case pending => rw [hnone, List.drop_nil, hend]
      case place =>
        intro hle
        rw [hnone] at hle
        exact absurd hle (by simpa using hwant)

end

end DsdNexus.Dsf
