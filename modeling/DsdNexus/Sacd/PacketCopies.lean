import Mathlib.Algebra.BigOperators.Group.List.Basic
import Mathlib.Algebra.Order.Ring.Nat
import DsdNexus.Sacd.DstSeek

/-! # Where the frame reader copies from

The packets of a sector are copied from the running offset of their lengths,
which nothing compares with the 2048 bytes of the sector. A sector keeps every
copy inside exactly when the packets some request can reach fit behind its
header.
-/

namespace DsdNexus.Sacd

/-! ## The ranges read -/

/-- A byte range of a sector payload. -/
structure Range where
  offset : Nat
  length : Nat
  deriving DecidableEq, Repr

def Range.Inside (x : Range) : Prop := x.offset + x.length ≤ lsnSize

instance (x : Range) : Decidable x.Inside := inferInstanceAs (Decidable (_ ≤ _))

/-- The fields `parse_audio_sector_header` reads: the header byte, the packet infos
and the frame infos. -/
def headerReads (sectorData : Bytes) : List Range :=
  let header := byteAt sectorData 0
  let packetCount := header / 32
  let frameInfoSize := if header % 2 = 1 then 4 else 3
  if packetCount = 0 ∨ 7 < packetCount then [⟨0, 1⟩]
  else
    ⟨0, 1⟩ :: (List.range packetCount).map (fun i => ⟨1 + 2 * i, 2⟩) ++
      (List.range (header / 4 % 8)).map fun i => ⟨1 + 2 * packetCount + frameInfoSize * i,
        frameInfoSize⟩

/-- The copies of the sector loop, those before a header that does not parse among
them. -/
def loopCopies (q : Request) (foundLsn : UInt32) (headers : Nat → Option AudioSector) :
    Nat → Nat → Assembly → List Copy
  | 0, _, a => a.copies
  | n + 1, sector, a =>
    if a.frameComplete then a.copies
    else match headers sector with
      | none => a.copies
      | some s => loopCopies q foundLsn headers n (sector + 1) (readSector q foundLsn s sector a)

/-- The sector buffer of a call and the copies out of it. -/
structure CallCopies where
  buffer : Bytes
  copies : List Copy

/-- The copies from the fetch on. -/
def copiesAt (r : FrameReader) (d : DstReader) (q : Request) (foundLsn : UInt32)
    (sectorCount : Nat) : CallCopies :=
  let fetched := fetch r d.sectorBuffer foundLsn (UInt32.ofNat sectorCount)
  match fetched.sectors with
  | none => ⟨fetched.buffer, []⟩
  | some n => ⟨fetched.buffer,
      loopCopies q foundLsn (sectorHeader r fetched.buffer) n 0 (.start sectorCount)⟩

/-- The copies of `dst_reader_read_frame`. -/
def callCopies (r : FrameReader) (d : DstReader) (q : Request) : CallCopies :=
  if d.Sequential q then copiesAt r d q d.cachedFrameLsn maxDstSectors
  else
    let seek := dstSectorSeek r q.frameNum d.sectorBuffer
    if seek.status ≠ readerOk then ⟨seek.buffer, []⟩
    else copiesAt r { d with sectorBuffer := seek.buffer } q seek.foundLsn
      (validSectorCount seek.sectorCount)

/-- The reader after a history of calls. -/
def readerAfter (r : FrameReader) (history : List Request) : DstReader :=
  history.foldl (fun d q => (dstReaderReadFrame r d q).2) (dstReaderInit r)

/-- The 2048 bytes of sector `i` behind its header. -/
def sectorPayload (r : FrameReader) (buffer : Bytes) (i : Nat) : Bytes :=
  (buffer.drop (i * r.sectorSize + r.headerSize)).take lsnSize

def Copy.range (c : Copy) : Range := ⟨c.offset, c.length⟩

/-- What is read of a sector with the payload `b`, by any call after any others,
lies in it. -/
def ReadsInside (b : Bytes) : Prop :=
  (∀ x ∈ headerReads b, x.Inside) ∧
    ∀ (r : FrameReader) (history : List Request) (q : Request),
      ∀ c ∈ (callCopies r (readerAfter r history) q).copies,
        sectorPayload r (callCopies r (readerAfter r history) q).buffer c.sector = b →
          c.range.Inside

/-! ## The condition -/

/-- The frames that start in the first `k` packets. -/
def AudioSector.startsBefore (s : AudioSector) (k : Nat) : Nat :=
  (s.packets.take k).countP PacketInfo.startsFrame

/-- Where the data of packet `k` begins. -/
def AudioSector.packetOffset (s : AudioSector) (k : Nat) : Nat :=
  s.dataOffset + ((s.packets.take k).map PacketInfo.packetLength).sum

/-- A request reaches packet `k`: no frame starts up to it, or the last to start is
the first of the sector with its time code. -/
def AudioSector.Reached (s : AudioSector) (k : Nat) : Prop :=
  ∀ i, i + 1 < s.startsBefore (k + 1) →
    timeToFrame (s.frame i) ≠ timeToFrame (s.frame (s.startsBefore (k + 1) - 1))

/-- The packets with data that a request reaches end inside the payload. -/
def PacketsFit (b : Bytes) : Prop :=
  ∀ s, parseAudioSectorHeader b = some s → ∀ k packet, s.packets[k]? = some packet →
    0 < packet.packetLength → s.Reached k → s.packetOffset k + packet.packetLength ≤ lsnSize

/-! ## The copies are those of the frame -/

theorem loopCopies_of_some {q : Request} {l : UInt32} {headers : Nat → Option AudioSector}
    (n sector : Nat) (a : Assembly) {a' : Assembly}
    (h : sectorLoop q l headers n sector a = some a') :
    loopCopies q l headers n sector a = a'.copies := by
  induction n generalizing sector a with
  | zero => rw [loopCopies, Option.some.inj h]
  | succ n ih =>
    rw [loopCopies]
    rw [sectorLoop] at h
    split_ifs at h ⊢ with hdone
    · rw [Option.some.inj h]
    · cases hs : headers sector with
      | none => simp [hs] at h
      | some s =>
        rw [hs] at h
        exact ih _ _ h

theorem readFrameAt_data (r : FrameReader) (d : DstReader) (q : Request) (l : UInt32) (k : Nat) :
    (readFrameAt r d q l k).1.data = [] ∨
      (readFrameAt r d q l k).1.data =
        (copiesAt r d q l k).copies.flatMap (Copy.bytes r (copiesAt r d q l k).buffer) := by
  unfold readFrameAt copiesAt
  simp only
  cases (fetch r d.sectorBuffer l (UInt32.ofNat k)).sectors with
  | none => exact .inl rfl
  | some n =>
    simp only
    cases h : sectorLoop q l (sectorHeader r (fetch r d.sectorBuffer l (UInt32.ofNat k)).buffer)
        n 0 (.start k) with
    | none => exact .inl rfl
    | some a =>
      right
      rw [loopCopies_of_some n 0 _ h]

/-- The frame a call delivers is the bytes of its copies. -/
theorem dstReaderReadFrame_data (r : FrameReader) (d : DstReader) (q : Request) :
    (dstReaderReadFrame r d q).1.data = [] ∨
      (dstReaderReadFrame r d q).1.data =
        (callCopies r d q).copies.flatMap (Copy.bytes r (callCopies r d q).buffer) := by
  unfold dstReaderReadFrame callCopies
  by_cases hseq : d.Sequential q
  · simp only [if_pos hseq]
    exact readFrameAt_data _ _ _ _ _
  · simp only [if_neg hseq]
    by_cases hseek : (dstSectorSeek r q.frameNum d.sectorBuffer).status ≠ readerOk
    · simp only [if_pos hseek]
      exact .inl rfl
    · simp only [if_neg hseek]
      exact readFrameAt_data _ _ _ _ _

/-- A copy inside its sector takes bytes of the payload only. -/
theorem Copy.bytes_payload {r : FrameReader} {buffer : Bytes} {c : Copy} (h : c.range.Inside) :
    Copy.bytes r buffer c = ((sectorPayload r buffer c.sector).drop c.offset).take c.length := by
  have hle : c.offset + c.length ≤ lsnSize := h
  rw [Copy.bytes, sectorPayload, List.drop_take, List.take_take, Nat.min_eq_left (by omega),
    List.drop_drop]

/-! ## The header lies inside -/

theorem headerReads_inside (b : Bytes) : ∀ x ∈ headerReads b, x.Inside := by
  intro x hx
  have hstarts : byteAt b 0 / 4 % 8 < 8 := Nat.mod_lt _ (by decide)
  unfold headerReads at hx
  simp only at hx
  split at hx
  · cases List.mem_singleton.mp hx
    decide
  · next hcount =>
    simp only [List.cons_append, List.mem_cons, List.mem_append, List.mem_map,
      List.mem_range] at hx
    obtain rfl | ⟨i, hi, rfl⟩ | ⟨i, hi, rfl⟩ := hx
    · decide
    · show 1 + 2 * i + 2 ≤ 2048
      omega
    · show 1 + 2 * _ + (if _ then 4 else 3) * i + (if _ then 4 else 3) ≤ 2048
      split <;> omega

/-! ## What one sector copies -/

section Sector

variable {q : Request} {l : UInt32} {s : AudioSector} {sector : Nat}

/-- The variables of the loop tell the time codes of the frame starts passed. -/
def Tracks (q : Request) (s : AudioSector) (idx : Nat) (a : Assembly) : Prop :=
  if a.frameStarted = true then
    idx = 0 ∨ (timeToFrame (s.frame (idx - 1)) = q.frameNum.toNat ∧
      ∀ i, i + 1 < idx → timeToFrame (s.frame i) ≠ q.frameNum.toNat)
  else ∀ i, i < idx → timeToFrame (s.frame i) ≠ q.frameNum.toNat

/-- A copy takes the beginning of a packet a request reaches. -/
structure CopyOf (s : AudioSector) (sector : Nat) (c : Copy) (k : Nat) (packet : PacketInfo) :
    Prop where
  sector_eq : c.sector = sector
  packet_eq : s.packets[k]? = some packet
  offset_eq : c.offset = s.packetOffset k
  length_pos : 0 < c.length
  length_le : c.length ≤ packet.packetLength
  reached : s.Reached k

theorem copyLength_le (q : Request) (out len : Nat) : copyLength q out len ≤ len := by
  unfold copyLength
  split <;> omega

/-- A packet adds at most the copy of its beginning. -/
theorem copyPacket_copies {packet : PacketInfo} {offset : Nat} {a : Assembly} {c : Copy}
    (h : c ∈ (copyPacket q packet sector offset a).copies) :
    c ∈ a.copies ∨ (a.frameStarted = true ∧ c.sector = sector ∧ c.offset = offset ∧
      0 < c.length ∧ c.length ≤ packet.packetLength) := by
  unfold copyPacket at h
  split at h
  · next hstarted =>
    simp only at h
    split at h
    · next hlen =>
      rw [List.mem_append, List.mem_singleton] at h
      obtain hold | rfl := h
      · exact .inl hold
      · exact .inr ⟨hstarted.1, rfl, rfl, hlen, copyLength_le _ _ _⟩
    · exact .inl h
  · exact .inl h

theorem copyPacket_started (packet : PacketInfo) (offset : Nat) (a : Assembly) :
    (copyPacket q packet sector offset a).frameStarted = a.frameStarted := by
  unfold copyPacket
  split
  · simp only
    split <;> rfl
  · rfl

theorem startFrame_copies (idx : Nat) (a : Assembly) :
    (startFrame q s idx a).copies = a.copies := by
  unfold startFrame
  split <;> rfl

theorem Tracks.of_started {idx : Nat} {a b : Assembly} (h : Tracks q s idx a)
    (hstarted : b.frameStarted = a.frameStarted) : Tracks q s idx b := by
  unfold Tracks at h ⊢
  rwa [hstarted]

theorem Tracks.startFrame {idx : Nat} {a : Assembly} (h : Tracks q s idx a)
    (ha : a.frameStarted = false) : Tracks q s (idx + 1) (startFrame q s idx a) := by
  have hbefore : ∀ i, i < idx → timeToFrame (s.frame i) ≠ q.frameNum.toNat := by
    simpa [Tracks, ha] using h
  unfold Sacd.startFrame
  by_cases htime : timeToFrame (s.frame idx) = q.frameNum.toNat
  · rw [if_pos htime]
    exact .inr ⟨htime, fun i hi => hbefore i (by omega)⟩
  · rw [if_neg htime, Tracks, if_neg (by simp [ha])]
    intro i hi
    by_cases hlast : i = idx
    · rwa [hlast]
    · exact hbefore i (by omega)

theorem Tracks.reached {k : Nat} {a : Assembly} (h : Tracks q s (s.startsBefore (k + 1)) a)
    (ha : a.frameStarted = true) : s.Reached k := by
  rw [Tracks, if_pos ha] at h
  intro i hi
  obtain hzero | ⟨hlast, hbefore⟩ := h
  · omega
  · rw [hlast]
    exact hbefore i hi

theorem startsBefore_succ {k : Nat} {packet : PacketInfo} (h : s.packets[k]? = some packet) :
    s.startsBefore (k + 1) = s.startsBefore k + if packet.startsFrame then 1 else 0 := by
  rw [AudioSector.startsBefore, List.take_add_one, h]
  simp [AudioSector.startsBefore, List.countP_append, List.countP_cons]

theorem packetOffset_succ {k : Nat} {packet : PacketInfo} (h : s.packets[k]? = some packet) :
    s.packetOffset (k + 1) = s.packetOffset k + packet.packetLength := by
  rw [AudioSector.packetOffset, List.take_add_one, h]
  simp [AudioSector.packetOffset, Nat.add_assoc]

/-- The packets from `k` on copy beginnings of packets a request reaches. -/
theorem readPackets_copies (packets : List PacketInfo) (k : Nat) (a : Assembly) {c : Copy}
    (hrest : s.packets.drop k = packets) (htracks : Tracks q s (s.startsBefore k) a)
    (h : c ∈ (readPackets q l s sector (s.startsBefore k) (s.packetOffset k) packets a).copies) :
    c ∈ a.copies ∨ ∃ k packet, CopyOf s sector c k packet := by
  induction packets generalizing k a with
  | nil => exact .inl h
  | cons packet packets ih =>
    have hk : s.packets[k]? = some packet := by
      rw [← List.head?_drop, hrest, List.head?_cons]
    have hrest' : s.packets.drop (k + 1) = packets := by
      rw [← List.drop_drop, hrest, List.drop_one, List.tail_cons]
    -- what packet `k` itself copies, once the loop counts its start
    have hcopy : ∀ b : Assembly, b.copies = a.copies → Tracks q s (s.startsBefore (k + 1)) b →
        c ∈ (readPackets q l s sector (s.startsBefore (k + 1)) (s.packetOffset (k + 1)) packets
          (copyPacket q packet sector (s.packetOffset k) b)).copies →
        c ∈ a.copies ∨ ∃ k packet, CopyOf s sector c k packet := by
      intro b hb htracks' hmem
      obtain hc | hlater := ih (k + 1) _ hrest'
        (htracks'.of_started (copyPacket_started packet _ b)) hmem
      · obtain hold | ⟨hstarted, hsector, hoffset, hpos, hle⟩ := copyPacket_copies hc
        · exact .inl (hb ▸ hold)
        · exact .inr ⟨k, packet, hsector, hk, hoffset, hpos, hle, htracks'.reached hstarted⟩
      · exact .inr hlater
    have hcount := startsBefore_succ hk
    rw [readPackets] at h
    by_cases hstart : packet.startsFrame = true
    · rw [if_pos hstart] at h hcount
      by_cases ha : a.frameStarted = true
      · rw [if_pos ha] at h
        exact .inl h
      · rw [if_neg ha, ← packetOffset_succ hk, ← hcount] at h
        have hnew := htracks.startFrame (Bool.not_eq_true _ ▸ ha)
        exact hcopy _ (startFrame_copies _ a) (hcount ▸ hnew) h
    · rw [if_neg hstart] at h hcount
      replace hcount : s.startsBefore (k + 1) = s.startsBefore k := hcount
      rw [← packetOffset_succ hk, ← hcount] at h
      exact hcopy a rfl (hcount ▸ htracks) h

theorem countSector_copies (a : Assembly) : (countSector l s sector a).copies = a.copies := by
  unfold countSector
  split
  · split <;> rfl
  · rfl

theorem readSector_copies {a : Assembly} {c : Copy}
    (h : c ∈ (readSector q l s sector a).copies) :
    c ∈ a.copies ∨ ∃ k packet, CopyOf s sector c k packet := by
  rw [readSector, countSector_copies] at h
  have htracks : Tracks q s (s.startsBefore 0) { a with sectorHadAudio := false } := by
    unfold Tracks
    split
    · exact .inl rfl
    · intro i hi
      exact absurd hi (by simp [AudioSector.startsBefore])
  exact readPackets_copies (l := l) s.packets 0 { a with sectorHadAudio := false } rfl htracks h

end Sector

/-- Every copy of the loop takes the beginning of a packet of its sector. -/
theorem loopCopies_copies {q : Request} {l : UInt32} {headers : Nat → Option AudioSector}
    (n sector : Nat) (a : Assembly) {c : Copy} (h : c ∈ loopCopies q l headers n sector a) :
    c ∈ a.copies ∨ ∃ s k packet, headers c.sector = some s ∧ CopyOf s c.sector c k packet := by
  induction n generalizing sector a with
  | zero => exact .inl h
  | succ n ih =>
    rw [loopCopies] at h
    split_ifs at h with hdone
    · exact .inl h
    · cases hs : headers sector with
      | none =>
        rw [hs] at h
        exact .inl h
      | some s =>
        rw [hs] at h
        obtain hc | hlater := ih _ _ h
        · obtain hold | ⟨k, packet, hcopy⟩ := readSector_copies hc
          · exact .inl hold
          · have hsector := hcopy.sector_eq
            exact .inr ⟨s, k, packet, by rw [hsector, hs], hsector ▸ hcopy⟩
        · exact .inr hlater

theorem copiesAt_copies {r : FrameReader} {d : DstReader} {q : Request} {l : UInt32} {n : Nat}
    {c : Copy} (h : c ∈ (copiesAt r d q l n).copies) :
    ∃ s k packet, sectorHeader r (copiesAt r d q l n).buffer c.sector = some s ∧
      CopyOf s c.sector c k packet := by
  unfold copiesAt at h ⊢
  simp only at h ⊢
  cases hn : (fetch r d.sectorBuffer l (UInt32.ofNat n)).sectors with
  | none =>
    rw [hn] at h
    exact absurd h List.not_mem_nil
  | some m =>
    rw [hn] at h
    obtain hold | hcopy := loopCopies_copies _ _ _ h
    · exact absurd hold List.not_mem_nil
    · exact hcopy

/-- Every copy of a call takes the beginning of a packet of its sector. -/
theorem callCopies_copies {r : FrameReader} {d : DstReader} {q : Request} {c : Copy}
    (h : c ∈ (callCopies r d q).copies) :
    ∃ s k packet, sectorHeader r (callCopies r d q).buffer c.sector = some s ∧
      CopyOf s c.sector c k packet := by
  unfold callCopies at h ⊢
  by_cases hseq : d.Sequential q
  · simp only [if_pos hseq] at h ⊢
    exact copiesAt_copies h
  · simp only [if_neg hseq] at h ⊢
    by_cases hseek : (dstSectorSeek r q.frameNum d.sectorBuffer).status ≠ readerOk
    · simp only [if_pos hseek] at h
      exact absurd h List.not_mem_nil
    · simp only [if_neg hseek] at h ⊢
      exact copiesAt_copies h

theorem sectorPayload_header (r : FrameReader) (buffer : Bytes) (i : Nat) :
    parseAudioSectorHeader (sectorPayload r buffer i) = sectorHeader r buffer i := by
  apply parseAudioSectorHeader_congr
  rw [sectorPayload, List.take_take]
  rfl

theorem readsInside_of_packetsFit {b : Bytes} (hfit : PacketsFit b) : ReadsInside b := by
  refine ⟨headerReads_inside b, ?_⟩
  intro r history q c hc hb
  obtain ⟨s, k, packet, hs, hcopy⟩ := callCopies_copies hc
  rw [← sectorPayload_header, hb] at hs
  have hle := hcopy.length_le
  have hpos := hcopy.length_pos
  have hend := hfit s hs k packet hcopy.packet_eq (by omega) hcopy.reached
  show c.offset + c.length ≤ lsnSize
  rw [hcopy.offset_eq]
  omega

/-! ## A packet that is reached is copied -/

section Reached

variable {q : Request} {l : UInt32} {s : AudioSector} {sector k : Nat}

/-- The loop before packet `j` is on its way to copy packet `k` whole. -/
structure OnTheWay (q : Request) (s : AudioSector) (k j : Nat) (a : Assembly) : Prop where
  room : a.outputLength + ((s.packets.drop j).map PacketInfo.packetLength).sum ≤ q.maxLength
  started : a.frameStarted = true → s.startsBefore j = s.startsBefore (k + 1)
  waiting : a.frameStarted = false → s.startsBefore j < s.startsBefore (k + 1) ∧
    timeToFrame (s.frame (s.startsBefore (k + 1) - 1)) = q.frameNum.toNat

theorem startsBefore_mono {i j : Nat} (h : i ≤ j) : s.startsBefore i ≤ s.startsBefore j :=
  (List.take_sublist_take_left h).countP_le

theorem copyPacket_output (q : Request) (packet : PacketInfo) (sector offset : Nat)
    (a : Assembly) :
    (copyPacket q packet sector offset a).outputLength ≤ a.outputLength + packet.packetLength := by
  have hle := copyLength_le q a.outputLength packet.packetLength
  unfold copyPacket
  split
  · simp only
    split
    · simp only
      omega
    · omega
  · omega

theorem startFrame_output (idx : Nat) (a : Assembly) :
    (startFrame q s idx a).outputLength = a.outputLength := by
  unfold startFrame
  split <;> rfl

theorem mem_copyPacket {packet : PacketInfo} {offset : Nat} {a : Assembly} {c : Copy}
    (h : c ∈ a.copies) : c ∈ (copyPacket q packet sector offset a).copies := by
  unfold copyPacket
  split
  · simp only
    split
    · exact List.mem_append_left _ h
    · exact h
  · exact h

/-- What is copied stays copied. -/
theorem mem_readPackets {c : Copy} (packets : List PacketInfo) (idx offset : Nat) (a : Assembly)
    (h : c ∈ a.copies) : c ∈ (readPackets q l s sector idx offset packets a).copies := by
  induction packets generalizing idx offset a with
  | nil => exact h
  | cons packet packets ih =>
    rw [readPackets]
    split
    · split
      · exact h
      · exact ih _ _ _ (mem_copyPacket (by rwa [startFrame_copies]))
    · exact ih _ _ _ (mem_copyPacket h)

theorem mem_loopCopies {headers : Nat → Option AudioSector} {c : Copy} (n sector : Nat)
    (a : Assembly) (h : c ∈ a.copies) : c ∈ loopCopies q l headers n sector a := by
  induction n generalizing sector a with
  | zero => exact h
  | succ n ih =>
    rw [loopCopies]
    split
    · exact h
    · split
      · exact h
      · apply ih
        rw [readSector, countSector_copies]
        exact mem_readPackets _ _ _ _ h

/-- A packet of the requested type is copied whole where there is room. -/
theorem copyPacket_whole {packet : PacketInfo} {offset : Nat} {a : Assembly}
    (ha : a.frameStarted = true) (htype : packet.dataType = q.dataType)
    (hpos : 0 < packet.packetLength) (hroom : a.outputLength + packet.packetLength ≤ q.maxLength) :
    ⟨sector, offset, packet.packetLength⟩ ∈ (copyPacket q packet sector offset a).copies := by
  have hlen : copyLength q a.outputLength packet.packetLength = packet.packetLength := by
    rw [copyLength, if_neg (by omega)]
  rw [copyPacket, if_pos ⟨ha, htype⟩, hlen, if_pos hpos]
  exact List.mem_append_right _ (List.mem_singleton.mpr rfl)

/-- Behind packet `j` the variables still lead to packet `k`. -/
theorem OnTheWay.step {j : Nat} {packet : PacketInfo} {a b : Assembly} (h : OnTheWay q s k j a)
    (hj : s.packets[j]? = some packet)
    (hout : b.outputLength ≤ a.outputLength + packet.packetLength)
    (hstarted : b.frameStarted = true → s.startsBefore (j + 1) = s.startsBefore (k + 1))
    (hwaiting : b.frameStarted = false → s.startsBefore (j + 1) < s.startsBefore (k + 1) ∧
      timeToFrame (s.frame (s.startsBefore (k + 1) - 1)) = q.frameNum.toNat) :
    OnTheWay q s k (j + 1) b := by
  refine ⟨?_, hstarted, hwaiting⟩
  have hroom := h.room
  obtain ⟨hlt, rfl⟩ := List.getElem?_eq_some_iff.mp hj
  rw [List.drop_eq_getElem_cons hlt, List.map_cons, List.sum_cons] at hroom
  omega

/-- The start of a frame at packet `j`, in a sector whose packet `k` is reached. -/
theorem OnTheWay.startFrame {j : Nat} {packet : PacketInfo} {a : Assembly}
    (h : OnTheWay q s k j a) (hreached : s.Reached k) (hj : s.packets[j]? = some packet)
    (hstart : packet.startsFrame = true) (ha : a.frameStarted = false) :
    ((Sacd.startFrame q s (s.startsBefore j) a).frameStarted = true →
      s.startsBefore (j + 1) = s.startsBefore (k + 1)) ∧
    ((Sacd.startFrame q s (s.startsBefore j) a).frameStarted = false →
      s.startsBefore (j + 1) < s.startsBefore (k + 1) ∧
        timeToFrame (s.frame (s.startsBefore (k + 1) - 1)) = q.frameNum.toNat) := by
  have hcount := startsBefore_succ hj
  rw [if_pos hstart] at hcount
  obtain ⟨hlt, htime⟩ := h.waiting ha
  unfold Sacd.startFrame
  by_cases hlast : s.startsBefore j + 1 = s.startsBefore (k + 1)
  · have hidx : s.startsBefore j = s.startsBefore (k + 1) - 1 := by omega
    rw [if_pos (by rw [hidx, htime])]
    exact ⟨fun _ => by omega, fun hfalse => absurd hfalse (by simp)⟩
  · have hne := hreached (s.startsBefore j) (by omega)
    rw [htime] at hne
    rw [if_neg hne]
    refine ⟨fun htrue => ?_, fun _ => ⟨by omega, htime⟩⟩
    rw [ha] at htrue
    exact absurd htrue Bool.false_ne_true

/-- A loop on the way to packet `k` copies it whole. -/
theorem readPackets_reaches {packet : PacketInfo} (hk : s.packets[k]? = some packet)
    (htype : packet.dataType = q.dataType) (hpos : 0 < packet.packetLength)
    (hreached : s.Reached k) (packets : List PacketInfo) (j : Nat) (a : Assembly)
    (hrest : s.packets.drop j = packets) (hjk : j ≤ k) (h : OnTheWay q s k j a) :
    ⟨sector, s.packetOffset k, packet.packetLength⟩ ∈
      (readPackets q l s sector (s.startsBefore j) (s.packetOffset j) packets a).copies := by
  induction packets generalizing j a with
  | nil =>
    obtain ⟨hlt, -⟩ := List.getElem?_eq_some_iff.mp hk
    have hlen := List.drop_eq_nil_iff.mp hrest
    omega
  | cons current packets ih =>
    have hj : s.packets[j]? = some current := by
      rw [← List.head?_drop, hrest, List.head?_cons]
    have hrest' : s.packets.drop (j + 1) = packets := by
      rw [← List.drop_drop, hrest, List.drop_one, List.tail_cons]
    -- packet `j`, once the loop counts its start
    have hgo : ∀ b : Assembly, b.outputLength = a.outputLength →
        (b.frameStarted = true → s.startsBefore (j + 1) = s.startsBefore (k + 1)) →
        (b.frameStarted = false → s.startsBefore (j + 1) < s.startsBefore (k + 1) ∧
          timeToFrame (s.frame (s.startsBefore (k + 1) - 1)) = q.frameNum.toNat) →
        ⟨sector, s.packetOffset k, packet.packetLength⟩ ∈
          (readPackets q l s sector (s.startsBefore (j + 1)) (s.packetOffset (j + 1)) packets
            (copyPacket q current sector (s.packetOffset j) b)).copies := by
      intro b hout hstarted hwaiting
      obtain rfl | hlt := Nat.eq_or_lt_of_le hjk
      · rw [hk] at hj
        cases hj
        have hb : b.frameStarted = true := by
          rw [← Bool.not_eq_false]
          intro hfalse
          exact Nat.lt_irrefl _ (hwaiting hfalse).1
        have hroom := h.room
        rw [hrest, List.map_cons, List.sum_cons] at hroom
        exact mem_readPackets _ _ _ _ (copyPacket_whole hb htype hpos (by omega))
      · apply ih (j + 1) _ hrest' hlt
        have hle := copyPacket_output q current sector (s.packetOffset j) b
        exact h.step hj (by omega) (by rwa [copyPacket_started]) (by rwa [copyPacket_started])
    have hcount := startsBefore_succ hj
    have hmono : s.startsBefore (j + 1) ≤ s.startsBefore (k + 1) := startsBefore_mono (by omega)
    rw [readPackets]
    by_cases hstart : current.startsFrame = true
    · rw [if_pos hstart] at hcount
      have ha : a.frameStarted = false := by
        rw [← Bool.not_eq_true]
        intro htrue
        have := h.started htrue
        omega
      have hnew := h.startFrame hreached hj hstart ha
      rw [if_pos hstart, if_neg (by simp [ha]), ← packetOffset_succ hj, ← hcount]
      exact hgo _ (startFrame_output _ a) hnew.1 hnew.2
    · rw [if_neg hstart] at hcount
      replace hcount : s.startsBefore (j + 1) = s.startsBefore j := hcount
      rw [if_neg hstart, ← packetOffset_succ hj, ← hcount]
      exact hgo a rfl (by rw [hcount]; exact h.started) (by rw [hcount]; exact h.waiting)

theorem loopCopies_succ {headers : Nat → Option AudioSector} {a : Assembly} (n : Nat)
    (hs : headers sector = some s) (hgoing : a.frameComplete = false) :
    loopCopies q l headers (n + 1) sector a =
      loopCopies q l headers n (sector + 1) (readSector q l s sector a) := by
  rw [loopCopies, if_neg (by simp [hgoing]), hs]

/-- Packet `k` of the sector the loop comes to. -/
theorem loopCopies_reaches {packet : PacketInfo} {headers : Nat → Option AudioSector} {a : Assembly}
    (n : Nat) (hs : headers sector = some s) (hk : s.packets[k]? = some packet)
    (htype : packet.dataType = q.dataType) (hpos : 0 < packet.packetLength)
    (hreached : s.Reached k) (h : OnTheWay q s k 0 a) (hgoing : a.frameComplete = false) :
    ⟨sector, s.packetOffset k, packet.packetLength⟩ ∈
      loopCopies q l headers (n + 1) sector a := by
  have h' : OnTheWay q s k 0 { a with sectorHadAudio := false } := ⟨h.room, h.started, h.waiting⟩
  rw [loopCopies_succ n hs hgoing]
  apply mem_loopCopies
  rw [readSector, countSector_copies]
  exact readPackets_reaches hk htype hpos hreached s.packets 0 _ rfl (Nat.zero_le k) h'

end Reached

/-! ## Discs that hold the payload

Where a frame starts up to the packet, the payload is sector 0 before an area whose
only sector does not parse: the failed search has the value of success and leaves
sector 0 to be read. Elsewhere the payload comes second, behind the start of a
frame of two sectors. -/

/-- The 2048 bytes of a sector. -/
abbrev Payload := { b : Bytes // b.length = lsnSize }

theorem bare_size : 0 + lsnSize ≤ lsnSize := by decide

/-- A disc of bare sectors without an access list. -/
def bareDisc (file : Bytes) (first last : UInt32) : FrameReader where
  sectorSize := lsnSize
  headerSize := 0
  size_ok := bare_size
  input := fileInput file lsnSize
  startSector := first
  endSector := last
  accessList := ⟨0, 0, none, none⟩
  totalAreaPlayTime := 0

def unparsable : Bytes := List.replicate lsnSize 0

/-- The first sector of frame 0, which takes two. -/
def firstOfTwo : Bytes := [0x25, 0x90, 0x01, 0, 0, 0, 0x08, 0] ++ List.replicate 2040 0

theorem unparsable_length : unparsable.length = lsnSize := List.length_replicate

theorem firstOfTwo_length : firstOfTwo.length = lsnSize := by
  rw [firstOfTwo, List.length_append, List.length_replicate]
  rfl

/-- The header of the sector, and the one packet that starts frame 0. -/
def firstHead : AudioSector := ⟨true, [⟨true, 2, 1⟩], [⟨0, 0, 0, 2⟩], 7⟩

set_option maxRecDepth 1024

theorem firstOfTwo_header : parseAudioSectorHeader firstOfTwo = some firstHead := by
  decide

theorem read_bareDisc {file : Bytes} {lsn count : UInt32} (first last : UInt32)
    (hcount : count ≠ 0) (hlen : (lsn.toNat + count.toNat) * lsnSize ≤ file.length) :
    (bareDisc file first last).input.readSectors lsn count =
      ⟨true, (file.drop (lsn.toNat * lsnSize)).take (count.toNat * lsnSize), count⟩ := by
  have hpos : 0 < count.toNat := Nat.pos_of_ne_zero fun h => hcount (UInt32.toNat_inj.mp h)
  have hbytes : ((file.drop (lsn.toNat * lsnSize)).take (count.toNat * lsnSize)).length =
      count.toNat * lsnSize := by
    rw [List.length_take, List.length_drop, lsnSize] at *
    omega
  have hin : ¬ file.length ≤ lsn.toNat * lsnSize := by
    rw [lsnSize] at *
    omega
  show fileReadSectors file lsnSize lsn count = _
  simp only [fileReadSectors, if_neg hcount, if_neg hin, hbytes]
  rw [Nat.mul_div_cancel _ (by decide), UInt32.ofNat_toNat]

theorem fetch_bareDisc {file : Bytes} {lsn count : UInt32} (buffer : Bytes) (first last : UInt32)
    (hcount : count ≠ 0) (hlen : (lsn.toNat + count.toNat) * lsnSize ≤ file.length) :
    fetch (bareDisc file first last) buffer lsn count =
      ⟨some count.toNat, store buffer ((file.drop (lsn.toNat * lsnSize)).take
        (count.toNat * lsnSize))⟩ := by
  unfold fetch
  rw [read_bareDisc first last hcount hlen]
  rfl

theorem fetchOne_bareDisc {file buffer : Bytes} {first last lsn : UInt32}
    (hlen : (lsn.toNat + 1) * lsnSize ≤ file.length) :
    fetchOne (bareDisc file first last) buffer lsn =
      ⟨some 1, store buffer ((file.drop (lsn.toNat * lsnSize)).take lsnSize)⟩ := by
  have hread := read_bareDisc first last (by decide : (1 : UInt32) ≠ 0) hlen
  have hfetch := fetch_bareDisc buffer first last (by decide : (1 : UInt32) ≠ 0) hlen
  have hone : (UInt32.toNat 1) * lsnSize = lsnSize := Nat.one_mul _
  rw [fetchOne, if_pos (by rw [hread]), hfetch, hone]
  rfl

/-- The header of a sector whose payload the buffer holds. -/
theorem sectorHeader_bareDisc {file buffer : Bytes} {first last : UInt32} {b : Bytes} {i : Nat}
    (h : sectorPayload (bareDisc file first last) buffer i = b) :
    sectorHeader (bareDisc file first last) buffer i = parseAudioSectorHeader b := by
  rw [← sectorPayload_header, h]

/-- Sectors stored at the front of the buffer. -/
theorem sectorPayload_store (file buffer pre b post : Bytes) (first last : UInt32) (i : Nat)
    (hpre : pre.length = i * lsnSize) (hb : b.length = lsnSize) :
    sectorPayload (bareDisc file first last) (store buffer (pre ++ b ++ post)) i = b := by
  show ((pre ++ b ++ post ++ _).drop (i * lsnSize + 0)).take lsnSize = b
  rw [Nat.add_zero, ← hpre, List.append_assoc, List.append_assoc, List.drop_left, ← hb,
    List.take_left]

theorem timeToFrame_lt (s : AudioSector) {b : Bytes} (hs : parseAudioSectorHeader b = some s)
    (i : Nat) : timeToFrame (s.frame i) < 2 ^ 32 := by
  have hentry : ∀ dst entry, timeToFrame (frameInfoAt dst b entry) < 2 ^ 32 := by
    intro dst entry
    have hbyte : ∀ j, byteAt b j < 256 := fun j => UInt8.toNat_lt _
    have h₀ := hbyte entry
    have h₁ := hbyte (entry + 1)
    have h₂ := hbyte (entry + 2)
    simp only [timeToFrame, frameInfoAt, framesPerSec]
    omega
  unfold parseAudioSectorHeader at hs
  simp only at hs
  split at hs
  · cases hs
  · cases hs
    rw [AudioSector.frame, List.getD_eq_getElem?_getD, List.getElem?_map]
    cases (List.range (byteAt b 0 / 4 % 8))[i]? with
    | none => exact Nat.zero_lt_of_lt (by decide : 0 < 2 ^ 32)
    | some j => exact hentry _ _

/-- A call of a fresh reader copies from where the search leads. -/
theorem callCopies_found {r : FrameReader} {q : Request} {lsn : UInt32} {n m : Nat}
    {buffer fetched : Bytes}
    (hseek : dstSectorSeek r q.frameNum (dstReaderInit r).sectorBuffer =
      ⟨readerOk, lsn, n, buffer⟩)
    (hn : validSectorCount n = n)
    (hfetch : fetch r buffer lsn (UInt32.ofNat n) = ⟨some m, fetched⟩) :
    callCopies r (dstReaderInit r) q =
      ⟨fetched, loopCopies q lsn (sectorHeader r fetched) m 0 (.start n)⟩ := by
  rw [callCopies, if_neg (dstReaderInit_not_sequential r q)]
  simp only [hseek]
  rw [if_neg (fun h => h rfl), copiesAt]
  simp only [hn, hfetch]

theorem sectorPayload_front {b : Bytes} (file buffer : Bytes) (first last : UInt32)
    (hb : b.length = lsnSize) :
    sectorPayload (bareDisc file first last) (store buffer b) 0 = b := by
  have h := sectorPayload_store file buffer [] b [] first last 0 rfl hb
  rwa [List.nil_append, List.append_nil] at h

/-- All that a sector of packets can ask of the output. -/
def ampleLength (s : AudioSector) : Nat := 1 + (s.packets.map PacketInfo.packetLength).sum

/-- Frame 0 goes on behind its first sector. -/
theorem readSector_firstHead (q : Request) (hq : q.frameNum = 0) (hroom : 1 ≤ q.maxLength) :
    (readSector q 0 firstHead 0 (.start 2)).outputLength ≤ 1 ∧
      (readSector q 0 firstHead 0 (.start 2)).frameStarted = true ∧
        (readSector q 0 firstHead 0 (.start 2)).frameComplete = false := by
  have hstart : startFrame q firstHead 0 { Assembly.start 2 with sectorHadAudio := false } =
      { Assembly.start 2 with frameStarted := true } := by
    rw [startFrame, hq]
    rfl
  have hread : readPackets q 0 firstHead 0 0 7 [⟨true, 2, 1⟩]
      { Assembly.start 2 with sectorHadAudio := false } =
      copyPacket q ⟨true, 2, 1⟩ 0 7 { Assembly.start 2 with frameStarted := true } := by
    rw [← hstart]
    rfl
  have hlen : copyLength q 0 1 = 1 := by
    rw [copyLength, if_neg (by omega)]
  have hsector : readSector q 0 firstHead 0 (.start 2) = countSector 0 firstHead 0
      (copyPacket q ⟨true, 2, 1⟩ 0 7 { Assembly.start 2 with frameStarted := true }) := by
    rw [← hread]
    rfl
  rw [hsector]
  by_cases htype : 2 = q.dataType
  · simp [copyPacket, htype.symm, Assembly.start, hlen, countSector, firstHead]
  · simp [copyPacket, htype, Assembly.start, countSector, firstHead]

section Discs

variable {b : Bytes} {s : AudioSector} {k : Nat} {packet : PacketInfo}

/-- The payload is read as sector 0 of the first disc. -/
theorem reads_payload_alone (hb : b.length = lsnSize) (hs : parseAudioSectorHeader b = some s)
    (hk : s.packets[k]? = some packet) (hpos : 0 < packet.packetLength) (hreached : s.Reached k)
    (hstarts : 0 < s.startsBefore (k + 1)) :
    ∃ (r : FrameReader) (q : Request) (c : Copy), c ∈ (callCopies r (dstReaderInit r) q).copies ∧
      sectorPayload r (callCopies r (dstReaderInit r) q).buffer c.sector = b ∧
        c.range = ⟨s.packetOffset k, packet.packetLength⟩ := by
  let t := timeToFrame (s.frame (s.startsBefore (k + 1) - 1))
  let r := bareDisc (b ++ unparsable) 1 1
  let q : Request := ⟨ampleLength s, UInt32.ofNat t, packet.dataType⟩
  let buffer := (dstReaderInit r).sectorBuffer
  have hseek : dstSectorSeek r q.frameNum buffer =
      ⟨readerIoError, 0, 1, store buffer unparsable⟩ := by
    have hfetched : fetchOne r buffer 1 = ⟨some 1, store buffer unparsable⟩ := by
      have hlen : ((1 : UInt32).toNat + 1) * lsnSize ≤ (b ++ unparsable).length := by
        rw [List.length_append, hb, unparsable, List.length_replicate]
        decide
      have hsecond : ((b ++ unparsable).drop ((1 : UInt32).toNat * lsnSize)).take lsnSize =
          unparsable := by
        rw [show (1 : UInt32).toNat * lsnSize = b.length from hb.symm, List.drop_left]
        exact List.take_of_length_le (Nat.le_of_eq List.length_replicate)
      rw [fetchOne_bareDisc hlen, hsecond]
    have hheader : sectorHeader r (store buffer unparsable) 0 = none := by
      have hpayload := sectorPayload_front (b ++ unparsable) buffer 1 1 unparsable_length
      rw [sectorHeader_bareDisc hpayload]
      decide
    have hfind : findDstFrame r 1 1 q.frameNum buffer =
        ⟨readerIoError, 0, 1, store buffer unparsable⟩ := by
      show findDstFrameLoop r q.frameNum 1 1 buffer = _
      rw [findDstFrameLoop, hfetched]
      simp only [Option.bind_some, hheader]
    have hrange : accessListRange r q.frameNum = (1, 1) := accessListRange_whole (.inl rfl)
    unfold dstSectorSeek
    simp only [hrange, hfind]
    rfl
  have hpayload : sectorPayload r (store (store buffer unparsable) b) 0 = b :=
    sectorPayload_front (b ++ unparsable) _ 1 1 hb
  have hfetch : fetch r (store buffer unparsable) 0 1 =
      ⟨some 1, store (store buffer unparsable) b⟩ := by
    have hlen : ((0 : UInt32).toNat + (1 : UInt32).toNat) * lsnSize ≤
        (b ++ unparsable).length := by
      rw [List.length_append, hb, unparsable, List.length_replicate]
      decide
    have hfirst : ((b ++ unparsable).drop ((0 : UInt32).toNat * lsnSize)).take
        ((1 : UInt32).toNat * lsnSize) = b := by
      rw [show (0 : UInt32).toNat * lsnSize = 0 from rfl, List.drop_zero,
        show (1 : UInt32).toNat * lsnSize = b.length from hb.symm, List.take_left]
    rw [fetch_bareDisc _ _ _ (by decide) hlen, hfirst]
    rfl
  have hcalls := callCopies_found hseek rfl hfetch
  refine ⟨r, q, ⟨0, s.packetOffset k, packet.packetLength⟩, ?_, ?_, rfl⟩
  · have hway : OnTheWay q s k 0 (.start 1) := by
      refine ⟨?_, fun hstarted => Bool.noConfusion hstarted, fun _ => ⟨hstarts, ?_⟩⟩
      · show 0 + (s.packets.map PacketInfo.packetLength).sum ≤ 1 + _
        omega
      · rw [UInt32.toNat_ofNat', Nat.mod_eq_of_lt (timeToFrame_lt s hs _)]
    rw [hcalls]
    exact loopCopies_reaches 0 (by rw [sectorHeader_bareDisc hpayload, hs]) hk rfl hpos hreached
      hway rfl
  · rw [hcalls]
    exact hpayload

/-- The payload is read as the second sector of frame 0 of the second disc. -/
theorem reads_payload_second (hb : b.length = lsnSize) (hs : parseAudioSectorHeader b = some s)
    (hk : s.packets[k]? = some packet) (hpos : 0 < packet.packetLength)
    (hstarts : s.startsBefore (k + 1) = 0) :
    ∃ (r : FrameReader) (q : Request) (c : Copy), c ∈ (callCopies r (dstReaderInit r) q).copies ∧
      sectorPayload r (callCopies r (dstReaderInit r) q).buffer c.sector = b ∧
        c.range = ⟨s.packetOffset k, packet.packetLength⟩ := by
  let r := bareDisc (firstOfTwo ++ b) 0 0
  let q : Request := ⟨ampleLength s, 0, packet.dataType⟩
  let buffer := (dstReaderInit r).sectorBuffer
  have hlen : (firstOfTwo ++ b).length = 2 * lsnSize := by
    rw [List.length_append, hb, firstOfTwo_length]
    omega
  have hseek : dstSectorSeek r q.frameNum buffer = ⟨readerOk, 0, 2, store buffer firstOfTwo⟩ := by
    have hfetched : fetchOne r buffer 0 = ⟨some 1, store buffer firstOfTwo⟩ := by
      have hone : ((0 : UInt32).toNat + 1) * lsnSize ≤ (firstOfTwo ++ b).length := by
        rw [hlen]
        decide
      have hfirst : ((firstOfTwo ++ b).drop ((0 : UInt32).toNat * lsnSize)).take lsnSize =
          firstOfTwo := by
        rw [show (0 : UInt32).toNat * lsnSize = 0 from rfl, List.drop_zero, ← firstOfTwo_length,
          List.take_left]
      rw [fetchOne_bareDisc hone, hfirst]
    have hheader : sectorHeader r (store buffer firstOfTwo) 0 = some firstHead := by
      have hpayload := sectorPayload_front (firstOfTwo ++ b) buffer 0 0 firstOfTwo_length
      rw [sectorHeader_bareDisc hpayload, firstOfTwo_header]
    have hfind : findDstFrame r 0 0 0 buffer = ⟨readerOk, 0, 2, store buffer firstOfTwo⟩ := by
      show findDstFrameLoop r 0 1 0 buffer = _
      rw [findDstFrameLoop, hfetched]
      simp only [Option.bind_some, hheader]
      rfl
    have hrange : accessListRange r 0 = (0, 0) := accessListRange_whole (.inl rfl)
    unfold dstSectorSeek
    simp only [hrange, hfind, q]
    rfl
  have hfetch : fetch r (store buffer firstOfTwo) 0 2 =
      ⟨some 2, store (store buffer firstOfTwo) (firstOfTwo ++ b)⟩ := by
    have hwhole : ((firstOfTwo ++ b).drop ((0 : UInt32).toNat * lsnSize)).take
        ((2 : UInt32).toNat * lsnSize) = firstOfTwo ++ b := by
      rw [show (0 : UInt32).toNat * lsnSize = 0 from rfl, List.drop_zero]
      exact List.take_of_length_le (Nat.le_of_eq hlen)
    have htwo : ((0 : UInt32).toNat + (2 : UInt32).toNat) * lsnSize ≤
        (firstOfTwo ++ b).length := by
      rw [hlen]
      decide
    rw [fetch_bareDisc _ _ _ (by decide) htwo, hwhole]
    rfl
  have hcalls := callCopies_found hseek rfl hfetch
  let filled := store (store buffer firstOfTwo) (firstOfTwo ++ b)
  have hfirst : sectorPayload r filled 0 = firstOfTwo :=
    sectorPayload_store _ _ [] firstOfTwo b 0 0 0 rfl firstOfTwo_length
  have hsecond : sectorPayload r filled 1 = b := by
    have h := sectorPayload_store (firstOfTwo ++ b) (store buffer firstOfTwo) firstOfTwo b [] 0 0 1
      firstOfTwo_length hb
    rwa [List.append_nil] at h
  refine ⟨r, q, ⟨1, s.packetOffset k, packet.packetLength⟩, ?_, ?_, rfl⟩
  · rw [hcalls]
    have hhead : sectorHeader r filled 0 = some firstHead := by
      rw [sectorHeader_bareDisc hfirst, firstOfTwo_header]
    show _ ∈ loopCopies q 0 (sectorHeader r filled) 2 0 (.start 2)
    rw [loopCopies_succ 1 hhead rfl]
    obtain ⟨hout, hstarted, hgoing⟩ := readSector_firstHead q rfl (Nat.le_add_right _ _)
    have hway : OnTheWay q s k 0 (readSector q 0 firstHead 0 (.start 2)) := by
      refine ⟨?_, fun _ => hstarts.symm, fun hfalse => absurd hstarted (by simp [hfalse])⟩
      show _ + (s.packets.map PacketInfo.packetLength).sum ≤ 1 + _
      omega
    exact loopCopies_reaches 0 (by rw [sectorHeader_bareDisc hsecond, hs]) hk rfl hpos
      (fun i hi => absurd hi (by omega)) hway hgoing
  · rw [hcalls]
    exact hsecond

theorem packetsFit_of_readsInside (hb : b.length = lsnSize) (h : ReadsInside b) :
    PacketsFit b := by
  intro s hs k packet hk hpos hreached
  have hread : ∃ (r : FrameReader) (q : Request) (c : Copy),
      c ∈ (callCopies r (dstReaderInit r) q).copies ∧
        sectorPayload r (callCopies r (dstReaderInit r) q).buffer c.sector = b ∧
          c.range = ⟨s.packetOffset k, packet.packetLength⟩ := by
    obtain hnone | hstarts := Nat.eq_zero_or_pos (s.startsBefore (k + 1))
    · exact reads_payload_second hb hs hk hpos hnone
    · exact reads_payload_alone hb hs hk hpos hreached hstarts
  obtain ⟨r, q, c, hc, hpayload, hrange⟩ := hread
  have hinside := h.2 r [] q c hc hpayload
  rw [hrange] at hinside
  exact hinside

end Discs

/-- A sector keeps every copy of every call inside exactly when the packets with
data that a request reaches end in it. -/
theorem readsInside_iff_packetsFit (b : Payload) : ReadsInside b.1 ↔ PacketsFit b.1 :=
  ⟨packetsFit_of_readsInside b.2, readsInside_of_packetsFit⟩

/-- A sector whose one packet states 2047 bytes behind a header of seven. -/
def overlong : Bytes := [0x25, 0x97, 0xFF, 0, 0, 0, 0x04, 0] ++ List.replicate 2040 0

theorem overlong_length : overlong.length = lsnSize := by
  rw [overlong, List.length_append, List.length_replicate]
  rfl

def overlongHead : AudioSector := ⟨true, [⟨true, 2, 2047⟩], [⟨0, 0, 0, 1⟩], 7⟩

theorem overlong_header : parseAudioSectorHeader overlong = some overlongHead := by
  decide

theorem overlong_not_readsInside : ¬ ∀ b : Payload, ReadsInside b.1 := by
  intro h
  have hfit := packetsFit_of_readsInside overlong_length (h ⟨overlong, overlong_length⟩)
  have hreached : overlongHead.Reached 0 := by
    intro i hi
    exact absurd hi (by simp [overlongHead, AudioSector.startsBefore, PacketInfo.startsFrame,
      dataTypeAudio])
  have hend := hfit overlongHead overlong_header 0 ⟨true, 2, 2047⟩ rfl (by decide) hreached
  exact absurd hend (by decide)

end DsdNexus.Sacd
