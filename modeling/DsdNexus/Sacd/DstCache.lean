import DsdNexus.Sacd.DstReader
import Mathlib.Data.Option.Basic

/-! # The remembered position of the DST reader

A sequential read fetches sixteen sectors from the remembered position, a read
by search the sectors the frame declares, from where the search finds it. The
two give the same frame where they fetch the same sectors up to its end.
-/

namespace DsdNexus.Sacd

/-! ## Fetched bytes -/

theorem store_take {buffer bytes : Bytes} {n : Nat} (h : n ≤ bytes.length) :
    (store buffer bytes).take n = bytes.take n := by
  rw [store, List.take_append_of_le_length h]

/-- The sectors of a fetch and their bytes, whatever was in the buffer before. -/
def window (r : FrameReader) (lsn count : UInt32) : Option (Nat × Bytes) :=
  (fetch r [] lsn count).sectors.map fun n =>
    (n, (fetch r [] lsn count).buffer.take (n * r.sectorSize))

theorem decryptSectors_spec (r : FrameReader) (lsn count : UInt32) (buffer : Bytes)
    (hok : (r.input.readSectors lsn count).ok = true) :
    (decryptSectors r (store buffer (r.input.readSectors lsn count).stored) lsn
        (r.input.readSectors lsn count).sectorsRead).map
          (·.take ((r.input.readSectors lsn count).sectorsRead.toNat * r.sectorSize)) =
      (decryptSectors r (store [] (r.input.readSectors lsn count).stored) lsn
        (r.input.readSectors lsn count).sectorsRead).map
          (·.take ((r.input.readSectors lsn count).sectorsRead.toNat * r.sectorSize)) := by
  have hlen := r.input.stored_sectors lsn count hok
  unfold decryptSectors
  cases hd : r.input.decrypt with
  | none => simp [store_take hlen]
  | some f =>
    by_cases hin : decrypts r lsn (r.input.readSectors lsn count).sectorsRead = true
    · simp only [hin, if_true, store_take hlen, Option.map_map]
      cases hf : f ((r.input.readSectors lsn count).stored.take
          ((r.input.readSectors lsn count).sectorsRead.toNat * r.sectorSize)) with
      | none => rfl
      | some plain =>
        have hplain := r.input.decrypt_length f hd _ _ hf
        rw [List.length_take, Nat.min_eq_left hlen] at hplain
        simp [store_take (Nat.le_of_eq hplain.symm)]
    · simp [hin, store_take hlen]

/-- A fetch gives its window. -/
theorem fetch_window (r : FrameReader) (buffer : Bytes) (lsn count : UInt32) :
    ((fetch r buffer lsn count).sectors.map fun n =>
      (n, (fetch r buffer lsn count).buffer.take (n * r.sectorSize))) = window r lsn count := by
  unfold window fetch
  by_cases hok : (r.input.readSectors lsn count).ok = true
  · have hspec := decryptSectors_spec r lsn count buffer hok
    simp only [hok, if_true]
    cases h₁ : decryptSectors r (store buffer (r.input.readSectors lsn count).stored) lsn
        (r.input.readSectors lsn count).sectorsRead <;>
      cases h₂ : decryptSectors r (store [] (r.input.readSectors lsn count).stored) lsn
        (r.input.readSectors lsn count).sectorsRead <;>
      simp_all
  · simp [hok]

theorem window_some {r : FrameReader} {lsn count : UInt32} {n : Nat} {bytes : Bytes}
    (h : window r lsn count = some (n, bytes)) (buffer : Bytes) :
    (fetch r buffer lsn count).sectors = some n ∧
      (fetch r buffer lsn count).buffer.take (n * r.sectorSize) = bytes := by
  rw [← fetch_window r buffer] at h
  obtain ⟨m, hm, hpair⟩ := Option.map_eq_some_iff.mp h
  obtain ⟨hmn, hbytes⟩ := Prod.mk.inj hpair
  subst hmn
  exact ⟨hm, hbytes⟩

theorem sectorHeader_congr {r : FrameReader} {b c : Bytes} {i n : Nat} (hi : i < n)
    (h : b.take (n * r.sectorSize) = c.take (n * r.sectorSize)) :
    sectorHeader r b i = sectorHeader r c i := by
  have hfit : i * r.sectorSize + r.headerSize + maxHeaderSize ≤ n * r.sectorSize := by
    have hle : (i + 1) * r.sectorSize ≤ n * r.sectorSize := Nat.mul_le_mul_right _ hi
    have hsize := r.size_ok
    rw [Nat.add_mul, Nat.one_mul] at hle
    unfold lsnSize at hsize
    unfold maxHeaderSize
    omega
  apply parseAudioSectorHeader_congr
  have hcut := congrArg (fun l => (l.drop (i * r.sectorSize + r.headerSize)).take maxHeaderSize) h
  simp only [List.drop_take, List.take_take] at hcut
  rwa [Nat.min_eq_left (by omega)] at hcut

/-! ## The search does not look at the buffer -/

/-- The window of the single-sector fetch. -/
theorem fetchOne_header (r : FrameReader) (b c : Bytes) (lsn : UInt32) :
    ((fetchOne r b lsn).sectors.bind fun _ => sectorHeader r (fetchOne r b lsn).buffer 0) =
      (fetchOne r c lsn).sectors.bind fun _ => sectorHeader r (fetchOne r c lsn).buffer 0 := by
  unfold fetchOne
  by_cases hone : (r.input.readSectors lsn 1).sectorsRead = 1
  · rw [if_pos hone, if_pos hone]
    have hb := fetch_window r b lsn 1
    have hc := fetch_window r c lsn 1
    rw [← hc] at hb
    have hcount : ∀ buffer n, (fetch r buffer lsn 1).sectors = some n → n = 1 := by
      intro buffer n hn
      unfold fetch at hn
      simp only [hone] at hn
      split at hn
      · split at hn <;> simp_all
      · cases hn
    cases h₁ : (fetch r b lsn 1).sectors with
    | none =>
      rw [h₁, Option.map_none] at hb
      rw [Option.map_eq_none_iff.mp hb.symm]
      rfl
    | some n =>
      rw [h₁, Option.map_some] at hb
      obtain ⟨m, hm, hpair⟩ := Option.map_eq_some_iff.mp hb.symm
      rw [hcount _ _ h₁, hcount _ _ hm] at hpair
      rw [hm, Option.bind_some, Option.bind_some]
      exact sectorHeader_congr (n := 1) (by decide) (Prod.ext_iff.mp hpair).2.symm
  · rw [if_neg hone, if_neg hone]
    rfl

/-- The same outcome, with whatever bytes left in the buffer. -/
def SeekResult.Same (x y : SeekResult) : Prop :=
  x.status = y.status ∧ x.foundLsn = y.foundLsn ∧ x.sectorCount = y.sectorCount

theorem findDstFrameLoop_same (r : FrameReader) (frame : UInt32) (n : Nat) (lsn : UInt32)
    (b c : Bytes) : (findDstFrameLoop r frame n lsn b).Same (findDstFrameLoop r frame n lsn c) := by
  induction n generalizing lsn b c with
  | zero => exact ⟨rfl, rfl, rfl⟩
  | succ n ih =>
    simp only [findDstFrameLoop]
    rw [fetchOne_header r b c lsn]
    cases (fetchOne r c lsn).sectors.bind fun _ => sectorHeader r (fetchOne r c lsn).buffer 0 with
    | none => exact ⟨rfl, rfl, rfl⟩
    | some s =>
      simp only
      cases searchPackets s frame 0 s.packets with
      | passed => exact ⟨rfl, rfl, rfl⟩
      | found sectorCount => exact ⟨rfl, rfl, rfl⟩
      | goOn => exact ih (lsn + 1) _ _

theorem findDstFrame_same (r : FrameReader) (fromLsn toLsn frame : UInt32) (b c : Bytes) :
    (findDstFrame r fromLsn toLsn frame b).Same (findDstFrame r fromLsn toLsn frame c) :=
  findDstFrameLoop_same r frame _ _ b c

theorem dstSectorSeek_same (r : FrameReader) (frame : UInt32) (b c : Bytes) :
    (dstSectorSeek r frame b).Same (dstSectorSeek r frame c) := by
  have hfind := findDstFrame_same r (accessListRange r frame).1 (accessListRange r frame).2
    frame b c
  unfold dstSectorSeek
  simp only
  rw [hfind.1]
  split
  · exact findDstFrame_same r _ _ _ _ _
  · exact hfind

/-! ## Two sector loops side by side -/

/-- The left loop is `j` sectors ahead in its buffer and otherwise alike; where
the sectors lie on the disc and what remained before the frame do not matter. -/
structure Alike (j : Nat) (a b : Assembly) : Prop where
  started : a.frameStarted = b.frameStarted
  complete : a.frameComplete = b.frameComplete
  remaining : b.frameStarted = true → a.remainingSectors = b.remainingSectors
  hadAudio : a.sectorHadAudio = b.sectorHadAudio
  length : a.outputLength = b.outputLength
  copies : a.copies = b.copies.map fun c => { c with sector := c.sector + j }

section

variable {j : Nat} {a b : Assembly} (q : Request) (s : AudioSector)

theorem Alike.startFrame (h : Alike j a b) (idx : Nat) :
    Alike j (startFrame q s idx a) (startFrame q s idx b) := by
  unfold Sacd.startFrame
  split
  · exact ⟨rfl, h.complete, fun _ => rfl, h.hadAudio, h.length, h.copies⟩
  · exact h

theorem Alike.copyPacket (h : Alike j a b) (packet : PacketInfo) (sector offset : Nat) :
    Alike j (copyPacket q packet (sector + j) offset a) (copyPacket q packet sector offset b) := by
  obtain ⟨as, ac, ar, ah, al, acp, an⟩ := a
  obtain ⟨bs, bc, br, bh, bl, bcp, bn⟩ := b
  obtain ⟨hs, hc, hr, hh, hl, hcp⟩ := h
  simp only at hs hc hr hh hl hcp
  subst hs hc hh hl hcp
  simp only [Sacd.copyPacket]
  split
  · split
    · exact ⟨rfl, rfl, hr, rfl, rfl, by simp⟩
    · exact ⟨rfl, rfl, hr, rfl, rfl, rfl⟩
  · exact ⟨rfl, rfl, hr, rfl, rfl, rfl⟩

theorem Alike.readPackets (h : Alike j a b) (l₁ l₂ : UInt32) (sector idx offset : Nat)
    (packets : List PacketInfo) :
    Alike j (readPackets q l₁ s (sector + j) idx offset packets a)
      (readPackets q l₂ s sector idx offset packets b) := by
  induction packets generalizing a b idx offset with
  | nil => exact h
  | cons packet packets ih =>
    unfold Sacd.readPackets
    by_cases hstart : packet.startsFrame = true
    · rw [if_pos hstart, if_pos hstart]
      by_cases hopen : b.frameStarted = true
      · rw [if_pos hopen, if_pos (by rw [h.started]; exact hopen)]
        exact ⟨h.started, rfl, h.remaining, h.hadAudio, h.length, h.copies⟩
      · rw [if_neg hopen, if_neg (by rw [h.started]; exact hopen)]
        exact ih ((h.startFrame q s idx).copyPacket q packet sector offset) _ _
    · rw [if_neg hstart, if_neg hstart]
      exact ih (h.copyPacket q packet sector offset) _ _

theorem Alike.countSector (h : Alike j a b) (l₁ l₂ : UInt32) (sector : Nat) :
    Alike j (countSector l₁ s (sector + j) a) (countSector l₂ s sector b) := by
  obtain ⟨as, ac, ar, ah, al, acp, an⟩ := a
  obtain ⟨bs, bc, br, bh, bl, bcp, bn⟩ := b
  obtain ⟨hs, hc, hr, hh, hl, hcp⟩ := h
  simp only at hs hc hr hh hl hcp
  subst hs hc hh hl hcp
  simp only [Sacd.countSector]
  split
  · next hcount =>
    rw [hr hcount.2.2.1]
    split
    · exact ⟨rfl, rfl, fun _ => rfl, rfl, rfl, rfl⟩
    · exact ⟨rfl, rfl, fun _ => rfl, rfl, rfl, rfl⟩
  · exact ⟨rfl, rfl, hr, rfl, rfl, rfl⟩

theorem Alike.readSector (h : Alike j a b) (l₁ l₂ : UInt32) (sector : Nat) :
    Alike j (readSector q l₁ s (sector + j) a) (readSector q l₂ s sector b) := by
  have hreset : Alike j { a with sectorHadAudio := false } { b with sectorHadAudio := false } :=
    ⟨h.started, h.complete, h.remaining, rfl, h.length, h.copies⟩
  exact (hreset.readPackets q s l₁ l₂ sector 0 s.dataOffset s.packets).countSector s l₁ l₂ sector

end

/-- Loops over the same headers stay alike, or fail together. -/
theorem sectorLoop_alike {q : Request} {h₁ h₂ : Nat → Option AudioSector} {j : Nat}
    (l₁ l₂ : UInt32) (n sector : Nat) {a b : Assembly} (h : Alike j a b)
    (hh : ∀ i, sector ≤ i → i < sector + n → h₁ (i + j) = h₂ i) :
    Option.Rel (Alike j) (sectorLoop q l₁ h₁ n (sector + j) a) (sectorLoop q l₂ h₂ n sector b) := by
  induction n generalizing sector a b with
  | zero => exact Option.Rel.some h
  | succ n ih =>
    simp only [sectorLoop]
    rw [h.complete, hh sector (Nat.le_refl _) (by omega)]
    split
    · exact Option.Rel.some h
    · cases h₂ sector with
      | none => exact Option.Rel.none
      | some s =>
        have hnext := ih (sector + 1) (h.readSector q s l₁ l₂ sector) fun i hi hin =>
          hh i (by omega) (by omega)
        simp only
        rw [show sector + j + 1 = sector + 1 + j by omega]
        exact hnext

theorem sectorLoop_complete {q : Request} {l : UInt32} {headers : Nat → Option AudioSector}
    {a : Assembly} (h : a.frameComplete = true) (n sector : Nat) :
    sectorLoop q l headers n sector a = some a := by
  cases n with
  | zero => rfl
  | succ n => rw [sectorLoop, if_pos h]

theorem sectorLoop_add (q : Request) (l : UInt32) (headers : Nat → Option AudioSector)
    (n m sector : Nat) (a : Assembly) :
    sectorLoop q l headers (n + m) sector a =
      (sectorLoop q l headers n sector a).bind (sectorLoop q l headers m (sector + n)) := by
  induction n generalizing sector a with
  | zero =>
    rw [Nat.zero_add]
    rfl
  | succ n ih =>
    rw [show n + 1 + m = (n + m) + 1 by omega, sectorLoop, sectorLoop]
    split
    · next hc => rw [Option.bind_some, sectorLoop_complete hc]
    · cases headers sector with
      | none => rfl
      | some s =>
        simp only
        rw [ih, show sector + 1 + n = sector + (n + 1) by omega]

/-! ## Sectors before the frame -/

/-- The frame numbers of the frames that start in a sector. -/
def AudioSector.startCodes (s : AudioSector) : List Nat :=
  (List.range (s.packets.countP PacketInfo.startsFrame)).map fun i => timeToFrame (s.frame i)

theorem copyPacket_unstarted {q : Request} {a : Assembly} (h : a.frameStarted = false)
    (packet : PacketInfo) (sector offset : Nat) : copyPacket q packet sector offset a = a := by
  simp [copyPacket, h]

theorem readPackets_unstarted {q : Request} {l : UInt32} {s : AudioSector} {sector : Nat}
    (idx offset : Nat) (packets : List PacketInfo) {a : Assembly} (h : a.frameStarted = false)
    (hcodes : ∀ i, idx ≤ i → i < idx + packets.countP PacketInfo.startsFrame →
      timeToFrame (s.frame i) ≠ q.frameNum.toNat) :
    readPackets q l s sector idx offset packets a = a := by
  induction packets generalizing idx offset with
  | nil => rfl
  | cons packet packets ih =>
    unfold readPackets
    by_cases hstart : packet.startsFrame = true
    · have hcount : (packet :: packets).countP PacketInfo.startsFrame =
          packets.countP PacketInfo.startsFrame + 1 := List.countP_cons_of_pos hstart
      have hskip : startFrame q s idx a = a := by
        rw [startFrame, if_neg (hcodes idx (Nat.le_refl _) (by omega))]
      rw [if_pos hstart, if_neg (by simp [h]), hskip, copyPacket_unstarted h]
      exact ih (idx + 1) _ fun i hi hin => hcodes i (by omega) (by omega)
    · have hcount : (packet :: packets).countP PacketInfo.startsFrame =
          packets.countP PacketInfo.startsFrame := List.countP_cons_of_neg hstart
      rw [if_neg hstart, copyPacket_unstarted h]
      exact ih idx _ fun i hi hin => hcodes i hi (by omega)

/-- A sector in which the frame does not start leaves the loop waiting for it. -/
theorem readSector_unstarted {q : Request} {l : UInt32} {s : AudioSector} {sector : Nat}
    {a : Assembly} (h : a.frameStarted = false) (haudio : a.sectorHadAudio = false)
    (hcodes : q.frameNum.toNat ∉ s.startCodes) : readSector q l s sector a = a := by
  have hreset : { a with sectorHadAudio := false } = a := by
    rw [← haudio]
  have hpackets : readPackets q l s sector 0 s.dataOffset s.packets a = a := by
    apply readPackets_unstarted 0 s.dataOffset s.packets h
    intro i _ hi hcode
    exact hcodes (List.mem_map.mpr ⟨i, List.mem_range.mpr (by omega), hcode⟩)
  rw [readSector, hreset, hpackets, countSector, if_neg (by simp [h])]

theorem sectorLoop_unstarted {q : Request} {l : UInt32} {headers : Nat → Option AudioSector}
    (n sector : Nat) {a : Assembly} (h : a.frameStarted = false) (haudio : a.sectorHadAudio = false)
    (hsectors : ∀ i, sector ≤ i → i < sector + n →
      ∃ s, headers i = some s ∧ q.frameNum.toNat ∉ s.startCodes) :
    sectorLoop q l headers n sector a = some a := by
  induction n generalizing sector with
  | zero => rfl
  | succ n ih =>
    obtain ⟨s, hs, hcodes⟩ := hsectors sector (Nat.le_refl _) (by omega)
    rw [sectorLoop, hs]
    simp only
    rw [readSector_unstarted h haudio hcodes]
    split
    · rfl
    · exact ih (sector + 1) fun i hi hin => hsectors i (by omega) (by omega)

/-! ## When the two reads agree -/

/-- The sector loop over the sectors of a window. -/
def assemble (r : FrameReader) (q : Request) (n : Nat) (bytes : Bytes) : Option Assembly :=
  sectorLoop q 0 (sectorHeader r bytes) n 0 (.start 1)

/-- Every copy ends within `n` sectors. -/
def CopiesWithin (r : FrameReader) (n : Nat) (a : Assembly) : Prop :=
  ∀ c ∈ a.copies, c.sector * r.sectorSize + r.headerSize + c.offset + c.length ≤ n * r.sectorSize

/-- The fetch fails or a header does not parse before the frame is complete. -/
def Fails (r : FrameReader) (q : Request) (w : Option (Nat × Bytes)) : Prop :=
  ∀ n bytes, w = some (n, bytes) → assemble r q n bytes = none

/-- The windows share `m` sectors, behind `j` of the first in which the frame does
not start; the frame ends in them, or both windows do; and its packets lie in them. -/
structure ShareFrame (r : FrameReader) (q : Request) (n₁ : Nat) (bytes₁ : Bytes) (n₂ : Nat)
    (bytes₂ : Bytes) (j m : Nat) (a : Assembly) : Prop where
  inFirst : j + m ≤ n₁
  inSecond : m ≤ n₂
  shared : (bytes₁.drop (j * r.sectorSize)).take (m * r.sectorSize) =
    bytes₂.take (m * r.sectorSize)
  before : ∀ i, i < j → ∃ s, sectorHeader r bytes₁ i = some s ∧ q.frameNum.toNat ∉ s.startCodes
  assembled : assemble r q m bytes₂ = some a
  ends : a.frameComplete = true ∨ (j + m = n₁ ∧ m = n₂)
  within : CopiesWithin r m a

/-- What a sequential read fetches from `lsn` and what the search leads to tell
the frame alike. -/
def SequentialAgrees (r : FrameReader) (q : Request) (lsn : UInt32) : Prop :=
  let seek := dstSectorSeek r q.frameNum []
  let cached := window r lsn (UInt32.ofNat maxDstSectors)
  let found := window r seek.foundLsn (UInt32.ofNat (validSectorCount seek.sectorCount))
  seek.status = readerOk ∧
    ((Fails r q cached ∧ Fails r q found) ∨
      ∃ n₁ bytes₁ n₂ bytes₂ j m a, cached = some (n₁, bytes₁) ∧ found = some (n₂, bytes₂) ∧
        ShareFrame r q n₁ bytes₁ n₂ bytes₂ j m a)

/-- The packets of a frame that is searched for lie in the sectors fetched. -/
def RandomAgrees (r : FrameReader) (q : Request) : Prop :=
  let seek := dstSectorSeek r q.frameNum []
  seek.status = readerOk → ∀ n bytes a,
    window r seek.foundLsn (UInt32.ofNat (validSectorCount seek.sectorCount)) = some (n, bytes) →
      assemble r q n bytes = some a → CopiesWithin r n a

/-- The condition under which a call returns what a fresh reader returns. -/
def CallAgrees (r : FrameReader) (d : DstReader) (q : Request) : Prop :=
  if d.Sequential q then SequentialAgrees r q d.cachedFrameLsn else RandomAgrees r q

/-- Every call of the history meets the condition. -/
def HistoryAgrees (r : FrameReader) : DstReader → List Request → Prop
  | _, [] => True
  | d, q :: qs => CallAgrees r d q ∧ HistoryAgrees r (dstReaderReadFrame r d q).2 qs

/-! ## The call -/

theorem alike_start (j n m : Nat) : Alike j (.start n) (.start m) :=
  ⟨rfl, rfl, fun h => absurd h Bool.false_ne_true, rfl, rfl, rfl⟩

theorem readFrameAt_none {r : FrameReader} {d : DstReader} {q : Request} {lsn : UInt32} {k : Nat}
    (h : (fetch r d.sectorBuffer lsn (UInt32.ofNat k)).sectors = none) :
    (readFrameAt r d q lsn k).1 = emptyRead readerIoError := by
  unfold readFrameAt
  simp only [h]

theorem readFrameAt_some {r : FrameReader} {d : DstReader} {q : Request} {lsn : UInt32} {k n : Nat}
    (h : (fetch r d.sectorBuffer lsn (UInt32.ofNat k)).sectors = some n) :
    (readFrameAt r d q lsn k).1 =
      ((sectorLoop q lsn (sectorHeader r (fetch r d.sectorBuffer lsn (UInt32.ofNat k)).buffer) n 0
        (.start k)).elim (emptyRead readerIoError) fun a =>
          ⟨readerOk, a.outputLength, a.copies.flatMap
            (Copy.bytes r (fetch r d.sectorBuffer lsn (UInt32.ofNat k)).buffer)⟩) := by
  unfold readFrameAt
  simp only [h]
  cases sectorLoop q lsn (sectorHeader r (fetch r d.sectorBuffer lsn (UInt32.ofNat k)).buffer) n 0
    (.start k) <;> rfl

/-- The loop over a fetched buffer and the loop over its window. -/
theorem sectorLoop_window (r : FrameReader) (q : Request) (lsn : UInt32) (k n : Nat)
    (buffer : Bytes) :
    Option.Rel (Alike 0) (sectorLoop q lsn (sectorHeader r buffer) n 0 (.start k))
      (assemble r q n (buffer.take (n * r.sectorSize))) := by
  refine sectorLoop_alike lsn 0 n 0 (alike_start 0 k 1) fun i _ hi => sectorHeader_congr (n := n)
    (by omega) ?_
  rw [List.take_take, Nat.min_self]

/-- A read whose window fails returns nothing. -/
theorem readFrameAt_fails {r : FrameReader} {d : DstReader} {q : Request} {lsn : UInt32} {k : Nat}
    (h : Fails r q (window r lsn (UInt32.ofNat k))) :
    (readFrameAt r d q lsn k).1 = emptyRead readerIoError := by
  have hw := fetch_window r d.sectorBuffer lsn (UInt32.ofNat k)
  cases hs : (fetch r d.sectorBuffer lsn (UInt32.ofNat k)).sectors with
  | none => exact readFrameAt_none hs
  | some n =>
    rw [hs, Option.map_some] at hw
    have hloop := sectorLoop_window r q lsn k n (fetch r d.sectorBuffer lsn (UInt32.ofNat k)).buffer
    rw [h n _ hw.symm] at hloop
    rw [readFrameAt_some hs]
    cases hl : sectorLoop q lsn (sectorHeader r (fetch r d.sectorBuffer lsn
        (UInt32.ofNat k)).buffer) n 0 (.start k) with
    | none => rfl
    | some a =>
      rw [hl] at hloop
      cases hloop

/-- Copies within a stretch two buffers share take the same bytes. -/
theorem copies_bytes {r : FrameReader} {j m : Nat} {b₁ b₂ : Bytes} {copies : List Copy}
    (hshared : (b₁.drop (j * r.sectorSize)).take (m * r.sectorSize) = b₂.take (m * r.sectorSize))
    (hwithin : ∀ c ∈ copies,
      c.sector * r.sectorSize + r.headerSize + c.offset + c.length ≤ m * r.sectorSize) :
    (copies.map fun c => { c with sector := c.sector + j }).flatMap (Copy.bytes r b₁) =
      copies.flatMap (Copy.bytes r b₂) := by
  rw [List.flatMap_map]
  apply List.flatMap_congr
  intro c hc
  have hfit := hwithin c hc
  have hcut := congrArg (fun l =>
    (l.drop (c.sector * r.sectorSize + r.headerSize + c.offset)).take c.length) hshared
  simp only [List.drop_take, List.take_take, List.drop_drop] at hcut
  rw [Nat.min_eq_left (by omega)] at hcut
  simp only [Copy.bytes]
  rw [← hcut, Nat.add_mul]
  congr 2
  omega

theorem sectorHeader_drop (r : FrameReader) (b : Bytes) (i j : Nat) :
    sectorHeader r b (i + j) = sectorHeader r (b.drop (j * r.sectorSize)) i := by
  rw [sectorHeader, sectorHeader, List.drop_drop]
  congr 2
  rw [Nat.add_mul]
  omega

/-- A read whose window holds the frame in a stretch of `m` sectors returns the
packets of that stretch. -/
theorem readFrameAt_shares {r : FrameReader} {d : DstReader} {q : Request} {lsn : UInt32}
    {k n₁ n₂ j m : Nat} {bytes₁ bytes₂ : Bytes} {a : Assembly}
    (hw : window r lsn (UInt32.ofNat k) = some (n₁, bytes₁))
    (h : ShareFrame r q n₁ bytes₁ n₂ bytes₂ j m a) :
    (readFrameAt r d q lsn k).1 =
      ⟨readerOk, a.outputLength, a.copies.flatMap (Copy.bytes r bytes₂)⟩ := by
  obtain ⟨hn, hbytes⟩ := window_some hw d.sectorBuffer
  rw [readFrameAt_some hn]
  generalize (fetch r d.sectorBuffer lsn (UInt32.ofNat k)).buffer = buffer at hbytes
  have hin := h.inFirst
  have hheaders : ∀ i, i < n₁ → sectorHeader r buffer i = sectorHeader r bytes₁ i := fun i hi =>
    sectorHeader_congr hi (by rw [← hbytes, List.take_take, Nat.min_self])
  have hpre : sectorLoop q lsn (sectorHeader r buffer) j 0 (.start k) = some (.start k) :=
    sectorLoop_unstarted j 0 rfl rfl fun i _ hi => by
      rw [hheaders i (by omega)]
      exact h.before i (by omega)
  have hstretch : ∀ i, 0 ≤ i → i < 0 + m →
      sectorHeader r buffer (i + j) = sectorHeader r bytes₂ i := by
    intro i _ hi
    rw [hheaders (i + j) (by omega), sectorHeader_drop]
    exact sectorHeader_congr (n := m) (by omega) h.shared
  have hmid := sectorLoop_alike (q := q) lsn 0 m 0 (alike_start j k 1) hstretch
  have hassembled := h.assembled
  rw [assemble] at hassembled
  rw [hassembled, Nat.zero_add] at hmid
  obtain ⟨b, hb, hlike⟩ : ∃ b, sectorLoop q lsn (sectorHeader r buffer) m j (.start k) = some b ∧
      Alike j b a := by
    cases hl : sectorLoop q lsn (sectorHeader r buffer) m j (.start k) with
    | none =>
      rw [hl] at hmid
      cases hmid
    | some b =>
      rw [hl] at hmid
      cases hmid with
      | some hlike => exact ⟨b, rfl, hlike⟩
  have hloop : sectorLoop q lsn (sectorHeader r buffer) n₁ 0 (.start k) = some b := by
    rw [show n₁ = j + (m + (n₁ - (j + m))) by omega, sectorLoop_add, hpre, Option.bind_some,
      Nat.zero_add, sectorLoop_add, hb, Option.bind_some]
    rcases h.ends with hdone | ⟨hn₁, -⟩
    · exact sectorLoop_complete (by rw [hlike.complete]; exact hdone) _ _
    · rw [← hn₁, Nat.sub_self]
      rfl
  have hshared : (buffer.drop (j * r.sectorSize)).take (m * r.sectorSize) =
      bytes₂.take (m * r.sectorSize) := by
    rw [← h.shared, ← hbytes, List.drop_take, List.take_take, Nat.min_eq_left]
    rw [← Nat.sub_mul]
    exact Nat.mul_le_mul_right _ (by omega)
  rw [hloop, Option.elim_some, hlike.length, hlike.copies, copies_bytes hshared h.within]

theorem ShareFrame.second {r : FrameReader} {q : Request} {n₁ n₂ j m : Nat} {bytes₁ bytes₂ : Bytes}
    {a : Assembly} (h : ShareFrame r q n₁ bytes₁ n₂ bytes₂ j m a) :
    ShareFrame r q n₂ bytes₂ n₂ bytes₂ 0 m a where
  inFirst := by rw [Nat.zero_add]; exact h.inSecond
  inSecond := h.inSecond
  shared := by rw [Nat.zero_mul, List.drop_zero]
  before := fun i hi => absurd hi (Nat.not_lt_zero i)
  assembled := h.assembled
  ends := h.ends.imp id fun hm => ⟨by rw [Nat.zero_add]; exact hm.2, hm.2⟩
  within := h.within

/-- A window shares all of itself with itself. -/
theorem ShareFrame.whole {r : FrameReader} {q : Request} {n : Nat} {bytes : Bytes} {a : Assembly}
    (ha : assemble r q n bytes = some a) (hwithin : CopiesWithin r n a) :
    ShareFrame r q n bytes n bytes 0 n a where
  inFirst := by omega
  inSecond := Nat.le_refl n
  shared := by rw [Nat.zero_mul, List.drop_zero]
  before := fun i hi => absurd hi (Nat.not_lt_zero i)
  assembled := ha
  ends := Or.inr ⟨Nat.zero_add n, rfl⟩
  within := hwithin

/-- A read by search on any reader is that of a fresh one, given what it fetches. -/
theorem dstReaderReadFrame_search {r : FrameReader} {d : DstReader} {q : Request}
    (h : ¬ d.Sequential q) (hok : (dstSectorSeek r q.frameNum []).status = readerOk) :
    ∃ buffer, (dstReaderReadFrame r d q).1 =
      (readFrameAt r { d with sectorBuffer := buffer } q (dstSectorSeek r q.frameNum []).foundLsn
        (validSectorCount (dstSectorSeek r q.frameNum []).sectorCount)).1 := by
  obtain ⟨hstatus, hlsn, hcount⟩ := dstSectorSeek_same r q.frameNum d.sectorBuffer []
  refine ⟨(dstSectorSeek r q.frameNum d.sectorBuffer).buffer, ?_⟩
  unfold dstReaderReadFrame
  rw [if_neg h]
  simp only
  rw [if_neg (by rw [hstatus, hok]; simp), hlsn, hcount]

theorem dstReaderReadFrame_notFound {r : FrameReader} {d : DstReader} {q : Request}
    (h : ¬ d.Sequential q) (hok : (dstSectorSeek r q.frameNum []).status ≠ readerOk) :
    (dstReaderReadFrame r d q).1 = emptyRead (dstSectorSeek r q.frameNum []).status := by
  obtain ⟨hstatus, -, -⟩ := dstSectorSeek_same r q.frameNum d.sectorBuffer []
  unfold dstReaderReadFrame
  rw [if_neg h]
  simp only
  rw [if_pos (by rw [hstatus]; exact hok), hstatus]

theorem dstReaderInit_not_sequential (r : FrameReader) (q : Request) :
    ¬ (dstReaderInit r).Sequential q := fun h => Bool.false_ne_true h.1

/-- One call. -/
theorem dstReaderReadFrame_eq_fresh {r : FrameReader} {d : DstReader} {q : Request}
    (h : CallAgrees r d q) :
    (dstReaderReadFrame r d q).1 = (dstReaderReadFrame r (dstReaderInit r) q).1 := by
  have hinit := dstReaderInit_not_sequential r q
  unfold CallAgrees at h
  by_cases hseq : d.Sequential q
  · rw [if_pos hseq] at h
    obtain ⟨hok, hagree⟩ := h
    obtain ⟨buffer, hfresh⟩ := dstReaderReadFrame_search hinit hok
    have hcached : dstReaderReadFrame r d q = readFrameAt r d q d.cachedFrameLsn maxDstSectors := by
      rw [dstReaderReadFrame, if_pos hseq]
    rw [hcached, hfresh]
    rcases hagree with ⟨hfail₁, hfail₂⟩ | ⟨n₁, bytes₁, n₂, bytes₂, j, m, a, hw₁, hw₂, hshare⟩
    · rw [readFrameAt_fails hfail₁, readFrameAt_fails hfail₂]
    · rw [readFrameAt_shares hw₁ hshare, readFrameAt_shares hw₂ hshare.second]
  · rw [if_neg hseq] at h
    by_cases hok : (dstSectorSeek r q.frameNum []).status = readerOk
    · obtain ⟨b₁, h₁⟩ := dstReaderReadFrame_search hseq hok
      obtain ⟨b₂, h₂⟩ := dstReaderReadFrame_search hinit hok
      rw [h₁, h₂]
      have hwithin := h hok
      cases hw : window r (dstSectorSeek r q.frameNum []).foundLsn
          (UInt32.ofNat (validSectorCount (dstSectorSeek r q.frameNum []).sectorCount)) with
      | none =>
        have hfail : Fails r q (window r (dstSectorSeek r q.frameNum []).foundLsn
            (UInt32.ofNat (validSectorCount (dstSectorSeek r q.frameNum []).sectorCount))) := by
          intro n bytes hsome
          rw [hw] at hsome
          cases hsome
        rw [readFrameAt_fails hfail, readFrameAt_fails hfail]
      | some fetched =>
        obtain ⟨n, bytes⟩ := fetched
        cases ha : assemble r q n bytes with
        | none =>
          have hfail : Fails r q (window r (dstSectorSeek r q.frameNum []).foundLsn
              (UInt32.ofNat (validSectorCount (dstSectorSeek r q.frameNum []).sectorCount))) := by
            intro n' bytes' hsome
            rw [hw] at hsome
            cases hsome
            exact ha
          rw [readFrameAt_fails hfail, readFrameAt_fails hfail]
        | some a =>
          have hshare := ShareFrame.whole ha (hwithin n bytes a hw ha)
          rw [readFrameAt_shares hw hshare, readFrameAt_shares hw hshare]
    · rw [dstReaderReadFrame_notFound hseq hok, dstReaderReadFrame_notFound hinit hok]

/-- In a history that meets the condition call by call, every call returns what
a fresh reader returns. -/
theorem readFrames_eq_fresh (r : FrameReader) (qs : List Request)
    (h : HistoryAgrees r (dstReaderInit r) qs) :
    readFrames r (dstReaderInit r) qs =
      qs.map fun q => (dstReaderReadFrame r (dstReaderInit r) q).1 := by
  suffices hany : ∀ d, HistoryAgrees r d qs → readFrames r d qs =
      qs.map fun q => (dstReaderReadFrame r (dstReaderInit r) q).1 from hany _ h
  intro d hd
  clear h
  induction qs generalizing d with
  | nil => rfl
  | cons q qs ih =>
    rw [readFrames, List.map_cons, dstReaderReadFrame_eq_fresh hd.1, ih _ hd.2]

/-! ## Discs of two frames -/

/-- A DST sector of one packet, the one byte of a frame that starts there. -/
def oneFrameSector (frame payload : UInt8) : Bytes :=
  [0x25, 0x90, 0x01, 0, 0, frame, 0x04, payload] ++ List.replicate 2040 0

/-- Frame 0 in sector 0 and the frame `next` in sector 1. -/
def twoFrameDisc (next : UInt8) : FrameReader where
  sectorSize := lsnSize
  headerSize := 0
  size_ok := by decide
  input := fileInput (oneFrameSector 0 7 ++ oneFrameSector next 9) lsnSize
  startSector := 0
  endSector := 1
  accessList := ⟨0, 0, none, none⟩
  totalAreaPlayTime := 0

theorem readFrames_not_fresh : ¬ ∀ (r : FrameReader) (qs : List Request),
    readFrames r (dstReaderInit r) qs =
      qs.map fun q => (dstReaderReadFrame r (dstReaderInit r) q).1 := by
  intro h
  exact absurd (h (twoFrameDisc 5) [⟨100, 0, 2⟩, ⟨100, 1, 2⟩]) (by decide +kernel)

/-- The one packet of a one-frame sector. -/
def onePacket (nextFrameLsn : UInt32) : Assembly :=
  ⟨true, true, 0, true, 1, [⟨0, 7, 1⟩], nextFrameLsn⟩

theorem readFrames_eq_fresh_twoFrames :
    readFrames (twoFrameDisc 1) (dstReaderInit (twoFrameDisc 1)) [⟨100, 0, 2⟩, ⟨100, 1, 2⟩] =
      [⟨100, 0, 2⟩, ⟨100, 1, 2⟩].map fun q =>
        (dstReaderReadFrame (twoFrameDisc 1) (dstReaderInit (twoFrameDisc 1)) q).1 := by
  apply readFrames_eq_fresh
  refine ⟨?_, ?_, trivial⟩
  · rw [CallAgrees, if_neg (dstReaderInit_not_sequential _ _)]
    intro _ n bytes a hw ha
    have hwindow : window (twoFrameDisc 1) 0 1 = some (1, oneFrameSector 0 7) := by decide +kernel
    have hassemble : assemble (twoFrameDisc 1) ⟨100, 0, 2⟩ 1 (oneFrameSector 0 7) =
        some (onePacket 1) := by decide +kernel
    have hseek : (dstSectorSeek (twoFrameDisc 1) 0 []).foundLsn = 0 ∧
        (dstSectorSeek (twoFrameDisc 1) 0 []).sectorCount = 1 := by decide +kernel
    simp only [hseek] at hw
    change window (twoFrameDisc 1) 0 1 = _ at hw
    rw [hwindow] at hw
    cases hw
    rw [hassemble] at ha
    cases ha
    simp [CopiesWithin, onePacket, twoFrameDisc, lsnSize]
  · rw [CallAgrees, if_pos (by decide +kernel)]
    refine ⟨by decide +kernel, Or.inr ⟨1, oneFrameSector 1 9, 1, oneFrameSector 1 9, 0, 1,
      onePacket 1, by decide +kernel, by decide +kernel, ShareFrame.whole (by decide +kernel) ?_⟩⟩
    simp [CopiesWithin, onePacket, twoFrameDisc, lsnSize]
end DsdNexus.Sacd
