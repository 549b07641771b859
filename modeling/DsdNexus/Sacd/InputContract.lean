import DsdNexus.Sacd.InputNetwork
import DsdNexus.Sacd.MasterToc

/-! # Reading sectors from any input

The file, the network and the drive input read sectors of one image. Each of them counts the
sectors it has read and starts the buffer with these. The network and the drive input succeed
just where all sectors are there; the file input cuts a request off at the end of the file.
-/

namespace DsdNexus.Sacd

open Master (SectorFormat masterTocSign)

/-- A disc image of whole sectors without headers. -/
structure Image where
  sectors : Nat
  content : Bytes
  length_eq : content.length = sectors * lsnSize

/-- The `k` sectors from `p` on. -/
def Image.read (image : Image) (p k : Nat) : Bytes :=
  slice image.content (p * lsnSize) (k * lsnSize)

/-! ## The file input -/

def masterToc1Start : Nat := 510

/-- `_file_check_sacd_signature` -/
def fileCheckSacdSignature (file : Bytes) (format : SectorFormat) : Bool :=
  decide (slice file (masterToc1Start * format.sectorSize + format.headerSize) 8 = masterTocSign)

/-- `_file_detect_sector_format`: the format with the most header that fits. -/
def fileDetectSectorFormat (file : Bytes) : SectorFormat :=
  if fileCheckSacdSignature file .sector2064 then .sector2064
  else if fileCheckSacdSignature file .sector2054 then .sector2054
  else .sector2048

/-- A read of the file input, with the format detected first. -/
def fileInputRead (file : Bytes) (sectorPos sectorCount : UInt32) : SectorsRead :=
  fileReadSectors file (fileDetectSectorFormat file).sectorSize sectorPos sectorCount

/-! ## The drive input -/

/-- `sg_ll_ps3_read12`: the bytes of the sectors, or a failure. -/
abbrev Read12 := UInt32 → UInt32 → Option Bytes

/-- A drive with the image in it; a transfer that goes beyond the last sector fails. -/
def Image.drive (image : Image) : Read12 := fun lba count =>
  if lba.toNat + count.toNat ≤ image.sectors then some (image.read lba.toNat count.toNat) else none

/-- What one command reads at most. -/
def maxTransfer : UInt32 := 32

/-- The loop over the transfers, with the sectors that may still be missing. -/
def ps3driveReadLoop (read12 : Read12) (startSector numSectors : UInt32) :
    Nat → UInt32 → Bytes → UInt32 × Bytes
  | 0, sectorsRead, buffer => (sectorsRead, buffer)
  | n + 1, sectorsRead, buffer =>
    if sectorsRead < numSectors then
      let rest := numSectors - sectorsRead
      let chunk := if maxTransfer < rest then maxTransfer else rest
      match read12 (startSector + sectorsRead) chunk with
      | none => (sectorsRead, buffer)
      | some bytes => ps3driveReadLoop read12 startSector numSectors n (sectorsRead + chunk)
          (buffer ++ bytes)
    else (sectorsRead, buffer)

/-- `ps3drive_read_sectors`. A turn reads a sector at least. -/
def ps3driveReadSectors (read12 : Read12) (startSector numSectors : UInt32) : UInt32 × Bytes :=
  ps3driveReadLoop read12 startSector numSectors numSectors.toNat 0 []

/-- `_ps3drive_read_sectors`, with a drive. -/
def ps3driveInputRead (read12 : Read12) (sectorPos sectorCount : UInt32) : SectorsRead :=
  if sectorCount = 0 then ⟨true, [], 0⟩
  else
    let read := ps3driveReadSectors read12 sectorPos sectorCount
    ⟨decide (read.1 = sectorCount), read.2, read.1⟩

/-! ## The network input -/

/-- The response of an honest server: the sectors there are of those that were asked for. -/
structure Image.Answers (image : Image) (sectorPos sectorCount : UInt32)
    (m : ServerResponse Sent) : Prop where
  type : m.type = discRead
  result : m.result = (min sectorCount.toNat (image.sectors - sectorPos.toNat) : Nat)
  hasData : m.hasData = true ↔ 0 < min sectorCount.toNat (image.sectors - sectorPos.toNat)
  data : m.hasData = true → m.data.map Sent.byte =
    image.read sectorPos.toNat (min sectorCount.toNat (image.sectors - sectorPos.toNat))

/-! ## What a read means -/

/-- So many sectors are counted, no more than asked for; the image has them, and they are what
the buffer starts with. -/
structure Serves (image : Image) (p n k : Nat) (buffer : Bytes) : Prop where
  count : k ≤ n
  inside : k = 0 ∨ p + k ≤ image.sectors
  sectors : buffer.take (k * lsnSize) = image.read p k

/-- A read that succeeds just where all sectors are there and have been read. -/
structure ServesAll (image : Image) (p n : Nat) (ok : Prop) (k : Nat) (buffer : Bytes) : Prop
    extends Serves image p n k buffer where
  complete : ok ↔ k = n
  within : ok ↔ p + n ≤ image.sectors

/-- A read that succeeds where its first sector is there, and goes as far as the image. -/
structure ServesSome (image : Image) (p n : Nat) (ok : Prop) (k : Nat) (buffer : Bytes) : Prop
    extends Serves image p n k buffer where
  started : ok ↔ p < image.sectors
  clamped : k = min n (image.sectors - p)

variable {image : Image} {p n : UInt32}

theorem read_length {k : Nat} {q : Nat} (h : q + k ≤ image.sectors) :
    (image.read q k).length = k * lsnSize := by
  refine slice_length_of_le ?_
  rw [image.length_eq, ← Nat.add_mul]
  exact Nat.mul_le_mul_right _ h

/-- Sectors behind others. -/
theorem read_append (q k l : Nat) :
    image.read q (k + l) = image.read q k ++ image.read (q + k) l := by
  rw [Image.read, Image.read, Image.read, slice, slice, slice, Nat.add_mul, List.take_add,
    List.drop_drop, ← Nat.add_mul]

theorem file_serves (hformat : fileDetectSectorFormat image.content = .sector2048) (hn : n ≠ 0) :
    ServesSome image p.toNat n.toNat ((fileInputRead image.content p n).ok = true)
      (fileInputRead image.content p n).sectorsRead.toNat
      (fileInputRead image.content p n).stored := by
  have hlsn : lsnSize = 2048 := rfl
  have hsize : SectorFormat.sector2048.sectorSize = lsnSize := rfl
  have hlt := n.toNat_lt
  rw [fileInputRead, hformat, hsize, fileReadSectors, if_neg hn]
  simp only []
  split
  · next hend =>
    rw [image.length_eq] at hend
    have hbeyond : image.sectors ≤ p.toNat := Nat.le_of_mul_le_mul_right hend (by decide)
    refine ⟨⟨Nat.zero_le _, .inl rfl, ?_⟩,
      ⟨fun h => absurd h Bool.false_ne_true, fun h => absurd hbeyond (Nat.not_le.2 h)⟩, ?_⟩
    · rw [Image.read]
      simp [slice]
    · rw [Nat.sub_eq_zero_of_le hbeyond, Nat.min_zero]
      rfl
  · next hin =>
    rw [image.length_eq] at hin
    have hstart : p.toNat < image.sectors := Nat.lt_of_mul_lt_mul_right (Nat.not_le.1 hin)
    have hlength : ((image.content.drop (p.toNat * lsnSize)).take (n.toNat * lsnSize)).length =
        min n.toNat (image.sectors - p.toNat) * lsnSize := by
      rw [List.length_take, List.length_drop, image.length_eq, ← Nat.sub_mul, Nat.mul_min_mul_right]
    have hcount : (UInt32.ofNat (((image.content.drop (p.toNat * lsnSize)).take
        (n.toNat * lsnSize)).length / lsnSize)).toNat = min n.toNat (image.sectors - p.toNat) := by
      rw [hlength, Nat.mul_div_cancel _ (by decide), UInt32.toNat_ofNat']
      exact Nat.mod_eq_of_lt (by omega)
    rw [hcount]
    refine ⟨⟨Nat.min_le_left _ _, .inr (by omega), ?_⟩, ⟨fun _ => hstart, fun _ => rfl⟩, rfl⟩
    rw [List.take_take, Image.read, slice, Nat.min_eq_left]
    exact Nat.mul_le_mul_right _ (Nat.min_le_left _ _)

theorem network_serves {c : ReadCall} {s : Network} {m : ServerResponse Sent}
    (hn : c.sectorCount ≠ 0)
    (hmessage : (⟨c, s, (networkReadSectors c s).1⟩ : Turn).message = some m)
    (hanswer : image.Answers c.sectorPos c.sectorCount m) :
    ServesAll image c.sectorPos.toNat c.sectorCount.toNat
      ((networkReadSectors c s).1.status = inputOk) (networkReadSectors c s).1.sectorsRead
      ((networkReadSectors c s).1.copied.map Sent.byte) := by
  have hpos : 0 < c.sectorCount.toNat :=
    Nat.pos_of_ne_zero fun hzero => hn (UInt32.toNat_inj.1 hzero)
  have hlt := c.sectorCount.toNat_lt
  have hlsn : lsnSize = 2048 := rfl
  have hreported : m.reported = min c.sectorCount.toNat (image.sectors - c.sectorPos.toNat) := by
    rw [ServerResponse.reported, hanswer.result]
    omega
  by_cases hsectors : m.HasSectors
  · have hsome := hanswer.hasData.1 hsectors.2.1
    obtain ⟨-, hresult⟩ := result_of_sectors rfl hmessage hsectors
    simp only [] at hresult
    rw [hresult, hreported]
    dsimp only
    refine ⟨⟨Nat.min_le_left _ _, .inr (by omega), ?_⟩, ?_, ?_⟩
    · rw [hanswer.data hsectors.2.1, List.take_of_length_le]
      rw [read_length (by omega)]
    · split
      · next hall => exact ⟨fun _ => hall, fun _ => rfl⟩
      · next hshort =>
        exact ⟨fun hok => absurd hok readFailed_ne_ok, fun hall => absurd hall hshort⟩
    · split
      · next hall => exact ⟨fun _ => by omega, fun _ => rfl⟩
      · next hshort => exact ⟨fun hok => absurd hok readFailed_ne_ok, fun hall => by omega⟩
  · have hbeyond : image.sectors ≤ c.sectorPos.toNat := by
      by_contra hin
      have hdata : m.hasData = true := hanswer.hasData.2 (by omega)
      refine hsectors ⟨hanswer.type, hdata, ?_⟩
      have hlength := congrArg List.length (hanswer.data hdata)
      rw [List.length_map, read_length (by omega)] at hlength
      rw [hlength]
      exact Nat.mul_pos (by omega) (by decide)
    obtain ⟨hcopied, hread, hstatus⟩ := result_of_no_sectors rfl fun m' hm' hs => by
      rw [hmessage, Option.some.injEq] at hm'
      exact hsectors (hm' ▸ hs)
    simp only [] at hcopied hread hstatus
    rw [hcopied, hread]
    refine ⟨⟨Nat.zero_le _, .inl rfl, ?_⟩, ⟨fun hok => absurd (hstatus hok) hn, fun h => ?_⟩,
      ⟨fun hok => absurd (hstatus hok) hn, fun h => ?_⟩⟩
    · simp [Image.read, slice]
    · omega
    · omega

/-- The loop reads whole transfers until one would go beyond the last sector. -/
theorem driveLoop_serves (hsmall : image.sectors < 2 ^ 32) (hn : n ≠ 0) (turns : Nat)
    {done : UInt32} (hdone : done.toNat ≤ n.toNat) (hturns : n.toNat - done.toNat ≤ turns)
    (hinside : done.toNat = 0 ∨ p.toNat + done.toNat ≤ image.sectors) :
    ∃ k : UInt32, ps3driveReadLoop image.drive p n turns done (image.read p.toNat done.toNat) =
        (k, image.read p.toNat k.toNat) ∧
      k.toNat ≤ n.toNat ∧ (k.toNat = 0 ∨ p.toNat + k.toNat ≤ image.sectors) ∧
      (k = n ↔ p.toNat + n.toNat ≤ image.sectors) := by
  have hpos : 0 < n.toNat := Nat.pos_of_ne_zero fun hzero => hn (UInt32.toNat_inj.1 hzero)
  have hlt := n.toNat_lt
  have hplt := p.toNat_lt
  induction turns generalizing done with
  | zero =>
    have hall : done = n := UInt32.toNat_inj.1 (by omega)
    refine ⟨done, rfl, hdone, hinside, fun _ => ?_, fun _ => hall⟩
    rw [← hall]
    omega
  | succ turns ih =>
    rw [ps3driveReadLoop]
    split
    · next hmore =>
      rw [UInt32.lt_iff_toNat_lt] at hmore
      have hrest : (n - done).toNat = n.toNat - done.toNat :=
        UInt32.toNat_sub_of_le _ _ (UInt32.le_iff_toNat_le.2 hdone)
      have hmax : maxTransfer.toNat = 32 := rfl
      simp only []
      generalize hchunk : (if maxTransfer < n - done then maxTransfer else n - done) = chunk
      have hsize : chunk.toNat = min 32 (n.toNat - done.toNat) := by
        rw [← hchunk]
        split
        · next hlong =>
          rw [UInt32.lt_iff_toNat_lt, hmax, hrest] at hlong
          rw [hmax]
          omega
        · next hshort =>
          rw [UInt32.lt_iff_toNat_lt, hmax, hrest] at hshort
          rw [hrest]
          omega
      have hstart : (p + done).toNat = p.toNat + done.toNat := by
        rw [UInt32.toNat_add]
        omega
      have hnext : (done + chunk).toNat = done.toNat + chunk.toNat := by
        rw [UInt32.toNat_add]
        omega
      by_cases hin : p.toNat + done.toNat + chunk.toNat ≤ image.sectors
      · have hread : image.drive (p + done) chunk =
            some (image.read (p.toNat + done.toNat) chunk.toNat) := by
          rw [Image.drive, hstart, if_pos hin]
        simp only [hread]
        rw [← read_append, ← hnext]
        exact ih (by omega) (by omega) (.inr (by omega))
      · have hread : image.drive (p + done) chunk = none := by
          rw [Image.drive, hstart, if_neg hin]
        simp only [hread]
        refine ⟨done, rfl, hdone, hinside, fun hall => ?_, fun hall => ?_⟩
        · rw [hall] at hmore
          omega
        · omega
    · next hall =>
      rw [UInt32.lt_iff_toNat_lt] at hall
      have hall : done = n := UInt32.toNat_inj.1 (by omega)
      refine ⟨done, rfl, hdone, hinside, fun _ => ?_, fun _ => hall⟩
      rw [← hall]
      omega

theorem drive_serves (hsmall : image.sectors < 2 ^ 32) (hn : n ≠ 0) :
    ServesAll image p.toNat n.toNat ((ps3driveInputRead image.drive p n).ok = true)
      (ps3driveInputRead image.drive p n).sectorsRead.toNat
      (ps3driveInputRead image.drive p n).stored := by
  have hzero : image.read p.toNat (0 : UInt32).toNat = [] := by
    simp [Image.read, slice]
  obtain ⟨k, hloop, hcount, hinside, hall⟩ :=
    @driveLoop_serves image p n hsmall hn n.toNat 0 (Nat.zero_le _) (Nat.sub_le _ _) (.inl rfl)
  rw [hzero] at hloop
  have hread : ps3driveReadSectors image.drive p n = (k, image.read p.toNat k.toNat) := hloop
  rw [ps3driveInputRead, if_neg hn, hread]
  refine ⟨⟨hcount, hinside, ?_⟩, ?_, ?_⟩
  · rw [List.take_of_length_le]
    rcases hinside with hnone | hin
    · simp only [hnone, Image.read, slice, Nat.zero_mul, List.take_zero, List.length_nil]
      exact Nat.le_refl 0
    · exact (read_length hin).le
  · simp only [decide_eq_true_eq, ← UInt32.toNat_inj]
  · simp only [decide_eq_true_eq]
    exact hall

/-! ## The three inputs -/

/-- An image without sectors. -/
def noSectors : Image := ⟨0, [], rfl⟩

/-- The server has nothing to answer with. -/
def emptyAnswer : ReadCall where
  sectorPos := 0
  sectorCount := 1
  sends := [some 7]
  answer := [0x08, 0x03, 0x10, 0x00]
  delivered := 4

/-- The response to it. -/
def noData : ServerResponse Sent := ⟨discRead, 0, false, [], true, true⟩

theorem noSectors_answers : noSectors.Answers 0 1 noData :=
  ⟨rfl, rfl, by decide, fun h => absurd h (by decide)⟩

/-- An image of a single sector. -/
def oneSector : Image := ⟨1, List.replicate lsnSize 0, List.length_replicate⟩

theorem oneSector_format : fileDetectSectorFormat oneSector.content = .sector2048 := by
  have hnone : ∀ format, fileCheckSacdSignature oneSector.content format = false := by
    intro format
    rw [fileCheckSacdSignature, decide_eq_false_iff_not, slice, List.drop_eq_nil_of_le]
    · decide
    · rw [oneSector.length_eq]
      cases format <;> decide
  rw [fileDetectSectorFormat, hnone, hnone]
  rfl

end DsdNexus.Sacd
