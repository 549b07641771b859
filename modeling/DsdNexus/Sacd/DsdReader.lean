import DsdNexus.Lib.Stripes
import DsdNexus.Sacd.DstReader

/-! # The DSD frame reader

Plain DSD lies in fixed layouts, three frames in fourteen or in sixteen sectors. A table
says for each of the three frames which sectors it lies in and which bytes of each belong
to it.
-/

namespace DsdNexus.Sacd

open Stripes

/-! ## Layout tables -/

def dsdReaderOk : Int := 0

def dsdReaderIoError : Int := 2

/-- `fixed_read_def_t` -/
structure ReadDef where
  offset : Nat
  length : Nat
  deriving DecidableEq, Repr

/-- `fixed_read_state_t` -/
structure ReadState where
  sectorCount : Nat
  sectorMul : Nat
  sectorAddition : Nat
  state : List ReadDef
  deriving DecidableEq, Repr

/-- `rdstate_3_in_14` -/
def rdstate3In14 : List ReadState := [
  ⟨5, 14, 0, [⟨32, 2016⟩, ⟨32, 2016⟩, ⟨32, 2016⟩, ⟨32, 2016⟩, ⟨32, 1344⟩, ⟨0, 0⟩]⟩,
  ⟨6, 14, 4, [⟨32 + 1344, 672⟩, ⟨32, 2016⟩, ⟨32, 2016⟩, ⟨32, 2016⟩, ⟨32, 2016⟩, ⟨32, 672⟩]⟩,
  ⟨5, 14, 9, [⟨32 + 672, 1344⟩, ⟨32, 2016⟩, ⟨32, 2016⟩, ⟨32, 2016⟩, ⟨32, 2016⟩, ⟨0, 0⟩]⟩]

/-- `rdstate_3_in_16` -/
def rdstate3In16 : List ReadState := [
  ⟨6, 16, 0, [⟨284, 1764⟩, ⟨284, 1764⟩, ⟨284, 1764⟩, ⟨284, 1764⟩, ⟨284, 1764⟩, ⟨284, 588⟩]⟩,
  ⟨6, 16, 5,
    [⟨284 + 588, 1176⟩, ⟨284, 1764⟩, ⟨284, 1764⟩, ⟨284, 1764⟩, ⟨284, 1764⟩, ⟨284, 1176⟩]⟩,
  ⟨6, 16, 10,
    [⟨284 + 1176, 588⟩, ⟨284, 1764⟩, ⟨284, 1764⟩, ⟨284, 1764⟩, ⟨284, 1764⟩, ⟨284, 1764⟩]⟩]

/-- The two layouts. -/
inductive FixedFormat where
  | threeIn14
  | threeIn16
  deriving DecidableEq, Repr

def FixedFormat.table : FixedFormat → List ReadState
  | .threeIn14 => rdstate3In14
  | .threeIn16 => rdstate3In16

/-- The row of a frame. -/
def FixedFormat.row (fmt : FixedFormat) (frame : Nat) : ReadState :=
  fmt.table.getD (frame % 3) ⟨0, 0, 0, []⟩

/-! ## Locating and reading a frame -/

/-- Where the sectors of a frame start, in the arithmetic of `uint32_t`. -/
def FixedFormat.firstSector (fmt : FixedFormat) (r : FrameReader) (frame : UInt32) : UInt32 :=
  r.startSector + frame / 3 * UInt32.ofNat (fmt.row frame.toNat).sectorMul +
    UInt32.ofNat (fmt.row frame.toNat).sectorAddition

/-- `dsd_audio_fixed_get_sector` -/
def dsdAudioFixedGetSector (fmt : FixedFormat) (r : FrameReader) (frame : UInt32) :
    UInt32 × Nat :=
  (fmt.firstSector r frame, (fmt.row frame.toNat).sectorCount)

/-- The loop of `dsd_audio_fixed_read_frame` over the sectors from number `i` on: the sector
buffer, and what has been copied. Only the count of sectors read tells a failed read. -/
def readDefs (r : FrameReader) (first : UInt32) : Nat → List ReadDef → Bytes → Bytes → Int × Bytes
  | _, [], _, data => (dsdReaderOk, data)
  | i, d :: ds, sector, data =>
    let read := r.input.readSectors (first + UInt32.ofNat i) 1
    let sector := store sector read.stored
    if read.sectorsRead ≠ 1 then (dsdReaderIoError, data)
    else readDefs r first (i + 1) ds sector (data ++ slice sector (r.headerSize + d.offset) d.length)

/-- `dsd_audio_fixed_read_frame`, with the contents of the sector buffer as allocated. -/
def dsdAudioFixedReadFrame (fmt : FixedFormat) (r : FrameReader) (sector : Bytes)
    (frame : UInt32) : Int × Bytes :=
  let row := fmt.row frame.toNat
  readDefs r (fmt.firstSector r frame) 0 (row.state.take row.sectorCount) sector []

/-! ## The payload -/

/-- The bytes of a frame. -/
def dsdFrameSize : Nat := 9408

/-- Where the payload of a sector starts. -/
def FixedFormat.dataOffset : FixedFormat → Nat
  | .threeIn14 => 32
  | .threeIn16 => 284

def FixedFormat.payloadSize (fmt : FixedFormat) : Nat := lsnSize - fmt.dataOffset

/-- The input serves an area of `n` sectors whose contents are `disc`, as far as its sectors
can be read. -/
structure ServesArea (r : FrameReader) (disc : Nat → Bytes) (n : Nat) : Prop where
  fits : r.startSector.toNat + n ≤ 2 ^ 32
  sized : ∀ k < n, (disc k).length = r.sectorSize
  served : ∀ k < n, (r.input.readSectors (r.startSector + UInt32.ofNat k) 1).sectorsRead = 1 →
    (r.input.readSectors (r.startSector + UInt32.ofNat k) 1).stored = disc k

/-- Sector `k` of the area can be read. -/
def Readable (r : FrameReader) (k : Nat) : Prop :=
  (r.input.readSectors (r.startSector + UInt32.ofNat k) 1).sectorsRead = 1

def payload (fmt : FixedFormat) (r : FrameReader) (disc : Nat → Bytes) (k : Nat) : Bytes :=
  slice (disc k) (r.headerSize + fmt.dataOffset) fmt.payloadSize

/-- The payload of the area. -/
def payloadStream (fmt : FixedFormat) (r : FrameReader) (disc : Nat → Bytes) (n : Nat) : Bytes :=
  joined (payload fmt r disc) n

variable {fmt : FixedFormat} {r : FrameReader} {disc : Nat → Bytes} {n : Nat}

theorem payload_length (h : ServesArea r disc n) {k : Nat} (hk : k < n) :
    (payload fmt r disc k).length = fmt.payloadSize := by
  have hsize := r.size_ok
  apply slice_length_of_le
  rw [h.sized k hk, FixedFormat.payloadSize]
  cases fmt <;> simp only [FixedFormat.dataOffset, lsnSize] at hsize ⊢ <;> omega

/-! ## The rows of the tables -/

/-- The pieces of a frame, by the sectors of its three-frame block. -/
def FixedFormat.rowPieces (fmt : FixedFormat) (idx : Nat) : List Piece :=
  let row := fmt.row idx
  (row.state.take row.sectorCount).zipIdx.map fun d =>
    ⟨row.sectorAddition + d.2, d.1.offset - fmt.dataOffset, d.1.length⟩

/-- The pieces of a frame, by the sectors of the area. -/
def FixedFormat.pieces (fmt : FixedFormat) (frame : Nat) : List Piece :=
  (fmt.rowPieces (frame % 3)).map (Piece.shift ((fmt.row frame).sectorMul * (frame / 3)))

/-- What a row has to say for its frame to lie where it belongs in the block of three. -/
structure RowTiles (fmt : FixedFormat) (idx : Nat) : Prop where
  runs : Runs fmt.payloadSize (dsdFrameSize * idx) (fmt.rowPieces idx)
  total : ((fmt.rowPieces idx).map Piece.length).sum = dsdFrameSize
  offsets : ∀ d ∈ (fmt.row idx).state.take (fmt.row idx).sectorCount, fmt.dataOffset ≤ d.offset ∧
    d.offset + d.length ≤ lsnSize
  addition : (fmt.row idx).sectorAddition = dsdFrameSize * idx / fmt.payloadSize
  count : (fmt.row idx).sectorAddition + (fmt.row idx).sectorCount =
    (dsdFrameSize * idx + dsdFrameSize - 1) / fmt.payloadSize + 1
  enough : (fmt.row idx).sectorCount ≤ (fmt.row idx).state.length
  block : fmt.payloadSize * (fmt.row idx).sectorMul = dsdFrameSize * 3

theorem rowTiles (fmt : FixedFormat) {idx : Nat} (h : idx < 3) : RowTiles fmt idx := by
  have hrows : ∀ idx < 3,
      Runs fmt.payloadSize (dsdFrameSize * idx) (fmt.rowPieces idx) ∧
      ((fmt.rowPieces idx).map Piece.length).sum = dsdFrameSize ∧
      (∀ d ∈ (fmt.row idx).state.take (fmt.row idx).sectorCount, fmt.dataOffset ≤ d.offset ∧
        d.offset + d.length ≤ lsnSize) ∧
      (fmt.row idx).sectorAddition = dsdFrameSize * idx / fmt.payloadSize ∧
      (fmt.row idx).sectorAddition + (fmt.row idx).sectorCount =
        (dsdFrameSize * idx + dsdFrameSize - 1) / fmt.payloadSize + 1 ∧
      (fmt.row idx).sectorCount ≤ (fmt.row idx).state.length ∧
      fmt.payloadSize * (fmt.row idx).sectorMul = dsdFrameSize * 3 := by
    cases fmt <;> decide
  obtain ⟨hruns, htotal, hoffsets, haddition, hcount, henough, hblock⟩ := hrows idx h
  exact ⟨hruns, htotal, hoffsets, haddition, hcount, henough, hblock⟩

theorem FixedFormat.row_mod (fmt : FixedFormat) (frame : Nat) :
    fmt.row (frame % 3) = fmt.row frame := by
  rw [FixedFormat.row, FixedFormat.row, Nat.mod_mod]

/-! ## Every frame -/

/-- The sector of the area its frame starts in. -/
def FixedFormat.firstOf (fmt : FixedFormat) (frame : Nat) : Nat :=
  (fmt.row frame).sectorMul * (frame / 3) + (fmt.row frame).sectorAddition

theorem frame_place (fmt : FixedFormat) (frame : Nat) :
    dsdFrameSize * frame = fmt.payloadSize * ((fmt.row frame).sectorMul * (frame / 3)) +
      dsdFrameSize * (frame % 3) := by
  have hblock := (rowTiles fmt (Nat.mod_lt frame (by decide : 0 < 3))).block
  rw [fmt.row_mod] at hblock
  rw [← Nat.mul_assoc, hblock, Nat.mul_assoc, ← Nat.mul_add, Nat.div_add_mod]

theorem payloadSize_pos (fmt : FixedFormat) : 0 < fmt.payloadSize := by cases fmt <;> decide

/-- The first sector is the one the frame's first byte lies in. -/
theorem firstOf_eq (fmt : FixedFormat) (frame : Nat) :
    fmt.firstOf frame = dsdFrameSize * frame / fmt.payloadSize := by
  have hrow := (rowTiles fmt (Nat.mod_lt frame (by decide : 0 < 3))).addition
  rw [fmt.row_mod] at hrow
  rw [FixedFormat.firstOf, hrow, frame_place fmt frame,
    Nat.mul_add_div (payloadSize_pos fmt)]

/-- The last one is the one its last byte lies in. -/
theorem lastOf_eq (fmt : FixedFormat) (frame : Nat) :
    fmt.firstOf frame + (fmt.row frame).sectorCount =
      (dsdFrameSize * frame + dsdFrameSize - 1) / fmt.payloadSize + 1 := by
  have hrow := (rowTiles fmt (Nat.mod_lt frame (by decide : 0 < 3))).count
  rw [fmt.row_mod] at hrow
  have hlast : dsdFrameSize * frame + dsdFrameSize - 1 =
      fmt.payloadSize * ((fmt.row frame).sectorMul * (frame / 3)) +
        (dsdFrameSize * (frame % 3) + dsdFrameSize - 1) := by
    rw [frame_place fmt frame]
    simp only [dsdFrameSize]
    omega
  rw [FixedFormat.firstOf, Nat.add_assoc, hrow, hlast, Nat.mul_add_div (payloadSize_pos fmt)]
  omega

theorem lastOf_le (fmt : FixedFormat) {frame n : Nat}
    (h : dsdFrameSize * (frame + 1) ≤ fmt.payloadSize * n) :
    fmt.firstOf frame + (fmt.row frame).sectorCount ≤ n := by
  rw [lastOf_eq, Nat.add_one_le_iff, Nat.div_lt_iff_lt_mul (payloadSize_pos fmt),
    Nat.mul_comm n]
  simp only [dsdFrameSize] at h ⊢
  omega

theorem firstSector_add (frame : UInt32) (i : Nat) :
    fmt.firstSector r frame + UInt32.ofNat i =
      r.startSector + UInt32.ofNat (fmt.firstOf frame.toNat + i) := by
  have hdiv : frame / 3 = UInt32.ofNat (frame.toNat / 3) := by
    apply UInt32.toNat_inj.1
    have hthree : (3 : UInt32).toNat = 3 := rfl
    have hlt := frame.toNat_lt
    rw [UInt32.toNat_div, UInt32.toNat_ofNat', hthree]
    omega
  rw [FixedFormat.firstSector, FixedFormat.firstOf, hdiv, UInt32.ofNat_add, UInt32.ofNat_add,
    UInt32.ofNat_mul, UInt32.mul_comm]
  simp only [UInt32.add_assoc]

theorem slice_slice {α : Type} {xs : List α} {p w q v : Nat} (h : q + v ≤ w) :
    slice (slice xs p w) q v = slice xs (p + q) v := by
  rw [slice, slice, slice, List.drop_take, List.take_take, List.drop_drop,
    Nat.min_eq_left (by omega)]

/-- What the loop copies of a sector is the piece of its payload. -/
theorem copied_eq_cut (h : ServesArea r disc n) {k : Nat} (hk : k < n) {d : ReadDef}
    (hd : fmt.dataOffset ≤ d.offset ∧ d.offset + d.length ≤ lsnSize) (sector : Bytes) :
    slice (store sector (disc k)) (r.headerSize + d.offset) d.length =
      Piece.cut (payload fmt r disc) ⟨k, d.offset - fmt.dataOffset, d.length⟩ := by
  have hsize := r.size_ok
  have hsized := h.sized k hk
  rw [store, slice_append_left (by omega), Piece.cut, payload]
  dsimp only
  rw [slice_slice]
  · congr 1
    omega
  · rw [FixedFormat.payloadSize]
    omega

theorem readDefs_spec (h : ServesArea r disc n) {first : UInt32} {k₀ : Nat}
    (hfirst : ∀ i, first + UInt32.ofNat i = r.startSector + UInt32.ofNat (k₀ + i))
    {ds : List ReadDef}
    (hds : ∀ d ∈ ds, fmt.dataOffset ≤ d.offset ∧ d.offset + d.length ≤ lsnSize) {i : Nat}
    (hn : k₀ + i + ds.length ≤ n) (sector data : Bytes) :
    ((∀ j < ds.length, Readable r (k₀ + i + j)) →
      readDefs r first i ds sector data = (dsdReaderOk, data ++ (ds.zipIdx i).flatMap fun d =>
        Piece.cut (payload fmt r disc) ⟨k₀ + d.2, d.1.offset - fmt.dataOffset, d.1.length⟩)) ∧
    ((∃ j < ds.length, ¬ Readable r (k₀ + i + j)) →
      (readDefs r first i ds sector data).1 = dsdReaderIoError) := by
  induction ds generalizing i sector data with
  | nil =>
    exact ⟨fun _ => by simp [readDefs], fun ⟨j, hj, _⟩ => absurd hj (Nat.not_lt_zero j)⟩
  | cons d ds ih =>
    rw [List.length_cons] at hn
    by_cases hread : Readable r (k₀ + i)
    · have hone : (r.input.readSectors (first + UInt32.ofNat i) 1).sectorsRead = 1 := by
        rw [hfirst]
        exact hread
      have hstored : (r.input.readSectors (first + UInt32.ofNat i) 1).stored = disc (k₀ + i) := by
        rw [hfirst]
        exact h.served _ (by omega) hread
      have hnext := ih (fun x hx => hds x (List.mem_cons_of_mem d hx)) (i := i + 1) (by omega)
        (store sector (disc (k₀ + i)))
        (data ++ Piece.cut (payload fmt r disc) ⟨k₀ + i, d.offset - fmt.dataOffset, d.length⟩)
      have hstep : readDefs r first i (d :: ds) sector data =
          readDefs r first (i + 1) ds (store sector (disc (k₀ + i)))
            (data ++ Piece.cut (payload fmt r disc)
              ⟨k₀ + i, d.offset - fmt.dataOffset, d.length⟩) := by
        rw [readDefs]
        simp only [hone, hstored, ne_eq, not_true, if_false]
        rw [copied_eq_cut h (by omega) (hds d List.mem_cons_self)]
      rw [hstep]
      constructor
      · intro hall
        rw [hnext.1 fun j hj => by
            have hj' := hall (j + 1) (by rw [List.length_cons]; omega)
            rwa [show k₀ + i + (j + 1) = k₀ + (i + 1) + j from by omega] at hj',
          List.zipIdx_cons, List.flatMap_cons, List.append_assoc]
      · rintro ⟨j, hj, hfail⟩
        cases j with
        | zero => exact absurd hread hfail
        | succ j =>
          refine hnext.2 ⟨j, by rw [List.length_cons] at hj; omega, ?_⟩
          rwa [show k₀ + i + (j + 1) = k₀ + (i + 1) + j from by omega] at hfail
    · refine ⟨fun hall => absurd (hall 0 (Nat.succ_pos _)) hread, fun _ => ?_⟩
      have hnot : (r.input.readSectors (first + UInt32.ofNat i) 1).sectorsRead ≠ 1 := by
        rw [hfirst]
        exact hread
      rw [readDefs]
      simp only [hnot, ne_eq, not_false_eq_true, if_true]

/-- The frame's own range of the payload. -/
theorem pieces_cut (h : ServesArea r disc n) {frame : Nat}
    (hframe : dsdFrameSize * (frame + 1) ≤ fmt.payloadSize * n) :
    (fmt.pieces frame).flatMap (Piece.cut (payload fmt r disc)) =
      slice (payloadStream fmt r disc n) (dsdFrameSize * frame) dsdFrameSize := by
  have hrow := rowTiles fmt (Nat.mod_lt frame (by decide : 0 < 3))
  have hruns := hrow.runs.shift ((fmt.row frame).sectorMul * (frame / 3))
  rw [← frame_place] at hruns
  have htotal : ((fmt.pieces frame).map Piece.length).sum = dsdFrameSize := by
    rw [FixedFormat.pieces, List.map_map]
    exact hrow.total
  have hblocks : ∀ x ∈ fmt.pieces frame, x.block < n := by
    intro x hx
    have hlast := lastOf_le fmt hframe
    simp only [FixedFormat.pieces, FixedFormat.rowPieces, fmt.row_mod, List.map_map,
      List.mem_map, Function.comp_apply] at hx
    obtain ⟨d, hd, rfl⟩ := hx
    have hidx := List.snd_lt_of_mem_zipIdx hd
    rw [List.length_take] at hidx
    simp only [Piece.shift, FixedFormat.firstOf] at hlast ⊢
    omega
  rw [FixedFormat.pieces] at hblocks htotal ⊢
  rw [flatMap_cut (fun k hk => payload_length h hk) hruns hblocks, htotal, payloadStream]

/-- The sectors from number `k` up to number `l` can be read. -/
def ReadableFrom (r : FrameReader) (k l : Nat) : Prop := ∀ j, k ≤ j → j ≤ l → Readable r j

theorem readFrame_spec (h : ServesArea r disc n) (sector : Bytes) {frame : UInt32}
    (hframe : dsdFrameSize * (frame.toNat + 1) ≤ fmt.payloadSize * n) :
    (ReadableFrom r (dsdFrameSize * frame.toNat / fmt.payloadSize)
        ((dsdFrameSize * frame.toNat + dsdFrameSize - 1) / fmt.payloadSize) →
      dsdAudioFixedReadFrame fmt r sector frame = (dsdReaderOk,
        slice (payloadStream fmt r disc n) (dsdFrameSize * frame.toNat) dsdFrameSize)) ∧
    (¬ ReadableFrom r (dsdFrameSize * frame.toNat / fmt.payloadSize)
        ((dsdFrameSize * frame.toNat + dsdFrameSize - 1) / fmt.payloadSize) →
      (dsdAudioFixedReadFrame fmt r sector frame).1 = dsdReaderIoError) := by
  have hrow := rowTiles fmt (Nat.mod_lt frame.toNat (by decide : 0 < 3))
  have henough := hrow.enough
  have hoffsets := hrow.offsets
  rw [fmt.row_mod] at henough hoffsets
  have hfirst := firstOf_eq fmt frame.toNat
  have hlast := lastOf_eq fmt frame.toNat
  have hle := lastOf_le fmt hframe
  have hlength : ((fmt.row frame.toNat).state.take (fmt.row frame.toNat).sectorCount).length =
      (fmt.row frame.toNat).sectorCount := by
    rw [List.length_take]
    omega
  have hloop := readDefs_spec h (@firstSector_add fmt r frame) hoffsets (i := 0)
    (by omega) sector []
  have hcut := pieces_cut h hframe
  rw [FixedFormat.pieces, FixedFormat.rowPieces, fmt.row_mod, List.map_map, List.flatMap_map]
    at hcut
  constructor
  · intro hread
    rw [dsdAudioFixedReadFrame, hloop.1 fun j hj => hread _ (by omega) (by omega), ← hcut,
      List.nil_append]
    simp only [Function.comp_apply, Piece.shift, FixedFormat.firstOf, Nat.add_assoc]
  · intro hnot
    refine hloop.2 ?_
    by_contra hall
    push Not at hall
    refine hnot fun k hk hkl => ?_
    have hj := hall (k - fmt.firstOf frame.toNat) (by omega)
    rwa [Nat.add_zero, show fmt.firstOf frame.toNat + (k - fmt.firstOf frame.toNat) = k from by
      omega] at hj

theorem frames_eq_take (h : ServesArea r disc n) (sector : Bytes) (hread : ∀ k < n, Readable r k)
    {count : Nat} (hcount : count ≤ 2 ^ 32) (hframes : dsdFrameSize * count ≤ fmt.payloadSize * n) :
    (List.range count).flatMap (fun f =>
        (dsdAudioFixedReadFrame fmt r sector (UInt32.ofNat f)).2) =
      (payloadStream fmt r disc n).take (dsdFrameSize * count) := by
  induction count with
  | zero => simp
  | succ count ih =>
    have hnat : (UInt32.ofNat count).toNat = count := by
      rw [UInt32.toNat_ofNat', Nat.mod_eq_of_lt (by omega)]
    have hframe : dsdFrameSize * ((UInt32.ofNat count).toNat + 1) ≤ fmt.payloadSize * n := by
      rwa [hnat]
    have hone := (readFrame_spec h sector hframe).1 fun j _ hj => hread j (by
      have hle := lastOf_le fmt hframe
      rw [lastOf_eq] at hle
      omega)
    rw [List.range_succ, List.flatMap_append, ih (by omega) (by
        rw [Nat.mul_succ] at hframes
        omega), List.flatMap_singleton, hone, hnat, Nat.mul_succ, List.take_add]
    rfl

/-- Each frame is its own range of the payload, it is located where that range lies, and all
frames together are the payload from its start. -/
theorem dsd_frames_tile_payload (fmt : FixedFormat) {r : FrameReader} {disc : Nat → Bytes}
    {n : Nat} (h : ServesArea r disc n) (sector : Bytes) :
    (∀ frame : UInt32, dsdFrameSize * (frame.toNat + 1) ≤ fmt.payloadSize * n →
      dsdAudioFixedGetSector fmt r frame =
        (r.startSector + UInt32.ofNat (dsdFrameSize * frame.toNat / fmt.payloadSize),
          (dsdFrameSize * frame.toNat + dsdFrameSize - 1) / fmt.payloadSize + 1 -
            dsdFrameSize * frame.toNat / fmt.payloadSize) ∧
      (ReadableFrom r (dsdFrameSize * frame.toNat / fmt.payloadSize)
          ((dsdFrameSize * frame.toNat + dsdFrameSize - 1) / fmt.payloadSize) →
        dsdAudioFixedReadFrame fmt r sector frame = (dsdReaderOk,
          slice (payloadStream fmt r disc n) (dsdFrameSize * frame.toNat) dsdFrameSize)) ∧
      (¬ ReadableFrom r (dsdFrameSize * frame.toNat / fmt.payloadSize)
          ((dsdFrameSize * frame.toNat + dsdFrameSize - 1) / fmt.payloadSize) →
        (dsdAudioFixedReadFrame fmt r sector frame).1 = dsdReaderIoError)) ∧
    ((∀ k < n, Readable r k) → ∀ count ≤ 2 ^ 32, dsdFrameSize * count ≤ fmt.payloadSize * n →
      (List.range count).flatMap (fun f =>
          (dsdAudioFixedReadFrame fmt r sector (UInt32.ofNat f)).2) =
        (payloadStream fmt r disc n).take (dsdFrameSize * count)) := by
  refine ⟨fun frame hframe => ⟨?_, readFrame_spec h sector hframe⟩,
    fun hread count hcount hframes => frames_eq_take h sector hread hcount hframes⟩
  have hfirst := @firstSector_add fmt r frame 0
  have hlast := lastOf_eq fmt frame.toNat
  rw [show (UInt32.ofNat 0) = 0 from rfl, UInt32.add_zero, Nat.add_zero, firstOf_eq] at hfirst
  rw [firstOf_eq] at hlast
  rw [dsdAudioFixedGetSector, hfirst, ← hlast, Nat.add_sub_cancel_left]

/-! ## An area of fourteen sectors -/

/-- Every sector reads as zeros. -/
def readZeros (_ count : UInt32) : SectorsRead :=
  ⟨true, List.replicate (count.toNat * lsnSize) 0, count⟩

theorem readZeros_stored (lsn count : UInt32) (_ : (readZeros lsn count).ok = true) :
    (readZeros lsn count).sectorsRead.toNat * lsnSize ≤ (readZeros lsn count).stored.length :=
  List.length_replicate.ge

theorem length_of_none (f : Bytes → Option Bytes) (h : none = some f) (b c : Bytes)
    (_ : f b = some c) : c.length = b.length := by cases h

def zeroInput : Input lsnSize where
  readSectors := readZeros
  decrypt := none
  stored_sectors := readZeros_stored
  decrypt_length := length_of_none

def zeroReader : FrameReader where
  sectorSize := lsnSize
  headerSize := 0
  size_ok := Nat.le_refl _
  input := zeroInput
  startSector := 544
  endSector := 557
  accessList := ⟨0, 0, none, none⟩
  totalAreaPlayTime := 3

theorem zeroReader_servesArea :
    ServesArea zeroReader (fun _ => List.replicate lsnSize 0) 14 where
  fits := by decide
  sized _ _ := List.length_replicate
  served _ _ _ := by simp [zeroReader, zeroInput, readZeros]

theorem dsd_frames_tile_payload_zeros :
    dsdAudioFixedGetSector .threeIn14 zeroReader 1 = (548, 6) ∧
      dsdAudioFixedReadFrame .threeIn14 zeroReader [] 1 = (dsdReaderOk,
        slice (payloadStream .threeIn14 zeroReader (fun _ => List.replicate lsnSize 0) 14)
          9408 9408) := by
  have htile := (dsd_frames_tile_payload .threeIn14 zeroReader_servesArea []).1 1 (by decide)
  exact ⟨htile.1.trans (by decide), htile.2.1 fun _ _ _ => rfl⟩

end DsdNexus.Sacd
