import DsdNexus.Util.GetBits
import DsdNexus.Util.Reverse
import Mathlib

/-! # The DST decoder

`dst_decoder_decode`: the head of a frame with its mapping, the filter and probability
tables, and the arithmetic decoder. The tables stay in the decoder from frame to frame,
and the results of reading them are not looked at.
-/

namespace DsdNexus.Dst

open Util

/-- `DST_MAX_CHANNELS`. -/
def dstMaxChannels : Nat := 6

/-- `DST_MAX_ELEMENTS`. -/
def dstMaxElements : Nat := 2 * dstMaxChannels

/-- `DST_SAMPLES_PER_FRAME`. -/
def dstSamplesPerFrame (sampleRate : Nat) : Nat := 588 * (sampleRate / 44100)

/-- `AVERROR_INVALIDDATA`. -/
def averrorInvalidData : Int := -0x41444E49

/-- `AVERROR_PATCHWELCOME`. -/
def averrorPatchWelcome : Int := -0x45574150

/-- `dst_table_t`. -/
structure DstTable where
  elements : Nat
  length : Nat → Nat
  coeff : Nat → Nat → Int

/-- `dst_arith_coder_t`. -/
structure ArithCoder where
  a : UInt32
  c : UInt32

/-- The 16 status bytes of a channel, as the two words they are shifted in. -/
structure Status where
  lo : UInt64
  hi : UInt64

/-- `dst_decoder_s`. -/
structure DstDecoder where
  channels : Nat
  sampleRate : Nat
  status : Nat → Status
  filter : Nat → Nat → Nat → Int
  gb : GetBitContext
  ac : ArithCoder
  fsets : DstTable
  probs : DstTable

def DstTable.blank : DstTable := ⟨0, fun _ => 0, fun _ _ => 0⟩

/-- `dst_decoder_init`: a decoder of zeros. -/
def dstDecoderInit (channelCount sampleRate : Nat) : Option DstDecoder :=
  if dstMaxChannels < channelCount then none
  else some
    { channels := channelCount
      sampleRate := sampleRate
      status := fun _ => ⟨0, 0⟩
      filter := fun _ _ _ => 0
      gb := ⟨fun _ => 0, 0, 0⟩
      ac := ⟨0, 0⟩
      fsets := .blank
      probs := .blank }

/-- `dst_data` and what follows it in memory, and `frame_size`. -/
structure DstFrame where
  data : Nat → UInt8
  size : Int

/-! ## The head of a frame -/

/-- What `read_map` leaves: the element of each channel, and their number. -/
structure MapResult where
  ok : Bool
  gb : GetBitContext
  elements : Nat
  map : Nat → Nat

/-- The loop of `read_map`, with `n` channels to go. -/
def readMapLoop (gb : GetBitContext) (elements : Nat) (map : Nat → Nat) :
    (n ch : Nat) → MapResult
  | 0, _ => ⟨true, gb, elements, map⟩
  | n + 1, ch =>
    let v := gb.getBits (saLog2 elements + 1)
    let map := Function.update map ch v.1
    if v.1 = elements then
      if dstMaxElements ≤ elements + 1 then ⟨false, v.2, elements + 1, map⟩
      else readMapLoop v.2 (elements + 1) map n (ch + 1)
    else if elements < v.1 then ⟨false, v.2, elements, map⟩
    else readMapLoop v.2 elements map n (ch + 1)

/-- `read_map`. -/
def readMap (gb : GetBitContext) (channels : Nat) : MapResult :=
  let same := gb.getBits1
  if same.1 = 0 then readMapLoop same.2 1 (fun _ => 0) (channels - 1) 1
  else ⟨true, same.2, 1, fun _ => 0⟩

/-- How far a frame is read before its tables. -/
inductive FrameHead where
  | invalid
  | unsupported
  /-- The samples follow as they are. -/
  | plain
  /-- A map is invalid; the other may not have been read. -/
  | invalidMap (felem : MapResult) (pelem : Option MapResult)
  | mapped (felem pelem : MapResult)

/-- Segmentation and mapping. -/
def readSegments (gb : GetBitContext) (channels : Nat) : FrameHead :=
  let sameSegmentation := gb.getBits1
  let sameForAll := sameSegmentation.2.getBits1
  let endOfChannel := sameForAll.2.getBits1
  let sameMap := endOfChannel.2.getBits1
  if sameSegmentation.1 = 0 ∨ sameForAll.1 = 0 ∨ endOfChannel.1 = 0 then .unsupported
  else
    let felem := readMap sameMap.2 channels
    if felem.ok = false then .invalidMap felem none
    else if sameMap.1 = 1 then .mapped felem felem
    else
      let pelem := readMap felem.gb channels
      if pelem.ok = false then .invalidMap felem (some pelem) else .mapped felem pelem

/-- `dst_decoder_decode` up to the tables. -/
def readHead (channels : Nat) (frame : DstFrame) : FrameHead :=
  if frame.size ≤ 1 then .invalid
  else match GetBitContext.init8 frame.data frame.size with
    | none => .invalid
    | some gb =>
      let compressed := gb.getBits1
      if compressed.1 = 0 then
        if ((compressed.2.skip 1).getBits 6).1 = 0 then .plain else .invalid
      else readSegments compressed.2 channels

/-- The bit of each channel. -/
def readHalfProb (gb : GetBitContext) : (n : Nat) → GetBitContext × (Nat → Nat)
  | 0 => (gb, fun _ => 0)
  | n + 1 =>
    let before := readHalfProb gb n
    let bit := before.1.getBits1
    (bit.2, Function.update before.2 n bit.1)

/-! ## The tables -/

/-- What distinguishes the two kinds of tables. -/
structure TableKind where
  /-- `code_pred_coeff`. -/
  pred : Nat → Nat → Int
  lengthBits : Nat
  coeffBits : Nat
  isSigned : Bool
  offset : Int

def fsetsKind : TableKind where
  pred := fun method k => (([[-8], [-16, 8], [-9, -5, 6]] : List (List Int)).getD method []).getD k 0
  lengthBits := 7
  coeffBits := 9
  isSigned := true
  offset := 0

def probsKind : TableKind where
  pred := fun method k =>
    (([[-8], [-16, 8], [-24, 24, -8]] : List (List Int)).getD method []).getD k 0
  lengthBits := 6
  coeffBits := 7
  isSigned := false
  offset := 1

/-- `get_ur_golomb`; a shift counts modulo 32. -/
def getUrGolomb (gb : GetBitContext) (k : Nat) (limit : Int) (escLen : Nat) :
    Int × GetBitContext :=
  let buf := gb.cache
  let log := saLog2 buf
  if 31 - limit < log then
    let high := buf / 2 ^ (((log : Int) - k) % 32).toNat
    (toInt32 (high + (30 - log) * 2 ^ k), gb.skip (32 + k - log))
  else
    let gb := gb.skip limit
    (toInt32 (GetBitContext.showUbits gb.cache escLen + limit - 1), gb.skip escLen)

/-- `get_sr_golomb_dst`. -/
def getSrGolombDst (gb : GetBitContext) (k : Nat) : Int × GetBitContext :=
  let v := getUrGolomb gb k gb.bitsLeft 0
  if v.1 = 0 then v
  else
    let sign := v.2.getBits1
    (if sign.1 = 1 then -v.1 else v.1, sign.2)

/-- `read_uncoded_coeff`. -/
def readUncodedCoeff (kind : TableKind) (gb : GetBitContext) (dst : Nat → Int) :
    (elements : Nat) → GetBitContext × (Nat → Int)
  | 0 => (gb, dst)
  | n + 1 =>
    let before := readUncodedCoeff kind gb dst n
    let v : Int × GetBitContext :=
      if kind.isSigned then before.1.getSbits kind.coeffBits
      else ((before.1.getBits kind.coeffBits).1, (before.1.getBits kind.coeffBits).2)
    (v.2, Function.update before.2 n (v.1 + kind.offset))

/-- A row of a table after reading; `ok` is false where `read_table` returns an error. -/
structure RowResult where
  ok : Bool
  gb : GetBitContext
  row : Nat → Int

/-- The coefficient at `j` predicted from those before. -/
def predictCoeff (kind : TableKind) (method : Nat) (row : Nat → Int) (j : Nat) : Int :=
  toInt32 ((List.range (method + 1)).map fun k => kind.pred method k * row (j - k - 1)).sum

/-- A coefficient from its prediction and the coded difference. -/
def correctCoeff (x c : Int) : Int :=
  toInt32 (if 0 ≤ x then c - (x + 4).tdiv 8 else c + (-x + 3).tdiv 8)

/-- The loop over the coded coefficients, with `n` to go from `j` on. -/
def readCodedCoeff (kind : TableKind) (method lsbSize : Nat) :
    (n j : Nat) → GetBitContext → (Nat → Int) → RowResult
  | 0, _, gb, row => ⟨true, gb, row⟩
  | n + 1, j, gb, row =>
    let x := predictCoeff kind method row j
    let v := getSrGolombDst gb lsbSize
    let c := correctCoeff x v.1
    if kind.isSigned = false ∧ (c < kind.offset ∨ kind.offset + 2 ^ kind.coeffBits ≤ c) then
      ⟨false, v.2, row⟩
    else readCodedCoeff kind method lsbSize n (j + 1) v.2 (Function.update row j c)

/-- The coefficients of one element. -/
def readRow (kind : TableKind) (gb : GetBitContext) (row : Nat → Int) (length : Nat) : RowResult :=
  let coded := gb.getBits1
  if coded.1 = 0 then
    let uncoded := readUncodedCoeff kind coded.2 row length
    ⟨true, uncoded.1, uncoded.2⟩
  else
    let method := coded.2.getBits 2
    if method.1 = 3 then ⟨false, method.2, row⟩
    else
      let first := readUncodedCoeff kind method.2 row (method.1 + 1)
      let lsbSize := first.1.getBits 3
      readCodedCoeff kind method.1 lsbSize.1 (length - (method.1 + 1)) (method.1 + 1) lsbSize.2
        first.2

/-- A table after reading. -/
structure TableResult where
  ok : Bool
  gb : GetBitContext
  table : DstTable

/-- The loop of `read_table`, with `n` elements to go from `i` on. -/
def readTableLoop (kind : TableKind) : (n i : Nat) → GetBitContext → DstTable → TableResult
  | 0, _, gb, t => ⟨true, gb, t⟩
  | n + 1, i, gb, t =>
    let length := gb.getBits kind.lengthBits
    let r := readRow kind length.2 (t.coeff i) (length.1 + 1)
    let t :=
      { t with
        length := Function.update t.length i (length.1 + 1)
        coeff := Function.update t.coeff i r.row }
    if r.ok then readTableLoop kind n (i + 1) r.gb t else ⟨false, r.gb, t⟩

/-- `read_table`. -/
def readTable (kind : TableKind) (gb : GetBitContext) (t : DstTable) : TableResult :=
  readTableLoop kind t.elements 0 gb t

/-- The entries of the filter in the order `build_filter` writes them. -/
def filterEntries (elements : Nat) : List (Nat × Nat × Nat) :=
  (List.range elements).flatMap fun i =>
    (List.range 16).flatMap fun j => (List.range 256).map fun k => (i, j, k)

/-- The sum behind one entry of the filter. -/
def filterValue (fsets : DstTable) (i j k : Nat) : Int :=
  ((List.range (min (fsets.length i - j * 8) 8)).map fun l =>
    ((k / 2 ^ l % 2 : Nat) * 2 - 1) * fsets.coeff i (j * 8 + l)).sum

/-- `build_filter`, over the entries to go. -/
def buildFilter (fsets : DstTable) :
    List (Nat × Nat × Nat) → (Nat → Nat → Nat → Int) → Bool × (Nat → Nat → Nat → Int)
  | [], table => (true, table)
  | (i, j, k) :: entries, table =>
    let v := filterValue fsets i j k
    if toInt16 v ≠ v then (false, table)
    else buildFilter fsets entries fun i' j' k' =>
      if i' = i ∧ j' = j ∧ k' = k then v else table i' j' k'

/-! ## The samples -/

/-- `ac_init`. -/
def acInit (gb : GetBitContext) : ArithCoder × GetBitContext :=
  (⟨4095, (gb.getBits 12).1.toUInt32⟩, (gb.getBits 12).2)

/-- `ac_get`. -/
def acGet (ac : ArithCoder) (gb : GetBitContext) (p : Int) : Nat × ArithCoder × GetBitContext :=
  let k := (ac.a >>> 8) ||| ((ac.a >>> 7) &&& 1)
  let q := k * UInt32.ofInt p
  let aq := ac.a - q
  let e := if ac.c < aq then 1 else 0
  let ac : ArithCoder := if ac.c < aq then ⟨aq, ac.c⟩ else ⟨q, ac.c - aq⟩
  if ac.a < 2048 then
    let n := 11 - saLog2 ac.a.toNat
    let left := gb.bitsLeft
    let c := ac.c <<< n.toUInt32
    let a := ac.a <<< n.toUInt32
    if n ≤ left then
      (e, ⟨a, c ||| (gb.getBits n).1.toUInt32⟩, (gb.getBits n).2)
    else if 0 < left then
      (e, ⟨a, c ||| ((gb.getBits left.toNat).1.toUInt32 <<< (n - left.toNat).toUInt32)⟩,
        (gb.getBits left.toNat).2)
    else (e, ⟨a, c⟩, gb)
  else (e, ac, gb)

/-- `prob_dst_x_bit`. -/
def probDstXBit (c : Int) : Int := (ffReverse (c % 128).toNat.toUInt8).toNat / 2 + 1

/-- A status byte. -/
def Status.byte (s : Status) (x : Nat) : Nat :=
  if x < 8 then s.lo.toNat / 2 ^ (8 * x) % 256 else s.hi.toNat / 2 ^ (8 * (x - 8)) % 256

def Status.push (s : Status) (v : Nat) : Status where
  hi := (s.hi <<< 1) ||| (s.lo >>> 63)
  lo := (s.lo <<< 1) ||| v.toUInt64

/-- `predict`. -/
def predict (filter : Nat → Nat → Int) (s : Status) : Int :=
  toInt16 ((List.range 16).map fun x => filter x (s.byte x)).sum

/-- What the samples are decoded with. -/
structure Tables where
  fsets : DstTable
  probs : DstTable
  filter : Nat → Nat → Nat → Int
  mapFelem : Nat → Nat
  mapPelem : Nat → Nat
  halfProb : Nat → Nat

/-- What changes from sample to sample. -/
structure SampleState where
  gb : GetBitContext
  ac : ArithCoder
  status : Nat → Status
  out : List UInt8

/-- The probability of the next residual of a channel. -/
def probOf (t : Tables) (ch i : Nat) (p : Int) : Int :=
  let felem := t.mapFelem ch
  if t.halfProb ch = 0 ∨ t.fsets.length felem ≤ i then
    let pelem := t.mapPelem ch
    let index := p.natAbs / 8
    t.probs.coeff pelem
      (if t.probs.length pelem = 0 then index else min index (t.probs.length pelem - 1))
  else 128

/-- The body of the two loops: sample `i` of channel `ch`. -/
def decodeSample (t : Tables) (channels i : Nat) (s : SampleState) (ch : Nat) : SampleState :=
  let p := predict (t.filter (t.mapFelem ch)) (s.status ch)
  let r := acGet s.ac s.gb (probOf t ch i p)
  let v := if p < 0 then 1 - r.1 else r.1
  { gb := r.2.2
    ac := r.2.1
    status := Function.update s.status ch ((s.status ch).push v)
    out := s.out.modify (i / 8 * channels + ch) (· ||| (v.toUInt8 <<< (7 - i % 8).toUInt8)) }

def decodeSamples (t : Tables) (channels samples : Nat) (s : SampleState) : SampleState :=
  (List.range samples).foldl
    (fun s i => (List.range channels).foldl (decodeSample t channels i) s) s

/-! ## A frame -/

/-- What the caller of `dst_decoder_decode` sees; without a length `*dsd_output_len` is
left alone. -/
structure DecodeResult where
  ret : Int
  len : Option Nat
  out : List UInt8
  deriving DecidableEq

/-- The half probabilities and the tables of a frame. -/
structure FrameTables where
  halfProb : Nat → Nat
  fsets : TableResult
  probs : TableResult

def readTables (d : DstDecoder) (felem pelem : MapResult) : FrameTables :=
  let half := readHalfProb pelem.gb d.channels
  let fsets := readTable fsetsKind half.1 { d.fsets with elements := felem.elements }
  { halfProb := half.2
    fsets := fsets
    probs := readTable probsKind fsets.gb { d.probs with elements := pelem.elements } }

/-- `dst_decoder_decode` from `ac_init` on. -/
def decodeCoded (d : DstDecoder) (mapFelem mapPelem halfProb : Nat → Nat) (out : List UInt8) :
    DecodeResult × DstDecoder :=
  let samples := dstSamplesPerFrame d.sampleRate
  let filter := (buildFilter d.fsets (filterEntries d.fsets.elements) d.filter).2
  let ac := acInit d.gb
  let xbit := acGet ac.1 ac.2 (probDstXBit (d.fsets.coeff 0 0))
  let s := decodeSamples ⟨d.fsets, d.probs, filter, mapFelem, mapPelem, halfProb⟩ d.channels samples
    { gb := xbit.2.2
      ac := xbit.2.1
      status := fun _ => ⟨0xAAAAAAAAAAAAAAAA, 0xAAAAAAAAAAAAAAAA⟩
      out := List.replicate (samples / 8 * d.channels) 0 ++ out.drop (samples / 8 * d.channels) }
  (⟨0, some (samples / 8 * d.channels), s.out⟩,
    { d with filter := filter, gb := s.gb, ac := s.ac, status := s.status })

/-- `dst_decoder_decode` from the half probabilities on. -/
def decodeMapped (d : DstDecoder) (felem pelem : MapResult) (out : List UInt8) :
    DecodeResult × DstDecoder :=
  let t := readTables d felem pelem
  let reserved := t.probs.gb.getBits1
  let d := { d with fsets := t.fsets.table, probs := t.probs.table, gb := reserved.2 }
  if reserved.1 = 1 then (⟨averrorInvalidData, none, out⟩, d)
  else decodeCoded d felem.map pelem.map t.halfProb out

/-- `dst_decoder_decode`; `out` is what the output buffer held. -/
def dstDecoderDecode (d : DstDecoder) (frame : DstFrame) (out : List UInt8) :
    DecodeResult × DstDecoder :=
  match readHead d.channels frame with
  | .invalid => (⟨averrorInvalidData, none, out⟩, d)
  | .unsupported => (⟨averrorPatchWelcome, none, out⟩, d)
  | .plain =>
    let size := frame.size.toNat
    let copied := min (size - 1) (dstSamplesPerFrame d.sampleRate / 8 * d.channels)
    (⟨0, some size, (List.range copied).map (fun i => frame.data (i + 1)) ++ out.drop copied⟩, d)
  | .invalidMap felem pelem =>
    (⟨averrorInvalidData, none, out⟩,
      { d with
        fsets := { d.fsets with elements := felem.elements }
        probs := { d.probs with elements := (pelem.map (·.elements)).getD d.probs.elements } })
  | .mapped felem pelem => decodeMapped d felem pelem out

end DsdNexus.Dst
