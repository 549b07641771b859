import DsdNexus.Dsdiff.Layout

/-! # DSDIFF: the name of a compression, written and read again

`dsdiff_chunk_write_cmpr` takes the size of its chunk from the whole name and stores at most
255 characters of it. `dsdiff_chunk_read_cmpr` compares the stored length with `name_len`,
which nothing has set before, and with the room of the buffer.
-/

namespace DsdNexus.Dsdiff

open Program FileProgram Endian

/-- The type a chunk names by its code. -/
def compressionTypeOf (fourcc : List UInt8) : AudioType :=
  if fourcc = ChunkType.dsd.fourcc then .dsd
  else if fourcc = ChunkType.dst.fourcc then .dst
  else .unknown

/-- `dsdiff_chunk_read_cmpr` with the name it stores in the buffer of its caller. -/
def chunkReadCmprName (nameLen nameBufferSize : Nat) : Io (AudioType × List UInt8) := do
  let _ ← ioReadUint64Be
  let fourcc ← ioReadChunkId
  require (compressionTypeOf fourcc ≠ .unknown) .invalidChunk
  let compressionName ← ioReadPstring nameLen nameBufferSize
  pure (compressionTypeOf fourcc, compressionName)

/-- The parse of a file drops the name. -/
theorem chunkReadCmpr_eq (nameLen nameBufferSize : Nat) :
    chunkReadCmpr nameLen nameBufferSize =
      (chunkReadCmprName nameLen nameBufferSize >>= fun read => pure read.1) := by
  simp only [chunkReadCmprName, bind_assoc]
  rfl

/-- The size field of the chunk that starts at `pos`. -/
def sizeField (f : ByteFile) (pos : Nat) : Nat := ofBe (slice f.content (pos + 4) 8)

/-- Wherever the chunk is written, it ends where its size field says; a name of at most 255
characters is read again behind its id, with its type, up to that end. -/
structure CmprReturns (type : AudioType) (name : List UInt8) (nameLen : UInt16)
    (nameBufferSize : Nat) : Prop where
  sized : ∀ f f' : ByteFile, f.pos ≤ ByteFile.offMax → chunkWriteCmpr type name f = (.ok (), f') →
    f'.pos = f.pos + 12 + sizeField f' f.pos
  returned : name.length ≤ 255 → ∀ f f' : ByteFile, f.pos ≤ ByteFile.offMax →
    chunkWriteCmpr type name f = (.ok (), f') →
      chunkReadCmprName nameLen.toNat nameBufferSize { f' with pos := f.pos + 4 } =
        (.ok (type, name), f')

/-! ## The bytes of the chunk -/

section Bytes

variable {type : AudioType} {name : List UInt8}

/-- The code that is stored: what is not DST is written as DSD. -/
def storedCode (type : AudioType) : List UInt8 :=
  if type = .dst then ChunkType.dst.fourcc else ChunkType.dsd.fourcc

theorem storedCode_length (type : AudioType) : (storedCode type).length = 4 := by
  unfold storedCode
  split <;> rfl

/-- The code says the type, where there is one. -/
theorem compressionTypeOf_storedCode (type : AudioType) :
    compressionTypeOf (storedCode type) = if type = .dst then .dst else .dsd := by
  cases type <;> rfl

/-- What its size field says. -/
def cmprSize (name : List UInt8) : Nat :=
  4 + 1 + name.length + if name.length % 2 = 0 then 1 else 0

/-- The chunk behind its id. -/
def cmprBody (type : AudioType) (name : List UInt8) : List UInt8 :=
  toBe 8 (cmprSize name) ++ (storedCode type ++ pstringBytes name)

theorem cmprChunk_eq (type : AudioType) (name : List UInt8) :
    cmprChunk type name = ChunkType.cmpr.fourcc ++ cmprBody type name :=
  List.append_assoc _ _ _

theorem pstringBytes_length (string : List UInt8) :
    (pstringBytes string).length =
      1 + min string.length 255 + (min string.length 255 + 1) % 2 := by
  simp only [pstringBytes, List.length_append, toBe_length, List.length_take, padBytes_length]
  omega

theorem cmprBody_length (type : AudioType) (name : List UInt8) :
    (cmprBody type name).length =
      13 + min name.length 255 + (min name.length 255 + 1) % 2 := by
  simp only [cmprBody, List.length_append, toBe_length, storedCode_length, pstringBytes_length]
  omega

theorem cmprChunk_length (type : AudioType) (name : List UInt8) :
    (cmprChunk type name).length =
      17 + min name.length 255 + (min name.length 255 + 1) % 2 := by
  have hcode : ChunkType.cmpr.fourcc.length = 4 := rfl
  rw [cmprChunk_eq, List.length_append, cmprBody_length, hcode]
  omega

/-- Up to 255 characters the size field says what is written, beyond it says more. -/
theorem cmprChunk_sized_iff (type : AudioType) (name : List UInt8) :
    (cmprChunk type name).length = 12 + cmprSize name ↔ name.length ≤ 255 := by
  rw [cmprChunk_length, cmprSize]
  split <;> omega

end Bytes

/-! ## Reading the chunk -/

section Reading

variable {type : AudioType} {name : List UInt8} {nameLen nameBufferSize : Nat}

/-- A length byte over a limit, or over the room of the buffer, is an error. -/
theorem ioReadPstring_eq_ok {length bufferSize : Nat} {string : List UInt8} {pre post : List UInt8}
    {strLen : UInt8} {f : ByteFile}
    (h : ioReadPstring length bufferSize ⟨pre ++ (toBe 1 strLen.toNat ++ post), pre.length⟩ =
      (.ok string, f)) : strLen.toNat ≤ length ∧ strLen.toNat < bufferSize := by
  unfold ioReadPstring at h
  rw [bind_of_ok (ioReadUint8_reads strLen pre post)] at h
  obtain ⟨_, _, hlimit, h⟩ := bind_eq_ok h
  obtain ⟨_, _, hroom, h⟩ := bind_eq_ok h
  exact ⟨(require_eq_ok hlimit).1, (require_eq_ok hroom).1⟩

theorem ioReadPstring_reads (hlength : name.length ≤ 255) (hlimit : name.length ≤ nameLen)
    (hroom : name.length < nameBufferSize) :
    Reads (ioReadPstring nameLen nameBufferSize) (pstringBytes name) name := by
  have hmin : min name.length 255 = name.length := Nat.min_eq_left hlength
  have hbyte : (UInt8.ofNat name.length).toNat = name.length :=
    UInt8.toNat_ofNat_of_lt' (Nat.lt_succ_of_le hlength)
  have hstring : Reads (ioReadBytes (UInt8.ofNat name.length).toNat) name name :=
    ioReadBytes_reads_of hbyte.symm
  have hpad : Reads (readPadOf ((UInt8.ofNat name.length).toNat + 1))
      (padBytes (name.length + 1)) () := hbyte.symm ▸ readPadOf_reads _
  unfold ioReadPstring pstringBytes
  rw [hmin, List.take_length]
  exact (ioReadUint8_reads _).bind <| Reads.check (hbyte.le.trans hlimit) <|
    Reads.check (hbyte.trans_lt hroom) <| hstring.bind <| hpad.map fun _ => name

theorem cmprSize_lt (h : name.length < 2 ^ 63) : cmprSize name < 2 ^ 64 := by
  rw [cmprSize]
  split <;> omega

/-- What stands behind the id is read again, as long as the name is within all limits. -/
theorem chunkReadCmprName_reads (htype : type ≠ .unknown) (hlength : name.length ≤ 255)
    (hlimit : name.length ≤ nameLen) (hroom : name.length < nameBufferSize) :
    Reads (chunkReadCmprName nameLen nameBufferSize) (cmprBody type name) (type, name) := by
  have hcode : compressionTypeOf (storedCode type) = type := by
    cases type with
    | dsd => rfl
    | dst => rfl
    | unknown => exact absurd rfl htype
  suffices hread : Reads (chunkReadCmprName nameLen nameBufferSize) (cmprBody type name)
      (compressionTypeOf (storedCode type), name) by rwa [hcode] at hread
  refine (ioReadUint64Be_reads (cmprSize_lt (by omega))).bind ?_
  refine (ioReadChunkId_reads (storedCode_length type)).bind ?_
  refine Reads.check (hcode.trans_ne htype) ?_
  exact (ioReadPstring_reads hlength hlimit hroom).map _

/-- Where it is read, the name is within all limits and the type is that of the code. -/
theorem chunkReadCmprName_eq_ok {pre post : List UInt8} {f : ByteFile}
    (hlength : name.length ≤ 255)
    (h : chunkReadCmprName nameLen nameBufferSize ⟨pre ++ (cmprBody type name ++ post), pre.length⟩ =
      (.ok (type, name), f)) :
    type ≠ .unknown ∧ name.length ≤ nameLen ∧ name.length < nameBufferSize := by
  have hmin : min name.length 255 = name.length := Nat.min_eq_left hlength
  have hbyte : (UInt8.ofNat name.length).toNat = name.length :=
    UInt8.toNat_ofNat_of_lt' (Nat.lt_succ_of_le hlength)
  unfold chunkReadCmprName at h
  rw [cmprBody, List.append_assoc, (ioReadUint64Be_reads (cmprSize_lt (by omega))).run,
    List.append_assoc (storedCode type), (ioReadChunkId_reads (storedCode_length type)).run] at h
  obtain ⟨_, _, hknown, h⟩ := bind_eq_ok h
  obtain ⟨hne, rfl⟩ := require_eq_ok hknown
  obtain ⟨string, g, hstring, h⟩ := bind_eq_ok h
  obtain ⟨hsame, -⟩ := Prod.mk.inj h
  obtain ⟨htype, -⟩ := Prod.mk.inj (Except.ok.inj hsame)
  rw [pstringBytes, hmin, List.append_assoc (toBe 1 _)] at hstring
  have hlimits : (UInt8.ofNat name.length).toNat ≤ nameLen ∧
      (UInt8.ofNat name.length).toNat < nameBufferSize := ioReadPstring_eq_ok hstring
  rw [hbyte] at hlimits
  exact ⟨htype.symm.trans_ne hne, hlimits⟩

end Reading

/-! ## Both together -/

section Written

variable {type : AudioType} {name : List UInt8} {nameLen : UInt16} {nameBufferSize : Nat}

/-- What is written stands in the file, behind as many bytes as were before it. -/
theorem written_split {f f' : ByteFile} (hpos : f.pos ≤ ByteFile.offMax)
    (hwrite : chunkWriteCmpr type name f = (.ok (), f')) :
    ∃ pre post, pre.length = f.pos ∧ f'.content = pre ++ (cmprChunk type name ++ post) ∧
      f'.pos = f.pos + (cmprChunk type name).length := by
  obtain ⟨-, rfl, -⟩ := (chunkWriteCmpr_prints type name).emits hpos hwrite
  obtain ⟨pre, post, hpre, hcontent⟩ := f.write_split (cmprChunk type name)
    (List.ne_nil_of_length_pos (by rw [cmprChunk_length]; omega))
  exact ⟨pre, post, hpre, hcontent, rfl⟩

/-- The size field of the chunk is what it was written from. -/
theorem sizeField_written (hname : name.length < 2 ^ 63) {f' : ByteFile} {pre post : List UInt8}
    (hcontent : f'.content = pre ++ (cmprChunk type name ++ post)) :
    sizeField f' pre.length = cmprSize name := by
  have hcode : ChunkType.cmpr.fourcc.length = 4 := rfl
  have hbytes : slice f'.content (pre.length + 4) 8 = toBe 8 (cmprSize name) := by
    rw [hcontent, slice_append_right, cmprChunk_eq, List.append_assoc]
    conv_lhs => rw [← hcode, ← Nat.add_zero ChunkType.cmpr.fourcc.length]
    rw [slice_append_right, cmprBody, List.append_assoc, slice_append_left (by rw [toBe_length])]
    exact List.take_of_length_le (by rw [List.drop_zero, toBe_length])
  rw [sizeField, hbytes, ofBe_toBe_of_lt (cmprSize_lt hname)]

/-- The chunk ends where it says exactly when the name fits. -/
theorem sized_iff (hname : name.length < 2 ^ 63) {f f' : ByteFile} (hpos : f.pos ≤ ByteFile.offMax)
    (hwrite : chunkWriteCmpr type name f = (.ok (), f')) :
    f'.pos = f.pos + 12 + sizeField f' f.pos ↔ name.length ≤ 255 := by
  obtain ⟨pre, post, hpre, hcontent, hend⟩ := written_split hpos hwrite
  rw [hend, ← hpre, sizeField_written hname hcontent, ← cmprChunk_sized_iff type name]
  omega

/-- The name returns exactly when it is within all limits and has a type of its own. -/
theorem returned_iff (hlength : name.length ≤ 255) {f f' : ByteFile}
    (hpos : f.pos ≤ ByteFile.offMax) (hwrite : chunkWriteCmpr type name f = (.ok (), f')) :
    chunkReadCmprName nameLen.toNat nameBufferSize { f' with pos := f.pos + 4 } =
        (.ok (type, name), f') ↔
      type ≠ .unknown ∧ name.length ≤ nameLen.toNat ∧ name.length < nameBufferSize := by
  obtain ⟨pre, post, hpre, hcontent, hend⟩ := written_split hpos hwrite
  have hcode : (pre ++ ChunkType.cmpr.fourcc).length = f.pos + 4 := by
    rw [List.length_append, hpre]
    rfl
  have hbody : f'.content = (pre ++ ChunkType.cmpr.fourcc) ++ (cmprBody type name ++ post) := by
    rw [hcontent, cmprChunk_eq]
    simp only [List.append_assoc]
  have hlast : f' = ⟨(pre ++ ChunkType.cmpr.fourcc) ++ (cmprBody type name ++ post),
      (pre ++ ChunkType.cmpr.fourcc).length + (cmprBody type name).length⟩ := by
    ext1
    · exact hbody
    · rw [hend, cmprChunk_eq, List.length_append, hcode]
      exact (Nat.add_assoc _ _ _).symm
  rw [hbody, ← hcode]
  constructor
  · exact chunkReadCmprName_eq_ok hlength
  · rintro ⟨htype, hlimit, hroom⟩
    rw [chunkReadCmprName_reads htype hlength hlimit hroom]
    exact congrArg _ hlast.symm

/-- A compression name that survives is within all limits and has a type of its own. -/
theorem CmprReturns.limits (h : CmprReturns type name nameLen nameBufferSize)
    (hname : name.length < 2 ^ 63) :
    name.length ≤ 255 ∧ type ≠ .unknown ∧ name.length ≤ nameLen.toNat ∧
      name.length < nameBufferSize := by
  have hroom : (cmprChunk type name).length ≤ ByteFile.offMax := by
    have hmax : ByteFile.offMax = 2 ^ 63 - 1 := rfl
    rw [cmprChunk_length]
    omega
  have hwrite := (chunkWriteCmpr_prints type name).writes ⟨[], 0⟩ ((Nat.zero_add _).trans_le hroom)
  have hlength := (sized_iff hname (Nat.zero_le _) hwrite).1 (h.sized _ _ (Nat.zero_le _) hwrite)
  exact ⟨hlength, (returned_iff hlength (Nat.zero_le _) hwrite).1
    (h.returned hlength _ _ (Nat.zero_le _) hwrite)⟩

/-- A compression name survives exactly when it has at most 255 characters, is no longer than
what the length variable happens to hold, has room in the buffer and stands for DSD or DST. -/
theorem cmpr_returns_iff (hname : name.length < 2 ^ 63) :
    CmprReturns type name nameLen nameBufferSize ↔
      name.length ≤ 255 ∧ type ≠ .unknown ∧ name.length ≤ nameLen.toNat ∧
        name.length < nameBufferSize := by
  constructor
  · intro h
    exact h.limits hname
  · rintro ⟨hlength, hlimits⟩
    exact ⟨fun f f' hpos hwrite => (sized_iff hname hpos hwrite).2 hlength,
      fun _ f f' hpos hwrite => (returned_iff hlength hpos hwrite).2 hlimits⟩

theorem cmpr_returns_dst : CmprReturns .dst (compressionName .dst) 255 256 :=
  (cmpr_returns_iff (by decide)).2 (by decide)

/-- The name of every file with DST is lost where the variable holds nothing. -/
theorem cmpr_name_lost : ¬ ∀ (type : AudioType) (name : List UInt8) (nameLen : UInt16),
    0 ∉ name → name.length < 2 ^ 63 → CmprReturns type name nameLen 256 := by
  intro h
  have hlost := h .dst (compressionName .dst) 0 (by decide) (by decide)
  exact absurd (hlost.limits (by decide)) (by decide)

end Written

end DsdNexus.Dsdiff
