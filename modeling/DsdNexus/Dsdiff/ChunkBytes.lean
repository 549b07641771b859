import DsdNexus.Dsdiff.Chunks

/-! # DSDIFF: what a chunk looks like in the file

The numbers, ids and pad bytes the chunks are made of: what is written of each, and that it
is read again.
-/

namespace DsdNexus.Dsdiff

open Program FileProgram Endian

abbrev Bytes := List UInt8

/-! ## Numbers -/

section Numbers

theorem ioReadBytes_reads (bytes : Bytes) : Reads (ioReadBytes bytes.length) bytes bytes :=
  reads_exact _ _

theorem ioReadBytes_reads_of {n : Nat} {bytes : Bytes} (h : bytes.length = n) :
    Reads (ioReadBytes n) bytes bytes := by
  rw [← h]
  exact ioReadBytes_reads bytes

theorem ioWriteBytes_prints (bytes : Bytes) : Prints (ioWriteBytes bytes) bytes () :=
  prints_emit _ _

theorem ioWriteChunkId_prints (code : Bytes) : Prints (ioWriteChunkId code) code () :=
  prints_emit _ _

theorem ioReadChunkId_reads {code : Bytes} (h : code.length = 4) :
    Reads ioReadChunkId code code := ioReadBytes_reads_of h

theorem ioReadUint8_reads (data : UInt8) : Reads ioReadUint8 (toBe 1 data.toNat) data := by
  have hdata : UInt8.ofNat (ofBe (toBe 1 data.toNat)) = data := by
    rw [ofBe_toBe_of_lt data.toNat_lt, UInt8.ofNat_toNat]
  have h := (ioReadBytes_reads_of (toBe_length 1 data.toNat)).map fun bytes =>
    UInt8.ofNat (ofBe bytes)
  rwa [hdata] at h

theorem ioReadUint16Be_reads (data : UInt16) :
    Reads ioReadUint16Be (toBe 2 data.toNat) data := by
  have hdata : UInt16.ofNat (ofBe (toBe 2 data.toNat)) = data := by
    rw [ofBe_toBe_of_lt data.toNat_lt, UInt16.ofNat_toNat]
  have h := (ioReadBytes_reads_of (toBe_length 2 data.toNat)).map fun bytes =>
    UInt16.ofNat (ofBe bytes)
  rwa [hdata] at h

theorem ioReadUint32Be_reads (data : UInt32) :
    Reads ioReadUint32Be (toBe 4 data.toNat) data := by
  have hdata : UInt32.ofNat (ofBe (toBe 4 data.toNat)) = data := by
    rw [ofBe_toBe_of_lt data.toNat_lt, UInt32.ofNat_toNat]
  have h := (ioReadBytes_reads_of (toBe_length 4 data.toNat)).map fun bytes =>
    UInt32.ofNat (ofBe bytes)
  rwa [hdata] at h

theorem ioReadUint64Be_reads {data : Nat} (h : data < 2 ^ 64) :
    Reads ioReadUint64Be (toBe 8 data) data := by
  have hread := (ioReadBytes_reads_of (toBe_length 8 data)).map ofBe
  rwa [ofBe_toBe_of_lt h] at hread

theorem ioWriteUint8_prints (data : UInt8) :
    Prints (ioWriteUint8 data) (toBe 1 data.toNat) () := prints_emit _ _

theorem ioWriteUint16Be_prints (data : UInt16) :
    Prints (ioWriteUint16Be data) (toBe 2 data.toNat) () := prints_emit _ _

theorem ioWriteUint32Be_prints (data : UInt32) :
    Prints (ioWriteUint32Be data) (toBe 4 data.toNat) () := prints_emit _ _

theorem ioWriteUint64Be_prints (data : Nat) :
    Prints (ioWriteUint64Be data) (toBe 8 data) () := prints_emit _ _

end Numbers

/-! ## Heads and pad bytes -/

/-- The id and size a chunk starts with. -/
def chunkHead (type : ChunkType) (chunkSize : Nat) : Bytes := type.fourcc ++ toBe 8 chunkSize

theorem chunkHead_length {type : ChunkType} (h : type ≠ .unknown) (chunkSize : Nat) :
    (chunkHead type chunkSize).length = 12 := by
  rw [chunkHead, List.length_append, ChunkType.fourcc_length h, toBe_length]

theorem writeChunkHead_prints (type : ChunkType) (chunkSize : Nat) :
    Prints (writeChunkHead type chunkSize) (chunkHead type chunkSize) () :=
  (ioWriteChunkId_prints _).bind (ioWriteUint64Be_prints _)

theorem chunkReadHeader_reads {type : ChunkType} (h : type ≠ .unknown) :
    Reads chunkReadHeader type.fourcc type := by
  have hread := (ioReadChunkId_reads (ChunkType.fourcc_length h)).map ChunkType.ofFourcc
  rwa [ChunkType.ofFourcc_fourcc] at hread

/-- The pad byte behind so many bytes. -/
def padBytes (size : Nat) : Bytes := if size % 2 ≠ 0 then toBe 1 0 else []

theorem padBytes_length (size : Nat) : (padBytes size).length = size % 2 := by
  unfold padBytes
  split
  · rw [toBe_length]
    omega
  · rw [List.length_nil]
    omega

theorem writePadOf_prints (size : Nat) : Prints (writePadOf size) (padBytes size) () := by
  unfold writePadOf padBytes
  split
  · exact ioWriteUint8_prints 0
  · exact Prints.pure ()

theorem readPadOf_reads (size : Nat) : Reads (readPadOf size) (padBytes size) () := by
  unfold readPadOf padBytes
  split
  · exact (ioReadUint8_reads 0).map fun _ => ()
  · exact Reads.pure ()

/-- What a program writes is one list of bytes. -/
theorem writes_unique {m : Io Unit} {xs ys : Bytes} (hx : Writes m xs ()) (hy : Writes m ys ())
    (hxs : xs.length ≤ ByteFile.offMax) (hys : ys.length ≤ ByteFile.offMax) : xs = ys := by
  have hfirst := hx.at_end [] (by simpa using hxs)
  have hsecond := hy.at_end [] (by simpa using hys)
  have hsame := (Prod.mk.inj (hfirst.symm.trans hsecond)).2
  simpa using congrArg ByteFile.content hsame

end DsdNexus.Dsdiff
