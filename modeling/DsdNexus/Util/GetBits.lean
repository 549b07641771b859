import Mathlib.Algebra.Order.Ring.Nat

/-! # The bitstream reader

The reader of `get_bits.h` as it is configured: big-endian, and never past eight bits
behind the end. A read takes 32 bits at once, so that it sees what follows the stream in
memory.
-/

namespace DsdNexus.Util

/-- `GetBitContext`. -/
structure GetBitContext where
  /-- The memory from the stream on. -/
  buffer : Nat → UInt8
  sizeInBits : Nat
  index : Nat

namespace GetBitContext

/-- `init_get_bits8`; `none` is `AVERROR_INVALIDDATA`. -/
def init8 (buffer : Nat → UInt8) (byteSize : Int) : Option GetBitContext :=
  if byteSize < 0 ∨ 0x7FFFFFFF / 8 < byteSize ∨ 0x7FFFFFFF - 512 ≤ byteSize * 8 then none
  else some ⟨buffer, byteSize.toNat * 8, 0⟩

variable (gb : GetBitContext)

/-- `UPDATE_CACHE`. -/
def cache : Nat :=
  let byte := fun i => (gb.buffer (gb.index / 8 + i)).toNat
  (byte 0 * 2 ^ 24 + byte 1 * 2 ^ 16 + byte 2 * 2 ^ 8 + byte 3) * 2 ^ (gb.index % 8) % 2 ^ 32

/-- `LAST_SKIP_BITS`. -/
def skip (n : Int) : GetBitContext :=
  { gb with index := min (gb.sizeInBits + 8) (gb.index + n).toNat }

/-- `SHOW_UBITS`; the machines count a shift by 32 as one by 0. -/
def showUbits (cache n : Nat) : Nat := cache / 2 ^ ((32 - n) % 32)

/-- `get_bits`. -/
def getBits (n : Nat) : Nat × GetBitContext := (showUbits gb.cache n, gb.skip n)

/-- `get_sbits`. -/
def getSbits (n : Nat) : Int × GetBitContext :=
  let v : Int := showUbits gb.cache n
  (if v < 2 ^ (n - 1) then v else v - 2 ^ n, gb.skip n)

/-- `get_bits1`. -/
def getBits1 : Nat × GetBitContext :=
  ((gb.buffer (gb.index / 8)).toNat / 2 ^ (7 - gb.index % 8) % 2,
    if gb.index < gb.sizeInBits + 8 then { gb with index := gb.index + 1 } else gb)

/-- `get_bits_left`. -/
def bitsLeft : Int := gb.sizeInBits - gb.index

end GetBitContext

/-- `sa_log2`. -/
def saLog2 (v : Nat) : Nat := Nat.log2 (v ||| 1)

/-- The value of a 32-bit or 16-bit signed variable. -/
def toInt32 (x : Int) : Int := Int.bmod x (2 ^ 32)

def toInt16 (x : Int) : Int := Int.bmod x (2 ^ 16)

end DsdNexus.Util
