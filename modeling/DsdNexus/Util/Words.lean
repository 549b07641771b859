import Mathlib.Algebra.Order.Ring.Nat

/-! # Markers, 64-bit words and allocation

What the file libraries take from libsautil: the codes of `MAKE_MARKER`, the casts between
64-bit words, and the limit of `sa_malloc`.
-/

namespace DsdNexus

/-- `MAKE_MARKER`: the four characters as they stand in the file. -/
def makeMarker (a b c d : Char) : List UInt8 := [a.toUInt8, b.toUInt8, c.toUInt8, d.toUInt8]

/-- The most `sa_malloc` hands out, `INT_MAX`. -/
def maxAllocSize : Nat := 2 ^ 31 - 1

/-- A 64-bit value read as a signed one. -/
def int64 (n : Nat) : Int := if n < 2 ^ 63 then n else n - 2 ^ 64

/-- A sum or a difference kept in an unsigned 64-bit word. -/
def uint64 (x : Int) : Nat := (x % 2 ^ 64).toNat

theorem int64_of_lt {n : Nat} (h : n < 2 ^ 63) : int64 n = n := if_pos h

theorem uint64_of_nat {n : Nat} (h : n < 2 ^ 64) : uint64 n = n := by
  unfold uint64
  omega

end DsdNexus
