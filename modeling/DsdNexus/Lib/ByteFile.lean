import DsdNexus.Lib.Slice
import Mathlib.Algebra.Order.Ring.Nat

/-! # A file of bytes with a position

What a C stream over a file does to its bytes: a short read stops at the end of the
file, a write overwrites in place and fills a gap, a seek may pass the end but not
leave the range of a signed 64-bit offset, and closing may cut the file.
-/

namespace DsdNexus

/-- The bytes of a file and where the next read or write goes. -/
@[ext]
structure ByteFile where
  content : List UInt8
  pos : Nat
deriving DecidableEq

namespace ByteFile

/-- The greatest offset of a file, `INT64_MAX`. -/
def offMax : Nat := 2 ^ 63 - 1

variable (f : ByteFile)

/-- What the file holds from the position on. -/
def rest : List UInt8 := f.content.drop f.pos

/-- `fread`: at most `n` bytes, and the position behind them. -/
def read (n : Nat) : List UInt8 × ByteFile :=
  (f.rest.take n, { f with pos := f.pos + (f.rest.take n).length })

/-- `fwrite`, when it succeeds. -/
def write (bytes : List UInt8) : ByteFile :=
  ⟨Patch.patch 0 f.content (f.pos, bytes), f.pos + bytes.length⟩

/-- Where a seek by a signed offset goes; `none` when `fseeko` fails. -/
def target (offset : Int) (base : Nat) : Option Nat :=
  if 0 ≤ base + offset ∧ base + offset ≤ offMax then some (base + offset).toNat else none

/-- `ftruncate` at the position: what lies behind it is cut off, and where the file is
shorter it grows. -/
def truncate : List UInt8 :=
  f.content.take f.pos ++ List.replicate (f.pos - f.content.length) 0

/-! ## Reading -/

theorem read_content (n : Nat) : (f.read n).2.content = f.content := rfl

theorem read_pos (n : Nat) : (f.read n).2.pos = f.pos + (f.read n).1.length := rfl

theorem read_length_le (n : Nat) : (f.read n).1.length ≤ n := List.length_take_le n _

theorem rest_length : f.rest.length = f.content.length - f.pos := List.length_drop

theorem read_length (n : Nat) : (f.read n).1.length = min n (f.content.length - f.pos) := by
  simp [read, rest]

/-- A read that comes back short stops at the end of the file, or was beyond it. -/
theorem read_short {n : Nat} (h : (f.read n).1.length ≠ n) :
    (f.read n).2.pos = max f.pos f.content.length := by
  have hlen := f.read_length n
  rw [read_pos]
  omega

theorem rest_mid (pre bytes : List UInt8) :
    (ByteFile.mk (pre ++ bytes) pre.length).rest = bytes := List.drop_left

theorem read_mid (pre bytes post : List UInt8) :
    (ByteFile.mk (pre ++ (bytes ++ post)) pre.length).read bytes.length =
      (bytes, ⟨pre ++ (bytes ++ post), pre.length + bytes.length⟩) := by
  simp only [read, rest_mid, List.take_left]

/-! ## Writing -/

theorem write_nil : f.write [] = f := rfl

theorem write_pos (bytes : List UInt8) : (f.write bytes).pos = f.pos + bytes.length := rfl

/-- Two writes in a row are one. -/
theorem write_write (a b : List UInt8) : (f.write a).write b = f.write (a ++ b) := by
  ext1
  · exact Patch.patch_patch 0 f.content f.pos a b
  · simp [write, Nat.add_assoc]

/-- At the end of the file a write appends. -/
theorem write_at_end (xs bytes : List UInt8) :
    (ByteFile.mk xs xs.length).write bytes = ⟨xs ++ bytes, xs.length + bytes.length⟩ := by
  simp only [write, Patch.patch_at_end]

/-- Inside the file a write replaces as many bytes as it has. -/
theorem write_mid (pre old new post : List UInt8) (h : old.length = new.length) :
    (ByteFile.mk (pre ++ (old ++ post)) pre.length).write new =
      ⟨pre ++ (new ++ post), pre.length + new.length⟩ := by
  simp only [write, Patch.patch_mid 0 pre old new post h]

/-- What is written stands behind as many bytes as the position says. -/
theorem write_split (bytes : List UInt8) (h : bytes ≠ []) :
    ∃ pre post, pre.length = f.pos ∧ (f.write bytes).content = pre ++ (bytes ++ post) := by
  refine ⟨(f.content ++ List.replicate (f.pos - f.content.length) 0).take f.pos,
    f.content.drop (f.pos + bytes.length), ?_, ?_⟩
  · rw [List.length_take, List.length_append, List.length_replicate]
    omega
  · rw [write, Patch.patch, if_neg h, Patch.overwrite, List.append_assoc]
    rfl

/-! ## Seeking and closing -/

theorem target_zero {base : Nat} (h : base ≤ offMax) : target 0 base = some base := by
  have hbase : (0 : Int) ≤ base + 0 ∧ ((base : Int) + 0) ≤ offMax := by omega
  rw [target, if_pos hbase]
  simp

theorem target_nat {offset base : Nat} (h : base + offset ≤ offMax) :
    target offset base = some (base + offset) := by
  have hbase : (0 : Int) ≤ base + offset ∧ ((base : Int) + offset) ≤ offMax := by omega
  rw [target, if_pos hbase]
  congr 1

theorem target_eq_some {offset : Int} {base p : Nat} (h : target offset base = some p) :
    (p : Int) = base + offset ∧ p ≤ offMax := by
  unfold target at h
  split at h
  · next hin =>
    cases h
    omega
  · cases h

/-- Cutting the file at its end leaves it as it is, and cutting it elsewhere does not. -/
theorem truncate_eq_iff : f.truncate = f.content ↔ f.pos = f.content.length := by
  constructor
  · intro h
    have hlen := congrArg List.length h
    simp only [truncate, List.length_append, List.length_take, List.length_replicate] at hlen
    omega
  · intro h
    simp [truncate, h]

end ByteFile

end DsdNexus
