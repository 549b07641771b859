import Mathlib.Algebra.Order.Ring.Nat
import Mathlib.Data.Nat.ModEq
import Mathlib.Tactic.Ring

/-! # Numbers as bytes

A number in so many bytes, least or most significant byte first, and back.
-/

namespace DsdNexus.Endian

/-- The `w` low bytes of `n`, least significant first. -/
def toLe : Nat → Nat → List UInt8
  | 0, _ => []
  | w + 1, n => UInt8.ofNat n :: toLe w (n / 256)

def ofLe : List UInt8 → Nat
  | [] => 0
  | b :: bs => b.toNat + 256 * ofLe bs

/-- The `w` low bytes of `n`, most significant first. -/
def toBe (w n : Nat) : List UInt8 := (toLe w n).reverse

def ofBe (bs : List UInt8) : Nat := ofLe bs.reverse

@[simp] theorem toLe_length (w n : Nat) : (toLe w n).length = w := by
  induction w generalizing n with
  | zero => rfl
  | succ w ih => simp [toLe, ih]

@[simp] theorem toBe_length (w n : Nat) : (toBe w n).length = w := by simp [toBe]

theorem ofLe_toLe (w n : Nat) : ofLe (toLe w n) = n % 256 ^ w := by
  induction w generalizing n with
  | zero => simp [toLe, ofLe, Nat.mod_one]
  | succ w ih =>
    have hbyte : (UInt8.ofNat n).toNat = n % 256 := UInt8.toNat_ofNat'
    rw [toLe, ofLe, ih, hbyte, pow_succ', Nat.mod_mul]

theorem ofLe_toLe_of_lt {w n : Nat} (h : n < 256 ^ w) : ofLe (toLe w n) = n := by
  rw [ofLe_toLe, Nat.mod_eq_of_lt h]

theorem ofLe_lt (bs : List UInt8) : ofLe bs < 256 ^ bs.length := by
  induction bs with
  | nil => simp [ofLe]
  | cons b bs ih =>
    have hb : b.toNat < 256 := b.toNat_lt
    have hpow : 256 ^ (bs.length + 1) = 256 * 256 ^ bs.length := pow_succ' 256 bs.length
    rw [ofLe, List.length_cons, hpow]
    omega

theorem ofBe_toBe_of_lt {w n : Nat} (h : n < 256 ^ w) : ofBe (toBe w n) = n := by
  rw [ofBe, toBe, List.reverse_reverse, ofLe_toLe_of_lt h]

theorem ofBe_lt (bs : List UInt8) : ofBe bs < 256 ^ bs.length := by
  have h := ofLe_lt bs.reverse
  rwa [List.length_reverse] at h

end DsdNexus.Endian
