import DsdNexus.Lib.Reads
import DsdNexus.Util.Reverse

/-! # Special strings

The text of a disc is terminated by a zero character of its character set, one byte or
two. Its length is found by a scan from where it starts; nothing bounds the scan but the
memory it runs in.
-/

namespace DsdNexus.Sacd

/-- Why a parse stops: a read outside the memory it may read, a loop without an end, or an
error status. -/
inductive Stop where
  | outside
  | endless
  | status (status : Int)
  deriving DecidableEq, Repr

abbrev Parse (α : Type) := Except Stop α

/-- The index of `iconv_charsets` and `charset_widths`. -/
def codepageIndex (code : Nat) : Nat := code % 8

/-- `charset_widths` -/
def charsetWidth (index : Nat) : Nat := if 3 ≤ index ∧ index ≤ 6 then 2 else 1

/-- `strlen` -/
def strlen : Bytes → Parse Nat
  | [] => .error .outside
  | b :: rest => if b = 0 then .ok 0 else do
    let len ← strlen rest
    .ok (len + 1)

/-- The scan of `_multibyte_strlen`. Its index is a `uint16_t`: after 32768 steps it is back
at the start. -/
def multibyteScan : Nat → Bytes → Parse Nat
  | 0, _ => .error .endless
  | _ + 1, [] => .error .outside
  | n + 1, [b] => if b = 0 then .error .outside else multibyteScan n []
  | n + 1, b :: c :: rest => if b = 0 ∧ c = 0 then .ok 0 else do
    let len ← multibyteScan n rest
    .ok (len + 2)

/-- `_multibyte_strlen` -/
def multibyteStrlen (str : Bytes) : Parse Nat := multibyteScan 32768 str

/-- The length both string functions find. -/
def stringLength (str : Bytes) (code : Nat) : Parse Nat :=
  if charsetWidth (codepageIndex code) = 2 then multibyteStrlen str else strlen str

/-- `_charset_convert` to UTF-8, from the character set of an index; `none` where it runs out
of memory. -/
abbrev Convert := Nat → Bytes → Option Bytes

/-- `sacd_special_string_to_utf8` of the string at `p`. -/
def specialStringToUtf8 (convert : Convert) (mem : Bytes) (p code : Nat) :
    Parse (Option Bytes) := do
  let len ← stringLength (mem.drop p) code
  .ok (convert (codepageIndex code) (slice mem p len))

/-- `sacd_special_string_len` of the string at `p`, a `uint16_t`. -/
def specialStringLen (mem : Bytes) (p code : Nat) : Parse Nat := do
  let len ← stringLength (mem.drop p) code
  .ok (len % 65536)

/-! ## Terminated strings -/

open Attempt

/-- A zero character ends the string inside its memory, and where the scan reaches it. -/
def Terminated (str : Bytes) (code : Nat) : Prop :=
  if charsetWidth (codepageIndex code) = 2 then
    ∃ k < 32768, str[2 * k]? = some 0 ∧ str[2 * k + 1]? = some 0
  else 0 ∈ str

theorem succeeds_strlen (str : Bytes) : Succeeds (strlen str) ↔ 0 ∈ str := by
  induction str with
  | nil => exact ⟨nofun, nofun⟩
  | cons b rest ih =>
    rw [strlen]
    split
    · next hb =>
      rw [hb]
      exact ⟨fun _ => List.mem_cons_self, fun _ => succeeds_ok 0⟩
    · next hb =>
      rw [succeeds_bind, List.mem_cons, or_iff_right (Ne.symm hb), ← ih]
      exact ⟨fun ⟨len, hlen, _⟩ => ⟨len, hlen⟩, fun ⟨len, hlen⟩ => ⟨len, hlen, succeeds_ok _⟩⟩

/-- The scan finds a pair of zeros at a place it comes to. -/
theorem succeeds_multibyteScan (n : Nat) (str : Bytes) : Succeeds (multibyteScan n str) ↔
    ∃ k < n, str[2 * k]? = some 0 ∧ str[2 * k + 1]? = some 0 := by
  induction n, str using multibyteScan.induct with
  | case1 str => exact ⟨nofun, fun ⟨k, hk, _⟩ => absurd hk (Nat.not_lt_zero k)⟩
  | case2 n => exact ⟨nofun, fun ⟨k, _, hk, _⟩ => by simp at hk⟩
  | case3 n =>
    rw [multibyteScan, if_pos rfl]
    exact ⟨nofun, fun ⟨k, _, _, hk⟩ => by simp at hk⟩
  | case4 n b hb ih =>
    rw [multibyteScan, if_neg hb, ih]
    exact ⟨fun ⟨k, _, hk, _⟩ => by simp at hk, fun ⟨k, _, _, hk⟩ => by simp at hk⟩
  | case5 n b c rest hzero =>
    rw [multibyteScan, if_pos hzero]
    refine ⟨fun _ => ⟨0, Nat.succ_pos n, ?_, ?_⟩, fun _ => succeeds_ok 0⟩
    · rw [← hzero.1]
      rfl
    · rw [← hzero.2]
      rfl
  | case6 n b c rest hzero ih =>
    rw [multibyteScan, if_neg hzero, succeeds_bind]
    constructor
    · intro ⟨len, hlen, _⟩
      obtain ⟨k, hk, hfirst, hsecond⟩ := ih.mp ⟨len, hlen⟩
      exact ⟨k + 1, Nat.succ_lt_succ hk, hfirst, hsecond⟩
    · intro ⟨k, hk, hfirst, hsecond⟩
      cases k with
      | zero =>
        refine absurd ⟨?_, ?_⟩ hzero
        · exact Option.some.inj hfirst
        · exact Option.some.inj hsecond
      | succ k =>
        obtain ⟨len, hlen⟩ := ih.mpr ⟨k, Nat.lt_of_succ_lt_succ hk, hfirst, hsecond⟩
        exact ⟨len, hlen, succeeds_ok _⟩

theorem succeeds_stringLength (str : Bytes) (code : Nat) :
    Succeeds (stringLength str code) ↔ Terminated str code := by
  unfold stringLength Terminated
  split
  · exact succeeds_multibyteScan 32768 str
  · exact succeeds_strlen str

theorem succeeds_specialStringToUtf8 (convert : Convert) (mem : Bytes) (p code : Nat) :
    Succeeds (specialStringToUtf8 convert mem p code) ↔ Terminated (mem.drop p) code := by
  rw [specialStringToUtf8, succeeds_bind, ← succeeds_stringLength]
  exact ⟨fun ⟨len, hlen, _⟩ => ⟨len, hlen⟩, fun ⟨len, hlen⟩ => ⟨len, hlen, succeeds_ok _⟩⟩

/-! ## The length of a terminated string -/

theorem strlen_append {text : Bytes} (h : 0 ∉ text) (rest : Bytes) :
    strlen (text ++ 0 :: rest) = .ok text.length := by
  induction text with
  | nil => rfl
  | cons b text ih =>
    rw [List.mem_cons, not_or] at h
    rw [List.cons_append, strlen, if_neg (Ne.symm h.1), bind_of_ok (ih h.2)]
    rfl

/-- A text of `n` two-byte characters, none of them zero. -/
inductive DoubleText : Nat → Bytes → Prop where
  | nil : DoubleText 0 []
  | cons {n : Nat} {b c : UInt8} {text : Bytes} (h : ¬(b = 0 ∧ c = 0)) (rest : DoubleText n text) :
    DoubleText (n + 1) (b :: c :: text)

theorem DoubleText.length {n : Nat} {text : Bytes} (h : DoubleText n text) :
    text.length = 2 * n := by
  induction h with
  | nil => rfl
  | cons hchar rest ih =>
    rw [List.length_cons, List.length_cons, ih]
    omega

theorem multibyteScan_append {n k : Nat} {text : Bytes} (h : DoubleText n text) (hk : n < k)
    (rest : Bytes) : multibyteScan k (text ++ 0 :: 0 :: rest) = .ok text.length := by
  induction h generalizing k with
  | nil =>
    obtain ⟨k, rfl⟩ : ∃ j, k = j + 1 := ⟨k - 1, by omega⟩
    rfl
  | cons hchar hrest ih =>
    obtain ⟨k, rfl⟩ : ∃ j, k = j + 1 := ⟨k - 1, by omega⟩
    rw [List.cons_append, List.cons_append, multibyteScan, if_neg hchar,
      bind_of_ok (ih (by omega))]
    rfl

end DsdNexus.Sacd
