import DsdNexus.Lib.Separator
import DsdNexus.Util.Reverse
import Mathlib.Algebra.Order.Ring.Nat

/-! # C strings

The string functions the path code rests on. A C string is the list of its bytes
before the terminator; a buffer of `size` bytes keeps `size - 1` of them.
-/

namespace DsdNexus

/-- A string literal of the source. -/
def ascii (s : String) : Bytes := s.toList.map fun c => UInt8.ofNat c.toNat

def slash : UInt8 := 0x2F

/-- `sa_strlcpy`, and what `snprintf` leaves of its output. -/
def strlcpy (src : Bytes) (size : Nat) : Bytes := src.take (size - 1)

theorem strlcpy_of_length_lt {src : Bytes} {size : Nat} (h : src.length < size) :
    strlcpy src size = src :=
  List.take_of_length_le (by omega)

theorem strlcpy_length_lt (src : Bytes) {size : Nat} (h : 0 < size) :
    (strlcpy src size).length < size := by
  simp only [strlcpy, List.length_take]
  omega

/-- `strstr`, as a test. -/
def strstr : Bytes → Bytes → Bool
  | [], needle => needle.isEmpty
  | c :: rest, needle => needle.isPrefixOf (c :: rest) || strstr rest needle

theorem strstr_iff (haystack needle : Bytes) :
    strstr haystack needle = true ↔ needle <:+: haystack := by
  induction haystack with
  | nil => simp [strstr]
  | cons c rest ih => simp [strstr, ih, List.infix_cons_iff]

/-- The component after the last slash, the whole path if there is none:
`strrchr(path, '/')` and the step over the slash. -/
def baseName (path : Bytes) : Bytes := path.rtakeWhile (· ≠ slash)

theorem baseName_append_slash (dir : Bytes) {name : Bytes} (h : slash ∉ name) :
    baseName (dir ++ slash :: name) = name :=
  Separator.rtakeWhile_append_cons h

theorem baseName_append_of_mem (dir : Bytes) {path : Bytes} (h : slash ∈ path) :
    baseName (dir ++ path) = baseName path :=
  Separator.rtakeWhile_append_of_mem h

theorem strstr_append_left (dir : Bytes) {path needle : Bytes} (h : strstr path needle = true) :
    strstr (dir ++ path) needle = true := by
  rw [strstr_iff] at h ⊢
  exact h.trans (List.suffix_append dir path).isInfix

theorem strstr_append_slash (dir name : Bytes) {needle : Bytes} (h : slash ∉ needle) :
    strstr (dir ++ slash :: name) needle = true ↔
      strstr dir needle = true ∨ strstr name needle = true := by
  simp only [strstr_iff]
  exact Separator.infix_append_cons_iff h

/-! ## Numbers -/

def isDigit (c : UInt8) : Bool := 0x30 ≤ c && c ≤ 0x39

/-- `isspace` in the C locale. -/
def isSpace (c : UInt8) : Bool := c = 0x20 || (0x09 ≤ c && c ≤ 0x0D)

def digitsValue (ds : Bytes) : Nat := ds.foldl (fun n d => n * 10 + (d.toNat - 0x30)) 0

/-- The optional sign of a number. -/
def scanSign : Bytes → Bool × Bytes
  | c :: rest =>
    if c = 0x2D then (true, rest) else if c = 0x2B then (false, rest) else (false, c :: rest)
  | [] => (false, [])

/-- `sscanf(s, "%hhu.", …)`: the number is read as an `unsigned long`, which saturates,
and stored in a byte. -/
def scanTrackNum (s : Bytes) : Option UInt8 :=
  let signed := scanSign (s.dropWhile isSpace)
  let digits := signed.2.takeWhile isDigit
  if digits = [] then none
  else
    let n := digitsValue digits
    some (UInt8.ofNat (if 2 ^ 64 ≤ n then 2 ^ 64 - 1 else if signed.1 then 2 ^ 64 - n else n))

/-- `%d` of a number that is not negative. -/
def decimal (n : Nat) : Bytes := (Nat.toDigits 10 n).map fun c => UInt8.ofNat c.toNat

theorem slash_not_mem_decimal (n : Nat) : slash ∉ decimal n := by
  intro hmem
  obtain ⟨c, hc, hslash⟩ := List.mem_map.1 hmem
  have hdigit : c.isDigit = true := Nat.isDigit_of_mem_toDigits (by omega) (by omega) hc
  have hval := congrArg UInt8.toNat hslash
  have hzero : '0'.val.toNat = 48 := rfl
  have hnine : '9'.val.toNat = 57 := rfl
  simp only [Char.isDigit, ge_iff_le, Bool.and_eq_true, decide_eq_true_eq,
    UInt32.le_iff_toNat_le, hzero, hnine] at hdigit
  simp only [UInt8.toNat_ofNat', slash, UInt8.reduceToNat, Char.toNat] at hval
  omega

/-- `%02d` of a byte. -/
def formatTrackNum (t : UInt8) : Bytes :=
  let digit := fun d : UInt8 => 0x30 + d % 10
  if t < 100 then [digit (t / 10), digit t] else [digit (t / 100), digit (t / 10), digit t]

private theorem formatTrackNum_table : ∀ n < 256,
    (formatTrackNum (UInt8.ofNat n)).all isDigit = true ∧ formatTrackNum (UInt8.ofNat n) ≠ [] ∧
      (formatTrackNum (UInt8.ofNat n)).length ≤ 3 ∧
      digitsValue (formatTrackNum (UInt8.ofNat n)) = n := by
  decide +kernel

theorem formatTrackNum_spec (t : UInt8) :
    (∀ d ∈ formatTrackNum t, isDigit d = true) ∧ formatTrackNum t ≠ [] ∧
      (formatTrackNum t).length ≤ 3 ∧ digitsValue (formatTrackNum t) = t.toNat := by
  simpa using formatTrackNum_table t.toNat t.toNat_lt

theorem not_isDigit_slash : isDigit slash = false := by decide

/-- What starts with a digit has neither spaces nor a sign to skip. -/
theorem scanSign_of_isDigit {c : UInt8} (rest : Bytes) (h : isDigit c = true) :
    scanSign ((c :: rest).dropWhile isSpace) = (false, c :: rest) := by
  have hrange : 0x30 ≤ c.toNat ∧ c.toNat ≤ 0x39 := by
    simpa [isDigit, UInt8.le_iff_toNat_le] using h
  have hspace : isSpace c = false := by
    simp [isSpace, UInt8.le_iff_toNat_le, ← UInt8.toNat_inj]
    omega
  have hminus : c ≠ 0x2D := by
    simp [← UInt8.toNat_inj]
    omega
  have hplus : c ≠ 0x2B := by
    simp [← UInt8.toNat_inj]
    omega
  simp [hspace, scanSign, hminus, hplus]

/-- The number a track file name starts with is read back. -/
theorem scanTrackNum_formatTrackNum (t c : UInt8) (rest : Bytes) (hc : isDigit c = false) :
    scanTrackNum (formatTrackNum t ++ c :: rest) = some t := by
  obtain ⟨hdigits, hne, -, hvalue⟩ := formatTrackNum_spec t
  obtain ⟨d, ds, hds⟩ := List.exists_cons_of_ne_nil hne
  have hd : isDigit d = true := hdigits d (by simp [hds])
  have hsign : scanSign ((formatTrackNum t ++ c :: rest).dropWhile isSpace) =
      (false, formatTrackNum t ++ c :: rest) := by
    rw [hds]
    exact scanSign_of_isDigit _ hd
  have htake : (formatTrackNum t ++ c :: rest).takeWhile isDigit = formatTrackNum t := by
    rw [List.takeWhile_append_of_pos hdigits]
    simp [hc]
  have hlt : ¬ 18446744073709551616 ≤ t.toNat := by
    have := t.toNat_lt
    omega
  simp [scanTrackNum, hsign, htake, hne, hvalue, hlt]

/-! ## File names -/

/-- The characters `sa_sanitize_filename` replaces. -/
def isInvalidChar (c : UInt8) : Bool := c < 0x20 || (ascii "/\\:*?\"<>|").contains c

/-- The characters it trims from both ends. -/
def isTrimmed (c : UInt8) : Bool := c = 0x20 || c = 0x2E

/-- `sa_sanitize_filename`. -/
def sanitizeFilename (filename : Bytes) (size : Nat) : Bytes :=
  if filename = [] then []
  else
    let replaced := filename.map fun c => if isInvalidChar c then 0x5F else c
    let trimmed := (replaced.dropWhile isTrimmed).rdropWhile isTrimmed
    if trimmed = [] then strlcpy (ascii "untitled") size else trimmed

/-- The three ways out of `sa_sanitize_filename`. -/
theorem sanitizeFilename_cases (filename : Bytes) (size : Nat) :
    (filename = [] ∧ sanitizeFilename filename size = []) ∨
    (filename ≠ [] ∧ sanitizeFilename filename size = strlcpy (ascii "untitled") size) ∨
    (filename ≠ [] ∧ sanitizeFilename filename size ≠ [] ∧
      sanitizeFilename filename size <:+:
        filename.map fun c => if isInvalidChar c then 0x5F else c) := by
  by_cases hnil : filename = []
  · left
    simp [hnil, sanitizeFilename]
  right
  let replaced := filename.map fun c => if isInvalidChar c then 0x5F else c
  let trimmed := (replaced.dropWhile isTrimmed).rdropWhile isTrimmed
  have heq : sanitizeFilename filename size =
      if trimmed = [] then strlcpy (ascii "untitled") size else trimmed := by
    rw [sanitizeFilename, if_neg hnil]
  by_cases htrim : trimmed = []
  · left
    exact ⟨hnil, by rw [heq, if_pos htrim]⟩
  · right
    rw [heq, if_neg htrim]
    have hinfix : trimmed <:+: replaced :=
      (List.rdropWhile_prefix _ _).isInfix.trans (List.dropWhile_suffix _).isInfix
    exact ⟨hnil, htrim, hinfix⟩

theorem slash_not_mem_sanitizeFilename (filename : Bytes) (size : Nat) :
    slash ∉ sanitizeFilename filename size := by
  rcases sanitizeFilename_cases filename size with ⟨-, h⟩ | ⟨-, h⟩ | ⟨-, -, hinfix⟩
  · simp [h]
  · intro hmem
    rw [h] at hmem
    exact absurd (List.mem_of_mem_take hmem) (by decide)
  · intro hmem
    obtain ⟨c, -, hc⟩ := List.mem_map.1 (List.IsInfix.subset hinfix hmem)
    split at hc
    · exact absurd hc (by decide)
    · next hvalid =>
      rw [hc] at hvalid
      exact hvalid (by decide)

theorem sanitizeFilename_ne_nil {filename : Bytes} {size : Nat} (h : filename ≠ [])
    (hsize : 1 < size) : sanitizeFilename filename size ≠ [] := by
  rcases sanitizeFilename_cases filename size with ⟨hnil, -⟩ | ⟨-, huntitled⟩ | ⟨-, hne, -⟩
  · exact absurd hnil h
  · intro hnil
    rw [huntitled, strlcpy, List.take_eq_nil_iff] at hnil
    rcases hnil with hzero | hempty
    · omega
    · exact absurd hempty (by decide)
  · exact hne

theorem sanitizeFilename_length_lt {filename : Bytes} {size : Nat} (h : filename.length < size) :
    (sanitizeFilename filename size).length < size := by
  rcases sanitizeFilename_cases filename size with ⟨-, hnil⟩ | ⟨-, huntitled⟩ | ⟨-, -, hinfix⟩
  · simp only [hnil, List.length_nil]
    omega
  · simp only [huntitled, strlcpy, List.length_take]
    omega
  · have hle := hinfix.length_le
    rw [List.length_map] at hle
    omega

end DsdNexus
