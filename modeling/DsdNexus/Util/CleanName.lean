import DsdNexus.Lib.Utf8
import DsdNexus.Util.Cstring

/-! # Names cleaned up

`sa_utf8_strlcpy` cuts a title to the room there is, `sa_extract_first_token` takes the first
of several names out of it, and `sa_sanitize_filename` makes a file name of the outcome.
-/

namespace DsdNexus

open Utf8

/-! ## Cutting between characters -/

/-- `(c & 0x80) == 0 || (c & 0xC0) == 0xC0`. -/
def isStartByte (c : UInt8) : Bool := c &&& 0x80 = 0 || c &&& 0xC0 = 0xC0

/-- The loop of `sa_utf8_strlcpy`: from `truncate_at` back to the start of a character. -/
def truncateAt (src : Bytes) : Nat → Nat
  | 0 => 0
  | n + 1 => if isStartByte (src.getD (n + 1) 0) then n + 1 else truncateAt src n

/-- `sa_utf8_strlcpy`; without any room nothing is written. -/
def utf8Strlcpy (src : Bytes) (maxLen : Nat) : Bytes :=
  if src.length < maxLen then src else src.take (truncateAt src (maxLen - 1))

private theorem isStartByte_table : ∀ n < 256,
    isStartByte (UInt8.ofNat n) = decide (n < 0x80 ∨ 0xC0 ≤ n) := by
  decide +kernel

theorem isStartByte_iff (c : UInt8) : isStartByte c = true ↔ Lead c := by
  have htable := isStartByte_table c.toNat c.toNat_lt
  rw [UInt8.ofNat_toNat] at htable
  rw [htable, decide_eq_true_iff]
  rfl

theorem truncateAt_le (src : Bytes) (n : Nat) : truncateAt src n ≤ n := by
  induction n with
  | zero => exact Nat.le_refl 0
  | succ n ih =>
    rw [truncateAt]
    split
    · exact Nat.le_refl _
    · exact Nat.le_succ_of_le ih

/-- The loop stops at a start, or at the front. -/
theorem truncateAt_starts (src : Bytes) (n : Nat) :
    truncateAt src n = 0 ∨ Lead (src.getD (truncateAt src n) 0) := by
  induction n with
  | zero => exact .inl rfl
  | succ n ih =>
    rw [truncateAt]
    split
    · next hstart => exact .inr ((isStartByte_iff _).1 hstart)
    · exact ih

/-- It passes no start. -/
theorem le_truncateAt {src : Bytes} {n p : Nat} (hp : p ≤ n) (h : Lead (src.getD p 0)) :
    p ≤ truncateAt src n := by
  induction n with
  | zero => exact hp
  | succ n ih =>
    rw [truncateAt]
    split
    · exact hp
    · next hstart =>
      have hne : p ≠ n + 1 := by
        rintro rfl
        exact hstart ((isStartByte_iff _).2 h)
      exact ih (by omega)

theorem utf8Strlcpy_length_lt (src : Bytes) {maxLen : Nat} (h : 0 < maxLen) :
    (utf8Strlcpy src maxLen).length < maxLen := by
  unfold utf8Strlcpy
  split
  · next hfits => exact hfits
  · have hle := truncateAt_le src (maxLen - 1)
    rw [List.length_take]
    omega

/-- What is kept of a text are its first characters. -/
theorem utf8Strlcpy_encode (text : List Char) (maxLen : Nat) :
    ∃ first rest, text = first ++ rest ∧ utf8Strlcpy (encode text) maxLen = encode first := by
  unfold utf8Strlcpy
  split
  · exact ⟨text, [], (List.append_nil text).symm, rfl⟩
  · rcases truncateAt_starts (encode text) (maxLen - 1) with hzero | hlead
    · exact ⟨[], text, rfl, by rw [hzero]; rfl⟩
    · apply take_encode
      intro b hb
      rwa [List.getD_eq_getElem?_getD, hb] at hlead

/-- With room for any one character, something is kept. -/
theorem utf8Strlcpy_ne_nil {src : Bytes} {maxLen : Nat} (hs : IsUtf8 src) (hne : src ≠ [])
    (hroom : 5 ≤ maxLen) : utf8Strlcpy src maxLen ≠ [] := by
  obtain ⟨text, rfl⟩ := hs
  cases text with
  | nil => exact absurd rfl hne
  | cons c text =>
    have hfour := encodeChar_length_le c
    have hone := encodeChar_length_pos c
    unfold utf8Strlcpy
    split
    · exact hne
    · next hlong =>
      -- The second character starts within the room, so the loop stops there at the latest.
      have hin : (String.utf8EncodeChar c).length < (encode (c :: text)).length := by omega
      have hstart : Lead ((encode (c :: text)).getD (String.utf8EncodeChar c).length 0) := by
        rw [List.getD_eq_getElem?_getD, List.getElem?_eq_getElem hin]
        exact lead_behind_first c (List.getElem?_eq_getElem hin)
      have hle : (String.utf8EncodeChar c).length ≤ truncateAt (encode (c :: text)) (maxLen - 1) :=
        le_truncateAt (by omega) hstart
      apply List.ne_nil_of_length_pos
      rw [List.length_take]
      omega

/-! ## The first of several names -/

def defaultDelimiters : Bytes := ascii ";/,"

/-- `strstr`: where the needle starts. -/
def strstrAt (needle : Bytes) : Bytes → Option Nat
  | [] => if needle = [] then some 0 else none
  | c :: rest =>
    if needle.isPrefixOf (c :: rest) then some 0 else (strstrAt needle rest).map (· + 1)

/-- Where the first token ends: at a delimiter, at a dash between spaces, or with the text. -/
def tokenEnd (src delimiters : Bytes) : Nat :=
  let finish := src.findIdx delimiters.contains
  match strstrAt (ascii " - ") src with
  | some dash => if dash < finish then dash else finish
  | none => finish

/-- `sa_extract_first_token`. -/
def extractFirstToken (src : Bytes) (maxLen : Nat) (delimiters : Option Bytes) : Bytes :=
  if src = [] then []
  else
    let copyLen := tokenEnd src (delimiters.getD defaultDelimiters)
    let copyLen := if maxLen ≤ copyLen then maxLen - 1 else copyLen
    (utf8Strlcpy src (copyLen + 1)).rdropWhile (· = 0x20)

/-- Wherever it is cut, the token is made of the first characters of the text. -/
theorem extractFirstToken_isCharPrefix {src : Bytes} (hs : IsUtf8 src) (maxLen : Nat)
    (delimiters : Option Bytes) : IsCharPrefix (extractFirstToken src maxLen delimiters) src := by
  obtain ⟨text, rfl⟩ := hs
  unfold extractFirstToken
  split
  · exact ⟨[], text, rfl, rfl⟩
  · have hspace : ∀ b : UInt8, decide (b = 0x20) = true → Ascii b := by
      intro b hb
      rw [of_decide_eq_true hb, Ascii]
      decide
    dsimp only
    generalize (if maxLen ≤ _ then maxLen - 1 else _) + 1 = room
    obtain ⟨copied, rest, rfl, hcopy⟩ := utf8Strlcpy_encode text room
    obtain ⟨first, spaces, rfl, hdrop⟩ := rdropWhile_encode hspace copied
    refine ⟨first, spaces ++ rest, by rw [List.append_assoc], ?_⟩
    rw [hcopy]
    exact hdrop

/-! ## File names -/

/-- What a file name made of a title is to be; the control characters are those below 0x20. -/
structure CleanName (name : Bytes) (size : Nat) : Prop where
  ne_nil : name ≠ []
  isUtf8 : IsUtf8 name
  length_lt : name.length < size
  no_control : ∀ c ∈ name, 0x20 ≤ c
  no_invalid : ∀ c ∈ name, c ∉ ascii "/\\:*?\"<>|"
  head : ∀ c ∈ name.head?, c ≠ 0x20 ∧ c ≠ 0x2E
  last : ∀ c ∈ name.getLast?, c ≠ 0x20 ∧ c ≠ 0x2E

theorem isInvalidChar_eq_false_iff (c : UInt8) :
    isInvalidChar c = false ↔ 0x20 ≤ c ∧ c ∉ ascii "/\\:*?\"<>|" := by
  rw [isInvalidChar, Bool.or_eq_false_iff, decide_eq_false_iff_not, UInt8.not_lt,
    ← Bool.not_eq_true, List.contains_iff_mem]

theorem isTrimmed_eq_false_iff (c : UInt8) : isTrimmed c = false ↔ c ≠ 0x20 ∧ c ≠ 0x2E := by
  rw [isTrimmed, Bool.or_eq_false_iff, decide_eq_false_iff_not, decide_eq_false_iff_not]

/-- What is replaced are characters of one byte. -/
theorem ascii_of_isInvalidChar {c : UInt8} (h : isInvalidChar c = true) : Ascii c := by
  rw [isInvalidChar, Bool.or_eq_true, decide_eq_true_iff, List.contains_iff_mem] at h
  rcases h with hlow | hmem
  · exact Nat.lt_trans (UInt8.lt_iff_toNat_lt.1 hlow) (by decide)
  · have hall : ∀ c ∈ ascii "/\\:*?\"<>|", c.toNat < 0x80 := by decide +kernel
    exact hall c hmem

theorem ascii_of_isTrimmed {c : UInt8} (h : isTrimmed c = true) : Ascii c := by
  rw [isTrimmed, Bool.or_eq_true, decide_eq_true_iff, decide_eq_true_iff] at h
  rcases h with rfl | rfl <;> rw [Ascii] <;> decide

/-- The character that is put in place of `c`. -/
theorem replaced_valid (c : UInt8) : isInvalidChar (if isInvalidChar c then 0x5F else c) = false := by
  cases hc : isInvalidChar c with
  | true =>
    rw [if_pos rfl]
    decide
  | false => exact hc

/-- Without replaced characters and with nothing to trim a name is left as it is. -/
theorem CleanName.sanitizeFilename {name : Bytes} {size : Nat} (h : CleanName name size) :
    sanitizeFilename name size = name := by
  have hmap : (name.map fun c => if isInvalidChar c then 0x5F else c) = name := by
    refine (List.map_congr_left fun c hc => ?_).trans (List.map_id _)
    rw [(isInvalidChar_eq_false_iff c).2 ⟨h.no_control c hc, h.no_invalid c hc⟩]
    rfl
  have hfront : name.dropWhile isTrimmed = name := by
    rw [List.dropWhile_eq_self_iff]
    intro hl
    rw [(isTrimmed_eq_false_iff _).2 (h.head _ (List.head?_eq_getElem? ▸ List.getElem?_eq_getElem hl))]
    exact Bool.false_ne_true
  have hback : name.rdropWhile isTrimmed = name := by
    rw [List.rdropWhile_eq_self_iff]
    intro hl
    rw [(isTrimmed_eq_false_iff _).2 (h.last _ (List.getLast?_eq_some_getLast hl))]
    exact Bool.false_ne_true
  simp only [DsdNexus.sanitizeFilename, if_neg h.ne_nil, hmap, hfront, hback]

/-- The default name. -/
theorem cleanName_untitled {size : Nat} (h : 9 ≤ size) :
    CleanName (strlcpy (ascii "untitled") size) size := by
  have hlength : (ascii "untitled").length = 8 := rfl
  rw [strlcpy_of_length_lt (by omega)]
  constructor
  · decide
  · exact ⟨"untitled".toList, by decide⟩
  · omega
  · decide +kernel
  · decide +kernel
  · decide +kernel
  · decide +kernel

/-- The name between its trimmed ends. -/
def trimmedName (filename : Bytes) : Bytes :=
  ((filename.map fun c => if isInvalidChar c then 0x5F else c).dropWhile isTrimmed).rdropWhile
    isTrimmed

theorem trimmedName_isUtf8 {filename : Bytes} (hs : IsUtf8 filename) :
    IsUtf8 (trimmedName filename) := by
  obtain ⟨text, rfl⟩ := hs
  have hmap : ∃ replaced, (encode text).map (fun c => if isInvalidChar c then 0x5F else c) =
      encode replaced := by
    refine map_encode (fun b hb => ?_) (fun b hb => ?_) text
    · exact if_neg fun hinvalid => hb (ascii_of_isInvalidChar hinvalid)
    · split
      · rw [Ascii]
        decide
      · exact hb
  obtain ⟨replaced, hmap⟩ := hmap
  obtain ⟨behind, hfront⟩ := dropWhile_encode (fun b => ascii_of_isTrimmed) replaced
  obtain ⟨between, -, -, hback⟩ := rdropWhile_encode (fun b => ascii_of_isTrimmed) behind
  exact ⟨between, by rw [trimmedName, hmap, hfront, hback]⟩

theorem trimmedName_length_le (filename : Bytes) :
    (trimmedName filename).length ≤ filename.length := by
  have hback := (List.rdropWhile_prefix isTrimmed
    ((filename.map fun c => if isInvalidChar c then 0x5F else c).dropWhile isTrimmed)).length_le
  have hfront := (List.dropWhile_suffix (l := filename.map fun c =>
    if isInvalidChar c then 0x5F else c) isTrimmed).length_le
  rw [List.length_map] at hfront
  exact hback.trans hfront

theorem trimmedName_valid {filename : Bytes} {c : UInt8} (hc : c ∈ trimmedName filename) :
    isInvalidChar c = false := by
  have hfront := (List.rdropWhile_prefix isTrimmed _).subset hc
  obtain ⟨b, -, rfl⟩ := List.mem_map.1 ((List.dropWhile_suffix isTrimmed).subset hfront)
  exact replaced_valid b

/-- Trimming the end leaves the first character where it is. -/
theorem trimmedName_head {filename : Bytes} {c : UInt8} (hc : c ∈ (trimmedName filename).head?) :
    isTrimmed c = false := by
  obtain ⟨spaces, hsplit⟩ := List.rdropWhile_prefix isTrimmed
    ((filename.map fun c => if isInvalidChar c then 0x5F else c).dropWhile isTrimmed)
  have hhead : (trimmedName filename ++ spaces).head? = some c := by
    rw [List.head?_append, Option.mem_def.1 hc]
    rfl
  have hfront := List.head?_dropWhile_not isTrimmed
    (filename.map fun c => if isInvalidChar c then 0x5F else c)
  rw [← hsplit, ← trimmedName, hhead] at hfront
  exact hfront

theorem trimmedName_last {filename : Bytes} {c : UInt8}
    (hc : c ∈ (trimmedName filename).getLast?) : isTrimmed c = false := by
  have hne : trimmedName filename ≠ [] := by
    rintro hnil
    rw [hnil] at hc
    cases hc
  rw [List.getLast?_eq_some_getLast hne, Option.mem_some] at hc
  rw [← hc, ← Bool.not_eq_true]
  exact List.rdropWhile_last_not _ _ hne

/-- What is left of a text between its trimmed ends is clean. -/
theorem cleanName_trimmed {filename : Bytes} {size : Nat} (hs : IsUtf8 filename)
    (hlength : filename.length < size) (hne : trimmedName filename ≠ []) :
    CleanName (trimmedName filename) size where
  ne_nil := hne
  isUtf8 := trimmedName_isUtf8 hs
  length_lt := (trimmedName_length_le filename).trans_lt hlength
  no_control c hc := ((isInvalidChar_eq_false_iff c).1 (trimmedName_valid hc)).1
  no_invalid c hc := ((isInvalidChar_eq_false_iff c).1 (trimmedName_valid hc)).2
  head c hc := (isTrimmed_eq_false_iff c).1 (trimmedName_head hc)
  last c hc := (isTrimmed_eq_false_iff c).1 (trimmedName_last hc)

/-- A text that fits in its buffer becomes a clean name. -/
theorem cleanName_sanitizeFilename {filename : Bytes} {size : Nat} (hs : IsUtf8 filename)
    (hne : filename ≠ []) (hlength : filename.length < size) (hsize : 9 ≤ size) :
    CleanName (sanitizeFilename filename size) size := by
  simp only [sanitizeFilename, if_neg hne]
  split
  · exact cleanName_untitled hsize
  · next htrim => exact cleanName_trimmed hs hlength htrim

/-! ## Titles and names of files -/

/-- A title cut to its room and cleaned up is a clean name, and stays one; the first of several
names is made of the first characters of the title. -/
theorem title_cleaned {s : Bytes} {n : Nat} (hs : IsUtf8 s) (hne : s ≠ []) (hn : 9 ≤ n) :
    CleanName (sanitizeFilename (utf8Strlcpy s n) n) n ∧
      sanitizeFilename (sanitizeFilename (utf8Strlcpy s n) n) n =
        sanitizeFilename (utf8Strlcpy s n) n ∧
      ∀ maxLen delimiters, 0 < maxLen → IsCharPrefix (extractFirstToken s maxLen delimiters) s := by
  have hcut : IsUtf8 (utf8Strlcpy s n) := by
    obtain ⟨text, rfl⟩ := hs
    obtain ⟨first, -, -, hfirst⟩ := utf8Strlcpy_encode text n
    exact ⟨first, hfirst⟩
  have hclean : CleanName (sanitizeFilename (utf8Strlcpy s n) n) n :=
    cleanName_sanitizeFilename hcut (utf8Strlcpy_ne_nil hs hne (by omega))
      (utf8Strlcpy_length_lt s (by omega)) hn
  exact ⟨hclean, hclean.sanitizeFilename,
    fun maxLen delimiters _ => extractFirstToken_isCharPrefix hs maxLen delimiters⟩

theorem title_cleaned_cut :
    CleanName (sanitizeFilename (utf8Strlcpy (encode " Träume / Zwölf".toList) 12) 12) 12 :=
  (title_cleaned ⟨_, rfl⟩ (by decide) (by decide)).1

/-- DEL is a control character too, and is kept. -/
theorem del_is_kept : ¬ ∀ (s : Bytes) (n : Nat), IsUtf8 s → s ≠ [] → 9 ≤ n →
    ∀ c ∈ sanitizeFilename (utf8Strlcpy s n) n, 0x20 ≤ c ∧ c ≠ 0x7F := by
  intro h
  have hdel : (0x7F : UInt8) ∈ sanitizeFilename (utf8Strlcpy [0x7F] 9) 9 := by decide
  exact (h [0x7F] 9 ⟨[Char.ofNat 0x7F], by decide⟩ (by decide) (by decide) _ hdel).2 rfl

end DsdNexus
