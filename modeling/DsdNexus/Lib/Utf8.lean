import Mathlib.Data.List.DropRight
import Mathlib.Tactic.Common

/-! # The bytes of a text

UTF-8 tells the first byte of a character from the others, and a character of one byte from
the bytes of all others. So a cut before a first byte is a cut between characters, and what is
done to the bytes below 0x80 alone is done to whole characters.
-/

namespace DsdNexus.Utf8

/-- The bytes of a text. -/
def encode (text : List Char) : List UInt8 := text.flatMap String.utf8EncodeChar

/-- The bytes are those of a text. -/
def IsUtf8 (bytes : List UInt8) : Prop := ∃ text, bytes = encode text

/-- The piece has the bytes of the first characters of the whole. -/
def IsCharPrefix (piece whole : List UInt8) : Prop :=
  ∃ first rest, whole = encode (first ++ rest) ∧ piece = encode first

/-- A byte a character may start with. -/
def Lead (b : UInt8) : Prop := b.toNat < 0x80 ∨ 0xC0 ≤ b.toNat

/-- A byte that is a character of its own. -/
def Ascii (b : UInt8) : Prop := b.toNat < 0x80

/-! ## One character -/

section Characters

variable (c : Char)

/-- Either a single byte below 0x80, or a first byte and up to three others. -/
theorem encodeChar_cases :
    (∃ b, Ascii b ∧ String.utf8EncodeChar c = [b]) ∨
      ∃ b tail, ¬ Ascii b ∧ Lead b ∧ tail ≠ [] ∧ (∀ t ∈ tail, ¬ Lead t) ∧
        String.utf8EncodeChar c = b :: tail := by
  have hlead : ∀ n base : Nat, 0xC0 ≤ base → base + n < 256 →
      ¬ Ascii (UInt8.ofNat (n + base)) ∧ Lead (UInt8.ofNat (n + base)) := by
    intro n base hbase hlt
    have hval : (UInt8.ofNat (n + base)).toNat = n + base := by
      rw [UInt8.toNat_ofNat']
      omega
    simp only [Ascii, Lead, hval]
    omega
  have htail : ∀ n : Nat, ¬ Lead (UInt8.ofNat (n % 0x40 + 0x80)) := by
    intro n
    have hval : (UInt8.ofNat (n % 0x40 + 0x80)).toNat = n % 0x40 + 0x80 := by
      rw [UInt8.toNat_ofNat']
      omega
    simp only [Lead, hval]
    omega
  fun_cases String.utf8EncodeChar c with
  | case1 v h =>
    have hval : (UInt8.ofNat v).toNat = v := by
      rw [UInt8.toNat_ofNat']
      omega
    exact .inl ⟨_, hval.trans_lt (by omega), rfl⟩
  | case2 v =>
    obtain ⟨hbyte, hfirst⟩ := hlead (v / 64 % 0x20) 0xC0 (by omega) (by omega)
    exact .inr ⟨_, _, hbyte, hfirst, List.cons_ne_nil _ _, by
      simp only [List.forall_mem_cons, htail, List.not_mem_nil, not_false_eq_true, true_and,
        false_implies, implies_true], rfl⟩
  | case3 v =>
    obtain ⟨hbyte, hfirst⟩ := hlead (v / 4096 % 0x10) 0xE0 (by omega) (by omega)
    exact .inr ⟨_, _, hbyte, hfirst, List.cons_ne_nil _ _, by
      simp only [List.forall_mem_cons, htail, List.not_mem_nil, not_false_eq_true, true_and,
        false_implies, implies_true], rfl⟩
  | case4 v =>
    obtain ⟨hbyte, hfirst⟩ := hlead (v / 262144 % 0x08) 0xF0 (by omega) (by omega)
    exact .inr ⟨_, _, hbyte, hfirst, List.cons_ne_nil _ _, by
      simp only [List.forall_mem_cons, htail, List.not_mem_nil, not_false_eq_true, true_and,
        false_implies, implies_true], rfl⟩

theorem encodeChar_length_le : (String.utf8EncodeChar c).length ≤ 4 := by
  rw [String.length_utf8EncodeChar]
  exact c.utf8Size_le_four

theorem encodeChar_length_pos : 0 < (String.utf8EncodeChar c).length :=
  List.length_pos_iff.2 String.utf8EncodeChar_ne_nil

/-- Its first byte is the only one a character may start with. -/
theorem encodeChar_lead_iff {i : Nat} {b : UInt8} (h : (String.utf8EncodeChar c)[i]? = some b) :
    Lead b ↔ i = 0 := by
  rcases encodeChar_cases c with ⟨a, ha, heq⟩ | ⟨a, tail, -, hfirst, -, htail, heq⟩
  · rw [heq] at h
    obtain ⟨rfl, rfl⟩ : i = 0 ∧ a = b := by
      cases i with
      | zero => exact ⟨rfl, Option.some.inj h⟩
      | succ i => simp at h
    exact iff_of_true (.inl ha) rfl
  · rw [heq] at h
    cases i with
    | zero => exact iff_of_true (Option.some.inj h ▸ hfirst) rfl
    | succ i => exact iff_of_false (htail b (List.mem_of_getElem? h)) (Nat.succ_ne_zero i)

/-- A byte below 0x80 is the whole of a character. -/
theorem encodeChar_ofNat {b : UInt8} (h : Ascii b) :
    String.utf8EncodeChar (Char.ofNat b.toNat) = [b] := by
  have hvalid : b.toNat.isValidChar := .inl (Nat.lt_trans h (by decide))
  have hval : (Char.ofNat b.toNat).val.toNat = b.toNat := by
    rw [Char.ofNat, dif_pos hvalid]
    rfl
  rw [String.utf8EncodeChar, hval, if_pos (Nat.le_of_lt_succ h), UInt8.ofNat_toNat]

end Characters

/-! ## A whole text -/

section Texts

variable {text : List Char}

theorem encode_cons (c : Char) (text : List Char) :
    encode (c :: text) = String.utf8EncodeChar c ++ encode text := List.flatMap_cons

theorem encode_append (first rest : List Char) :
    encode (first ++ rest) = encode first ++ encode rest := List.flatMap_append

theorem encode_eq_nil_iff : encode text = [] ↔ text = [] := by
  cases text with
  | nil => exact iff_of_true rfl rfl
  | cons c rest =>
    refine iff_of_false ?_ (List.cons_ne_nil c rest)
    rw [encode_cons]
    exact List.append_ne_nil_of_left_ne_nil String.utf8EncodeChar_ne_nil _

/-- A cut before a first byte, or at the end, is a cut between characters. -/
theorem take_encode {p : Nat} (h : ∀ b, (encode text)[p]? = some b → Lead b) :
    ∃ first rest, text = first ++ rest ∧ (encode text).take p = encode first := by
  induction text generalizing p with
  | nil => exact ⟨[], [], rfl, List.take_nil⟩
  | cons c text ih =>
    rw [encode_cons] at h ⊢
    rcases Nat.lt_or_ge p (String.utf8EncodeChar c).length with hlt | hle
    · -- Inside the first character only its start is a first byte.
      rw [List.getElem?_append_left hlt] at h
      have hzero : p = 0 :=
        (encodeChar_lead_iff c (List.getElem?_eq_getElem hlt)).1
          (h _ (List.getElem?_eq_getElem hlt))
      exact ⟨[], c :: text, rfl, by rw [hzero, List.take_zero]; rfl⟩
    · rw [List.getElem?_append_right hle] at h
      obtain ⟨first, rest, rfl, htake⟩ := ih h
      refine ⟨c :: first, rest, rfl, ?_⟩
      rw [List.take_append, List.take_of_length_le hle, htake, encode_cons]

/-- Behind the first character stands the start of the next, or nothing. -/
theorem lead_behind_first (c : Char) {b : UInt8}
    (h : (encode (c :: text))[(String.utf8EncodeChar c).length]? = some b) : Lead b := by
  rw [encode_cons, List.getElem?_append_right (Nat.le_refl _), Nat.sub_self] at h
  cases text with
  | nil => cases h
  | cons d rest =>
    rw [encode_cons, List.getElem?_append_left (encodeChar_length_pos d)] at h
    exact (encodeChar_lead_iff d h).2 rfl

/-! ## What is done to bytes below 0x80 -/

variable {p : UInt8 → Bool}

/-- What is dropped from the front are whole characters. -/
theorem dropWhile_encode (hp : ∀ b, p b = true → Ascii b) (text : List Char) :
    ∃ rest, (encode text).dropWhile p = encode rest := by
  induction text with
  | nil => exact ⟨[], rfl⟩
  | cons c text ih =>
    rw [encode_cons]
    rcases encodeChar_cases c with ⟨b, -, heq⟩ | ⟨b, tail, hb, -, -, -, heq⟩
    · rw [heq, List.singleton_append, List.dropWhile_cons]
      split
      · exact ih
      · exact ⟨c :: text, by rw [encode_cons, heq, List.singleton_append]⟩
    · refine ⟨c :: text, ?_⟩
      rw [heq, List.cons_append, List.dropWhile_cons_of_neg fun h => hb (hp b h), encode_cons, heq,
        List.cons_append]

/-- What is dropped from the end are whole characters. -/
theorem rdropWhile_encode (hp : ∀ b, p b = true → Ascii b) (text : List Char) :
    ∃ first rest, text = first ++ rest ∧ (encode text).rdropWhile p = encode first := by
  induction text using List.reverseRecOn with
  | nil => exact ⟨[], [], rfl, List.rdropWhile_nil p⟩
  | append_singleton text c ih =>
    have hwhole : encode (text ++ [c]) = encode text ++ String.utf8EncodeChar c := by
      rw [encode_append, encode_cons]
      exact congrArg _ (List.append_nil _)
    rcases encodeChar_cases c with ⟨b, -, heq⟩ | ⟨b, tail, -, -, hne, htail, heq⟩
    · rw [hwhole, heq, List.rdropWhile_concat]
      split
      · obtain ⟨first, rest, rfl, hdrop⟩ := ih
        exact ⟨first, rest ++ [c], List.append_assoc _ _ _, hdrop⟩
      · exact ⟨text ++ [c], [], (List.append_nil _).symm, by rw [hwhole, heq]⟩
    · refine ⟨text ++ [c], [], (List.append_nil _).symm, ?_⟩
      obtain ⟨middle, last, rfl⟩ := (List.eq_nil_or_concat' tail).resolve_left hne
      have hlast : ¬ p last = true := fun h =>
        htail last (List.mem_append_right _ List.mem_cons_self) (.inl (hp last h))
      rw [hwhole, heq, ← List.cons_append, ← List.append_assoc,
        List.rdropWhile_concat_neg _ _ _ hlast]

/-- A byte that is replaced gives way to another single byte. -/
theorem map_encode {f : UInt8 → UInt8} (hf : ∀ b, ¬ Ascii b → f b = b)
    (hascii : ∀ b, Ascii b → Ascii (f b)) (text : List Char) :
    ∃ text', (encode text).map f = encode text' := by
  induction text with
  | nil => exact ⟨[], rfl⟩
  | cons c text ih =>
    obtain ⟨text', ih⟩ := ih
    rw [encode_cons, List.map_append, ih]
    rcases encodeChar_cases c with ⟨b, hb, heq⟩ | ⟨b, tail, hb, -, -, htail, heq⟩
    · refine ⟨Char.ofNat (f b).toNat :: text', ?_⟩
      rw [encode_cons, encodeChar_ofNat (hascii b hb), heq, List.map_singleton]
    · refine ⟨c :: text', ?_⟩
      have hsame : (String.utf8EncodeChar c).map f = String.utf8EncodeChar c := by
        rw [heq]
        refine (List.map_congr_left fun t ht => ?_).trans (List.map_id _)
        rcases List.mem_cons.1 ht with rfl | ht
        · exact hf t hb
        · exact hf t fun h => htail t ht (.inl h)
      rw [hsame, encode_cons]

end Texts

end DsdNexus.Utf8
