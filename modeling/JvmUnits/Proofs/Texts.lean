import JvmUnits.ClassFile.ModifiedUtf8
import Mathlib.Data.List.Basic

/-!
# Texts in bytes

Texts that are written as UTF-8 or as modified UTF-8 are read back as they were (`ModifiedUtf8.decode_encode`). A text that the
two encodings write differently has a null character or one above U+FFFF, and at the first of these its modified form is no
UTF-8; so that bytes are tried as UTF-8 first does no harm.
-/

namespace JvmUnits

/-! ## Reading character by character -/

/-- Bytes that belong to the last character are passed over. -/
theorem decodeBy_skip (step : Bytes → Option (Char × Nat)) (read : List Char) (passed rest : Bytes) :
    decodeBy step passed.length read (passed ++ rest) = decodeBy step 0 read rest := by
  induction passed with
  | nil => rfl
  | cons byte passed ih => exact ih

/-- A character at the front is read when the step knows it by its bytes. -/
theorem decodeBy_append {step : Bytes → Option (Char × Nat)} {bytes rest : Bytes} {c : Char}
    (known : step (bytes ++ rest) = some (c, bytes.length)) (some : bytes ≠ []) (read : List Char) :
    decodeBy step 0 read (bytes ++ rest) = decodeBy step 0 (c :: read) rest := by
  cases bytes with
  | nil => exact absurd rfl some
  | cons byte passed =>
    rw [List.cons_append] at known ⊢
    rw [decodeBy, known]
    exact decodeBy_skip step (c :: read) passed rest

/-- When the step knows every character by its bytes, characters are read one after the other. -/
theorem decodeBy_flatMap {step : Bytes → Option (Char × Nat)} {encode : Char → Bytes}
    (known : ∀ c rest, step (encode c ++ rest) = some (c, (encode c).length)) (some : ∀ c, encode c ≠ [])
    (chars read : List Char) : decodeBy step 0 read (chars.flatMap encode) = .some (read.reverse ++ chars) := by
  induction chars generalizing read with
  | nil => simp [decodeBy]
  | cons c chars ih =>
    rw [List.flatMap_cons, decodeBy_append (known c _) (some c), ih, List.reverse_cons, List.append_assoc,
      List.singleton_append]

namespace Utf8

/-- The code point of a character is no surrogate and at most U+10FFFF. -/
theorem toNat_valid (c : Char) : c.toNat < 0xD800 ∨ (0xDFFF < c.toNat ∧ c.toNat < 0x110000) := c.valid

/-! ## Forms of one to four bytes -/

variable {n : Nat}

/-- A code below 128 is one byte. -/
theorem form1_ofNat (small : n ≤ 0x7F) : UInt8.ofNat n < 0x80 ∧ (UInt8.ofNat n).toNat = n := by
  simp only [UInt8.lt_iff_toNat_lt, UInt8.toNat_ofNat', UInt8.reduceToNat]
  omega

/-- A code of up to eleven bits is divided over two bytes, and put together again. -/
theorem form2_ofNat (large : 0x7F < n) (small : n ≤ 0x7FF) :
    isForm2 (UInt8.ofNat (n / 64 % 32 + 192)) (UInt8.ofNat (n % 64 + 128)) = true ∧
      code2 (UInt8.ofNat (n / 64 % 32 + 192)) (UInt8.ofNat (n % 64 + 128)) = n := by
  simp only [isForm2, isTail, code2, Bool.and_eq_true, decide_eq_true_eq, UInt8.le_iff_toNat_le, UInt8.toNat_ofNat',
    UInt8.reduceToNat]
  omega

/-- A code of up to sixteen bits that is no surrogate is divided over three bytes. -/
theorem form3_ofNat (large : 0x7FF < n) (small : n ≤ 0xFFFF) (valid : n < 0xD800 ∨ 0xDFFF < n) :
    isForm3 (UInt8.ofNat (n / 4096 % 16 + 224)) (UInt8.ofNat (n / 64 % 64 + 128)) (UInt8.ofNat (n % 64 + 128)) = true ∧
      code3 (UInt8.ofNat (n / 4096 % 16 + 224)) (UInt8.ofNat (n / 64 % 64 + 128)) (UInt8.ofNat (n % 64 + 128)) = n := by
  simp only [isForm3, isTail, code3, Bool.and_eq_true, Bool.or_eq_true, bne_iff_ne, ne_eq, decide_eq_true_eq,
    UInt8.le_iff_toNat_le, ← UInt8.toNat_inj, UInt8.toNat_ofNat', UInt8.reduceToNat]
  omega

/-- A code of up to twenty-one bits is divided over four bytes. -/
theorem form4_ofNat (large : 0xFFFF < n) (small : n < 0x110000) :
    isForm4 (UInt8.ofNat (n / 262144 % 8 + 240)) (UInt8.ofNat (n / 4096 % 64 + 128)) (UInt8.ofNat (n / 64 % 64 + 128))
        (UInt8.ofNat (n % 64 + 128)) = true ∧
      code4 (UInt8.ofNat (n / 262144 % 8 + 240)) (UInt8.ofNat (n / 4096 % 64 + 128)) (UInt8.ofNat (n / 64 % 64 + 128))
        (UInt8.ofNat (n % 64 + 128)) = n := by
  simp only [isForm4, isTail, code4, Bool.and_eq_true, Bool.or_eq_true, bne_iff_ne, ne_eq, decide_eq_true_eq,
    UInt8.le_iff_toNat_le, ← UInt8.toNat_inj, UInt8.toNat_ofNat', UInt8.reduceToNat]
  omega

variable {a b c d : UInt8}

/-- The forms are told apart by their first byte. -/
theorem apart_of_form2 (form : isForm2 a b = true) : ¬ a < 0x80 := by
  simp only [isForm2, Bool.and_eq_true, decide_eq_true_eq, UInt8.le_iff_toNat_le, UInt8.lt_iff_toNat_lt,
    UInt8.reduceToNat] at form ⊢
  omega

/-- Three bytes of one character start with neither one nor two bytes of another. -/
theorem apart_of_form3 (form : isForm3 a b c = true) : ¬ a < 0x80 ∧ isForm2 a b = false := by
  simp only [isForm3, isForm2, Bool.and_eq_true, Bool.and_eq_false_iff, decide_eq_true_eq, decide_eq_false_iff_not,
    UInt8.le_iff_toNat_le, UInt8.lt_iff_toNat_lt, UInt8.reduceToNat] at form ⊢
  omega

/-- Four bytes of one character start with none of the shorter forms. -/
theorem apart_of_form4 (form : isForm4 a b c d = true) : ¬ a < 0x80 ∧ isForm2 a b = false ∧ isForm3 a b c = false := by
  simp only [isForm4, isForm3, isForm2, Bool.and_eq_true, Bool.and_eq_false_iff, decide_eq_true_eq,
    decide_eq_false_iff_not, UInt8.le_iff_toNat_le, UInt8.lt_iff_toNat_lt, UInt8.reduceToNat] at form ⊢
  omega

/-- Two bytes in form are one character; so are three and four. -/
theorem step_of_form2 (form : isForm2 a b = true) (rest : Bytes) :
    step (a :: b :: rest) = some (Char.ofNat (code2 a b), 2) := by
  simp only [step, apart_of_form2 form, form, if_true, if_false]

theorem step_of_form3 (form : isForm3 a b c = true) (rest : Bytes) :
    step (a :: b :: c :: rest) = some (Char.ofNat (code3 a b c), 3) := by
  obtain ⟨large, two⟩ := apart_of_form3 form
  simp only [step, large, two, form, if_true, if_false, Bool.false_eq_true]

theorem step_of_form4 (form : isForm4 a b c d = true) (rest : Bytes) :
    step (a :: b :: c :: d :: rest) = some (Char.ofNat (code4 a b c d), 4) := by
  obtain ⟨large, two, three⟩ := apart_of_form4 form
  simp only [step, large, two, three, form, if_true, if_false, Bool.false_eq_true]

/-- A character is written in one of the four forms, and the form stands for its code point. -/
theorem encodeChar_cases (c : Char) :
    (∃ a, String.utf8EncodeChar c = [a] ∧ a < 0x80 ∧ a.toNat = c.toNat) ∨
      (∃ a b, String.utf8EncodeChar c = [a, b] ∧ isForm2 a b = true ∧ code2 a b = c.toNat) ∨
      (∃ a b d, String.utf8EncodeChar c = [a, b, d] ∧ isForm3 a b d = true ∧ code3 a b d = c.toNat) ∨
      ∃ a b d e, String.utf8EncodeChar c = [a, b, d, e] ∧ isForm4 a b d e = true ∧ code4 a b d e = c.toNat ∧
        0xFFFF < c.toNat := by
  have valid := toNat_valid c
  generalize number : c.toNat = n at valid
  have spelled : c.val.toNat = n := number
  unfold String.utf8EncodeChar
  simp only [spelled]
  split
  · rename_i one
    obtain ⟨form, same⟩ := form1_ofNat one
    exact .inl ⟨_, rfl, form, same⟩
  · rename_i large
    split
    · rename_i two
      obtain ⟨form, same⟩ := form2_ofNat (Nat.lt_of_not_le large) two
      exact .inr (.inl ⟨_, _, rfl, form, same⟩)
    · rename_i large
      split
      · rename_i three
        obtain ⟨form, same⟩ := form3_ofNat (Nat.lt_of_not_le large) three (valid.imp_right And.left)
        exact .inr (.inr (.inl ⟨_, _, _, rfl, form, same⟩))
      · rename_i large
        obtain ⟨form, same⟩ := form4_ofNat (Nat.lt_of_not_le large) (by omega)
        exact .inr (.inr (.inr ⟨_, _, _, _, rfl, form, same, Nat.lt_of_not_le large⟩))

/-- Every character takes at least one byte. -/
theorem encodeChar_ne_nil (c : Char) : String.utf8EncodeChar c ≠ [] := by
  rcases encodeChar_cases c with ⟨a, written, -⟩ | ⟨a, b, written, -⟩ | ⟨a, b, d, written, -⟩ | ⟨a, b, d, e, written, -⟩ <;>
    exact written ▸ List.cons_ne_nil _ _

/-- A character in UTF-8 is read as that character. -/
theorem step_encodeChar (c : Char) (rest : Bytes) :
    step (String.utf8EncodeChar c ++ rest) = some (c, (String.utf8EncodeChar c).length) := by
  rcases encodeChar_cases c with ⟨a, written, form, same⟩ | ⟨a, b, written, form, same⟩ | ⟨a, b, d, written, form, same⟩ |
    ⟨a, b, d, e, written, form, same, -⟩
  · simp [written, step, form, same]
  · simp [written, step_of_form2 form, same]
  · simp [written, step_of_form3 form, same]
  · simp [written, step_of_form4 form, same]

end Utf8

namespace ModifiedUtf8

open Utf8

/-- A character in modified UTF-8: the null character takes two bytes, and a character above U+FFFF is written as a high and a
low surrogate of three bytes each. -/
def encodeChar (c : Char) : Bytes :=
  if c.toNat = 0 then [0xC0, 0x80]
  else if c.toNat ≤ 0xFFFF then String.utf8EncodeChar c
  else
    let above := c.toNat - 0x10000
    [0xED, UInt8.ofNat (above / 0x10000 + 0xA0), UInt8.ofNat (above / 0x400 % 0x40 + 0x80),
      0xED, UInt8.ofNat (above / 0x40 % 0x10 + 0xB0), UInt8.ofNat (above % 0x40 + 0x80)]

/-- A text in modified UTF-8. -/
def encode (text : String) : Bytes := text.toList.flatMap encodeChar

/-- A character that is written in the same way in both encodings. -/
def IsShared (c : Char) : Prop := c.toNat ≠ 0 ∧ c.toNat ≤ 0xFFFF

/-- A character that both forms share has the same bytes in both. -/
theorem encodeChar_of_isShared {c : Char} (shared : IsShared c) : encodeChar c = String.utf8EncodeChar c := by
  rw [encodeChar, if_neg shared.1, if_pos shared.2]

/-- A pair of surrogates is read as the character above U+FFFF that it writes. -/
theorem pair_ofNat {n : Nat} (large : 0xFFFF < n) (small : n < 0x110000) :
    isPair 0xED (UInt8.ofNat ((n - 0x10000) / 0x10000 + 0xA0)) (UInt8.ofNat ((n - 0x10000) / 0x400 % 0x40 + 0x80)) 0xED
        (UInt8.ofNat ((n - 0x10000) / 0x40 % 0x10 + 0xB0)) (UInt8.ofNat ((n - 0x10000) % 0x40 + 0x80)) = true ∧
      pairCode (UInt8.ofNat ((n - 0x10000) / 0x10000 + 0xA0)) (UInt8.ofNat ((n - 0x10000) / 0x400 % 0x40 + 0x80))
        (UInt8.ofNat ((n - 0x10000) / 0x40 % 0x10 + 0xB0)) (UInt8.ofNat ((n - 0x10000) % 0x40 + 0x80)) = n := by
  simp only [isPair, isTail, pairCode, Bool.and_eq_true, decide_eq_true_eq, beq_self_eq_true, true_and, and_true,
    UInt8.le_iff_toNat_le, UInt8.toNat_ofNat', UInt8.reduceToNat]
  omega

/-- A character that the encodings write differently is the null character or a pair of surrogates. -/
theorem encodeChar_of_not_isShared {char : Char} (own : ¬ IsShared char) :
    (encodeChar char = [0xC0, 0x80] ∧ char.toNat = 0) ∨
      ∃ b c e f, encodeChar char = [0xED, b, c, 0xED, e, f] ∧ isPair 0xED b c 0xED e f = true ∧
        pairCode b c e f = char.toNat := by
  have valid := toNat_valid char
  unfold encodeChar
  split
  · rename_i null
    exact .inl ⟨rfl, null⟩
  · rename_i some
    rw [if_neg (fun small => own ⟨some, small⟩)]
    have large : 0xFFFF < char.toNat := Nat.lt_of_not_le fun small => own ⟨some, small⟩
    obtain ⟨pair, same⟩ := pair_ofNat large (by omega)
    exact .inr ⟨_, _, _, _, rfl, pair, same⟩

variable {a b c d e f : UInt8}

/-- A pair is told apart from the forms of one to three bytes, and it is no form of four. -/
theorem apart_of_pair (pair : isPair a b c d e f = true) : a = 0xED ∧ isForm3 a b c = false := by
  simp only [isPair, isForm3, Bool.and_eq_true, Bool.and_eq_false_iff, Bool.or_eq_false_iff, bne_eq_false_iff_eq, beq_iff_eq,
    decide_eq_true_eq, decide_eq_false_iff_not, UInt8.le_iff_toNat_le, ← UInt8.toNat_inj, UInt8.reduceToNat] at pair ⊢
  omega

theorem step_of_form2 (form : isForm2 a b = true) (rest : Bytes) :
    step (a :: b :: rest) = some (Char.ofNat (code2 a b), 2) := by
  have first : a ≠ 0 ∧ a ≠ 0xC0 := by
    simp only [isForm2, Bool.and_eq_true, decide_eq_true_eq, UInt8.le_iff_toNat_le, ne_eq, ← UInt8.toNat_inj,
      UInt8.reduceToNat] at form ⊢
    omega
  simp [step, first, apart_of_form2 form, form]

theorem step_of_form3 (form : isForm3 a b c = true) (rest : Bytes) :
    step (a :: b :: c :: rest) = some (Char.ofNat (code3 a b c), 3) := by
  have first : a ≠ 0 ∧ a ≠ 0xC0 := by
    simp only [isForm3, Bool.and_eq_true, decide_eq_true_eq, UInt8.le_iff_toNat_le, ne_eq, ← UInt8.toNat_inj,
      UInt8.reduceToNat] at form ⊢
    omega
  simp [step, first, apart_of_form3 form, form]

/-- A pair of surrogates is one character. -/
theorem step_of_pair (pair : isPair a b c d e f = true) (rest : Bytes) :
    step (a :: b :: c :: d :: e :: f :: rest) = some (Char.ofNat (pairCode b c e f), 6) := by
  obtain ⟨rfl, three⟩ := apart_of_pair pair
  simp [step, three, pairStep, pair, isForm2]

/-- A pair of surrogates is refused in the plain form. -/
theorem utf8Step_of_pair (pair : isPair a b c d e f = true) (rest : Bytes) :
    Utf8.step (a :: b :: c :: d :: e :: f :: rest) = none := by
  obtain ⟨rfl, three⟩ := apart_of_pair pair
  simp [Utf8.step, three, isForm2, isForm4]

/-- A character in modified UTF-8 is read as that character. -/
theorem step_encodeChar (c : Char) (rest : Bytes) :
    step (encodeChar c ++ rest) = some (c, (encodeChar c).length) := by
  by_cases shared : IsShared c
  · rw [encodeChar_of_isShared shared]
    rcases encodeChar_cases c with ⟨a, written, form, same⟩ | ⟨a, b, written, form, same⟩ |
      ⟨a, b, d, written, form, same⟩ | ⟨a, b, d, e, written, form, same, large⟩
    · have first : a ≠ 0 := by
        rintro rfl
        exact shared.1 same.symm
      simp [written, step, first, form, same]
    · simp [written, step_of_form2 form, same]
    · simp [written, step_of_form3 form, same]
    · exact absurd shared.2 (Nat.not_le_of_lt large)
  · rcases encodeChar_of_not_isShared shared with ⟨written, null⟩ | ⟨b, d, e, f, written, pair, same⟩
    · have whole := Char.ofNat_toNat c
      rw [null] at whole
      rw [written, ← whole]
      rfl
    · simp [written, step_of_pair pair, same]

theorem encodeChar_ne_nil (c : Char) : encodeChar c ≠ [] := by
  unfold encodeChar
  split
  · exact List.cons_ne_nil _ _
  · split
    · exact Utf8.encodeChar_ne_nil c
    · exact List.cons_ne_nil _ _

/-- Where a character is not written in the same way in both encodings, its modified form is no UTF-8. -/
theorem utf8Step_encodeChar {c : Char} (own : ¬ IsShared c) (rest : Bytes) :
    Utf8.step (encodeChar c ++ rest) = none := by
  rcases encodeChar_of_not_isShared own with ⟨written, -⟩ | ⟨b, d, e, f, written, pair, -⟩
  · rw [written]
    -- the first byte starts no form, but the step looks for further bytes before it gives up
    rcases rest with _ | ⟨third, _ | ⟨fourth, rest⟩⟩ <;> rfl
  · rw [written]
    exact utf8Step_of_pair pair rest

/-- Read as UTF-8, modified UTF-8 gives its text or is refused, at the first character that the two write differently. -/
theorem utf8_encode (chars read : List Char) :
    decodeBy Utf8.step 0 read (chars.flatMap encodeChar) = some (read.reverse ++ chars) ∨
      decodeBy Utf8.step 0 read (chars.flatMap encodeChar) = none := by
  induction chars generalizing read with
  | nil => exact .inl (by simp [decodeBy])
  | cons c chars ih =>
    rw [List.flatMap_cons]
    by_cases shared : IsShared c
    · rw [encodeChar_of_isShared shared, decodeBy_append (Utf8.step_encodeChar c _) (Utf8.encodeChar_ne_nil c)]
      simpa using ih (c :: read)
    · have refused := utf8Step_encodeChar shared (chars.flatMap encodeChar)
      cases written : encodeChar c with
      | nil => exact absurd written (encodeChar_ne_nil c)
      | cons byte bytes =>
        rw [written, List.cons_append] at refused
        rw [List.cons_append, decodeBy, refused]
        exact .inr rfl

/-- Text in modified UTF-8 is read back. -/
theorem decode_encode (text : String) : decode (encode text) = text := by
  have own := decodeBy_flatMap step_encodeChar encodeChar_ne_nil text.toList []
  rcases utf8_encode text.toList [] with read | refused
  · rw [decode, encode, read]
    exact String.ofList_toList
  · rw [decode, encode, refused, own]
    exact String.ofList_toList

/-- Text in plain UTF-8 is read back. -/
theorem decode_utf8 (text : String) : decode (Utf8.encode text) = text := by
  rw [decode, Utf8.encode, decodeBy_flatMap Utf8.step_encodeChar Utf8.encodeChar_ne_nil]
  exact String.ofList_toList

end ModifiedUtf8

end JvmUnits
