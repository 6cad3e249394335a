import JvmUnits.Text.Utf8

/-!
# Text in class files

Class files write text in a modified UTF-8: the null character takes two bytes, and a character above U+FFFF is written as two
surrogates of three bytes each. A reader meets plain UTF-8 as well, and bytes that are neither. So the bytes are tried as
UTF-8 first, then as modified UTF-8; what is neither is read leniently, with `?` for what cannot be read.
-/

namespace JvmUnits

namespace ModifiedUtf8

open Utf8

/-- Six bytes that write a character above U+FFFF as a high and a low surrogate. -/
def isPair (a b c d e f : UInt8) : Bool :=
  a == 0xED && 0xA0 ≤ b && b ≤ 0xAF && isTail c && d == 0xED && 0xB0 ≤ e && e ≤ 0xBF && isTail f

/-- The code point of a pair of surrogates. -/
def pairCode (b c e f : UInt8) : Nat :=
  0x10000 + (b.toNat % 0x10) * 0x10000 + (c.toNat % 0x40) * 0x400 + (e.toNat % 0x10) * 0x40 + f.toNat % 0x40

/-- The character of a pair of surrogates at the start of some bytes, and its size. -/
def pairStep : Bytes → Option (Char × Nat)
  | a :: b :: c :: d :: e :: f :: _ =>
    if isPair a b c d e f then some (Char.ofNat (pairCode b c e f), 6) else none
  | _ => none

/-- The character at the start of some bytes in modified UTF-8, and its size. A single null byte, a form of four bytes and a
lone surrogate are refused. -/
def step (bytes : Bytes) : Option (Char × Nat) :=
  match bytes with
  | [] => none
  | a :: after =>
    if a == 0 then none
    else if a < 0x80 then some (Char.ofNat a.toNat, 1)
    else match after with
      | [] => none
      | b :: after2 =>
        if a == 0xC0 && b == 0x80 then some (Char.ofNat 0, 2)
        else if isForm2 a b then some (Char.ofNat (code2 a b), 2)
        else match after2 with
          | [] => none
          | c :: _ => if isForm3 a b c then some (Char.ofNat (code3 a b c), 3) else pairStep bytes

/-- What stands for bytes that cannot be read. -/
def replacement : Char := '?'

/-- A code point as a character; a surrogate has none and is replaced. -/
def lenientChar (code : Nat) : Char := if 0xD800 ≤ code && code ≤ 0xDFFF then replacement else Char.ofNat code

/-- The character at the start of bytes of two or three, read without regard to overlong forms, and its size. -/
def lenientForm : Bytes → Char × Nat
  | a :: b :: c :: _ =>
    if 0xE0 ≤ a && a ≤ 0xEF && isTail b then
      if isTail c then (lenientChar (code3 a b c), 3) else (replacement, 2)
    else if 0xC0 ≤ a && a ≤ 0xDF && isTail b then (Char.ofNat (code2 a b), 2)
    else (if a < 0x80 then Char.ofNat a.toNat else replacement, 1)
  | [a, b] =>
    if 0xE0 ≤ a && a ≤ 0xEF && isTail b then (replacement, 2)
    else if 0xC0 ≤ a && a ≤ 0xDF && isTail b then (Char.ofNat (code2 a b), 2)
    else (if a < 0x80 then Char.ofNat a.toNat else replacement, 1)
  | [a] => (if a < 0x80 then Char.ofNat a.toNat else replacement, 1)
  | [] => (replacement, 1)

/-- The character at the start of some bytes, read leniently, and its size. -/
def lenientStep (bytes : Bytes) : Option (Char × Nat) :=
  match pairStep bytes with
  | some found => some found
  | none => some (lenientForm bytes)

/-- The text of the bytes of a class file. -/
def decode (bytes : Bytes) : String :=
  match decodeBy Utf8.step 0 [] bytes with
  | some text => String.ofList text
  | none =>
    match decodeBy step 0 [] bytes with
    | some text => String.ofList text
    | none => String.ofList ((decodeBy lenientStep 0 [] bytes).getD [])

end ModifiedUtf8

end JvmUnits
