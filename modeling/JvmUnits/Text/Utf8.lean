import JvmUnits.Bytes

/-!
# UTF-8

Reading and writing text as UTF-8 bytes. Reading refuses what is not well formed: overlong forms, surrogates, code points
above U+10FFFF and stray continuation bytes.

A character encoding is given by its step: the character at the start of some bytes and the number of bytes that it takes.
`decodeBy` reads a whole run with a step, and serves every encoding.
-/

namespace JvmUnits

/-- Reads bytes character by character. The number counts the bytes of the last character that are still to be passed over;
the characters read so far stand last to first. -/
def decodeBy (step : Bytes → Option (Char × Nat)) : Nat → List Char → Bytes → Option (List Char)
  | _, read, [] => some read.reverse
  | skip + 1, read, _ :: rest => decodeBy step skip read rest
  | 0, read, a :: rest =>
    match step (a :: rest) with
    | none => none
    | some (c, size) => decodeBy step (size - 1) (c :: read) rest

namespace Utf8

/-- A continuation byte, `80` to `BF`. -/
def isTail (b : UInt8) : Bool := 0x80 ≤ b && b ≤ 0xBF

/-- The code point of a two-byte form. -/
def code2 (a b : UInt8) : Nat := (a.toNat % 0x20) * 0x40 + b.toNat % 0x40

/-- The code point of a three-byte form. -/
def code3 (a b c : UInt8) : Nat := (a.toNat % 0x10) * 0x1000 + (b.toNat % 0x40) * 0x40 + c.toNat % 0x40

/-- The code point of a four-byte form. -/
def code4 (a b c d : UInt8) : Nat :=
  (a.toNat % 0x08) * 0x40000 + (b.toNat % 0x40) * 0x1000 + (c.toNat % 0x40) * 0x40 + d.toNat % 0x40

/-- A two-byte form: the first byte is `C2` to `DF`. -/
def isForm2 (a b : UInt8) : Bool := 0xC2 ≤ a && a ≤ 0xDF && isTail b

/-- A three-byte form: neither overlong (after `E0`) nor a surrogate (after `ED`). -/
def isForm3 (a b c : UInt8) : Bool :=
  0xE0 ≤ a && a ≤ 0xEF && isTail b && isTail c && (a != 0xE0 || 0xA0 ≤ b) && (a != 0xED || b ≤ 0x9F)

/-- A four-byte form: neither overlong (after `F0`) nor above U+10FFFF (after `F4`). -/
def isForm4 (a b c d : UInt8) : Bool :=
  0xF0 ≤ a && a ≤ 0xF4 && isTail b && isTail c && isTail d && (a != 0xF0 || 0x90 ≤ b) && (a != 0xF4 || b ≤ 0x8F)

/-- The character at the start of some bytes, and its size. -/
def step : Bytes → Option (Char × Nat)
  | [] => none
  | a :: after =>
    if a < 0x80 then some (Char.ofNat a.toNat, 1)
    else match after with
      | [] => none
      | b :: after2 =>
        if isForm2 a b then some (Char.ofNat (code2 a b), 2)
        else match after2 with
          | [] => none
          | c :: after3 =>
            if isForm3 a b c then some (Char.ofNat (code3 a b c), 3)
            else match after3 with
              | [] => none
              | d :: _ => if isForm4 a b c d then some (Char.ofNat (code4 a b c d), 4) else none

/-- The text of the bytes; none where they are not UTF-8. -/
def decode (bytes : Bytes) : Option String := (decodeBy step 0 [] bytes).map String.ofList

/-- The bytes of a text. -/
def encode (text : String) : Bytes := text.toList.flatMap String.utf8EncodeChar

end Utf8

end JvmUnits
