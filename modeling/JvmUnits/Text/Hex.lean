/-!
# Hexadecimal numbers

Messages show flag words, opcodes and code points in base sixteen.
-/

namespace JvmUnits

/-- A number in lower-case hexadecimal digits, padded with zeros on the left to at least `width` digits. -/
def hexDigits (width n : Nat) : String :=
  let digits := Nat.toDigits 16 n
  String.ofList (List.replicate (width - digits.length) '0' ++ digits)

end JvmUnits
