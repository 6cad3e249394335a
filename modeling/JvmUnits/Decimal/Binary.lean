/-!
# Binary floating point, by its bits

A floating-point number is kept as the word of its bits. Here the word is taken apart: a finite number is a sign, a whole
significand and a power of two.
-/

namespace JvmUnits

/-- The widths of the two lower parts of a floating-point word: the fraction and, above it, the exponent. -/
structure BinaryFormat where
  fractionBits : Nat
  exponentBits : Nat
  deriving DecidableEq, Repr

/-- The value of a floating-point word. A finite one is `significand · 2 ^ exponent` with a sign; `narrow` says that the next
smaller magnitude is only half a unit of the significand away, as below a power of two. -/
inductive BinaryValue where
  | notANumber
  | infinite (negative : Bool)
  | finite (negative : Bool) (significand : Nat) (exponent : Int) (narrow : Bool)
  deriving DecidableEq, Repr

namespace BinaryFormat

/-- Words of 32 bits. -/
def single : BinaryFormat := ⟨23, 8⟩

/-- Words of 64 bits. -/
def double : BinaryFormat := ⟨52, 11⟩

/-- Takes a word apart. -/
def decode (format : BinaryFormat) (word : Nat) : BinaryValue :=
  let fraction := word % (1 <<< format.fractionBits)
  let biased := (word >>> format.fractionBits) % (1 <<< format.exponentBits)
  let negative := word.testBit (format.fractionBits + format.exponentBits)
  let unit : Int := 2 - (1 <<< (format.exponentBits - 1) : Nat) - format.fractionBits
  if biased = (1 <<< format.exponentBits) - 1 then
    if fraction = 0 then .infinite negative else .notANumber
  else if biased = 0 then .finite negative fraction unit false
  else .finite negative ((1 <<< format.fractionBits) + fraction) (unit + (biased - 1 : Nat)) (fraction == 0 && 1 < biased)

end BinaryFormat

end JvmUnits
