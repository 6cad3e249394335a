import JvmUnits.Decimal.Shortest

/-!
# Writing decimals

Where a decimal is written out in full and where with an exponent is a decision of the format that shows it, kept in a record.
-/

namespace JvmUnits

/-- How a format writes decimals: the least and the greatest exponent of the first digit that it writes in full, whether a
positive exponent has a sign, and how ties between two shortest decimals go. -/
structure DecimalLayout where
  least : Int
  greatest : Int
  signedExponent : Bool
  tie : Decimal.Tie
  deriving DecidableEq, Repr

namespace DecimalLayout

/-- A decimal written in full, with at least one digit after the point. The exponent is that of the first digit. -/
def inFull (digits : List Char) (exponent : Int) : List Char :=
  if exponent < 0 then '0' :: '.' :: List.replicate (-exponent - 1).toNat '0' ++ digits
  else
    let whole := exponent.toNat + 1
    if digits.length ≤ whole then digits ++ List.replicate (whole - digits.length) '0' ++ ['.', '0']
    else digits.take whole ++ '.' :: digits.drop whole

/-- A decimal written with an exponent. -/
def withExponent (layout : DecimalLayout) (digits : List Char) (exponent : Int) : List Char :=
  let mantissa := match digits with
    | [] => []
    | [d] => [d]
    | d :: rest => d :: '.' :: rest
  let sign := if exponent < 0 then ['-'] else if layout.signedExponent then ['+'] else []
  mantissa ++ 'e' :: sign ++ Nat.toDigits 10 exponent.natAbs

/-- The text of a decimal. -/
def write (layout : DecimalLayout) (d : Decimal) : List Char :=
  let digits := Nat.toDigits 10 d.digits
  let exponent := d.exponent + digits.length - 1
  if layout.least ≤ exponent && exponent ≤ layout.greatest then inFull digits exponent
  else layout.withExponent digits exponent

/-- The text of a finite binary number. -/
def writeBinary (layout : DecimalLayout) (negative : Bool) (m : Nat) (q : Int) (narrow : Bool) : String :=
  let body := if m = 0 then ['0', '.', '0'] else layout.write (Decimal.shortest layout.tie m q narrow)
  String.ofList (if negative then '-' :: body else body)

end DecimalLayout

end JvmUnits
