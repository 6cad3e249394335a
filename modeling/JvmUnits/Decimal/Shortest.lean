/-!
# Shortest decimals

The decimal with the fewest digits that reads back as a given binary number, and of those the one closest to it. The search
is exact: for one digit, two digits and so on it tests the two neighbours of the number on the grid of decimals with that many
digits, and it stops at the first grid that has a point among the numbers that round to the given one.
-/

namespace JvmUnits

/-- A positive decimal, `digits · 10 ^ exponent`. -/
structure Decimal where
  digits : Nat
  exponent : Int
  deriving DecidableEq, Repr

namespace Decimal

/-- Which way an exact tie between two neighbours goes. -/
inductive Tie where
  | up | even
  deriving DecidableEq, Repr

/-- Moves the zeros at the end of the digits into the exponent; the number bounds how many. -/
def normalizeWithin : Nat → Decimal → Decimal
  | 0, d => d
  | bound + 1, d =>
    if d.digits % 10 = 0 then normalizeWithin bound ⟨d.digits / 10, d.exponent + 1⟩ else d

/-- The decimal exponent `e` of a positive number `m · 2 ^ q`, with `10 ^ e ≤ m · 2 ^ q < 10 ^ (e + 1)`. The number is
scaled by a power of ten that makes it whole before its digits are counted. -/
def magnitude (m : Nat) (q : Int) : Int :=
  let scaled := ((m <<< q.toNat) * Nat.pow 10 400) >>> (-q).toNat
  ((Nat.toDigits 10 scaled).length : Int) - 401

/-- The best decimal on the grid of multiples of `10 ^ k`, if one of them reads back as `m · 2 ^ q`. Quarters of the unit of
the significand are whole here, so the ends of the interval that rounds to the number are whole too; they belong to it when
the significand is even. -/
def onGrid (tie : Tie) (m : Nat) (q : Int) (narrow : Bool) (k : Int) : Option Decimal :=
  let point := Nat.pow 10 k.toNat <<< (2 - q).toNat
  let quarter := Nat.pow 10 (-k).toNat <<< (q - 2).toNat
  let value := 4 * m * quarter
  let low := (4 * m - if narrow then 1 else 2) * quarter
  let high := (4 * m + 2) * quarter
  let inside (x : Nat) : Bool := if m % 2 = 0 then low ≤ x && x ≤ high else low < x && x < high
  let d := value / point
  let below := d * point
  let above := (d + 1) * point
  let pick (digits : Nat) : Option Decimal := some ⟨digits, k⟩
  if inside below && 0 < d then
    if inside above then
      let lower := value - below
      let upper := above - value
      if lower < upper then pick d
      else if upper < lower then pick (d + 1)
      else match tie with
        | .up => pick (d + 1)
        | .even => if d % 2 = 0 then pick d else pick (d + 1)
    else pick d
  else if inside above then pick (d + 1)
  else none

/-- Tries grids of more and more digits, at most `left` of them; the last is taken as it is. -/
def search (tie : Tie) (m : Nat) (q : Int) (narrow : Bool) : (left : Nat) → (k : Int) → Decimal
  | 0, k => ⟨4 * m * (Nat.pow 10 (-k).toNat <<< (q - 2).toNat) / (Nat.pow 10 k.toNat <<< (2 - q).toNat), k⟩
  | left + 1, k =>
    match onGrid tie m q narrow k with
    | some d => d
    | none => search tie m q narrow left (k - 1)

/-- The shortest decimal that reads back as `m · 2 ^ q`, for a positive significand. Seventeen digits always suffice for the
words of 64 bits and fewer for those of 32. -/
def shortest (tie : Tie) (m : Nat) (q : Int) (narrow : Bool) : Decimal :=
  normalizeWithin 20 (search tie m q narrow 17 (magnitude m q))

end Decimal

end JvmUnits
