import MetadataIndex.Decimal.Integral

/-!
# Decimals with a number of places

The decimal with a given number of places that is nearest to a double, and the one with a given
number of significant digits. A tie goes to the even last digit.
-/

set_option autoImplicit false

namespace MetadataIndex.Decimal

/-- The nearest integer to a quotient; a tie goes to the even one. -/
def roundHalfEven (num den : Nat) : Nat :=
  let whole := num / den
  let twice := 2 * (num % den)
  if twice < den then whole
  else if den < twice then whole + 1
  else whole + whole % 2

/-- The magnitude of a finite double as a multiple of `10 ^ (-places)`. -/
def scaledMagnitude (x : Float) (places : Int) : Nat :=
  let b := Binary.ofFloat x
  roundHalfEven (b.mantissa * Binary.above 2 b.exponent * Binary.above 10 places)
    (Binary.below 2 b.exponent * Binary.below 10 places)

/-- Digits with a point before the last `places` of them. -/
def insertPoint (digits : List Char) (places : Nat) : List Char :=
  let padded := List.replicate (places + 1 - digits.length) '0' ++ digits
  let whole := padded.take (padded.length - places)
  if places = 0 then whole else whole ++ '.' :: padded.drop (padded.length - places)

/-- The magnitude of a finite double with a number of places. -/
def fixedDigits (x : Float) (places : Nat) : List Char :=
  insertPoint (Nat.repr (scaledMagnitude x places)).toList places

/-- The digits of a positive double with `places` digits after the first, and the power of ten of
the first digit. -/
def significantDigits (x : Float) (places : Nat) : List Char × Int :=
  let first := (Binary.ofFloat x).magnitude - 1
  let digits := (Nat.repr (scaledMagnitude x (places - first))).toList
  if digits.length ≤ places + 1 then (digits, first) else (digits.take (places + 1), first + 1)

/-- Removes zeros after the last significant digit of a fraction, and the point if nothing is left
after it. -/
def dropTrailingFraction (cs : List Char) : List Char :=
  if cs.contains '.' then
    match cs.reverse.dropWhile (· == '0') with
    | '.' :: more => more.reverse
    | more => more.reverse
  else cs

end MetadataIndex.Decimal
