/-!
# The shortest decimal that reads back

A finite double stands for the interval of reals that round to it. Its shortest decimal is the one
with the fewest digits inside that interval, and the nearest of those.
-/

set_option autoImplicit false

namespace MetadataIndex.Decimal

/-- A positive double as `mantissa * 2 ^ exponent`. -/
structure Binary where
  mantissa : Nat
  exponent : Int
  /-- The gap below the number is half the gap above it. -/
  narrowBelow : Bool

/-- The mantissa and exponent of the magnitude of a finite double. -/
def Binary.ofFloat (x : Float) : Binary :=
  let bits := x.toBits.toNat
  let field : Nat := bits / Nat.pow 2 52 % Nat.pow 2 11
  let fraction : Nat := bits % Nat.pow 2 52
  if field = 0 then ⟨fraction, -1074, false⟩
  else ⟨Nat.pow 2 52 + fraction, (field : Int) - 1075, fraction == 0 && 1 < field⟩

namespace Binary

/-- The factor of a power of two or ten that stands above the fraction line. -/
def above (base : Nat) (e : Int) : Nat := Nat.pow base e.toNat

/-- The factor of a power of two or ten that stands below the fraction line. -/
def below (base : Nat) (e : Int) : Nat := Nat.pow base (-e).toNat

/-- The number of digits before the decimal point, counted as nought or less when zeros follow
the point. -/
def magnitude (b : Binary) : Int :=
  let num := b.mantissa * above 2 b.exponent
  let den := below 2 b.exponent
  if den ≤ num then (Nat.toDigits 10 (num / den)).length
  else
    let zeros := (Nat.toDigits 10 (den / num)).length
    if den ≤ num * Nat.pow 10 (zeros - 1) then 2 - (zeros : Int) else 1 - (zeros : Int)

/-- Four times the number, or an end of its interval, compared with `digits * 10 ^ power`: true
when the decimal is at most `quarter` quarters of a unit of the last binary place. -/
def decimalLe (b : Binary) (digits : Nat) (power : Int) (quarter : Nat) : Bool :=
  digits * above 10 power * 4 * below 2 b.exponent
    ≤ quarter * above 2 b.exponent * below 10 power

/-- Whether a decimal is strictly below `quarter` quarters of a unit of the last place. -/
def decimalLt (b : Binary) (digits : Nat) (power : Int) (quarter : Nat) : Bool :=
  digits * above 10 power * 4 * below 2 b.exponent
    < quarter * above 2 b.exponent * below 10 power

/-- Whether the decimal rounds to the number. The ends belong to the interval of an even
mantissa. -/
def roundsTo (b : Binary) (digits : Nat) (power : Int) : Bool :=
  let lo := 4 * b.mantissa - (if b.narrowBelow then 1 else 2)
  let hi := 4 * b.mantissa + 2
  if b.mantissa % 2 = 0 then
    !b.decimalLt digits power lo && b.decimalLe digits power hi
  else
    !b.decimalLe digits power lo && b.decimalLt digits power hi

/-- The multiple of `10 ^ power` at or below the number. -/
def floorAt (b : Binary) (power : Int) : Nat :=
  b.mantissa * above 2 b.exponent * below 10 power / (below 2 b.exponent * above 10 power)

/-- The nearest of the two neighbours on the grid of `10 ^ power` that round to the number; a tie
goes to the even one. -/
def neighbour? (b : Binary) (power : Int) : Option Nat :=
  let d := b.floorAt power
  match b.roundsTo d power && d != 0, b.roundsTo (d + 1) power with
  | true, true =>
    let twice := b.mantissa * above 2 b.exponent * below 10 power * 2
    let middle := (2 * d + 1) * (below 2 b.exponent * above 10 power)
    if twice < middle then some d
    else if middle < twice then some (d + 1)
    else some (if d % 2 = 0 then d else d + 1)
  | true, false => some d
  | false, true => some (d + 1)
  | false, false => none

/-- The first grid, from coarse to fine, that holds a decimal rounding to the number. -/
def search (b : Binary) (magnitude : Int) : Nat → Nat → Nat × Int
  | 0, places => (b.floorAt (magnitude - places), magnitude - places)
  | more + 1, places =>
    match b.neighbour? (magnitude - places) with
    | some d => (d, magnitude - places)
    | none => b.search magnitude more (places + 1)

end Binary

/-- Digits and power of ten of the shortest decimal of a positive finite double. -/
def shortest (x : Float) : Nat × Int :=
  let b := Binary.ofFloat x
  b.search b.magnitude 17 1

def dropTrailingZeros (digits : List Char) : List Char :=
  (digits.reverse.dropWhile (· == '0')).reverse

/-- How a decimal is written: positional within a range of exponents, else with an exponent. -/
structure Notation where
  /-- The least exponent of the first digit that is written positionally. -/
  least : Int
  /-- The least exponent of the first digit that is no longer written positionally. -/
  beyond : Int
  /-- What follows the digits of an integer in positional notation. -/
  integerTail : String
  infinity : String
  notANumber : String

/-- Exponent notation: a point after the first digit, a sign and at least two exponent digits. -/
def exponentText (digits : List Char) (e : Int) : String :=
  let mantissa := match digits with
    | d :: [] => [d]
    | d :: more => d :: '.' :: more
    | [] => ['0']
  let power := (Nat.repr e.natAbs).toList
  let power := if power.length < 2 then '0' :: power else power
  String.ofList (mantissa ++ 'e' :: (if e < 0 then '-' else '+') :: power)

/-- Positional notation of digits whose first counts `10 ^ e`. -/
def positionalText (n : Notation) (digits : List Char) (e : Int) : String :=
  if e < 0 then
    String.ofList ("0.".toList ++ List.replicate ((-e).toNat - 1) '0' ++ digits)
  else
    let whole := e.toNat + 1
    if digits.length ≤ whole then
      String.ofList (digits ++ List.replicate (whole - digits.length) '0') ++ n.integerTail
    else String.ofList (digits.take whole ++ '.' :: digits.drop whole)

def Notation.text (n : Notation) (x : Float) : String :=
  if x.isNaN then n.notANumber
  else
    let negative := Nat.pow 2 63 ≤ x.toBits.toNat
    let body :=
      if x.isInf then n.infinity
      else if x == 0.0 then "0" ++ n.integerTail
      else
        let (d, power) := shortest x
        let written := (Nat.repr d).toList
        let e : Int := (written.length : Int) - 1 + power
        let digits := dropTrailingZeros written
        if e < n.least || n.beyond ≤ e then exponentText digits e
        else positionalText n digits e
    if negative then "-" ++ body else body

/-- Doubles are positional from 0.0001 to below 10^16, and an integer keeps one zero after the
point. -/
def plainNotation : Notation := ⟨-4, 16, ".0", "inf", "nan"⟩

/-- The text of a double outside of a structured document. -/
def floatText (x : Float) : String := plainNotation.text x

/-- Inside a structured document infinity and not-a-number have longer names. -/
def documentNotation : Notation :=
  { plainNotation with infinity := "Infinity", notANumber := "NaN" }

end MetadataIndex.Decimal
