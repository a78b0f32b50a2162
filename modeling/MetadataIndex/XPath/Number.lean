import MetadataIndex.Decimal.Places

/-!
# Numbers in expressions

A number is read digit by digit into a double: the whole part, then at most twenty significant
digits of the fraction, then a power of ten. It is written as an integer where it is one, with
fifteen digits in between, and with an exponent where it is very great or very small.
-/

set_option autoImplicit false

namespace MetadataIndex.XPath

def isBlank (c : Char) : Bool :=
  c == ' ' || c == '\t' || c == '\n' || c == '\r'

def skipBlanks (cs : List Char) : List Char :=
  cs.dropWhile isBlank

/-- The double that digits stand for, one after the other. -/
def accumulate (start : Float) (digits : List Char) : Float :=
  digits.foldl (fun x c => x * 10.0 + Float.ofNat (c.toNat - 48)) start

/-- The greatest number of digits of a fraction that count after its first zeros. -/
def fractionLimit : Nat := 20

/-- The double that the digits after a point stand for. -/
def fractionValue (digits : List Char) : Float :=
  let zeros := (digits.takeWhile (· == '0')).length
  let counted := (digits.drop zeros).take fractionLimit
  accumulate 0.0 counted / Float.pow 10.0 (Float.ofNat (zeros + counted.length))

/-- The power of ten at the front of a text after its letter, and what follows. -/
def takeExponent (cs : List Char) : Int × List Char :=
  let (down, cs) := match cs with
    | '-' :: rest => (true, rest)
    | '+' :: rest => (false, rest)
    | _ => (false, cs)
  let magnitude : Nat := (cs.takeWhile Char.isDigit).foldl
    (fun n c => if n < 1000000 then n * 10 + (c.toNat - 48) else n) 0
  (if down then -(magnitude : Int) else magnitude, cs.dropWhile Char.isDigit)

/-- The number at the front of a text, and what follows. -/
def takeNumber (cs : List Char) : Option (Float × List Char) :=
  let whole := cs.takeWhile Char.isDigit
  let rest := cs.dropWhile Char.isDigit
  let value := accumulate 0.0 whole
  let fraction? := match rest with
    | '.' :: after =>
      let digits := after.takeWhile Char.isDigit
      if digits.isEmpty && whole.isEmpty then none
      else some (value + fractionValue digits, after.dropWhile Char.isDigit)
    | _ => if whole.isEmpty then none else some (value, rest)
  fraction?.map fun (value, rest) =>
    let withPower (rest : List Char) : Float × List Char :=
      let (power, rest) := takeExponent rest
      (value * Float.pow 10.0 (Float.ofInt power), rest)
    match rest with
    | 'e' :: after => withPower after
    | 'E' :: after => withPower after
    | _ => (value, rest)

/-- The number that a text is, with separators around it and a minus sign before it. -/
def readNumber (s : String) : Float :=
  let cs := skipBlanks s.toList
  let (negative, cs) := match cs with
    | '-' :: rest => (true, rest)
    | _ => (false, cs)
  match takeNumber cs with
  | some (x, rest) =>
    if (skipBlanks rest).isEmpty then (if negative then -x else x) else 0.0 / 0.0
  | none => 0.0 / 0.0

/-- The number of digits that are written of a fraction. -/
def fractionPlaces (magnitude : Float) : Nat :=
  let whole := Decimal.truncate (Float.log10 magnitude)
  if 0 < whole then (14 - whole).toNat else (15 - whole).toNat

/-- Whether an integer is written out: it has 32 bits and is neither the least nor the greatest of
these. -/
def isMachineInteger (n : Int) : Bool :=
  -2147483648 < n && n < 2147483647

def numberText (x : Float) : String :=
  if x.isNaN then "NaN"
  else if x.isInf then (if x < 0.0 then "-Infinity" else "Infinity")
  else if x == 0.0 then "0"
  else if Decimal.isWhole x && isMachineInteger (Decimal.truncate x) then
    toString (Decimal.truncate x)
  else
    let magnitude := x.abs
    let body :=
      if 1e9 < magnitude || magnitude < 1e-5 then
        let (digits, power) := Decimal.significantDigits magnitude 13
        let mantissa := Decimal.dropTrailingFraction (Decimal.insertPoint digits 13)
        Decimal.exponentText (mantissa.filter (· != '.')) power
      else
        String.ofList (Decimal.dropTrailingFraction
          (Decimal.fixedDigits magnitude (fractionPlaces magnitude)))
    if x < 0.0 then "-" ++ body else body

end MetadataIndex.XPath
