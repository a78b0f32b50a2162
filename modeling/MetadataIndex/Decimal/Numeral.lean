import MetadataIndex.Text.Blank
import MetadataIndex.Text.Category

/-!
# Written numbers

Integers are read from decimal digits of any script with an optional sign, single underscores
between digits and blank characters around. Numbers with a fraction or an exponent follow the same
rules for each run of digits and become the nearest double.
-/

set_option autoImplicit false

namespace MetadataIndex.Decimal

open MetadataIndex.Text (isBlank decimalValue? strip)

/-- The greatest number of digits an integer is read from or written with. -/
def digitLimit : Nat := 4300

/-- Blank characters around a number; the ASCII information separators are not among them. -/
def isNumberBlank (c : Char) : Bool :=
  isBlank c && !(28 ≤ c.toNat && c.toNat ≤ 31)

/-- The digits of a run in which single underscores may stand between digits; with `expectDigit`
a digit comes next. -/
def digitRun? (expectDigit : Bool) : List Char → Option (List Nat)
  | [] => if expectDigit then none else some []
  | c :: cs =>
    match decimalValue? c with
    | some d => (digitRun? false cs).map (d :: ·)
    | none => if c = '_' && !expectDigit then digitRun? true cs else none

/-- The number a sequence of decimal digits stands for, most significant digit first. -/
def ofDigits (digits : List Nat) : Nat :=
  digits.foldl (fun n d => n * 10 + d) 0

theorem ofDigits_append_singleton (digits : List Nat) (d : Nat) :
    ofDigits (digits ++ [d]) = ofDigits digits * 10 + d := by
  simp [ofDigits]

def takeSign : List Char → Bool × List Char
  | '-' :: cs => (true, cs)
  | '+' :: cs => (false, cs)
  | cs => (false, cs)

/-- The integer written by a text, if it is one and within the digit limit. -/
def readInt? (s : String) : Option Int :=
  let (negative, rest) := takeSign (strip isNumberBlank s.toList)
  match digitRun? true rest with
  | some digits =>
    if digits.length ≤ digitLimit then
      some (if negative then -(ofDigits digits : Int) else ofDigits digits)
    else none
  | none => none

/-- The parts of a number in positional or exponent notation. -/
structure Scientific where
  negative : Bool
  digits : List Nat
  exponent : Int

def Scientific.toFloat (x : Scientific) : Float :=
  let digits := x.digits.dropWhile (· == 0)
  let leading : Int := digits.length + x.exponent
  let magnitude :=
    if digits.isEmpty || leading < -400 then 0.0
    else if 400 < leading then 1.0 / 0.0
    else if x.exponent < 0 then Float.ofScientific (ofDigits digits) true x.exponent.natAbs
    else Float.ofScientific (ofDigits digits) false x.exponent.natAbs
  if x.negative then -magnitude else magnitude

/-- The characters up to the first that satisfies `p`, and the rest with that character. -/
def spanUntil (p : Char → Bool) (cs : List Char) : List Char × List Char :=
  (cs.takeWhile (!p ·), cs.dropWhile (!p ·))

/-- The two parts together are the characters that were divided. -/
theorem fst_append_snd_spanUntil (p : Char → Bool) (cs : List Char) :
    (spanUntil p cs).1 ++ (spanUntil p cs).2 = cs :=
  List.takeWhile_append_dropWhile

def optionalRun? (cs : List Char) : Option (List Nat) :=
  if cs.isEmpty then some [] else digitRun? true cs

def readUnsigned? (negative : Bool) (cs : List Char) : Option Scientific := do
  let (mantissa, power) := spanUntil (fun c => c == 'e' || c == 'E') cs
  let (whole, fraction) := spanUntil (· == '.') mantissa
  let wholeDigits ← optionalRun? whole
  let fractionDigits ← optionalRun? (fraction.drop 1)
  if wholeDigits.isEmpty && fractionDigits.isEmpty then none
  let exponent ← match power with
    | [] => some (0 : Int)
    | _ :: rest =>
      let (down, digits) := takeSign rest
      (digitRun? true digits).map fun ds => if down then -(ofDigits ds : Int) else ofDigits ds
  some ⟨negative, wholeDigits ++ fractionDigits, exponent - fractionDigits.length⟩

/-- The double written by a text: a number, or one of the names of infinity and not-a-number. -/
def readFloat? (s : String) : Option Float :=
  let (negative, rest) := takeSign (strip isNumberBlank s.toList)
  let name := rest.map Char.toLower
  if name = "inf".toList || name = "infinity".toList then
    some (if negative then -(1.0 / 0.0) else 1.0 / 0.0)
  else if name = "nan".toList then some (0.0 / 0.0)
  else (readUnsigned? negative rest).map Scientific.toFloat

end MetadataIndex.Decimal
