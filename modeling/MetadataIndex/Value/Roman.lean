import MetadataIndex.Fault
import MetadataIndex.Text.Case

/-!
# Roman numerals

The value of a numeral is the sum of its letters, where a letter counts negatively when a greater
one stands to its right.
-/

set_option autoImplicit false

namespace MetadataIndex.Roman

def digit? : Char → Option Int
  | 'i' => some 1
  | 'v' => some 5
  | 'x' => some 10
  | 'l' => some 50
  | 'c' => some 100
  | 'd' => some 500
  | 'm' => some 1000
  | _ => none

/-- A character that a roman numeral may be written with: a roman digit of either case, or one of
the two other forms of the letter i. -/
def isNumeralChar (c : Char) : Bool :=
  (digit? c.toLower).isSome || c == 'ı' || c == 'İ'

/-- Whether a text has the shape of a roman numeral; a line end may follow it. -/
def isNumeral (s : String) : Bool :=
  let body := match s.toList.reverse with
    | '\n' :: rest => rest
    | rest => rest
  !body.isEmpty && body.all isNumeralChar

/-- Adds the digit to the left of those counted: the total so far and the greatest digit. -/
def addDigit (value : Int) (counted : Int × Int) : Int × Int :=
  if value < counted.2 then (counted.1 - value, counted.2) else (counted.1 + value, value)

/-- The total of small digits and the greatest of them. -/
def total : List Char → Checked (Int × Int)
  | [] => .ok (0, 0)
  | c :: cs => do
    let counted ← total cs
    match digit? c with
    | some value => return addDigit value counted
    | none => .error .unknownKey

def value (s : String) : Checked Int :=
  if isNumeral s then (total (Text.lower s).toList).map (·.1)
  else refuse (.notRoman (some s))

end MetadataIndex.Roman
