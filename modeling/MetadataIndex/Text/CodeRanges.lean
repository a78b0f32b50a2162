import MetadataIndex.Text.Search

/-!
# Sets and maps of characters given by tables

The data of a character property is written as lines of text: numbers in base 36, separated by
blanks and, in a table of rows, by commas. A set is a list of ranges, each written as the distance
from the end of the range before it and its own length less one.
-/

set_option autoImplicit false

namespace MetadataIndex.Text

/-- The value of a digit or small letter in base 36. -/
def base36Digit? (c : Char) : Option Nat :=
  if '0' ≤ c && c ≤ '9' then some (c.toNat - '0'.toNat)
  else if 'a' ≤ c && c ≤ 'z' then some (c.toNat - 'a'.toNat + 10)
  else none

/-- The numbers written in base 36; the first one may have begun earlier. -/
def readNumbers (begun : Option Nat) : List Char → List Nat
  | [] => begun.toList
  | c :: cs =>
    match base36Digit? c with
    | some d => readNumbers (some (begun.getD 0 * 36 + d)) cs
    | none => begun.toList ++ readNumbers none cs

def tableNumbers (lines : List String) : List Nat :=
  lines.flatMap fun line => readNumbers none line.toList

/-- The rows of a table; no row runs over the end of a line. -/
def tableRows (lines : List String) : List (List Nat) :=
  lines.flatMap fun line => (pieces [','] 0 line.toList).map (readNumbers none)

/-- A set of characters: the first and last code points of its ranges, in ascending order. -/
structure CodeRanges where
  ranges : List (Nat × Nat)

namespace CodeRanges

def absolute (start : Nat) : List Nat → List (Nat × Nat)
  | gap :: length :: more =>
    (start + gap, start + gap + length) :: absolute (start + gap + length) more
  | _ => []

/-- The set written in a table of distances and lengths. -/
def ofTable (lines : List String) : CodeRanges :=
  ⟨absolute 0 (tableNumbers lines)⟩

/-- The range that the code point `n` is in. As the ranges ascend, it can only be the first that
does not end before `n`. -/
def find? (r : CodeRanges) (n : Nat) : Option (Nat × Nat) :=
  (r.ranges.find? fun (_, last) => n ≤ last).filter fun (first, _) => first ≤ n

def contains (r : CodeRanges) (n : Nat) : Bool :=
  (r.find? n).isSome

end CodeRanges

/-- A map on code points: rows of a code point and its images, by ascending code point. -/
structure CodeMap where
  /-- The rows, each a code point followed by its images. -/
  rows : List (List Nat)

namespace CodeMap

def ofTable (lines : List String) : CodeMap := ⟨tableRows lines⟩

/-- The images of the code point `n`, if the map changes it. As the rows ascend, only the first
that does not head a smaller code point can give them. -/
def get? (m : CodeMap) (n : Nat) : Option (List Nat) :=
  match m.rows.find? fun row => n ≤ row.headD 0 with
  | some (code :: images) => if code = n then some images else none
  | _ => none

end CodeMap

end MetadataIndex.Text
