import MetadataIndex.Xml.Character
import MetadataIndex.Json.Basic

/-!
# References

A reference stands for a character by its number, for one of five characters by name, or for a
declared entity.
-/

set_option autoImplicit false

namespace MetadataIndex.Xml

/-- What stands at a place of a text with references. -/
inductive Piece where
  | char (c : Char)
  | code (c : Char)
  /-- An entity by name, or one of the five named characters. -/
  | entity (name : String)
deriving DecidableEq, Repr

def decimalDigit? (c : Char) : Option Nat :=
  if c.isDigit then some (c.toNat - 48) else none

def hexDigit? (c : Char) : Option Nat :=
  if c.isDigit then some (c.toNat - 48)
  else if 'a' ≤ c && c ≤ 'f' then some (c.toNat - 87)
  else if 'A' ≤ c && c ≤ 'F' then some (c.toNat - 55)
  else none

/-- The number written by digits up to a semicolon; a number beyond all characters stays there. -/
def takeNumber (base : Nat) (digit? : Char → Option Nat) :
    Option Nat → List Char → Option (Nat × List Char)
  | _, [] => none
  | value, c :: cs =>
    match digit? c with
    | some d => takeNumber base digit? (some (min (value.getD 0 * base + d) 0x110000)) cs
    | none => if c == ';' then value.map fun n => (n, cs) else none

/-- The character with a number, if a document may hold it. -/
def charOf? (n : Nat) : Option Char :=
  if h : n.isValidChar then
    let c := Char.ofNatAux n h
    if isChar c then some c else none
  else none

def namedChars : List (String × Char) :=
  [("lt", '<'), ("gt", '>'), ("amp", '&'), ("quot", '"'), ("apos", '\'')]

/-- The reference that begins after an ampersand, and what follows it. -/
def takeReference : List Char → Option (Piece × List Char)
  | '#' :: 'x' :: cs => do
    let (n, rest) ← takeNumber 16 hexDigit? none cs
    return (.code (← charOf? n), rest)
  | '#' :: cs => do
    let (n, rest) ← takeNumber 10 decimalDigit? none cs
    return (.code (← charOf? n), rest)
  | cs => do
    let (name, rest) ← takeName cs
    return (.entity name, ← expect ";" rest)

/-- The pieces of a text with references, at most `limit` of them. -/
def piecesUpTo : Nat → List Char → Option (List Piece)
  | _, [] => some []
  | 0, _ :: _ => none
  | limit + 1, '&' :: cs => do
    let (piece, rest) ← takeReference cs
    return piece :: (← piecesUpTo limit rest)
  | limit + 1, c :: cs => return .char c :: (← piecesUpTo limit cs)

def piecesOf (cs : List Char) : Option (List Piece) :=
  piecesUpTo cs.length cs

end MetadataIndex.Xml
