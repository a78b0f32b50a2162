import MetadataIndex.Xml.Character
import MetadataIndex.Text.Case

/-!
# Declared encodings

A document may begin with a declaration that names its encoding. A text is taken as bytes in UTF-8,
and these are read by the encoding that is named; a mark of byte order at the front stands above
the declaration.
-/

set_option autoImplicit false

namespace MetadataIndex.Xml

/-- How bytes stand for characters. -/
inductive Encoding where
  | utf8
  | latin1
  | ascii
deriving DecidableEq, Repr

namespace Encoding

def names : List (String × Encoding) :=
  [("UTF-8", utf8), ("UTF8", utf8), ("ISO-8859-1", latin1), ("ISO8859-1", latin1),
    ("ISO_8859-1", latin1), ("ISO-LATIN-1", latin1), ("ISO LATIN 1", latin1), ("LATIN1", latin1),
    ("L1", latin1), ("US-ASCII", ascii), ("ASCII", ascii)]

/-- The encoding with a name in letters of either case. -/
def ofName? (name : String) : Option Encoding :=
  (names.find? (·.1 == Text.upper name)).map (·.2)

/-- The text that the bytes of a text stand for in an encoding. -/
def reread (e : Encoding) (cs : List Char) : Option (List Char) :=
  match e with
  | utf8 => some cs
  | latin1 => some ((String.ofList cs).toUTF8.toList.map fun byte => Char.ofNat byte.toNat)
  | ascii => if cs.all (·.toNat < 128) then some cs else none

end Encoding

/-- What the declaration of a document says. -/
structure Heading where
  encoding : Option String := none
deriving DecidableEq, Repr

namespace Heading

/-- A quoted value after separators, a word and an equals sign. -/
def takeValue (word : String) (cs : List Char) : Option (List Char × List Char) := do
  takeQuoted (← expectEquals (← expect word (← requireSpaces cs)))

def isVersion : List Char → Bool
  | '1' :: '.' :: digits => digits.all Char.isDigit
  | _ => false

def isEncodingName : List Char → Bool
  | c :: cs => c.isAlpha && cs.all fun c => c.isAlphanum || c == '.' || c == '_' || c == '-'
  | [] => false

def takeAfterOpening (cs : List Char) : Option (Heading × List Char) := do
  let (version, rest) ← takeValue "version" cs
  if !isVersion version then none
  let (encoding, rest) ← match requireSpaces rest >>= expect "encoding" with
    | some _ => do
      let (name, rest) ← takeValue "encoding" rest
      if isEncodingName name then some (some (String.ofList name), rest) else none
    | none => some (none, rest)
  let rest ← match requireSpaces rest >>= expect "standalone" with
    | some _ => do
      let (value, rest) ← takeValue "standalone" rest
      if value == "yes".toList || value == "no".toList then some rest else none
    | none => some rest
  return ({ encoding }, ← expect "?>" (skipSpaces rest))

/-- Reads the declaration at the front of a document; a document may lack it. -/
def take (cs : List Char) : Option (Heading × List Char) :=
  match expect "<?xml" cs with
  | some (c :: rest) => if isSpace c then takeAfterOpening (c :: rest) else some ({}, cs)
  | _ => some ({}, cs)

end Heading

def byteOrderMark : Char := '\ufeff'

/-- The content of a document after its declaration, by the encoding that is named. -/
def decode (cs : List Char) : Option (List Char) := do
  match cs with
  | c :: rest =>
    if c == byteOrderMark then
      let (_, content) ← Heading.take rest
      return content
    else
      let (heading, content) ← Heading.take cs
      match heading.encoding with
      | none => return content
      | some name => (← Encoding.ofName? name).reread content
  | [] => return []

end MetadataIndex.Xml
