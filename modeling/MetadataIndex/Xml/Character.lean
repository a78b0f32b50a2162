import MetadataIndex.Text.Search

/-!
# Characters of XML

Which characters a document may hold, which of them separate tokens, and which make up names.
-/

set_option autoImplicit false

namespace MetadataIndex.Xml

def inRanges (ranges : List (Nat × Nat)) (n : Nat) : Bool :=
  ranges.any fun (low, high) => low ≤ n && n ≤ high

/-- Whether a document may hold a character: no control character but tab and line ends, and
neither of the two last codes of the first plane. -/
def isChar (c : Char) : Bool :=
  let n := c.toNat
  (32 ≤ n && n != 0xfffe && n != 0xffff) || n == 9 || n == 10 || n == 13

/-- Whether every character of a text may stand in a document. -/
def isText (s : String) : Bool :=
  s.toList.all isChar

def isSpace (c : Char) : Bool :=
  c == ' ' || c == '\n' || c == '\t' || c == '\r'

/-- The characters beyond ASCII with which a name may begin. -/
def nameStartRanges : List (Nat × Nat) :=
  [(0xc0, 0xd6), (0xd8, 0xf6), (0xf8, 0x2ff), (0x370, 0x37d), (0x37f, 0x1fff), (0x200c, 0x200d),
    (0x2070, 0x218f), (0x2c00, 0x2fef), (0x3001, 0xd7ff), (0xf900, 0xfdcf), (0xfdf0, 0xfffd),
    (0x10000, 0xeffff)]

/-- The characters beyond ASCII that may only follow in a name. -/
def nameExtraRanges : List (Nat × Nat) :=
  [(0xb7, 0xb7), (0x300, 0x36f), (0x203f, 0x2040)]

/-- Whether a name without colon may begin with a character. -/
def isPlainNameStart (c : Char) : Bool :=
  c.isAlpha || c == '_' || (128 ≤ c.toNat && inRanges nameStartRanges c.toNat)

/-- Whether a name without colon may go on with a character. -/
def isPlainNameChar (c : Char) : Bool :=
  isPlainNameStart c || c.isDigit || c == '-' || c == '.'
    || (128 ≤ c.toNat && inRanges nameExtraRanges c.toNat)

def isNameStart (c : Char) : Bool :=
  c == ':' || isPlainNameStart c

def isNameChar (c : Char) : Bool :=
  c == ':' || isPlainNameChar c

/-- The name without colon at the front of a text, and what follows. -/
def takePlainName : List Char → Option (String × List Char)
  | c :: cs =>
    if isPlainNameStart c then
      some (String.ofList (c :: cs.takeWhile isPlainNameChar), cs.dropWhile isPlainNameChar)
    else none
  | [] => none

/-- The name at the front of a text, and what follows. -/
def takeName : List Char → Option (String × List Char)
  | c :: cs =>
    if isNameStart c then
      some (String.ofList (c :: cs.takeWhile isNameChar), cs.dropWhile isNameChar)
    else none
  | [] => none

def skipSpaces (cs : List Char) : List Char :=
  cs.dropWhile isSpace

/-- Skips separators, of which there must be at least one. -/
def requireSpaces : List Char → Option (List Char)
  | c :: cs => if isSpace c then some (skipSpaces cs) else none
  | [] => none

def expect (literal : String) (cs : List Char) : Option (List Char) :=
  Text.dropLiteral? literal.toList cs

def expectEquals (cs : List Char) : Option (List Char) :=
  (expect "=" (skipSpaces cs)).map skipSpaces

/-- A text between quotes of either kind, and what follows. -/
def takeQuoted : List Char → Option (List Char × List Char)
  | quote :: cs =>
    if quote == '"' || quote == '\'' then
      match cs.dropWhile (· != quote) with
      | _ :: rest => some (cs.takeWhile (· != quote), rest)
      | [] => none
    else none
  | [] => none

def normalizeLineEnds : List Char → List Char
  | [] => []
  | '\r' :: '\n' :: cs => '\n' :: normalizeLineEnds cs
  | '\r' :: cs => '\n' :: normalizeLineEnds cs
  | c :: cs => c :: normalizeLineEnds cs

end MetadataIndex.Xml
