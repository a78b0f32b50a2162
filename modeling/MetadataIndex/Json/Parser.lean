import MetadataIndex.Json.Basic
import MetadataIndex.Decimal.Numeral

/-!
# Reading structured documents

A document holds one value between blanks. The names of infinity and not-a-number are numbers; a
text may not hold control characters; a repeated member keeps its first place and its last value.
-/

set_option autoImplicit false

namespace MetadataIndex.Json

/-- Why a document cannot be read. -/
inductive ReadError where
  | malformed
  | longNumeral
deriving DecidableEq, Repr

def skipBlanks (cs : List Char) : List Char :=
  cs.dropWhile fun c => c == ' ' || c == '\t' || c == '\n' || c == '\r'

def hexValue? (c : Char) : Option Nat :=
  if '0' ≤ c && c ≤ '9' then some (c.toNat - 48)
  else if 'a' ≤ c && c ≤ 'f' then some (c.toNat - 87)
  else if 'A' ≤ c && c ≤ 'F' then some (c.toNat - 55)
  else none

def readUnit : List Char → Except ReadError (Nat × List Char)
  | a :: b :: c :: d :: rest =>
    match hexValue? a, hexValue? b, hexValue? c, hexValue? d with
    | some a, some b, some c, some d => .ok (a * 4096 + b * 256 + c * 16 + d, rest)
    | _, _, _, _ => .error .malformed
  | _ => .error .malformed

/-- The character of an escape with four digits; two that form a pair become one character. -/
def readUnitEscape (cs : List Char) : Except ReadError (Char × List Char) := do
  let (high, rest) ← readUnit cs
  if 0xd800 ≤ high && high ≤ 0xdbff then
    match rest with
    | '\\' :: 'u' :: more =>
      let (low, rest') ← readUnit more
      if 0xdc00 ≤ low && low ≤ 0xdfff then
        return (Char.ofNat (0x10000 + (high - 0xd800) * 0x400 + (low - 0xdc00)), rest')
      else return (Char.ofNat 0xfffd, rest)
    | _ => return (Char.ofNat 0xfffd, rest)
  else if 0xdc00 ≤ high && high ≤ 0xdfff then return (Char.ofNat 0xfffd, rest)
  else return (Char.ofNat high, rest)

def shortEscape? : Char → Option Char
  | '"' => some '"'
  | '\\' => some '\\'
  | '/' => some '/'
  | 'b' => some (Char.ofNat 8)
  | 'f' => some (Char.ofNat 12)
  | 'n' => some '\n'
  | 'r' => some '\r'
  | 't' => some '\t'
  | _ => none

/-- The rest of a text after its opening quote; `acc` holds what was read, in reverse. -/
def readText : Nat → List Char → List Char → Except ReadError (String × List Char)
  | 0, _, _ => .error .malformed
  | fuel + 1, acc, cs =>
    match cs with
    | [] => .error .malformed
    | '"' :: rest => .ok (String.ofList acc.reverse, rest)
    | '\\' :: 'u' :: rest =>
      match readUnitEscape rest with
      | .ok (c, rest) => readText fuel (c :: acc) rest
      | .error e => .error e
    | '\\' :: c :: rest =>
      match shortEscape? c with
      | some c => readText fuel (c :: acc) rest
      | none => .error .malformed
    | c :: rest =>
      if c.toNat < 32 || c = '\\' then .error .malformed else readText fuel (c :: acc) rest

/-- The ASCII digits at the start of a text, and the rest. -/
def spanDigits (cs : List Char) : List Char × List Char :=
  (cs.takeWhile Char.isDigit, cs.dropWhile Char.isDigit)

def digitValues (cs : List Char) : List Nat :=
  cs.map fun c => c.toNat - 48

/-- A point with at least one digit after it, or nothing. -/
def spanFraction : List Char → List Char × List Char
  | '.' :: rest => match spanDigits rest with
    | ([], _) => ([], '.' :: rest)
    | split => split
  | cs => ([], cs)

def spanExponent? : List Char → Option Int × List Char
  | [] => (none, [])
  | e :: rest =>
    if e = 'e' || e = 'E' then
      let (negative, unsigned) := Decimal.takeSign rest
      match spanDigits unsigned with
      | ([], _) => (none, e :: rest)
      | (ds, rest') =>
        let n : Int := Decimal.ofDigits (digitValues ds)
        (some (if negative then -n else n), rest')
    else (none, e :: rest)

/-- A number: digits without superfluous zero, and optionally a fraction and an exponent. -/
def readNumber (cs : List Char) : Except ReadError (Json × List Char) :=
  let (negative, unsigned) := match cs with
    | '-' :: rest => (true, rest)
    | _ => (false, cs)
  let (whole, rest) := match unsigned with
    | '0' :: rest => (['0'], rest)
    | _ => spanDigits unsigned
  if whole.isEmpty then .error .malformed
  else
    let (fraction, rest) := spanFraction rest
    let (exponent, rest) := spanExponent? rest
    if fraction.isEmpty && exponent.isNone then
      if Decimal.digitLimit < whole.length then .error .longNumeral
      else
        let n : Int := Decimal.ofDigits (digitValues whole)
        .ok (.int (if negative then -n else n), rest)
    else
      let x : Decimal.Scientific :=
        ⟨negative, digitValues (whole ++ fraction), exponent.getD 0 - fraction.length⟩
      .ok (.float x.toFloat, rest)

def words : List (String × Json) :=
  [("null", .null), ("true", .bool true), ("false", .bool false), ("NaN", .float (0.0 / 0.0)),
    ("Infinity", .float (1.0 / 0.0)), ("-Infinity", .float (-(1.0 / 0.0)))]

/-- The word at the start of a text, and the rest. -/
def readWord? (cs : List Char) : Option (Json × List Char) :=
  words.findSome? fun (word, value) =>
    if word.toList.isPrefixOf cs then some (value, cs.drop word.length) else none

mutual

def readValue : Nat → List Char → Except ReadError (Json × List Char)
  | 0, _ => .error .malformed
  | fuel + 1, cs =>
    match cs with
    | '"' :: rest => do
      let (s, rest) ← readText (rest.length + 1) [] rest
      return (.text s, rest)
    | '[' :: rest =>
      match skipBlanks rest with
      | ']' :: rest => .ok (.array [], rest)
      | rest => readItems fuel [] rest
    | '\x7b' :: rest =>
      match skipBlanks rest with
      | '\x7d' :: rest => .ok (.object [], rest)
      | rest => readMembers fuel [] rest
    | cs => match readWord? cs with
      | some result => .ok result
      | none => readNumber cs

/-- The items of a sequence up to its end; `acc` holds those read, in reverse. -/
def readItems : Nat → List Json → List Char → Except ReadError (Json × List Char)
  | 0, _, _ => .error .malformed
  | fuel + 1, acc, cs => do
    let (item, rest) ← readValue fuel cs
    match skipBlanks rest with
    | ',' :: rest => readItems fuel (item :: acc) (skipBlanks rest)
    | ']' :: rest => return (.array (item :: acc).reverse, rest)
    | _ => .error .malformed

def readMembers : Nat → List (String × Json) → List Char → Except ReadError (Json × List Char)
  | 0, _, _ => .error .malformed
  | fuel + 1, acc, cs =>
    match cs with
    | '"' :: rest => do
      let (name, rest) ← readText (rest.length + 1) [] rest
      match skipBlanks rest with
      | ':' :: rest =>
        let (value, rest) ← readValue fuel (skipBlanks rest)
        let members := store name value acc
        match skipBlanks rest with
        | ',' :: rest => readMembers fuel members (skipBlanks rest)
        | '\x7d' :: rest => return (.object members, rest)
        | _ => .error .malformed
      | _ => .error .malformed
    | _ => .error .malformed

end

def read (s : String) : Except ReadError Json := do
  let cs := s.toList
  let (value, rest) ← readValue (2 * cs.length + 2) (skipBlanks cs)
  if (skipBlanks rest).isEmpty then return value else .error .malformed

end MetadataIndex.Json
