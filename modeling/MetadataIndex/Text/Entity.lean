import MetadataIndex.Text.Entity.Names
import MetadataIndex.Decimal.Numeral
import MetadataIndex.Fault

/-!
# Character references

References by number or by name are replaced by their characters. A name may lack the semicolon,
and then the longest beginning that is a name counts.
-/

set_option autoImplicit false

namespace MetadataIndex.Text

def endsName (c : Char) : Bool :=
  ['\t', '\n', '\x0c', ' ', '<', '&', '#', ';'].contains c

def numberedReference (n : Nat) : List Char :=
  match remappedReferences.get? n with
  | some codes => codes.map Char.ofNat
  | none =>
    if (0xd800 ≤ n && n ≤ 0xdfff) || 0x10ffff < n then [Char.ofNat 0xfffd]
    else if voidReferences.contains n then []
    else [Char.ofNat n]

/-- The text of the longest beginning of at least two characters that is a name, and what follows
it. `more` counts the characters of the beginnings that remain to be tried. -/
def longestName? (cs : List Char) : Nat → Option (List Char)
  | 0 => none
  | more + 1 =>
    if more + 1 < 2 then none
    else
      match entityText? (cs.take (more + 1)) with
      | some text => some (text ++ cs.drop (more + 1))
      | none => longestName? cs more

/-- What a reference by name stands for; a name that is not known stays as it is. -/
def namedReference (cs : List Char) : List Char :=
  match entityText? cs with
  | some text => text
  | none => (longestName? cs (cs.length - 1)).getD ('&' :: cs)

def semicolon : List Char → List Char
  | ';' :: _ => [';']
  | _ => []

def isHexDigit (c : Char) : Bool :=
  c.isDigit || ('a' ≤ c && c ≤ 'f') || ('A' ≤ c && c ≤ 'F')

def hexNumber (cs : List Char) : Nat :=
  cs.foldl (fun n c => n * 16 + ((base36Digit? c.toLower).getD 0)) 0

/-- A reference after its ampersand: what it stands for and how many characters it has. -/
def reference? (cs : List Char) : Checked (Option (List Char × Nat)) :=
  match cs with
  | '#' :: x :: rest =>
    let hex := rest.takeWhile isHexDigit
    let digits := (x :: rest).takeWhile Char.isDigit
    if !digits.isEmpty then
      let length := 1 + digits.length + (semicolon ((x :: rest).drop digits.length)).length
      if Decimal.digitLimit < digits.length then refuse .notANumber
      else .ok (some (numberedReference (Decimal.ofDigits (digits.map (·.toNat - 48))), length))
    else if (x = 'x' || x = 'X') && !hex.isEmpty then
      let length := 2 + hex.length + (semicolon (rest.drop hex.length)).length
      .ok (some (numberedReference (hexNumber hex), length))
    else .ok none
  | _ =>
    let name := (cs.takeWhile (!endsName ·)).take 32
    if name.isEmpty then .ok none
    else
      let written := name ++ semicolon (cs.drop name.length)
      .ok (some (namedReference written, written.length))

/-- Replaces references, after `skip` characters of a reference already replaced. -/
def unescapeFrom : Nat → List Char → Checked (List Char)
  | _, [] => .ok []
  | skip + 1, _ :: cs => unescapeFrom skip cs
  | 0, c :: cs =>
    if c = '&' then do
      match ← reference? cs with
      | some (text, length) => return text ++ (← unescapeFrom length cs)
      | none => return c :: (← unescapeFrom 0 cs)
    else do return c :: (← unescapeFrom 0 cs)

def unescape (s : String) : Checked String :=
  if s.toList.contains '&' then (unescapeFrom 0 s.toList).map String.ofList else .ok s

end MetadataIndex.Text
