import MetadataIndex.Json.Basic
import MetadataIndex.Decimal.Shortest
import MetadataIndex.Text.Quoted

/-!
# Writing structured documents

A document is written on one line, with a blank after commas and colons, and in ASCII: other
characters are escaped by their UTF-16 units.
-/

set_option autoImplicit false

namespace MetadataIndex.Json

def unitEscape (n : Nat) : List Char :=
  '\\' :: 'u' :: Text.hexDigits 4 n

def escapeChar (c : Char) : List Char :=
  if c = '"' then ['\\', '"']
  else if c = '\\' then ['\\', '\\']
  else if c = '\n' then ['\\', 'n']
  else if c = '\r' then ['\\', 'r']
  else if c = '\t' then ['\\', 't']
  else if c.toNat = 8 then ['\\', 'b']
  else if c.toNat = 12 then ['\\', 'f']
  else if 32 ≤ c.toNat && c.toNat < 127 then [c]
  else if c.toNat < 0x10000 then unitEscape c.toNat
  else
    let n := c.toNat - 0x10000
    unitEscape (0xd800 + n / 0x400) ++ unitEscape (0xdc00 + n % 0x400)

def renderText (s : String) : String :=
  String.ofList ('"' :: s.toList.flatMap escapeChar ++ ['"'])

mutual

def render : Json → String
  | null => "null"
  | bool b => if b then "true" else "false"
  | int n => toString n
  | float x => Decimal.documentNotation.text x
  | text s => renderText s
  | array items => "[" ++ ", ".intercalate (renderItems items) ++ "]"
  | object members => "\x7b" ++ ", ".intercalate (renderMembers members) ++ "\x7d"

def renderItems : List Json → List String
  | [] => []
  | item :: more => render item :: renderItems more

def renderMembers : List (String × Json) → List String
  | [] => []
  | (name, value) :: more => (renderText name ++ ": " ++ render value) :: renderMembers more

end

end MetadataIndex.Json
