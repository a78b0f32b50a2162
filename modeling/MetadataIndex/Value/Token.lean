import MetadataIndex.Json.Setting
import MetadataIndex.Text.Search
import MetadataIndex.Text.Category

/-!
# Tokens, identifiers and names

Small changes to a value: folding it into one token, making it an identifier, and cleaning a
name of the marks that joining its parts leaves behind.
-/

set_option autoImplicit false

namespace MetadataIndex.Value

/-- Whether a character is kept when the levels of a hierarchy are folded at `splitting`. -/
def isHierarchyChar (splitting : List Char) (c : Char) : Bool :=
  Text.isWordChar c || c == '|' || splitting.contains c

/-- Folds a hierarchy into one token: what is neither a word character nor part of the separator is
removed, and the separator becomes a period. -/
def foldHierarchy (splitting value : String) : String :=
  let kept := (value.toList.filter (· != ' ')).filter (isHierarchyChar splitting.toList)
  Text.replaceLiteral splitting "." (String.ofList (kept.filter (· != '_')))

/-- Folds a value into one token. A separator of the levels must be a text. -/
def toOneToken (value : String) (splitting : Option Json) : Checked String :=
  match splitting with
  | some v => v.asText.map fun s =>
    if s.isEmpty then String.ofList (value.toList.filter Text.isWordChar)
    else foldHierarchy s value
  | none => .ok (String.ofList (value.toList.filter Text.isWordChar))

def isIllegalInIdentifier (c : Char) : Bool :=
  c == ' ' || c == ',' || c == ':' || c == '(' || c == ')'

/-- Trims an identifier and writes an underscore for what may not stand in it. -/
def toIdentifier (value : String) : String :=
  String.ofList ((Text.trim value).toList.map fun c => if isIllegalInIdentifier c then '_' else c)

/-- An ASCII character that is neither a letter nor a digit. -/
def isAsciiMark (c : Char) : Bool :=
  c.toNat < 128 && !Text.isAsciiAlphanumeric c.toNat

/-- Trims a name and removes the ASCII marks at its ends. -/
def cleanName (value : String) : String :=
  String.ofList (Text.strip isAsciiMark (Text.trim value).toList)

end MetadataIndex.Value
