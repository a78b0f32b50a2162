import MetadataIndex.Json.Basic
import MetadataIndex.Decimal.Shortest
import MetadataIndex.Text.Quoted

/-!
# The display form of a value

Where a configured value that is no text is used as one, its display form is taken: `None`, `True`
and `False` for the three words, numbers as they are, and quoted texts inside brackets.
-/

set_option autoImplicit false

namespace MetadataIndex.Json

mutual

def nested : Json → String
  | null => "None"
  | bool b => if b then "True" else "False"
  | int n => toString n
  | float x => Decimal.floatText x
  | text s => Text.quoted s
  | array items => "[" ++ ", ".intercalate (nestedItems items) ++ "]"
  | object members => "\x7b" ++ ", ".intercalate (nestedMembers members) ++ "\x7d"

def nestedItems : List Json → List String
  | [] => []
  | item :: more => nested item :: nestedItems more

def nestedMembers : List (String × Json) → List String
  | [] => []
  | (name, value) :: more => (Text.quoted name ++ ": " ++ nested value) :: nestedMembers more

end

/-- The display form of a value; a text stands for itself. -/
def display : Json → String
  | text s => s
  | v => nested v

/-- The display form of a value that counts as given, else the empty text. -/
def displayIfGiven (v : Json) : String :=
  if v.isGiven then v.display else ""

def kindName : Json → String
  | null => "NoneType"
  | bool _ => "bool"
  | int _ => "int"
  | float _ => "float"
  | text _ => "str"
  | array _ => "list"
  | object _ => "dict"

end MetadataIndex.Json
