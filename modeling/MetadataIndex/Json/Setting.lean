import MetadataIndex.Json.Display
import MetadataIndex.Decimal.Numeral
import MetadataIndex.Decimal.Integral
import MetadataIndex.Fault
import MetadataIndex.Text.Blank
import MetadataIndex.Text.Case

/-!
# Reading settings

How a configured value is taken as a number, a switch, a text or a sequence. A setting that is not
converted is kept as it is given; it must be a text where it is used as one.
-/

set_option autoImplicit false

namespace MetadataIndex.Json

/-- The value as an integer: a number is cut toward zero, a text is read. -/
def toInt : Json → Checked Int
  | int n => .ok n
  | bool b => .ok (if b then 1 else 0)
  | float x =>
    if x.isNaN then refuse .notANumber
    else if x.isInf then .error .overflow
    else .ok (Decimal.truncate x)
  | text s => required .notANumber (Decimal.readInt? s)
  | _ => .error .wrongType

def toFloat : Json → Checked Float
  | int n =>
    let x := Float.ofInt n
    if x.isInf then .error .overflow else .ok x
  | bool b => .ok (if b then 1.0 else 0.0)
  | float x => .ok x
  | text s => required .notANumber (Decimal.readFloat? s)
  | _ => .error .wrongType

def isAffirmative (s : String) : Bool :=
  ["true", "yes", "1"].contains (Text.lower (Text.trim s))

/-- The value as a switch; `default` holds when it is absent. -/
def toSwitch (default : Bool) : Json → Bool
  | null => default
  | text s => isAffirmative s
  | v => v.isGiven

def given? (v : Json) : Option Json :=
  if v.isGiven then some v else none

/-- The members of an object, as what is asked for settings. -/
def settings : Json → Checked (List (String × Json))
  | object members => .ok members
  | _ => .error .missingPart

def setting (members : List (String × Json)) (name : String) : Json :=
  (lookup? name members).getD null

/-- The values a value is a sequence of: the items, the characters or the names of members. -/
def sequence : Json → Checked (List Json)
  | array items => .ok items
  | text s => .ok (s.toList.map fun c => text (String.ofList [c]))
  | object members => .ok (members.map fun (name, _) => text name)
  | _ => .error .wrongType

/-- The values of a sequence that may be absent or empty. -/
def sequenceIfGiven (v : Json) : Checked (List Json) :=
  if v.isGiven then v.sequence else .ok []

def asText : Json → Checked String
  | text s => .ok s
  | _ => .error .wrongType

end MetadataIndex.Json
