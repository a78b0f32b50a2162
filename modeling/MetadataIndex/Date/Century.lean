import MetadataIndex.Date.Reading
import MetadataIndex.Field.Basic
import MetadataIndex.Json.Setting

/-!
# Centuries and date fields

The fields that a date gives: its year, its century unless it was written before, and its month and
day where it has them.
-/

set_option autoImplicit false

namespace MetadataIndex

/-- The century of a year. The years 1 to 100 are century 1, the negative years are counted likewise,
and the year 0 counts as century 1. -/
def centuryOf (year : Int) : Int :=
  if year = 0 then 1
  else
    let century : Int := (year.natAbs - 1) / 100 + 1
    if 0 < year then century else -century

namespace PartialDate

def yearText (d : PartialDate) : String := padded 4 d.year

def monthFields (d : PartialDate) : List Field :=
  match d.month with
  | none => []
  | some month =>
    let monthText := padded 2 month
    ⟨FieldName.yearMonth, d.yearText ++ monthText⟩ ::
      match d.day with
      | none => []
      | some day =>
        let dayText := padded 2 day
        [⟨FieldName.yearMonthDay, d.yearText ++ monthText ++ dayText⟩,
          ⟨FieldName.monthDay, monthText ++ dayText⟩]

/-- The fields of a date, and the centuries written afterwards. `custom` names a further field for
the year. -/
def fields (centuries : List Int) (custom : Option String) (d : PartialDate) :
    List Field × List Int :=
  let century := centuryOf d.year
  let isNew := !centuries.contains century
  let newCentury := if isNew then [(⟨FieldName.century, toString century⟩ : Field)] else []
  let customYear := custom.toList.map fun name => (⟨name, toString d.year⟩ : Field)
  (⟨FieldName.year, toString d.year⟩ :: newCentury ++ customYear ++ d.monthFields,
    if isNew then century :: centuries else centuries)

def fieldsOfAll (custom : Option String) : List Int → List PartialDate → List Field × List Int
  | centuries, [] => ([], centuries)
  | centuries, d :: more =>
    let (first, centuries) := d.fields centuries custom
    let (rest, centuries) := fieldsOfAll custom centuries more
    (first ++ rest, centuries)

end PartialDate

/-- The name of a configured further field; it must be a text when it is used. -/
def customFieldName : Option Json → Checked (Option String)
  | none => .ok none
  | some (.text s) => .ok (some s)
  | some (.array _) => .error .wrongType
  | some (.object _) => .error .wrongType
  | some _ => .error .missingPart

/-- The date fields of a value, and the centuries written afterwards. -/
def dateFields (centuries : List Int) (value : String) (least : Int) (custom : Option Json) :
    Checked (List Field × List Int) := do
  if value.isEmpty then return ([], centuries)
  match ← DateText.read value least with
  | [] => return ([], centuries)
  | dates => return PartialDate.fieldsOfAll (← customFieldName custom) centuries dates

end MetadataIndex
