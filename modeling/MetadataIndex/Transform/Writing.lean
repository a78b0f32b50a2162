import MetadataIndex.Date.Century
import MetadataIndex.Date.Gaps
import MetadataIndex.Field.SortKey
import MetadataIndex.Value.Pipeline

/-!
# Writing values

A value is refined and written under the name of its rule, together with what the rule derives
from it: text for the free text, coordinates, dates, a sort field and a copy that is not cut into
words.
-/

set_option autoImplicit false

namespace MetadataIndex.FieldRule

/-- The value as it is written, if it is written at all: a blank value is not, and an order number
must be an integer. -/
def accepted (r : FieldRule) (raw : String) : Checked (Option String) := do
  let value ← r.refine raw
  if (Text.trim value).isEmpty then return none
  else if r.field == FieldName.currentNoSort then
    return (Decimal.readInt? value).map toString
  else return some value

def coordinates (r : FieldRule) (value : String) : Geo.Converted :=
  match r.geoSource with
  | some source => Geo.convert value source r.geoSeparator
  | none => {}

def writeCoordinates (r : FieldRule) (found : Geo.Converted) (c : Collector) : Collector :=
  match found.wkt with
  | some wkt => if r.addGeoSearchField then c.put FieldName.wktCoords wkt else c
  | none => c

/-- Writes the sort field of a value under a mark. -/
def writeSort (r : FieldRule) (mark : String) (f : Field) (c : Collector) : Checked Collector :=
  (c.addSortField f.name f.value mark r.pipeline.nonSort r.pipeline.normalizers).map (·.1)

def writeDateField (r : FieldRule) (c : Collector) (f : Field) : Checked Collector :=
  r.writeSort FieldName.sortNumberMark f (c.put f.name f.value)

def writeDates (r : FieldRule) (value : String) (c : Collector) : Checked Collector := do
  let (fields, centuries) ← dateFields c.centuries value r.yearDigits r.yearField
  fields.foldlM r.writeDateField { c with centuries }

/-- Writes a value and what is derived from it. The mark of restricted access gives no text. -/
def writeAccepted (r : FieldRule) (accepted : String) (c : Collector) : Checked Collector := do
  let found := r.coordinates accepted
  let value := found.geojson.getD accepted
  let c := r.writeCoordinates found c
  let restricted := value == FieldName.accessRestricted
  let c := if r.addToDefault && !restricted then c.addDefault value else c
  let c ← if r.normalizeYear then r.writeDates value c else pure c
  let c := c.put r.field value r.allowDuplicates
  let c ← if r.addSortField then r.writeSort FieldName.sortMark ⟨r.field, value⟩ c else pure c
  return if r.addUntokenized && !restricted then
    c.put (FieldName.untokenized r.field) value r.allowDuplicates else c

def write (r : FieldRule) (raw : String) (c : Collector) : Checked (Collector × Bool) := do
  match ← r.accepted raw with
  | some value => return (← r.writeAccepted value c, true)
  | none => return (c, false)

/-- Writes raw values in order; a rule for the first value stops after it. -/
def writeAll (r : FieldRule) : List String → Collector → Checked Collector
  | [], c => return c
  | raw :: more, c => do
    let (c, written) ← r.write raw c
    if written && r.stopsAfterFirst then return c else writeAll r more c

def writeConstant (r : FieldRule) (constant : String) (c : Collector) : Checked Collector := do
  let value := Text.trim (constant ++ r.valuePostfix)
  let value ← if r.pipeline.oneToken then Value.toOneToken value r.pipeline.splittingCharacter
    else pure value
  let c := c.put r.field value r.allowDuplicates
  return if r.addToDefault then c.addDefault constant else c

/-- Fills the gaps between the years, and between those of the further field. -/
def interpolate (r : FieldRule) (c : Collector) : Checked Collector := do
  if !r.interpolateYears then return c
  let c := c.extend (← completeYears c.toList)
  match r.yearField with
  | some (.text name) => return c.extend (← completeYears c.toList name)
  | _ => return c

end MetadataIndex.FieldRule
