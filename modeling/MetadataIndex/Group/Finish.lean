import MetadataIndex.Effect
import MetadataIndex.Field.SortKey
import MetadataIndex.Geo.Basic
import MetadataIndex.Group.Draft

/-!
# Finishing grouped records

The fields of a draft become the fields of a record: coordinates are converted, sort fields are put
at the end, and the terms of the authority record, its identifier and the mark of restricted access
are added. On the way the record gives text and coordinates to the owning record.
-/

set_option autoImplicit false

namespace MetadataIndex

/-- What the authority record of a group gives. -/
structure AuthorityAnswer where
  fields : List Field := []
  terms : FreeText := {}

namespace AuthorityAnswer

def identifier? (a : AuthorityAnswer) : Option String :=
  ((a.fields.find? (·.name == FieldName.normIdentifier)).map (·.value)).filter (!·.isEmpty)

/-- Gives the names in an authority record to the owning record. -/
def noteNames (rule : FieldRule) (label : String) (a : AuthorityAnswer) (c : Collector) :
    Collector :=
  (a.fields.filter fun f => f.name == FieldName.normName && !(Text.trim f.value).isEmpty).foldl
    (fun c f =>
      let c := if rule.addToDefault then c.addDefault f.value else c
      if rule.addUntokenized then c.put (FieldName.untokenized label) f.value else c)
    c

end AuthorityAnswer

namespace Finish

/-- The coordinates that a field of a group is converted to. -/
def coordinates (rule : FieldRule) (f : Field) : Geo.Converted :=
  match rule.geoSource with
  | some source =>
    if f.name == FieldName.mainValue then Geo.convert f.value source rule.geoSeparator else {}
  | none => {}

def converted (rule : FieldRule) (f : Field) : Field :=
  { f with value := (coordinates rule f).geojson.getD f.value }

/-- Gives the coordinates of a field to the owning record. -/
def noteCoordinates (rule : FieldRule) (f : Field) (c : Collector) : Collector :=
  match (coordinates rule f).wkt with
  | some wkt => if rule.addGeoSearchField then c.put FieldName.wktCoords wkt else c
  | none => c

/-- Gives the text of a field, and of the main value, to the owning record. -/
def noteText (rule : FieldRule) (mainValue : Option String) (f : Field) (c : Collector) :
    Collector :=
  if rule.addToDefault then
    let c := match mainValue with
      | some value => if (Text.trim value).isEmpty then c else c.addDefault value
      | none => c
    if f.value.isEmpty || some f.value == mainValue || FieldName.structural.contains f.name then c
    else c.addDefault f.value
  else c

/-- Adds the sort field of a field to the sort fields, unless the group has one. -/
def addSort (rule : FieldRule) (group sorts : Collector) (f : Field) : Checked Collector :=
  if Text.startsWith f.name FieldName.sortMark || group.hasField (sortFieldName f.name) then
    .ok sorts
  else
    (sorts.addSortField f.name f.value FieldName.sortMark rule.pipeline.nonSort
      rule.pipeline.normalizers).map (·.1)

/-- Finishes the fields of a group, in order; gives the fields and the sort fields. -/
def finishFields (rule : FieldRule) (mainValue : Option String) (group : Collector) :
    List Field → Collector → Collector → Action Collector (Collector × Collector)
  | [], finished, sorts => return (finished, sorts)
  | f :: more, finished, sorts => do
    modify (noteCoordinates rule f)
    let f := converted rule f
    let finished := finished.put f.name f.value true
    modify (noteText rule mainValue f)
    let sorts ← addSort rule group sorts f
    finishFields rule mainValue group more finished sorts

def closingFields (rule : FieldRule) (label : String) (mainValue : Option String)
    (answer : AuthorityAnswer) (needsKey restricted : Bool) : List Field :=
  let key := match answer.identifier? with
    | some identifier =>
      if needsKey then [⟨FieldName.groupKey, label ++ "_" ++ identifier⟩] else []
    | none => []
  let main := mainValue.toList.filter fun value =>
    rule.addToDefault && !(Text.trim value).isEmpty
  let terms := if answer.terms.hasText then [answer.terms.buffer] else []
  let mark := mainValue.toList.filter fun value => restricted && !value.isEmpty
  key ++ main.map (⟨FieldName.default, ·⟩) ++ terms.map (⟨FieldName.authorityTerms, ·⟩)
    ++ mark.map fun _ => ⟨FieldName.accessCondition, FieldName.accessRestricted⟩

/-- The group with the identifier of the authority record as its key, and whether it had a key. -/
def keyedGroup (label : String) (answer : AuthorityAnswer) (group : Collector) : Collector × Bool :=
  match answer.identifier? with
  | some identifier => group.replaceValue FieldName.groupKey (label ++ "_" ++ identifier)
  | none => (group, false)

def fieldsOf (rule : FieldRule) (label : String) (d : Draft) (answer : AuthorityAnswer)
    (restricted : Bool) : Action Collector (List Field) := do
  let (group, keyed) := keyedGroup label answer d.group
  let (finished, sorts) ← finishFields rule d.mainValue group group.toList {} {}
  let closed := finished.extend sorts.toList true
  return (closed.extend (closingFields rule label d.mainValue answer (!keyed) restricted)).toList

end Finish

end MetadataIndex
