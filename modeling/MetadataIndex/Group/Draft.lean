import MetadataIndex.Authority.Identifier
import MetadataIndex.Field.SortKey
import MetadataIndex.Rule.Entity
import MetadataIndex.Value.Pipeline
import MetadataIndex.XPath.Query

/-!
# Drafts of grouped records

A draft collects the values that the fields of an entity take from elements. The main value is the
first value that counts as a name; an authority identifier is taken from the field of its address.
-/

set_option autoImplicit false

namespace MetadataIndex

open MetadataIndex.Xml (Cursor)

/-- A value taken from an element. -/
structure GroupValue where
  field : Field
  sorts : Bool := false
  identifier : Option String := none
deriving DecidableEq, Repr

/-- How the fields of an entity are read from an element. -/
structure GroupReader where
  evaluator : XPath.Evaluator := {}
  resolves : Bool := false

namespace GroupReader

/-- What stands in an expression for the value of a reference. -/
def referenceMark : String := "\x7b0\x7d"

/-- The expressions of a field, as configured and as evaluated. With the value of a reference only
those that mention it are evaluated. -/
def queries (s : Subfield) : Option String → List (String × String)
  | none => s.xpaths.map fun xpath => (xpath, xpath)
  | some reference =>
    (s.xpaths.map fun xpath => (xpath, Text.replaceLiteral referenceMark reference xpath)).filter
      fun (configured, query) => query != configured

def texts (g : GroupReader) (s : Subfield) (element : Cursor) (configured query : String) :
    Checked (List String) := do
  let found ← g.evaluator.evaluateTexts query element
  let all := if found.isEmpty then (lookup? configured s.defaults).toList else found
  return if s.multivalued then all else all.take 1

/-- The address of an authority record, which may be written without its vocabulary. -/
def qualified (value : String) : String :=
  if Text.startsWith value "http" then value else defaultVocabulary ++ value

/-- The value that a text is for a field; `position` is its place among the texts of an expression.
A blank value is none, and neither is the address of a vocabulary alone. -/
def valueOf (g : GroupReader) (rule : FieldRule) (s : Subfield) (text : String) (position : Nat) :
    Checked (Option GroupValue) := do
  let value ← rule.refine (Text.trim text)
  let isAddress := Text.startsWith s.name FieldName.normUri
  if (Text.trim value).isEmpty
      || (isAddress && AuthorityIdentifier.vocabularies.contains (Text.trim value)) then
    return none
  let sorts := s.addSortField && !Text.startsWith s.name FieldName.sortMark && position == 0
  if g.resolves && isAddress && 1 < value.length then
    return some {
      field := ⟨s.name, qualified value⟩, sorts
      identifier := if s.name == FieldName.normUri then some value else none }
  else return some { field := ⟨s.name, value⟩, sorts }

def valuesOfQuery (g : GroupReader) (rule : FieldRule) (s : Subfield) (element : Cursor)
    (query : String × String) : Checked (List GroupValue) := do
  let texts ← g.texts s element query.1 query.2
  let values ← texts.zipIdx.mapM fun (text, position) => g.valueOf rule s text position
  return values.filterMap id

/-- The values that the fields of an entity take from an element, in order. -/
def values (g : GroupReader) (rule : FieldRule) (e : GroupEntity) (element : Cursor)
    (reference : Option String := none) : Checked (List GroupValue) := do
  let found ← e.subfields.mapM fun s =>
    (queries s reference).mapM fun query => g.valuesOfQuery rule s element query
  return found.flatten.flatten

end GroupReader

/-- What has been collected for a record. -/
structure Draft where
  group : Collector := {}
  collected : List Field := []
  mainValue : Option String := none
  identifier : Option String := none

namespace Draft

def ofLabel (label : String) (kind : GroupKind) : Draft :=
  { group := (({} : Collector).put FieldName.label label).put FieldName.groupKind kind.name }

def addValue (d : Draft) (v : GroupValue) : Draft :=
  let group := d.group.put v.field.name v.field.value true
  { d with
    group :=
      if v.sorts then group.put (sortFieldName v.field.name) v.field.value true else group
    collected := d.collected ++ [v.field] }

def addValues (d : Draft) (values : List GroupValue) : Draft :=
  values.foldl addValue d

def identifierOf (values : List GroupValue) : Option String :=
  (values.filterMap (·.identifier)).getLast?

def valuesOf (d : Draft) (name : String) : List String :=
  Field.valuesOf name d.collected

/-- Whether a field holds the main value of a record. -/
def isMainName (kind : GroupKind) (name : String) : Bool :=
  name == FieldName.mainValue
    || (name == FieldName.displayForm && kind == .person)
    || (name == FieldName.location && kind == .location)

/-- Takes the first main value, without what surrounds a name. -/
def takeMainValue (kind : GroupKind) (d : Draft) : Draft :=
  match d.group.toList.find? fun f => isMainName kind f.name with
  | none => d
  | some f =>
    let value := Value.cleanName f.value
    { d with mainValue := some value, group := (d.group.replaceValue f.name value).1 }

def reference? (d : Draft) : Option String :=
  (d.group.values FieldName.reference).getLast?

/-- Takes the name of a person from its parts when there is no main value. -/
def takePersonName (kind : GroupKind) (d : Draft) : Draft :=
  let parts := [FieldName.lastName, FieldName.firstName].filterMap fun n => (d.valuesOf n).head?
  if d.mainValue.isNone && kind == .person && !parts.isEmpty then
    let value := ", ".intercalate parts
    { d with mainValue := some value, group := d.group.put FieldName.mainValue value }
  else d

/-- The values of an element, and those that its parent has for a reference in it. -/
def ofElement (g : GroupReader) (rule : FieldRule) (e : GroupEntity) (element : Cursor)
    (label : String) : Checked Draft := do
  let own ← g.values rule e element
  let d := (ofLabel label e.kind).addValues own
  let reference := d.reference?
  let d := { takeMainValue e.kind d with identifier := identifierOf own }
  match element.parentElement?, reference with
  | some parent, some reference =>
    let referenced ← g.values rule e parent (some reference)
    let d := d.addValues referenced
    return takePersonName e.kind
      { d with identifier := d.identifier <|> identifierOf referenced }
  | _, _ => return takePersonName e.kind d

/-- Adds the values of a citation document; an identifier in it comes first. -/
def addCitation (d : Draft) (values : List GroupValue) : Draft :=
  let d := d.addValues values
  { d with identifier := identifierOf values <|> d.identifier }

def givenMainValue (d : Draft) : Option String :=
  d.mainValue.filter (!·.isEmpty)

/-- Writes the key by which search hits are grouped, unless there is one. -/
def addGroupKey (label : String) (d : Draft) : Draft :=
  match d.givenMainValue with
  | some value =>
    if d.group.hasField FieldName.groupKey then d
    else { d with group := d.group.put FieldName.groupKey (label ++ "_" ++ value) }
  | none => d

/-- Takes the identifier from the attributes of the element when there is none. -/
def takeAttributeIdentifier (element : Cursor) (d : Draft) : Draft :=
  match d.identifier, AuthorityIdentifier.ofAttributes? element.attribute? with
  | none, some identifier =>
    let uri := identifier.toUri
    { d with identifier := some uri, group := d.group.put FieldName.normUri uri }
  | _, _ => d

end Draft

end MetadataIndex
