import MetadataIndex.Json.Setting
import MetadataIndex.Text.Blank
import MetadataIndex.Text.Case

/-!
# Group entities

A group entity describes a nested record: the fields it takes from an element, in order, and the
entities of the records nested in it.
-/

set_option autoImplicit false

namespace MetadataIndex

/-- What a grouped record describes. -/
inductive GroupKind where
  | person
  | corporation
  | location
  | subject
  | publisher
  | event
  /-- A citation, whose data stand in a document of their own. -/
  | citation
  | record
  | shelfmark
  | other
deriving DecidableEq, Repr

namespace GroupKind

/-- The name under which a kind is configured and written. -/
def name : GroupKind → String
  | person => "PERSON"
  | corporation => "CORPORATION"
  | location => "LOCATION"
  | subject => "SUBJECT"
  | publisher => "PUBLISHER"
  | event => "EVENT"
  | citation => "CITATION"
  | record => "RECORD"
  | shelfmark => "SHELFMARK"
  | other => "OTHER"

def all : List GroupKind :=
  [person, corporation, location, subject, publisher, event, citation, record, shelfmark, other]

/-- The kind with a name in letters of either case. -/
def ofName? (s : String) : Option GroupKind :=
  all.find? (·.name == Text.upper (Text.trim s))

/-- The kind a setting names; an unknown name is another kind. -/
def ofJson (v : Json) : Checked GroupKind :=
  if v.isGiven then
    match v with
    | .text s => .ok ((ofName? s).getD other)
    | _ => .error .missingPart
  else .ok other

end GroupKind

/-- One field of a grouped record. -/
structure Subfield where
  name : String
  xpaths : List String := []
  /-- The value that stands for an expression that gives none. -/
  defaults : List (String × String) := []
  /-- Every value of an expression is kept, not only the first. -/
  multivalued : Bool := true
  /-- The first value of an expression is also written to the sort field. -/
  addSortField : Bool := false
deriving DecidableEq, Repr

namespace Subfield

def addEntry (s : Subfield) (entry : Json) : Subfield :=
  match entry with
  | .object members =>
    let xpath := (Json.setting members "xpath").displayIfGiven
    let value := Json.setting members "default_value"
    { s with
      xpaths := if xpath.isEmpty then s.xpaths else s.xpaths ++ [xpath]
      defaults := if value.isNull then s.defaults else store xpath value.display s.defaults }
  | _ =>
    let xpath := entry.display
    { s with xpaths := if xpath.isEmpty then s.xpaths else s.xpaths ++ [xpath] }

/-- Reads a field of a group. A text or a sequence stands for its expressions. -/
def ofJson (name : String) (config : Json) : Checked Subfield :=
  match config with
  | .text xpath => .ok { name, xpaths := [xpath] }
  | .array items => .ok { name, xpaths := items.map Json.display }
  | _ => do
    let members ← config.settings
    let entries ← ((lookup? "xpaths" members).getD (.array [])).sequence
    let s := entries.foldl addEntry { name }
    return { s with
      multivalued := (Json.setting members "multivalued").toSwitch true
      addSortField := (Json.setting members "add_sort_field").toSwitch false }

end Subfield

/-- A grouped record and the records nested in it. -/
inductive GroupEntity where
  /-- An entity of a kind with its fields and nested entities. -/
  | mk (name : String) (kind : GroupKind) (xpath url : Option Json) (subfields : List Subfield)
      (children : List GroupEntity) (promoteAuthority promoteCoordinates : Bool)

namespace GroupEntity

def name : GroupEntity → String
  | mk name .. => name

def kind : GroupEntity → GroupKind
  | mk _ kind .. => kind

/-- The expression that selects the elements of a nested entity. -/
def xpath : GroupEntity → Option Json
  | mk _ _ xpath .. => xpath

def url : GroupEntity → Option Json
  | mk _ _ _ url .. => url

def subfields : GroupEntity → List Subfield
  | mk _ _ _ _ subfields .. => subfields

def children : GroupEntity → List GroupEntity
  | mk _ _ _ _ _ children .. => children

/-- The authority fields of a record are copied to the owning record. -/
def promoteAuthority : GroupEntity → Bool
  | mk _ _ _ _ _ _ promote _ => promote

/-- The coordinate fields of a record are copied to the owning record. -/
def promoteCoordinates : GroupEntity → Bool
  | mk _ _ _ _ _ _ _ promote => promote

def hasSubfield (e : GroupEntity) (name : String) : Bool :=
  e.subfields.any (·.name == name)

/-- Reads the fields of an entity; an absent configuration is passed over. -/
def readSubfields (members : List (String × Json)) : Checked (List Subfield) :=
  (members.filter fun (_, v) => !v.isNull).mapM fun (name, v) => Subfield.ofJson name v

def readNested : Nat → Json → Checked GroupEntity
  | 0, _ => .error .missingPart
  | depth + 1, config => do
    let members ← config.settings
    let fields := Json.setting members "subfields"
    let subfields ← if fields.isGiven then readSubfields (← fields.settings) else pure []
    let configured ← (Json.setting members "children").sequenceIfGiven
    let children ← configured.mapM fun child => do
      let childMembers ← child.settings
      if (Json.setting childMembers "xpath").isGiven then readNested depth child
      else refuse (.childWithoutXPath (Json.setting childMembers "name").display)
    let kind ← GroupKind.ofJson (Json.setting members "type")
    return mk (Json.setting members "name").displayIfGiven kind
      (Json.setting members "xpath").given? (Json.setting members "url").given? subfields children
      ((Json.setting members "add_authority_data_to_docstruct").toSwitch false)
      ((Json.setting members "add_coords_to_docstruct").toSwitch false)

def ofJson (config : Json) : Checked GroupEntity :=
  readNested (config.depth + 1) config

end GroupEntity

end MetadataIndex
