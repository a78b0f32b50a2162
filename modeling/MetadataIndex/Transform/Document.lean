import MetadataIndex.Transform.Basic

/-!
# Structured documents of results

The result of a transformation as a structured document: its fields, its free text, and its grouped
records with those nested in them.
-/

set_option autoImplicit false

namespace MetadataIndex

def Json.ofText? : Option String → Json
  | some s => .text s
  | none => .null

def Field.toJson (f : Field) : Json :=
  .object [("name", .text f.name), ("value", .text f.value)]

namespace GroupedRecord

/-- The members of the document of a record, with its fields as `write` gives them. -/
def members (write : Field → Json) (r : GroupedRecord) : List (String × Json) :=
  [("label", .text r.label), ("group_type", .text r.kind.name),
    ("main_value", .ofText? r.mainValue), ("authority_uri", .ofText? r.authorityUri),
    ("fields", .array (r.fields.map write)),
    ("authority_fields", .array (r.authorityFields.map write))]

end GroupedRecord

namespace GroupDocument

mutual

/-- The document of a record with those nested in it. -/
def toJson : GroupDocument → Json
  | mk record children =>
    .object (record.members Field.toJson ++ [("children", .array (toJsons children))])

def toJsons : List GroupDocument → List Json
  | [] => []
  | d :: more => toJson d :: toJsons more

end

end GroupDocument

def GroupArena.toJson (a : GroupArena) : Checked Json := do
  return .array (GroupDocument.toJsons (← a.toDocuments))

def TransformResult.members (r : TransformResult) : Checked (List (String × Json)) := do
  return [("fields", .array (r.fields.map Field.toJson)), ("default_value", .text r.defaultText),
    ("grouped_metadata", ← r.groups.toJson)]

end MetadataIndex
