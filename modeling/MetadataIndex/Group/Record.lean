import MetadataIndex.Field.Collector
import MetadataIndex.Rule.Entity

/-!
# Grouped records

A grouped record holds the fields of one matched element. Records stand in a hierarchy: each but the
topmost names its parent by position. Two records have the same content when their labels, main
values and fields agree, wherever they stand.
-/

set_option autoImplicit false

namespace MetadataIndex

/-- A grouped record. -/
structure GroupedRecord where
  index : Int
  parent : Option Int := none
  depth : Nat := 0
  label : String
  kind : GroupKind := .other
  fields : List Field := []
  mainValue : Option String := none
  authorityUri : Option String := none
  authorityFields : List Field := []
  promotesAuthority : Bool := false
  promotesCoordinates : Bool := false
deriving DecidableEq, Repr

namespace GroupedRecord

def sameContent (a b : GroupedRecord) : Bool :=
  a.label == b.label && a.mainValue == b.mainValue && a.fields == b.fields

theorem sameContent_iff {a b : GroupedRecord} :
    a.sameContent b = true ↔
      a.label = b.label ∧ a.mainValue = b.mainValue ∧ a.fields = b.fields := by
  simp [sameContent, and_assoc]

def values (r : GroupedRecord) (name : String) : List String :=
  Field.valuesOf name r.fields

def isCoordinateName (name : String) : Bool :=
  Text.startsWith name "WKT_" || Text.startsWith name FieldName.normCoords

/-- Whether an authority field is copied to the owning record. -/
def promotes (r : GroupedRecord) (f : Field) : Bool :=
  f.name != FieldName.hasWktCoords
    && (if isCoordinateName f.name then r.promotesCoordinates else r.promotesAuthority)

/-- Copies an authority field to the owning record; a sort field is written once. -/
def promoteField (c : Collector) (f : Field) : Collector :=
  if Text.startsWith f.name FieldName.sortMark && c.hasField f.name then c
  else c.put f.name f.value

/-- Copies the authority fields of a record to the owning record, as configured. -/
def promote (r : GroupedRecord) (c : Collector) : Collector :=
  (r.authorityFields.filter r.promotes).foldl promoteField c

end GroupedRecord

end MetadataIndex
