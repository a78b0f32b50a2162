import MetadataIndex.Decimal.Numeral
import MetadataIndex.Field.Basic
import MetadataIndex.Fault

/-!
# Filling gaps

The integers between the least and the greatest value of a field that the field does not have, so
that a range of years or centuries has no holes.
-/

set_option autoImplicit false

namespace MetadataIndex

def integerValues (name : String) (fields : List Field) : List Int :=
  (Field.valuesOf name fields).filterMap Decimal.readInt?

def integersBetween (lo hi : Int) : List Int :=
  (List.range (hi - lo).toNat).map fun (i : Nat) => lo + i

/-- The integers between the least and the greatest of `present` that are neither among them nor
skipped, in ascending order. -/
def missingIntegers (present skip : List Int) : List Int :=
  match present with
  | [] => []
  | n :: more =>
    (integersBetween (more.foldl min n) (more.foldl max n)).filter fun i =>
      !present.contains i && !skip.contains i

def completeIntegers (fields : List Field) (name : String) (skip : List Int) :
    Checked (List Field) :=
  if name.isEmpty then refuse .emptyFieldName
  else .ok ((missingIntegers (integerValues name fields) skip).map fun i => ⟨name, toString i⟩)

/-- The years that fill the gaps between those of a field. -/
def completeYears (fields : List Field) (name : String := FieldName.year) : Checked (List Field) :=
  completeIntegers fields name []

/-- The centuries that fill the gaps; there is no century 0. -/
def completeCenturies (fields : List Field) : Checked (List Field) :=
  completeIntegers fields FieldName.century [0]

end MetadataIndex
