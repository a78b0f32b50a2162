import MetadataIndex.Field.Collector
import MetadataIndex.Value.NonSort
import MetadataIndex.Value.Length

/-!
# Sort fields

A sort field holds the value by which records are ordered. A record has at most one under each
name: the first that is written stays.
-/

set_option autoImplicit false

namespace MetadataIndex

def sortFieldName (name : String) (mark : String := FieldName.sortMark) : String :=
  mark ++ Text.replaceLiteral "MD_" "" name

def sortValue (nonSort : List NonSort) (normalizers : List Normalizer) (value : String) :
    Checked String := do
  let stripped ← nonSort.foldlM (fun value n => n.apply value) value
  normalizers.foldlM (fun value n => n.normalize value) stripped

/-- Writes the sort field of a value unless there is one; gives the field that was written. -/
def Collector.addSortField (c : Collector) (name value mark : String) (nonSort : List NonSort)
    (normalizers : List Normalizer) : Checked (Collector × Option Field) := do
  let sortName := sortFieldName name mark
  if c.hasField sortName then return (c, none)
  let key ← sortValue nonSort normalizers value
  match c.add sortName key with
  | (c, true) => return (c, some ⟨sortName, key⟩)
  | (c, false) => return (c, none)

end MetadataIndex
