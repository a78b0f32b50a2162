import MetadataIndex.Fault
import MetadataIndex.Group.Record

/-!
# Arenas of grouped records

An arena stores records flat; nesting is expressed by the position of the parent. Each record stands
at the position it names as its own.
-/

set_option autoImplicit false

namespace MetadataIndex

/-- A record with the records nested in it. -/
inductive GroupDocument where
  /-- A record and the documents of its children, in order. -/
  | mk (record : GroupedRecord) (children : List GroupDocument)

namespace GroupDocument

def record : GroupDocument → GroupedRecord
  | mk record _ => record

def children : GroupDocument → List GroupDocument
  | mk _ children => children

/-- Records, each with the documents of those after it that name it as parent; what is left has no
parent among them. Each document comes with the position of its parent. -/
def nest : List GroupedRecord → List (Option Int × GroupDocument)
  | [] => []
  | r :: more =>
    let (below, beside) := (nest more).partition fun (parent, _) => parent == some r.index
    (r.parent, mk r (below.map (·.2))) :: beside

end GroupDocument

/-- A flat store of records. -/
structure GroupArena where
  records : Array GroupedRecord := #[]

namespace GroupArena

def toList (a : GroupArena) : List GroupedRecord := a.records.toList

def size (a : GroupArena) : Nat := a.records.size

def push (a : GroupArena) (r : GroupedRecord) : GroupArena := ⟨a.records.push r⟩

/-- Stores a record at the end; it must name that position as its own. -/
def append (a : GroupArena) (r : GroupedRecord) : Checked GroupArena :=
  if r.index = a.size then .ok (a.push r) else refuse (.recordIndex r.index a.size)

/-- The record at a position; a negative position counts from the end. -/
def get (a : GroupArena) (index : Int) : Checked GroupedRecord :=
  let position := if index < 0 then index + a.size else index
  if position < 0 then .error .outOfRange
  else
    match a.records[position.toNat]? with
    | some r => .ok r
    | none => .error .outOfRange

def roots (a : GroupArena) : List GroupedRecord :=
  a.toList.filter (·.parent.isNone)

def children (a : GroupArena) (index : Int) : List GroupedRecord :=
  a.toList.filter (·.parent == some index)

/-- Whether a topmost record has the content of a record. -/
def containsEqual (a : GroupArena) (r : GroupedRecord) : Bool :=
  a.roots.any (·.sameContent r)

def shift (offset : Nat) (r : GroupedRecord) : GroupedRecord :=
  { r with index := r.index + offset, parent := r.parent.map (· + offset) }

def merge (a other : GroupArena) : GroupArena :=
  ⟨a.records ++ other.records.map (shift a.size)⟩

/-- Whether the parent of a record stands before it or is itself. -/
def hasParentBefore (r : GroupedRecord) : Bool :=
  r.parent.all fun parent => 0 ≤ parent && parent ≤ r.index

def toDocuments (a : GroupArena) : Checked (List GroupDocument) :=
  if a.toList.all hasParentBefore then
    .ok (((GroupDocument.nest a.toList).filter (·.1.isNone)).map (·.2))
  else .error .unknownKey

@[simp] theorem length_toList (a : GroupArena) : a.toList.length = a.size := by
  simp [toList, size]

@[simp] theorem toList_push (a : GroupArena) (r : GroupedRecord) :
    (a.push r).toList = a.toList ++ [r] := by
  simp [toList, push]

@[simp] theorem toList_merge (a other : GroupArena) :
    (a.merge other).toList = a.toList ++ other.toList.map (shift a.size) := by
  simp [toList, merge]

end GroupArena

end MetadataIndex
