import Std.Data.TreeSet
import MetadataIndex.Field.Basic
import MetadataIndex.Field.FreeText
import MetadataIndex.Text.Search

/-!
# Collecting fields

A collector holds the fields of a record in the order in which they were written. Empty values are
dropped, and a field is written once unless repetition is asked for. The keys of the fields are
kept beside them, so that a repetition is found without a search; `Collector.addScanning` is the
same rule by search. For this, fields are ordered by name and then by value.
-/

set_option autoImplicit false

namespace MetadataIndex.Field

instance : Ord Field := ⟨compareLex (compareOn name) (compareOn value)⟩

instance : Std.TransOrd Field :=
  inferInstanceAs (Std.TransCmp (compareLex (compareOn name) (compareOn value)))

instance : Std.LawfulEqOrd Field where
  eq_of_compare {f g} h := by
    have h : compareLex (compareOn name) (compareOn value) f g = .eq := h
    simp only [compareLex_eq_eq, compareOn, Std.LawfulEqOrd.compare_eq_iff_eq] at h
    cases f
    cases g
    simp_all

end MetadataIndex.Field

namespace MetadataIndex

/-- The fields and running texts of one record. -/
structure Collector where
  fields : Array Field := #[]
  keys : Std.TreeSet Field := ∅
  default : FreeText := {}
  centuries : List Int := []

namespace Collector

/-- The text at which a value is split into several. -/
def splitMark : String := "\x7bSPLIT\x7d"

def ofDefault (text : String) : Collector := { default := ⟨text⟩ }

def toList (c : Collector) : List Field := c.fields.toList

/-- Writes one part of a value, and says whether it was written. -/
def addPart (repeats : Bool) (c : Collector) (f : Field) : Collector × Bool :=
  if f.value.isEmpty || (c.keys.contains f && !repeats) then (c, false)
  else ({ c with fields := c.fields.push f, keys := c.keys.insert f }, true)

def addParts (repeats : Bool) (c : Collector) (parts : List Field) : Collector × Bool :=
  parts.foldl
    (fun (c, written) f =>
      let (c, now) := c.addPart repeats f
      (c, written || now))
    (c, false)

def partsOf (name value : String) : List Field :=
  (Text.splitAtLiteral splitMark value).map fun part => ⟨name, part⟩

def add (c : Collector) (name value : String) (repeats : Bool := false) : Collector × Bool :=
  c.addParts repeats (partsOf name value)

def put (c : Collector) (name value : String) (repeats : Bool := false) : Collector :=
  (c.add name value repeats).1

def extend (c : Collector) (fields : List Field) (repeats : Bool := false) : Collector :=
  fields.foldl (fun c f => c.put f.name f.value repeats) c

/-- Gives the first field of a name another value, and says whether there is one. -/
def replaceValue (c : Collector) (name value : String) : Collector × Bool :=
  match c.fields.findIdx? (·.name == name) with
  | some i =>
    let keys := match c.fields[i]? with
      | some old => c.keys.erase old
      | none => c.keys
    ({ c with fields := c.fields.set! i ⟨name, value⟩, keys := keys.insert ⟨name, value⟩ }, true)
  | none => (c, false)

def hasField (c : Collector) (name : String) : Bool :=
  c.fields.any (·.name == name)

def firstValue? (c : Collector) (name : String) : Option String :=
  (c.fields.find? (·.name == name)).map (·.value)

def values (c : Collector) (name : String) : List String :=
  Field.valuesOf name c.toList

def addDefault (c : Collector) (value : String) : Collector :=
  { c with default := c.default.add value }

/-- Writes one part of a value after a search among the fields. -/
def addPartScanning (repeats : Bool) (fields : List Field) (f : Field) : List Field × Bool :=
  if f.value.isEmpty || (f ∈ fields && !repeats) then (fields, false)
  else (fields ++ [f], true)

/-- Writes a value by the rule of search: a part is written when no field equals it. -/
def addScanning (fields : List Field) (name value : String) (repeats : Bool := false) :
    List Field × Bool :=
  (partsOf name value).foldl
    (fun (fields, written) f =>
      let (fields, now) := addPartScanning repeats fields f
      (fields, written || now))
    (fields, false)

end Collector

end MetadataIndex
