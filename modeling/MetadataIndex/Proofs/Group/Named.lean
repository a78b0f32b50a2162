import MetadataIndex.Proofs.Group.Finished
import MetadataIndex.Proofs.Value.Token

/-!
# Which value names a record

The first main value of an element names its record, whatever is left of it: later ones are not asked,
and a value of which nothing is left still counts. Only a person whose element has no main value gets a
name that is put together from a last and a first name, and then the parent of the element may give the
parts.
-/

set_option autoImplicit false

namespace MetadataIndex

open MetadataIndex.Xml (Cursor)

variable {ω τ : Type} {rule : FieldRule}

namespace Draft

variable {kind : GroupKind} {own : List GroupValue} {collected : List Field}

theorem mainValueOf_of_field {f : Field} (first : mainField? kind own = some f) :
    mainValueOf kind own collected = some (Value.cleanName f.value) := by
  rw [mainValueOf, first]

theorem mainValueOf_of_parts (none : mainField? kind own = none) (person : kind = .person)
    (named : nameParts collected ≠ []) :
    mainValueOf kind own collected = some (", ".intercalate (nameParts collected)) := by
  rw [mainValueOf, none]
  exact if_pos ⟨person, named⟩

theorem mem_of_mem_nameParts {part : String} (member : part ∈ nameParts collected) :
    ∃ f ∈ collected, f.value = part := by
  obtain ⟨name, -, head⟩ := List.mem_filterMap.mp member
  exact ⟨_, Field.mem_valuesOf.mp (List.mem_of_head? head), rfl⟩

theorem nameParts_ne_nil {f : Field} (member : f ∈ collected)
    (name : f.name = FieldName.lastName ∨ f.name = FieldName.firstName) : nameParts collected ≠ [] := by
  have given : Field.valuesOf f.name collected ≠ [] :=
    List.ne_nil_of_mem (Field.mem_valuesOf.mpr member)
  have listed : f.name ∈ [FieldName.lastName, FieldName.firstName] := by simpa using name
  intro none
  exact given (List.head?_eq_none_iff.mp (List.filterMap_eq_nil_iff.mp none f.name listed))

end Draft

namespace GroupBuilder

variable {b : GroupBuilder ω τ} {restricted : Bool}

section Persons

/-- An element with a text in each of its children. -/
def elementOf (texts : List (String × String)) : Cursor :=
  let child : String × String → Xml.Node := fun (name, text) =>
    .element { plain := name } [] [] [.text text]
  let root : Xml.Node := .element { plain := "n" } [] [] (texts.map child)
  .inside (.document { content := [root] }) 0 root

def nameRule : FieldRule where
  field := "N"
  sources := [{ xpath := "n" }]

def personEntity : GroupEntity :=
  .mk "N" .person none none
    [{ name := FieldName.mainValue, xpaths := ["a"] }, { name := FieldName.lastName, xpaths := ["b"] }]
    [] false false

def buildPerson (texts : List (String × String)) : Action (BuildState Unit Unit) GroupArena :=
  ({} : GroupBuilder Unit Unit).build nameRule personEntity (elementOf texts) "N" false

end Persons

end GroupBuilder

end MetadataIndex
