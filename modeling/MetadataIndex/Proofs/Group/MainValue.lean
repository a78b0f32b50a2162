import MetadataIndex.Proofs.Field.Facet
import MetadataIndex.Proofs.Group.Drafted

/-!
# Where main values come from

Each text that a group takes from an element is refined once. The main value is a part of such a value
without what surrounds a name, or the name of a person that is put together from its parts.
-/

set_option autoImplicit false

namespace MetadataIndex

open MetadataIndex.Xml (Cursor)

variable {rule : FieldRule} {e : GroupEntity}

/-- A value is what the rule makes of a text. -/
def FieldRule.Refines (r : FieldRule) (value : String) : Prop :=
  ∃ text, r.refine (Text.trim text) = .ok value

/-- A value was refined once, and then cleaned or joined with others. -/
inductive FieldRule.RefinedOnce (r : FieldRule) : String → Prop where
  | cleaned {value part} : r.Refines value → part ∈ Text.splitAtLiteral Collector.splitMark value →
      RefinedOnce r (Value.cleanName part)
  | joined {parts : List String} : (∀ part ∈ parts, r.Refines part) →
      RefinedOnce r (", ".intercalate parts)

namespace GroupReader

variable {g : GroupReader}

theorem refines_of_valueOf {s : Subfield} {text : String} {position : Nat} {v : GroupValue}
    (read : g.valueOf rule s text position = .ok (some v))
    (noAddress : Text.startsWith s.name FieldName.normUri = false) : rule.Refines v.field.value := by
  obtain ⟨value, refined, read⟩ := Checked.bind_ok read
  simp only [noAddress, Bool.false_and, Bool.and_false, Bool.or_false, Bool.false_eq_true,
    if_false] at read
  split at read
  · cases read
  · cases read
    exact ⟨text, refined⟩

theorem refines_of_values {c : Cursor} {reference : Option String} {values : List GroupValue}
    (read : g.values rule e c reference = .ok values) : ∀ v ∈ values,
      Text.startsWith v.field.name FieldName.normUri = false → rule.Refines v.field.value := by
  intro v member noAddress
  obtain ⟨s, -, text, position, read⟩ := of_mem_values read v member
  exact refines_of_valueOf read (name_of_valueOf read ▸ noAddress)

end GroupReader

namespace Draft

variable {d : Draft} {kind : GroupKind}

theorem not_isMainName_sortFieldName (kind : GroupKind) (name : String) :
    isMainName kind (sortFieldName name) = false := by
  have apart : ∀ main : String, main.toList.head? = some 'M' →
      (sortFieldName name == main) = false := by
    intro main head
    refine beq_eq_false_iff_ne.mpr fun same => ?_
    rw [← same] at head
    simp [sortFieldName, FieldName.sortMark] at head
  simp [isMainName, apart FieldName.mainValue rfl, apart FieldName.displayForm rfl,
    apart FieldName.location rfl]

theorem no_address_of_isMainName {name : String} (main : isMainName kind name = true) :
    Text.startsWith name FieldName.normUri = false := by
  simp only [isMainName, Bool.or_eq_true, Bool.and_eq_true, beq_iff_eq] at main
  rcases main with (rfl | ⟨rfl, -⟩) | ⟨rfl, -⟩
  · decide
  · decide
  · decide

/-- The fields of a group with a main name hold parts of refined values. -/
def MainsRefined (rule : FieldRule) (kind : GroupKind) (c : Collector) : Prop :=
  ∀ f ∈ c.toList, isMainName kind f.name = true →
    ∃ value, rule.Refines value ∧ f.value ∈ Text.splitAtLiteral Collector.splitMark value

def CollectedRefined (rule : FieldRule) (d : Draft) : Prop :=
  ∀ f ∈ d.collected, Text.startsWith f.name FieldName.normUri = false → rule.Refines f.value

theorem MainsRefined.put {c : Collector} {name value : String} (mains : MainsRefined rule kind c)
    (own : isMainName kind name = true → rule.Refines value) :
    MainsRefined rule kind (c.put name value true) := by
  refine Collector.put_induction_of_mem mains fun c g part mains f member main => ?_
  rcases Collector.toList_addPart true c g with same | grown
  · exact mains f (same ▸ member) main
  · rw [grown, List.mem_append, List.mem_singleton] at member
    rcases member with old | rfl
    · exact mains f old main
    · obtain ⟨piece, given, rfl⟩ := List.mem_map.mp part
      exact ⟨value, own main, given⟩

theorem mainsRefined_addValues (mains : MainsRefined rule kind d.group) {values : List GroupValue}
    (refined : ∀ v ∈ values, Text.startsWith v.field.name FieldName.normUri = false →
      rule.Refines v.field.value) : MainsRefined rule kind (d.addValues values).group := by
  unfold addValues
  induction values generalizing d with
  | nil => exact mains
  | cons v values ih =>
    refine ih ?_ fun w later => refined w (.tail _ later)
    have own := mains.put fun main => refined v (.head _) (no_address_of_isMainName main)
    unfold addValue
    dsimp only
    split
    · refine own.put fun main => ?_
      rw [not_isMainName_sortFieldName] at main
      cases main
    · exact own

theorem collectedRefined_addValues (collected : d.CollectedRefined rule) {values : List GroupValue}
    (refined : ∀ v ∈ values, Text.startsWith v.field.name FieldName.normUri = false →
      rule.Refines v.field.value) : (d.addValues values).CollectedRefined rule := by
  unfold addValues
  induction values generalizing d with
  | nil => exact collected
  | cons v values ih =>
    refine ih (fun f member => ?_) fun w later => refined w (.tail _ later)
    rcases List.mem_append.mp member with old | new
    · exact collected f old
    · obtain rfl := List.mem_singleton.mp new
      exact refined v (.head _)

theorem ofLabel_not_isMainName (label : String) (kind : GroupKind) :
    (ofLabel label kind).group.AllNames fun name => isMainName kind name = false := by
  have others : ∀ name ∈ [FieldName.label, FieldName.groupKind], isMainName kind name = false := by
    cases kind <;> decide
  exact (Collector.allNames_empty.put (others _ (by simp))).put (others _ (by simp))

theorem mainsRefined_ofLabel (label : String) (kind : GroupKind) :
    MainsRefined rule kind (ofLabel label kind).group := by
  intro f member main
  rw [ofLabel_not_isMainName label kind f member] at main
  cases main

@[simp] theorem collected_takeMainValue (kind : GroupKind) (d : Draft) :
    (takeMainValue kind d).collected = d.collected := by
  unfold takeMainValue
  split
  · rfl
  · rfl

theorem refinedOnce_takeMainValue (mains : MainsRefined rule kind d.group) (none : d.mainValue = none)
    {main : String} (taken : (takeMainValue kind d).mainValue = some main) :
    rule.RefinedOnce main := by
  unfold takeMainValue at taken
  split at taken
  · rw [none] at taken
    cases taken
  case h_2 f found =>
    rw [← Option.some.inj taken]
    have main := List.find?_some found
    obtain ⟨value, refined, part⟩ := mains f (List.mem_of_find?_eq_some found) main
    exact .cleaned refined part

theorem refinedOnce_takePersonName (collected : d.CollectedRefined rule)
    (own : ∀ main, d.mainValue = some main → rule.RefinedOnce main) {main : String}
    (taken : (takePersonName kind d).mainValue = some main) : rule.RefinedOnce main := by
  unfold takePersonName at taken
  dsimp only at taken
  split at taken
  · rw [← Option.some.inj taken]
    refine .joined fun part member => ?_
    obtain ⟨name, listed, head⟩ := List.mem_filterMap.mp member
    have noAddress : Text.startsWith name FieldName.normUri = false := by
      have each : ∀ name ∈ [FieldName.lastName, FieldName.firstName],
          Text.startsWith name FieldName.normUri = false := by
        decide
      exact each name listed
    obtain ⟨f, found, rfl⟩ := List.mem_map.mp (List.mem_of_head? head)
    obtain ⟨known, named⟩ := List.mem_filter.mp found
    exact collected f known (beq_iff_eq.mp named ▸ noAddress)
  · exact own main taken

theorem refinedOnce_ofElement {g : GroupReader} {c : Cursor} {label main : String}
    (made : ofElement g rule e c label = .ok d) (given : d.mainValue = some main) :
    rule.RefinedOnce main := by
  obtain ⟨own, read, made⟩ := Checked.bind_ok made
  have refined := GroupReader.refines_of_values read
  have mains := mainsRefined_addValues (mainsRefined_ofLabel label e.kind) refined
  have collected : CollectedRefined rule ((ofLabel label e.kind).addValues own) :=
    collectedRefined_addValues (d := ofLabel label e.kind) (fun _ member => by cases member) refined
  have none : ((ofLabel label e.kind).addValues own).mainValue = none := mainValue_addValues _ _
  generalize (ofLabel label e.kind).addValues own = drafted at made mains collected none
  have taken : ∀ main, (takeMainValue e.kind drafted).mainValue = some main → rule.RefinedOnce main :=
    fun main taken => refinedOnce_takeMainValue mains none taken
  have kept : CollectedRefined rule (takeMainValue e.kind drafted) := by
    rw [CollectedRefined, collected_takeMainValue]
    exact collected
  dsimp only at made
  split at made
  · obtain ⟨referenced, read', made⟩ := Checked.bind_ok made
    cases made
    refine refinedOnce_takePersonName ?_ (fun main same => taken main ?_) given
    · exact collectedRefined_addValues (d := { takeMainValue e.kind drafted with
        identifier := identifierOf own }) kept (GroupReader.refines_of_values read')
    · rwa [mainValue_addValues] at same
  · cases made
    exact refinedOnce_takePersonName (d := { takeMainValue e.kind drafted with
      identifier := identifierOf own }) kept taken given

end Draft

end MetadataIndex
