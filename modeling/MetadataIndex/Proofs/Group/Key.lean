import MetadataIndex.Proofs.Group.Named

/-!
# The key of a record

Records are grouped by a key: their label with the identifier of the authority record, or with the main
value if there is no identifier. The main value has its key first. An identifier takes its place, or is
written when the record is closed; so a record has one key, or none if it has neither.
-/

set_option autoImplicit false

namespace MetadataIndex

open MetadataIndex.Xml (Cursor)
open Collector (givenParts newParts)

variable {ω τ : Type} {rule : FieldRule}

/-- What the key of a record is made of: the first identifier of its authority record, if it is not
empty, and otherwise the main value. -/
def GroupedRecord.keyValue? (r : GroupedRecord) : Option String :=
  (Field.valuesOf FieldName.normIdentifier r.authorityFields).head?.filter (!·.isEmpty)
    <|> r.mainValue.filter (!·.isEmpty)

theorem AuthorityAnswer.identifier?_eq (a : AuthorityAnswer) :
    a.identifier? = (Field.valuesOf FieldName.normIdentifier a.fields).head?.filter (!·.isEmpty) := by
  rw [identifier?, Field.valuesOf, List.head?_map, List.head?_filter]

theorem AuthorityAnswer.exists_of_identifier? {a : AuthorityAnswer} {identifier : String}
    (given : a.identifier? = some identifier) : ∃ f ∈ a.fields, f.value = identifier := by
  obtain ⟨found, -⟩ := Option.filter_eq_some_iff.mp given
  obtain ⟨f, first, same⟩ := Option.map_eq_some_iff.mp found
  exact ⟨f, List.mem_of_find?_eq_some first, same⟩

/-- A key is not split if neither its label nor its value is. -/
theorem Collector.parts_of_key {label value : String}
    (label' : Text.containsLiteral label splitMark = false)
    (value' : Text.containsLiteral value splitMark = false) :
    givenParts (label ++ "_" ++ value) = [label ++ "_" ++ value]
      ∧ newParts (label ++ "_" ++ value) = [label ++ "_" ++ value] := by
  have whole : Text.containsLiteral (label ++ "_" ++ value) splitMark = false :=
    Text.containsLiteral_joined (by decide) (by simp [splitMark]) label' value'
  have given : label ++ "_" ++ value ≠ "" := by
    simp
  exact ⟨givenParts_of_whole whole given, newParts_of_whole whole given⟩

namespace Draft

variable {kind : GroupKind} {own : List GroupValue} {collected : List Field}

theorem mem_givenParts_of_mainField? {f : Field} (first : mainField? kind own = some f) :
    ∃ value, f.value ∈ givenParts value := by
  obtain ⟨v, -, member⟩ := List.mem_flatMap.mp (List.mem_of_find?_eq_some first)
  refine ⟨v.field.value, ?_⟩
  rcases List.mem_append.mp member with plain | sorted
  · obtain ⟨part, inside, rfl⟩ := List.mem_map.mp plain
    exact inside
  · split at sorted
    · obtain ⟨part, inside, rfl⟩ := List.mem_map.mp sorted
      exact inside
    · cases sorted

/-- A main value is not split if no value is that was collected. -/
theorem whole_of_mainValueOf {main : String} (given : mainValueOf kind own collected = some main)
    (whole : ∀ f ∈ collected, Text.containsLiteral f.value Collector.splitMark = false) :
    Text.containsLiteral main Collector.splitMark = false := by
  unfold mainValueOf at given
  split at given
  case h_1 f first =>
    obtain ⟨value, part⟩ := mem_givenParts_of_mainField? first
    rw [← Option.some.inj given]
    exact Text.containsLiteral_of_infix (Value.cleanName_infix f.value)
      (Collector.whole_of_mem_givenParts part)
  case h_2 =>
    split at given
    · rw [← Option.some.inj given]
      refine Text.containsLiteral_intercalate (by decide) (by simp [Collector.splitMark]) (by decide)
        fun part member => ?_
      obtain ⟨f, inside, rfl⟩ := mem_of_mem_nameParts member
      exact whole f inside
    · cases given

end Draft

namespace GroupBuilder

variable {b : GroupBuilder ω τ} {restricted : Bool}

/-- If no field of its entity is named as the key and nothing is split, a record has one key, made of an
identifier or else of the main value, and none if it has neither. -/
theorem groupKey_of_build {e : GroupEntity} {element : Cursor} {label : String}
    {s s' : BuildState ω τ} {group : GroupArena}
    (ran : b.build rule e element label restricted s = .ok group s') :
    ∀ r ∈ group.toList, ∃ t d answer,
      TaskOf e element label r t ∧ b.Makes rule restricted t d answer r
        ∧ ((∀ s ∈ t.entity.subfields, s.name ≠ FieldName.groupKey) →
          Text.containsLiteral r.label Collector.splitMark = false →
          (∀ f ∈ d.collected, Text.containsLiteral f.value Collector.splitMark = false) →
          (∀ f ∈ r.authorityFields, Text.containsLiteral f.value Collector.splitMark = false) →
          r.values FieldName.groupKey
            = r.keyValue?.toList.map fun value => r.label ++ "_" ++ value) := by
  intro r member
  obtain ⟨t, d, answer, task, makes⟩ := makes_of_build ran r member
  refine ⟨t, d, answer, task, makes, fun unnamed label' collected' answer' => ?_⟩
  obtain ⟨w, w', drafted⟩ := makes.drafted
  obtain ⟨own, referenced, cited, gathers⟩ := gathers_of_draft drafted
  obtain ⟨c, c', finished⟩ := makes.finished
  rw [makes.label] at label' ⊢
  have main' : ∀ main, d.givenMainValue = some main →
      Text.containsLiteral main Collector.splitMark = false := by
    intro main given
    have same := (Option.filter_eq_some_iff.mp given).1
    rw [gathers.mainValue] at same
    refine Draft.whole_of_mainValueOf same fun f inside => collected' f ?_
    rw [gathers.collected, List.map_append]
    exact List.mem_append_left _ inside
  -- The draft has the key of its main value.
  have key : d.group.values FieldName.groupKey
      = d.givenMainValue.toList.map fun value => t.label ++ "_" ++ value := by
    rw [gathers.groupKey fun v inside => ?_]
    · cases given : d.givenMainValue with
      | none => rfl
      | some main => exact (Collector.parts_of_key label' (main' main given)).2
    · obtain ⟨s, subfield, same⟩ := gathers.reads.name_of_mem v inside
      rw [same]
      exact unnamed s subfield
  change Field.valuesOf _ r.fields = _
  rw [Finish.groupKey_fieldsOf finished, key, GroupedRecord.keyValue?, makes.authorityFields,
    ← AuthorityAnswer.identifier?_eq, makes.mainValue]
  change _ = (answer.identifier? <|> d.givenMainValue).toList.map _
  cases found : answer.identifier? with
  | none =>
    cases given : d.givenMainValue with
    | none => rfl
    | some main =>
      exact (List.flatMap_singleton ..).trans (Collector.parts_of_key label' (main' main given)).1
  | some identifier =>
    obtain ⟨f, inside, same⟩ := AuthorityAnswer.exists_of_identifier? found
    obtain ⟨kept, written⟩ := Collector.parts_of_key label'
      (same ▸ answer' f (makes.authorityFields ▸ inside))
    cases d.givenMainValue with
    | none => exact written
    | some main => exact (List.flatMap_singleton ..).trans kept

section Identified

/-- A service that answers with an identifier. -/
def oneIdentifier : AuthorityService Unit Unit where
  lookup _ := pure (.found [("NORM_IDENTIFIER", "7")])
  now world := ((), world)
  scale := { hours := fun _ _ => (), reaches := fun _ _ => false }

def identifiedEntity : GroupEntity :=
  .mk "N" .person none none
    [{ name := FieldName.mainValue, xpaths := ["a"] }, { name := FieldName.normUri, xpaths := ["b"] }]
    [] false false

def identifiedElement : Cursor := elementOf [("a", "x"), ("b", "77")]

def identifying : GroupBuilder Unit Unit := { authority := some oneIdentifier }

def buildIdentified : Action (BuildState Unit Unit) GroupArena :=
  identifying.build nameRule identifiedEntity identifiedElement "N" false

theorem groupKey_of_identified : ∃ group s', buildIdentified ⟨{}, ⟨(), none⟩⟩ = .ok group s'
    ∧ ∀ r ∈ group.toList, r.mainValue = some "x" ∧ r.values FieldName.groupKey = ["N_7"] := by
  obtain ⟨group, s', ran, shown⟩ := Action.ok_of_outcome_map (g := fun group : GroupArena =>
      decide (∀ r ∈ group.toList, r.parent = none ∧ r.label = "N" ∧ r.mainValue = some "x"
        ∧ r.keyValue? = some "7"
        ∧ ∀ f ∈ r.authorityFields, Text.containsLiteral f.value Collector.splitMark = false))
    (b := true) (x := buildIdentified) (s := ⟨{}, ⟨(), none⟩⟩) (by decide +kernel)
  refine ⟨group, s', ran, fun r member => ?_⟩
  obtain ⟨parent, label, main, value, answered⟩ := of_decide_eq_true shown r member
  obtain ⟨t, d, answer, task, makes, key⟩ := groupKey_of_build ran r member
  obtain rfl := task.top parent
  have unnamed : ∀ s ∈ identifiedEntity.subfields, s.name ≠ FieldName.groupKey := by decide
  have collected : ((identifying.draft nameRule ⟨identifiedElement, identifiedEntity, "N", none⟩).outcome
      ()).map (fun d => decide (∀ f ∈ d.collected,
        Text.containsLiteral f.value Collector.splitMark = false)) = .ok true := by
    decide +kernel
  obtain ⟨⟨⟩, _, drafted⟩ := makes.drafted
  rw [Action.outcome_of_ok drafted] at collected
  have whole := of_decide_eq_true (Except.ok.inj collected)
  refine ⟨main, ?_⟩
  rw [key unnamed (label ▸ by decide) whole answered, value, label]
  decide

end Identified

end GroupBuilder

end MetadataIndex
