import MetadataIndex.Proofs.Group.Queue
import MetadataIndex.Proofs.Group.Readings

/-!
# What groups collect

A record is drafted from the values of its element, those of its parent for a reference in it and those
of the document of a citation. The group keeps what these values give it, in this order; it cleans the
first main value of its element, and under a few names it writes values of its own.
-/

set_option autoImplicit false

namespace MetadataIndex

open MetadataIndex.Xml (Cursor)

variable {ω τ : Type} {rule : FieldRule} {e : GroupEntity} {name : String}

open FieldName (IsSort)
open Collector (newParts)

namespace Draft

variable {d : Draft} {values : List GroupValue} {kind : GroupKind}

theorem toList_addValues (d : Draft) (values : List GroupValue) :
    (d.addValues values).group.toList = d.group.toList ++ values.flatMap (·.fields) := by
  unfold addValues
  induction values generalizing d with
  | nil => simp
  | cons v values ih =>
    have first : (d.addValue v).group.toList = d.group.toList ++ v.fields := by
      unfold addValue GroupValue.fields
      cases v.sorts with
      | false => simp [Collector.toList_put_repeated]
      | true => simp [Collector.toList_put_repeated]
    rw [List.foldl_cons, ih, first, List.flatMap_cons, List.append_assoc]

theorem values_addValues (d : Draft) (values : List GroupValue) (name : String) :
    (d.addValues values).group.values name
      = d.group.values name ++ Field.valuesOf name (values.flatMap (·.fields)) := by
  rw [Collector.values, toList_addValues, Field.valuesOf_append]
  rfl

theorem collected_addValues (d : Draft) (values : List GroupValue) :
    (d.addValues values).collected = d.collected ++ values.map (·.field) := by
  unfold addValues
  induction values generalizing d with
  | nil => simp
  | cons v values ih =>
    rw [List.foldl_cons, ih]
    simp [addValue]

theorem reached_addValues (reached : d.group.Reached) (values : List GroupValue) :
    (d.addValues values).group.Reached := by
  unfold addValues
  induction values generalizing d with
  | nil => exact reached
  | cons v values ih =>
    refine ih ?_
    unfold addValue
    dsimp only
    split
    · exact (reached.put _ _ _).put _ _ _
    · exact reached.put _ _ _

/-- The names under which a group writes values of its own before it has a key. -/
def ownNames (kind : GroupKind) : List String :=
  [FieldName.label, FieldName.groupKind, FieldName.normUri]
    ++ if kind == .person then [FieldName.mainValue] else []

theorem not_mem_ownNames_of_isSort (sorts : IsSort name) :
    name ∉ FieldName.groupKey :: ownNames kind := by
  have plain : ∀ own ∈ FieldName.groupKey :: ownNames kind, ¬IsSort own := by
    cases kind <;> decide
  exact fun own => plain name own sorts

/-- What is left of a value that was collected: the value, or the name in it. -/
def Leaves (kind : GroupKind) (name given left : String) : Prop :=
  left = given ∨ isMainName kind name = true ∧ left = Value.cleanName given

theorem leaves_refl (given : List String) : List.Forall₂ (Leaves kind name) given given :=
  List.forall₂_same.mpr fun _ _ => .inl rfl

theorem eq_of_leaves {given left : List String} (leaves : List.Forall₂ (Leaves kind name) given left)
    (plain : isMainName kind name ≠ true) : left = given := by
  have same := leaves.imp fun _ _ leaves => (leaves.resolve_right fun main => plain main.1).symm
  rw [List.forall₂_eq_eq_eq] at same
  exact same.symm

/-- The group of a draft has what values gave it. -/
structure Collects (kind : GroupKind) (values : List GroupValue) (d : Draft) : Prop where
  collected : d.collected = values.map (·.field)
  group : ∀ name ∉ ownNames kind, List.Forall₂ (Leaves kind name)
    (Field.valuesOf name (values.flatMap (·.fields))) (d.group.values name)
  reached : d.group.Reached

theorem values_ofLabel {label : String} (other : name ∉ ownNames kind) :
    (ofLabel label kind).group.values name = [] := by
  simp only [ownNames, List.mem_append, List.mem_cons, not_or] at other
  unfold ofLabel
  rw [Collector.values_put _ (Ne.symm other.1.2.1), Collector.values_put _ (Ne.symm other.1.1)]
  rfl

theorem reached_ofLabel (label : String) (kind : GroupKind) : (ofLabel label kind).group.Reached :=
  ((Collector.Reached.ofDefault "").put _ _ _).put _ _ _

theorem collects_takeMainValue (label : String) (kind : GroupKind) (own : List GroupValue) :
    (takeMainValue kind ((ofLabel label kind).addValues own)).Collects kind own := by
  have reached := reached_addValues (reached_ofLabel label kind) own
  refine ⟨?_, fun name other => ?_, ?_⟩
  · rw [collected_takeMainValue, collected_addValues]
    rfl
  · have given : ((ofLabel label kind).addValues own).group.values name
        = Field.valuesOf name (own.flatMap (·.fields)) := by
      rw [values_addValues, values_ofLabel other, List.nil_append]
    unfold takeMainValue
    split
    case h_1 =>
      rw [given]
      exact leaves_refl _
    case h_2 f found =>
      -- Only the first value under the name of the main value changes.
      by_cases taken : f.name = name
      · obtain ⟨more, first⟩ := Field.valuesOf_of_find? (p := isMainName kind) found
        have main : isMainName kind f.name = true := List.find?_some (p := fun g : Field =>
          isMainName kind g.name) found
        subst taken
        change Collector.values _ _ = _ at first
        rw [Collector.values_replaceValue_self, ← given, first]
        exact .cons (.inr ⟨main, rfl⟩) (leaves_refl more)
      · rw [Collector.values_replaceValue taken, given]
        exact leaves_refl _
  · unfold takeMainValue
    split
    · exact reached
    · exact reached.replaceValue _ _

theorem Collects.addValues (collects : d.Collects kind values) (more : List GroupValue) :
    (d.addValues more).Collects kind (values ++ more) where
  collected := by rw [collected_addValues, collects.collected, List.map_append]
  group name other := by
    rw [values_addValues, List.flatMap_append, Field.valuesOf_append]
    exact List.rel_append (collects.group name other) (leaves_refl _)
  reached := reached_addValues collects.reached more

theorem Collects.withIdentifier (collects : d.Collects kind values) (identifier : Option String) :
    { d with identifier }.Collects kind values :=
  ⟨collects.collected, collects.group, collects.reached⟩

def nameParts (collected : List Field) : List String :=
  [FieldName.lastName, FieldName.firstName].filterMap fun n => (Field.valuesOf n collected).head?

theorem takePersonName_eq (kind : GroupKind) (d : Draft) :
    takePersonName kind d
      = if d.mainValue = none ∧ kind = .person ∧ nameParts d.collected ≠ [] then
          { d with
            mainValue := some (", ".intercalate (nameParts d.collected))
            group := d.group.put FieldName.mainValue (", ".intercalate (nameParts d.collected)) }
        else d := by
  have same : (d.mainValue.isNone && kind == .person && !(nameParts d.collected).isEmpty) = true
      ↔ d.mainValue = none ∧ kind = .person ∧ nameParts d.collected ≠ [] := by
    simp [and_assoc]
  exact if_congr same rfl rfl

@[simp] theorem collected_takePersonName (kind : GroupKind) (d : Draft) :
    (takePersonName kind d).collected = d.collected := by
  rw [takePersonName_eq]
  split
  · rfl
  · rfl

theorem Collects.takePersonName (collects : d.Collects kind values) :
    (takePersonName kind d).Collects kind values := by
  rw [takePersonName_eq]
  split
  case isTrue person =>
    refine ⟨collects.collected, fun name other => ?_, collects.reached.put _ _ _⟩
    have apart : FieldName.mainValue ≠ name := by
      rintro rfl
      exact other (by simp [ownNames, person.2.1])
    rw [Collector.values_put _ apart]
    exact collects.group name other
  case isFalse => exact collects

/-- The field from which an element has its main value. -/
def mainField? (kind : GroupKind) (own : List GroupValue) : Option Field :=
  (own.flatMap (·.fields)).find? fun f => isMainName kind f.name

/-- The main value: the name in the first main value of the element, or the name of a person. -/
def mainValueOf (kind : GroupKind) (own : List GroupValue) (collected : List Field) : Option String :=
  match mainField? kind own with
  | some f => some (Value.cleanName f.value)
  | none =>
    if kind = .person ∧ nameParts collected ≠ [] then some (", ".intercalate (nameParts collected))
    else none

theorem mainValue_takeMainValue (label : String) (kind : GroupKind) (own : List GroupValue) :
    (takeMainValue kind ((ofLabel label kind).addValues own)).mainValue
      = (mainField? kind own).map fun f => Value.cleanName f.value := by
  have labels : (ofLabel label kind).group.toList.find? (fun f => isMainName kind f.name) = none := by
    rw [List.find?_eq_none]
    intro f member main
    rw [ofLabel_not_isMainName label kind f member] at main
    cases main
  have found : ((ofLabel label kind).addValues own).group.toList.find? (fun f => isMainName kind f.name)
      = mainField? kind own := by
    rw [toList_addValues, List.find?_append, labels, Option.none_or]
    rfl
  unfold takeMainValue
  rw [found]
  cases mainField? kind own with
  | none => exact mainValue_addValues _ own
  | some f => rfl

theorem mainValue_takePersonName {own : List GroupValue}
    (taken : d.mainValue = (mainField? kind own).map fun f => Value.cleanName f.value) :
    (takePersonName kind d).mainValue = mainValueOf kind own d.collected := by
  rw [takePersonName_eq]
  unfold mainValueOf
  cases found : mainField? kind own with
  | some f =>
    rw [found] at taken
    rw [if_neg (by simp [taken])]
    exact taken
  | none =>
    have none : d.mainValue = none := by rw [taken, found]; rfl
    by_cases named : kind = .person ∧ nameParts d.collected ≠ []
    · rw [if_pos ⟨none, named⟩, if_pos named]
    · rw [if_neg fun all => named all.2, if_neg named, none]

theorem collects_ofElement {g : GroupReader} {c : Cursor} {label : String}
    (made : ofElement g rule e c label = .ok d) :
    ∃ (own : List GroupValue) (referenced : Option (List GroupValue)), g.values rule e c = .ok own
      ∧ (∀ values ∈ referenced, ∃ parent reference, c.parentElement? = some parent
        ∧ g.values rule e parent (some reference) = .ok values)
      ∧ d.Collects e.kind (own ++ referenced.getD [])
      ∧ d.mainValue = mainValueOf e.kind own d.collected := by
  obtain ⟨own, read, made⟩ := Checked.bind_ok made
  have first := (collects_takeMainValue label e.kind own).withIdentifier (identifierOf own)
  have taken := mainValue_takeMainValue label e.kind own
  dsimp only at made
  split at made
  case h_1 parent reference above _ =>
    obtain ⟨referenced, readAbove, made⟩ := Checked.bind_ok made
    cases made
    refine ⟨own, some referenced, read, ?_, ?_, ?_⟩
    · rintro _ ⟨⟩
      exact ⟨parent, reference, above, readAbove⟩
    · exact ((first.addValues referenced).withIdentifier _).takePersonName
    · rw [collected_takePersonName]
      exact mainValue_takePersonName ((mainValue_addValues _ referenced).trans taken)
  case h_2 =>
    cases made
    refine ⟨own, none, read, nofun, ?_, ?_⟩
    · simpa using first.takePersonName
    · rw [collected_takePersonName]
      exact mainValue_takePersonName (d := { takeMainValue e.kind ((ofLabel label e.kind).addValues own)
        with identifier := identifierOf own }) taken

theorem values_addGroupKey {label : String} (other : FieldName.groupKey ≠ name) :
    (d.addGroupKey label).group.values name = d.group.values name := by
  unfold addGroupKey
  split
  · split
    · rfl
    · exact Collector.values_put _ other
  · rfl

theorem groupKey_addGroupKey {label : String} (reached : d.group.Reached)
    (absent : d.group.values FieldName.groupKey = []) :
    (d.addGroupKey label).group.values FieldName.groupKey
      = (d.givenMainValue.map fun value => newParts (label ++ "_" ++ value)).getD [] := by
  unfold addGroupKey
  cases d.givenMainValue with
  | none => exact absent
  | some value =>
    dsimp only
    rw [Collector.values_eq_nil_iff.mp absent]
    exact reached.keysStored.values_put absent _

theorem values_takeAttributeIdentifier {c : Cursor} (other : FieldName.normUri ≠ name) :
    (d.takeAttributeIdentifier c).group.values name = d.group.values name := by
  unfold takeAttributeIdentifier
  split
  · exact Collector.values_put _ other
  · rfl

@[simp] theorem collected_addGroupKey (label : String) (d : Draft) :
    (d.addGroupKey label).collected = d.collected := by
  unfold addGroupKey
  split
  · split
    · rfl
    · rfl
  · rfl

@[simp] theorem collected_takeAttributeIdentifier (c : Cursor) (d : Draft) :
    (d.takeAttributeIdentifier c).collected = d.collected := by
  unfold takeAttributeIdentifier
  split
  · rfl
  · rfl

end Draft

namespace GroupBuilder

variable {b : GroupBuilder ω τ} {t : GroupTask} {d : Draft} {restricted : Bool}

/-- The readings of an entity: of the element, of its parent for a reference in it, and of the document
of a citation. -/
structure Reads (b : GroupBuilder ω τ) (rule : FieldRule) (t : GroupTask) (own : List GroupValue)
    (referenced cited : Option (List GroupValue)) : Prop where
  own : b.reader.values rule t.entity t.element = .ok own
  referenced : ∀ values ∈ referenced, ∃ parent reference, t.element.parentElement? = some parent
    ∧ b.reader.values rule t.entity parent (some reference) = .ok values
  cited : ∀ values ∈ cited, ∃ root, b.reader.values rule t.entity root = .ok values

section Readings

variable {own : List GroupValue} {referenced cited : Option (List GroupValue)}

/-- What holds of the values of every reading holds of all that are read. -/
theorem Reads.forall_mem {P : GroupValue → Prop} (reads : b.Reads rule t own referenced cited)
    (each : ∀ c reference values, b.reader.values rule t.entity c reference = .ok values →
      ∀ v ∈ values, P v) : ∀ v ∈ own ++ referenced.getD [] ++ cited.getD [], P v := by
  have getD {found : Option (List GroupValue)} (all : ∀ values ∈ found, ∀ v ∈ values, P v) :
      ∀ v ∈ found.getD [], P v := by
    cases found with
    | none => exact List.forall_mem_nil _
    | some values => exact all values rfl
  refine List.forall_mem_append.mpr ⟨List.forall_mem_append.mpr ⟨each _ _ _ reads.own, ?_⟩, ?_⟩
  · refine getD fun values given => ?_
    obtain ⟨_, _, -, read⟩ := reads.referenced values given
    exact each _ _ _ read
  · refine getD fun values given => ?_
    obtain ⟨_, read⟩ := reads.cited values given
    exact each _ _ _ read

/-- What bounds the values of a kind in each reading, and in that for a reference, bounds all of them. -/
theorem Reads.countP_le_of_each {p : GroupValue → Bool} {most referring : Nat}
    (reads : b.Reads rule t own referenced cited)
    (each : ∀ c values, b.reader.values rule t.entity c none = .ok values → values.countP p ≤ most)
    (refers : ∀ c reference values, b.reader.values rule t.entity c (some reference) = .ok values →
      values.countP p ≤ referring) :
    (own ++ referenced.getD [] ++ cited.getD []).countP p
      ≤ most + referenced.toList.length * referring + cited.toList.length * most := by
  rw [List.countP_append, List.countP_append]
  refine Nat.add_le_add (Nat.add_le_add (each _ _ reads.own) ?_) ?_
  · cases same : referenced with
    | none => exact Nat.zero_le _
    | some values =>
      obtain ⟨_, _, -, read⟩ := reads.referenced values same
      simpa using refers _ _ _ read
  · cases same : cited with
    | none => exact Nat.zero_le _
    | some values =>
      obtain ⟨_, read⟩ := reads.cited values same
      simpa using each _ _ read

theorem Reads.name_of_mem (reads : b.Reads rule t own referenced cited) :
    ∀ v ∈ own ++ referenced.getD [] ++ cited.getD [],
      ∃ s ∈ t.entity.subfields, v.field.name = s.name :=
  reads.forall_mem fun _ _ _ => GroupReader.name_of_values

theorem Reads.value_ne_empty (reads : b.Reads rule t own referenced cited) :
    ∀ v ∈ own ++ referenced.getD [] ++ cited.getD [], v.field.value ≠ "" :=
  reads.forall_mem fun _ _ _ => GroupReader.value_ne_empty

theorem Reads.exists_parts (reads : b.Reads rule t own referenced cited)
    (whole : ∀ value ∈ Field.valuesOf name ((own ++ referenced.getD [] ++ cited.getD []).map (·.field)),
      Text.containsLiteral value Collector.splitMark = false) :
    ∀ part ∈ Field.valuesOf name ((own ++ referenced.getD [] ++ cited.getD []).map (·.field)),
      ∃ value, part ∈ Collector.givenParts value := by
  intro part member
  obtain ⟨v, inside, same⟩ := List.mem_map.mp (Field.mem_valuesOf.mp member)
  have given := reads.value_ne_empty v inside
  rw [same] at given
  refine ⟨part, ?_⟩
  rw [Collector.givenParts_of_whole (whole part member) given]
  exact List.mem_singleton_self part

/-- What a draft has from the values that were read for it. -/
structure Gathers (b : GroupBuilder ω τ) (rule : FieldRule) (t : GroupTask) (own : List GroupValue)
    (referenced cited : Option (List GroupValue)) (d : Draft) : Prop where
  reads : b.Reads rule t own referenced cited
  collected : d.collected = (own ++ referenced.getD [] ++ cited.getD []).map (·.field)
  group : ∀ name ∉ FieldName.groupKey :: Draft.ownNames t.entity.kind,
    List.Forall₂ (Draft.Leaves t.entity.kind name)
      (Field.valuesOf name ((own ++ referenced.getD [] ++ cited.getD []).flatMap (·.fields)))
      (d.group.values name)
  groupKey : (∀ v ∈ own ++ referenced.getD [] ++ cited.getD [], v.field.name ≠ FieldName.groupKey) →
    d.group.values FieldName.groupKey
      = (d.givenMainValue.map fun value => Collector.newParts (t.label ++ "_" ++ value)).getD []
  mainValue : d.mainValue
    = Draft.mainValueOf t.entity.kind own ((own ++ referenced.getD []).map (·.field))

theorem Gathers.values_of_not_isMainName (gathers : b.Gathers rule t own referenced cited d)
    (outside : name ∉ FieldName.groupKey :: Draft.ownNames t.entity.kind)
    (plain : Draft.isMainName t.entity.kind name ≠ true) :
    d.group.values name
      = Field.valuesOf name ((own ++ referenced.getD [] ++ cited.getD []).flatMap (·.fields)) :=
  Draft.eq_of_leaves (gathers.group name outside) plain

/-- If no value under a plain name is split, a group has one there for each. -/
theorem Gathers.leaves_of_whole (gathers : b.Gathers rule t own referenced cited d)
    (outside : name ∉ FieldName.groupKey :: Draft.ownNames t.entity.kind) (plain : ¬IsSort name)
    (whole : ∀ value ∈ d.valuesOf name, Text.containsLiteral value Collector.splitMark = false) :
    (∀ part ∈ d.valuesOf name, ∃ value, part ∈ Collector.givenParts value)
      ∧ List.Forall₂ (Draft.Leaves t.entity.kind name) (d.valuesOf name) (d.group.values name) := by
  rw [Draft.valuesOf, gathers.collected] at whole ⊢
  have parts := gathers.reads.exists_parts whole
  have leaves := gathers.group name outside
  rw [GroupValue.valuesOf_flatMap_fields plain, Collector.flatMap_givenParts parts] at leaves
  exact ⟨parts, leaves⟩

/-- A draft with its key and with the identifier in the attributes of its element. -/
def keyed (b : GroupBuilder ω τ) (t : GroupTask) (d : Draft) : Draft :=
  if b.authority.isSome then (d.addGroupKey t.label).takeAttributeIdentifier t.element
  else d.addGroupKey t.label

theorem values_keyed (other : FieldName.normUri ≠ name) :
    (b.keyed t d).group.values name = (d.addGroupKey t.label).group.values name := by
  unfold keyed
  split
  · exact Draft.values_takeAttributeIdentifier other
  · rfl

theorem mainValue_keyed : (b.keyed t d).mainValue = d.mainValue := by
  unfold keyed
  split
  · simp
  · simp

theorem collected_keyed : (b.keyed t d).collected = d.collected := by
  unfold keyed
  split
  · simp
  · simp

theorem gathers_of_collects (reads : b.Reads rule t own referenced cited)
    (collects : d.Collects t.entity.kind (own ++ referenced.getD [] ++ cited.getD []))
    (main : d.mainValue
      = Draft.mainValueOf t.entity.kind own ((own ++ referenced.getD []).map (·.field))) :
    b.Gathers rule t own referenced cited (b.keyed t d) := by
  constructor
  · exact reads
  · rw [collected_keyed, collects.collected]
  · intro name other
    obtain ⟨key, own⟩ := not_or.mp (List.mem_cons.not.mp other)
    have uri : FieldName.normUri ≠ name := by
      rintro rfl
      exact own (by simp [Draft.ownNames])
    rw [values_keyed uri, Draft.values_addGroupKey (Ne.symm key)]
    exact collects.group name own
  · intro unnamed
    have outside : FieldName.groupKey ∉ Draft.ownNames t.entity.kind := by
      cases t.entity.kind <;> decide
    have absent := collects.group _ outside
    rw [GroupValue.valuesOf_flatMap_fields (by decide),
      Field.valuesOf_eq_nil_iff.mpr (List.forall_mem_map.mpr unnamed)] at absent
    rw [values_keyed (by decide), Draft.groupKey_addGroupKey collects.reached
      (List.forall₂_nil_left_iff.mp absent), Draft.givenMainValue, Draft.givenMainValue,
      mainValue_keyed]
  · rw [mainValue_keyed, main]

end Readings

theorem gathers_of_draft {w w' : ω} (drafted : b.draft rule t w = .ok d w') :
    ∃ own referenced cited, b.Gathers rule t own referenced cited d := by
  unfold draft at drafted
  obtain ⟨first, _, lifted, drafted⟩ := Action.bind_ok drafted
  obtain ⟨made, rfl⟩ := Action.lift_ok lifted
  obtain ⟨own, referenced, read, readAbove, collects, main⟩ := Draft.collects_ofElement made
  rw [collects.collected] at main
  obtain ⟨root, _, -, drafted⟩ := Action.bind_ok drafted
  cases root with
  | none =>
    cases drafted
    exact ⟨own, referenced, none,
      gathers_of_collects ⟨read, readAbove, nofun⟩ (by simpa using collects) main⟩
  | some root =>
    -- The document is read when the main value is taken already, so it gives none.
    obtain ⟨cited, _, lifted, drafted⟩ := Action.bind_ok drafted
    obtain ⟨readRoot, rfl⟩ := Action.lift_ok lifted
    cases drafted
    refine ⟨own, referenced, some cited, gathers_of_collects ⟨read, readAbove, ?_⟩
      ((collects.addValues cited).withIdentifier _) ((Draft.mainValue_addValues _ cited).trans main)⟩
    rintro _ ⟨⟩
    exact ⟨root, readRoot⟩

end GroupBuilder

end MetadataIndex
