import MetadataIndex.Proofs.Field.Sorted
import MetadataIndex.Proofs.Group.MainValue

/-!
# Readings of an entity

A reading takes values for the fields of an entity, none of them empty. Each value gives its parts to the
field of its name, and to a sort field if it asks for one. What an expression gives at most, the
expressions of a reading give together at most.
-/

set_option autoImplicit false

namespace MetadataIndex

open MetadataIndex.Xml (Cursor)

variable {rule : FieldRule} {e : GroupEntity} {name : String}

namespace FieldName

/-- The name is that of a sort field. -/
def IsSort (name : String) : Prop := Text.startsWith name sortMark = true

instance (name : String) : Decidable (IsSort name) :=
  inferInstanceAs (Decidable (_ = true))

theorem IsSort.ne {other : String} (sorts : IsSort name) (plain : ¬IsSort other) : other ≠ name := by
  rintro rfl
  exact plain sorts

theorem isSort_sortFieldName (name : String) : IsSort (sortFieldName name) := by
  rw [IsSort, Text.startsWith, Text.beginsWith_iff, sortFieldName, String.toList_append]
  exact List.prefix_append _ _

theorem not_isSort_of_isMainName {kind : GroupKind} (main : Draft.isMainName kind name = true) :
    ¬IsSort name := by
  simp only [Draft.isMainName, Bool.or_eq_true, Bool.and_eq_true, beq_iff_eq] at main
  rcases main with (rfl | ⟨rfl, -⟩) | ⟨rfl, -⟩
  · decide
  · decide
  · decide

end FieldName

open FieldName (IsSort)
open Collector (givenParts newParts)

namespace GroupValue

def sortsUnder (name : String) (v : GroupValue) : Bool :=
  v.sorts && sortFieldName v.field.name == name

def sortParts (name : String) (v : GroupValue) : List String :=
  if v.sortsUnder name then givenParts v.field.value else []

/-- The fields that a value gives to a group. -/
def fields (v : GroupValue) : List Field :=
  (givenParts v.field.value).map (⟨v.field.name, ·⟩)
    ++ if v.sorts then (givenParts v.field.value).map (⟨sortFieldName v.field.name, ·⟩) else []

theorem valuesOf_fields (name : String) (v : GroupValue) :
    Field.valuesOf name v.fields
      = (if v.field.name = name then givenParts v.field.value else []) ++ v.sortParts name := by
  unfold fields sortParts sortsUnder
  rw [Field.valuesOf_append, Field.valuesOf_map]
  cases v.sorts with
  | false => rfl
  | true => simp [Field.valuesOf_map]

theorem sortParts_of_not_isSort (plain : ¬IsSort name) (v : GroupValue) : v.sortParts name = [] := by
  have other : sortFieldName v.field.name ≠ name := by
    rintro rfl
    exact plain (FieldName.isSort_sortFieldName _)
  simp [sortParts, sortsUnder, other]

variable {values : List GroupValue}

theorem valuesOf_flatMap_fields (plain : ¬IsSort name) (values : List GroupValue) :
    Field.valuesOf name (values.flatMap fields)
      = (Field.valuesOf name (values.map (·.field))).flatMap givenParts := by
  rw [Field.valuesOf_flatMap]
  induction values with
  | nil => rfl
  | cons v values ih =>
    rw [List.flatMap_cons, ih, valuesOf_fields, sortParts_of_not_isSort plain]
    by_cases under : v.field.name = name
    · simp [Field.valuesOf, under]
    · simp [Field.valuesOf, under]

theorem valuesOf_flatMap_fields_of_ne (other : ∀ v ∈ values, v.field.name ≠ name) :
    Field.valuesOf name (values.flatMap fields) = values.flatMap (·.sortParts name) := by
  rw [Field.valuesOf_flatMap]
  refine List.flatMap_congr fun v member => ?_
  rw [valuesOf_fields, if_neg (other v member), List.nil_append]

end GroupValue

/-- The results for a list hold at most as many values of a kind as the bounds of each item together. -/
theorem Checked.countP_flatMap_le {α β γ δ : Type} {f : α → Checked β} {view : β → List γ}
    {p : γ → Bool} {bound : α → List δ} {items : List α} {results : List β}
    (ran : items.mapM f = .ok results)
    (each : ∀ i ∈ items, ∀ b, f i = .ok b → (view b).countP p ≤ (bound i).length) :
    (results.flatMap view).countP p ≤ (items.flatMap bound).length := by
  have related := Checked.mapM_ok_iff.mp ran
  clear ran
  induction related with
  | nil => exact Nat.le_refl 0
  | cons head _ ih =>
    rw [List.flatMap_cons, List.countP_append, List.flatMap_cons, List.length_append]
    exact Nat.add_le_add (each _ (.head _) _ head) (ih fun i later => each i (.tail _ later))

/-- The expressions of some fields of an entity, as they are evaluated. -/
def GroupEntity.queriesOf (q : Subfield → Bool) (reference : Option String) (e : GroupEntity) :
    List (String × String) :=
  (e.subfields.filter q).flatMap fun s => GroupReader.queries s reference

namespace GroupReader

variable {g : GroupReader} {s : Subfield} {c : Cursor} {reference : Option String}
  {values : List GroupValue}

theorem qualified_ne_empty {value : String} (given : value ≠ "") : qualified value ≠ "" := by
  unfold qualified
  split
  · exact given
  · exact fun none => given (String.append_eq_empty_iff.mp none).2

/-- A value that was read is not empty, and sorts only as the first text of an expression of a field that
asks for it. -/
theorem of_valueOf {text : String} {position : Nat} {v : GroupValue}
    (read : g.valueOf rule s text position = .ok (some v)) :
    v.field.value ≠ "" ∧ (v.sorts = true → s.addSortField = true ∧ position = 0) := by
  obtain ⟨value, -, read⟩ := Checked.bind_ok read
  dsimp only at read
  split at read
  case isTrue => cases read
  case isFalse kept =>
    have given : value ≠ "" := by
      rintro rfl
      have trimmed : Text.trim "" = "" := by decide
      simp [trimmed] at kept
    split at read
    · cases read
      exact ⟨qualified_ne_empty given, fun sorts => by simp_all⟩
    · cases read
      exact ⟨given, fun sorts => by simp_all⟩

theorem value_ne_empty (read : g.values rule e c reference = .ok values) :
    ∀ v ∈ values, v.field.value ≠ "" := by
  intro v member
  obtain ⟨s, -, text, position, read⟩ := of_mem_values read v member
  exact (of_valueOf read).1

theorem length_queries_le (s : Subfield) (reference : Option String) :
    (queries s reference).length ≤ s.xpaths.length := by
  cases reference with
  | none => simp [queries]
  | some reference =>
    have few := List.length_filter_le (fun query : String × String => query.2 != query.1)
      (s.xpaths.map fun xpath => (xpath, Text.replaceLiteral referenceMark reference xpath))
    rwa [List.length_map] at few

/-- If an expression gives one value of a kind at most, and none for other fields, then a reading gives
at most as many as there are expressions. -/
theorem countP_values_le {p : GroupValue → Bool} {q : Subfield → Bool}
    (each : ∀ s ∈ e.subfields, ∀ query found, g.valuesOfQuery rule s c query = .ok found →
      found.countP p ≤ if q s then 1 else 0)
    (read : g.values rule e c reference = .ok values) :
    values.countP p ≤ (e.queriesOf q reference).length := by
  obtain ⟨found, ran, read⟩ := Checked.bind_ok read
  cases read
  have bounds : e.queriesOf q reference
      = e.subfields.flatMap fun s => if q s then queries s reference else [] := by
    unfold GroupEntity.queriesOf
    induction e.subfields with
    | nil => rfl
    | cons s more ih =>
      rw [List.flatMap_cons, ← ih, List.filter_cons]
      cases q s with
      | true => exact List.flatMap_cons
      | false => rfl
  rw [List.flatten_flatten, bounds]
  refine Checked.countP_flatMap_le ran fun s member results ran => ?_
  have few : (results.flatMap id).countP p
      ≤ ((queries s reference).flatMap fun query => if q s then [query] else []).length := by
    refine Checked.countP_flatMap_le ran fun query _ found read => ?_
    have one := each s member query found read
    cases asked : q s with
    | true => simpa [asked] using one
    | false => simpa [asked] using one
  rw [List.flatMap_id] at few
  cases asked : q s with
  | true => simpa [asked] using few
  | false => simpa [asked] using few

end GroupReader

theorem GroupEntity.length_queriesOf_le (q : Subfield → Bool) (reference : Option String)
    (e : GroupEntity) :
    (e.queriesOf q reference).length ≤ ((e.subfields.filter q).flatMap (·.xpaths)).length := by
  unfold queriesOf
  induction e.subfields.filter q with
  | nil => exact Nat.le_refl 0
  | cons s more ih =>
    rw [List.flatMap_cons, List.flatMap_cons, List.length_append, List.length_append]
    exact Nat.add_le_add (GroupReader.length_queries_le s reference) ih

end MetadataIndex
