import MetadataIndex.Proofs.Transform.Caching
import MetadataIndex.Proofs.Transform.MainValue

/-!
# Whether there are coordinates

The last field of a transformation says whether there are coordinates for spatial search. Rules write it
only by naming it, and the copy of an authority record to the owning record leaves it out; so unless a
rule names it, it is written once, at the end, when all coordinates are there.
-/

set_option autoImplicit false

namespace MetadataIndex

variable {ω τ : Type}

namespace Collector

variable {c : Collector} {name value : String}

theorem hasField_iff : c.hasField name = true ↔ ∃ f ∈ c.toList, f.name = name := by
  simp only [hasField, ← Array.any_toList, List.any_eq_true, beq_iff_eq, toList]

/-- A value under a name that is not there yet becomes the last field. -/
theorem toList_put_of_new (indexed : c.Indexed) (given : value ≠ "")
    (whole : Text.containsLiteral value splitMark = false) (new : ∀ f ∈ c.toList, f.name ≠ name) :
    (c.put name value).toList = c.toList ++ [⟨name, value⟩] := by
  have unknown : c.keys.contains ⟨name, value⟩ = false :=
    Bool.eq_false_iff.mpr fun known => new _ ((indexed _).mp known) rfl
  rw [put_eq_foldl, partsOf_of_not_contains whole, List.foldl_cons, List.foldl_nil]
  simp [addPart, given, unknown, toList]

/-- It is not yet said whether there are coordinates. -/
structure Unplaced (c : Collector) : Prop where
  indexed : c.Indexed
  names : c.AllNames (· ≠ FieldName.hasWktCoords)

theorem Unplaced.put (unplaced : c.Unplaced) (other : name ≠ FieldName.hasWktCoords) (value : String)
    (repeats : Bool) : (c.put name value repeats).Unplaced :=
  ⟨unplaced.indexed.put, unplaced.names.put other⟩

theorem unplaced_ofDefault (text : String) : (ofDefault text).Unplaced :=
  ⟨indexed_empty, List.forall_mem_nil _⟩

end Collector

open Collector (Unplaced)

theorem FieldRule.writesKeep_unplaced {r : FieldRule}
    (unnamed : ¬r.Names FieldName.hasWktCoords) : r.WritesKeep Unplaced := by
  apply FieldRule.WritesKeep.of_put
  · intro c value unplaced
    exact ⟨unplaced.indexed, unplaced.names⟩
  · intro c name value repeats named _ unplaced
    exact unplaced.put (fun same => unnamed (same ▸ named same)) value repeats
  · intro c centuries _ unplaced
    exact ⟨unplaced.indexed, unplaced.names⟩

theorem TransformResult.mem_values {result : TransformResult} {name v : String} :
    v ∈ result.values name ↔ ⟨name, v⟩ ∈ result.fields := Field.mem_valuesOf

namespace Transformer

open AuthorityFields (truthText)

variable {t : Transformer ω τ} {input : TransformInput}

/-- The centuries that are filled in are no coordinates, so that what is said last is true of all
fields. -/
theorem wrapUp_of_unplaced {c c' : Collector} (unplaced : c.Unplaced) (wrapped : wrapUp c = .ok c') :
    ∃ filled : Collector, filled.AllNames (· ≠ FieldName.hasWktCoords)
      ∧ c'.toList = filled.toList
        ++ [⟨FieldName.hasWktCoords, truthText (filled.hasField FieldName.wktCoords)⟩] := by
  obtain ⟨centuries, complete, wrapped⟩ := Checked.bind_ok wrapped
  have century : FieldName.century ≠ FieldName.hasWktCoords := by decide
  have filled : (c.extend centuries).Unplaced :=
    Collector.extend_induction unplaced fun _ f member unplaced =>
      unplaced.put (name_of_completeIntegers complete f member ▸ century) f.value false
  have unsaid : (c.extend centuries).hasField FieldName.hasWktCoords = false := by
    refine Bool.eq_false_iff.mpr fun said => ?_
    obtain ⟨f, member, same⟩ := Collector.hasField_iff.mp said
    exact filled.names f member same
  dsimp only at wrapped
  rw [unsaid] at wrapped
  cases wrapped
  refine ⟨c.extend centuries, filled.names, ?_⟩
  cases (c.extend centuries).hasField FieldName.wktCoords with
  | true => exact Collector.toList_put_of_new filled.indexed (by decide) (by decide) filled.names
  | false => exact Collector.toList_put_of_new filled.indexed (by decide) (by decide) filled.names

/-- Where no rule names the field that says whether there are coordinates, it is the last field and
occurs only there. It says `true` exactly when a field with coordinates is among all fields, however it
came there, and `false` otherwise. -/
theorem transform_tells_coordinates
    (unnamed : ∀ r ∈ t.rules.allRules, ¬r.Names FieldName.hasWktCoords)
    {o o' : AuthorityState ω τ} {result : TransformResult}
    (ran : t.transform input o = .ok result o') :
    ∃ before value, result.fields = before ++ [⟨FieldName.hasWktCoords, value⟩]
      ∧ (∀ f ∈ before, f.name ≠ FieldName.hasWktCoords)
      ∧ (value = "true" ↔ ∃ f ∈ result.fields, f.name = FieldName.wktCoords)
      ∧ (value = "false" ↔ ∀ f ∈ result.fields, f.name ≠ FieldName.wktCoords) := by
  obtain ⟨c, c', unplaced, wrapped, same⟩ := transform_keeps
    (fun r member => FieldRule.writesKeep_unplaced (unnamed r member))
    (Collector.unplaced_ofDefault input.default) ran
  obtain ⟨filled, names, shown⟩ := wrapUp_of_unplaced unplaced wrapped
  have other : FieldName.hasWktCoords ≠ FieldName.wktCoords := by decide
  have placed : (∃ f ∈ result.fields, f.name = FieldName.wktCoords)
      ↔ filled.hasField FieldName.wktCoords = true := by
    rw [same, shown, Collector.hasField_iff]
    simp [other, or_and_right, exists_or]
  refine ⟨filled.toList, _, same.trans shown, names, ?_⟩
  have unplaced : (∀ f ∈ result.fields, f.name ≠ FieldName.wktCoords)
      ↔ ¬∃ f ∈ result.fields, f.name = FieldName.wktCoords := by
    simp only [not_exists, not_and, ne_eq]
  rw [unplaced, placed]
  cases filled.hasField FieldName.wktCoords with
  | true => decide
  | false => decide

/-- Places as coordinates, and names whose authority records are copied with all that they say. -/
def placesAndNames : Transformer Rat Rat where
  rules := {
    fields := oneNameTransformer.rules.fields ++ [(FieldName.wktCoords, [{
      field := FieldName.wktCoords, sources := [{ xpath := "p" }] }])] }
  builder := oneNameTransformer.builder

def placesInput : TransformInput where
  element := (Xml.Document.read? "<r><n uri='http://n/1'>A.</n><p>POINT(1 2)</p></r>").bind (·.root?)

theorem placesAndNames_tells_coordinates :
    ∃ result left before, placesAndNames.transform placesInput ⟨0, none⟩ = .ok result left
      ∧ (result.groups.toList.map fun r => (r.promotesAuthority && r.promotesCoordinates,
          Field.valuesOf FieldName.hasWktCoords r.authorityFields)) = [(true, ["false"])]
      ∧ result.fields = before ++ [⟨FieldName.hasWktCoords, "true"⟩]
      ∧ ∀ f ∈ before, f.name ≠ FieldName.hasWktCoords := by
  have given : ((placesAndNames.transform placesInput).outcome ⟨0, none⟩).map (fun result =>
      (result.groups.toList.map (fun r => (r.promotesAuthority && r.promotesCoordinates,
          Field.valuesOf FieldName.hasWktCoords r.authorityFields)),
        result.values FieldName.wktCoords)) = .ok ([(true, ["false"])], ["POINT(1 2)"]) := by
    decide +kernel
  cases ran : placesAndNames.transform placesInput ⟨0, none⟩ with
  | error fault left =>
    rw [Action.outcome_of_error ran] at given
    cases given
  | ok result left =>
    rw [Action.outcome_of_ok ran] at given
    obtain ⟨own, values⟩ := Prod.mk.inj (Except.ok.inj given)
    have unnamed : ∀ r ∈ placesAndNames.rules.allRules, ¬r.Names FieldName.hasWktCoords := by
      simp [RuleSet.allRules, placesAndNames, oneNameTransformer, FieldRule.Names,
        FieldName.wktCoords, FieldName.hasWktCoords]
    obtain ⟨before, value, same, others, told, -⟩ := transform_tells_coordinates unnamed ran
    have placed : ⟨FieldName.wktCoords, "POINT(1 2)"⟩ ∈ result.fields :=
      TransformResult.mem_values.mp (values ▸ .head _)
    have true : value = "true" := told.mpr ⟨_, placed, rfl⟩
    exact ⟨result, left, before, rfl, own, true ▸ same, others⟩

end Transformer

end MetadataIndex
