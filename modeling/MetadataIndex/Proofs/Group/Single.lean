import MetadataIndex.Proofs.Group.Sorted
import MetadataIndex.Proofs.Value.Token

/-!
# Fields that keep one value

A field that is not multivalued keeps the first value of each of its expressions. It is cut there and
nowhere else: each expression gives it a value, in the reading of the element, again in that of its
parent if the expression mentions the reference, and again in that of a citation document.
-/

set_option autoImplicit false

namespace MetadataIndex

open MetadataIndex.Xml (Cursor)
open Collector (givenParts)

variable {ω τ : Type} {rule : FieldRule} {e : GroupEntity} {name : String}

namespace GroupEntity

/-- The fields of a name keep only the first value of an expression. -/
def SingleUnder (name : String) (e : GroupEntity) : Prop :=
  ∀ s ∈ e.subfields, s.name = name → s.multivalued = false

def xpathsUnder (name : String) (e : GroupEntity) : List String :=
  (e.subfields.filter (·.name == name)).flatMap (·.xpaths)

/-- The expressions under a name that mention a reference. -/
def referringUnder (name : String) (e : GroupEntity) : List String :=
  (e.xpathsUnder name).filter (Text.containsLiteral · GroupReader.referenceMark)

theorem length_queriesOf_reference (name : String) (reference : String) (e : GroupEntity) :
    (e.queriesOf (·.name == name) (some reference)).length ≤ (e.referringUnder name).length := by
  unfold queriesOf referringUnder xpathsUnder
  induction e.subfields.filter (·.name == name) with
  | nil => exact Nat.le_refl 0
  | cons s more ih =>
    rw [List.flatMap_cons, List.flatMap_cons, List.length_append, List.filter_append,
      List.length_append]
    refine Nat.add_le_add ?_ ih
    rw [GroupReader.queries, List.filter_map, List.length_map, ← List.countP_eq_length_filter,
      ← List.countP_eq_length_filter]
    refine List.countP_mono_left fun xpath _ changed => ?_
    by_contra absent
    have same : Text.replaceLiteral GroupReader.referenceMark reference xpath = xpath :=
      Text.replaceLiteral_of_not_contains (Bool.eq_false_iff.mpr absent)
    simp [same] at changed

end GroupEntity

namespace GroupReader

variable {g : GroupReader} {s : Subfield} {c : Cursor} {reference : Option String}
  {values : List GroupValue}

/-- A field that is not multivalued has one value at most from an expression. -/
theorem length_valuesOfQuery_le {query : String × String} (single : s.multivalued = false)
    (read : g.valuesOfQuery rule s c query = .ok values) : values.length ≤ 1 := by
  obtain ⟨texts, found, read⟩ := Checked.bind_ok read
  obtain ⟨results, each, read⟩ := Checked.bind_ok read
  cases read
  obtain ⟨all, -, found⟩ := Checked.bind_ok found
  cases found
  have same := (Checked.mapM_ok_iff.mp each).length_eq
  rw [List.length_zipIdx, single, if_neg Bool.false_ne_true, List.length_take] at same
  have few := List.length_filterMap_le id results
  omega

theorem countP_named_query (single : e.SingleUnder name) (subfield : s ∈ e.subfields)
    {query : String × String} (read : g.valuesOfQuery rule s c query = .ok values) :
    values.countP (·.field.name == name) ≤ if s.name == name then 1 else 0 := by
  split
  case isTrue under =>
    have few := length_valuesOfQuery_le (single s subfield (beq_iff_eq.mp under)) read
    exact List.countP_le_length.trans few
  case isFalse other =>
    apply Nat.le_of_eq
    rw [List.countP_eq_zero]
    intro v member same
    obtain ⟨text, position, read⟩ := of_mem_valuesOfQuery read v member
    rw [name_of_valueOf read] at same
    exact other same

theorem countP_named_values (single : e.SingleUnder name)
    (read : g.values rule e c reference = .ok values) :
    values.countP (·.field.name == name) ≤ (e.queriesOf (·.name == name) reference).length :=
  countP_values_le (fun _ subfield _ _ => countP_named_query single subfield) read

end GroupReader

namespace GroupBuilder

variable {b : GroupBuilder ω τ} {t : GroupTask} {d : Draft} {restricted : Bool}
  {own : List GroupValue} {referenced cited : Option (List GroupValue)}

theorem Reads.countP_named_le (reads : b.Reads rule t own referenced cited)
    (single : t.entity.SingleUnder name) :
    (own ++ referenced.getD [] ++ cited.getD []).countP (·.field.name == name)
      ≤ (t.entity.xpathsUnder name).length
        + referenced.toList.length * (t.entity.referringUnder name).length
        + cited.toList.length * (t.entity.xpathsUnder name).length := by
  refine reads.countP_le_of_each (fun _ _ read => ?_) fun _ reference _ read => ?_
  · exact (GroupReader.countP_named_values single read).trans (t.entity.length_queriesOf_le _ none)
  · exact (GroupReader.countP_named_values single read).trans
      (t.entity.length_queriesOf_reference name reference)

/-- Under a name whose fields keep one value, each reading collects a value at most from each expression,
and that for a reference only from expressions that mention it. If nothing else is written there and no
value is split, the record has these values: as they are, unless they may be main values. So it has one
at most if there is one expression and the element alone was read. -/
theorem length_values_of_build {e : GroupEntity} {element : Cursor} {label : String}
    {s s' : BuildState ω τ} {group : GroupArena}
    (ran : b.build rule e element label restricted s = .ok group s') :
    ∀ r ∈ group.toList, ∃ t d answer own referenced cited,
      TaskOf e element label r t ∧ b.Makes rule restricted t d answer r
        ∧ b.Reads rule t own referenced cited
        ∧ ∀ name, t.entity.SingleUnder name →
          (d.valuesOf name).length ≤ (t.entity.xpathsUnder name).length
              + referenced.toList.length * (t.entity.referringUnder name).length
              + cited.toList.length * (t.entity.xpathsUnder name).length
            ∧ (Finish.OnlyGiven rule t.entity.kind name →
              (∀ v ∈ d.valuesOf name, Text.containsLiteral v Collector.splitMark = false) →
              (r.values name).length ≤ (d.valuesOf name).length
                ∧ (Draft.isMainName t.entity.kind name = false → r.values name = d.valuesOf name)) := by
  intro r member
  obtain ⟨t, d, answer, task, makes⟩ := makes_of_build ran r member
  obtain ⟨w, w', drafted⟩ := makes.drafted
  obtain ⟨own, referenced, cited, gathers⟩ := gathers_of_draft drafted
  refine ⟨t, d, answer, own, referenced, cited, task, makes, gathers.reads, ?_⟩
  intro name single
  -- The draft lists what was collected before any of it was split or cleaned.
  have count : (d.valuesOf name).length
      = (own ++ referenced.getD [] ++ cited.getD []).countP (·.field.name == name) := by
    rw [Draft.valuesOf, gathers.collected, Field.valuesOf, List.length_map, List.filter_map,
      List.length_map, List.countP_eq_length_filter]
    rfl
  refine ⟨count ▸ gathers.reads.countP_named_le single, fun only whole => ?_⟩
  have key : name ≠ FieldName.groupKey := by
    rintro rfl
    exact only.closing (List.mem_cons_self ..)
  obtain ⟨parts, leaves⟩ := gathers.leaves_of_whole
    (List.not_mem_cons_of_ne_of_not_mem key only.own) only.plain whole
  rw [makes.values only]
  refine ⟨?_, fun plain => ?_⟩
  · rw [leaves.length_eq]
    refine Collector.length_flatMap_givenParts_le fun v member => ?_
    obtain ⟨value, inside, rfl | ⟨-, rfl⟩⟩ := exists_of_forall₂ leaves v member
    · exact whole v inside
    · exact Text.containsLiteral_of_infix (Value.cleanName_infix value) (whole value inside)
  · rw [Draft.eq_of_leaves leaves (by simp [plain])]
    exact Collector.flatMap_givenParts parts

section Kept

def keptEntity : GroupEntity :=
  .mk "N" .other none none
    [{ name := FieldName.mainValue, xpaths := ["a", "b"], multivalued := false }] [] false false

def buildKept : Action (BuildState Unit Unit) GroupArena :=
  ({} : GroupBuilder Unit Unit).build aliasRule keptEntity aliasRoot "N" false

theorem keptEntity_single : keptEntity.SingleUnder FieldName.mainValue := by
  intro s member _
  rw [List.mem_singleton.mp member]

theorem length_values_of_keptField : ∃ group s', buildKept ⟨{}, ⟨(), none⟩⟩ = .ok group s'
    ∧ ∀ r ∈ group.toList, ∃ t d answer own referenced cited, t.element = aliasRoot
      ∧ Makes ({} : GroupBuilder Unit Unit) aliasRule false t d answer r
      ∧ Reads ({} : GroupBuilder Unit Unit) aliasRule t own referenced cited
      ∧ (d.valuesOf FieldName.mainValue).length ≤ 2 + cited.toList.length * 2
      ∧ (r.values FieldName.mainValue).length ≤ (d.valuesOf FieldName.mainValue).length := by
  obtain ⟨group, s', ran, single⟩ := Action.ok_of_outcome_map (g := fun group : GroupArena =>
      group.toList.map (·.parent)) (b := [none]) (x := buildKept) (s := ⟨{}, ⟨(), none⟩⟩)
    (by decide +kernel)
  refine ⟨group, s', ran, ?_⟩
  intro r member
  obtain ⟨t, d, answer, own, referenced, cited, task, makes, reads, law⟩ :=
    length_values_of_build ran r member
  obtain rfl := task.top (parent_of_single single r member)
  obtain ⟨few, left⟩ := law FieldName.mainValue keptEntity_single
  have all : (keptEntity.xpathsUnder FieldName.mainValue).length = 2 := by decide +kernel
  have none : (keptEntity.referringUnder FieldName.mainValue).length = 0 := by decide +kernel
  rw [all, none, Nat.mul_zero, Nat.add_zero] at few
  have only : Finish.OnlyGiven aliasRule keptEntity.kind FieldName.mainValue :=
    ⟨by decide, by decide, by decide, .inr rfl⟩
  have collected : ((({} : GroupBuilder Unit Unit).draft aliasRule
      ⟨aliasRoot, keptEntity, "N", Option.none⟩).outcome ()).map (·.valuesOf FieldName.mainValue)
        = .ok ["x", "y"] := by
    decide +kernel
  obtain ⟨_, _, drafted⟩ := makes.drafted
  rw [Action.outcome_of_ok drafted] at collected
  have given : d.valuesOf FieldName.mainValue = ["x", "y"] := Except.ok.inj collected
  have whole : ∀ v ∈ d.valuesOf FieldName.mainValue,
      Text.containsLiteral v Collector.splitMark = false := by
    rw [given]
    decide +kernel
  exact ⟨_, d, answer, own, referenced, cited, rfl, makes, reads, few, (left only whole).1⟩

/-- Both expressions of a field that keeps one value give it one. -/
theorem two_values_of_keptField :
    ∃ group s', buildKept ⟨{}, ⟨(), none⟩⟩ = .ok group s'
      ∧ keptEntity.SingleUnder FieldName.mainValue
      ∧ group.toList.map (·.values FieldName.mainValue) = [["x", "y"]] := by
  have shown : (buildKept.outcome ⟨{}, ⟨(), none⟩⟩).map
      (fun group => group.toList.map (·.values FieldName.mainValue)) = .ok [["x", "y"]] := by
    decide +kernel
  obtain ⟨group, s', ran, shown⟩ := Action.ok_of_outcome_map shown
  exact ⟨group, s', ran, keptEntity_single, shown⟩

end Kept

end GroupBuilder

end MetadataIndex
