import MetadataIndex.Proofs.Group.Drafted

/-!
# Marks of restricted access

A topmost record built for a restricted element carries the mark of restricted access exactly when it
has a main value that is not empty. What a group gives to the owning record on the way is described
by an invariant of that record.
-/

set_option autoImplicit false

namespace MetadataIndex

open MetadataIndex.Xml (Cursor)

variable {ω τ : Type} {N : String → Prop} {I : Collector → Prop} {rule : FieldRule}

namespace Finish

/-- Finishing a field keeps a property of the owning record. -/
structure Keeps (rule : FieldRule) (I : Collector → Prop) : Prop where
  coordinates : ∀ f c, I c → I (noteCoordinates rule f c)
  texts : ∀ mainValue f c, I c → I (noteText rule mainValue f c)

theorem addSort_names {group sorts : Collector} {f : Field} (holds : ∀ name, N (sortFieldName name))
    (named : sorts.AllNames N) {written : Collector} (ran : addSort rule group sorts f = .ok written) :
    written.AllNames N := by
  unfold addSort at ran
  split at ran
  · cases ran
    exact named
  · cases added : sorts.addSortField f.name f.value FieldName.sortMark rule.pipeline.nonSort
        rule.pipeline.normalizers with
    | error fault =>
      rw [added] at ran
      cases ran
    | ok result =>
      rw [added] at ran
      cases ran
      exact named.addSortField (holds f.name) added

theorem finishFields_ensures (keeps : Keeps rule I) (holds : ∀ name, N (sortFieldName name))
    (mainValue : Option String) (group : Collector) {fields : List Field}
    (names : ∀ f ∈ fields, N f.name) {finished sorts : Collector} (named : finished.AllNames N)
    (indexed : finished.Indexed) (sorted : sorts.AllNames N) :
    Action.Ensures I (fun r => r.1.AllNames N ∧ r.1.Indexed ∧ r.2.AllNames N)
      (finishFields rule mainValue group fields finished sorts) := by
  induction fields generalizing finished sorts with
  | nil => exact .pure ⟨named, indexed, sorted⟩
  | cons f fields ih =>
    unfold finishFields
    refine (Action.Ensures.modify (keeps.coordinates f)).bind fun _ _ => ?_
    refine (Action.Ensures.modify (keeps.texts mainValue (converted rule f))).bind fun _ _ => ?_
    refine (Action.Ensures.lift (Q := fun sorts => sorts.AllNames N) fun written ran =>
      addSort_names holds sorted ran).bind fun sorts sorted => ?_
    have name : N (converted rule f).name := names f (.head _)
    exact ih (fun g later => names g (.tail _ later)) (named.put name) indexed.put sorted

/-- Whether a field is that of the condition of access. -/
def isCondition (f : Field) : Bool := f.name == FieldName.accessCondition

theorem partsOf_mark : Collector.partsOf FieldName.accessCondition FieldName.accessRestricted
    = [⟨FieldName.accessCondition, FieldName.accessRestricted⟩] := by
  decide +kernel

theorem ne_accessCondition {name : String}
    (closes : name ∈ [FieldName.groupKey, FieldName.default, FieldName.authorityTerms]) :
    name ≠ FieldName.accessCondition := by
  have apart : ∀ name ∈ [FieldName.groupKey, FieldName.default, FieldName.authorityTerms],
      name ≠ FieldName.accessCondition := by
    decide +kernel
  exact apart name closes

/-- The fields that close a record are some under other names and then the mark, if there is one. -/
theorem closingFields_split (rule : FieldRule) (label : String) (mainValue : Option String)
    (answer : AuthorityAnswer) (needsKey restricted : Bool) :
    ∃ others, (∀ f ∈ others, f.name ≠ FieldName.accessCondition)
      ∧ closingFields rule label mainValue answer needsKey restricted = others
        ++ if restricted && mainValue.any (!·.isEmpty)
          then [⟨FieldName.accessCondition, FieldName.accessRestricted⟩] else [] := by
  have mark : ((mainValue.toList.filter fun value => restricted && !value.isEmpty).map
      fun _ => (⟨FieldName.accessCondition, FieldName.accessRestricted⟩ : Field))
        = if restricted && mainValue.any (!·.isEmpty)
          then [⟨FieldName.accessCondition, FieldName.accessRestricted⟩] else [] := by
    cases mainValue with
    | none => simp
    | some value => cases restricted <;> cases given : value.isEmpty <;> simp [given]
  unfold closingFields
  dsimp only
  rw [mark]
  refine ⟨_, ?_, rfl⟩
  intro f member
  refine ne_accessCondition ?_
  simp only [List.mem_append] at member
  obtain (key | main) | terms := member
  · split at key
    · split at key
      · rw [List.mem_singleton.mp key]
        exact .head _
      · cases key
    · cases key
  · obtain ⟨value, _, rfl⟩ := List.mem_map.mp main
    exact .tail _ (.head _)
  · obtain ⟨value, _, rfl⟩ := List.mem_map.mp terms
    exact .tail _ (.tail _ (.head _))

/-- A record has a condition of access when it is restricted and has a main value that is not
empty. -/
theorem any_isCondition_closed {c : Collector}
    (named : c.AllNames (· ≠ FieldName.accessCondition)) (indexed : c.Indexed) (label : String)
    (mainValue : Option String) (answer : AuthorityAnswer) (needsKey restricted : Bool) :
    (c.extend (closingFields rule label mainValue answer needsKey restricted)).toList.any isCondition
      = (restricted && mainValue.any (!·.isEmpty)) := by
  obtain ⟨others, names, split⟩ :=
    closingFields_split rule label mainValue answer needsKey restricted
  have without : (c.extend others).AllNames (· ≠ FieldName.accessCondition) := named.extend names
  rw [split, Collector.extend_append]
  cases marked : (restricted && mainValue.any (!·.isEmpty)) with
  | false =>
    refine List.any_eq_false.mpr fun f member => ?_
    rw [isCondition, beq_iff_eq]
    exact without f member
  | true =>
    refine List.any_eq_true.mpr ⟨⟨FieldName.accessCondition, FieldName.accessRestricted⟩, ?_, ?_⟩
    · change _ ∈ (Collector.put _ FieldName.accessCondition FieldName.accessRestricted).toList
      rw [Collector.put_eq_foldl, partsOf_mark]
      exact indexed.extend.mem_addPart rfl
    · exact beq_self_eq_true _

theorem sortFieldName_ne_accessCondition (name : String) :
    sortFieldName name ≠ FieldName.accessCondition := by
  intro same
  have heads : (sortFieldName name).toList.head? = FieldName.accessCondition.toList.head? := by
    rw [same]
  unfold sortFieldName at heads
  rw [String.toList_append] at heads
  have mark : FieldName.sortMark.toList = 'S' :: ['O', 'R', 'T', '_'] := by decide +kernel
  have condition : FieldName.accessCondition.toList.head? = some 'A' := by decide +kernel
  rw [mark, condition] at heads
  cases heads

theorem keyedGroup_names {group : Collector} (named : group.AllNames N) (label : String)
    (answer : AuthorityAnswer) : (keyedGroup label answer group).1.AllNames N := by
  unfold keyedGroup
  split
  · exact named.replaceValue _ _
  · exact named

/-- The fields of a record whose draft has no condition of access. -/
theorem fieldsOf_ensures (keeps : Keeps rule I) (label : String) (d : Draft)
    (answer : AuthorityAnswer) (restricted : Bool) :
    Action.Ensures I (fun fields => d.group.AllNames (· ≠ FieldName.accessCondition) →
        fields.any isCondition = (restricted && d.mainValue.any (!·.isEmpty)))
      (fieldsOf rule label d answer restricted) := by
  let N name := d.group.AllNames (· ≠ FieldName.accessCondition) → name ≠ FieldName.accessCondition
  have keyed : ∀ f ∈ (keyedGroup label answer d.group).1.toList, N f.name :=
    fun f member named => keyedGroup_names named label answer f member
  unfold fieldsOf
  dsimp only
  refine (finishFields_ensures keeps (N := N) (fun name _ => sortFieldName_ne_accessCondition name)
    d.mainValue _ keyed Collector.allNames_empty Collector.indexed_empty
    Collector.allNames_empty).bind ?_
  rintro ⟨finished, sorts⟩ ⟨names, indexed, sorted⟩
  refine .pure fun named => ?_
  have closed : (finished.extend sorts.toList true).AllNames (· ≠ FieldName.accessCondition) :=
    fun f member => names.extend sorted f member named
  exact any_isCondition_closed closed indexed.extend label d.mainValue answer _ restricted

end Finish

end MetadataIndex
