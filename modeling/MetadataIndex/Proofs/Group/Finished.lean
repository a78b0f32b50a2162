import MetadataIndex.Proofs.Group.Collected

/-!
# What finishing leaves

The record of a draft has, under every name, the parts of what the draft has there. Sort fields that the
draft lacks are written for the first value with a key. Closing the record writes the key of an authority
record, in place of the key of the draft if there is one, and a few marks.
-/

set_option autoImplicit false

namespace MetadataIndex

open MetadataIndex.Xml (Cursor)
open Relation (ReflTransGen)
open FieldName (IsSort)

variable {ω τ : Type} {rule : FieldRule} {e : GroupEntity} {name : String}

open Collector (givenParts newParts)

namespace Finish

open FieldWrite (firstParts)

variable {group finished sorts : Collector}

def sortWrite (rule : FieldRule) (f : Field) : FieldWrite :=
  .sort f.name (converted rule f).value FieldName.sortMark rule.pipeline.nonSort
    rule.pipeline.normalizers

/-- The sort fields of the fields that are none themselves. -/
def sortWrites (rule : FieldRule) (fields : List Field) : List FieldWrite :=
  (fields.filter fun f => !Text.startsWith f.name FieldName.sortMark).map (sortWrite rule)

theorem converted_of_kept {f : Field} (kept : f.name ≠ FieldName.mainValue ∨ rule.geoSource = none) :
    converted rule f = f := by
  unfold converted coordinates
  cases same : rule.geoSource with
  | none => rfl
  | some source =>
    have other : (f.name == FieldName.mainValue) = false :=
      beq_eq_false_iff_ne.mpr (kept.resolve_right (by simp [same]))
    rw [other]
    rfl

theorem valuesOf_converted (kept : name ≠ FieldName.mainValue ∨ rule.geoSource = none)
    (fields : List Field) :
    Field.valuesOf name (fields.map (converted rule)) = Field.valuesOf name fields := by
  induction fields with
  | nil => rfl
  | cons f fields ih =>
    unfold Field.valuesOf at ih ⊢
    by_cases under : f.name = name
    · rw [List.map_cons, converted_of_kept (under ▸ kept)]
      simp [under, ih]
    · have other : (converted rule f).name ≠ name := under
      simp [under, other, ih]

theorem partsFor_sortWrite {f : Field} (other : sortFieldName f.name ≠ name) :
    (sortWrite rule f).partsFor name = [] :=
  FieldWrite.partsFor_of_ne other

theorem firstParts_sortWrites (name : String) (f : Field) :
    firstParts name (sortWrites rule [f])
      = if IsSort f.name then [] else (sortWrite rule f).partsFor name := by
  split
  case isTrue sorted =>
    have none : sortWrites rule [f] = [] := by simp [sortWrites, show _ = true from sorted]
    rw [none]
    rfl
  case isFalse plain =>
    have single : sortWrites rule [f] = [sortWrite rule f] := by
      simp [sortWrites, Bool.eq_false_iff.mpr plain]
    rw [single, FieldWrite.firstParts_cons]
    split
    case isTrue none =>
      rw [none]
      rfl
    case isFalse => rfl

theorem addSort_ok {f : Field} {written : Collector}
    (ran : addSort rule group sorts (converted rule f) = .ok written) :
    (IsSort f.name ∨ group.hasField (sortFieldName f.name) = true) ∧ written = sorts
      ∨ ¬IsSort f.name ∧ group.hasField (sortFieldName f.name) = false
        ∧ written = ((sortWrite rule f).run sorts).1 := by
  have name : (converted rule f).name = f.name := rfl
  unfold addSort at ran
  rw [name] at ran
  split at ran
  case isTrue skipped =>
    cases ran
    exact .inl ⟨Bool.or_eq_true_iff.mp skipped, rfl⟩
  case isFalse asked =>
    simp only [Bool.or_eq_true, not_or, Bool.not_eq_true] at asked
    refine .inr ⟨Bool.eq_false_iff.mp asked.1, asked.2, ?_⟩
    unfold sortWrite FieldWrite.run
    dsimp only
    generalize sorts.addSortField .. = added at ran ⊢
    cases added with
    | error fault => cases ran
    | ok result =>
      cases ran
      rfl

theorem addSort_values (reached : sorts.Reached) {f : Field} {written : Collector}
    (ran : addSort rule group sorts (converted rule f) = .ok written) :
    written.Reached ∧ ∀ name, written.values name
      = if group.hasField name = false ∧ sorts.values name = [] then
          firstParts name (sortWrites rule [f]) else sorts.values name := by
  obtain ⟨skipped, rfl⟩ | ⟨plain, absent, rfl⟩ := addSort_ok ran
  · -- What is not written has no part for a name that is still free.
    refine ⟨reached, fun name => ?_⟩
    split
    case isFalse => rfl
    case isTrue free =>
      rw [free.2, firstParts_sortWrites]
      split
      case isTrue => rfl
      case isFalse plain =>
        symm
        apply partsFor_sortWrite
        rintro rfl
        have there := skipped.resolve_left plain
        rw [free.1] at there
        cases there
  · refine ⟨FieldWrite.reached_run reached _, fun name => ?_⟩
    have spared : (sortWrite rule f).Spares name := trivial
    rw [FieldWrite.values_run reached.keysStored spared, firstParts_sortWrites, if_neg plain]
    by_cases under : sortFieldName f.name = name
    · subst under
      simp [absent]
    · rw [partsFor_sortWrite under]
      by_cases none : sorts.values name = []
      · simp [none]
      · simp [none]

theorem finishFields_cons {mainValue : Option String} {f : Field} {fields : List Field}
    {c c' : Collector} {last : Collector × Collector}
    (ran : finishFields rule mainValue group (f :: fields) finished sorts c = .ok last c') :
    ∃ written middle, addSort rule group sorts (converted rule f) = .ok written
      ∧ finishFields rule mainValue group fields (finished.put f.name (converted rule f).value true)
        written middle = .ok last c' := by
  unfold finishFields at ran
  obtain ⟨_, _, -, ran⟩ := Action.bind_ok ran
  obtain ⟨_, _, -, ran⟩ := Action.bind_ok ran
  obtain ⟨written, middle, lifted, ran⟩ := Action.bind_ok ran
  obtain ⟨added, rfl⟩ := Action.lift_ok lifted
  exact ⟨written, _, added, ran⟩

/-- Finishing converts the fields and collects sort fields: the first of each name that the group does
not have. -/
theorem finishFields_ok {mainValue : Option String} {fields : List Field} {c c' : Collector}
    {last : Collector × Collector} (reached : sorts.Reached)
    (ran : finishFields rule mainValue group fields finished sorts c = .ok last c') :
    last.1 = finished.extend (fields.map (converted rule)) true
      ∧ ∀ name, last.2.values name
        = if group.hasField name = false ∧ sorts.values name = [] then
            firstParts name (sortWrites rule fields) else sorts.values name := by
  induction fields generalizing finished sorts c with
  | nil =>
    cases ran
    refine ⟨rfl, fun name => ?_⟩
    by_cases absent : group.hasField name = false ∧ sorts.values name = []
    · simp [absent, sortWrites, firstParts]
    · rw [if_neg absent]
  | cons f fields ih =>
    obtain ⟨written, middle, added, rest⟩ := finishFields_cons ran
    obtain ⟨reachedNext, first⟩ := addSort_values reached added
    obtain ⟨all, later⟩ := ih reachedNext rest
    refine ⟨all, fun name => ?_⟩
    rw [later name, first name]
    have split : sortWrites rule (f :: fields) = sortWrites rule [f] ++ sortWrites rule fields := by
      simp only [sortWrites, ← List.map_append, ← List.filter_append, List.singleton_append]
    rw [split, FieldWrite.firstParts_append]
    by_cases absent : group.hasField name = false ∧ sorts.values name = []
    · simp [absent]
    · rw [if_neg absent, if_neg absent, if_neg absent]

def closingNames : List String :=
  [FieldName.groupKey, FieldName.default, FieldName.authorityTerms, FieldName.accessCondition]

theorem not_isSort_of_mem_closingNames : ∀ name ∈ closingNames, ¬IsSort name := by decide

/-- Closing a record writes a key that is needed and then marks, which are no keys. -/
theorem closingFields_eq (rule : FieldRule) (label : String) (mainValue : Option String)
    (answer : AuthorityAnswer) (needsKey restricted : Bool) :
    ∃ marks, closingFields rule label mainValue answer needsKey restricted
        = (if needsKey then answer.identifier?.toList.map fun identifier =>
            ⟨FieldName.groupKey, label ++ "_" ++ identifier⟩ else []) ++ marks
      ∧ ∀ f ∈ marks, f.name ∈ closingNames ∧ f.name ≠ FieldName.groupKey := by
  unfold closingFields
  dsimp only
  rw [List.append_assoc, List.append_assoc]
  refine ⟨_, (List.append_left_inj _).mpr ?_, fun f member => ?_⟩
  · cases answer.identifier? with
    | none => simp
    | some identifier => rfl
  · simp only [List.mem_append, List.mem_map] at member
    have marks : ∀ name ∈ [FieldName.default, FieldName.authorityTerms, FieldName.accessCondition],
        name ∈ closingNames ∧ name ≠ FieldName.groupKey := by
      decide
    rcases member with ⟨_, -, rfl⟩ | ⟨_, -, rfl⟩ | ⟨_, -, rfl⟩
    · exact marks FieldName.default (by simp)
    · exact marks FieldName.authorityTerms (by simp)
    · exact marks FieldName.accessCondition (by simp)

theorem name_of_mem_closingFields {label : String} {mainValue : Option String}
    {answer : AuthorityAnswer} {needsKey restricted : Bool} {f : Field}
    (closes : f ∈ closingFields rule label mainValue answer needsKey restricted) :
    f.name ∈ closingNames := by
  obtain ⟨marks, split, names⟩ := closingFields_eq rule label mainValue answer needsKey restricted
  rw [split] at closes
  rcases List.mem_append.mp closes with key | mark
  · split at key
    · obtain ⟨_, -, rfl⟩ := List.mem_map.mp key
      exact .head _
    · cases key
  · exact (names f mark).1

theorem values_keyedGroup (label : String) (answer : AuthorityAnswer) (group : Collector)
    (other : FieldName.groupKey ≠ name) :
    (keyedGroup label answer group).1.values name = group.values name := by
  unfold keyedGroup
  split
  · exact Collector.values_replaceValue other
  · rfl

theorem firstParts_of_not_isSort (plain : ¬IsSort name) (fields : List Field) :
    firstParts name (sortWrites rule fields) = [] := by
  refine FieldWrite.firstParts_eq_nil fun w member => ?_
  obtain ⟨f, -, rfl⟩ := List.mem_map.mp member
  apply partsFor_sortWrite
  rintro rfl
  exact plain (FieldName.isSort_sortFieldName f.name)

/-- Before it is closed, a record has the parts of what its draft has under each name, and the sort
fields that the draft lacks. -/
theorem fieldsOf_ok {label : String} {d : Draft} {answer : AuthorityAnswer} {restricted : Bool}
    {fields : List Field} {c c' : Collector}
    (ran : fieldsOf rule label d answer restricted c = .ok fields c') :
    ∃ last : Collector, last.Reached
      ∧ fields = (last.extend (closingFields rule label d.mainValue answer
          (!(keyedGroup label answer d.group).2) restricted)).toList
      ∧ ∀ name, name ≠ FieldName.mainValue ∨ rule.geoSource = none →
        last.values name = ((keyedGroup label answer d.group).1.values name).flatMap givenParts
          ++ if (keyedGroup label answer d.group).1.values name = [] then
              firstParts name (sortWrites rule (keyedGroup label answer d.group).1.toList) else [] := by
  unfold fieldsOf at ran
  dsimp only at ran
  obtain ⟨⟨finished, sorted⟩, _, finish, ran⟩ := Action.bind_ok ran
  cases ran
  obtain ⟨rfl, first⟩ := finishFields_ok (.ofDefault "") finish
  -- The fields and then the sort fields are put into a new collector, which takes duplicates.
  refine ⟨_, ((Collector.Reached.ofDefault "").extend _ _).extend _ _, rfl, fun name kept => ?_⟩
  have empty : (Collector.ofDefault "").values name = [] := rfl
  rw [Collector.values_extend_repeated, Collector.values_extend_repeated, valuesOf_converted kept]
  change [] ++ (Collector.values _ name).flatMap givenParts
    ++ (sorted.values name).flatMap givenParts = _
  rw [List.nil_append, first name]
  by_cases absent : (keyedGroup label answer d.group).1.values name = []
  · rw [if_pos ⟨Collector.values_eq_nil_iff.mp absent, empty⟩, if_pos absent,
      Collector.flatMap_givenParts fun _ => FieldWrite.exists_of_mem_firstParts]
  · rw [if_neg fun both => absent (Collector.values_eq_nil_iff.mpr both.1), if_neg absent, empty]
    rfl

section Closed

variable {label : String} {d : Draft} {answer : AuthorityAnswer} {restricted : Bool}
  {fields : List Field} {c c' : Collector}

/-- Under the name of a sort field a record has what its draft has there, and if that is nothing the
parts of the first key of its fields. -/
theorem values_fieldsOf (ran : fieldsOf rule label d answer restricted c = .ok fields c')
    (sorts : IsSort name) (parts : ∀ part ∈ d.group.values name, ∃ value, part ∈ givenParts value) :
    Field.valuesOf name fields
      = if d.group.values name = [] then
          firstParts name (sortWrites rule (keyedGroup label answer d.group).1.toList)
        else d.group.values name := by
  obtain ⟨last, -, rfl, left⟩ := fieldsOf_ok ran
  change Collector.values _ name = _
  rw [Collector.values_extend_of_ne _ fun f closes =>
      sorts.ne (not_isSort_of_mem_closingNames f.name (name_of_mem_closingFields closes)),
    left name (.inl (sorts.ne (by decide)).symm),
    values_keyedGroup label answer d.group (sorts.ne (by decide)),
    Collector.flatMap_givenParts parts]
  split
  case isTrue absent => rw [absent, List.nil_append]
  case isFalse => exact List.append_nil _

/-- Under a name that neither sorting nor closing writes a record has the parts of what its draft has
there. -/
theorem values_fieldsOf_of_plain (ran : fieldsOf rule label d answer restricted c = .ok fields c')
    (plain : ¬IsSort name) (kept : name ≠ FieldName.mainValue ∨ rule.geoSource = none)
    (outside : name ∉ closingNames) :
    Field.valuesOf name fields = (d.group.values name).flatMap givenParts := by
  obtain ⟨last, -, rfl, left⟩ := fieldsOf_ok ran
  change Collector.values _ name = _
  have key : FieldName.groupKey ≠ name := by
    rintro rfl
    exact outside (.head _)
  rw [Collector.values_extend_of_ne _ fun f closes =>
      ne_of_mem_of_not_mem (name_of_mem_closingFields closes) outside,
    left name kept, firstParts_of_not_isSort plain, ite_self, List.append_nil,
    values_keyedGroup label answer d.group key]

/-- The key of a record is that of its draft, unless the authority record has an identifier. -/
theorem groupKey_fieldsOf (ran : fieldsOf rule label d answer restricted c = .ok fields c') :
    Field.valuesOf FieldName.groupKey fields
      = match answer.identifier? with
        | none => (d.group.values FieldName.groupKey).flatMap givenParts
        | some identifier =>
          match d.group.values FieldName.groupKey with
          | [] => newParts (label ++ "_" ++ identifier)
          | _ :: more => ((label ++ "_" ++ identifier) :: more).flatMap givenParts := by
  obtain ⟨last, reached, rfl, left⟩ := fieldsOf_ok ran
  have kept := left FieldName.groupKey (.inl (by decide))
  rw [firstParts_of_not_isSort (by decide), ite_self, List.append_nil] at kept
  obtain ⟨marks, split, others⟩ := closingFields_eq rule label d.mainValue answer
    (!(keyedGroup label answer d.group).2) restricted
  change Collector.values _ _ = _
  rw [split, Collector.extend_append,
    Collector.values_extend_of_ne _ fun f mark => (others f mark).2]
  unfold keyedGroup at kept ⊢
  cases given : answer.identifier? with
  | none => simpa [given, Collector.extend] using kept
  | some identifier =>
    rw [given] at kept
    dsimp only at kept ⊢
    rw [Collector.values_replaceValue_self] at kept
    have keyed : (d.group.replaceValue FieldName.groupKey (label ++ "_" ++ identifier)).2 = true
        ↔ d.group.values FieldName.groupKey ≠ [] :=
      Collector.replaceValue_eq_true_iff
    cases present : d.group.values FieldName.groupKey with
    | nil =>
      rw [present] at kept keyed
      rw [Bool.eq_false_iff.mpr fun replaced => keyed.mp replaced rfl]
      exact reached.keysStored.values_put kept _
    | cons key more =>
      rw [present] at kept keyed
      rw [keyed.mpr (List.cons_ne_nil key more)]
      exact kept

end Closed

/-- Under the name a record has only what was given to its group: neither sorting nor closing writes
there, nor does the group itself, and its values are not converted. -/
structure OnlyGiven (rule : FieldRule) (kind : GroupKind) (name : String) : Prop where
  plain : ¬IsSort name
  closing : name ∉ closingNames
  own : name ∉ Draft.ownNames kind
  kept : name ≠ FieldName.mainValue ∨ rule.geoSource = none

end Finish

namespace GroupBuilder

variable {b : GroupBuilder ω τ} {restricted : Bool}

/-- Each element that waits is of a kind, and each record is that of such an element. -/
structure Queue.Serves (b : GroupBuilder ω τ) (rule : FieldRule) (restricted : Bool)
    (T : GroupTask → Prop) (q : Queue ω τ) : Prop where
  waiting : ∀ x ∈ q.waiting, T x.2
  records : ∀ r ∈ q.arena.toList, ∃ depth t index before after,
    T t ∧ b.buildRecord rule restricted depth t index before = .ok r after

section Serves

variable {T : GroupTask → Prop}
  (passes : ∀ t, T t → ∀ t', t'.entity ∈ t.entity.children → t'.parent.isSome = true → T t')

include passes

theorem QueueStep.serves {q q' : Queue ω τ} (step : b.QueueStep rule restricted q q')
    (holds : q.Serves b rule restricted T) : q'.Serves b rule restricted T := by
  obtain ⟨record, found⟩ := step
  rename_i depth t more arena s s' r below
  obtain ⟨first, rest⟩ := List.forall_mem_cons.mp holds.waiting
  constructor
  · intro x member
    rcases List.mem_append.mp member with behind | new
    · exact rest x behind
    · obtain ⟨t', inside, rfl⟩ := List.mem_map.mp new
      obtain ⟨nested, under, -⟩ := tasksFrom_ok found t' inside
      exact passes t first t' nested (by rw [under]; rfl)
  · intro r' member
    rw [GroupArena.toList_push] at member
    rcases List.mem_append.mp member with old | new
    · exact holds.records r' old
    · rw [List.mem_singleton.mp new]
      exact ⟨depth, t, _, _, _, first, record⟩

theorem serves_of_build {e : GroupEntity} {element : Cursor} {label : String}
    {s s' : BuildState ω τ} {group : GroupArena} (start : T { element, entity := e, label })
    (ran : b.build rule e element label restricted s = .ok group s') :
    Queue.Serves b rule restricted T (⟨[], group, s'⟩ : Queue ω τ) := by
  suffices ∀ q, ReflTransGen (b.QueueStep rule restricted) (startQueue e element label s) q →
      q.Serves b rule restricted T from this _ (build_runs ran)
  intro q runs
  induction runs with
  | refl =>
    constructor
    · intro x member
      rw [List.mem_singleton.mp member]
      exact start
    · exact List.forall_mem_nil _
  | tail _ step ih => exact step.serves passes ih

end Serves

/-- What is built for an entity is for entities nested in it, at any depth. -/
theorem nested_of_build {e : GroupEntity} {element : Cursor} {label : String}
    {s s' : BuildState ω τ} {group : GroupArena}
    (ran : b.build rule e element label restricted s = .ok group s') :
    Queue.Serves b rule restricted
      (fun t => ReflTransGen (fun above below => below ∈ above.children) e t.entity)
      (⟨[], group, s'⟩ : Queue ω τ) :=
  serves_of_build (fun _ nested _ child _ => nested.tail child) .refl ran

/-- The element of a record of a group: its entity is nested in that of the group, and on top stands the
element of the group itself. -/
structure TaskOf (e : GroupEntity) (element : Cursor) (label : String) (r : GroupedRecord)
    (t : GroupTask) : Prop where
  nested : ReflTransGen (fun above below => below ∈ above.children) e t.entity
  top : r.parent = none → t = { element, entity := e, label }

/-- How a record is made: its element is drafted, the authority record answers for the draft, and the
fields of the draft are finished. -/
structure Makes (b : GroupBuilder ω τ) (rule : FieldRule) (restricted : Bool) (t : GroupTask)
    (d : Draft) (answer : AuthorityAnswer) (r : GroupedRecord) : Prop where
  drafted : ∃ w w', b.draft rule t w = .ok d w'
  answered : ∃ u u', b.answerOf rule d u = .ok answer u'
  finished : ∃ c c', Finish.fieldsOf rule t.label d answer (restricted && t.parent.isNone) c
    = .ok r.fields c'
  label : r.label = t.label
  kind : r.kind = t.entity.kind
  mainValue : r.mainValue = d.mainValue
  authorityFields : r.authorityFields = answer.fields

theorem Makes.values {t : GroupTask} {d : Draft} {answer : AuthorityAnswer} {r : GroupedRecord}
    (makes : b.Makes rule restricted t d answer r) (given : Finish.OnlyGiven rule t.entity.kind name) :
    r.values name = (d.group.values name).flatMap givenParts := by
  obtain ⟨_, _, finished⟩ := makes.finished
  exact Finish.values_fieldsOf_of_plain finished given.plain given.kept given.closing

theorem makes_of_buildRecord {depth : Nat} {t : GroupTask} {index : Int} {s s' : BuildState ω τ}
    {r : GroupedRecord} (ran : b.buildRecord rule restricted depth t index s = .ok r s') :
    ∃ d answer, b.Makes rule restricted t d answer r ∧ r.authorityUri = d.identifier := by
  unfold buildRecord at ran
  obtain ⟨d, _, drafted, ran⟩ := Action.bind_ok ran
  obtain ⟨answer, _, answered, ran⟩ := Action.bind_ok ran
  obtain ⟨_, _, -, ran⟩ := Action.bind_ok ran
  obtain ⟨fields, _, finished, ran⟩ := Action.bind_ok ran
  cases ran
  obtain ⟨_, drafted, -⟩ := Action.onPart_ok drafted
  obtain ⟨_, drafted, -⟩ := Action.onPart_ok drafted
  obtain ⟨_, finished, -⟩ := Action.onPart_ok finished
  exact ⟨d, answer, ⟨⟨_, _, drafted⟩, ⟨_, _, answered⟩, ⟨_, _, finished⟩, rfl, rfl, rfl, rfl⟩, rfl⟩

theorem fields_of_buildRecord {depth : Nat} {t : GroupTask} {index : Int} {s s' : BuildState ω τ}
    {r : GroupedRecord} (ran : b.buildRecord rule restricted depth t index s = .ok r s') :
    ∃ d answer c c', (∃ w w', b.draft rule t w = .ok d w')
      ∧ (∃ u u', b.answerOf rule d u = .ok answer u')
      ∧ Finish.fieldsOf rule t.label d answer (restricted && t.parent.isNone) c = .ok r.fields c' := by
  obtain ⟨d, answer, makes, -⟩ := makes_of_buildRecord ran
  obtain ⟨c, c', finished⟩ := makes.finished
  exact ⟨d, answer, c, c', makes.drafted, makes.answered, finished⟩

theorem identified_of_build {e : GroupEntity} {element : Cursor} {label : String}
    {s s' : BuildState ω τ} {group : GroupArena}
    (ran : b.build rule e element label restricted s = .ok group s') :
    ∀ r ∈ group.toList, ∃ t d answer, TaskOf e element label r t
      ∧ b.Makes rule restricted t d answer r ∧ r.authorityUri = d.identifier := by
  intro r member
  have serves := serves_of_build (T := fun t => ReflTransGen (fun above below => below ∈ above.children)
    e t.entity ∧ (t.parent = none → t = { element, entity := e, label })) ?_ ⟨.refl, fun _ => rfl⟩ ran
  · obtain ⟨depth, t, index, before, after, ⟨nested, top⟩, record⟩ := serves.records r member
    obtain ⟨d, answer, makes, identified⟩ := makes_of_buildRecord record
    obtain ⟨-, parent, -⟩ := buildRecord_ok record
    exact ⟨t, d, answer, ⟨nested, fun none => top (parent ▸ none)⟩, makes, identified⟩
  · rintro t ⟨nested, -⟩ t' child under
    refine ⟨nested.tail child, fun none => ?_⟩
    rw [none] at under
    cases under

theorem makes_of_build {e : GroupEntity} {element : Cursor} {label : String}
    {s s' : BuildState ω τ} {group : GroupArena}
    (ran : b.build rule e element label restricted s = .ok group s') :
    ∀ r ∈ group.toList, ∃ t d answer,
      TaskOf e element label r t ∧ b.Makes rule restricted t d answer r := by
  intro r member
  obtain ⟨t, d, answer, task, makes, -⟩ := identified_of_build ran r member
  exact ⟨t, d, answer, task, makes⟩

theorem parent_of_single {group : GroupArena} (single : group.toList.map (·.parent) = [none]) :
    ∀ r ∈ group.toList, r.parent = none := by
  intro r member
  have parent := List.mem_map_of_mem (f := (·.parent)) member
  rw [single] at parent
  exact List.mem_singleton.mp parent

end GroupBuilder

end MetadataIndex
