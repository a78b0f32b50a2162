import MetadataIndex.Proofs.Authority.Facet
import MetadataIndex.Proofs.Group.Marked

/-!
# The records of a group

The first record of a group is that of the element the group is built for; the records after it
belong to elements below it. Building keeps a property of the owning record that no single gift to it
destroys.
-/

set_option autoImplicit false

namespace MetadataIndex

variable {ω τ : Type} {I : Collector → Prop} {rule : FieldRule}

def GroupedRecord.isMarked (r : GroupedRecord) : Bool := r.fields.any Finish.isCondition

theorem GroupEntity.names_ne_accessCondition {e : GroupEntity}
    (lacks : e.hasSubfield FieldName.accessCondition = false) :
    e.Names (· ≠ FieldName.accessCondition) := by
  have apart : ∀ name ∈ [FieldName.label, FieldName.groupKind, FieldName.mainValue,
      FieldName.groupKey, FieldName.normUri], name ≠ FieldName.accessCondition := by
    decide +kernel
  refine ⟨fun s member same => ?_, Finish.sortFieldName_ne_accessCondition, ?_, ?_, ?_, ?_, ?_⟩
  · have other := List.any_eq_false.mp lacks s member
    exact other (beq_iff_eq.mpr same)
  · exact apart _ (by simp)
  · exact apart _ (by simp)
  · exact apart _ (by simp)
  · exact apart _ (by simp)
  · exact apart _ (by simp)

namespace BuildState

theorem onWorld_ensures {α : Type} {Q : α → Prop} {x : Action ω α}
    (ensured : Action.Ensures (fun _ => True) Q x) :
    Action.Ensures (fun s : BuildState ω τ => I s.collector) Q (onWorld x) :=
  (ensured.onPart (I := fun _ => True) (fun _ _ => trivial) fun _ _ _ _ => trivial).onPart
    (fun _ _ => trivial) fun _ _ kept _ => kept

theorem onCollector_ensures {α : Type} {Q : α → Prop} {x : Action Collector α}
    (ensured : Action.Ensures I Q x) :
    Action.Ensures (fun s : BuildState ω τ => I s.collector) Q (onCollector x) :=
  ensured.onPart (fun _ kept => kept) fun _ _ _ kept => kept

end BuildState

namespace GroupBuilder

variable {b : GroupBuilder ω τ}

/-- Building keeps a property of the owning record. -/
structure Keeps (b : GroupBuilder ω τ) (rule : FieldRule) (I : Collector → Prop) : Prop where
  finish : Finish.Keeps rule I
  answers : ∀ d label, Action.Ensures (fun s => I s.collector)
    (fun answer => ∀ c, I c → I (answer.noteNames rule label c)) (b.answerOf rule d)

theorem keeps_trivial (b : GroupBuilder ω τ) (rule : FieldRule) : b.Keeps rule fun _ => True where
  finish := ⟨fun _ _ _ => trivial, fun _ _ _ _ => trivial⟩
  answers _ _ := (Action.Ensures.trivial _).imp fun _ _ _ _ => trivial

/-- What a record has from the element it was built for. -/
structure Builds (b : GroupBuilder ω τ) (rule : FieldRule) (restricted : Bool) (t : GroupTask)
    (r : GroupedRecord) : Prop where
  parent : r.parent = t.parent
  promotesAuthority : r.promotesAuthority = t.entity.promoteAuthority
  promotesCoordinates : r.promotesCoordinates = t.entity.promoteCoordinates
  authorityFields : b.authority = none → r.authorityFields = []
  noFacet : AuthorityFields.NoFacet r.authorityFields
  mainValue : ∃ d, Draft.ofElement b.reader rule t.entity t.element t.label = .ok d
    ∧ r.mainValue = d.mainValue
  marked : t.entity.hasSubfield FieldName.accessCondition = false →
    r.isMarked = (restricted && t.parent.isNone && r.mainValue.any (!·.isEmpty))

/-- The fields that resolving gives are those of the record. -/
theorem resolve_noFacet (service : AuthorityService ω τ) (uri : String) :
    Action.Ensures (fun _ => True) (fun answer => AuthorityFields.NoFacet answer.fields)
      (resolve service rule uri) where
  completed {s answer s'} _ ran := by
    have fields (style : AuthorityStyle) :
        Action.Ensures (fun _ => True) AuthorityFields.NoFacet (service.resolve style uri) := by
      refine (Action.Ensures.trivial _).bind fun r _ => ?_
      cases r with
      | none => exact .pure AuthorityFields.noFacet_nil
      | some r =>
        exact (AuthorityFields.ofEntries_noFacet style r.entries).onPart (fun _ _ => trivial)
          fun _ _ _ _ => trivial
    refine ⟨?_, trivial⟩
    unfold resolve at ran
    dsimp only at ran
    split at ran
    case h_1 resolved =>
      cases ran
      exact ((fields _).completed trivial resolved).1
    case h_2 => cases ran
  failed _ _ := trivial

theorem answerOf_ensures (b : GroupBuilder ω τ) (rule : FieldRule) (d : Draft) :
    Action.Ensures (fun _ => True)
      (fun answer => (b.authority = none → answer.fields = [])
        ∧ AuthorityFields.NoFacet answer.fields)
      (b.answerOf rule d) := by
  unfold answerOf
  split
  case h_1 service uri present _ =>
    refine (resolve_noFacet service uri).imp fun answer holds => ⟨fun absent => ?_, holds⟩
    rw [absent] at present
    cases present
  case h_2 => exact .pure ⟨fun _ => rfl, AuthorityFields.noFacet_nil⟩

theorem buildRecord_ensures (keeps : b.Keeps rule I) (restricted : Bool) (depth : Nat)
    (t : GroupTask) (index : Int) :
    Action.Ensures (fun s => I s.collector) (b.Builds rule restricted t)
      (b.buildRecord rule restricted depth t index) := by
  unfold buildRecord
  refine (BuildState.onWorld_ensures (b.draft_ensures rule t)).bind ?_
  rintro d drafts
  refine ((keeps.answers d t.label).both (b.answerOf_ensures rule d)).bind ?_
  rintro answer ⟨noted, none, noFacet⟩
  refine (BuildState.onCollector_ensures (.modify noted)).bind fun _ _ => ?_
  refine (BuildState.onCollector_ensures (Finish.fieldsOf_ensures keeps.finish t.label d answer
    (restricted && t.parent.isNone))).bind fun fields marked => ?_
  refine .pure ⟨rfl, rfl, rfl, none, noFacet, drafts.mainValue, fun lacks => ?_⟩
  exact marked (drafts.names _ (GroupEntity.names_ne_accessCondition lacks))

/-- A task below a record, for an entity of a kind that entities pass to those nested in them. -/
def IsBelow (T : GroupEntity → Prop) (t : GroupTask) : Prop := T t.entity ∧ t.parent.isSome = true

theorem tasksBelow_ok {t : GroupTask} {index : Int} {below : List GroupTask}
    (found : b.tasksBelow t index = .ok below) :
    ∀ t' ∈ below, t'.entity ∈ t.entity.children ∧ t'.parent = some index := by
  obtain ⟨selected, each, found⟩ := Checked.bind_ok found
  cases found
  intro t' member
  obtain ⟨inner, member, within⟩ := List.mem_flatten.mp member
  obtain ⟨child, nested, made⟩ := Checked.of_mem_mapM each member
  obtain ⟨elements, _, made⟩ := Checked.bind_ok made
  cases made
  obtain ⟨element, _, rfl⟩ := List.mem_map.mp within
  exact ⟨nested, rfl⟩

theorem tasksBelow_isBelow {T : GroupEntity → Prop} (passes : ∀ e, T e → ∀ child ∈ e.children, T child)
    {t : GroupTask} (holds : T t.entity) {index : Int} {below : List GroupTask}
    (found : b.tasksBelow t index = .ok below) : ∀ t' ∈ below, IsBelow T t' := by
  intro t' member
  obtain ⟨nested, parent⟩ := tasksBelow_ok found t' member
  exact ⟨passes t.entity holds t'.entity nested, parent ▸ rfl⟩

/-- The records of a level are those of its tasks, and the tasks it finds are below. -/
theorem buildLevel_ensures (keeps : b.Keeps rule I) {T : GroupEntity → Prop}
    (passes : ∀ e, T e → ∀ child ∈ e.children, T child) (restricted hasBelow : Bool) (depth : Nat)
    {tasks : List GroupTask} (holds : ∀ t ∈ tasks, T t.entity) (arena : GroupArena) :
    Action.Ensures (fun s => I s.collector)
      (fun r => (∃ built, r.1.toList = arena.toList ++ built
          ∧ List.Forall₂ (b.Builds rule restricted) tasks built) ∧ ∀ t ∈ r.2, IsBelow T t)
      (b.buildLevel rule restricted hasBelow depth tasks arena) := by
  induction tasks generalizing arena with
  | nil => exact .pure ⟨⟨[], by simp, .nil⟩, List.forall_mem_nil _⟩
  | cons t tasks ih =>
    unfold buildLevel
    refine (buildRecord_ensures keeps restricted depth t arena.size).bind fun r built => ?_
    have others : ∀ found : List GroupTask, (∀ t' ∈ found, IsBelow T t') →
        Action.Ensures (fun s => I s.collector)
          (fun r => (∃ built, r.1.toList = arena.toList ++ built
              ∧ List.Forall₂ (b.Builds rule restricted) (t :: tasks) built) ∧ ∀ t ∈ r.2, IsBelow T t)
          (b.buildLevel rule restricted hasBelow depth tasks (arena.push r)
            >>= fun r => pure (r.1, found ++ r.2)) := by
      intro found below
      refine (ih (fun t' later => holds t' (.tail _ later)) (arena.push r)).bind ?_
      rintro ⟨arena', others⟩ ⟨⟨more, stored, each⟩, rest⟩
      refine .pure ⟨⟨r :: more, ?_, .cons built each⟩, ?_⟩
      · rw [stored, GroupArena.toList_push, List.append_assoc, List.singleton_append]
      · exact List.forall_mem_append.mpr ⟨below, rest⟩
    cases hasBelow with
    | false => exact others [] (List.forall_mem_nil _)
    | true =>
      refine (Action.Ensures.lift fun found below => ?_).bind fun found below => others found below
      exact tasksBelow_isBelow passes (holds t (.head _)) below

theorem buildLevels_ensures (keeps : b.Keeps rule I) {T : GroupEntity → Prop}
    (passes : ∀ e, T e → ∀ child ∈ e.children, T child) (restricted : Bool) (remaining depth : Nat)
    {tasks : List GroupTask} (holds : ∀ t ∈ tasks, T t.entity) (arena : GroupArena) :
    Action.Ensures (fun s => I s.collector)
      (fun group => ∃ built deeper, group.toList = arena.toList ++ built ++ deeper
        ∧ List.Forall₂ (b.Builds rule restricted) tasks built
        ∧ ∀ r ∈ deeper, ∃ t, IsBelow T t ∧ b.Builds rule restricted t r)
      (b.buildLevels rule restricted remaining depth tasks arena) := by
  induction remaining generalizing depth tasks arena with
  | zero =>
    unfold buildLevels
    refine (buildLevel_ensures keeps passes restricted false depth holds arena).bind ?_
    rintro ⟨group, _⟩ ⟨⟨built, stored, each⟩, _⟩
    exact .pure ⟨built, [], by simpa using stored, each, List.forall_mem_nil _⟩
  | succ remaining ih =>
    unfold buildLevels
    refine (buildLevel_ensures keeps passes restricted true depth holds arena).bind ?_
    rintro ⟨group, below⟩ ⟨⟨built, stored, each⟩, rest⟩
    cases below with
    | nil => exact .pure ⟨built, [], by simpa using stored, each, List.forall_mem_nil _⟩
    | cons t below =>
      refine (ih (depth + 1) (fun t member => (rest t member).1) group).imp ?_
      rintro group' ⟨next, deeper, stored', each', holds'⟩
      refine ⟨built, next ++ deeper, ?_, each, ?_⟩
      · rw [stored', stored, List.append_assoc]
      · refine List.forall_mem_append.mpr ⟨fun r member => ?_, holds'⟩
        obtain ⟨t', member', built'⟩ := exists_of_forall₂ each' r member
        exact ⟨t', rest t' member', built'⟩

/-- A group consists of the record of its element and of records of tasks below. -/
theorem build_ensures (keeps : b.Keeps rule I) {T : GroupEntity → Prop}
    (passes : ∀ e, T e → ∀ child ∈ e.children, T child) {e : GroupEntity} (holds : T e)
    (element : Xml.Cursor) (label : String) (restricted : Bool) :
    Action.Ensures (fun s => I s.collector)
      (fun group => ∃ root deeper, group.toList = root :: deeper
        ∧ b.Builds rule restricted ⟨element, e, label, none⟩ root
        ∧ ∀ r ∈ deeper, ∃ t, IsBelow T t ∧ b.Builds rule restricted t r)
      (b.build rule e element label restricted) := by
  have tasks : ∀ t ∈ [(⟨element, e, label, none⟩ : GroupTask)], T t.entity := by
    simpa using holds
  refine (buildLevels_ensures keeps passes restricted b.maxDepth 0 tasks {}).imp ?_
  rintro group ⟨built, deeper, stored, each, below⟩
  cases each with
  | cons root none =>
    cases none
    exact ⟨_, deeper, stored, root, below⟩

end GroupBuilder

/-- The record at the first position is the first record. -/
theorem GroupArena.get_zero {a : GroupArena} {root : GroupedRecord} {deeper : List GroupedRecord}
    (stored : a.toList = root :: deeper) : a.get 0 = .ok root := by
  unfold GroupArena.get
  have first : a.records[0]? = some root := by
    rw [← Array.getElem?_toList]
    exact congrArg (·[0]?) stored
  simp [first]

end MetadataIndex
