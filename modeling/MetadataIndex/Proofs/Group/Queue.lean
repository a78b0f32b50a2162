import Mathlib.Logic.Hydra
import Mathlib.Logic.Relation
import MetadataIndex.Proofs.Group.Built
import MetadataIndex.Proofs.Group.Nesting

/-!
# Queues of elements

Building a group level by level is the work of a queue: the first element that waits gets its record,
and the elements nested in it wait behind the others. The queue comes to an end because entities nest only
finitely deep, whatever elements they select. While it runs, each element that waits is to stand on top
or one level under a record that is there.
-/

set_option autoImplicit false

namespace MetadataIndex

open Relation (ReflTransGen)

variable {ω τ : Type}

namespace GroupBuilder

/-- Elements that wait for their records, with their depths, and what has been built. -/
structure Queue (ω τ : Type) where
  waiting : List (Nat × GroupTask)
  arena : GroupArena := {}
  state : BuildState ω τ

variable {b : GroupBuilder ω τ} {rule : FieldRule} {restricted : Bool}

/-- The elements nested in an element, unless it stands at the greatest depth. -/
def tasksFrom (b : GroupBuilder ω τ) (depth : Nat) (t : GroupTask) (index : Int) :
    Checked (List GroupTask) :=
  if depth < b.maxDepth then b.tasksBelow t index else .ok []

/-- The first element that waits gets its record, and the elements nested in it wait at the end. -/
inductive QueueStep (b : GroupBuilder ω τ) (rule : FieldRule) (restricted : Bool) :
    Queue ω τ → Queue ω τ → Prop where
  | take {depth : Nat} {t : GroupTask} {more : List (Nat × GroupTask)} {arena : GroupArena}
      {s s' : BuildState ω τ} {r : GroupedRecord} {below : List GroupTask}
      (record : b.buildRecord rule restricted depth t arena.size s = .ok r s')
      (nested : b.tasksFrom depth t r.index = .ok below) :
      QueueStep b rule restricted ⟨(depth, t) :: more, arena, s⟩
        ⟨more ++ below.map (depth + 1, ·), arena.push r, s'⟩

def startQueue (e : GroupEntity) (element : Xml.Cursor) (label : String) (s : BuildState ω τ) :
    Queue ω τ where
  waiting := [(0, { element, entity := e, label })]
  state := s

theorem queueStep_rightUnique : Relator.RightUnique (b.QueueStep rule restricted) := by
  rintro _ _ _ ⟨record, nested⟩ ⟨record', nested'⟩
  rw [record] at record'
  cases record'
  rw [nested] at nested'
  cases nested'
  rfl

theorem not_queueStep_of_nil {arena : GroupArena} {s : BuildState ω τ} {q : Queue ω τ} :
    ¬b.QueueStep rule restricted ⟨[], arena, s⟩ q := nofun

theorem tasksFrom_ok {depth : Nat} {t : GroupTask} {index : Int} {below : List GroupTask}
    (found : b.tasksFrom depth t index = .ok below) :
    ∀ t' ∈ below, t'.entity ∈ t.entity.children ∧ t'.parent = some index ∧ depth < b.maxDepth := by
  unfold tasksFrom at found
  split at found
  case isTrue deeper =>
    intro t' member
    obtain ⟨nested, parent⟩ := tasksBelow_ok found t' member
    exact ⟨nested, parent, deeper⟩
  case isFalse =>
    cases found
    exact List.forall_mem_nil _

theorem buildRecord_ok {depth : Nat} {t : GroupTask} {index : Int} {s s' : BuildState ω τ}
    {r : GroupedRecord} (ran : b.buildRecord rule restricted depth t index s = .ok r s') :
    r.index = index ∧ r.parent = t.parent ∧ r.depth = depth ∧ r.label = t.label := by
  unfold buildRecord at ran
  obtain ⟨d, _, -, ran⟩ := Action.bind_ok ran
  obtain ⟨answer, _, -, ran⟩ := Action.bind_ok ran
  obtain ⟨_, _, -, ran⟩ := Action.bind_ok ran
  obtain ⟨fields, _, -, ran⟩ := Action.bind_ok ran
  cases ran
  exact ⟨rfl, rfl, rfl, rfl⟩

section Termination

theorem wellFounded_nested : WellFounded fun child e : GroupEntity => child ∈ e.children := by
  refine Subrelation.wf (r := fun child e => sizeOf child < sizeOf e) ?_
    (measure (sizeOf (α := GroupEntity))).wf
  rintro child ⟨name, kind, xpath, url, subfields, children, authority, coordinates⟩ member
  have smaller := List.sizeOf_lt_of_mem (show child ∈ children from member)
  simp only [GroupEntity.mk.sizeOf_spec]
  omega

/-- Every queue comes to an end: each element is replaced by elements of entities nested in its own. -/
theorem acc_queueStep (q : Queue ω τ) :
    Acc (fun next before => b.QueueStep rule restricted before next) q := by
  -- the elements say nothing: one may select itself; the entities that wait decrease as a multiset
  refine Subrelation.accessible ?_ (InvImage.accessible
    (fun q : Queue ω τ => ((q.waiting.map (·.2.entity) : List GroupEntity) : Multiset GroupEntity))
    ((wellFounded_nested.cutExpand).apply _))
  rintro _ _ ⟨-, nested⟩
  rename_i depth t more arena s s' r below
  refine ⟨((below.map (·.entity) : List GroupEntity) : Multiset GroupEntity), t.entity, ?_, ?_⟩
  · intro e member
    obtain ⟨t', inside, rfl⟩ := List.mem_map.mp (Multiset.mem_coe.mp member)
    exact (tasksFrom_ok nested t' inside).1
  · rw [← Multiset.coe_singleton, Multiset.coe_add, Multiset.coe_add, Multiset.coe_eq_coe]
    simp only [List.map_append, List.map_cons, List.map_map, Function.comp_def]
    exact List.perm_append_singleton _ _

end Termination

section Levels

theorem buildLevel_ok {hasBelow : Bool} {depth : Nat} {t : GroupTask} {tasks : List GroupTask}
    {arena arena' : GroupArena} {below : List GroupTask} {s s' : BuildState ω τ}
    (ran : b.buildLevel rule restricted hasBelow depth (t :: tasks) arena s
      = .ok (arena', below) s') :
    ∃ r middle found others, b.buildRecord rule restricted depth t arena.size s = .ok r middle
      ∧ (if hasBelow then b.tasksBelow t r.index else .ok []) = .ok found
      ∧ b.buildLevel rule restricted hasBelow depth tasks (arena.push r) middle
        = .ok (arena', others) s'
      ∧ below = found ++ others := by
  unfold buildLevel at ran
  obtain ⟨r, middle, record, ran⟩ := Action.bind_ok ran
  have rest : ∀ (found : List GroupTask) {middle : BuildState ω τ},
      (b.buildLevel rule restricted hasBelow depth tasks (arena.push r) >>= fun built =>
        pure (built.1, found ++ built.2)) middle = .ok (arena', below) s' →
      ∃ others, b.buildLevel rule restricted hasBelow depth tasks (arena.push r) middle
        = .ok (arena', others) s' ∧ below = found ++ others := by
    intro found middle ran
    obtain ⟨⟨_, others⟩, _, rest, ran⟩ := Action.bind_ok ran
    cases ran
    exact ⟨others, rest, rfl⟩
  cases hasBelow with
  | false =>
    obtain ⟨others, ran, same⟩ := rest [] ran
    exact ⟨r, middle, [], others, record, rfl, ran, same⟩
  | true =>
    obtain ⟨found, _, lifted, ran⟩ := Action.bind_ok ran
    obtain ⟨nested, rfl⟩ := Action.lift_ok lifted
    obtain ⟨others, ran, same⟩ := rest found ran
    exact ⟨r, middle, found, others, record, nested, ran, same⟩

theorem tasksFrom_eq {hasBelow : Bool} {depth : Nat} (bounded : hasBelow = decide (depth < b.maxDepth))
    (t : GroupTask) (index : Int) :
    b.tasksFrom depth t index = if hasBelow then b.tasksBelow t index else .ok [] := by
  rw [tasksFrom, bounded]
  simp only [decide_eq_true_eq]

/-- Building a level takes its elements from the queue, and puts those below them at its end. -/
theorem buildLevel_runs {hasBelow : Bool} {depth : Nat}
    (bounded : hasBelow = decide (depth < b.maxDepth)) {tasks : List GroupTask}
    {arena arena' : GroupArena} {below : List GroupTask} {s s' : BuildState ω τ}
    (more : List (Nat × GroupTask))
    (ran : b.buildLevel rule restricted hasBelow depth tasks arena s = .ok (arena', below) s') :
    ReflTransGen (b.QueueStep rule restricted) ⟨tasks.map (depth, ·) ++ more, arena, s⟩
      ⟨more ++ below.map (depth + 1, ·), arena', s'⟩ := by
  induction tasks generalizing arena below s more with
  | nil =>
    cases ran
    rw [List.map_nil, List.map_nil, List.nil_append, List.append_nil]
  | cons t tasks ih =>
    obtain ⟨r, middle, found, others, record, nested, rest, rfl⟩ := buildLevel_ok ran
    rw [← tasksFrom_eq bounded] at nested
    have runs := ih (more ++ found.map (depth + 1, ·)) rest
    rw [List.append_assoc, ← List.map_append, ← List.append_assoc] at runs
    exact .head (.take record nested) runs

theorem below_eq_nil {depth : Nat} {tasks : List GroupTask} {arena arena' : GroupArena}
    {below : List GroupTask} {s s' : BuildState ω τ}
    (ran : b.buildLevel rule restricted false depth tasks arena s = .ok (arena', below) s') :
    below = [] := by
  induction tasks generalizing arena below s with
  | nil =>
    cases ran
    rfl
  | cons t tasks ih =>
    obtain ⟨r, middle, found, others, -, nested, rest, rfl⟩ := buildLevel_ok ran
    cases nested
    exact ih rest

theorem buildLevels_runs {remaining depth : Nat} (bounded : depth + remaining = b.maxDepth)
    {tasks : List GroupTask} {arena group : GroupArena} {s s' : BuildState ω τ}
    (ran : b.buildLevels rule restricted remaining depth tasks arena s = .ok group s') :
    ReflTransGen (b.QueueStep rule restricted) ⟨tasks.map (depth, ·), arena, s⟩ ⟨[], group, s'⟩ := by
  induction remaining generalizing depth tasks arena s with
  | zero =>
    unfold buildLevels at ran
    obtain ⟨⟨_, below⟩, _, level, ran⟩ := Action.bind_ok ran
    cases ran
    have last : false = decide (depth < b.maxDepth) := (decide_eq_false (by omega)).symm
    have runs := buildLevel_runs last [] level
    rw [below_eq_nil level, List.append_nil] at runs
    exact runs
  | succ remaining ih =>
    unfold buildLevels at ran
    obtain ⟨⟨_, below⟩, _, level, ran⟩ := Action.bind_ok ran
    have deeper : true = decide (depth < b.maxDepth) := (decide_eq_true (by omega)).symm
    have runs := buildLevel_runs deeper [] level
    rw [List.append_nil, List.nil_append] at runs
    cases below with
    | nil =>
      cases ran
      exact runs
    | cons t below => exact runs.trans (ih (by omega) ran)

theorem build_runs {e : GroupEntity} {element : Xml.Cursor} {label : String}
    {s s' : BuildState ω τ} {group : GroupArena}
    (ran : b.build rule e element label restricted s = .ok group s') :
    ReflTransGen (b.QueueStep rule restricted) (startQueue e element label s) ⟨[], group, s'⟩ :=
  buildLevels_runs (Nat.zero_add _) ran

theorem runs_of_build {e : GroupEntity} {element : Xml.Cursor} {label : String}
    {s s' : BuildState ω τ} {group : GroupArena}
    (ran : b.build rule e element label restricted s = .ok group s') {q : Queue ω τ}
    (reached : ReflTransGen (b.QueueStep rule restricted) (startQueue e element label s) q) :
    ReflTransGen (b.QueueStep rule restricted) q ⟨[], group, s'⟩ := by
  obtain onward | back := ReflTransGen.total_of_right_unique queueStep_rightUnique reached
    (build_runs ran)
  · exact onward
  · obtain rfl | ⟨next, step, -⟩ := back.cases_head
    · exact .refl
    · exact absurd step not_queueStep_of_nil

end Levels

section Placement

/-- The records are well placed, and an element that waits is to stand on top or one level under one of
them. -/
structure Queue.Placed (maxDepth : Nat) (q : Queue ω τ) : Prop where
  records : WellPlaced maxDepth q.arena.toList
  waiting : ∀ x ∈ q.waiting, (x.2.parent = none ∧ x.1 = 0) ∨ ∃ above ∈ q.arena.toList,
    x.2.parent = some above.index ∧ x.1 = above.depth + 1 ∧ x.1 ≤ maxDepth

theorem QueueStep.placed {q q' : Queue ω τ} (step : b.QueueStep rule restricted q q')
    (placed : q.Placed b.maxDepth) : q'.Placed b.maxDepth := by
  obtain ⟨record, nested⟩ := step
  rename_i depth t more arena s s' r below
  obtain ⟨index, parent, level, -⟩ := buildRecord_ok record
  have follows : r.Follows b.maxDepth arena.toList := by
    refine ⟨by rw [index, GroupArena.length_toList], ?_⟩
    rw [parent, level]
    exact placed.waiting _ (.head _)
  refine ⟨?_, fun x member => ?_⟩
  · rw [GroupArena.toList_push]
    exact .snoc placed.records follows
  · rw [GroupArena.toList_push]
    obtain behind | new := List.mem_append.mp member
    · obtain top | ⟨above, first, rest⟩ := placed.waiting x (.tail _ behind)
      · exact .inl top
      · exact .inr ⟨above, List.mem_append_left _ first, rest⟩
    · obtain ⟨t', inside, rfl⟩ := List.mem_map.mp new
      obtain ⟨-, under, deeper⟩ := tasksFrom_ok nested t' inside
      exact .inr ⟨r, List.mem_append_right _ (.head _), under, by rw [level], deeper⟩

theorem build_placed {e : GroupEntity} {element : Xml.Cursor} {label : String}
    {s s' : BuildState ω τ} {group : GroupArena}
    (ran : b.build rule e element label restricted s = .ok group s') :
    WellPlaced b.maxDepth group.toList := by
  have start : (startQueue e element label s).Placed b.maxDepth :=
    ⟨.nil, fun x member => .inl (by
      obtain rfl := List.mem_singleton.mp member
      exact ⟨rfl, rfl⟩)⟩
  suffices ∀ q, ReflTransGen (b.QueueStep rule restricted) (startQueue e element label s) q →
      q.Placed b.maxDepth from (this _ (build_runs ran)).records
  intro q runs
  induction runs with
  | refl => exact start
  | tail _ step ih => exact step.placed ih

end Placement

section Root

/-- The first record stands alone on top: all others, and all that wait, are nested. -/
structure Queue.Under (root : GroupedRecord) (q : Queue ω τ) : Prop where
  first : ∃ deeper, q.arena.toList = root :: deeper ∧ ∀ r ∈ deeper, r.parent.isSome = true
  waiting : ∀ x ∈ q.waiting, x.2.parent.isSome = true

theorem QueueStep.under {q q' : Queue ω τ} (step : b.QueueStep rule restricted q q')
    {root : GroupedRecord} (under : q.Under root) : q'.Under root := by
  obtain ⟨record, nested⟩ := step
  rename_i depth t more arena s s' r below
  obtain ⟨⟨deeper, stored, parents⟩, waiting⟩ := under
  obtain ⟨-, parent, -, -⟩ := buildRecord_ok record
  refine ⟨⟨deeper ++ [r], ?_, ?_⟩, fun x member => ?_⟩
  · rw [GroupArena.toList_push]
    exact congrArg (· ++ [r]) stored
  · refine List.forall_mem_append.mpr ⟨parents, List.forall_mem_singleton.mpr ?_⟩
    rw [parent]
    exact waiting _ (.head _)
  · obtain behind | new := List.mem_append.mp member
    · exact waiting x (.tail _ behind)
    · obtain ⟨t', inside, rfl⟩ := List.mem_map.mp new
      rw [(tasksFrom_ok nested t' inside).2.1]
      rfl

/-- The first record of a group is that of its element. All others are nested, and there are none if no
element is selected below it. -/
theorem build_root {e : GroupEntity} {element : Xml.Cursor} {label : String}
    {s s' : BuildState ω τ} {group : GroupArena}
    (ran : b.build rule e element label restricted s = .ok group s') :
    ∃ root middle below deeper,
      b.buildRecord rule restricted 0 { element, entity := e, label } 0 s = .ok root middle
      ∧ b.tasksFrom 0 { element, entity := e, label } root.index = .ok below
      ∧ group.toList = root :: deeper ∧ (∀ r ∈ deeper, r.parent.isSome = true)
      ∧ (below = [] → deeper = []) := by
  obtain same | ⟨next, ⟨record, nested⟩, rest⟩ := (build_runs ran).cases_head
  · cases same
  rename_i middle root below
  have start : Queue.Under root ⟨[] ++ below.map (1, ·), GroupArena.push {} root, middle⟩ := by
    refine ⟨⟨[], rfl, List.forall_mem_nil _⟩, fun x member => ?_⟩
    obtain ⟨t', inside, rfl⟩ := List.mem_map.mp member
    rw [(tasksFrom_ok nested t' inside).2.1]
    rfl
  have ended : Queue.Under (ω := ω) (τ := τ) root ⟨[], group, s'⟩ := by
    suffices ∀ q, ReflTransGen (b.QueueStep rule restricted) _ q → q.Under root from this _ rest
    intro q runs
    induction runs with
    | refl => exact start
    | tail _ step ih => exact step.under ih
  obtain ⟨deeper, stored, parents⟩ := ended.first
  refine ⟨root, middle, below, deeper, record, nested, stored, parents, ?_⟩
  rintro rfl
  obtain same | ⟨_, step, -⟩ := rest.cases_head
  · cases same
    cases stored
    rfl
  · exact absurd step not_queueStep_of_nil

end Root

end GroupBuilder

end MetadataIndex
