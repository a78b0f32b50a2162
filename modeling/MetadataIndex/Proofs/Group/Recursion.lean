import MetadataIndex.Proofs.Group.Queue
import MetadataIndex.Proofs.Group.Record
import MetadataIndex.Proofs.Transform.Caching

/-!
# Groups by recursion

The document of an element holds its record and, for each nested entity in order, the documents of all
elements that the entity selects. When the outer world always answers alike, the queue of a group builds
this document: it is built if and only if the recursion ends without a fault.
-/

set_option autoImplicit false

namespace MetadataIndex

open AuthorityService (Finds)
open MetadataIndex.Xml (Cursor)
open Relation (ReflTransGen)

variable {ω τ : Type} {answer : String → Checked LookupResult}
  {document : String → Checked (Option Cursor)}

namespace GroupBuilder

/-- The document of an element, with at most `remaining` levels below it. All records are built from one
state of the outer world and of the owning record. -/
def documentOf (b : GroupBuilder ω τ) (rule : FieldRule) (s : BuildState ω τ) :
    Nat → Nat → Bool → GroupEntity → Cursor → String → Checked GroupDocument
  | 0, depth, restricted, entity, element, label => do
    let r ← (b.buildRecord rule restricted depth { element, entity, label } 0).outcome s
    return .mk r []
  | remaining + 1, depth, restricted, entity, element, label => do
    let r ← (b.buildRecord rule restricted depth { element, entity, label } 0).outcome s
    let below ← entity.children.mapM fun child => do
      (← b.selected child element).mapM fun place =>
        documentOf b rule s remaining (depth + 1) false child place child.name
    return .mk r below.flatten

variable {b : GroupBuilder ω τ} {rule : FieldRule} {restricted : Bool} {start : BuildState ω τ}

def taskDocument (b : GroupBuilder ω τ) (rule : FieldRule) (start : BuildState ω τ)
    (restricted : Bool) (remaining depth : Nat) (t : GroupTask) : Checked GroupDocument :=
  b.documentOf rule start remaining depth (restricted && t.parent.isNone) t.entity t.element t.label

/-- The record of an element as the recursion builds it. -/
def taskRecord (b : GroupBuilder ω τ) (rule : FieldRule) (start : BuildState ω τ) (restricted : Bool)
    (depth : Nat) (t : GroupTask) : Checked GroupedRecord :=
  (b.buildRecord rule (restricted && t.parent.isNone) depth { t with parent := none } 0).outcome start

/-- A document holds the record of its element, over the documents of the elements that the queue takes
up below it. -/
theorem taskDocument_ok_iff {remaining depth : Nat} (bounded : depth + remaining = b.maxDepth)
    (t : GroupTask) (index : Int) (d : GroupDocument) :
    b.taskDocument rule start restricted remaining depth t = .ok d
      ↔ ∃ r below ds, b.taskRecord rule start restricted depth t = .ok r
        ∧ b.tasksFrom depth t index = .ok below
        ∧ below.mapM (b.taskDocument rule start restricted (remaining - 1) (depth + 1)) = .ok ds
        ∧ d = .mk r ds := by
  cases remaining with
  | zero =>
    have last : ¬depth < b.maxDepth := by omega
    simp only [taskDocument, documentOf, tasksFrom, if_neg last]
    constructor
    · intro ran
      obtain ⟨r, record, ran⟩ := Checked.bind_ok ran
      cases ran
      exact ⟨r, [], [], record, rfl, rfl, rfl⟩
    · rintro ⟨r, below, ds, record, none, ran, rfl⟩
      cases none
      cases ran
      rw [show (b.buildRecord rule (restricted && t.parent.isNone) depth _ 0).outcome start = .ok r
        from record]
      rfl
  | succ remaining =>
    have deeper : depth < b.maxDepth := by omega
    have selected := Checked.mapM_flatten_ok_iff (fun child => b.selected child t.element)
      (fun child element =>
        { element, entity := child, label := child.name, parent := some index : GroupTask })
      (b.taskDocument rule start restricted remaining (depth + 1)) t.entity.children
    simp only [taskDocument, Option.isNone_some, Bool.and_false] at selected
    simp only [taskDocument, documentOf, tasksFrom, if_pos deeper, Nat.add_sub_cancel]
    constructor
    · intro ran
      obtain ⟨r, record, ran⟩ := Checked.bind_ok ran
      obtain ⟨each, nested, ran⟩ := Checked.bind_ok ran
      cases ran
      obtain ⟨found, tasks, valued⟩ := (selected _).mp ⟨each, nested, rfl⟩
      refine ⟨r, found.flatten, each.flatten, record, ?_, valued, rfl⟩
      rw [tasksBelow, tasks]
      rfl
    · rintro ⟨r, below, ds, record, nested, valued, rfl⟩
      obtain ⟨found, tasks, nested⟩ := Checked.bind_ok nested
      cases nested
      obtain ⟨each, ran, rfl⟩ := (selected _).mpr ⟨found, tasks, valued⟩
      rw [show (b.buildRecord rule (restricted && t.parent.isNone) depth _ 0).outcome start = .ok r
        from record, ran]
      rfl

section Levels

/-- What an element becomes: its record, up to where it stands, and the elements below it. -/
structure Took (b : GroupBuilder ω τ) (rule : FieldRule) (start : BuildState ω τ) (restricted : Bool)
    (depth : Nat) (t : GroupTask) (x : GroupedRecord × List GroupTask) : Prop where
  record : b.taskRecord rule start restricted depth t = .ok x.1.unplaced
  parent : x.1.parent = t.parent
  below : b.tasksFrom depth t x.1.index = .ok x.2

/-- A nested document that is the document of an element, up to where its records stand. -/
structure Rendered (b : GroupBuilder ω τ) (rule : FieldRule) (start : BuildState ω τ)
    (restricted : Bool) (remaining depth : Nat) (t : GroupTask) (x : Option Int × GroupDocument) :
    Prop where
  parent : x.1 = t.parent
  document : b.taskDocument rule start restricted remaining depth t
    = .ok (x.2.map GroupedRecord.unplaced)

/-- The records of a level take up the documents below them, each in its turn. -/
theorem nest_taken {remaining depth : Nat} (bounded : depth + remaining = b.maxDepth)
    {tasks : List GroupTask} {taken : List (GroupedRecord × List GroupTask)}
    (each : List.Forall₂ (b.Took rule start restricted depth) tasks taken)
    (ascends : taken.Pairwise fun x y => x.1.index < y.1.index)
    (above : ∀ t ∈ tasks, ∀ x ∈ taken, t.parent ≠ some x.1.index) {deeper : List GroupedRecord}
    {extra docs : List (Option Int × GroupDocument)}
    (nested : GroupDocument.nest deeper = extra ++ docs)
    (apart : ∀ d ∈ extra, ∀ x ∈ taken, d.1 ≠ some x.1.index)
    (below : List.Forall₂ (b.Rendered rule start restricted (remaining - 1) (depth + 1))
      (taken.flatMap (·.2)) docs) :
    ∃ tops, GroupDocument.nest (taken.map (·.1) ++ deeper) = tops ++ extra
      ∧ List.Forall₂ (b.Rendered rule start restricted remaining depth) tasks tops := by
  induction each generalizing extra docs with
  | nil =>
    cases below
    exact ⟨[], by rw [List.map_nil, List.nil_append, nested, List.append_nil, List.nil_append], .nil⟩
  | @cons t x tasks taken took each ih =>
    obtain ⟨first, later, rfl, own, others⟩ : ∃ first later, docs = first ++ later
        ∧ List.Forall₂ (b.Rendered rule start restricted (remaining - 1) (depth + 1)) x.2 first
        ∧ List.Forall₂ (b.Rendered rule start restricted (remaining - 1) (depth + 1))
          (taken.flatMap (·.2)) later := by
      rw [List.flatMap_cons] at below
      have own := List.forall₂_take x.2.length below
      have others := List.forall₂_drop x.2.length below
      rw [List.take_left] at own
      rw [List.drop_left] at others
      exact ⟨_, _, (List.take_append_drop _ docs).symm, own, others⟩
    have under : ∀ d ∈ first, d.1 = some x.1.index := by
      intro d member
      obtain ⟨t', inside, rendered⟩ := exists_of_forall₂ own d member
      rw [rendered.parent, (tasksFrom_ok took.below t' inside).2.1]
    have nested' : GroupDocument.nest deeper = (extra ++ first) ++ later := by
      rw [nested, List.append_assoc]
    have apart' : ∀ d ∈ extra ++ first, ∀ y ∈ taken, d.1 ≠ some y.1.index := by
      intro d member y inside
      obtain old | new := List.mem_append.mp member
      · exact apart d old y (.tail _ inside)
      · have before := List.rel_of_pairwise_cons ascends inside
        rw [under d new, ne_eq, Option.some.injEq]
        omega
    obtain ⟨tops, rest, rendered⟩ := ih ascends.tail
      (fun t' member y inside => above t' (.tail _ member) y (.tail _ inside)) nested' apart' others
    -- of what stands behind the record, only its own documents name it as parent
    have tops_apart : ∀ d ∈ tops, d.1 ≠ some x.1.index := by
      intro d member
      obtain ⟨t', inside, rendered⟩ := exists_of_forall₂ rendered d member
      rw [rendered.parent]
      exact above t' (.tail _ inside) x (.head _)
    have extra_apart : ∀ d ∈ extra, d.1 ≠ some x.1.index := fun d member => apart d member x (.head _)
    refine ⟨(x.1.parent, .mk x.1 (first.map (·.2))) :: tops, ?_, .cons ⟨took.parent, ?_⟩ rendered⟩
    · have chosen : (tops ++ (extra ++ first)).filter (·.1 == some x.1.index) = first := by
        rw [List.filter_append, List.filter_append,
          List.filter_eq_nil_iff.mpr (by simpa using tops_apart),
          List.filter_eq_nil_iff.mpr (by simpa using extra_apart),
          List.filter_eq_self.mpr (by simpa using under), List.nil_append, List.nil_append]
      have left : (tops ++ (extra ++ first)).filter (!·.1 == some x.1.index) = tops ++ extra := by
        rw [List.filter_append, List.filter_append,
          List.filter_eq_self.mpr (by simpa using tops_apart),
          List.filter_eq_self.mpr (by simpa using extra_apart),
          List.filter_eq_nil_iff.mpr (by simpa using under), List.append_nil]
      rw [List.map_cons, List.cons_append, GroupDocument.nest_cons, rest, chosen, left,
        List.cons_append]
    · refine (taskDocument_ok_iff bounded t x.1.index _).mpr
        ⟨_, _, first.map (·.2.map GroupedRecord.unplaced), took.record, took.below, ?_, ?_⟩
      · rw [Checked.mapM_ok_iff, List.forall₂_map_right_iff]
        exact own.imp fun _ _ rendered => rendered.document
      · rw [GroupDocument.map_mk, List.map_map]
        rfl

variable (answers : b.Answers answer) (cites : b.Cites document)

include answers cites in
/-- The records of an element differ only in where they stand, whatever was built and kept before. -/
theorem buildRecord_ends (rule : FieldRule) (restricted : Bool)
    (kept : start.outside.KeepsOnly (Finds answer)) {s : BuildState ω τ}
    (keeps : s.outside.KeepsOnly (Finds answer)) (depth : Nat) (t : GroupTask) (index : Int) :
    Action.Ends False
      (BuildState.Beside (fun _ _ => True) (BothKept (KeptOnly (Finds answer))))
      (fun r r' => r.unplaced = r'.unplaced) (b.buildRecord rule restricted depth t index s)
      (b.buildRecord rule (restricted && t.parent.isNone) depth { t with parent := none } 0 start) := by
  have beside : BuildState.Beside (fun _ _ => True) (BothKept (KeptOnly (Finds answer))) s start :=
    ⟨trivial, keeps, kept⟩
  have same : (restricted && t.parent.isNone)
      = ((restricted && t.parent.isNone) && (none : Option Int).isNone) := by
    rw [Option.isNone_none, Bool.and_true]
  exact buildRecord_compares_beside (answers.respects_kept cites) t { t with parent := none } rfl rfl
    rfl same depth index 0 s start beside

include answers cites in
theorem buildRecord_took (kept : start.outside.KeepsOnly (Finds answer)) {s s' : BuildState ω τ}
    (keeps : s.outside.KeepsOnly (Finds answer)) {depth : Nat} {t : GroupTask} {index : Int}
    {r : GroupedRecord} (ran : b.buildRecord rule restricted depth t index s = .ok r s') :
    b.taskRecord rule start restricted depth t = .ok r.unplaced
      ∧ s'.outside.KeepsOnly (Finds answer) := by
  have ends := buildRecord_ends answers cites rule restricted kept keeps depth t index
  rw [ran] at ends
  unfold taskRecord Action.outcome
  generalize found : b.buildRecord rule _ depth { t with parent := none } 0 start = r' at ends
  cases ends with
  | @ok _ r' _ _ same states =>
    obtain ⟨first, top, -, -⟩ := buildRecord_ok found
    have placed : r'.unplaced = r' := by
      cases r'
      cases first
      cases top
      rfl
    exact ⟨by rw [same, placed], states.cache.1⟩
  | rightFault allowed => exact allowed.elim

include answers cites in
theorem buildRecord_completes (kept : start.outside.KeepsOnly (Finds answer)) {s : BuildState ω τ}
    (keeps : s.outside.KeepsOnly (Finds answer)) {depth : Nat} {t : GroupTask} (index : Int)
    {r : GroupedRecord} (found : b.taskRecord rule start restricted depth t = .ok r) :
    ∃ r s', b.buildRecord rule restricted depth t index s = .ok r s' := by
  have ends := buildRecord_ends answers cites rule restricted kept keeps depth t index
  obtain ⟨_, found⟩ := Action.ok_of_outcome found
  rw [found] at ends
  generalize b.buildRecord rule restricted depth t index s = ran at ends
  cases ends with
  | ok _ _ => exact ⟨_, _, rfl⟩
  | leftFault allowed => exact allowed.elim

include answers cites in
theorem buildLevel_took (kept : start.outside.KeepsOnly (Finds answer)) {hasBelow : Bool}
    {depth : Nat} (bounded : hasBelow = decide (depth < b.maxDepth)) {tasks : List GroupTask}
    {arena arena' : GroupArena} {below : List GroupTask} {s s' : BuildState ω τ}
    (keeps : s.outside.KeepsOnly (Finds answer))
    (ran : b.buildLevel rule restricted hasBelow depth tasks arena s = .ok (arena', below) s') :
    s'.outside.KeepsOnly (Finds answer)
      ∧ ∃ taken, List.Forall₂ (b.Took rule start restricted depth) tasks taken
        ∧ arena'.toList = arena.toList ++ taken.map (·.1)
        ∧ below = taken.flatMap (·.2)
        ∧ (taken.Pairwise fun x y => x.1.index < y.1.index)
        ∧ ∀ x ∈ taken, arena.size ≤ x.1.index ∧ x.1.index < arena'.size := by
  induction tasks generalizing arena below s with
  | nil =>
    cases ran
    exact ⟨keeps, [], .nil, (List.append_nil _).symm, rfl, .nil, List.forall_mem_nil _⟩
  | cons t tasks ih =>
    obtain ⟨r, middle, found, others, record, nested, rest, rfl⟩ := buildLevel_ok ran
    obtain ⟨same, keeps⟩ := buildRecord_took answers cites kept keeps record
    obtain ⟨index, parent, -, -⟩ := buildRecord_ok record
    rw [← tasksFrom_eq bounded] at nested
    obtain ⟨keeps, taken, each, records, rfl, ascends, bounds⟩ := ih keeps rest
    have grown : arena.size + 1 + taken.length = arena'.size := by
      rw [← GroupArena.length_toList arena', records, GroupArena.toList_push]
      simp only [List.length_append, GroupArena.length_toList, List.length_singleton,
        List.length_map]
    have pushed : (arena.push r).size = arena.size + 1 := by
      rw [← GroupArena.length_toList, GroupArena.toList_push, List.length_append,
        GroupArena.length_toList, List.length_singleton]
    rw [pushed] at bounds
    refine ⟨keeps, (r, found) :: taken, .cons ⟨same, parent, nested⟩ each, ?_, rfl,
      .cons (fun x later => ?_) ascends, List.forall_mem_cons.mpr ⟨?_, fun x later => ?_⟩⟩
    · rw [records, GroupArena.toList_push, List.append_assoc]
      rfl
    · have := bounds x later
      dsimp only
      omega
    · dsimp only
      omega
    · have := bounds x later
      omega

include answers cites in
/-- The levels of a group are the documents of the elements of the first one. -/
theorem buildLevels_rendered (kept : start.outside.KeepsOnly (Finds answer)) {remaining depth : Nat}
    (bounded : depth + remaining = b.maxDepth) {tasks : List GroupTask} {arena group : GroupArena}
    (above : ∀ t ∈ tasks, ∀ p, t.parent = some p → p < arena.size) {s s' : BuildState ω τ}
    (keeps : s.outside.KeepsOnly (Finds answer))
    (ran : b.buildLevels rule restricted remaining depth tasks arena s = .ok group s') :
    ∃ deeper, group.toList = arena.toList ++ deeper
      ∧ List.Forall₂ (b.Rendered rule start restricted remaining depth) tasks
        (GroupDocument.nest deeper) := by
  -- the first level, over what the levels below it become
  have level {hasBelow : Bool} (deeper : hasBelow = decide (depth < b.maxDepth))
      {arena' : GroupArena} {below : List GroupTask} {middle : BuildState ω τ}
      (first : b.buildLevel rule restricted hasBelow depth tasks arena s
        = .ok (arena', below) middle)
      (rest : middle.outside.KeepsOnly (Finds answer) →
        (∀ t ∈ below, ∀ p, t.parent = some p → p < arena'.size) →
        ∃ deeper, group.toList = arena'.toList ++ deeper
          ∧ List.Forall₂ (b.Rendered rule start restricted (remaining - 1) (depth + 1)) below
            (GroupDocument.nest deeper)) :
      ∃ deeper, group.toList = arena.toList ++ deeper
        ∧ List.Forall₂ (b.Rendered rule start restricted remaining depth) tasks
          (GroupDocument.nest deeper) := by
    obtain ⟨keeps, taken, each, records, rfl, ascends, bounds⟩ :=
      buildLevel_took answers cites kept deeper keeps first
    obtain ⟨deeper, built, rendered⟩ := rest keeps fun t member p parent => by
      obtain ⟨x, inside, member⟩ := List.mem_flatMap.mp member
      obtain ⟨_, _, took⟩ := exists_of_forall₂ each x inside
      have under := (tasksFrom_ok took.below t member).2.1
      rw [parent, Option.some.injEq] at under
      have := bounds x inside
      omega
    obtain ⟨tops, nested, rendered⟩ := nest_taken bounded each ascends
      (fun t member x inside parent => by
        have := above t member _ parent
        have := bounds x inside
        omega)
      (List.nil_append _).symm (List.forall_mem_nil _) rendered
    rw [List.append_nil] at nested
    exact ⟨taken.map (·.1) ++ deeper, by rw [built, records, List.append_assoc], nested ▸ rendered⟩
  cases remaining with
  | zero =>
    unfold buildLevels at ran
    obtain ⟨⟨_, below⟩, _, first, ran⟩ := Action.bind_ok ran
    cases ran
    refine level (decide_eq_false (by omega)).symm first fun _ _ => ⟨[], (List.append_nil _).symm, ?_⟩
    rw [below_eq_nil first]
    exact .nil
  | succ remaining =>
    unfold buildLevels at ran
    obtain ⟨⟨_, below⟩, _, first, ran⟩ := Action.bind_ok ran
    refine level (decide_eq_true (by omega)).symm first fun keeps under => ?_
    cases below with
    | nil =>
      cases ran
      exact ⟨[], (List.append_nil _).symm, .nil⟩
    | cons t below => exact buildLevels_rendered kept (by omega) under keeps ran

include answers cites in
theorem buildLevel_completes (kept : start.outside.KeepsOnly (Finds answer)) {hasBelow : Bool}
    {depth : Nat} (bounded : hasBelow = decide (depth < b.maxDepth)) {tasks : List GroupTask}
    (each : ∀ t ∈ tasks, (∃ r, b.taskRecord rule start restricted depth t = .ok r)
      ∧ ∀ index, ∃ below, b.tasksFrom depth t index = .ok below)
    (arena : GroupArena) {s : BuildState ω τ} (keeps : s.outside.KeepsOnly (Finds answer)) :
    ∃ built s', b.buildLevel rule restricted hasBelow depth tasks arena s = .ok built s' := by
  induction tasks generalizing arena s with
  | nil => exact ⟨_, _, rfl⟩
  | cons t tasks ih =>
    obtain ⟨⟨_, found⟩, nested⟩ := each t (.head _)
    obtain ⟨r, middle, record⟩ := buildRecord_completes answers cites kept keeps arena.size found
    obtain ⟨-, keeps⟩ := buildRecord_took answers cites kept keeps record
    obtain ⟨below, nested⟩ := nested r.index
    obtain ⟨⟨arena', others⟩, s', rest⟩ := ih (fun t' later => each t' (.tail _ later))
      (arena.push r) keeps
    refine ⟨(arena', below ++ others), s', ?_⟩
    rw [tasksFrom_eq bounded] at nested
    unfold buildLevel
    rw [Action.bind_of_ok record]
    cases hasBelow with
    | false =>
      cases nested
      exact Action.bind_of_ok rest
    | true =>
      rw [if_pos rfl] at nested
      simp only [if_true, nested]
      exact Action.bind_of_ok rest

include answers cites in
theorem buildLevels_completes (kept : start.outside.KeepsOnly (Finds answer)) {remaining depth : Nat}
    (bounded : depth + remaining = b.maxDepth) {tasks : List GroupTask}
    (each : ∀ t ∈ tasks, ∃ d, b.taskDocument rule start restricted remaining depth t = .ok d)
    (arena : GroupArena) {s : BuildState ω τ} (keeps : s.outside.KeepsOnly (Finds answer)) :
    ∃ group s', b.buildLevels rule restricted remaining depth tasks arena s = .ok group s' := by
  have parts : ∀ t ∈ tasks, (∃ r, b.taskRecord rule start restricted depth t = .ok r)
      ∧ ∀ index, ∃ below, b.tasksFrom depth t index = .ok below := by
    intro t member
    obtain ⟨d, made⟩ := each t member
    refine ⟨?_, fun index => ?_⟩
    · obtain ⟨r, _, _, record, -⟩ := (taskDocument_ok_iff bounded t 0 d).mp made
      exact ⟨r, record⟩
    · obtain ⟨_, below, _, -, nested, -⟩ := (taskDocument_ok_iff bounded t index d).mp made
      exact ⟨below, nested⟩
  cases remaining with
  | zero =>
    have last : false = decide (depth < b.maxDepth) := (decide_eq_false (by omega)).symm
    obtain ⟨⟨arena', _⟩, s', level⟩ := buildLevel_completes answers cites kept last parts arena keeps
    exact ⟨arena', s', Action.bind_of_ok level⟩
  | succ remaining =>
    have deeper : true = decide (depth < b.maxDepth) := (decide_eq_true (by omega)).symm
    obtain ⟨⟨arena', below⟩, middle, level⟩ :=
      buildLevel_completes answers cites kept deeper parts arena keeps
    unfold buildLevels
    rw [Action.bind_of_ok level]
    obtain ⟨keeps, taken, took, -, rfl, -⟩ := buildLevel_took answers cites kept deeper keeps level
    have next : ∀ t' ∈ taken.flatMap (·.2), ∃ d,
        b.taskDocument rule start restricted remaining (depth + 1) t' = .ok d := by
      intro t' member
      obtain ⟨x, inside, member⟩ := List.mem_flatMap.mp member
      obtain ⟨t, first, took⟩ := exists_of_forall₂ took x inside
      obtain ⟨d, made⟩ := each t first
      obtain ⟨_, below, ds, -, nested, valued, -⟩ :=
        (taskDocument_ok_iff bounded t x.1.index d).mp made
      rw [took.below] at nested
      cases nested
      exact Checked.mapM_ok_iff_each.mp ⟨ds, valued⟩ t' member
    generalize taken.flatMap (·.2) = below at next
    cases below with
    | nil => exact ⟨arena', middle, rfl⟩
    | cons t' below => exact buildLevels_completes kept (by omega) next arena' keeps

end Levels

/-- With fixed answers the queue of a group comes to an end, and what it leaves renders as the one
document that the recursion gives, up to where its records stand; there is none if the recursion ends
with a fault. -/
theorem build_iff_documentOf (answers : b.Answers answer) (cites : b.Cites document)
    (kept : start.outside.KeepsOnly (Finds answer)) (rule : FieldRule) (e : GroupEntity)
    (element : Cursor) (label : String) (restricted : Bool) :
    Acc (fun next before => b.QueueStep rule restricted before next)
        (startQueue e element label start)
      ∧ (∀ d, b.documentOf rule start b.maxDepth 0 restricted e element label = .ok d
        ↔ ∃ group s' d', b.build rule e element label restricted start = .ok group s'
          ∧ group.toDocuments = .ok [d'] ∧ d'.map GroupedRecord.unplaced = d)
      ∧ ∀ group s', b.build rule e element label restricted start = .ok group s' →
        ∀ q, ReflTransGen (b.QueueStep rule restricted) (startQueue e element label start) q →
          ReflTransGen (b.QueueStep rule restricted) q ⟨[], group, s'⟩ := by
  have whole : b.documentOf rule start b.maxDepth 0 restricted e element label
      = b.taskDocument rule start restricted b.maxDepth 0 { element, entity := e, label } := by
    rw [taskDocument, Option.isNone_none, Bool.and_true]
  -- a group that was built renders as the document of its element
  have renders : ∀ group s', b.build rule e element label restricted start = .ok group s' →
      ∃ d', group.toDocuments = .ok [d']
        ∧ b.documentOf rule start b.maxDepth 0 restricted e element label
          = .ok (d'.map GroupedRecord.unplaced) := by
    intro group s' ran
    obtain ⟨deeper, built, rendered⟩ := buildLevels_rendered answers cites kept (Nat.zero_add _)
      (by simp) kept ran
    obtain rfl : group.toList = deeper := built
    rw [GroupArena.toDocuments_of_placed (build_placed ran), GroupArena.documents]
    generalize GroupDocument.nest group.toList = tops at rendered
    cases rendered with
    | cons made rest =>
      cases rest
      exact ⟨_, rfl, whole.trans made.document⟩
  refine ⟨acc_queueStep _, fun d => ⟨fun made => ?_, ?_⟩, fun group s' ran q => runs_of_build ran⟩
  · have each : ∀ t ∈ [{ element, entity := e, label : GroupTask }], ∃ d,
        b.taskDocument rule start restricted b.maxDepth 0 t = .ok d := by
      intro t member
      obtain rfl := List.mem_singleton.mp member
      exact ⟨d, whole.symm.trans made⟩
    obtain ⟨group, s', ran⟩ := buildLevels_completes answers cites kept (Nat.zero_add _) each {} kept
    obtain ⟨d', rendered, same⟩ := renders group s' ran
    rw [made] at same
    exact ⟨group, s', d', ran, rendered, (Except.ok.inj same).symm⟩
  · rintro ⟨group, s', d', ran, rendered, rfl⟩
    obtain ⟨_, rendered', same⟩ := renders group s' ran
    rw [rendered] at rendered'
    cases rendered'
    exact same

/-- An element with a name that is linked to its authority, twice. -/
def linkedNames : Cursor :=
  let name (text : String) : Xml.Node :=
    .element { plain := "n" } [{ name := { plain := "uri" }, value := "http://n/1" }] [] [.text text]
  let root : Xml.Node := .element { plain := "r" } [] [] [name "Ann", name "Anna"]
  .inside (.document { content := [root] }) 0 root

/-- Names in an element, and in each of them the element again. -/
def namesEntity : GroupEntity :=
  let again : GroupEntity :=
    .mk "AGAIN" .other (some (.text "..")) none [{ name := FieldName.mainValue, xpaths := ["n[1]"] }]
      [.mk "DEEP" .other (some (.text "n")) none [] [] false false] false false
  let names : GroupEntity :=
    .mk "NAME" .subject (some (.text "n")) none
      [{ name := FieldName.mainValue, xpaths := ["."] },
        { name := FieldName.normUri, xpaths := ["@uri"] }] [again] false false
  .mk "ALL" .other none none [] [names] false false

def namesBuilder : GroupBuilder Rat Rat where
  authority := some Transformer.halfHours
  maxDepth := 2

def namesRule : FieldRule where
  field := "ALL"
  sources := [{ xpath := "r" }]

def namesStart : BuildState Rat Rat where
  outside := ⟨0, some { lifetime := 1 }⟩

theorem build_linkedNames :
    ∃ group s' d, namesBuilder.build namesRule namesEntity linkedNames "ALL" true
        namesStart = .ok group s'
      ∧ group.toDocuments = .ok [d]
      ∧ (d.map GroupedRecord.unplaced).records.map (fun r => (r.label, r.depth, r.mainValue))
        = [("ALL", 0, none), ("NAME", 1, some "Ann"), ("AGAIN", 2, some "Ann"),
          ("NAME", 1, some "Anna"), ("AGAIN", 2, some "Ann")] := by
  have shape : (namesBuilder.documentOf namesRule namesStart 2 0 true namesEntity linkedNames
      "ALL").map (·.records.map fun r => (r.label, r.depth, r.mainValue))
      = .ok [("ALL", 0, none), ("NAME", 1, some "Ann"), ("AGAIN", 2, some "Ann"),
        ("NAME", 1, some "Anna"), ("AGAIN", 2, some "Ann")] := by
    decide +kernel
  have answers : namesBuilder.Answers Transformer.oneName := by
    rintro service ⟨⟩
    exact Transformer.halfHours_answers
  have cites : namesBuilder.Cites fun _ => .ok none := nofun
  have kept : namesStart.outside.KeepsOnly (Finds Transformer.oneName) := by
    rintro cache ⟨⟩
    exact AuthorityCache.keepsOnly_of_empty rfl
  obtain ⟨-, same, -⟩ := build_iff_documentOf answers cites kept namesRule namesEntity linkedNames
    "ALL" true
  cases made : namesBuilder.documentOf namesRule namesStart 2 0 true namesEntity linkedNames
      "ALL" with
  | error fault =>
    rw [made] at shape
    cases shape
  | ok d =>
    obtain ⟨group, s', d', ran, rendered, rfl⟩ := (same d).mp made
    rw [made] at shape
    exact ⟨group, s', d', ran, rendered, Except.ok.inj shape⟩

end GroupBuilder

end MetadataIndex
