import MetadataIndex.Group.Builder
import MetadataIndex.Proofs.Authority.Kept

/-!
# Building groups from elements that read alike

Two elements read alike for an entity when the entity takes the same values from both, and its
nested entities select elements that read alike again. The groups built from them are equal, and so
is what they give to the owning record, when the outer world answers alike.
-/

set_option autoImplicit false

namespace MetadataIndex

open MetadataIndex.Xml (Cursor)

variable {ω τ : Type} {lax : Prop} {W : ω → ω → Prop}
  {K : Option (AuthorityCache τ) → Option (AuthorityCache τ) → Prop}

/-- The owning records are equal, and the outer worlds are related. -/
structure BuildState.Related (W : ω → ω → Prop)
    (K : Option (AuthorityCache τ) → Option (AuthorityCache τ) → Prop)
    (s s' : BuildState ω τ) : Prop where
  collector : s.collector = s'.collector
  outside : s.outside.Related W K s'.outside

namespace BuildState

theorem onWorld_compares {α : Type} {A : α → α → Prop} {x y : Action ω α}
    (compared : Action.Compares lax W A x y) :
    Action.Compares lax (Related W K) A (onWorld x) (onWorld y) :=
  (AuthorityState.onWorld_compares compared).onPart (fun _ _ states => states.outside)
    fun _ _ _ _ states outside => ⟨states.collector, outside⟩

theorem onCollector_compares {α : Type} (x : Action Collector α) :
    Action.Compares lax (Related W K) Eq (onCollector (ω := ω) (τ := τ) x) (onCollector x) :=
  (Action.Compares.refl x).onPart (fun _ _ states => states.collector)
    fun _ _ _ _ states same => ⟨same, states.outside⟩

end BuildState

namespace GroupBuilder

variable {b : GroupBuilder ω τ} {rule : FieldRule}

/-- What the outer world answers a builder depends only on what the relations keep: the entries of
authority records, and citation documents. -/
structure Respects (lax : Prop) (W : ω → ω → Prop)
    (K : Option (AuthorityCache τ) → Option (AuthorityCache τ) → Prop) (b : GroupBuilder ω τ) :
    Prop where
  records : ∀ service, b.authority = some service → ∀ uri,
    Action.Compares lax (AuthorityState.Related W K)
      (fun r r' => r.map (·.entries) = r'.map (·.entries)) (service.recordOf uri)
      (service.recordOf uri)
  documents : ∀ fetch, b.citations = some fetch → ∀ address,
    Action.Compares lax W Eq (fetch address) (fetch address)

/-- The entity takes the same values from two elements, and they name the same authority. -/
structure SameValues (b : GroupBuilder ω τ) (rule : FieldRule) (e : GroupEntity)
    (c c' : Cursor) : Prop where
  values : ∀ label, Draft.ofElement b.reader rule e c label
    = Draft.ofElement b.reader rule e c' label
  authority : AuthorityIdentifier.ofAttributes? c.attribute?
    = AuthorityIdentifier.ofAttributes? c'.attribute?

/-- Two elements read alike for an entity and the entities nested in it to a depth. -/
def ReadAlike (b : GroupBuilder ω τ) (rule : FieldRule) : Nat → GroupEntity → Cursor → Cursor → Prop
  | 0, e, c, c' => b.SameValues rule e c c'
  | depth + 1, e, c, c' =>
    b.SameValues rule e c c' ∧ ∀ child ∈ e.children,
      Checked.Agree (List.Forall₂ (ReadAlike b rule depth child)) (b.selected child c)
        (b.selected child c')

theorem ReadAlike.sameValues {depth : Nat} {e : GroupEntity} {c c' : Cursor}
    (alike : b.ReadAlike rule depth e c c') : b.SameValues rule e c c' := by
  cases depth with
  | zero => exact alike
  | succ depth => exact alike.1

theorem readAlike_refl (b : GroupBuilder ω τ) (rule : FieldRule) (depth : Nat) (e : GroupEntity)
    (c : Cursor) : b.ReadAlike rule depth e c c := by
  induction depth generalizing e c with
  | zero => exact ⟨fun _ => rfl, rfl⟩
  | succ depth ih =>
    refine ⟨⟨fun _ => rfl, rfl⟩, fun child _ => .refl (fun found => ?_) _⟩
    exact List.forall₂_same.mpr fun c _ => ih child c

/-- Two tasks differ only in their elements, and these read alike. -/
structure TaskAlike (b : GroupBuilder ω τ) (rule : FieldRule) (depth : Nat) (t t' : GroupTask) :
    Prop where
  entity : t.entity = t'.entity
  label : t.label = t'.label
  parent : t.parent = t'.parent
  element : b.ReadAlike rule depth t.entity t.element t'.element

theorem citationRoot_compares (respects : b.Respects lax W K) (e : GroupEntity) (d : Draft) :
    Action.Compares lax W Eq (b.citationRoot e d) (b.citationRoot e d) := by
  unfold citationRoot
  split
  case h_1 url fetch _ _ present =>
    refine Action.Compares.bind_eq (.lift_self _) fun template => ?_
    split
    · exact respects.documents fetch present _
    · exact .pure rfl
  case h_2 => exact .pure rfl

theorem draft_compares (respects : b.Respects lax W K) {t t' : GroupTask} (label : t.label = t'.label)
    (entity : t.entity = t'.entity) (same : b.SameValues rule t.entity t.element t'.element) :
    Action.Compares lax W Eq (b.draft rule t) (b.draft rule t') := by
  have finished : ∀ d : Draft, Action.Compares lax W Eq
      (pure (if b.authority.isSome then d.takeAttributeIdentifier t.element else d) : Action ω Draft)
      (pure (if b.authority.isSome then d.takeAttributeIdentifier t'.element else d)) := by
    intro d
    refine .pure ?_
    simp only [Draft.takeAttributeIdentifier, same.authority]
  unfold draft
  rw [← label, ← entity, ← same.values]
  refine Action.Compares.bind_eq (.lift_self _) fun d => ?_
  refine Action.Compares.bind_eq (citationRoot_compares respects t.entity d) fun root => ?_
  cases root with
  | none => exact finished _
  | some root =>
    refine Action.Compares.bind_eq (.lift_self _) fun values => ?_
    exact finished _

/-- Records with the same entries give the same fields, terms and text. -/
theorem service_resolve_compares {service : AuthorityService ω τ} (style : AuthorityStyle)
    (uri : String)
    (records : Action.Compares lax (AuthorityState.Related W K)
      (fun r r' => r.map (·.entries) = r'.map (·.entries)) (service.recordOf uri)
      (service.recordOf uri)) :
    Action.Compares lax (fun s s' => s.1.Related W K s'.1 ∧ s.2 = s'.2) Eq
      (service.resolve style uri) (service.resolve style uri) := by
  unfold AuthorityService.resolve
  refine Action.Compares.bind (records.onPart (fun _ _ states => states.1)
    fun _ _ _ _ states outside => ⟨outside, states.2⟩) ?_
  intro r r' same
  cases r with
  | none =>
    cases r' with
    | none => exact .pure rfl
    | some r' => cases same
  | some r =>
    cases r' with
    | none => cases same
    | some r' =>
      have entries : r.entries = r'.entries := Option.some.inj same
      dsimp only
      rw [entries]
      exact (Action.Compares.refl _).onPart (fun _ _ states => states.2)
        fun _ _ _ _ states texts => ⟨states.1, texts⟩

theorem resolve_compares {service : AuthorityService ω τ} (uri : String)
    (records : Action.Compares lax (AuthorityState.Related W K)
      (fun r r' => r.map (·.entries) = r'.map (·.entries)) (service.recordOf uri)
      (service.recordOf uri)) :
    Action.Compares lax (BuildState.Related W K) Eq (resolve service rule uri)
      (resolve service rule uri) := by
  rintro s s' ⟨collector, outside⟩
  have ends := service_resolve_compares
    { label := some rule.field, replaceRules := rule.pipeline.replaceRules
      defaults := rule.authorityDefaults } uri records
    (s.outside, ⟨some s.collector.default, some {}⟩)
    (s'.outside, ⟨some s'.collector.default, some {}⟩) ⟨outside, by rw [collector]⟩
  unfold resolve
  dsimp only
  generalize service.resolve _ uri (s.outside, _) = r, service.resolve _ uri (s'.outside, _) = r'
    at ends
  cases ends with
  | ok same states =>
    cases same
    obtain ⟨outside, texts⟩ := states
    refine .ok ?_ ⟨?_, outside⟩
    · rw [texts]
    · simp only [texts, collector]
  | error states =>
    obtain ⟨outside, texts⟩ := states
    refine .error ⟨?_, outside⟩
    simp only [texts, collector]
  | leftFault allowed => exact .leftFault allowed
  | rightFault allowed => exact .rightFault allowed

theorem answerOf_compares (respects : b.Respects lax W K) (d : Draft) :
    Action.Compares lax (BuildState.Related W K) Eq (b.answerOf rule d) (b.answerOf rule d) := by
  unfold answerOf
  split
  case h_1 service uri present _ => exact resolve_compares uri (respects.records service present uri)
  case h_2 => exact .pure rfl

theorem buildRecord_compares (respects : b.Respects lax W K) {depth : Nat} {t t' : GroupTask}
    (alike : b.TaskAlike rule depth t t') (restricted : Bool) (level : Nat) (index : Int) :
    Action.Compares lax (BuildState.Related W K) Eq (b.buildRecord rule restricted level t index)
      (b.buildRecord rule restricted level t' index) := by
  unfold buildRecord
  rw [← alike.entity, ← alike.label, ← alike.parent]
  refine Action.Compares.bind_eq (BuildState.onWorld_compares
    (draft_compares respects alike.label alike.entity alike.element.sameValues)) fun d => ?_
  refine Action.Compares.bind_eq (answerOf_compares respects d) fun answer => ?_
  refine Action.Compares.bind (BuildState.onCollector_compares _) fun _ _ _ => ?_
  refine Action.Compares.bind_eq (BuildState.onCollector_compares _) fun fields => ?_
  exact .pure rfl

/-- What is nested in elements that read alike reads alike to one depth less. -/
theorem tasksBelow_agree {depth : Nat} {t t' : GroupTask}
    (alike : b.TaskAlike rule (depth + 1) t t') (index : Int) :
    Checked.Agree (List.Forall₂ (b.TaskAlike rule depth)) (b.tasksBelow t index)
      (b.tasksBelow t' index) := by
  unfold tasksBelow
  rw [← alike.entity]
  refine (Checked.Agree.mapM (A := List.Forall₂ (b.TaskAlike rule depth)) t.entity.children
    fun child member => ?_).bind fun found found' related => .ok ?_
  · refine (alike.element.2 child member).bind fun places places' related => .ok ?_
    rw [List.forall₂_map_left_iff, List.forall₂_map_right_iff]
    exact related.imp fun _ _ element => ⟨rfl, rfl, rfl, element⟩
  · exact List.rel_flatten related

/-- Levels of elements that read alike become the same records. -/
theorem buildLevel_compares (respects : b.Respects lax W K) {depth : Nat} (next : Nat)
    (hasBelow : Bool) (deeper : hasBelow = true → depth = next + 1) (restricted : Bool) (level : Nat)
    {tasks tasks' : List GroupTask} (alike : List.Forall₂ (b.TaskAlike rule depth) tasks tasks')
    (arena : GroupArena) :
    Action.Compares lax (BuildState.Related W K)
      (fun r r' => r.1 = r'.1 ∧ List.Forall₂ (b.TaskAlike rule next) r.2 r'.2)
      (b.buildLevel rule restricted hasBelow level tasks arena)
      (b.buildLevel rule restricted hasBelow level tasks' arena) := by
  induction alike generalizing arena with
  | nil => exact .pure ⟨rfl, .nil⟩
  | @cons t t' _ _ head _ ih =>
    unfold buildLevel
    refine Action.Compares.bind
      (buildRecord_compares respects head restricted level arena.size) ?_
    rintro r _ rfl
    have others {found found' : List GroupTask}
        (related : List.Forall₂ (b.TaskAlike rule next) found found') :=
      (ih (arena.push r)).bind (B := fun r r' => r.1 = r'.1
          ∧ List.Forall₂ (b.TaskAlike rule next) r.2 r'.2)
        (f := fun r => pure (r.1, found ++ r.2)) (g := fun r => pure (r.1, found' ++ r.2))
        fun _ _ same => .pure ⟨same.1, List.rel_append related same.2⟩
    cases hasBelow with
    | false => exact others .nil
    | true =>
      cases deeper rfl
      exact Action.Compares.bind (.lift (tasksBelow_agree head r.index)) fun _ _ => others

theorem buildLevels_compares (respects : b.Respects lax W K) (restricted : Bool)
    (remaining level : Nat) {tasks tasks' : List GroupTask}
    (alike : List.Forall₂ (b.TaskAlike rule remaining) tasks tasks') (arena : GroupArena) :
    Action.Compares lax (BuildState.Related W K) Eq
      (b.buildLevels rule restricted remaining level tasks arena)
      (b.buildLevels rule restricted remaining level tasks' arena) := by
  induction remaining generalizing level tasks tasks' arena with
  | zero =>
    unfold buildLevels
    refine Action.Compares.bind (buildLevel_compares respects 0 false nofun restricted level
      alike arena) ?_
    rintro ⟨arena, _⟩ ⟨_, _⟩ ⟨rfl, _⟩
    exact .pure rfl
  | succ remaining ih =>
    unfold buildLevels
    refine Action.Compares.bind (buildLevel_compares respects remaining true (fun _ => rfl) restricted
      level alike arena) ?_
    rintro ⟨arena, below⟩ ⟨_, below'⟩ ⟨rfl, related⟩
    cases related with
    | nil => exact .pure rfl
    | cons head rest => exact ih (level + 1) (.cons head rest) arena

/-- Elements that read alike become the same group, with the same gifts to the owning record. -/
theorem build_compares (respects : b.Respects lax W K) {e : GroupEntity} {c c' : Cursor}
    (alike : b.ReadAlike rule b.maxDepth e c c') (label : String) (restricted : Bool) :
    Action.Compares lax (BuildState.Related W K) Eq (b.build rule e c label restricted)
      (b.build rule e c' label restricted) := by
  have tasks : List.Forall₂ (b.TaskAlike rule b.maxDepth) [{ element := c, entity := e, label }]
      [{ element := c', entity := e, label }] := .cons ⟨rfl, rfl, rfl, alike⟩ .nil
  exact buildLevels_compares respects restricted b.maxDepth 0 tasks {}

end GroupBuilder

end MetadataIndex
