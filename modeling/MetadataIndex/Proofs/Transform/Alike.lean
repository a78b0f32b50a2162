import MetadataIndex.Transform.Basic
import MetadataIndex.Proofs.Group.Alike

/-!
# Transforming inputs that read alike

Two inputs read alike for a rule set when its expressions select related results from both. When
related results are added alike, both inputs give the same fields and the same free text.
-/

set_option autoImplicit false

namespace MetadataIndex

open MetadataIndex.Xml (Cursor)

variable {ω τ : Type} {lax : Prop} {W : ω → ω → Prop}
  {K : Option (AuthorityCache τ) → Option (AuthorityCache τ) → Prop}
  {G : GroupArena → GroupArena → Prop}

/-- What has been collected is equal; the grouped records and the outer worlds are related. -/
structure TransformState.Related (W : ω → ω → Prop)
    (K : Option (AuthorityCache τ) → Option (AuthorityCache τ) → Prop)
    (G : GroupArena → GroupArena → Prop) (s s' : TransformState ω τ) : Prop where
  collector : s.collector = s'.collector
  groups : G s.groups s'.groups
  outside : s.outside.Related W K s'.outside

/-- The fields and the free text are equal, and the grouped records are related. -/
structure TransformResult.Related (G : GroupArena → GroupArena → Prop)
    (r r' : TransformResult) : Prop where
  fields : r.fields = r'.fields
  defaultText : r.defaultText = r'.defaultText
  groups : G r.groups r'.groups

def RuleSet.allRules (s : RuleSet) : List FieldRule := s.fields.flatMap (·.2)

namespace TransformState

theorem change_compares (f : Collector → Checked Collector) :
    Action.Compares lax (Related W K G) (fun _ _ => True) (change (ω := ω) (τ := τ) f)
      (change f) := by
  unfold change
  refine Action.Compares.bind .get fun s s' states => ?_
  rw [states.collector]
  refine Action.Compares.bind_eq (.lift_self _) fun collector => ?_
  exact .modify fun _ _ states => ⟨rfl, states.groups, states.outside⟩

theorem onBuild_compares {α : Type} {A : α → α → Prop} {x y : Action (BuildState ω τ) α}
    (compared : Action.Compares lax (BuildState.Related W K) A x y) :
    Action.Compares lax (Related W K G) A (onBuild x) (onBuild y) :=
  compared.onPart (fun _ _ states => ⟨states.collector, states.outside⟩)
    fun _ _ _ _ states built => ⟨built.collector, states.groups, built.outside⟩

end TransformState

/-- Related grouped records hold the same records of a kind, and stay related when a group is
stored. -/
structure GroupArena.Relates (G : GroupArena → GroupArena → Prop) (P : GroupedRecord → Prop) :
    Prop where
  contains : ∀ {g g'} root, G g g' → P root → g.containsEqual root = g'.containsEqual root
  merged : ∀ {g g'} group, G g g' → G (g.merge group) (g'.merge group)

theorem TransformState.attach_related (merged : ∀ {g g'} group, G g g' →
      G (g.merge group) (g'.merge group)) (group : GroupArena)
    {s s' : TransformState ω τ} (states : s.Related W K G s') :
    (attach group s).Related W K G (attach group s') := by
  refine ⟨?_, merged group states.groups, states.outside⟩
  simp only [attach, states.collector]

namespace Transformer

variable {t : Transformer ω τ} {I : FieldRule → XPath.Item → XPath.Item → Prop}
  {input input' : TransformInput}

/-- Places that read alike become the same group, and both or neither of them store it. -/
theorem buildGroup_compares {P : GroupedRecord → Prop} (respects : t.builder.Respects lax W K)
    (relates : GroupArena.Relates G P) {r : FieldRule} {e : GroupEntity} {i i' : XPath.Item}
    (restricted : i.isRestricted = i'.isRestricted)
    (places : Option.Rel (t.builder.ReadAlike r t.builder.maxDepth e) i.place? i'.place?)
    (roots : ∀ c, i.place? = some c → Action.Ensures (fun _ => True)
      (fun group => ∀ root, group.get 0 = .ok root → P root)
      (t.builder.build r e c r.field i.isRestricted)) :
    Action.Compares lax (TransformState.Related W K G) Eq (t.buildGroup r e i)
      (t.buildGroup r e i') := by
  unfold buildGroup
  generalize i.place? = place, i'.place? = place' at places roots
  cases places with
  | none => exact .pure rfl
  | @some c c' alike =>
    rw [← restricted]
    refine Action.Compares.bind (TransformState.onBuild_compares
      ((GroupBuilder.build_compares respects alike r.field i.isRestricted).ensured (roots c rfl))) ?_
    rintro group _ ⟨rfl, holds⟩
    dsimp only
    cases found : group.get 0 with
    | error fault => exact .fault fault
    | ok root =>
      have mainValue : Action.Compares lax (TransformState.Related W K G) Eq
          (pure (root.mainValue.map fun value =>
            if i.isRestricted then FieldName.accessRestricted else value) :
            Action (TransformState ω τ) (Option String))
          (pure (root.mainValue.map fun value =>
            if i.isRestricted then FieldName.accessRestricted else value)) := .pure rfl
      refine Action.Compares.bind (A := fun a a' => root = a ∧ root = a') (.pure ⟨rfl, rfl⟩) ?_
      rintro _ _ ⟨rfl, rfl⟩
      refine Action.Compares.bind .get fun s s' states => ?_
      rw [relates.contains root states.groups (holds root found)]
      split
      · refine Action.Compares.bind (.modify fun _ _ => ?_) fun _ _ _ => mainValue
        exact TransformState.attach_related relates.merged group
      · exact mainValue

/-- The sources of a rule select related results from two elements. -/
def SelectsAlike (t : Transformer ω τ) (I : FieldRule → XPath.Item → XPath.Item → Prop)
    (r : FieldRule) (leading : Checked String) (c c' : Cursor) : Prop :=
  ∀ s ∈ r.sources, ∀ start, leading = .ok start →
    Checked.Agree (List.Forall₂ (I r))
      (t.builder.evaluator.evaluate (XPath.buildQuery s.xpath start r.isGrouped) c)
      (t.builder.evaluator.evaluate (XPath.buildQuery s.xpath start r.isGrouped) c')

/-- The rules that take values from elements select related results from two inputs. -/
structure ReadsAlike (t : Transformer ω τ) (I : FieldRule → XPath.Item → XPath.Item → Prop)
    (input input' : TransformInput) : Prop where
  default : input.default = input'.default
  leading : input.leading = input'.leading
  selected : ∀ r ∈ t.rules.allRules, r.constant = none →
    Checked.Agree (List.Forall₂ (t.SelectsAlike I r input.leading))
      (expandScope r input.element input.context) (expandScope r input'.element input'.context)

theorem readsAlike_refl (t : Transformer ω τ) (reflexive : ∀ r i, I r i i)
    (input : TransformInput) : t.ReadsAlike I input input := by
  refine ⟨rfl, rfl, fun r _ _ => .refl (fun elements => ?_) _⟩
  refine List.forall₂_same.mpr fun c _ s _ start _ => .refl (fun found => ?_) _
  exact List.forall₂_same.mpr fun i _ => reflexive r i

/-- Related results are added alike to the values of a rule. -/
def AddsAlike (t : Transformer ω τ) (lax : Prop) (W : ω → ω → Prop)
    (K : Option (AuthorityCache τ) → Option (AuthorityCache τ) → Prop)
    (G : GroupArena → GroupArena → Prop) (I : FieldRule → XPath.Item → XPath.Item → Prop) : Prop :=
  ∀ r ∈ t.rules.allRules, ∀ s ∈ r.sources, ∀ i i', I r i i' → ∀ values,
    Action.Compares lax (TransformState.Related W K G) Eq (t.addMatch r s values i)
      (t.addMatch r s values i')

theorem addSource_compares (adds : t.AddsAlike lax W K G I) {r : FieldRule}
    (member : r ∈ t.rules.allRules) (leading : input.leading = input'.leading) {s : XPathSource}
    (source : s ∈ r.sources) {elements elements' : List Cursor}
    (alike : List.Forall₂ (t.SelectsAlike I r input.leading) elements elements')
    (values : List String) :
    Action.Compares lax (TransformState.Related W K G) Eq (t.addSource r input elements values s)
      (t.addSource r input' elements' values s) := by
  unfold addSource
  split
  · exact .pure rfl
  rw [← leading]
  cases known : input.leading with
  | error fault => exact .fault fault
  | ok start =>
    refine Action.Compares.foldlM ?_ alike rfl
    rintro values _ c c' rfl selects
    refine Action.Compares.bind (.lift (selects s source start known)) fun found found' related => ?_
    refine Action.Compares.foldlM ?_ related rfl
    rintro values _ i i' rfl same
    exact adds r member s source i i' same values

theorem rawValues_compares (adds : t.AddsAlike lax W K G I) (alike : t.ReadsAlike I input input')
    {r : FieldRule} (member : r ∈ t.rules.allRules) (constant : r.constant = none) :
    Action.Compares lax (TransformState.Related W K G) Eq (t.rawValues r input)
      (t.rawValues r input') := by
  unfold rawValues
  refine Action.Compares.bind (.lift (alike.selected r member constant)) fun found found' related => ?_
  have each : List.Forall₂ (fun s s' => s = s' ∧ s ∈ r.sources) r.sources r.sources :=
    List.forall₂_same.mpr fun _ source => ⟨rfl, source⟩
  refine Action.Compares.foldlM ?_ each rfl
  rintro values _ s _ rfl ⟨rfl, source⟩
  exact addSource_compares adds member alike.leading source related values

theorem applyRule_compares (adds : t.AddsAlike lax W K G I) (alike : t.ReadsAlike I input input')
    {r : FieldRule} (member : r ∈ t.rules.allRules) :
    Action.Compares lax (TransformState.Related W K G) (fun _ _ => True) (t.applyRule input r)
      (t.applyRule input' r) := by
  unfold applyRule
  cases constant : r.constant with
  | some text => exact TransformState.change_compares _
  | none =>
    refine Action.Compares.bind_eq (rawValues_compares adds alike member constant) fun values => ?_
    refine Action.Compares.bind (TransformState.change_compares _) fun _ _ _ => ?_
    exact TransformState.change_compares _

/-- A transformation on the state of what has been written. -/
def collect (t : Transformer ω τ) (input : TransformInput) :
    Action (TransformState ω τ) TransformResult := do
  t.applyRules input
  TransformState.change wrapUp
  let s ← get
  return ⟨s.collector.toList, s.collector.default.buffer, s.groups⟩

theorem transform_eq_collect (t : Transformer ω τ) (input : TransformInput) :
    t.transform input = (t.collect input).onPart
      (fun outside => { collector := .ofDefault input.default, outside })
      (fun _ s => s.outside) := by
  funext outside
  unfold Action.onPart
  cases ran : t.collect input ⟨.ofDefault input.default, {}, outside⟩ with
  | ok result s =>
    unfold transform
    dsimp only
    rw [collect] at ran
    rw [ran]
  | error fault s =>
    unfold transform
    dsimp only
    rw [collect] at ran
    rw [ran]

theorem collect_compares (adds : t.AddsAlike lax W K G I) (alike : t.ReadsAlike I input input') :
    Action.Compares lax (TransformState.Related W K G) (TransformResult.Related G)
      (t.collect input) (t.collect input') := by
  refine Action.Compares.bind (A := fun _ _ => True) ?_ fun _ _ _ => ?_
  · exact Action.Compares.forM _ fun r member => applyRule_compares adds alike member
  refine Action.Compares.bind (TransformState.change_compares _) fun _ _ _ => ?_
  refine Action.Compares.bind .get fun s s' states => .pure ?_
  exact ⟨by rw [states.collector], by rw [states.collector], states.groups⟩

/-- Inputs that read alike give the same fields and the same free text, and related groups. -/
theorem transform_compares (adds : t.AddsAlike lax W K G I) (alike : t.ReadsAlike I input input')
    (start : G {} {}) :
    Action.Compares lax (AuthorityState.Related W K) (TransformResult.Related G)
      (t.transform input) (t.transform input') := by
  rw [transform_eq_collect, transform_eq_collect]
  refine (collect_compares adds alike).onPart (fun o o' outside => ?_)
    fun _ _ _ _ _ states => states.outside
  exact ⟨by rw [alike.default], start, outside⟩

theorem addsAlike_self (respects : t.builder.Respects lax W K) :
    t.AddsAlike lax W K Eq fun _ i i' => i = i' := by
  rintro r - s - i _ rfl values
  unfold addMatch
  cases r.group with
  | none =>
    refine Action.Compares.bind_eq (.lift_self _) fun value => ?_
    cases value with
    | none => exact .pure rfl
    | some value => exact .pure rfl
  | some e =>
    have relates : GroupArena.Relates Eq fun _ => True :=
      ⟨fun root same _ => by rw [same], fun group same => by rw [same]⟩
    have places : Option.Rel (t.builder.ReadAlike r t.builder.maxDepth e) i.place? i.place? := by
      cases i.place? with
      | none => exact .none
      | some c => exact .some (GroupBuilder.readAlike_refl _ _ _ _ _)
    refine Action.Compares.bind (buildGroup_compares respects relates rfl places fun c _ => ?_) ?_
    · exact Action.Ensures.trivial _ |>.imp fun _ _ _ _ => trivial
    · rintro main _ rfl
      exact .pure rfl

/-- One input gives equal results when the outer world answers alike. -/
theorem transform_compares_self (respects : t.builder.Respects lax W K) (input : TransformInput) :
    Action.Compares lax (AuthorityState.Related W K) Eq (t.transform input)
      (t.transform input) := by
  refine (transform_compares (addsAlike_self respects) (readsAlike_refl t (fun _ _ => rfl) input)
    rfl).imp fun r r' related => ?_
  cases r
  cases r'
  obtain ⟨fields, defaultText, groups⟩ := related
  cases fields
  cases defaultText
  cases groups
  rfl

end Transformer

end MetadataIndex
