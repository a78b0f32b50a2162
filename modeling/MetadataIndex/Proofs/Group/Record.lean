import MetadataIndex.Proofs.Group.Alike
import MetadataIndex.Proofs.Group.Nesting

/-!
# What a record depends on

A record depends on its element, its entity, its rule and what the outer world answers. It depends
neither on what the owning record holds when it is built, nor on where it will stand.
-/

set_option autoImplicit false

namespace MetadataIndex

variable {ω τ : Type} {lax : Prop} {W : ω → ω → Prop}
  {K : Option (AuthorityCache τ) → Option (AuthorityCache τ) → Prop}

/-- The outer worlds are related, whatever the owning records hold. -/
def BuildState.Beside (W : ω → ω → Prop)
    (K : Option (AuthorityCache τ) → Option (AuthorityCache τ) → Prop) (s s' : BuildState ω τ) : Prop :=
  s.outside.Related W K s'.outside

namespace AuthorityFields

theorem ofEntries_compares (style : AuthorityStyle) (entries : List (String × String)) :
    Action.Compares lax (fun t t' : AuthorityTexts => t.terms = t'.terms) Eq (ofEntries style entries)
      (ofEntries style entries) := by
  unfold ofEntries
  split
  · exact .pure rfl
  have prepared : Action.Compares lax (fun t t' : AuthorityTexts => t.terms = t'.terms)
      (List.Forall₂ Eq) (prepare style entries) (prepare style entries) := by
    refine Action.Compares.mapM _ fun entry _ => ?_
    refine Action.Compares.bind_eq (.lift_self _) fun value => ?_
    refine Action.Compares.bind (.modify fun t t' same => ?_) fun _ _ _ => .pure rfl
    simp only [AuthorityTexts.addEntry, same]
  refine Action.Compares.bind prepared fun fields fields' same => ?_
  rw [List.forall₂_eq_eq_eq] at same
  rw [same]
  exact .pure rfl

end AuthorityFields

namespace Finish

variable {rule : FieldRule}

theorem finishFields_compares (mainValue : Option String) (group : Collector) (fields : List Field)
    (finished sorts : Collector) :
    Action.Compares lax (fun _ _ => True) Eq (finishFields rule mainValue group fields finished sorts)
      (finishFields rule mainValue group fields finished sorts) := by
  induction fields generalizing finished sorts with
  | nil => exact .pure rfl
  | cons f fields ih =>
    unfold finishFields
    refine Action.Compares.bind (.modify fun _ _ _ => trivial) fun _ _ _ => ?_
    refine Action.Compares.bind (.modify fun _ _ _ => trivial) fun _ _ _ => ?_
    refine Action.Compares.bind_eq (.lift_self _) fun sorts => ?_
    exact ih _ sorts

theorem fieldsOf_compares (label : String) (d : Draft) (answer : AuthorityAnswer) (restricted : Bool) :
    Action.Compares lax (fun _ _ => True) Eq (fieldsOf rule label d answer restricted)
      (fieldsOf rule label d answer restricted) := by
  unfold fieldsOf
  dsimp only
  refine Action.Compares.bind_eq (finishFields_compares _ _ _ _ _) ?_
  rintro ⟨finished, sorts⟩
  exact .pure rfl

end Finish

namespace GroupBuilder

variable {b : GroupBuilder ω τ} {rule : FieldRule}

theorem onWorld_compares_beside {α : Type} {A : α → α → Prop} {x y : Action ω α}
    (compared : Action.Compares lax W A x y) :
    Action.Compares lax (BuildState.Beside W K) A (BuildState.onWorld x) (BuildState.onWorld y) :=
  (AuthorityState.onWorld_compares compared).onPart (fun _ _ states => states)
    fun _ _ _ _ _ outside => outside

theorem onCollector_compares_beside {α : Type} {x y : Action Collector α} {A : α → α → Prop}
    (compared : Action.Compares lax (fun _ _ => True) A x y) :
    Action.Compares lax (BuildState.Beside (ω := ω) (τ := τ) W K) A (BuildState.onCollector x)
      (BuildState.onCollector y) :=
  compared.onPart (fun _ _ _ => trivial) fun _ _ _ _ states _ => states

theorem resolve_compares_beside {service : AuthorityService ω τ} (uri : String)
    (records : Action.Compares lax (AuthorityState.Related W K)
      (fun r r' => r.map (·.entries) = r'.map (·.entries)) (service.recordOf uri)
      (service.recordOf uri)) :
    Action.Compares lax (BuildState.Beside W K) Eq (resolve service rule uri)
      (resolve service rule uri) := by
  have compared (style : AuthorityStyle) : Action.Compares lax
      (fun s s' : AuthorityState ω τ × AuthorityTexts =>
        s.1.Related W K s'.1 ∧ s.2.terms = s'.2.terms) Eq
      (service.resolve style uri) (service.resolve style uri) := by
    unfold AuthorityService.resolve
    refine Action.Compares.bind (records.onPart (fun _ _ states => states.1)
      fun _ _ _ _ states outside => ⟨outside, states.2⟩) ?_
    intro r r' same
    cases r with
    | none =>
      cases r' with
      | none => exact .pure rfl
      | some r' => cases same
    | some r =>
      cases r' with
      | none => cases same
      | some r' =>
        have entries : r.entries = r'.entries := Option.some.inj same
        dsimp only
        rw [entries]
        exact (AuthorityFields.ofEntries_compares style _).onPart (fun _ _ states => states.2)
          fun _ _ _ _ states texts => ⟨states.1, texts⟩
  intro s s' outside
  have ends := compared
    { label := some rule.field, replaceRules := rule.pipeline.replaceRules
      defaults := rule.authorityDefaults }
    (s.outside, ⟨some s.collector.default, some {}⟩)
    (s'.outside, ⟨some s'.collector.default, some {}⟩) ⟨outside, rfl⟩
  unfold resolve
  dsimp only
  generalize service.resolve _ uri (s.outside, _) = r, service.resolve _ uri (s'.outside, _) = r'
    at ends
  cases ends with
  | ok same states =>
    cases same
    obtain ⟨outside, terms⟩ := states
    exact .ok (by rw [terms]) outside
  | error states => exact .error states.1
  | leftFault allowed => exact .leftFault allowed
  | rightFault allowed => exact .rightFault allowed

theorem answerOf_compares_beside (respects : b.Respects lax W K) (d : Draft) :
    Action.Compares lax (BuildState.Beside W K) Eq (b.answerOf rule d) (b.answerOf rule d) := by
  unfold answerOf
  split
  case h_1 service uri present _ =>
    exact resolve_compares_beside uri (respects.records service present uri)
  case h_2 => exact .pure rfl

/-- Records of one element differ at most in where they stand, if both or neither of them are
restricted. -/
theorem buildRecord_compares_beside (respects : b.Respects lax W K) (t t' : GroupTask)
    (element : t.element = t'.element) (entity : t.entity = t'.entity) (label : t.label = t'.label)
    {restricted restricted' : Bool}
    (same : (restricted && t.parent.isNone) = (restricted' && t'.parent.isNone)) (depth : Nat)
    (index index' : Int) :
    Action.Compares lax (BuildState.Beside W K) (fun r r' => r.unplaced = r'.unplaced)
      (b.buildRecord rule restricted depth t index) (b.buildRecord rule restricted' depth t' index') := by
  have values : b.SameValues rule t.entity t.element t'.element := by
    rw [element]
    exact ⟨fun _ => rfl, rfl⟩
  unfold buildRecord
  rw [← entity, ← label, same]
  refine Action.Compares.bind_eq (onWorld_compares_beside
    (draft_compares respects label entity values)) fun d => ?_
  refine Action.Compares.bind_eq (answerOf_compares_beside respects d) fun answer => ?_
  refine Action.Compares.bind (onCollector_compares_beside (.modify fun _ _ _ => trivial))
    fun _ _ _ => ?_
  refine Action.Compares.bind_eq (onCollector_compares_beside
    (Finish.fieldsOf_compares _ _ _ _)) fun fields => ?_
  exact .pure rfl

end GroupBuilder

end MetadataIndex
