import MetadataIndex.Proofs.Date.Century
import MetadataIndex.Proofs.Date.Gaps
import MetadataIndex.Proofs.Field.Facet
import MetadataIndex.Proofs.Group.Gifts
import MetadataIndex.Proofs.Transform.Alike
import MetadataIndex.Proofs.Transform.Mark
import MetadataIndex.Proofs.Transform.Steps

/-!
# Writes to the owning record

All that a rule set writes to the owning record is free text, values of rules and their copies, years
and centuries, and fields with other names. What each of these writes keeps is kept by every rule, and by
a whole transformation up to the end.
-/

set_option autoImplicit false

namespace MetadataIndex

open FieldName (IsFacet)
open MetadataIndex.Xml (Cursor)

variable {ω τ : Type} {I : Collector → Prop} {G : GroupArena → Prop}

/-- All that a rule may write to the owning record keeps a property of it. -/
structure FieldRule.WritesKeep (r : FieldRule) (I : Collector → Prop) : Prop where
  text : ∀ c value, I c → I (c.addDefault value)
  own : ∀ c value, I c → I (c.put r.field value r.allowDuplicates)
  copy : ∀ c value, I c → I (c.put (FieldName.untokenized r.field) value r.allowDuplicates)
  other : ∀ c name value, ¬IsFacet name → name ≠ FieldName.hasWktCoords → I c → I (c.put name value)
  dates : ∀ c c' value, I c → r.writeDates value c = .ok c' → I c'
  years : ∀ c c', I c → r.interpolate c = .ok c' → I c'

namespace FieldRule

variable {r : FieldRule} {c c' : Collector}

theorem writeDates_ok {value : String} (written : r.writeDates value c = .ok c') :
    ∃ fields centuries, dateFields c.centuries value r.yearDigits r.yearField = .ok (fields, centuries)
      ∧ fields.foldlM r.writeDateField { c with centuries } = .ok c' := by
  obtain ⟨⟨fields, centuries⟩, made, written⟩ := Checked.bind_ok written
  exact ⟨fields, centuries, made, written⟩

/-- Gaps are filled in the field of the years, and then in the further field if a text names it. -/
theorem interpolate_ok (filled : r.interpolate c = .ok c') :
    c' = c ∨ ∃ years, completeYears c.toList = .ok years
      ∧ (c' = c.extend years ∨ ∃ name more, r.yearField = some (.text name)
        ∧ completeYears (c.extend years).toList name = .ok more
        ∧ c' = (c.extend years).extend more) := by
  unfold interpolate at filled
  split at filled
  · cases filled
    exact .inl rfl
  · obtain ⟨years, complete, filled⟩ := Checked.bind_ok filled
    refine .inr ⟨years, complete, ?_⟩
    split at filled
    case h_1 name named =>
      obtain ⟨more, again, filled⟩ := Checked.bind_ok filled
      cases filled
      exact .inr ⟨name, more, named, again, rfl⟩
    case h_2 =>
      cases filled
      exact .inl rfl

/-- What writing one value keeps is kept by writing any number of them. -/
theorem writeAll_induction {raw : List String}
    (step : ∀ {c c' value now}, I c → r.write value c = .ok (c', now) → I c') (start : I c)
    (written : r.writeAll raw c = .ok c') : I c' := by
  induction raw generalizing c with
  | nil =>
    cases written
    exact start
  | cons first raw ih =>
    rw [FieldRule.writeAll] at written
    obtain ⟨⟨middle, now⟩, head, written⟩ := Checked.bind_ok written
    have between : I middle := step start head
    dsimp only at written
    split at written
    · cases written
      exact between
    · exact ih between written

/-- A rule writes a name itself: it is the name of its values or of its years. -/
def Names (r : FieldRule) (name : String) : Prop :=
  name = r.field ∨ r.yearField = some (.text name)

/-- What noting more centuries keeps, and writing any field, is kept by every rule. The field that says
whether there are coordinates need only be considered where the rule names it. -/
theorem WritesKeep.of_put (text : ∀ c value, I c → I (c.addDefault value))
    (put : ∀ c name value repeats, (name = FieldName.hasWktCoords → r.Names name)
      → (repeats = true → r.allowDuplicates = true
        ∧ (name = r.field ∨ name = FieldName.untokenized r.field))
      → I c → I (c.put name value repeats))
    (note : ∀ c centuries, c.centuries ⊆ centuries → I c → I { c with centuries }) :
    r.WritesKeep I where
  text := text
  own c value kept := put c _ value _ (fun _ => .inl rfl) (fun asked => ⟨asked, .inl rfl⟩) kept
  copy c value kept := put c _ value _
    (fun same => absurd same (FieldName.untokenized_ne_hasWktCoords _))
    (fun asked => ⟨asked, .inr rfl⟩) kept
  other c name value _ apart kept := put c name value _ (fun same => absurd same apart) nofun kept
  dates c c' value kept written := by
    obtain ⟨fields, centuries, made, written⟩ := writeDates_ok written
    obtain ⟨custom, dates, named, -, dated⟩ := dateFields_ok made
    have start := note c centuries dated.keeps kept
    have names : ∀ f ∈ fields, f.name = FieldName.hasWktCoords → r.Names f.name := by
      intro f member same
      rcases dated.named f member with apart | further
      · exact absurd same apart
      · exact .inr (named _ further)
    refine Checked.foldlM_induction start (fun f member c c' kept written => ?_) written
    have own : I (c.put f.name f.value) := put _ _ _ _ (names f member) nofun kept
    rcases writeSort_ok written with rfl | ⟨key, rfl⟩
    · exact own
    · exact put _ _ _ _ (fun same => absurd same (sortNumberField_ne_hasWktCoords _)) nofun own
  years c c' kept filled := by
    have extend : ∀ c name fields, (name = FieldName.hasWktCoords → r.Names name)
        → completeYears c.toList name = .ok fields → I c → I (c.extend fields) := by
      intro c name fields names complete kept
      refine Collector.extend_induction kept fun c f member kept => ?_
      rw [name_of_completeIntegers complete f member]
      exact put c name f.value _ names nofun kept
    have year : FieldName.year ≠ FieldName.hasWktCoords := by decide
    rcases interpolate_ok filled with rfl | ⟨years, complete, rfl | ⟨name, more, named, again, rfl⟩⟩
    · exact kept
    · exact extend c _ _ (fun same => absurd same year) complete kept
    · exact extend _ _ _ (fun _ => .inr named) again
        (extend c _ _ (fun same => absurd same year) complete kept)

theorem writesKeep_extends (r : FieldRule) (c : Collector) : r.WritesKeep (Collector.Extends c) := by
  apply WritesKeep.of_put
  · intro c' value before
    exact before.addDefault value
  · intro c' name value repeats _ _ before
    exact before.put name value repeats
  · intro c' centuries more before
    exact before.note more

namespace WritesKeep

variable (keeps : r.WritesKeep I)
include keeps

theorem giftsKeep (b : GroupBuilder ω τ) : b.GiftsKeep r I where
  text _ := keeps.text
  coordinates _ _ c value := keeps.other c _ value FieldName.not_isFacet_wktCoords (by decide)
  names _ _ c label value := keeps.other c _ value (FieldName.not_isFacet_untokenized label)
    (FieldName.untokenized_ne_hasWktCoords label)
  defaults _ _ := keeps.text

theorem step {value : String} {step : WriteStep} (taken : step.IsOf r value) (kept : I c)
    (ran : step.run r c = .ok c') : I c' := by
  cases taken with
  | place wkt =>
    cases ran
    exact keeps.other _ _ _ FieldName.not_isFacet_wktCoords (by decide) kept
  | text =>
    cases ran
    exact keeps.text _ _ kept
  | dates => exact keeps.dates _ _ _ kept ran
  | own =>
    cases ran
    exact keeps.own _ _ kept
  | sort =>
    rcases writeSort_ok ran with rfl | ⟨key, rfl⟩
    · exact kept
    · exact keeps.other _ _ _ (not_isFacet_sortFieldName _) (sortFieldName_ne_hasWktCoords _) kept
  | copy =>
    cases ran
    exact keeps.copy _ _ kept

theorem steps {accepted : String} {steps : List WriteStep} (taken : steps ⊆ r.writeSteps accepted)
    (kept : I c) (ran : steps.foldlM (WriteStep.run r) c = .ok c') : I c' :=
  Checked.foldlM_induction kept
    (fun _ member _ _ kept ran => keeps.step (isOf_of_mem (taken member)) kept ran) ran

theorem writeAccepted {accepted : String} (kept : I c)
    (written : r.writeAccepted accepted c = .ok c') : I c' := by
  rw [writeAccepted_eq] at written
  exact keeps.steps (List.Subset.refl _) kept written

theorem write {raw : String} {now : Bool} (kept : I c) (written : r.write raw c = .ok (c', now)) :
    I c' := by
  obtain ⟨value, -, written⟩ := Checked.bind_ok written
  cases value with
  | none =>
    cases written
    exact kept
  | some value =>
    obtain ⟨next, single, written⟩ := Checked.bind_ok written
    cases written
    exact keeps.writeAccepted kept single

theorem writeConstant {constant : String} (kept : I c)
    (written : r.writeConstant constant c = .ok c') : I c' := by
  have closes : ∀ value, I (if r.addToDefault
      then (c.put r.field value r.allowDuplicates).addDefault constant
      else c.put r.field value r.allowDuplicates) := by
    intro value
    split
    · exact keeps.text _ _ (keeps.own _ _ kept)
    · exact keeps.own _ _ kept
  unfold FieldRule.writeConstant at written
  dsimp only at written
  split at written
  · obtain ⟨value, -, written⟩ := Checked.bind_ok written
    cases written
    exact closes value
  · cases written
    exact closes _

theorem promote {record : GroupedRecord} (named : AuthorityFields.NoFacet record.authorityFields)
    (kept : I c) : I (record.promote c) := by
  refine GroupedRecord.promote_induction kept fun c f member apart kept => ?_
  exact keeps.other _ _ _ (named f member) apart kept

end WritesKeep

end FieldRule

namespace TransformState

/-- The owning record has one property and the groups another, which storing more groups keeps. -/
structure Holds (I : Collector → Prop) (G : GroupArena → Prop) (s : TransformState ω τ) : Prop where
  collector : I s.collector
  groups : G s.groups

theorem change_ok {f : Collector → Checked Collector} {s s' : TransformState ω τ}
    (changed : change f s = .ok () s') :
    ∃ c, f s.collector = .ok c ∧ s' = { s with collector := c } := by
  unfold change at changed
  rw [Action.bind_of_ok (x := get) rfl] at changed
  obtain ⟨c, middle, lifted, changed⟩ := Action.bind_ok changed
  obtain ⟨made, rfl⟩ := Action.lift_ok lifted
  cases changed
  exact ⟨c, made, rfl⟩

theorem change_ensures {f : Collector → Checked Collector}
    (kept : ∀ c c', I c → f c = .ok c' → I c') :
    Action.Ensures (Holds I G) (fun _ => True) (change (ω := ω) (τ := τ) f) where
  completed {s a s'} holds ran := by
    obtain ⟨c, made, rfl⟩ := change_ok ran
    exact ⟨trivial, kept _ _ holds.collector made, holds.groups⟩
  failed {s fault s'} holds ran := by
    unfold change at ran
    rw [Action.bind_of_ok (x := get) rfl] at ran
    cases changed : f s.collector with
    | ok c =>
      rw [changed] at ran
      cases ran
    | error raised =>
      rw [changed] at ran
      cases ran
      exact holds

/-- Attaching a group copies the authority fields of its records one by one. -/
theorem attach_holds (merged : ∀ g group, G g → G (g.merge group)) {group : GroupArena}
    (copied : ∀ c, ∀ record ∈ group.toList, I c → I (record.promote c))
    {s : TransformState ω τ} (holds : s.Holds I G) : (attach group s).Holds I G := by
  refine ⟨?_, merged _ _ holds.groups⟩
  have kept := holds.collector
  unfold attach
  dsimp only
  generalize s.collector = c at kept
  generalize group.toList = records at copied
  induction records generalizing c with
  | nil => exact kept
  | cons record records ih =>
    exact ih _ (copied c record (.head _) kept) fun c other later => copied c other (.tail _ later)

end TransformState

namespace Transformer

open TransformState (Holds)

variable {t : Transformer ω τ} {input : TransformInput} {r : FieldRule}

theorem buildGroup_ensures_of {Q : GroupArena → Prop} {e : GroupEntity} {i : XPath.Item}
    (built : ∀ element, Action.Ensures (fun s => I s.collector) Q
      (t.builder.build r e element r.field i.isRestricted))
    (merged : ∀ g group, G g → G (g.merge group))
    (copied : ∀ group, Q group → ∀ c, ∀ record ∈ group.toList, I c → I (record.promote c)) :
    Action.Ensures (Holds I G) (fun _ => True) (t.buildGroup r e i) := by
  unfold buildGroup
  cases i.place? with
  | none => exact .pure trivial
  | some element =>
    refine Action.Ensures.bind (Q := Q) ?_ fun group given => ?_
    · exact (built element).onPart (fun _ holds => holds.collector) fun _ _ holds kept =>
        ⟨kept, holds.groups⟩
    refine (Action.Ensures.lift (Q := fun _ => True) fun _ _ => trivial).bind fun root _ => ?_
    refine Action.Ensures.get.bind fun state _ => ?_
    dsimp only
    generalize root.mainValue.map _ = main
    split
    · have stores : Action.Ensures (Holds I G) (fun _ => True)
          (modify (TransformState.attach (ω := ω) (τ := τ) group)) :=
        .modify fun _ => TransformState.attach_holds merged (copied group given)
      exact stores.bind fun _ _ => .pure trivial
    · exact .pure trivial

theorem buildGroup_ensures (keeps : r.WritesKeep I) (merged : ∀ g group, G g → G (g.merge group))
    (e : GroupEntity) (i : XPath.Item) :
    Action.Ensures (Holds I G) (fun _ => True) (t.buildGroup r e i) := by
  refine buildGroup_ensures_of (Q := fun group => ∀ record ∈ group.toList,
    AuthorityFields.NoFacet record.authorityFields) (fun element => ?_) merged ?_
  · refine (GroupBuilder.build_ensures (keeps.giftsKeep t.builder).keeps (T := fun _ => True)
      (e := e) (fun _ _ _ _ => trivial) trivial element r.field i.isRestricted).imp ?_
    rintro group ⟨root, deeper, stored, builds, below⟩
    rw [stored]
    exact List.forall_mem_cons.mpr ⟨builds.noFacet, fun record member =>
      have ⟨_, _, builds⟩ := below record member
      builds.noFacet⟩
  · intro group named c record member kept
    exact keeps.promote (named record member) kept

/-- Selecting the raw values of a rule changes what building its groups changes. -/
theorem rawValues_ensures {P : TransformState ω τ → Prop}
    (builds : ∀ e i, Action.Ensures P (fun _ => True) (t.buildGroup r e i)) :
    Action.Ensures P (fun _ => True) (t.rawValues r input) := by
  have lifted : ∀ {α : Type} (c : Checked α),
      Action.Ensures P (fun _ => True) (liftM c : Action (TransformState ω τ) α) :=
    fun _ => .lift fun _ _ => trivial
  refine (lifted _).bind fun elements _ => .foldlM _ (fun values s _ => ?_) _
  unfold addSource
  split
  · exact .pure trivial
  refine (lifted _).bind fun start _ => .foldlM _ (fun values element _ => ?_) _
  refine (lifted _).bind fun found _ => .foldlM _ (fun values i _ => ?_) _
  unfold addMatch
  cases r.group with
  | some e =>
    refine (builds e i).bind fun main _ => ?_
    exact .pure trivial
  | none =>
    refine (lifted _).bind fun value _ => ?_
    cases value with
    | none => exact .pure trivial
    | some value => exact .pure trivial

theorem applyRule_ensures_of (builds : ∀ e i, Action.Ensures (Holds I G) (fun _ => True)
      (t.buildGroup r e i))
    (constant : ∀ {c c' text}, I c → r.writeConstant text c = .ok c' → I c')
    (value : ∀ {c c' raw now}, I c → r.write raw c = .ok (c', now) → I c')
    (years : ∀ {c c'}, I c → r.interpolate c = .ok c' → I c') :
    Action.Ensures (Holds I G) (fun _ => True) (t.applyRule input r) := by
  unfold applyRule
  cases r.constant with
  | some text =>
    exact TransformState.change_ensures fun _ _ kept written => constant kept written
  | none =>
    refine (rawValues_ensures builds).bind fun values _ => ?_
    refine Action.Ensures.bind (Q := fun _ => True) ?_ fun _ _ => ?_
    · exact TransformState.change_ensures fun _ _ kept written =>
        FieldRule.writeAll_induction value kept written
    · exact TransformState.change_ensures fun _ _ kept filled => years kept filled

theorem applyRule_ensures (keeps : r.WritesKeep I) (merged : ∀ g group, G g → G (g.merge group)) :
    Action.Ensures (Holds I G) (fun _ => True) (t.applyRule input r) :=
  applyRule_ensures_of (fun e i => buildGroup_ensures keeps merged e i)
    (fun kept written => keeps.writeConstant kept written)
    (fun kept written => keeps.write kept written) (fun kept filled => keeps.years _ _ kept filled)

theorem applyRules_ensures (keeps : ∀ r ∈ t.rules.allRules, r.WritesKeep I)
    (merged : ∀ g group, G g → G (g.merge group)) :
    Action.Ensures (Holds I G) (fun _ => True) (t.applyRules input) :=
  .forM _ fun r member => applyRule_ensures (keeps r member) merged

/-- At the end the missing centuries are written, and it is said whether there are coordinates. -/
theorem wrapUp_ok {c c' : Collector} (wrapped : wrapUp c = .ok c') :
    ∃ centuries, completeCenturies c.toList = .ok centuries
      ∧ (c' = c.extend centuries
        ∨ ∃ text, c' = (c.extend centuries).put FieldName.hasWktCoords text) := by
  obtain ⟨centuries, complete, wrapped⟩ := Checked.bind_ok wrapped
  refine ⟨centuries, complete, ?_⟩
  cases wrapped
  split
  · exact .inl rfl
  · exact .inr ⟨_, rfl⟩

theorem transform_ok {o o' : AuthorityState ω τ} {result : TransformResult}
    (ran : t.transform input o = .ok result o') :
    ∃ s c, t.applyRules input ⟨.ofDefault input.default, {}, o⟩ = .ok () s
      ∧ wrapUp s.collector = .ok c ∧ result = ⟨c.toList, c.default.buffer, s.groups⟩ := by
  rw [transform_eq_collect] at ran
  obtain ⟨final, ran, -⟩ := Action.onPart_ok ran
  obtain ⟨_, s, rules, ran⟩ := Action.bind_ok ran
  obtain ⟨_, wrapped, changed, ran⟩ := Action.bind_ok ran
  obtain ⟨c, complete, rfl⟩ := TransformState.change_ok changed
  cases ran
  exact ⟨s, c, rules, complete, rfl⟩

/-- A completed transformation wraps up a record with what all writes of its rules keep. -/
theorem transform_keeps (keeps : ∀ r ∈ t.rules.allRules, r.WritesKeep I)
    (start : I (.ofDefault input.default)) {o o' : AuthorityState ω τ} {result : TransformResult}
    (ran : t.transform input o = .ok result o') :
    ∃ c c', I c ∧ wrapUp c = .ok c' ∧ result.fields = c'.toList := by
  obtain ⟨s, c', rules, wrapped, rfl⟩ := transform_ok ran
  have kept := ((applyRules_ensures (G := fun _ => True) keeps fun _ _ _ => trivial).completed
    ⟨start, trivial⟩ rules).2
  exact ⟨s.collector, c', kept.collector, wrapped, rfl⟩

end Transformer

end MetadataIndex
