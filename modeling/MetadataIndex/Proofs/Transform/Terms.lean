import MetadataIndex.Proofs.Field.Sorted
import MetadataIndex.Proofs.Transform.Extension
import MetadataIndex.Proofs.Transform.MainValue
import MetadataIndex.Proofs.Transform.Matches

/-!
# Terms of the free text

Each value that a rule writes is put under its name part by part, and into the free text as one term. What
has been written stays, so a result has the fields and the terms of all writes on the way. A value that is
not split is a term of the free text; of one that is split only the whole is a term, and not its parts.
-/

set_option autoImplicit false

namespace MetadataIndex

open Collector (givenParts splitMark)

variable {ω τ : Type}

/-- A value that a rule writes, and the owning record before and after it. -/
structure WrittenValue where
  rule : FieldRule
  value : String
  before : Collector
  after : Collector

namespace FieldRule

variable {r : FieldRule} {c c' : Collector} {raw : List String}

/-- The values that are written while raw values are written in order. -/
def written (r : FieldRule) : List String → Collector → List WrittenValue
  | [], _ => []
  | raw :: more, c =>
    match r.accepted raw with
    | .ok (some value) =>
      match r.writeAccepted value c with
      | .ok c' =>
        ⟨r, r.writtenValue value, c, c'⟩ :: if r.stopsAfterFirst then [] else r.written more c'
      | .error _ => []
    | .ok none => r.written more c
    | .error _ => []

/-- The values lead from one record to another: each is written to the record that the one before it
leaves. -/
inductive Leads (r : FieldRule) : Collector → List WrittenValue → Collector → Prop where
  | nil {c : Collector} : Leads r c [] c
  | cons {c middle c' : Collector} {accepted : String} {more : List WrittenValue}
      (write : r.writeAccepted accepted c = .ok middle) (rest : Leads r middle more c') :
      Leads r c (⟨r, r.writtenValue accepted, c, middle⟩ :: more) c'

/-- Writing raw values takes the record through all writes of values. -/
theorem leads_of_writeAll (ran : r.writeAll raw c = .ok c') : r.Leads c (r.written raw c) c' := by
  induction raw generalizing c with
  | nil =>
    cases ran
    exact .nil
  | cons first more ih =>
    rw [writeAll, write] at ran
    obtain ⟨⟨middle, now⟩, head, ran⟩ := Checked.bind_ok ran
    obtain ⟨value, accepted, head⟩ := Checked.bind_ok head
    rw [FieldRule.written, accepted]
    cases value with
    | none =>
      cases head
      exact ih ran
    | some value =>
      obtain ⟨next, write, head⟩ := Checked.bind_ok head
      cases head
      dsimp only at ran ⊢
      rw [write]
      apply Leads.cons write
      cases stops : r.stopsAfterFirst with
      | true =>
        rw [stops] at ran
        cases ran
        exact .nil
      | false =>
        rw [stops] at ran
        exact ih ran

section Default

theorem default_writeDates {value : String} (ran : r.writeDates value c = .ok c') :
    c'.default = c.default := by
  obtain ⟨fields, centuries, -, ran⟩ := writeDates_ok ran
  refine Checked.foldlM_induction (I := fun next => next.default = c.default) rfl ?_ ran
  intro f _ before after same ran
  rcases writeSort_ok ran with rfl | ⟨key, rfl⟩
  · simpa using same
  · simpa using same

theorem default_step {step : WriteStep} (silent : ∀ value, step ≠ .addDefault value)
    (ran : step.run r c = .ok c') : c'.default = c.default := by
  cases step with
  | put name value repeats =>
    cases ran
    exact Collector.default_put c name value
  | addDefault value => exact absurd rfl (silent value)
  | dates value => exact default_writeDates ran
  | sort mark f =>
    rcases writeSort_ok ran with rfl | ⟨key, rfl⟩
    · rfl
    · exact Collector.default_put c _ key

theorem default_steps {steps : List WriteStep}
    (silent : ∀ step ∈ steps, ∀ value, step ≠ .addDefault value)
    (ran : steps.foldlM (WriteStep.run r) c = .ok c') : c'.default = c.default := by
  refine Checked.foldlM_induction (I := fun next => next.default = c.default) rfl ?_ ran
  intro step member before after same ran
  exact (default_step (silent step member) ran).trans same

/-- Writing a value adds one term to the free text, that of the whole value, or none. -/
theorem default_writeAccepted {accepted : String} (ran : r.writeAccepted accepted c = .ok c') :
    c'.default = if r.addToDefault && !(r.writtenValue accepted == FieldName.accessRestricted) then
        c.default.add (r.writtenValue accepted)
      else c.default := by
  rw [writeAccepted_eq, writeSteps, List.foldlM_append] at ran
  -- The coordinates before the text and the steps behind it leave the free text as it is.
  obtain ⟨placed, first, ran⟩ := Checked.bind_ok ran
  have places : placed.default = c.default := by
    refine default_steps ?_ first
    intro step member value same
    unfold coordinateSteps at member
    split at member
    · obtain ⟨wkt, -, rfl⟩ := List.mem_map.mp member
      cases same
    · cases member
  unfold valueSteps at ran
  dsimp only at ran
  simp only [List.append_assoc] at ran
  rw [List.foldlM_append] at ran
  obtain ⟨texts, text, ran⟩ := Checked.bind_ok ran
  rw [foldlM_ite] at text
  have others : c'.default = texts.default := by
    refine default_steps ?_ ran
    intro step member value same
    subst same
    simp only [List.mem_append, List.mem_cons] at member
    have asked : ∀ {asked : Bool} {one : WriteStep},
        .addDefault value ∈ (if asked then [one] else []) → .addDefault value = one := by
      intro asked one member
      split at member
      · exact List.mem_singleton.mp member
      · cases member
    rcases member with dates | (own | sort) | copy
    · cases asked dates
    · cases own
    · cases asked sort
    · cases asked copy
  rw [others]
  split at text
  case isTrue asked =>
    cases text
    rw [if_pos asked]
    exact congrArg (·.add (r.writtenValue accepted)) places
  case isFalse unasked =>
    cases text
    rw [if_neg unasked]
    exact places

end Default

end FieldRule

namespace WrittenValue

/-- A record has what a rule wrote: the parts of the value under its name and, where the rule gives text
and the value is not the mark of restricted access, the value as a term. -/
structure Lands (w : WrittenValue) (c : Collector) : Prop where
  parts : ∀ part ∈ givenParts w.value, ⟨w.rule.field, part⟩ ∈ c.toList
  term : w.rule.addToDefault = true → w.value ≠ FieldName.accessRestricted →
    w.after.default = w.before.default.add w.value ∧ c.default.contains w.value = true

theorem Lands.mono {w : WrittenValue} {c c' : Collector} (lands : w.Lands c) (grown : c.Extends c') :
    w.Lands c' where
  parts part member := grown.fields.subset (lands.parts part member)
  term asked shared := by
    obtain ⟨added, within⟩ := lands.term asked shared
    refine ⟨added, FreeText.contains_iff.mpr ?_⟩
    exact (FreeText.contains_iff.mp within).trans grown.text.isInfix

end WrittenValue

namespace FieldRule

variable {r : FieldRule} {c c' : Collector}

theorem lands_of_writeAccepted {accepted : String} (indexed : c.Indexed)
    (ran : r.writeAccepted accepted c = .ok c') :
    WrittenValue.Lands ⟨r, r.writtenValue accepted, c, c'⟩ c' := by
  constructor
  · intro part member
    obtain ⟨piece, given⟩ := List.mem_filter.mp member
    apply mem_parts_of_writeAccepted indexed ran
    · exact List.mem_map_of_mem piece
    · simpa using given
  · intro asked shared
    have other : (r.writtenValue accepted == FieldName.accessRestricted) = false :=
      beq_eq_false_iff_ne.mpr shared
    have added := default_writeAccepted ran
    rw [show r.addToDefault = true from asked, other] at added
    have added : c'.default = c.default.add (r.writtenValue accepted) := added
    refine ⟨added, ?_⟩
    rw [added]
    exact c.default.contains_add _

/-- One record has all that another has, and knows its fields by their keys. -/
def Grows (c c' : Collector) : Prop := c.Extends c' ∧ c'.Indexed

theorem writesKeep_grows (r : FieldRule) (c : Collector) : r.WritesKeep (Grows c) := by
  apply WritesKeep.of_put
  · intro c' value before
    exact ⟨before.1.addDefault value, before.2⟩
  · intro c' name value repeats _ _ before
    exact ⟨before.1.put name value repeats, before.2.put⟩
  · intro c' centuries more before
    exact ⟨before.1.note more, before.2⟩

theorem Leads.lands {values : List WrittenValue} (leads : r.Leads c values c') (indexed : c.Indexed) :
    Grows c c' ∧ ∀ w ∈ values, w.rule = r ∧ w.Lands c' := by
  induction leads with
  | nil => exact ⟨⟨.refl _, indexed⟩, List.forall_mem_nil _⟩
  | cons write rest ih =>
    have first := (r.writesKeep_grows _).writeAccepted ⟨.refl _, indexed⟩ write
    obtain ⟨grown, later⟩ := ih first.2
    refine ⟨⟨first.1.trans grown.1, grown.2⟩, List.forall_mem_cons.mpr ⟨?_, later⟩⟩
    exact ⟨rfl, (lands_of_writeAccepted indexed write).mono grown.1⟩

end FieldRule

namespace Transformer

open TransformState (Holds)

variable {t : Transformer ω τ} {input : TransformInput}

/-- The values that a rule with expressions writes. -/
def writtenByRule (t : Transformer ω τ) (input : TransformInput) (r : FieldRule)
    (s : TransformState ω τ) : List WrittenValue :=
  match r.constant, t.rawValues r input s with
  | none, .ok raw s => r.written raw s.collector
  | _, _ => []

/-- The values that a transformation writes for the expressions of its rules, in order. -/
def written (t : Transformer ω τ) (input : TransformInput) (o : AuthorityState ω τ) :
    List WrittenValue :=
  Action.meets (fun _ r => t.applyRule input r) (fun _ r => t.writtenByRule input r)
    t.rules.allRules () ⟨.ofDefault input.default, {}, o⟩

/-- Between two states of a transformation values were written, and what they gave is still there. -/
def Writes (t : Transformer ω τ) (s : TransformState ω τ) (values : List WrittenValue)
    (s' : TransformState ω τ) : Prop :=
  s.collector.Indexed → FieldRule.Grows s.collector s'.collector
    ∧ ∀ w ∈ values, (w.rule ∈ t.rules.allRules ∧ w.rule.constant = none) ∧ w.Lands s'.collector

theorem Writes.append {s s' s'' : TransformState ω τ} {first rest : List WrittenValue}
    (before : t.Writes s first s') (after : t.Writes s' rest s'') :
    t.Writes s (first ++ rest) s'' := by
  intro indexed
  obtain ⟨grown, landed⟩ := before indexed
  obtain ⟨grownOn, landedOn⟩ := after grown.2
  refine ⟨⟨grown.1.trans grownOn.1, grownOn.2⟩, ?_⟩
  intro w member
  rcases List.mem_append.mp member with early | late
  · obtain ⟨own, lands⟩ := landed w early
    exact ⟨own, lands.mono grownOn.1⟩
  · exact landedOn w late

theorem applyRule_writes {r : FieldRule} (rule : r ∈ t.rules.allRules) {s s' : TransformState ω τ}
    (ran : t.applyRule input r s = .ok () s') : t.Writes s (t.writtenByRule input r s) s' := by
  intro indexed
  have grown : FieldRule.Grows s.collector s'.collector :=
    ((applyRule_ensures (G := fun _ => True) (r.writesKeep_grows s.collector)
      fun _ _ _ => trivial).completed ⟨⟨.refl _, indexed⟩, trivial⟩ ran).2.collector
  refine ⟨grown, ?_⟩
  unfold writtenByRule
  unfold applyRule at ran
  cases constant : r.constant with
  | some text => exact List.forall_mem_nil _
  | none =>
    rw [constant] at ran
    obtain ⟨raw, middle, selected, ran⟩ := Action.bind_ok ran
    obtain ⟨_, _, changed, ran⟩ := Action.bind_ok ran
    obtain ⟨c, all, rfl⟩ := TransformState.change_ok changed
    obtain ⟨c', filled, rfl⟩ := TransformState.change_ok ran
    have between : FieldRule.Grows s.collector middle.collector :=
      ((rawValues_ensures (P := Holds (FieldRule.Grows s.collector) fun _ => True) fun e i =>
        buildGroup_ensures (r.writesKeep_grows s.collector) (fun _ _ _ => trivial) e i).completed
          ⟨⟨.refl _, indexed⟩, trivial⟩ selected).2.collector
    obtain ⟨known, landed⟩ := (FieldRule.leads_of_writeAll all).lands between.2
    have years := (r.writesKeep_grows c).years _ _ ⟨.refl _, known.2⟩ filled
    rw [selected]
    intro w member
    obtain ⟨rfl, lands⟩ := landed w member
    exact ⟨⟨rule, constant⟩, lands.mono years.1⟩

theorem transform_writes {o o' : AuthorityState ω τ} {result : TransformResult}
    (ran : t.transform input o = .ok result o') :
    ∀ w ∈ t.written input o, (w.rule ∈ t.rules.allRules ∧ w.rule.constant = none)
      ∧ ∃ c : Collector, w.Lands c ∧ result.fields = c.toList
        ∧ result.defaultText = c.default.buffer := by
  obtain ⟨s, c, rules, wrapped, rfl⟩ := transform_ok ran
  unfold applyRules at rules
  rw [Action.forM_eq_foldlM] at rules
  have start : (Collector.ofDefault input.default).Indexed := Collector.indexed_empty
  have nothing (s : TransformState ω τ) : t.Writes s [] s :=
    fun indexed => ⟨⟨.refl _, indexed⟩, List.forall_mem_nil _⟩
  have each : ∀ r ∈ t.rules.allRules, ∀ (a : Unit) (s : TransformState ω τ) (a' : Unit)
      (s' : TransformState ω τ), t.applyRule input r s = .ok a' s' →
      t.Writes s (t.writtenByRule input r s) s' :=
    fun r rule _ _ _ _ ran => applyRule_writes rule ran
  obtain ⟨-, landed⟩ := Action.meets_of_ok nothing Writes.append each rules start
  intro w member
  obtain ⟨own, lands⟩ := landed w member
  exact ⟨own, c, lands.mono (wrapUp_extends wrapped).1, rfl, rfl⟩

/-- Every value that a rule writes for an expression is a term of the free text, unless the rule gives no
text or the value is the mark of restricted access; and all its parts are fields. So where the value is
not split, each of these fields is a term of the free text. -/
theorem terms_of_transform {o o' : AuthorityState ω τ} {result : TransformResult}
    (ran : t.transform input o = .ok result o') :
    ∀ w ∈ t.written input o, (w.rule ∈ t.rules.allRules ∧ w.rule.constant = none)
      ∧ (∀ part ∈ givenParts w.value, part ∈ result.values w.rule.field)
      ∧ (w.rule.addToDefault = true → w.value ≠ FieldName.accessRestricted →
        w.after.default = w.before.default.add w.value
          ∧ (FreeText.term w.value).toList <:+: result.defaultText.toList
          ∧ (Text.containsLiteral w.value splitMark = false → ∀ part ∈ givenParts w.value,
            (FreeText.term part).toList <:+: result.defaultText.toList)) := by
  intro w member
  obtain ⟨own, c, lands, fields, text⟩ := transform_writes ran w member
  refine ⟨own, ?_, ?_⟩
  · intro part given
    apply Field.mem_valuesOf.mpr
    rw [fields]
    exact lands.parts part given
  · intro asked shared
    obtain ⟨added, within⟩ := lands.term asked shared
    have whole : (FreeText.term w.value).toList <:+: result.defaultText.toList := by
      rw [text]
      exact FreeText.contains_iff.mp within
    refine ⟨added, whole, ?_⟩
    intro unsplit part given
    have same : part = w.value := by
      have piece := List.mem_of_mem_filter given
      rw [Text.splitAtLiteral_of_not_contains unsplit] at piece
      exact List.mem_singleton.mp piece
    rwa [same]

/-- A rule whose values are given to the free text. -/
def texting : Transformer Unit Unit :=
  ofRule { field := "N", sources := [{ xpath := "n" }], addToDefault := true }

def textsInput (texts : List String) : TransformInput where
  element := some (textsRoot texts)

theorem terms_of_texts : ∃ result left,
    texting.transform (textsInput ["a b", "a"]) ⟨(), none⟩ = .ok result left
      ∧ (texting.written (textsInput ["a b", "a"]) ⟨(), none⟩).map (·.value) = ["a b", "a"]
      ∧ ∀ w ∈ texting.written (textsInput ["a b", "a"]) ⟨(), none⟩,
        (FreeText.term w.value).toList <:+: result.defaultText.toList := by
  have traced : (texting.written (textsInput ["a b", "a"]) ⟨(), none⟩).map
      (fun w => (w.value, w.rule.addToDefault)) = [("a b", true), ("a", true)] := by
    decide +kernel
  obtain ⟨result, left, ran, -⟩ := Action.ok_of_outcome_map (g := fun _ => ()) (b := ())
    (x := texting.transform (textsInput ["a b", "a"])) (s := ⟨(), none⟩) (by decide +kernel)
  refine ⟨result, left, ran, ?_, ?_⟩
  · have values := congrArg (List.map Prod.fst) traced
    rwa [List.map_map] at values
  · intro w member
    obtain ⟨-, -, term⟩ := terms_of_transform ran w member
    have known : (w.value, w.rule.addToDefault) ∈ [("a b", true), ("a", true)] :=
      traced ▸ List.mem_map_of_mem member
    simp only [List.mem_cons, List.not_mem_nil, or_false, Prod.mk.injEq] at known
    rcases known with ⟨same, asked⟩ | ⟨same, asked⟩
    · exact (term asked (by rw [same]; decide)).2.1
    · exact (term asked (by rw [same]; decide)).2.1

/-- The parts of a value that is split are fields, but no terms of the free text. -/
theorem no_terms_of_splitText : ∃ result left,
    texting.transform (textsInput ["a" ++ splitMark ++ "b"]) ⟨(), none⟩ = .ok result left
      ∧ result.values "N" = ["a", "b"]
      ∧ ∀ part ∈ result.values "N", ¬(FreeText.term part).toList <:+: result.defaultText.toList := by
  have shown : ((texting.transform (textsInput ["a" ++ splitMark ++ "b"])).outcome ⟨(), none⟩).map
      (fun result => (result.values "N", result.defaultText))
        = .ok (["a", "b"], " a" ++ splitMark ++ "b ") := by
    decide +kernel
  obtain ⟨result, left, ran, shown⟩ := Action.ok_of_outcome_map shown
  obtain ⟨values, text⟩ := Prod.mk.inj shown
  refine ⟨result, left, ran, values, ?_⟩
  rw [values, text]
  simp only [← Text.containsLiteral_iff]
  decide +kernel

end Transformer

end MetadataIndex
