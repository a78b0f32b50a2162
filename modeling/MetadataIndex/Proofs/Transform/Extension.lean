import MetadataIndex.Proofs.Transform.Caching
import MetadataIndex.Proofs.Transform.Chronicle

/-!
# Adding rules

Rules that are put after others add to what these have written: fields and groups at the end, and text
after the text. Filling the gaps between centuries writes more where there are more centuries, so that
no field is lost but the one that says whether there are coordinates.
-/

set_option autoImplicit false

namespace MetadataIndex

open Collector

variable {ω τ : Type} {lax : Prop} {W : ω → ω → Prop}
  {K : Option (AuthorityCache τ) → Option (AuthorityCache τ) → Prop}

theorem GroupArena.prefix_merge (g group : GroupArena) : g.toList <+: (g.merge group).toList := by
  rw [toList_merge]
  exact List.prefix_append _ _

namespace Transformer

variable {t : Transformer ω τ} {input : TransformInput} {c c' : Collector}

theorem wrapUp_extends (wrapped : wrapUp c = .ok c') :
    c.Extends c' ∧ c'.default.buffer = c.default.buffer := by
  obtain ⟨centuries, -, same⟩ := wrapUp_ok wrapped
  have filled : c.Extends (c.extend centuries)
      ∧ (c.extend centuries).default.buffer = c.default.buffer :=
    extend_induction (P := fun c' => c.Extends c' ∧ c'.default.buffer = c.default.buffer)
      ⟨.refl c, rfl⟩ fun c' f _ before => by
        rw [default_put]
        exact ⟨before.1.put f.name f.value false, before.2⟩
  rcases same with rfl | ⟨text, rfl⟩
  · exact filled
  · rw [default_put]
    exact ⟨filled.1.put _ _ _, filled.2⟩

theorem mem_wrapUp_mono {d d' : Collector} (only : c.OnlyCenturies) (only' : d.OnlyCenturies)
    (grown : c.toList ⊆ d.toList) (wrapped : wrapUp c = .ok c') (wrapped' : wrapUp d = .ok d')
    {f : Field} (named : f.name ≠ FieldName.hasWktCoords) (member : f ∈ c'.toList) :
    f ∈ d'.toList := by
  obtain ⟨name, v⟩ := f
  by_cases century : name = FieldName.century
  · subst century
    obtain ⟨integers, has⟩ := wrapUp_century only wrapped
    obtain ⟨n, rfl, limited, -⟩ := integers v member
    obtain ⟨nonzero, spans⟩ := (has n).mp ⟨limited, member⟩
    exact (((wrapUp_century only' wrapped').2 n).mpr ⟨nonzero, spans.mono grown⟩).2
  · have before := (mem_wrapUp_of_ne only.indexed wrapped century named).mp member
    exact (wrapUp_extends wrapped').1.fields.subset (grown before)

theorem applyRules_onlyCenturies (names : ∀ r ∈ t.rules.allRules, r.field ≠ FieldName.century
      ∧ r.yearField ≠ some (.text FieldName.century)) {o : AuthorityState ω τ}
    {s : TransformState ω τ}
    (applied : t.applyRules input ⟨.ofDefault input.default, {}, o⟩ = .ok () s) :
    s.collector.OnlyCenturies := by
  have keeps : ∀ r ∈ t.rules.allRules, r.WritesKeep OnlyCenturies := fun r member =>
    FieldRule.writesKeep_onlyCenturies (names r member).1 (names r member).2
  have ensured : Action.Ensures (TransformState.Holds OnlyCenturies fun _ => True) (fun _ => True)
      (t.applyRules input) := applyRules_ensures keeps fun _ _ _ => trivial
  have start : OnlyCenturies (.ofDefault input.default) :=
    (chronicle_ofDefault input.default).toOnlyCenturies
  exact (ensured.completed ⟨start, trivial⟩ applied).2.collector

/-- The rules that two rule sets have in common run first and leave the same, and the others add to
it. -/
theorem applyRules_of_more {rules : RuleSet} {more : List FieldRule}
    (extended : rules.allRules = t.rules.allRules ++ more) (respects : t.builder.Respects lax W K)
    {s s' left left' : TransformState ω τ} (alike : s.Related W K Eq s')
    (applied : t.applyRules input s = .ok () left)
    (applied' : { t with rules }.applyRules input s' = .ok () left') :
    left.collector.Extends left'.collector ∧ left.groups.toList <+: left'.groups.toList := by
  have split : { t with rules }.applyRules input
      = (do t.applyRules input; more.forM (t.applyRule input)) := by
    change rules.allRules.forM (t.applyRule input) = _
    rw [extended]
    exact List.forM_append
  rw [split] at applied'
  obtain ⟨_, middle, common, rest⟩ := Action.bind_ok applied'
  have compared : Action.Compares lax (TransformState.Related W K Eq) (fun _ _ => True)
      (t.applyRules input) (t.applyRules input) := .forM _ fun r member =>
    applyRule_compares (addsAlike_self respects) (readsAlike_refl t (fun _ _ => rfl) input) member
  have same : left.Related W K Eq middle := compared.states_of_ok alike applied common
  have added : Action.Ensures (TransformState.Holds (Collector.Extends middle.collector)
      fun g => middle.groups.toList <+: g.toList) (fun _ => True) (more.forM (t.applyRule input)) :=
    .forM _ fun r _ => applyRule_ensures (r.writesKeep_extends _) fun g group before =>
      before.trans (g.prefix_merge group)
  obtain ⟨grown, groups⟩ := (added.completed ⟨.refl _, List.prefix_rfl⟩ rest).2
  rw [same.collector, same.groups]
  exact ⟨grown, groups⟩

/-- Where the outer world answers alike and no rule writes centuries of its own, rules that are put
after others keep what these give: the fields before they are wrapped up, the free text and the groups
come first, and the other fields at the end are there too. -/
theorem transform_of_more_rules {rules : RuleSet} {more : List FieldRule}
    (extended : rules.allRules = t.rules.allRules ++ more)
    (names : ∀ r ∈ rules.allRules, r.field ≠ FieldName.century
      ∧ r.yearField ≠ some (.text FieldName.century))
    (respects : t.builder.Respects lax W K) {o o' left left' : AuthorityState ω τ}
    (alike : o.Related W K o') {result result' : TransformResult}
    (ran : t.transform input o = .ok result left)
    (ran' : { t with rules }.transform input o' = .ok result' left') :
    ∃ s, t.applyRules input ⟨.ofDefault input.default, {}, o⟩ = .ok () s
      ∧ s.collector.toList <+: result'.fields
      ∧ result.defaultText.toList <+: result'.defaultText.toList
      ∧ result.groups.toList <+: result'.groups.toList
      ∧ ∀ f ∈ result.fields, f.name ≠ FieldName.hasWktCoords → f ∈ result'.fields := by
  obtain ⟨s, c, applied, wrapped, rfl⟩ := transform_ok ran
  obtain ⟨s', c', applied', wrapped', rfl⟩ := transform_ok ran'
  have start : TransformState.Related W K Eq (⟨.ofDefault input.default, {}, o⟩ : TransformState ω τ)
      ⟨.ofDefault input.default, {}, o'⟩ := ⟨rfl, rfl, alike⟩
  obtain ⟨grown, groups⟩ := applyRules_of_more extended respects start applied applied'
  have only : s.collector.OnlyCenturies := applyRules_onlyCenturies (fun r member =>
    names r (extended ▸ List.mem_append_left _ member)) applied
  have only' : s'.collector.OnlyCenturies :=
    applyRules_onlyCenturies (t := { t with rules }) names applied'
  obtain ⟨-, text⟩ := wrapUp_extends wrapped
  obtain ⟨kept, text'⟩ := wrapUp_extends wrapped'
  refine ⟨s, applied, grown.fields.trans kept.fields, ?_, groups, fun f member named => ?_⟩
  · rw [text, text']
    exact grown.text
  · exact mem_wrapUp_mono only only' grown.fields.subset wrapped wrapped' named member

def threeYears : TransformInput where
  element := some (textsRoot ["150 450", "350"])

theorem transform_of_second_rule :
    ∃ result result' left left',
      (yearReader [yearRule "n[1]"]).transform threeYears ⟨(), none⟩ = .ok result left
      ∧ (yearReader [yearRule "n[1]", yearRule "n[2]"]).transform threeYears ⟨(), none⟩
        = .ok result' left'
      ∧ result.values FieldName.century = ["2", "5", "3", "4"]
      ∧ result'.values FieldName.century = ["2", "5", "4", "3"]
      ∧ ∀ f ∈ result.fields, f.name ≠ FieldName.hasWktCoords → f ∈ result'.fields := by
  have given : (((yearReader [yearRule "n[1]"]).transform threeYears).outcome ⟨(), none⟩).map
      (·.values FieldName.century) = .ok ["2", "5", "3", "4"] := by
    decide +kernel
  have given' : (((yearReader [yearRule "n[1]", yearRule "n[2]"]).transform threeYears).outcome
      ⟨(), none⟩).map (·.values FieldName.century) = .ok ["2", "5", "4", "3"] := by
    decide +kernel
  cases ran : (yearReader [yearRule "n[1]"]).transform threeYears ⟨(), none⟩ with
  | error fault left =>
    rw [Action.outcome_of_error ran] at given
    cases given
  | ok result left =>
    cases ran' : (yearReader [yearRule "n[1]", yearRule "n[2]"]).transform threeYears ⟨(), none⟩ with
    | error fault left' =>
      rw [Action.outcome_of_error ran'] at given'
      cases given'
    | ok result' left' =>
      rw [Action.outcome_of_ok ran] at given
      rw [Action.outcome_of_ok ran'] at given'
      have respects : (yearReader [yearRule "n[1]"]).builder.Respects False (fun _ _ => True)
          (fun _ _ => True) := ⟨nofun, nofun⟩
      have names : ∀ r ∈ (yearReader [yearRule "n[1]", yearRule "n[2]"]).rules.allRules,
          r.field ≠ FieldName.century ∧ r.yearField ≠ some (.text FieldName.century) := by
        simp [RuleSet.allRules, yearReader, yearRule, FieldName.century]
      have extended : (yearReader [yearRule "n[1]", yearRule "n[2]"]).rules.allRules
          = (yearReader [yearRule "n[1]"]).rules.allRules ++ [yearRule "n[2]"] := rfl
      obtain ⟨-, -, -, -, -, kept⟩ := transform_of_more_rules extended names respects
        ⟨trivial, trivial⟩ ran ran'
      exact ⟨result, result', left, left', rfl, rfl, Except.ok.inj given, Except.ok.inj given', kept⟩

end Transformer

end MetadataIndex
