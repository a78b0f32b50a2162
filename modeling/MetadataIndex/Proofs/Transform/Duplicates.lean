import MetadataIndex.Proofs.Field.Written
import MetadataIndex.Proofs.Transform.Writes

/-!
# Fields that occur twice

A transformation gives no empty value and no value that is still to be split. It gives a field twice
only where a rule asks for repetition, under the name of that rule or of its copy.
-/

set_option autoImplicit false

namespace MetadataIndex

open MetadataIndex.Xml (Cursor)

variable {ω τ : Type}

/-- A rule of the set asks for repetition under a name. -/
def RuleSet.Repeats (s : RuleSet) (name : String) : Prop :=
  ∃ r ∈ s.allRules, r.allowDuplicates = true
    ∧ (name = r.field ∨ name = FieldName.untokenized r.field)

theorem FieldRule.writesKeep_tidy {s : RuleSet} {r : FieldRule} (member : r ∈ s.allRules) :
    r.WritesKeep (Collector.Tidy s.Repeats) := by
  apply FieldRule.WritesKeep.of_put
  · intro c value tidy
    exact tidy.addDefault value
  · intro c name value repeats _ asked tidy
    exact tidy.put value fun allowed => ⟨r, member, asked allowed⟩
  · intro c centuries _ tidy
    exact ⟨tidy.indexed, tidy.given, tidy.whole, tidy.once⟩

namespace Transformer

variable {t : Transformer ω τ} {input : TransformInput}

theorem wrapUp_tidy {N : String → Prop} {c c' : Collector} (tidy : c.Tidy N)
    (wrapped : wrapUp c = .ok c') : c'.Tidy N := by
  obtain ⟨centuries, -, same⟩ := wrapUp_ok wrapped
  have filled : (c.extend centuries).Tidy N :=
    Collector.extend_induction tidy fun c f _ tidy => tidy.put f.value nofun
  rcases same with rfl | ⟨text, rfl⟩
  · exact filled
  · exact filled.put text nofun

theorem transform_tidy {o o' : AuthorityState ω τ} {result : TransformResult}
    (ran : t.transform input o = .ok result o') :
    ∃ c, Collector.Tidy t.rules.Repeats c ∧ result.fields = c.toList := by
  obtain ⟨c, c', tidy, wrapped, same⟩ := transform_keeps
    (fun r member => FieldRule.writesKeep_tidy member) (.ofDefault input.default) ran
  exact ⟨c', wrapUp_tidy tidy wrapped, same⟩

/-- No field is empty or still to be split, and a field that occurs more than once has a name for which
a rule asks for repetition; so without such a rule all fields are distinct. -/
theorem repeated_fields_of_transform {o o' : AuthorityState ω τ} {result : TransformResult}
    (ran : t.transform input o = .ok result o') :
    (∀ f ∈ result.fields, f.value ≠ "" ∧ Text.containsLiteral f.value Collector.splitMark = false)
      ∧ (∀ f, 1 < result.fields.count f → t.rules.Repeats f.name)
      ∧ ((∀ r ∈ t.rules.allRules, r.allowDuplicates = false) → result.fields.Nodup) := by
  obtain ⟨c, tidy, same⟩ := transform_tidy ran
  rw [same]
  have repeated : ∀ f, 1 < c.toList.count f → t.rules.Repeats f.name := by
    intro f twice
    by_contra unnamed
    have once := tidy.once f unnamed
    omega
  refine ⟨fun f member => ⟨tidy.given f member, tidy.whole f member⟩, repeated, fun never => ?_⟩
  rw [List.nodup_iff_count]
  intro f
  by_contra twice
  obtain ⟨r, member, asked, -⟩ := repeated f (by omega)
  simp [never r member] at asked

def textNode (text : String) : Xml.Node := .element { plain := "n" } [] [] [.text text]

/-- An element with elements that hold texts. -/
def textsRoot (texts : List String) : Cursor :=
  let root : Xml.Node := .element { plain := "r" } [] [] (texts.map textNode)
  .inside (.document { content := [root] }) 0 root

/-- A transformer that writes texts as often as they are found. -/
def repeating : Transformer Unit Unit where
  rules := {
    fields := [("N", [{ field := "N", sources := [{ xpath := "n" }], allowDuplicates := true }])] }

def splitInput : TransformInput where
  element := some (textsRoot ["a" ++ Collector.splitMark ++ "a"])

theorem repeated_parts :
    ∃ result left, repeating.transform splitInput ⟨(), none⟩ = .ok result left
      ∧ result.values "N" = ["a", "a"]
      ∧ (∀ f ∈ result.fields, f.value ≠ "" ∧ Text.containsLiteral f.value Collector.splitMark = false)
      ∧ ∀ f, 1 < result.fields.count f → f.name = "N" ∨ f.name = "N_UNTOKENIZED" := by
  have values : ((repeating.transform splitInput).outcome ⟨(), none⟩).map (·.values "N")
      = .ok ["a", "a"] := by
    decide +kernel
  cases ran : repeating.transform splitInput ⟨(), none⟩ with
  | error fault left =>
    rw [Action.outcome_of_error ran] at values
    cases values
  | ok result left =>
    rw [Action.outcome_of_ok ran] at values
    obtain ⟨whole, repeated, -⟩ := repeated_fields_of_transform ran
    refine ⟨result, left, rfl, Except.ok.inj values, whole, fun f twice => ?_⟩
    obtain ⟨r, member, -, named⟩ := repeated f twice
    obtain rfl := List.mem_singleton.mp member
    exact named

end Transformer

end MetadataIndex
