import MetadataIndex.Proofs.Group.MainValue
import MetadataIndex.Proofs.Transform.Duplicates
import MetadataIndex.Proofs.Transform.Restriction

/-!
# Main values as values of rules

The main value of a group was refined when the group was built, and it is refined again when it is
written to the field of the rule. It is written as it is only where refining it again changes nothing.
-/

set_option autoImplicit false

namespace MetadataIndex

open MetadataIndex.Xml (Cursor)

variable {ω τ : Type} {t : Transformer ω τ} {r : FieldRule} {e : GroupEntity} {i : XPath.Item}
  {place : Cursor}

namespace FieldRule

theorem accepted_eq (plain : r.field ≠ FieldName.currentNoSort) (raw : String) :
    r.accepted raw = (r.refine raw).map fun value =>
      if (Text.trim value).isEmpty then none else some value := by
  have other : (r.field == FieldName.currentNoSort) = false := beq_eq_false_iff_ne.mpr plain
  unfold accepted
  cases r.refine raw with
  | error fault => rfl
  | ok value =>
    simp only [bind, Except.bind, other, Bool.false_eq_true, if_false, Except.map]
    split
    · rfl
    · rfl

/-- A value is written as it is exactly when refining leaves it as it is, and it is not blank. -/
theorem written_eq_self_iff {value : String} :
    ((r.refine value).map fun value => if (Text.trim value).isEmpty then [] else [value]) = .ok [value]
      ↔ r.refine value = .ok value ∧ (Text.trim value).isEmpty = false := by
  cases r.refine value with
  | error fault => exact ⟨nofun, fun both => nomatch both.1⟩
  | ok refined =>
    simp only [Except.map, Except.ok.injEq]
    split
    case isTrue blank =>
      refine ⟨nofun, ?_⟩
      rintro ⟨rfl, given⟩
      rw [given] at blank
      cases blank
    case isFalse given =>
      rw [List.cons.injEq, and_iff_left rfl]
      refine ⟨fun same => ⟨same, ?_⟩, And.left⟩
      rw [← same]
      exact Bool.eq_false_iff.mpr given

theorem groupValue_bare {s : XPathSource} (leading : s.leading = "") (trailing : s.trailing = "")
    (value : String) : groupValue s value = value := by
  simp [groupValue, leading, trailing]

theorem writesKeep_indexed (r : FieldRule) : r.WritesKeep Collector.Indexed := by
  apply WritesKeep.of_put
  · intro c value indexed
    exact indexed
  · intro c name value repeats _ _ indexed
    exact indexed.put
  · intro c centuries _ indexed
    exact indexed

/-- The parts of a value that are not empty are written under the name of the rule. -/
theorem mem_parts_of_writeAccepted {accepted : String} {c c' : Collector} (indexed : c.Indexed)
    (written : r.writeAccepted accepted c = .ok c') {f : Field}
    (part : f ∈ Collector.partsOf r.field (r.writtenValue accepted)) (given : f.value ≠ "") :
    f ∈ c'.toList := by
  obtain ⟨before, after, split⟩ := List.append_of_mem (r.own_mem_writeSteps accepted)
  have taken : before ⊆ r.writeSteps accepted ∧ after ⊆ r.writeSteps accepted := by
    rw [split]
    exact ⟨List.subset_append_left _ _,
      List.subset_append_of_subset_right _ (List.subset_cons_self _ _)⟩
  rw [writeAccepted_eq, split, List.foldlM_append] at written
  obtain ⟨dated, first, written⟩ := Checked.bind_ok written
  have known : dated.Indexed := r.writesKeep_indexed.steps taken.1 indexed first
  have put : f ∈ (dated.put r.field (r.writtenValue accepted) r.allowDuplicates).toList :=
    (Collector.mem_put known).mpr (.inr ⟨part, given⟩)
  rw [List.foldlM_cons] at written
  have grown := (r.writesKeep_extends _).steps taken.2 (.refl _) written
  exact grown.fields.subset put

/-- A value without coordinates that is not to be split is written as it is. -/
theorem mem_of_writeAccepted {value : String} {c c' : Collector} (noSource : r.geoSource = none)
    (given : value ≠ "") (whole : Text.containsLiteral value Collector.splitMark = false)
    (indexed : c.Indexed) (written : r.writeAccepted value c = .ok c') :
    ⟨r.field, value⟩ ∈ c'.toList := by
  have plain : r.writtenValue value = value := by
    rw [writtenValue, coordinates, noSource]
    rfl
  apply mem_parts_of_writeAccepted indexed written
  · rw [plain, Collector.partsOf_of_not_contains whole]
    exact .head _
  · exact given

end FieldRule

namespace Transformer

/-- What a shared group writes is its main value, refined by the rule, unless that is blank. -/
theorem contribution_of_shared (grouped : r.group = some e) {s : XPathSource}
    (leading : s.leading = "") (trailing : s.trailing = "") (plain : r.field ≠ FieldName.currentNoSort)
    {σ : TransformState ω τ} {main : String}
    (gives : (t.buildGroup r e i).outcome σ = .ok (some main)) :
    (t.contribution r s i).outcome σ = (r.refine main).map fun value =>
      if (Text.trim value).isEmpty then [] else [value] := by
  rw [contribution_of_buildGroup grouped gives]
  simp only [Option.toList_some, List.map_cons, List.map_nil, List.mapM_cons, List.mapM_nil,
    FieldRule.groupValue_bare leading trailing, FieldRule.accepted_eq plain]
  cases r.refine main with
  | error fault => rfl
  | ok value =>
    simp only [Except.map]
    generalize (Text.trim value).isEmpty = blank
    cases blank with
    | true => rfl
    | false => rfl

/-- The main value of a group that may be shared was refined once before the rule refines it again.
What is then not blank is written, so the main value itself is written exactly when refining it again
leaves it as it is. -/
theorem contribution_of_mainValue (grouped : r.group = some e) {s : XPathSource}
    (leading : s.leading = "") (trailing : s.trailing = "")
    (plain : r.field ≠ FieldName.currentNoSort) (found : i.place? = some place)
    (shared : i.isRestricted = false) {σ : TransformState ω τ} {group : GroupArena}
    {b : BuildState ω τ}
    (built : t.builder.build r e place r.field false ⟨σ.collector, σ.outside⟩ = .ok group b) :
    ∃ root, group.get 0 = .ok root ∧ ∀ main, root.mainValue = some main →
      r.RefinedOnce main
        ∧ (t.contribution r s i).outcome σ = (r.refine main).map (fun value =>
            if (Text.trim value).isEmpty then [] else [value])
        ∧ ((t.contribution r s i).outcome σ = .ok [main]
          ↔ r.refine main = .ok main ∧ (Text.trim main).isEmpty = false)
        ∧ ∀ value c c', (Text.trim value).isEmpty = false → r.geoSource = none →
          Text.containsLiteral value Collector.splitMark = false → c.Indexed →
          r.writeAccepted value c = .ok c' → ⟨r.field, value⟩ ∈ c'.toList := by
  have ensured := GroupBuilder.build_ensures (t.builder.keeps_trivial r) (T := fun _ => True)
    (e := e) (fun _ _ _ _ => trivial) trivial place r.field false
  obtain ⟨root, deeper, stored, builds, -⟩ := (ensured.completed trivial built).1
  have first : group.get 0 = .ok root := GroupArena.get_zero stored
  refine ⟨root, first, fun main given => ?_⟩
  obtain ⟨d, made, same⟩ := builds.mainValue
  have gives := buildGroup_of_built found (shared.symm ▸ built) first
  simp only [shared, Bool.false_eq_true, if_false, Option.map_id_fun', id_eq, given] at gives
  have contributes := contribution_of_shared grouped leading trailing plain gives
  refine ⟨Draft.refinedOnce_ofElement made (same ▸ given), contributes, ?_, ?_⟩
  · rw [contributes]
    exact FieldRule.written_eq_self_iff
  · intro value c c' given noSource whole indexed written
    refine FieldRule.mem_of_writeAccepted noSource ?_ whole indexed written
    rintro rfl
    exact absurd given (by decide)

/-- The main values of the groups of a text, and what is written for them to the field of the rule. -/
def mainAndWritten (r : FieldRule) (text : String) :
    Checked (List (Option String) × List String) :=
  (((ofRule r).transform { element := some (textsRoot [text]) }).outcome ⟨(), none⟩).map fun result =>
    (result.groups.roots.map (·.mainValue), result.values r.field)

def replacing (text replacement : String) : FieldRule :=
  wholeTextRule { replaceRules := [.literal text replacement] }

/-- A replacement is made again in a main value, which becomes longer or is not written at all. -/
theorem not_written_as_mainValue :
    mainAndWritten (replacing "a" "aa") "ab" = .ok ([some "aab"], ["aaaab"])
      ∧ mainAndWritten (replacing "ab" "") "aabb" = .ok ([some "ab"], []) := by
  constructor
  · decide +kernel
  · decide +kernel

theorem contribution_of_replacedText :
    ∃ root : GroupedRecord, root.mainValue = some "aab" ∧ (replacing "a" "aa").RefinedOnce "aab"
      ∧ ((ofRule (replacing "a" "aa")).contribution (replacing "a" "aa") { xpath := "n" }
          (.place (.inside (textsRoot ["ab"]) 0 (textNode "ab")))).outcome freshState
        = .ok ["aaaab"] := by
  have main : (((ofRule (replacing "a" "aa")).builder.build (replacing "a" "aa") wholeText
      (.inside (textsRoot ["ab"]) 0 (textNode "ab")) "N" false).outcome ⟨{}, ⟨(), none⟩⟩
        >>= fun group => do return (← group.get 0).mainValue) = .ok (some "aab") := by
    decide +kernel
  have again : (replacing "a" "aa").refine "aab" = .ok "aaaab" := by decide +kernel
  have given : (Text.trim "aaaab").isEmpty = false := by decide +kernel
  have plain : (replacing "a" "aa").field ≠ FieldName.currentNoSort := by decide
  have shared : (XPath.Item.place (.inside (textsRoot ["ab"]) 0 (textNode "ab"))).isRestricted
      = false := by
    decide +kernel
  cases ran : (ofRule (replacing "a" "aa")).builder.build (replacing "a" "aa") wholeText
      (.inside (textsRoot ["ab"]) 0 (textNode "ab")) "N" false ⟨{}, ⟨(), none⟩⟩ with
  | error fault left =>
    rw [Action.outcome_of_error ran] at main
    cases main
  | ok group left =>
    obtain ⟨root, first, gives⟩ := contribution_of_mainValue (s := { xpath := "n" })
      (t := ofRule (replacing "a" "aa")) (e := wholeText) rfl rfl rfl plain rfl shared
      (σ := freshState) ran
    rw [Action.outcome_of_ok ran] at main
    replace main : (do return (← group.get 0).mainValue) = .ok (some "aab") := main
    rw [first] at main
    obtain ⟨once, contributes, -⟩ := gives "aab" (Except.ok.inj main)
    refine ⟨root, Except.ok.inj main, once, ?_⟩
    rw [contributes, again]
    simp [Except.map, given]

end Transformer

end MetadataIndex
