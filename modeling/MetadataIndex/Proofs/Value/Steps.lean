import MetadataIndex.Field.SortKey
import MetadataIndex.Proofs.Date.Reading
import MetadataIndex.Proofs.Text.References
import MetadataIndex.Proofs.Value.Length
import MetadataIndex.Value.Pipeline

/-!
# The steps of the value pipeline

A value goes through a list of steps. A step passes every value on, changed or as it is, but those on
which it is stuck; the pipeline has a result exactly when no step is reached by a value on which it is
stuck.
-/

set_option autoImplicit false

namespace MetadataIndex

inductive ValueStep where
  | replace (rule : ReplaceRule)
  | unescape
  /-- A date or an identifier is put in the form that its field asks for. -/
  | arrange (field : String)
  | fold (splitting : Option Json)
  | lower
  | resize (n : Normalizer)
  | strip (n : NonSort)

namespace ValueStep

def run (value : String) : ValueStep → Checked String
  | replace rule => rule.apply value
  | unescape => Text.unescape value
  | arrange field => ValuePipeline.normalizeFor field value
  | fold splitting => Value.toOneToken value splitting
  | lower => .ok (Text.lower value)
  | resize n => n.normalize value
  | strip n => n.apply value

/-- What a step cannot pass on: a pattern that cannot even be refused, a template that does not fit it,
numbers of too many digits, and parts that look like numerals or are too short. -/
def IsStuckAt (value : String) : ValueStep → Prop
  | replace (.regex pattern template) =>
    Pattern.IsUnreadable pattern ∨ Pattern.IsUnfit pattern template
  | replace _ => False
  | unescape => Text.HasLongReference value.toList
  | arrange field => Text.startsWith field "DATE_" = true
    ∧ DateText.isInstant (Text.trim value).toList = false
    ∧ DateText.HasLongDate (Text.trim value).toList 4
  | fold splitting => ∃ v ∈ splitting, ¬v.IsText
  | lower => False
  | resize n => n.IsStuckAt value
  | strip n => n.isVoid = false ∧ Pattern.IsUnreadable n.pattern

theorem replace_ok_iff {rule : ReplaceRule} {value : String} :
    (∃ next, rule.apply value = .ok next) ↔ ¬(replace rule).IsStuckAt value := by
  cases rule with
  | char c replacement => exact ⟨fun _ => id, fun _ => ⟨_, rfl⟩⟩
  | literal text replacement => exact ⟨fun _ => id, fun _ => ⟨_, rfl⟩⟩
  | regex pattern template => exact Pattern.replacePattern_ok_iff.trans not_or.symm

theorem arrange_ok_iff {field value : String} :
    (∃ next, ValuePipeline.normalizeFor field value = .ok next)
      ↔ ¬(arrange field).IsStuckAt value := by
  unfold ValuePipeline.normalizeFor
  rw [IsStuckAt]
  split
  case isTrue dated =>
    rw [and_iff_right dated]
    exact Checked.exists_map_ok.trans DateText.toInstant_ok_iff
  case isFalse other =>
    refine iff_of_true ?_ fun stuck => other stuck.1
    split
    · exact ⟨_, rfl⟩
    · exact ⟨_, rfl⟩

theorem fold_ok_iff {splitting : Option Json} {value : String} :
    (∃ next, Value.toOneToken value splitting = .ok next) ↔ ¬(fold splitting).IsStuckAt value := by
  cases splitting with
  | none => exact ⟨fun _ => nofun, fun _ => ⟨_, rfl⟩⟩
  | some v =>
    cases v with
    | text s =>
      refine iff_of_true ⟨_, rfl⟩ ?_
      rintro ⟨v, ⟨⟩, other⟩
      exact other ⟨s, rfl⟩
    | _ => exact ⟨nofun, fun text => absurd ⟨_, rfl, nofun⟩ text⟩

theorem strip_ok_iff {n : NonSort} {value : String} :
    (∃ next, n.apply value = .ok next) ↔ ¬(strip n).IsStuckAt value := by
  unfold NonSort.apply
  rw [IsStuckAt]
  split
  case isTrue void =>
    refine iff_of_true ⟨_, rfl⟩ ?_
    rw [void]
    rintro ⟨⟨⟩, -⟩
  case isFalse given =>
    rw [and_iff_right (Bool.not_eq_true _ ▸ given), Pattern.orUnchanged_map_ok_iff,
      Pattern.replacePattern_ok_iff, and_iff_left (Pattern.not_isUnfit_empty _)]

theorem run_ok_iff {value : String} (step : ValueStep) :
    (∃ next, step.run value = .ok next) ↔ ¬step.IsStuckAt value := by
  cases step with
  | replace rule => exact replace_ok_iff
  | unescape => exact Text.unescape_ok_iff
  | arrange field => exact arrange_ok_iff
  | fold splitting => exact fold_ok_iff
  | lower => exact ⟨fun _ => id, fun _ => ⟨_, rfl⟩⟩
  | resize n => exact Normalizer.normalize_ok_iff
  | strip n => exact strip_ok_iff

/-- A malformed pattern or template, or a text without date where a date is asked for. -/
def IsIdleAt (value : String) : ValueStep → Prop
  | replace (.regex pattern template) => Pattern.Regex.ofText pattern = .error .malformed
    ∨ ∃ regex, Pattern.Regex.ofText pattern = .ok regex
      ∧ Pattern.templateOf regex template = .error .malformed
  | arrange field => Text.startsWith field "DATE_" = true ∧ DateText.toInstant value = .ok ""
  | resize n => ∃ pattern, n.relevantPart = some (.text pattern)
    ∧ Pattern.Regex.ofText pattern = .error .malformed
  | strip n => Pattern.Regex.ofText n.pattern = .error .malformed
  | _ => False

theorem run_of_isIdleAt {value : String} {step : ValueStep} (idle : step.IsIdleAt value) :
    step.run value = .ok value := by
  unfold IsIdleAt at idle
  split at idle
  · next pattern template =>
    change Pattern.orUnchanged value (Pattern.replacePattern pattern template value) = .ok value
    unfold Pattern.replacePattern
    rcases idle with failed | ⟨regex, read, failed⟩
    · rw [failed]
      rfl
    · rw [read]
      change Pattern.orUnchanged value (Pattern.templateOf regex template >>= _) = _
      rw [failed]
      rfl
  · next field =>
    change ValuePipeline.normalizeFor field value = .ok value
    rw [ValuePipeline.normalizeFor, if_pos idle.1, idle.2]
    rfl
  · next n =>
    obtain ⟨pattern, part, failed⟩ := idle
    change n.normalize value = .ok value
    unfold Normalizer.normalize
    rw [part]
    dsimp only [Json.asText, bind, Except.bind]
    rw [failed]
    rfl
  · next n =>
    change n.apply value = .ok value
    unfold NonSort.apply Pattern.replacePattern
    split
    · rfl
    · rw [idle]
      rfl
  · exact idle.elim

def runAll (steps : List ValueStep) (value : String) : Checked String :=
  steps.foldlM run value

/-- A value on its way through steps comes to one that is stuck on it. -/
def IsStuckAlong (steps : List ValueStep) (value : String) : Prop :=
  ∃ step reached, Checked.Reaches run value steps step reached ∧ step.IsStuckAt reached

theorem runAll_ok_iff {steps : List ValueStep} {value : String} :
    (∃ result, runAll steps value = .ok result) ↔ ¬IsStuckAlong steps value := by
  refine Checked.foldlM_ok_iff.trans ?_
  simp only [run_ok_iff, IsStuckAlong, not_exists, not_and]

end ValueStep

namespace ValuePipeline

open ValueStep

def steps (p : ValuePipeline) (field : String) : List ValueStep :=
  p.replaceRules.map .replace ++ [.unescape, .arrange field]
    ++ (if p.oneToken then [.fold p.splittingCharacter] else [])
    ++ (if p.lowercase then [.lower] else [])
    ++ p.normalizers.map .resize ++ p.nonSort.map .strip

/-- A value that the pipeline has no result for; the empty value is not looked at. -/
def IsStuckAt (p : ValuePipeline) (field value : String) : Prop :=
  value.isEmpty = false ∧ IsStuckAlong (p.steps field) value

def sortSteps (p : ValuePipeline) : List ValueStep :=
  p.nonSort.map .strip ++ p.normalizers.map .resize

theorem apply_eq (p : ValuePipeline) (field value : String) :
    p.apply field value = if value.isEmpty then .ok value else runAll (p.steps field) value := by
  unfold apply runAll steps
  split
  · rfl
  · simp only [List.foldlM_append, List.foldlM_map, List.foldlM_cons, List.foldlM_nil, bind_assoc,
      pure_bind]
    -- The first three steps are always taken; the switches decide about the next two.
    refine congrArg (_ >>= ·) (funext fun replaced => ?_)
    refine congrArg (_ >>= ·) (funext fun unescaped => ?_)
    refine congrArg (_ >>= ·) (funext fun normalized => ?_)
    have cased : ∀ folded, (if p.lowercase then [lower] else []).foldlM run folded
        = .ok (if p.lowercase then Text.lower folded else folded) := by
      intro folded
      cases p.lowercase with
      | true => rfl
      | false => rfl
    cases p.oneToken with
    | true =>
      simp only [if_true, List.foldlM_cons, List.foldlM_nil, bind_pure, cased]
      rfl
    | false =>
      simp only [Bool.false_eq_true, if_false, List.foldlM_nil, pure_bind, cased]
      rfl

theorem apply_ok_iff {p : ValuePipeline} {field value : String} :
    (∃ result, p.apply field value = .ok result) ↔ ¬p.IsStuckAt field value := by
  rw [apply_eq, IsStuckAt]
  split
  case isTrue empty =>
    refine iff_of_true ⟨value, rfl⟩ ?_
    rw [empty]
    rintro ⟨⟨⟩, -⟩
  case isFalse given => rw [runAll_ok_iff, and_iff_right (Bool.not_eq_true _ ▸ given)]

theorem sortValue_eq (p : ValuePipeline) (value : String) :
    sortValue p.nonSort p.normalizers value = runAll p.sortSteps value := by
  unfold sortValue runAll sortSteps
  simp only [List.foldlM_append, List.foldlM_map]
  rfl

end ValuePipeline

end MetadataIndex
