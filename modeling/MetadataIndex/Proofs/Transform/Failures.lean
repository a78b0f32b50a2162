import MetadataIndex.Proofs.Geo.Refusals
import MetadataIndex.Proofs.Rule.Accepted
import MetadataIndex.Proofs.Transform.Repetition
import MetadataIndex.Proofs.Value.Steps

/-!
# Values that cannot be written

Writing a value ends with a fault exactly when a step of its refinement or of its write comes to a value
or a state on which it is stuck. Most of what cannot be applied leaves the value as it is; what is stuck
are templates that do not fit, patterns that count too far, numbers of too many digits, and parts that
look like numerals or are too short.
-/

set_option autoImplicit false

namespace MetadataIndex

open ValueStep (IsStuckAlong)

namespace FieldRule

variable {r : FieldRule} {c : Collector}

/-- A sort field is not there yet, and its key cannot be made. -/
def LacksKey (r : FieldRule) (mark : String) (f : Field) (c : Collector) : Prop :=
  c.hasField (sortFieldName f.name mark) = false ∧ IsStuckAlong r.pipeline.sortSteps f.value

theorem writeSort_ok_iff {mark : String} {f : Field} :
    (∃ next, r.writeSort mark f c = .ok next) ↔ ¬r.LacksKey mark f c := by
  rw [writeSort_eq, LacksKey]
  cases c.hasField (sortFieldName f.name mark) with
  | true => exact ⟨fun _ => nofun, fun _ => ⟨c, rfl⟩⟩
  | false =>
    rw [if_neg (by decide), Checked.exists_map_ok, ValuePipeline.sortValue_eq, ValueStep.runAll_ok_iff]
    simp

/-- A value has a date that is too long, or it has dates and their further field has no name. -/
def CannotDate (r : FieldRule) (value : String) : Prop :=
  DateText.HasLongDate (Text.trim value).toList r.yearDigits.toNat
    ∨ (∃ d dates, DateText.read value r.yearDigits = .ok (d :: dates)) ∧ ∃ v ∈ r.yearField, ¬v.IsText

/-- A field of the dates of a value is reached whose sort field is not there and has no key. -/
def LacksDateKey (r : FieldRule) (value : String) (c : Collector) : Prop :=
  ∃ fields centuries f reached,
    dateFields c.centuries value r.yearDigits r.yearField = .ok (fields, centuries)
      ∧ Checked.Reaches r.writeDateField { c with centuries } fields f reached
      ∧ r.LacksKey FieldName.sortNumberMark f (reached.put f.name f.value)

theorem writeDates_ok_iff (positive : 1 ≤ r.yearDigits) {value : String} :
    (∃ next, r.writeDates value c = .ok next) ↔ ¬r.CannotDate value ∧ ¬r.LacksDateKey value c := by
  have made : (∃ made, dateFields c.centuries value r.yearDigits r.yearField = .ok made)
      ↔ ¬r.CannotDate value := by
    rw [dateFields_ok_iff positive, CannotDate]
    simp
  rw [writeDates, Checked.exists_bind_ok, ← made]
  unfold LacksDateKey
  constructor
  · rintro ⟨⟨fields, centuries⟩, given, written⟩
    refine ⟨⟨_, given⟩, ?_⟩
    rintro ⟨_, _, f, reached, same, reaches, lacks⟩
    rw [given] at same
    cases same
    exact writeSort_ok_iff.mp (Checked.foldlM_ok_iff.mp written f reached reaches) lacks
  · rintro ⟨⟨⟨fields, centuries⟩, given⟩, keys⟩
    refine ⟨_, given, Checked.foldlM_ok_iff.mpr fun f reached reaches => ?_⟩
    exact writeSort_ok_iff.mpr fun lacks => keys ⟨fields, centuries, f, reached, given, reaches, lacks⟩

end FieldRule

/-- What a step of a write cannot do in a state of the owning record. -/
def WriteStep.IsStuckAt (r : FieldRule) (c : Collector) : WriteStep → Prop
  | put .. => False
  | addDefault _ => False
  | dates value => r.CannotDate value ∨ r.LacksDateKey value c
  | sort mark f => r.LacksKey mark f c

theorem WriteStep.run_ok_iff {r : FieldRule} {c : Collector} (positive : 1 ≤ r.yearDigits)
    (step : WriteStep) : (∃ next, step.run r c = .ok next) ↔ ¬step.IsStuckAt r c := by
  cases step with
  | put name value repeats => exact ⟨fun _ => id, fun _ => ⟨_, rfl⟩⟩
  | addDefault value => exact ⟨fun _ => id, fun _ => ⟨_, rfl⟩⟩
  | dates value => exact (FieldRule.writeDates_ok_iff positive).trans not_or.symm
  | sort mark f => exact FieldRule.writeSort_ok_iff

namespace FieldRule

variable {r : FieldRule} {c : Collector}

def IsStuckWriting (r : FieldRule) (accepted : String) (c : Collector) : Prop :=
  ∃ step reached, Checked.Reaches (WriteStep.run r) c (r.writeSteps accepted) step reached
    ∧ step.IsStuckAt r reached

theorem writeAccepted_ok_iff (positive : 1 ≤ r.yearDigits) {accepted : String} :
    (∃ next, r.writeAccepted accepted c = .ok next) ↔ ¬r.IsStuckWriting accepted c := by
  rw [writeAccepted_eq, Checked.foldlM_ok_iff]
  simp only [WriteStep.run_ok_iff positive, IsStuckWriting, not_exists, not_and]

theorem accepted_ok_iff {raw : String} :
    (∃ value, r.accepted raw = .ok value) ↔ ¬r.pipeline.IsStuckAt r.field raw := by
  rw [← ValuePipeline.apply_ok_iff]
  refine Checked.exists_bind_ok.trans (exists_congr fun value => and_iff_left ?_)
  split
  · exact ⟨_, rfl⟩
  · split
    · exact ⟨_, rfl⟩
    · exact ⟨_, rfl⟩

theorem write_ok_iff (positive : 1 ≤ r.yearDigits) {raw : String} :
    (∃ result, r.write raw c = .ok result)
      ↔ ¬r.pipeline.IsStuckAt r.field raw
        ∧ ∀ value, r.accepted raw = .ok (some value) → ¬r.IsStuckWriting value c := by
  rw [← accepted_ok_iff, write, Checked.exists_bind_ok]
  constructor
  · rintro ⟨value, accepts, written⟩
    refine ⟨⟨value, accepts⟩, fun value' same => ?_⟩
    rw [accepts] at same
    cases same
    exact (writeAccepted_ok_iff positive).mp (Checked.exists_map_ok.mp written)
  · rintro ⟨⟨value, accepts⟩, clear⟩
    refine ⟨value, accepts, ?_⟩
    cases value with
    | none => exact ⟨_, rfl⟩
    | some value =>
      exact Checked.exists_map_ok.mpr ((writeAccepted_ok_iff positive).mpr (clear value accepts))

/-- A rule that was read has a value refined and written exactly when no step is stuck on the way. A
malformed pattern or template and a text without date leave the value as it is, and patterns of replace
rules can be read. Coordinates are at most refused, and then the value is written as it is; those that
are read can be written. -/
theorem write_returns_iff {field : String} {config : Json} {r : FieldRule}
    (read : ofJson field config = .ok r) :
    (∀ value, (∃ refined, r.refine value = .ok refined) ↔ ¬r.pipeline.IsStuckAt field value)
      ∧ (∀ raw c, (∃ result, r.write raw c = .ok result)
        ↔ ¬r.pipeline.IsStuckAt field raw
          ∧ ∀ value, r.accepted raw = .ok (some value) → ¬r.IsStuckWriting value c)
      ∧ (∀ step ∈ r.pipeline.steps field ++ r.pipeline.sortSteps, ∀ value, step.IsIdleAt value →
        step.run value = .ok value)
      ∧ (∀ pattern template, .replace (.regex pattern template) ∈ r.pipeline.steps field →
        ¬Pattern.IsUnreadable pattern)
      ∧ (∀ value kind, Checked.FailsWith Fault.IsRefusal
        (Geo.readGeometry Geo.doubles value r.geoSeparator kind))
      ∧ ∀ value, (r.coordinates value = {} ∧ r.writtenValue value = value)
        ∨ ∃ g text, Geo.wkt Geo.doubles g.positions = .ok text
          ∧ r.coordinates value = ⟨some (Geo.geoJson Geo.doubles g), text⟩ := by
  obtain ⟨rfl, positive, patterns⟩ := isRead_of_ofJson read
  refine ⟨fun value => ValuePipeline.apply_ok_iff, fun raw c => write_ok_iff positive,
    fun step _ value idle => ValueStep.run_of_isIdleAt idle, fun pattern template listed => ?_,
    fun value kind => (Geo.readGeometry_places Geo.doubles_onlyRefuse value r.geoSeparator kind).1,
    fun value => ?_⟩
  · have replaced : .regex pattern template ∈ r.pipeline.replaceRules := by
      simpa [ValuePipeline.steps] using listed
    obtain ⟨regex, compiled⟩ := patterns pattern template replaced
    exact Pattern.not_isUnreadable compiled
  · unfold writtenValue coordinates
    cases r.geoSource with
    | none => exact .inl ⟨rfl, rfl⟩
    | some source =>
      rcases Geo.convertWith_cases Geo.doubles_onlyRefuse value source r.geoSeparator with
        ⟨g, text, -, written, found⟩ | missing
      · exact .inr ⟨g, text, written, found⟩
      · refine .inl ⟨missing, ?_⟩
        change (Geo.convertWith Geo.doubles value source r.geoSeparator).geojson.getD value = value
        rw [missing]
        rfl

def listedRule (setting : String) (members : List (String × Json)) : Json :=
  .object [("xpaths", .array [.text "x"]), (setting, .array [.object members])]

/-- A template that refers to a group by a name that its pattern does not have. -/
def unfitRule : Json :=
  listedRule "replace_rules" [("regex", .text "(b)"), ("replace_with", .text "\\g<n>")]

theorem write_returns_iff_unfitRule :
    ∃ r, ofJson "MD_T" unfitRule = .ok r
      ∧ r.pipeline.IsStuckAt "MD_T" "abc" ∧ ¬r.pipeline.IsStuckAt "MD_T" ""
      ∧ (∀ c, ¬∃ result, r.write "abc" c = .ok result) ∧ ∃ result, r.write "" {} = .ok result := by
  have stuck : (ofJson "MD_T" unfitRule).map (·.refine "abc") = .ok (.error .outOfRange) := by
    decide +kernel
  cases read : ofJson "MD_T" unfitRule with
  | error fault =>
    rw [read] at stuck
    cases stuck
  | ok r =>
    rw [read] at stuck
    replace stuck : r.refine "abc" = .error .outOfRange := Except.ok.inj stuck
    obtain ⟨refines, writes, -⟩ := write_returns_iff read
    have failed : r.pipeline.IsStuckAt "MD_T" "abc" := by
      by_contra clear
      obtain ⟨refined, ran⟩ := (refines "abc").mpr clear
      rw [stuck] at ran
      cases ran
    have clear : ¬r.pipeline.IsStuckAt "MD_T" "" := (refines "").mp ⟨"", rfl⟩
    refine ⟨r, rfl, failed, clear, fun c written => ((writes "abc" c).mp written).1 failed, ?_⟩
    refine (writes "" {}).mpr ⟨clear, fun value accepts => ?_⟩
    cases accepts

/-- Rules that are read, each with a value that is neither written nor left out: a template that does not
fit, a numeral with a letter that is no digit, one with a line end, a pattern of the relevant part that
counts too far, and a mark that asks for both kinds of classes. -/
theorem not_total :
    (ofJson "MD_T" unfitRule).map (fun r => (r.write "abc" {}).map (·.2)) = .ok (.error .outOfRange)
      ∧ (ofJson "MD_T" (listedRule "value_normalizers"
          [("length", .int 1), ("convert_roman", .bool true)])).map
        (fun r => (r.refine "ı", r.refine "iv\n")) = .ok (.error .unknownKey, .error .unknownKey)
      ∧ (ofJson "MD_T" (listedRule "value_normalizers"
          [("length", .int 1), ("relevant_part_regex", .text "a\x7b4294967295\x7d")])).map
        (·.refine "abc") = .ok (.error .overflow)
      ∧ (ofJson "MD_T" (listedRule "non_sort_configurations" [("prefix", .text "(?a)(?u)")])).map
        (·.refine "abc") = .ok (.error (.refused .bothClasses)) := by
  refine ⟨?_, ?_, ?_, ?_⟩
  · decide +kernel
  · decide +kernel
  · decide +kernel
  · decide +kernel

end FieldRule

end MetadataIndex
