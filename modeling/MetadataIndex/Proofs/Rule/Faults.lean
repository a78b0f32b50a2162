import MetadataIndex.Proofs.Effect.Faults
import MetadataIndex.Proofs.Pattern.Problems
import MetadataIndex.Rule.Reader

/-!
# Faults of rules

Reading a rule ends with a refusal, with a value of another type or with one that lacks a part. All
these make the rule malformed. It ends with another fault only at a number without bound.
-/

set_option autoImplicit false

namespace MetadataIndex

/-- A fault that a rule set passes over, or an overflow that has a cause. -/
def Fault.IsPassedOr (cause : Prop) (fault : Fault) : Prop :=
  fault.isMalformedRule = true ∨ fault = .overflow ∧ cause

theorem Fault.IsPassedOr.imp {cause cause' : Prop} (weaker : cause → cause') (fault : Fault)
    (passed : IsPassedOr cause fault) : IsPassedOr cause' fault :=
  passed.imp_right fun both => ⟨both.1, weaker both.2⟩

open Checked (FailsWith)

open Fault (IsPassedOr)

variable {cause : Prop}

namespace Json

theorem settings_failsWith (v : Json) : FailsWith (IsPassedOr cause) v.settings := by
  unfold settings
  split
  · exact .ok _
  · exact .error (.inl rfl)

theorem sequence_failsWith (v : Json) : FailsWith (IsPassedOr cause) v.sequence := by
  unfold sequence
  split
  · exact .ok _
  · exact .ok _
  · exact .ok _
  · exact .error (.inl rfl)

theorem sequenceIfGiven_failsWith (v : Json) : FailsWith (IsPassedOr cause) v.sequenceIfGiven := by
  unfold sequenceIfGiven
  split
  · exact v.sequence_failsWith
  · exact .ok _

/-- A number that is greater than all others, or less. -/
def IsInfinite (v : Json) : Prop := ∃ x, v = .float x ∧ x.isInf = true

theorem toInt_failsWith (v : Json) : FailsWith (IsPassedOr v.IsInfinite) v.toInt := by
  unfold toInt
  split
  · exact .ok _
  · exact .ok _
  · next x =>
    split
    · exact .error (.inl rfl)
    · split
      case isTrue infinite =>
        rintro _ ⟨⟩
        exact .inr ⟨rfl, x, rfl, infinite⟩
      case isFalse => exact .ok _
  · exact .required (.inl rfl) _
  · exact .error (.inl rfl)

theorem settings_ok {v : Json} {members : List (String × Json)} (read : v.settings = .ok members) :
    v = .object members := by
  unfold settings at read
  split at read
  · cases read
    rfl
  · cases read

/-- Only the items of an array are objects. -/
theorem array_of_sequenceIfGiven {v : Json} {items : List Json} (read : v.sequenceIfGiven = .ok items)
    {members : List (String × Json)} (member : .object members ∈ items) : v = .array items := by
  unfold sequenceIfGiven at read
  split at read
  · unfold sequence at read
    split at read
    · cases read
      rfl
    · cases read
      simp at member
    · cases read
      simp at member
    · cases read
  · cases read
    cases member

end Json

theorem XPathSource.ofJson_failsWith (config : Json) :
    FailsWith (IsPassedOr cause) (XPathSource.ofJson config) := by
  unfold XPathSource.ofJson
  split
  · exact .ok _
  · exact (config.settings_failsWith).bind fun _ _ => .ok _

theorem readScopes_failsWith (field : String) (members : List (String × Json)) :
    FailsWith (IsPassedOr cause) (readScopes field members) :=
  (FailsWith.required (.inl rfl) _).bind fun _ _ => (FailsWith.required (.inl rfl) _).bind fun _ _ =>
    (FailsWith.required (.inl rfl) _).bind fun _ _ => .ok _

theorem readGeoSource_failsWith (field : String) (v : Json) :
    FailsWith (IsPassedOr cause) (readGeoSource field v) := by
  unfold readGeoSource
  split
  · split
    · split
      · exact .ok _
      · exact .error (.inl rfl)
    · exact .error (.inl rfl)
  · exact .ok _

/-- A replace rule has a pattern that asks for more repetitions than can be counted. -/
def ReplaceRule.CountsTooFar (config : Json) : Prop :=
  ∃ v, config.member? "regex" = some v ∧ Pattern.Regex.ofText (configured v) = .error .tooMany

theorem ReplaceRule.ofJson_failsWith (config : Json) :
    FailsWith (IsPassedOr (CountsTooFar config)) (ReplaceRule.ofJson config) := by
  refine (config.settings_failsWith).bind fun members read => ?_
  obtain rfl := Json.settings_ok read
  dsimp only
  split
  · split
    · exact .ok _
    · exact .error (.inl rfl)
  · split
    · exact .error (.inl rfl)
    · exact .ok _
  · next v _ _ given =>
    split
    · exact .ok _
    · next problem failed =>
      have known := Pattern.Regex.ofText_ne_unknownGroup (configured v)
      rw [failed] at known
      cases problem with
      | malformed => exact .error (.inl rfl)
      | unknownGroup => exact absurd rfl known
      | tooMany =>
        rintro _ ⟨⟩
        exact .inr ⟨rfl, v, given, failed⟩
      | longNumber => exact .error (.inl rfl)
      | bothClasses => exact .error (.inl rfl)
  · exact .error (.inl rfl)

theorem Normalizer.ofJson_failsWith (config : Json) :
    FailsWith (IsPassedOr (config.member "length").IsInfinite) (Normalizer.ofJson config) := by
  refine (config.settings_failsWith).bind fun members read => ?_
  obtain rfl := Json.settings_ok read
  refine FailsWith.bind ?_ fun length _ => ?_
  · have toInt := ((lookup? "length" members).getD (.int 0)).toInt_failsWith
    unfold lengthOfJson
    split
    · next failed =>
      obtain passed | ⟨-, infinite⟩ := toInt _ failed
      · cases passed
      · rintro _ ⟨⟩
        refine .inr ⟨rfl, ?_⟩
        cases given : lookup? "length" members with
        | none =>
          rw [given] at infinite
          obtain ⟨x, same, -⟩ := infinite
          cases same
        | some v =>
          rw [given] at infinite
          simpa [Json.member, Json.member?, given] using infinite
    · exact .error (.inl rfl)
    · exact .ok _
  · split
    · refine FailsWith.bind ?_ fun _ _ => .ok _
      unfold Side.ofJson
      split
      · split
        · exact .ok _
        · exact .error (.inl rfl)
      · exact .ok _
    · exact .error (.inl rfl)

theorem NonSort.ofJson_failsWith (config : Json) :
    FailsWith (IsPassedOr cause) (NonSort.ofJson config) :=
  (config.settings_failsWith).bind fun _ _ => .ok _

theorem GroupEntity.readNested_failsWith (depth : Nat) (config : Json) :
    FailsWith (IsPassedOr cause) (readNested depth config) := by
  induction depth generalizing config with
  | zero => exact .error (.inl rfl)
  | succ depth ih =>
    have subfield : ∀ name v, FailsWith (IsPassedOr cause) (Subfield.ofJson name v) := by
      intro name v
      unfold Subfield.ofJson
      split
      · exact .ok _
      · exact .ok _
      · exact (Json.settings_failsWith v).bind fun _ _ =>
          (Json.sequence_failsWith _).bind fun _ _ => .ok _
    have kind : ∀ v, FailsWith (IsPassedOr cause) (GroupKind.ofJson v) := by
      intro v
      unfold GroupKind.ofJson
      split
      · split
        · exact .ok _
        · exact .error (.inl rfl)
      · exact .ok _
    refine (config.settings_failsWith).bind fun members _ => ?_
    extract_lets fields closes
    have closed : ∀ subfields, FailsWith (IsPassedOr cause) (closes subfields) := by
      intro subfields
      refine (Json.sequenceIfGiven_failsWith _).bind fun configured _ => ?_
      refine FailsWith.bind (.mapM fun child _ => ?_) fun children _ => ?_
      · refine (child.settings_failsWith).bind fun childMembers _ => ?_
        split
        · exact ih child
        · exact .error (.inl rfl)
      · exact (kind _).bind fun _ _ => .ok _
    split
    · refine (Json.settings_failsWith _).bind fun members _ => ?_
      exact (FailsWith.mapM fun p _ => subfield p.1 p.2).bind fun _ _ => closed _
    · exact closed []

namespace FieldRule

/-- A rule has a number without bound: the least number of digits of years, the length of a normalizer
or a count in a pattern that is replaced. -/
def IsBoundless (config : Json) : Prop :=
  (config.member "normalize_year_min_digits").IsInfinite
    ∨ (∃ items, config.member "value_normalizers" = .array items
      ∧ ∃ item ∈ items, (item.member "length").IsInfinite)
    ∨ ∃ items, config.member "replace_rules" = .array items
      ∧ ∃ item ∈ items, ReplaceRule.CountsTooFar item

theorem pipeline_failsWith (members : List (String × Json)) :
    FailsWith (IsPassedOr (IsBoundless (.object members))) (ValuePipeline.ofSettings members) := by
  refine (Json.sequenceIfGiven_failsWith _).bind fun rules read => ?_
  refine FailsWith.bind (.mapM fun rule member => ?_) fun _ _ => ?_
  · refine (ReplaceRule.ofJson_failsWith rule).imp <| IsPassedOr.imp fun far =>
      .inr (.inr ⟨rules, ?_, rule, member, far⟩)
    obtain ⟨v, given, -⟩ := far
    cases rule with
    | object => exact Json.array_of_sequenceIfGiven read member
    | _ => cases given
  refine (Json.sequenceIfGiven_failsWith _).bind fun normalizers read => ?_
  refine FailsWith.bind (.mapM fun normalizer member => ?_) fun _ _ => ?_
  · refine (Normalizer.ofJson_failsWith normalizer).imp <| IsPassedOr.imp fun infinite =>
      .inr (.inl ⟨normalizers, ?_, normalizer, member, infinite⟩)
    obtain ⟨x, given, -⟩ := infinite
    cases normalizer with
    | object => exact Json.array_of_sequenceIfGiven read member
    | _ => cases given
  refine (Json.sequenceIfGiven_failsWith _).bind fun nonSort _ => ?_
  exact (FailsWith.mapM fun n _ => NonSort.ofJson_failsWith n).bind fun _ _ => .ok _

theorem yearDigits_failsWith (members : List (String × Json)) :
    FailsWith (IsPassedOr (IsBoundless (.object members)))
      ((lookup? "normalize_year_min_digits" members).getD (.int 3)).toInt := by
  refine (Json.toInt_failsWith _).imp <| IsPassedOr.imp fun infinite => .inl ?_
  cases given : lookup? "normalize_year_min_digits" members with
  | none =>
    rw [given] at infinite
    obtain ⟨x, same, -⟩ := infinite
    cases same
  | some v =>
    rw [given] at infinite
    simpa [Json.member, Json.member?, given] using infinite

/-- Reading a rule ends only with faults that a rule set passes over, or at a number without bound. -/
theorem ofJson_failsWith (field : String) (config : Json) :
    FailsWith (IsPassedOr (IsBoundless config)) (ofJson field config) := by
  unfold ofJson
  split
  · exact .error (.inl rfl)
  · split
    case h_2 => exact .error (.inl rfl)
    case h_1 members =>
      refine (Json.sequenceIfGiven_failsWith _).bind fun sources _ => ?_
      refine (FailsWith.mapM fun source _ => XPathSource.ofJson_failsWith source).bind
        fun _ _ => ?_
      extract_lets constant config separator closes
      have closed : FailsWith (IsPassedOr (IsBoundless (.object members))) (closes ()) := by
        refine (readScopes_failsWith field members).bind fun scopes _ => ?_
        refine (yearDigits_failsWith members).bind fun digits _ => ?_
        extract_lets closes
        have closed : FailsWith (IsPassedOr (IsBoundless (.object members))) (closes ()) := by
          refine (readGeoSource_failsWith field _).bind fun source _ => ?_
          refine (Json.sequenceIfGiven_failsWith _).bind fun defaults _ => ?_
          refine (pipeline_failsWith members).bind fun pipeline _ => ?_
          extract_lets closes
          split
          · exact ((GroupEntity.readNested_failsWith _ config).map some).bind fun _ _ => .ok _
          · exact .ok _
        split
        · exact (FailsWith.error (.inl rfl)).bind fun _ _ => closed
        · exact closed
      split
      · exact (FailsWith.error (.inl rfl)).bind fun _ _ => closed
      · exact closed

end FieldRule

end MetadataIndex
