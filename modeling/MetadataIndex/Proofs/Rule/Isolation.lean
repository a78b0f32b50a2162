import MetadataIndex.Proofs.Effect.Comparison
import MetadataIndex.Proofs.Rule.Faults

/-!
# Rules beside malformed ones

A rule set has, for each field, the rules that can be read among its variants, in order. A malformed
variant is passed over. What keeps a whole rule set from being read are fields whose rules are neither
listed nor absent, and numbers without bound.
-/

set_option autoImplicit false

namespace MetadataIndex

namespace Json

/-- The variants of a rule: an object is one, an array has its items, and other values have none. -/
def variants : Json → List Json
  | .object members => [.object members]
  | .array items => items
  | _ => []

/-- A number or a truth value that counts as given; what stands there has no items. -/
def isStray : Json → Bool
  | .bool b => b
  | .int n => (Json.int n).isGiven
  | .float x => (Json.float x).isGiven
  | _ => false

end Json

namespace FieldRule

/-- The rules that can be read among variants, in order. -/
def rulesAmong (field : String) (variants : List Json) : List FieldRule :=
  variants.filterMap fun v => (ofJson field v).toOption

def IsMalformed (field : String) (config : Json) : Prop :=
  ∃ fault, ofJson field config = .error fault ∧ fault.isMalformedRule = true

variable {field : String}

theorem isMalformed_text (field s : String) : IsMalformed field (.text s) := by
  unfold IsMalformed ofJson
  split
  · exact ⟨_, rfl, rfl⟩
  · exact ⟨_, rfl, rfl⟩

theorem IsMalformed.not_accepted {config : Json} (malformed : IsMalformed field config) :
    (ofJson field config).toOption = none ∧ ofJson field config ≠ .error .overflow := by
  obtain ⟨fault, failed, passed⟩ := malformed
  rw [failed]
  refine ⟨rfl, ?_⟩
  rintro ⟨⟩
  cases passed

theorem ofJson_cases (field : String) (config : Json) :
    (∃ r, ofJson field config = .ok r) ∨ IsMalformed field config
      ∨ ofJson field config = .error .overflow := by
  cases read : ofJson field config with
  | ok r => exact .inl ⟨r, rfl⟩
  | error fault =>
    obtain passed | ⟨rfl, -⟩ := ofJson_failsWith field config fault read
    · exact .inr (.inl ⟨fault, read, passed⟩)
    · exact .inr (.inr rfl)

end FieldRule

open FieldRule (IsMalformed rulesAmong)

variable {field : String} {variants : List Json} {rules : List FieldRule}

theorem readVariants_cons_of_malformed {v : Json} (malformed : IsMalformed field v) :
    readVariants field (v :: variants) = readVariants field variants := by
  obtain ⟨fault, failed, passed⟩ := malformed
  rw [readVariants, failed]
  simp only [passed, if_true]

theorem readVariants_ok_iff : readVariants field variants = .ok rules
    ↔ (∀ v ∈ variants, FieldRule.ofJson field v ≠ .error .overflow)
      ∧ rules = rulesAmong field variants := by
  induction variants generalizing rules with
  | nil =>
    simp [readVariants, rulesAmong, eq_comm]
  | cons v variants ih =>
    rw [List.forall_mem_cons]
    rcases FieldRule.ofJson_cases field v with ⟨r, read⟩ | malformed | overflow
    · have kept : rulesAmong field (v :: variants) = r :: rulesAmong field variants := by
        simp [rulesAmong, read, Except.toOption]
      rw [readVariants, read, kept]
      cases others : readVariants field variants with
      | ok more =>
        obtain ⟨clear, rfl⟩ := ih.mp others
        exact ⟨fun same => ⟨⟨nofun, clear⟩, (Except.ok.inj same).symm⟩,
          fun both => congrArg _ both.2.symm⟩
      | error fault =>
        refine ⟨nofun, fun both => ?_⟩
        rw [ih.mpr ⟨both.1.2, rfl⟩] at others
        cases others
    · rw [readVariants_cons_of_malformed malformed, ih]
      simp [rulesAmong, malformed.not_accepted]
    · rw [readVariants, overflow]
      simp [Fault.isMalformedRule]

theorem readVariants_of_malformed {v : Json} (malformed : IsMalformed field v)
    (before after : List Json) :
    readVariants field (before ++ v :: after) = readVariants field (before ++ after) := by
  induction before with
  | nil => exact readVariants_cons_of_malformed malformed
  | cons first before ih =>
    rw [List.cons_append, List.cons_append, readVariants, readVariants, ih]

theorem variantsOf_array (items : List Json) : variantsOf (.array items) = .ok items := by
  cases items with
  | nil => rfl
  | cons first items => rfl

/-- What a rule set is read from as the variants of a field. -/
theorem variantsOf_cases (v : Json) :
    v.isStray = true ∧ variantsOf v = .error .wrongType
      ∨ v.isStray = false ∧ ∃ listed, variantsOf v = .ok listed
        ∧ ∀ field, rulesAmong field listed = rulesAmong field v.variants
          ∧ ((∀ c ∈ listed, FieldRule.ofJson field c ≠ .error .overflow)
            ↔ ∀ c ∈ v.variants, FieldRule.ofJson field c ≠ .error .overflow) := by
  cases v with
  | null => exact .inr ⟨rfl, [], rfl, fun _ => ⟨rfl, .rfl⟩⟩
  | bool b =>
    cases b with
    | true => exact .inl ⟨rfl, rfl⟩
    | false => exact .inr ⟨rfl, [], rfl, fun _ => ⟨rfl, .rfl⟩⟩
  | int n =>
    cases given : (Json.int n).isGiven with
    | true => exact .inl ⟨given, by simp [variantsOf, Json.sequenceIfGiven, given, Json.sequence]⟩
    | false =>
      exact .inr ⟨given, [], by simp [variantsOf, Json.sequenceIfGiven, given],
        fun _ => ⟨rfl, .rfl⟩⟩
  | float x =>
    cases given : (Json.float x).isGiven with
    | true => exact .inl ⟨given, by simp [variantsOf, Json.sequenceIfGiven, given, Json.sequence]⟩
    | false =>
      exact .inr ⟨given, [], by simp [variantsOf, Json.sequenceIfGiven, given],
        fun _ => ⟨rfl, .rfl⟩⟩
  | text s =>
    -- A text is gone through by its characters, and each of them is malformed.
    have listed : ∃ texts : List String, variantsOf (.text s) = .ok (texts.map Json.text) := by
      cases given : (Json.text s).isGiven with
      | true =>
        exact ⟨s.toList.map fun c => String.ofList [c], by
          simp [variantsOf, Json.sequenceIfGiven, given, Json.sequence]⟩
      | false => exact ⟨[], by simp [variantsOf, Json.sequenceIfGiven, given]⟩
    obtain ⟨texts, same⟩ := listed
    refine .inr ⟨rfl, _, same, fun field => ⟨?_, ?_⟩⟩
    · simp [rulesAmong, Json.variants, List.filterMap_map,
        (FieldRule.isMalformed_text field _).not_accepted]
    · simp [Json.variants, (FieldRule.isMalformed_text field _).not_accepted]
  | array items => exact .inr ⟨rfl, items, variantsOf_array items, fun _ => ⟨rfl, .rfl⟩⟩
  | object members => exact .inr ⟨rfl, [.object members], rfl, fun _ => ⟨rfl, .rfl⟩⟩

/-- A field has nothing that keeps a rule set from being read. -/
def IsReadable (entry : String × Json) : Prop :=
  entry.2.isStray = false ∧ ∀ v ∈ entry.2.variants, FieldRule.ofJson entry.1 v ≠ .error .overflow

/-- The rules of the fields that have any. -/
def acceptedFields (members : List (String × Json)) : List (String × List FieldRule) :=
  members.filterMap fun (field, config) =>
    match rulesAmong field config.variants with
    | [] => none
    | rules => some (field, rules)

theorem acceptedFields_cons (field : String) (config : Json) (members : List (String × Json)) :
    acceptedFields ((field, config) :: members)
      = if (rulesAmong field config.variants).isEmpty then acceptedFields members
        else (field, rulesAmong field config.variants) :: acceptedFields members := by
  simp only [acceptedFields, List.filterMap_cons]
  cases rulesAmong field config.variants with
  | nil => rfl
  | cons first rules => rfl

theorem readFields_cons {config : Json} {listed : List Json} (read : variantsOf config = .ok listed)
    (field : String) (members : List (String × Json)) :
    readFields ((field, config) :: members) = (do
      let rules ← readVariants field listed
      let rest ← readFields members
      return if rules.isEmpty then rest else (field, rules) :: rest) := by
  rw [readFields, read]
  rfl

theorem readFields_ok_iff {members : List (String × Json)} {fields : List (String × List FieldRule)} :
    readFields members = .ok fields
      ↔ (∀ entry ∈ members, IsReadable entry) ∧ fields = acceptedFields members := by
  induction members generalizing fields with
  | nil =>
    constructor
    · rintro ⟨⟩
      exact ⟨List.forall_mem_nil _, rfl⟩
    · rintro ⟨-, rfl⟩
      rfl
  | cons entry members ih =>
    obtain ⟨field, config⟩ := entry
    rw [List.forall_mem_cons]
    rcases variantsOf_cases config with ⟨stray, failed⟩ | ⟨plain, listed, read, same⟩
    · rw [readFields, failed]
      refine ⟨nofun, fun both => ?_⟩
      rw [both.1.1.1] at stray
      cases stray
    · obtain ⟨sameRules, sameFaults⟩ := same field
      rw [readFields_cons read]
      constructor
      · intro ran
        obtain ⟨rules, variants, ran⟩ := Checked.bind_ok ran
        obtain ⟨rest, others, ran⟩ := Checked.bind_ok ran
        obtain ⟨clear, rfl⟩ := readVariants_ok_iff.mp variants
        obtain ⟨clearOthers, rfl⟩ := ih.mp others
        refine ⟨⟨⟨plain, sameFaults.mp clear⟩, clearOthers⟩, (Except.ok.inj ran).symm.trans ?_⟩
        rw [sameRules, acceptedFields_cons]
      · rintro ⟨⟨⟨-, clear⟩, clearOthers⟩, rfl⟩
        rw [readVariants_ok_iff.mpr ⟨sameFaults.mpr clear, rfl⟩, ih.mpr ⟨clearOthers, rfl⟩, sameRules,
          acceptedFields_cons]
        rfl

theorem readFields_of_malformed {v : Json} (malformed : IsMalformed field v)
    (before after : List (String × Json)) (earlier later : List Json) :
    readFields (before ++ (field, .array (earlier ++ v :: later)) :: after)
      = readFields (before ++ (field, .array (earlier ++ later)) :: after) := by
  induction before with
  | nil =>
    rw [List.nil_append, List.nil_append, readFields_cons (variantsOf_array _),
      readFields_cons (variantsOf_array _), readVariants_of_malformed malformed]
  | cons entry before ih =>
    obtain ⟨first, config⟩ := entry
    rw [List.cons_append, List.cons_append, readFields, readFields, ih]

namespace RuleSet

theorem ofJson_eq {config : Json} {members : List (String × Json)}
    (fields : config.member "fields" = .object members) :
    ofJson config = (do
      let fields ← readFields members
      let namespaces ← readNamespaces (config.member "namespaces")
      return { fields, namespaces }) := by
  unfold ofJson
  rw [fields]

theorem readNamespaces_ok {v : Json} (given : v = .null ∨ ∃ marks, v = .object marks) :
    ∃ namespaces, readNamespaces v = .ok namespaces := by
  rcases given with rfl | ⟨marks, rfl⟩
  · exact ⟨[], rfl⟩
  · cases marks with
    | nil => exact ⟨[], rfl⟩
    | cons first marks => exact ⟨_, rfl⟩

/-- A configuration with fields is read exactly when no field has stray rules and no variant overflows,
which happens only at a number without bound. Each field then has the rules that can be read among its
variants, in order, and is left out if there are none. A malformed variant may be put in or taken out
anywhere, and all else stays. -/
theorem ofJson_isolates {config : Json} {members : List (String × Json)}
    (fields : config.member "fields" = .object members)
    (namespaces : config.member "namespaces" = .null
      ∨ ∃ marks, config.member "namespaces" = .object marks) :
    ((∃ s, ofJson config = .ok s) ↔ ∀ entry ∈ members, IsReadable entry)
      ∧ (∀ s, ofJson config = .ok s → s.fields = acceptedFields members)
      ∧ (∀ field v, FieldRule.ofJson field v = .error .overflow → FieldRule.IsBoundless v)
      ∧ ∀ before after field earlier v later config', IsMalformed field v →
        members = before ++ (field, .array (earlier ++ v :: later)) :: after →
        config'.member "fields" = .object (before ++ (field, .array (earlier ++ later)) :: after) →
        config'.member "namespaces" = config.member "namespaces" → ofJson config' = ofJson config := by
  obtain ⟨marks, read⟩ := readNamespaces_ok namespaces
  have split : ∀ s, ofJson config = .ok s → readFields members = .ok s.fields := by
    intro s ran
    rw [ofJson_eq fields, read] at ran
    obtain ⟨found, ranFields, ran⟩ := Checked.bind_ok ran
    cases ran
    exact ranFields
  refine ⟨⟨?_, fun readable => ?_⟩, fun s ran => ?_, fun field v failed => ?_, ?_⟩
  · rintro ⟨s, ran⟩
    exact (readFields_ok_iff.mp (split s ran)).1
  · rw [ofJson_eq fields, read, readFields_ok_iff.mpr ⟨readable, rfl⟩]
    exact ⟨_, rfl⟩
  · exact (readFields_ok_iff.mp (split s ran)).2
  · obtain passed | ⟨-, boundless⟩ := FieldRule.ofJson_failsWith field v _ failed
    · cases passed
    · exact boundless
  · rintro before after field earlier v later config' malformed rfl fields' same
    rw [ofJson_eq fields, ofJson_eq fields', same, readFields_of_malformed malformed]

def pathRule (xpath : String) : Json := .object [("xpaths", .array [.text xpath])]

def emptyRule : Json := .object [("xpaths", .array [])]

def fieldsConfig (members : List (String × Json)) : Json := .object [("fields", .object members)]

def outline (s : RuleSet) : List (String × List (List String)) :=
  s.fields.map fun (field, rules) => (field, rules.map fun r => r.sources.map (·.xpath))

/-- Fields with two rules, with what stands between them, and with things that are no rules. -/
def mixedFields (between : List Json) : List (String × Json) :=
  [("A", .array ([pathRule "x"] ++ between ++ [pathRule "y"])), ("B", .text "x"),
    ("C", .array [.int 5]), ("D", pathRule "z")]

theorem ofJson_isolates_emptyRule :
    ∃ s, ofJson (fieldsConfig (mixedFields [emptyRule])) = .ok s
      ∧ s.outline = [("A", [["x"], ["y"]]), ("D", [["z"]])]
      ∧ s.fields = acceptedFields (mixedFields [emptyRule])
      ∧ ofJson (fieldsConfig (mixedFields [])) = .ok s := by
  have given : (ofJson (fieldsConfig (mixedFields [emptyRule]))).map outline
      = .ok [("A", [["x"], ["y"]]), ("D", [["z"]])] := by
    decide +kernel
  have malformed : IsMalformed "A" emptyRule :=
    ⟨.refused (.ruleWithoutSource "A"), by with_unfolding_all rfl, rfl⟩
  have listed : (fieldsConfig (mixedFields [emptyRule])).member "fields"
      = .object (mixedFields [emptyRule]) := rfl
  obtain ⟨-, fields, -, insert⟩ := ofJson_isolates listed (.inl rfl)
  have same := insert [] _ "A" [pathRule "x"] emptyRule [pathRule "y"]
    (fieldsConfig (mixedFields [])) malformed rfl rfl rfl
  cases read : ofJson (fieldsConfig (mixedFields [emptyRule])) with
  | error fault =>
    rw [read] at given
    cases given
  | ok s =>
    rw [read] at given
    exact ⟨s, rfl, Except.ok.inj given, fields s read, same.trans read⟩

def countingRule : Json :=
  .object [("xpaths", .array [.text "x"]),
    ("replace_rules", .array [.object [("regex", .text "a\x7b4294967295\x7d")]])]

/-- A number in the place of rules, or an overflow in one variant, keeps all other rules from being
read. -/
theorem not_isolated :
    ((FieldRule.ofJson "B" (pathRule "x")).map (·.field)) = .ok "B"
      ∧ (ofJson (fieldsConfig [("A", .int 5), ("B", pathRule "x")])).map outline = .error .wrongType
      ∧ (ofJson (fieldsConfig [("B", .array [countingRule, pathRule "x"])])).map outline
        = .error .overflow := by
  refine ⟨?_, ?_, ?_⟩
  · decide +kernel
  · decide +kernel
  · decide +kernel

end RuleSet

end MetadataIndex
