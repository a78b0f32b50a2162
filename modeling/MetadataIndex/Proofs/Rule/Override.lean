import MetadataIndex.Proofs.Rule.Isolation
import MetadataIndex.Rule.Merge

/-!
# Rules laid over others

Laying one configuration over another replaces all variants of a field at once, and does so by name: a
field that is named inline has the inline rules, even if none of them can be read, and keeps its place
among the others. Fields that are only named inline come last.
-/

set_option autoImplicit false

namespace MetadataIndex

section Members

variable {α β : Type} {base overrides : List (String × α)}

theorem lookup?_cons (name key : String) (value : α) (members : List (String × α)) :
    lookup? name ((key, value) :: members) = if key = name then some value else lookup? name members :=
  rfl

theorem lookup?_map (change : String → α → β) (name : String) (members : List (String × α)) :
    lookup? name (members.map fun entry => (entry.1, change entry.1 entry.2))
      = (lookup? name members).map (change name) := by
  induction members with
  | nil => rfl
  | cons entry members ih =>
    rw [List.map_cons, lookup?_cons, lookup?_cons, ih]
    by_cases same : entry.1 = name
    · rw [if_pos same, if_pos same, same]
      rfl
    · rw [if_neg same, if_neg same]

theorem nodup_store (name : String) (value : α) (once : (base.map (·.1)).Nodup) :
    ((store name value base).map (·.1)).Nodup := by
  rw [map_fst_store]
  split
  case isTrue => rwa [List.append_nil]
  case isFalse fresh =>
    refine List.nodup_append.mpr ⟨once, List.pairwise_singleton _ name, ?_⟩
    intro key member other single
    rw [List.mem_singleton.mp single]
    exact fun same => fresh (same ▸ member)

theorem nodup_storeAll (once : (base.map (·.1)).Nodup) :
    ((storeAll base overrides).map (·.1)).Nodup := by
  induction overrides generalizing base with
  | nil => exact once
  | cons entry overrides ih => exact ih (nodup_store entry.1 entry.2 once)

theorem of_mem_store {name : String} {value : α} {entry : String × α}
    (member : entry ∈ store name value base) : entry = (name, value) ∨ entry ∈ base := by
  induction base with
  | nil => exact .inl (List.mem_singleton.mp member)
  | cons first base ih =>
    unfold store at member
    split at member
    case isTrue same =>
      rcases List.mem_cons.mp member with rfl | later
      · exact .inl (same ▸ rfl)
      · exact .inr (.tail _ later)
    case isFalse =>
      rcases List.mem_cons.mp member with rfl | later
      · exact .inr (.head _)
      · exact (ih later).imp_right (.tail _)

theorem of_mem_storeAll {entry : String × α} (member : entry ∈ storeAll base overrides) :
    entry ∈ base ∨ entry ∈ overrides := by
  induction overrides generalizing base with
  | nil => exact .inl member
  | cons first overrides ih =>
    have again : entry ∈ storeAll (store first.1 first.2 base) overrides := member
    rcases ih again with stored | later
    · rcases of_mem_store stored with rfl | known
      · exact .inr (.head _)
      · exact .inl known
    · exact .inr (.tail _ later)

theorem lookup?_storeAll (once : (overrides.map (·.1)).Nodup) (name : String) :
    lookup? name (storeAll base overrides) = (lookup? name overrides <|> lookup? name base) := by
  induction overrides generalizing base with
  | nil => rfl
  | cons entry overrides ih =>
    obtain ⟨key, value⟩ := entry
    obtain ⟨fresh, once⟩ := List.nodup_cons.mp once
    change lookup? name (storeAll (store key value base) overrides) = _
    rw [ih once, lookup?_cons]
    by_cases same : key = name
    · subst same
      rw [lookup?_eq_none_iff.mpr fresh, lookup?_store_self, if_pos rfl]
      rfl
    · rw [lookup?_store_of_ne (Ne.symm same), if_neg same]

/-- The names of the base keep their order; new ones come behind them. -/
theorem map_fst_storeAll (once : (overrides.map (·.1)).Nodup) :
    (storeAll base overrides).map (·.1)
      = base.map (·.1) ++ (overrides.map (·.1)).filter (· ∉ base.map (·.1)) := by
  induction overrides generalizing base with
  | nil => exact (List.append_nil _).symm
  | cons entry overrides ih =>
    obtain ⟨key, value⟩ := entry
    obtain ⟨fresh, once⟩ := List.nodup_cons.mp once
    change (storeAll (store key value base) overrides).map (·.1) = _
    rw [ih once, map_fst_store, List.map_cons, List.filter_cons]
    by_cases known : key ∈ base.map (·.1)
    · simp only [known, if_true, List.append_nil, not_true_eq_false, decide_false, Bool.false_eq_true,
        if_false]
    · -- the new name is none of those that follow, so it does not keep them out
      have apart : (overrides.map (·.1)).filter (· ∉ base.map (·.1) ++ [key])
          = (overrides.map (·.1)).filter (· ∉ base.map (·.1)) := by
        apply List.filter_congr
        intro name member
        have other : name ≠ key := fun same => fresh (same ▸ member)
        simp [other]
      simp only [known, if_false, apart, not_false_eq_true, decide_true, if_true, List.append_assoc,
        List.singleton_append]

end Members

/-- The fields and namespaces of a configuration; no name occurs twice. -/
structure Configures (config fields namespaces : List (String × Json)) : Prop where
  once : (config.map (·.1)).Nodup
  fieldsOnce : (fields.map (·.1)).Nodup
  namespacesOnce : (namespaces.map (·.1)).Nodup
  fields : lookup? "fields" config = some (.object fields)
  namespaces : lookup? "namespaces" config = some (.object namespaces)
    ∨ lookup? "namespaces" config = none ∧ namespaces = []

def Json.membersOf : Json → List (String × Json)
  | .object members => members
  | _ => []

def laidOver (base : List (String × Json)) (name : String) : Json → Json
  | .object members =>
    if isCombined name then .object (storeAll (Json.setting base name).membersOf members)
    else .object members
  | v => v

theorem combinable_ok {v : Json} (known : v = .null ∨ ∃ members, v = .object members) :
    combinable v = .ok v.membersOf := by
  rcases known with rfl | ⟨members, rfl⟩
  · rfl
  · cases members with
    | nil => rfl
    | cons first members => rfl

/-- If what is combined are objects, all members are laid over those of the base in turn. -/
theorem mergeRules_eq {base : List (String × Json)}
    (known : ∀ name, isCombined name = true →
      Json.setting base name = .null ∨ ∃ members, Json.setting base name = .object members)
    (overrides : List (String × Json)) :
    mergeRules base overrides
      = .ok (storeAll base (overrides.map fun entry => (entry.1, laidOver base entry.1 entry.2))) := by
  unfold mergeRules storeAll
  rw [List.foldl_map]
  refine Eq.trans ?_ (List.foldlM_pure (m := Checked) ..)
  congr 1
  funext merged entry
  obtain ⟨name, value⟩ := entry
  cases value with
  | object members =>
    dsimp only [laidOver]
    by_cases combined : isCombined name = true
    · rw [if_pos combined, if_pos combined, combinable_ok (known name combined)]
      rfl
    · rw [if_neg combined, if_neg combined]
  | _ => rfl

namespace Configures

variable {config base overrides fields fields' namespaces namespaces' : List (String × Json)}

theorem setting_combined (configured : Configures config fields namespaces) {name : String}
    (combined : isCombined name = true) :
    Json.setting config name = .null ∨ ∃ members, Json.setting config name = .object members := by
  simp only [isCombined, Bool.or_eq_true, beq_iff_eq] at combined
  unfold Json.setting
  rcases combined with rfl | rfl
  · rw [configured.fields]
    exact .inr ⟨fields, rfl⟩
  · rcases configured.namespaces with given | ⟨absent, -⟩
    · rw [given]
      exact .inr ⟨namespaces, rfl⟩
    · rw [absent]
      exact .inl rfl

theorem membersOf_namespaces (configured : Configures config fields namespaces) :
    (Json.setting config "namespaces").membersOf = namespaces := by
  unfold Json.setting
  rcases configured.namespaces with given | ⟨absent, rfl⟩
  · rw [given]
    rfl
  · rw [absent]
    rfl

theorem merge (below : Configures base fields namespaces)
    (above : Configures overrides fields' namespaces') :
    ∃ merged, mergeRules base overrides = .ok merged
      ∧ Configures merged (storeAll fields fields') (storeAll namespaces namespaces') := by
  refine ⟨_, mergeRules_eq (fun name => below.setting_combined) overrides, ?_⟩
  have names : (overrides.map fun entry => (entry.1, laidOver base entry.1 entry.2)).map (·.1)
      = overrides.map (·.1) := by
    rw [List.map_map]
    rfl
  have found : ∀ name, lookup? name
      (storeAll base (overrides.map fun entry => (entry.1, laidOver base entry.1 entry.2)))
        = ((lookup? name overrides).map (laidOver base name) <|> lookup? name base) := by
    intro name
    rw [lookup?_storeAll (names ▸ above.once), lookup?_map]
  refine ⟨nodup_storeAll below.once, nodup_storeAll below.fieldsOnce,
    nodup_storeAll below.namespacesOnce, ?_, ?_⟩
  · have listed : (Json.setting base "fields").membersOf = fields := by
      rw [Json.setting, below.fields]
      rfl
    rw [found, above.fields, Option.map_some, laidOver, listed]
    rfl
  · rw [found]
    rcases above.namespaces with given | ⟨absent, rfl⟩
    · rw [given, Option.map_some, laidOver, below.membersOf_namespaces]
      exact .inl rfl
    · rw [absent]
      exact below.namespaces

end Configures

open FieldRule (rulesAmong)

/-- The rules that can be read for a field of a configuration. -/
def rulesOf (fields : List (String × Json)) (field : String) : List FieldRule :=
  match lookup? field fields with
  | some config => rulesAmong field config.variants
  | none => []

theorem rulesOf_cons (name : String) (config : Json) (fields : List (String × Json)) (field : String) :
    rulesOf ((name, config) :: fields) field
      = if name = field then rulesAmong field config.variants else rulesOf fields field := by
  unfold rulesOf
  rw [lookup?_cons]
  by_cases same : name = field
  · rw [if_pos same, if_pos same]
  · rw [if_neg same, if_neg same]

theorem rulesOf_of_not_mem {fields : List (String × Json)} {field : String}
    (absent : field ∉ fields.map (·.1)) : rulesOf fields field = [] := by
  rw [rulesOf, lookup?_eq_none_iff.mpr absent]

theorem lookup?_acceptedFields {fields : List (String × Json)} (once : (fields.map (·.1)).Nodup)
    (field : String) : (lookup? field (acceptedFields fields)).getD [] = rulesOf fields field := by
  induction fields with
  | nil => rfl
  | cons entry fields ih =>
    obtain ⟨name, config⟩ := entry
    obtain ⟨fresh, once⟩ := List.nodup_cons.mp once
    rw [acceptedFields_cons, rulesOf_cons]
    by_cases same : name = field
    · subst same
      rw [if_pos rfl]
      by_cases none : (rulesAmong name config.variants).isEmpty = true
      · rw [if_pos none, ih once, rulesOf_of_not_mem fresh, List.isEmpty_iff.mp none]
      · rw [if_neg none, lookup?_cons, if_pos rfl]
        rfl
    · rw [if_neg same, ← ih once]
      split
      · rfl
      · rw [lookup?_cons, if_neg same]

/-- A field that is named above has the rules from there, also if there are none. -/
theorem rulesOf_storeAll {fields fields' : List (String × Json)} (once : (fields'.map (·.1)).Nodup)
    (field : String) :
    rulesOf (storeAll fields fields') field
      = if field ∈ fields'.map (·.1) then rulesOf fields' field else rulesOf fields field := by
  unfold rulesOf
  rw [lookup?_storeAll once]
  by_cases named : field ∈ fields'.map (·.1)
  · rw [if_pos named]
    cases above : lookup? field fields' with
    | none => exact absurd named (lookup?_eq_none_iff.mp above)
    | some config => rfl
  · rw [if_neg named, lookup?_eq_none_iff.mpr named]
    rfl

theorem map_fst_acceptedFields {fields : List (String × Json)} (once : (fields.map (·.1)).Nodup) :
    (acceptedFields fields).map (·.1)
      = (fields.map (·.1)).filter fun field => !(rulesOf fields field).isEmpty := by
  induction fields with
  | nil => rfl
  | cons entry fields ih =>
    obtain ⟨name, config⟩ := entry
    obtain ⟨fresh, once⟩ := List.nodup_cons.mp once
    have later : (fields.map (·.1)).filter (fun field => !(rulesOf ((name, config) :: fields) field).isEmpty)
        = (fields.map (·.1)).filter fun field => !(rulesOf fields field).isEmpty := by
      apply List.filter_congr
      intro field member
      have other : name ≠ field := fun same => fresh (same ▸ member)
      rw [rulesOf_cons, if_neg other]
    rw [acceptedFields_cons, List.map_cons, List.filter_cons, later, rulesOf_cons, if_pos rfl, ← ih once]
    cases (rulesAmong name config.variants).isEmpty with
    | true => rfl
    | false => rfl

namespace RuleSet

variable {config base overrides fields fields' namespaces namespaces' : List (String × Json)}

theorem ofJson_ok_iff (configured : Configures config fields namespaces) {s : RuleSet} :
    ofJson (.object config) = .ok s
      ↔ (∀ entry ∈ fields, IsReadable entry) ∧ s.fields = acceptedFields fields
        ∧ s.namespaces = namespaces.map fun entry => (entry.1, entry.2.display) := by
  have listed : (Json.object config).member "fields" = .object fields := by
    rw [Json.member, Json.member?, configured.fields]
    rfl
  have marks : readNamespaces ((Json.object config).member "namespaces")
      = .ok (namespaces.map fun entry => (entry.1, entry.2.display)) := by
    rw [Json.member, Json.member?]
    rcases configured.namespaces with given | ⟨absent, rfl⟩
    · rw [given]
      cases namespaces with
      | nil => rfl
      | cons first namespaces => rfl
    · rw [absent]
      rfl
  rw [ofJson_eq listed, marks]
  constructor
  · intro ran
    obtain ⟨accepted, read, ran⟩ := Checked.bind_ok ran
    cases ran
    obtain ⟨readable, same⟩ := readFields_ok_iff.mp read
    exact ⟨readable, same, rfl⟩
  · rintro ⟨readable, same, marks⟩
    rw [readFields_ok_iff.mpr ⟨readable, rfl⟩]
    obtain ⟨_, _⟩ := s
    cases same
    cases marks
    rfl

theorem rulesFor_of_ofJson (configured : Configures config fields namespaces) {s : RuleSet}
    (read : ofJson (.object config) = .ok s) (field : String) :
    s.rulesFor field = rulesOf fields field := by
  rw [rulesFor, ((ofJson_ok_iff configured).mp read).2.1, lookup?_acceptedFields configured.fieldsOnce]

/-- Rules laid over others: a field that is named inline has the inline rules, also if there are none, and
each other field has the rules below. The fields that have a rule stand in the order below, and those
that are only named inline behind them. A namespace that is bound inline is the inline one. -/
theorem ofJson_mergeRules (below : Configures base fields namespaces)
    (above : Configures overrides fields' namespaces') {lower upper : RuleSet}
    (readBelow : ofJson (.object base) = .ok lower)
    (readAbove : ofJson (.object overrides) = .ok upper) :
    ∃ merged s, mergeRules base overrides = .ok merged ∧ ofJson (.object merged) = .ok s
      ∧ (∀ field, s.rulesFor field
          = if field ∈ fields'.map (·.1) then upper.rulesFor field else lower.rulesFor field)
      ∧ s.names = (fields.map (·.1) ++ (fields'.map (·.1)).filter (· ∉ fields.map (·.1))).filter
          (fun field => !(s.rulesFor field).isEmpty)
      ∧ ∀ mark, lookup? mark s.namespaces
          = (lookup? mark upper.namespaces <|> lookup? mark lower.namespaces) := by
  obtain ⟨merged, ran, configured⟩ := below.merge above
  obtain ⟨readableBelow, -, marksBelow⟩ := (ofJson_ok_iff below).mp readBelow
  obtain ⟨readableAbove, -, marksAbove⟩ := (ofJson_ok_iff above).mp readAbove
  let s : RuleSet :=
    { fields := acceptedFields (storeAll fields fields')
      namespaces := (storeAll namespaces namespaces').map fun entry => (entry.1, entry.2.display) }
  -- Each field of the merged configuration is one of the two as it was, so it can be read.
  have read : ofJson (.object merged) = .ok s := by
    refine (ofJson_ok_iff configured).mpr ⟨fun entry member => ?_, rfl, rfl⟩
    rcases of_mem_storeAll member with below | above
    · exact readableBelow entry below
    · exact readableAbove entry above
  have rules : ∀ field, s.rulesFor field = rulesOf (storeAll fields fields') field :=
    rulesFor_of_ofJson configured read
  refine ⟨merged, s, ran, read, fun field => ?_, ?_, fun mark => ?_⟩
  · rw [rules, rulesOf_storeAll above.fieldsOnce, rulesFor_of_ofJson above readAbove,
      rulesFor_of_ofJson below readBelow]
  · simp only [rules]
    rw [names, map_fst_acceptedFields configured.fieldsOnce, map_fst_storeAll above.fieldsOnce]
  · rw [marksAbove, marksBelow, lookup?_map (fun _ => Json.display),
      lookup?_map (fun _ => Json.display), lookup?_map (fun _ => Json.display),
      lookup?_storeAll above.namespacesOnce]
    cases lookup? mark namespaces' with
    | none => rfl
    | some uri => rfl

section Inline

/-- Rules of three fields, of which the last has none that can be read. -/
def sharedFields : List (String × Json) := [("A", pathRule "x"), ("B", pathRule "y"), ("C", emptyRule)]

/-- A new field, a rule for the last of the shared fields, and nothing that can be read for the first. -/
def inlineFields : List (String × Json) := [("D", pathRule "z"), ("C", pathRule "w"), ("A", emptyRule)]

def sharedMarks : List (String × Json) := [("a", .text "urn:a"), ("b", .text "urn:b")]

def sharedRules : List (String × Json) :=
  [("namespaces", .object sharedMarks), ("fields", .object sharedFields)]

def inlineRules : List (String × Json) :=
  [("fields", .object inlineFields), ("namespaces", .object [("b", .text "urn:c")])]

theorem ofJson_mergeRules_inline :
    ∃ merged s, mergeRules sharedRules inlineRules = .ok merged ∧ ofJson (.object merged) = .ok s
      ∧ s.names = ["B", "C", "D"] ∧ s.rulesFor "A" = []
      ∧ lookup? "a" s.namespaces = some "urn:a" ∧ lookup? "b" s.namespaces = some "urn:c" := by
  have below : Configures sharedRules sharedFields sharedMarks :=
    ⟨by decide, by decide, by decide, rfl, .inl rfl⟩
  have above : Configures inlineRules inlineFields [("b", .text "urn:c")] :=
    ⟨by decide, by decide, by decide, rfl, .inl rfl⟩
  obtain ⟨lower, readBelow⟩ : ∃ s, ofJson (.object sharedRules) = .ok s :=
    Checked.exists_map_ok.mp ⟨["A", "B"],
      (by decide +kernel : (ofJson (.object sharedRules)).map names = .ok ["A", "B"])⟩
  obtain ⟨upper, readAbove⟩ : ∃ s, ofJson (.object inlineRules) = .ok s :=
    Checked.exists_map_ok.mp ⟨["D", "C"],
      (by decide +kernel : (ofJson (.object inlineRules)).map names = .ok ["D", "C"])⟩
  obtain ⟨merged, s, ran, read, rules, named, marks⟩ :=
    ofJson_mergeRules below above readBelow readAbove
  obtain ⟨-, -, marksBelow⟩ := (ofJson_ok_iff below).mp readBelow
  obtain ⟨-, -, marksAbove⟩ := (ofJson_ok_iff above).mp readAbove
  simp only [rulesFor_of_ofJson below readBelow, rulesFor_of_ofJson above readAbove] at rules
  simp only [rules] at named
  rw [marksBelow, marksAbove] at marks
  refine ⟨merged, s, ran, read, named.trans ?_, ?_, ?_, ?_⟩
  · decide +kernel
  · rw [rules]
    exact List.isEmpty_iff.mp (by decide +kernel)
  · exact (marks "a").trans (by decide +kernel)
  · exact (marks "b").trans (by decide +kernel)

end Inline

end RuleSet

end MetadataIndex
