import MetadataIndex.Authority.Fields
import MetadataIndex.Proofs.Effect.Comparison
import MetadataIndex.Proofs.Field.Written

/-!
# What becomes of the entries of a record

Each relevant entry is written under its key, and what is derived from it under names of a few shapes.
Choosing values in the language of the group is apart from copying each field uncut: of a name that has
values in that language only these are left, and of any other name everything is.
-/

set_option autoImplicit false

namespace MetadataIndex

/-- A text is cut at the first of its occurrences of a literal. -/
theorem Text.cut?_append {p : List Char} (before after : List Char) :
    ∃ first rest, cut? p (before ++ p ++ after) = some (first, rest) ∧ after.length ≤ rest.length := by
  induction before with
  | nil =>
    have found : dropLiteral? p (p ++ after) = some after := dropLiteral?_eq_some_iff.mpr rfl
    refine ⟨[], after, ?_, Nat.le_refl _⟩
    rw [List.nil_append]
    cases whole : p ++ after with
    | nil =>
      obtain ⟨rfl, rfl⟩ := List.append_eq_nil_iff.mp whole
      rfl
    | cons c cs => rw [cut?, ← whole, found]
  | cons c before ih =>
    rw [List.cons_append, List.cons_append, cut?]
    cases found : dropLiteral? p (c :: (before ++ p ++ after)) with
    | some rest =>
      have lengths := congrArg List.length (dropLiteral?_eq_some_iff.mp found)
      simp only [List.length_cons, List.length_append] at lengths
      exact ⟨[], rest, rfl, by omega⟩
    | none =>
      obtain ⟨first, rest, cut, longer⟩ := ih
      exact ⟨c :: first, rest, by rw [cut, Option.map_some], longer⟩

namespace Field

variable {name : String} {f : Field} {fields : List Field}

theorem valuesOf_cons_of_eq (same : f.name = name) :
    valuesOf name (f :: fields) = f.value :: valuesOf name fields := by
  simp [valuesOf, same]

theorem valuesOf_cons_of_ne (other : f.name ≠ name) :
    valuesOf name (f :: fields) = valuesOf name fields := by
  simp [valuesOf, other]

end Field

section Languages

variable {name ending l : String}

theorem exists_append_of_languageOf? (spoken : languageOf? name = some l) :
    ∃ before a b, name.toList = before ++ FieldName.languageMark.toList ++ [a, b] := by
  unfold languageOf? at spoken
  split at spoken
  case h_1 before a b cut => exact ⟨before, a, b, Text.eq_append_of_cut? cut⟩
  case h_2 => cases spoken

theorem contains_of_languageOf? (spoken : languageOf? name = some l) :
    Text.containsLiteral name FieldName.languageMark = true := by
  obtain ⟨before, a, b, split⟩ := exists_append_of_languageOf? spoken
  exact Text.containsLiteral_iff.mpr ⟨before, [a, b], split.symm⟩

/-- In a name with a language, the mark ends with the third character from the end. -/
theorem languageOf?_append_eq_none {c : Char} (name : String)
    (third : ending.toList.reverse[2]? = some c) (other : c ≠ '_') :
    languageOf? (name ++ ending) = none := by
  refine Option.eq_none_iff_forall_ne_some.mpr fun l spoken => other ?_
  obtain ⟨before, a, b, split⟩ := exists_append_of_languageOf? spoken
  have same : (name ++ ending).toList.reverse[2]? = some '_' := by
    rw [split]
    simp [FieldName.languageMark]
  obtain ⟨bound, -⟩ := List.getElem?_eq_some_iff.mp third
  rw [String.toList_append, List.reverse_append, List.getElem?_append_left bound, third] at same
  exact Option.some.inj same

@[simp] theorem languageOf?_untokenized (name : String) :
    languageOf? (FieldName.untokenized name) = none :=
  languageOf?_append_eq_none (c := 'Z') name rfl (by decide)

/-- Only the first mark counts, and a language is all that stands after it. -/
theorem languageOf?_marked_eq_none (marked : Text.containsLiteral name FieldName.languageMark = true) :
    languageOf? (name ++ FieldName.languageMark ++ l) = none := by
  obtain ⟨before, after, split⟩ := Text.containsLiteral_iff.mp marked
  have whole : (name ++ FieldName.languageMark ++ l).toList
      = before ++ FieldName.languageMark.toList ++ (after ++ FieldName.languageMark.toList ++ l.toList) := by
    simp [← split]
  obtain ⟨first, rest, cut, longer⟩ :=
    Text.cut?_append (p := FieldName.languageMark.toList) before
      (after ++ FieldName.languageMark.toList ++ l.toList)
  have long : FieldName.languageMark.toList.length ≤ rest.length := by
    simp only [List.length_append] at longer
    omega
  unfold languageOf?
  rw [whole, cut]
  split
  case h_1 a b same =>
    cases same
    exact absurd (Nat.le_trans (by decide : 3 ≤ FieldName.languageMark.toList.length) long)
      (by simp)
  case h_2 => rfl

end Languages

namespace AuthorityFields

variable {s : AuthorityStyle} {t t' : AuthorityTexts} {language : Option String}

/-- An entry as it is written: under its key, composed and with the replacements made. -/
structure Prepared (s : AuthorityStyle) (entry : String × String) (f : Field) : Prop where
  name : f.name = entry.1
  value : ReplaceRule.applyAll s.replaceRules (Text.composed entry.2) = .ok f.value

theorem prepare_ok {entries : List (String × String)} {prepared : List Field}
    (ran : prepare s entries t = .ok prepared t') :
    List.Forall₂ (Prepared s) (entries.filter isRelevant) prepared := by
  unfold prepare at ran
  generalize entries.filter isRelevant = relevant at ran
  induction relevant generalizing t prepared with
  | nil =>
    cases ran
    exact .nil
  | cons entry relevant ih =>
    obtain ⟨key, text⟩ := entry
    rw [List.mapM_cons] at ran
    obtain ⟨f, _, head, ran⟩ := Action.bind_ok ran
    obtain ⟨rest, _, tail, ran⟩ := Action.bind_ok ran
    cases ran
    obtain ⟨value, _, lifted, head⟩ := Action.bind_ok head
    obtain ⟨_, _, -, head⟩ := Action.bind_ok head
    cases head
    exact .cons ⟨rfl, (Action.lift_ok lifted).1⟩ (ih tail)

theorem startsWith_of_prepared {entries : List (String × String)} {prepared : List Field}
    (done : List.Forall₂ (Prepared s) (entries.filter isRelevant) prepared) {f : Field}
    (member : f ∈ prepared) : Text.startsWith f.name FieldName.normMark = true := by
  obtain ⟨entry, relevant, given⟩ := exists_of_forall₂ done f member
  have kept := (List.mem_filter.mp relevant).2
  simp only [isRelevant, Bool.and_eq_true] at kept
  rw [given.name]
  exact kept.1.1

theorem ofEntries_ok {entries : List (String × String)} {fields : List Field}
    (ran : ofEntries s entries t = .ok fields t') :
    entries = [] ∧ fields = [] ∨
      ∃ prepared, List.Forall₂ (Prepared s) (entries.filter isRelevant) prepared
        ∧ fields = ofPrepared s prepared := by
  unfold ofEntries at ran
  split at ran
  case isTrue none =>
    cases ran
    exact .inl ⟨List.isEmpty_iff.mp none, rfl⟩
  case isFalse =>
    obtain ⟨prepared, _, done, ran⟩ := Action.bind_ok ran
    cases ran
    exact .inr ⟨prepared, prepare_ok done, rfl⟩

section Searched

variable {ending plain : String} {sort always : String → Bool} {earlier entries : List Field} {f : Field}

/-- The fields that a value is found by. -/
def foundAs (s : AuthorityStyle) (ending plain value : String) : List Field :=
  s.searchFields ending value ++ [⟨FieldName.untokenized plain, value⟩]

/-- The names of the fields that a value is found by. -/
def IsFoundName (s : AuthorityStyle) (ending plain name : String) : Prop :=
  (∃ label, s.label? = some label ∧ name = label ++ ending) ∨ name = FieldName.untokenized plain

theorem mem_searchFields {value : String} :
    f ∈ s.searchFields ending value
      ↔ ∃ label, s.label? = some label ∧ f = ⟨label ++ ending, value⟩ := by
  simp [AuthorityStyle.searchFields, eq_comm]

theorem mem_foundAs {value : String} :
    f ∈ foundAs s ending plain value ↔ IsFoundName s ending plain f.name ∧ f.value = value := by
  obtain ⟨name, v⟩ := f
  rw [foundAs, List.mem_append, mem_searchFields, List.mem_singleton]
  simp only [IsFoundName, Field.mk.injEq]
  constructor
  · rintro (⟨label, named, rfl, rfl⟩ | ⟨rfl, rfl⟩)
    · exact ⟨.inl ⟨label, named, rfl⟩, rfl⟩
    · exact ⟨.inr rfl, rfl⟩
  · rintro ⟨⟨label, named, rfl⟩ | rfl, rfl⟩
    · exact .inl ⟨label, named, rfl, rfl⟩
    · exact .inr ⟨rfl, rfl⟩

theorem mem_flatMap_foundAs {values : List String} :
    f ∈ values.flatMap (foundAs s ending plain)
      ↔ IsFoundName s ending plain f.name ∧ f.value ∈ values := by
  rw [List.mem_flatMap]
  constructor
  · rintro ⟨v, found, member⟩
    obtain ⟨named, rfl⟩ := mem_foundAs.mp member
    exact ⟨named, found⟩
  · exact fun ⟨named, found⟩ => ⟨f.value, found, mem_foundAs.mpr ⟨named, rfl⟩⟩

theorem contains_label {label language : String} (named : s.label? = some label)
    (spoken : s.language? = some language) (ending : String) :
    Text.containsLiteral (label ++ ending) FieldName.languageMark = true := by
  rw [AuthorityStyle.language?, named, Option.bind_eq_bind, Option.bind_some] at spoken
  have inside := Text.containsLiteral_iff.mp (contains_of_languageOf? spoken)
  rw [Text.containsLiteral_iff, String.toList_append]
  exact inside.trans (List.prefix_append _ _).isInfix

theorem untokenized_injective {first second : String}
    (same : FieldName.untokenized first = FieldName.untokenized second) : first = second :=
  (String.append_left_inj _).mp same

theorem untokenized_ne {name other : String} (last : other.toList.getLast? ≠ some 'D') :
    FieldName.untokenized name ≠ other := by
  rintro rfl
  exact last (by simp [FieldName.untokenized])

theorem eq_of_isFoundName_untokenized {name : String} (last : ending.toList.getLast? = some 'H')
    (found : IsFoundName s ending plain (FieldName.untokenized name)) : name = plain := by
  rcases found with ⟨label, -, same⟩ | same
  · refine absurd same (untokenized_ne ?_)
    rw [String.toList_append, List.getLast?_append, last, Option.some_or]
    decide
  · exact untokenized_injective same

/-- A field of a sort has a value. -/
def HasValue (sort : String → Bool) (fields : List Field) (v : String) : Prop :=
  ∃ f ∈ fields, sort f.name = true ∧ f.value = v

theorem hasValue_cons {v : String} :
    HasValue sort (f :: entries) v ↔ sort f.name = true ∧ f.value = v ∨ HasValue sort entries v :=
  List.exists_mem_cons_iff _ _ _

/-- Whether no earlier entry of a sort has the value of an entry. -/
def isNew (sort : String → Bool) (earlier : List Field) (f : Field) : Bool :=
  !earlier.any fun e => sort e.name && e.value == f.value

theorem isNew_iff : isNew sort earlier f = true ↔ ¬HasValue sort earlier f.value := by
  simp [isNew, HasValue]

/-- The value of an entry of a sort if it is new; some keys of the sort are found always. -/
def newValue (sort always : String → Bool) (earlier : List Field) (f : Field) : List String :=
  if always f.name || (sort f.name && isNew sort earlier f) then [f.value] else []

def searched (sort always : String → Bool) : List Field → List Field → List String
  | _, [] => []
  | earlier, f :: more => newValue sort always earlier f ++ searched sort always (f :: earlier) more

theorem isPlace_eq_false_of_isName {key : String} (named : isName key = true) :
    isPlace key = false := by
  refine Bool.eq_false_iff.mpr fun placed => ?_
  rw [isPlace, Text.startsWith, Text.beginsWith_iff] at placed
  rw [isName, isNameVariant, Bool.or_eq_true, Bool.or_eq_true, beq_iff_eq, Text.startsWith,
    Text.startsWith, Text.beginsWith_iff, Text.beginsWith_iff] at named
  have apart (p : List Char) (begins : p <+: key.toList) :
      p <+: FieldName.normPlace.toList ∨ FieldName.normPlace.toList <+: p :=
    List.prefix_or_prefix_of_prefix begins placed
  rcases named with rfl | begins | begins
  · exact absurd placed (by decide)
  · exact absurd (apart _ begins) (by decide)
  · exact absurd (apart _ begins) (by decide)

theorem nameFields_eq_ite (s : AuthorityStyle) (earlier : List Field) (f : Field) :
    nameFields s earlier f
      = if f.name == FieldName.normName || (isNameVariant f.name && isNew isName earlier f) then
          foundAs s "_NAME_SEARCH" FieldName.normName f.value
        else if isPlace f.name && isNew isPlace earlier f then
          foundAs s "_PLACE_SEARCH" FieldName.normPlace f.value
        else [] :=
  rfl

/-- No entry is found both as a name and as a place. -/
theorem nameFields_eq (s : AuthorityStyle) (earlier : List Field) (f : Field) :
    nameFields s earlier f
      = (newValue isName (· == FieldName.normName) earlier f).flatMap
          (foundAs s "_NAME_SEARCH" FieldName.normName)
        ++ (newValue isPlace (fun _ => false) earlier f).flatMap
          (foundAs s "_PLACE_SEARCH" FieldName.normPlace) := by
  rw [nameFields_eq_ite, newValue, newValue]
  cases named : isName f.name with
  | true =>
    have place := isPlace_eq_false_of_isName named
    rw [isName] at named
    cases main : f.name == FieldName.normName with
    | true => simp [place]
    | false =>
      rw [main, Bool.false_or] at named
      cases isNew isName earlier f with
      | true => simp [named, place]
      | false => simp [place]
  | false =>
    obtain ⟨main, variant⟩ := Bool.or_eq_false_iff.mp named
    cases isPlace f.name && isNew isPlace earlier f with
    | true => simp [main, variant]
    | false => simp [main, variant]

theorem withNameFields_cons (earlier : List Field) (f : Field) (more : List Field) :
    withNameFields s earlier (f :: more)
      = f :: (nameFields s earlier f ++ withNameFields s (f :: earlier) more) := by
  rw [withNameFields, List.cons_append]

theorem mem_newValue (sorted : ∀ key, always key = true → sort key = true) {v : String} :
    v ∈ newValue sort always earlier f ∨ HasValue sort earlier v ↔ HasValue sort (f :: earlier) v := by
  rw [hasValue_cons]
  refine ⟨?_, ?_⟩
  · rintro (made | before)
    · unfold newValue at made
      split at made
      case isTrue holds =>
        rw [Bool.or_eq_true, Bool.and_eq_true] at holds
        exact .inl ⟨holds.elim (sorted _) And.left, (List.mem_singleton.mp made).symm⟩
      case isFalse => cases made
    · exact .inr before
  · rintro (⟨ofSort, rfl⟩ | before)
    · by_cases known : HasValue sort earlier f.value
      · exact .inr known
      · left
        rw [newValue, ofSort, isNew_iff.mpr known]
        simp
    · exact .inr before

theorem mem_searched_or (sorted : ∀ key, always key = true → sort key = true) {v : String} :
    v ∈ searched sort always earlier entries ∨ HasValue sort earlier v
      ↔ HasValue sort entries v ∨ HasValue sort earlier v := by
  induction entries generalizing earlier with
  | nil => simp [searched, HasValue]
  | cons f more ih =>
    rw [searched, List.mem_append]
    calc (v ∈ newValue sort always earlier f ∨ v ∈ searched sort always (f :: earlier) more)
          ∨ HasValue sort earlier v
        ↔ v ∈ searched sort always (f :: earlier) more
            ∨ v ∈ newValue sort always earlier f ∨ HasValue sort earlier v := by
          rw [or_comm (a := v ∈ newValue sort always earlier f), or_assoc]
      _ ↔ HasValue sort more v ∨ HasValue sort (f :: earlier) v := by
          rw [mem_newValue sorted]
          exact ih
      _ ↔ HasValue sort (f :: more) v ∨ HasValue sort earlier v := by
          rw [hasValue_cons, hasValue_cons, or_left_comm, or_assoc]

theorem mem_searched (sorted : ∀ key, always key = true → sort key = true) {v : String} :
    v ∈ searched sort always [] entries ↔ HasValue sort entries v := by
  have none : ¬HasValue sort [] v := nofun
  have found : v ∈ searched sort always [] entries ∨ HasValue sort [] v
      ↔ HasValue sort entries v ∨ HasValue sort [] v := mem_searched_or sorted
  rwa [or_iff_left none, or_iff_left none] at found

theorem mem_withNameFields :
    f ∈ withNameFields s earlier entries ↔ f ∈ entries
      ∨ IsFoundName s "_NAME_SEARCH" FieldName.normName f.name
        ∧ f.value ∈ searched isName (· == FieldName.normName) earlier entries
      ∨ IsFoundName s "_PLACE_SEARCH" FieldName.normPlace f.name
        ∧ f.value ∈ searched isPlace (fun _ => false) earlier entries := by
  induction entries generalizing earlier with
  | nil => simp [withNameFields, searched]
  | cons e more ih =>
    rw [withNameFields_cons, List.mem_cons, List.mem_append, ih, nameFields_eq, List.mem_append,
      mem_flatMap_foundAs, mem_flatMap_foundAs, searched, searched, List.mem_append, List.mem_append,
      and_or_left, and_or_left, List.mem_cons]
    refine Iff.of_eq ?_
    ac_rfl

theorem mem_withNameFields_of_name {name : String} (entry : f ∈ entries)
    (ofName : isName f.name = true) (found : IsFoundName s "_NAME_SEARCH" FieldName.normName name) :
    ⟨name, f.value⟩ ∈ withNameFields s [] entries := by
  have value : HasValue isName entries f.value := ⟨f, entry, ofName, rfl⟩
  rw [mem_withNameFields]
  exact .inr (.inl ⟨found, (mem_searched (by simp [isName])).mpr value⟩)

theorem mem_withNameFields_of_place {name : String} (entry : f ∈ entries)
    (ofPlace : isPlace f.name = true) (found : IsFoundName s "_PLACE_SEARCH" FieldName.normPlace name) :
    ⟨name, f.value⟩ ∈ withNameFields s [] entries := by
  have value : HasValue isPlace entries f.value := ⟨f, entry, ofPlace, rfl⟩
  rw [mem_withNameFields]
  exact .inr (.inr ⟨found, (mem_searched (by simp)).mpr value⟩)

end Searched

section Derived

variable {e f : Field}

theorem mem_dateFields {value : String} : f ∈ dateFields s value
    ↔ IsFoundName s "_DATE_SEARCH" FieldName.normDate f.name
      ∧ ∃ date ∈ Text.splitAtLiteral "-" value, f.value = Text.trim date := by
  rw [dateFields, List.mem_flatMap]
  constructor
  · rintro ⟨date, part, member⟩
    obtain ⟨named, same⟩ := mem_foundAs.mp member
    exact ⟨named, date, part, same⟩
  · rintro ⟨named, date, part, same⟩
    exact ⟨date, part, mem_foundAs.mpr ⟨named, same⟩⟩

theorem mem_coordinateFields {value : String} (member : f ∈ coordinateFields value) :
    f.name = FieldName.wktCoords
        ∧ (Geo.convert value (Geo.guessKind value) " ").wkt = some f.value
      ∨ f.name = FieldName.normCoordsGeoJson
        ∧ (Geo.convert value (Geo.guessKind value) " ").geojson = some f.value := by
  unfold coordinateFields at member
  rcases List.mem_append.mp member with wkt | geojson
  · obtain ⟨text, given, rfl⟩ := List.mem_map.mp wkt
    exact .inl ⟨rfl, Option.mem_toList.mp given⟩
  · obtain ⟨text, given, rfl⟩ := List.mem_map.mp geojson
    exact .inr ⟨rfl, Option.mem_toList.mp given⟩

theorem mem_derivedFields : f ∈ derivedFields s e
    ↔ e.name = FieldName.normLifePeriod ∧ f ∈ dateFields s e.value
      ∨ e.name = FieldName.normCoords ∧ f ∈ coordinateFields e.value := by
  have apart : FieldName.normLifePeriod ≠ FieldName.normCoords := by decide
  unfold derivedFields
  simp only [beq_iff_eq]
  split
  case isTrue period => simp [period, apart]
  case isFalse period =>
    split
    case isTrue coords => simp [coords, apart.symm]
    case isFalse coords => simp [period, coords]

theorem name_of_mem_derivedFields (member : f ∈ derivedFields s e) :
    e.name = FieldName.normLifePeriod ∧ IsFoundName s "_DATE_SEARCH" FieldName.normDate f.name
      ∨ e.name = FieldName.normCoords
        ∧ (f.name = FieldName.wktCoords ∨ f.name = FieldName.normCoordsGeoJson) := by
  rcases mem_derivedFields.mp member with ⟨period, date⟩ | ⟨coords, place⟩
  · exact .inl ⟨period, (mem_dateFields.mp date).1⟩
  · exact .inr ⟨coords, (mem_coordinateFields place).imp And.left And.left⟩

end Derived

section Chosen

variable {entries : List Field}

theorem mem_preferredValues {name v : String} (member : v ∈ preferredValues language entries name) :
    ∃ l e, language = some l ∧ languageOf? name = none ∧ e ∈ entries ∧ e.value = v
      ∧ (languageOf? e.name).isSome = true
      ∧ e.name = name ++ FieldName.languageMark ++ Text.upper l := by
  unfold preferredValues at member
  split at member
  case h_1 l plain =>
    have found := Field.mem_valuesOf.mp member
    obtain ⟨given, spoken⟩ := List.mem_filter.mp found
    exact ⟨l, _, rfl, plain, given, rfl, spoken, rfl⟩
  case h_2 => cases member

theorem preferredValues_of_contains {name : String}
    (marked : Text.containsLiteral name FieldName.languageMark = true) :
    preferredValues language entries name = [] := by
  refine List.eq_nil_iff_forall_not_mem.mpr fun v member => ?_
  obtain ⟨l, e, -, -, -, -, spoken, named⟩ := mem_preferredValues member
  rw [named, languageOf?_marked_eq_none marked] at spoken
  cases spoken

/-- No values in a language take the place of those that a group finds a record by. -/
theorem preferredValues_label {label ending : String} (named : s.label? = some label) :
    preferredValues s.language? entries (label ++ ending) = [] := by
  cases spoken : s.language? with
  | none => rfl
  | some language => exact preferredValues_of_contains (contains_label named spoken ending)

/-- The fields with the values in the language of the group in the place of those that have others,
before each is copied uncut. -/
def chosen (language : Option String) (entries : List Field) : List String → List Field → List Field
  | _, [] => []
  | replaced, f :: more =>
    if f.name ∈ replaced then chosen language entries replaced more
    else if preferredValues language entries f.name = [] then
      f :: chosen language entries replaced more
    else
      (preferredValues language entries f.name).map (⟨f.name, ·⟩)
        ++ chosen language entries (f.name :: replaced) more

theorem inLanguage_eq (replaced : List String) (fields : List Field) :
    inLanguage language entries replaced fields
      = (chosen language entries replaced fields).flatMap withUntokenized := by
  induction fields generalizing replaced with
  | nil => rfl
  | cons f fields ih =>
    rw [inLanguage, chosen]
    split
    case isTrue done => rw [if_pos (List.contains_iff_mem.mp done), ih]
    case isFalse new =>
      rw [if_neg fun done => new (List.contains_iff_mem.mpr done)]
      split
      case h_1 none => rw [if_pos none, List.flatMap_cons, ih]
      case h_2 some => rw [if_neg some, List.flatMap_append, List.flatMap_map, ih]

/-- Of a name with values in the language of the group only these are left, and all of any other. -/
theorem valuesOf_chosen (name : String) (replaced : List String) (fields : List Field) :
    Field.valuesOf name (chosen language entries replaced fields)
      = if name ∈ replaced then []
        else if preferredValues language entries name = [] then Field.valuesOf name fields
        else if Field.valuesOf name fields = [] then []
        else preferredValues language entries name := by
  induction fields generalizing replaced with
  | nil => simp [chosen, Field.valuesOf]
  | cons f fields ih =>
    rw [chosen]
    by_cases same : f.name = name
    · subst same
      split
      case isTrue done => rw [ih, if_pos done]
      case isFalse new =>
        split
        case isTrue none =>
          rw [Field.valuesOf_cons_of_eq rfl, ih, if_neg new, if_pos none,
            Field.valuesOf_cons_of_eq rfl]
        case isFalse =>
          rw [Field.valuesOf_append, Field.valuesOf_map, if_pos rfl, ih, if_pos (.head _),
            Field.valuesOf_cons_of_eq rfl, List.append_nil, if_neg (List.cons_ne_nil _ _)]
    · rw [Field.valuesOf_cons_of_ne same]
      split
      case isTrue => exact ih replaced
      case isFalse =>
        split
        case isTrue => rw [Field.valuesOf_cons_of_ne same, ih]
        case isFalse =>
          rw [Field.valuesOf_append, Field.valuesOf_map, if_neg same, ih, List.nil_append]
          simp only [List.mem_cons, Ne.symm same, false_or]

theorem mem_chosen {f : Field} {fields : List Field} :
    f ∈ chosen language entries [] fields
      ↔ preferredValues language entries f.name = [] ∧ f ∈ fields
        ∨ f.value ∈ preferredValues language entries f.name ∧ ∃ g ∈ fields, g.name = f.name := by
  have values : Field.valuesOf f.name (chosen language entries [] fields) = _ :=
    valuesOf_chosen f.name [] fields
  have member : f ∈ chosen language entries [] fields
      ↔ f.value ∈ Field.valuesOf f.name (chosen language entries [] fields) := Field.mem_valuesOf.symm
  rw [if_neg List.not_mem_nil] at values
  rw [member, values]
  by_cases none : preferredValues language entries f.name = []
  · simp [none, Field.mem_valuesOf]
  · simp only [none, if_false, false_and, false_or]
    by_cases absent : Field.valuesOf f.name fields = []
    · have other := Field.valuesOf_eq_nil_iff.mp absent
      simp only [absent, if_true, List.not_mem_nil, false_iff, not_and]
      rintro - ⟨g, member, same⟩
      exact other g member same
    · have given : ∃ g ∈ fields, g.name = f.name := by
        simpa [Field.valuesOf_eq_nil_iff] using absent
      simp [absent, given]

theorem name_of_mem_chosen {f : Field} {fields : List Field}
    (member : f ∈ chosen language entries [] fields) : ∃ g ∈ fields, g.name = f.name := by
  rcases mem_chosen.mp member with ⟨-, given⟩ | ⟨-, given⟩
  · exact ⟨f, given, rfl⟩
  · exact given

end Chosen

section Uncut

variable {name : String} {f : Field} {fields : List Field}

theorem mem_uncut : f ∈ fields.flatMap withUntokenized
    ↔ ∃ g ∈ fields, f.value = g.value ∧ (f.name = g.name ∨ f.name = FieldName.untokenized g.name) := by
  obtain ⟨name, value⟩ := f
  rw [List.mem_flatMap]
  refine exists_congr fun g => and_congr_right fun _ => ?_
  obtain ⟨name', value'⟩ := g
  simp only [withUntokenized, List.mem_cons, List.not_mem_nil, or_false, Field.mk.injEq]
  rw [← or_and_right, and_comm]

theorem valuesOf_uncut (other : ∀ f ∈ fields, FieldName.untokenized f.name ≠ name) :
    Field.valuesOf name (fields.flatMap withUntokenized) = Field.valuesOf name fields := by
  induction fields with
  | nil => rfl
  | cons f fields ih =>
    obtain ⟨copy, rest⟩ := List.forall_mem_cons.mp other
    rw [List.flatMap_cons, withUntokenized, List.cons_append, List.cons_append, List.nil_append]
    by_cases same : f.name = name
    · rw [Field.valuesOf_cons_of_eq same, Field.valuesOf_cons_of_ne copy, ih rest,
        Field.valuesOf_cons_of_eq same]
    · rw [Field.valuesOf_cons_of_ne same, Field.valuesOf_cons_of_ne copy, ih rest,
        Field.valuesOf_cons_of_ne same]

theorem valuesOf_untokenized_uncut (other : ∀ f ∈ fields, f.name ≠ FieldName.untokenized name) :
    Field.valuesOf (FieldName.untokenized name) (fields.flatMap withUntokenized)
      = Field.valuesOf name fields := by
  induction fields with
  | nil => rfl
  | cons f fields ih =>
    obtain ⟨whole, rest⟩ := List.forall_mem_cons.mp other
    rw [List.flatMap_cons, withUntokenized, List.cons_append, List.cons_append, List.nil_append,
      Field.valuesOf_cons_of_ne whole]
    by_cases same : f.name = name
    · rw [Field.valuesOf_cons_of_eq (congrArg FieldName.untokenized same), ih rest,
        Field.valuesOf_cons_of_eq same]
    · rw [Field.valuesOf_cons_of_ne fun copy => same (untokenized_injective copy), ih rest,
        Field.valuesOf_cons_of_ne same]

end Uncut

/-- The entries without a language or in that of the group. -/
def understood (s : AuthorityStyle) (prepared : List Field) : List Field :=
  prepared.filter (isUnderstood s.language?)

theorem mem_prepared_of_understood {f : Field} {prepared : List Field}
    (member : f ∈ understood s prepared) : f ∈ prepared :=
  List.mem_of_mem_filter member

/-- The fields of a record before they are copied, apart from what is made of dates and places on
the map. -/
def shown (s : AuthorityStyle) (prepared : List Field) : List Field :=
  chosen s.language? (understood s prepared) [] (withNameFields s [] (understood s prepared))

theorem ofPrepared_eq (s : AuthorityStyle) (prepared : List Field) :
    ofPrepared s prepared
      = (understood s prepared).flatMap (derivedFields s)
        ++ (shown s prepared).flatMap withUntokenized
        ++ [⟨FieldName.hasWktCoords,
          truthText (hasCoordinates ((understood s prepared).flatMap (derivedFields s)))⟩] := by
  rw [shown, ← inLanguage_eq]
  rfl

theorem name_of_mem_shown {f : Field} {prepared : List Field} (member : f ∈ shown s prepared) :
    (∃ e ∈ understood s prepared, e.name = f.name)
      ∨ IsFoundName s "_NAME_SEARCH" FieldName.normName f.name
      ∨ IsFoundName s "_PLACE_SEARCH" FieldName.normPlace f.name := by
  obtain ⟨g, given, same⟩ := name_of_mem_chosen member
  rw [← same]
  rcases mem_withNameFields.mp given with entry | ⟨found, -⟩ | ⟨found, -⟩
  · exact .inl ⟨g, entry, rfl⟩
  · exact .inr (.inl found)
  · exact .inr (.inr found)

/-- Under a name that nothing derived has stands only what is shown and its copies. -/
theorem valuesOf_ofPrepared {name : String} {prepared : List Field}
    (plain : name ∉ [FieldName.wktCoords, FieldName.hasWktCoords])
    (date : IsFoundName s "_DATE_SEARCH" FieldName.normDate name →
      ∀ e ∈ prepared, e.name ≠ FieldName.normLifePeriod)
    (geojson : name = FieldName.normCoordsGeoJson → ∀ e ∈ prepared, e.name ≠ FieldName.normCoords) :
    Field.valuesOf name (ofPrepared s prepared)
      = Field.valuesOf name ((shown s prepared).flatMap withUntokenized) := by
  simp only [List.mem_cons, List.not_mem_nil, or_false, not_or] at plain
  have derived : Field.valuesOf name ((understood s prepared).flatMap (derivedFields s)) = [] := by
    apply Field.valuesOf_eq_nil_iff.mpr
    intro f member same
    obtain ⟨e, entry, made⟩ := List.mem_flatMap.mp member
    have given := mem_prepared_of_understood entry
    rcases name_of_mem_derivedFields made with ⟨period, found⟩ | ⟨coords, wkt | json⟩
    · exact date (same ▸ found) e given period
    · exact plain.1 (same.symm.trans wkt)
    · exact geojson (same.symm.trans json) e given coords
  rw [ofPrepared_eq, Field.valuesOf_append, Field.valuesOf_append, derived,
    Field.valuesOf_cons_of_ne (Ne.symm plain.2)]
  simp [Field.valuesOf]

end AuthorityFields

end MetadataIndex
