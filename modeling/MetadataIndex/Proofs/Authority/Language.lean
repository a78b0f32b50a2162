import MetadataIndex.Proofs.Authority.Entries

/-!
# Values in the language of a group

A group with a language shows an authority record in it. The values of a key that has values in that
language are left out for these, in the fields of the key and in their uncut copies; but a name or a
place is found by all its values, and what it is found by stands under the names of the uncut copies.
-/

set_option autoImplicit false

namespace MetadataIndex.AuthorityFields

variable {s : AuthorityStyle} {t t' : AuthorityTexts} {key language : String}
  {prepared fields : List Field} {entries : List (String × String)}

def keyIn (key language : String) : String :=
  key ++ FieldName.languageMark ++ Text.upper language

section Names

variable {ending plain name : String}

theorem languageOf?_of_isFoundName (third : ending.toList.reverse[2]? = some 'R')
    (found : IsFoundName s ending plain name) : languageOf? name = none := by
  rcases found with ⟨label, -, rfl⟩ | rfl
  · exact languageOf?_append_eq_none label third (by decide)
  · exact languageOf?_untokenized plain

/-- What is found for a group with a language is found under a name with the mark of languages. -/
theorem contains_of_isFoundName (spoken : s.language? = some language)
    (found : IsFoundName s ending plain name) (other : name ≠ FieldName.untokenized plain) :
    Text.containsLiteral name FieldName.languageMark = true := by
  rcases found with ⟨label, named, rfl⟩ | same
  · exact contains_label named spoken ending
  · exact absurd same other

end Names

section Marked

theorem not_contains_of_marked (marked : languageOf? (keyIn key language) = some language) :
    Text.containsLiteral key FieldName.languageMark = false := by
  apply Bool.eq_false_iff.mpr
  intro inside
  rw [keyIn, languageOf?_marked_eq_none inside] at marked
  cases marked

theorem languageOf?_of_marked (marked : languageOf? (keyIn key language) = some language) :
    languageOf? key = none := by
  apply Option.eq_none_iff_forall_ne_some.mpr
  intro l spoken
  have inside := contains_of_languageOf? spoken
  rw [not_contains_of_marked marked] at inside
  cases inside

theorem mem_understood {f : Field} (member : f ∈ prepared) (plain : languageOf? f.name = none) :
    f ∈ understood s prepared := by
  apply List.mem_filter.mpr
  rw [isUnderstood, plain]
  exact ⟨member, rfl⟩

theorem preferredValues_of_marked (prepared : List Field) (spoken : s.language? = some language)
    (marked : languageOf? (keyIn key language) = some language) :
    preferredValues s.language? (understood s prepared) key
      = Field.valuesOf (keyIn key language) prepared := by
  unfold preferredValues
  rw [spoken, languageOf?_of_marked marked]
  dsimp only
  rw [understood, spoken, List.filter_filter, Field.valuesOf, Field.valuesOf, keyIn,
    List.filter_filter]
  congr 1
  apply List.filter_congr
  intro f member
  cases same : f.name == key ++ FieldName.languageMark ++ Text.upper language with
  | false => simp
  | true =>
    have same := beq_iff_eq.mp same
    rw [← keyIn] at same
    simp [isUnderstood, same, marked]

end Marked

section Written

variable {name : String}

theorem valuesOf_shown (given : preferredValues s.language? (understood s prepared) name ≠ [])
    (there : ∃ e ∈ understood s prepared, e.name = name) :
    Field.valuesOf name (shown s prepared)
      = preferredValues s.language? (understood s prepared) name := by
  obtain ⟨e, member, rfl⟩ := there
  have value : e.value ∈ Field.valuesOf e.name (withNameFields s [] (understood s prepared)) :=
    Field.mem_valuesOf.mpr (mem_withNameFields.mpr (.inl member))
  rw [shown, valuesOf_chosen, if_neg List.not_mem_nil, if_neg given,
    if_neg (List.ne_nil_of_mem value)]

/-- A value under a name without values in the language of the group is copied uncut. -/
theorem mem_ofPrepared_of_found {f : Field} (found : f ∈ withNameFields s [] (understood s prepared))
    (none : preferredValues s.language? (understood s prepared) f.name = []) :
    f ∈ ofPrepared s prepared := by
  have kept : f ∈ shown s prepared := mem_chosen.mpr (.inl ⟨none, found⟩)
  rw [ofPrepared_eq, List.mem_append, List.mem_append]
  exact .inl (.inr (mem_uncut.mpr ⟨f, kept, rfl, .inl rfl⟩))

theorem languageOf?_of_mem_ofPrepared (spoken : s.language? = some language) {f : Field}
    (member : f ∈ ofPrepared s prepared) {l : String} (named : languageOf? f.name = some l) :
    l = language := by
  have silent {ending plain : String} (third : ending.toList.reverse[2]? = some 'R')
      (found : IsFoundName s ending plain f.name) : l = language := by
    rw [languageOf?_of_isFoundName third found] at named
    cases named
  have unmarked {name : String} (same : f.name = name) (none : languageOf? name = none) :
      l = language := by
    rw [same, none] at named
    cases named
  rw [ofPrepared_eq, List.mem_append, List.mem_append, List.mem_singleton] at member
  rcases member with (derived | written) | rfl
  · obtain ⟨e, -, made⟩ := List.mem_flatMap.mp derived
    rcases name_of_mem_derivedFields made with ⟨-, found⟩ | ⟨-, wkt | geojson⟩
    · exact silent rfl found
    · exact unmarked wkt (by decide)
    · exact unmarked geojson (by decide)
  · obtain ⟨g, given, -, whole | copy⟩ := mem_uncut.mp written
    · rcases name_of_mem_shown given with ⟨e, entry, same⟩ | found | found
      · have kept := (List.mem_filter.mp entry).2
        rw [isUnderstood, same, ← whole, named, spoken] at kept
        exact Option.some.inj (beq_iff_eq.mp kept)
      · exact silent rfl (whole ▸ found)
      · exact silent rfl (whole ▸ found)
    · exact unmarked copy (languageOf?_untokenized g.name)
  · exact unmarked rfl (show languageOf? FieldName.hasWktCoords = none by decide)

/-- The fields of a key have the values in the language of the group, unless copies or places on the
map are written under it. -/
theorem valuesOf_key (spoken : s.language? = some language)
    (marked : languageOf? (keyIn key language) = some language)
    (begins : Text.startsWith key FieldName.normMark = true)
    (there : ∃ e ∈ understood s prepared, e.name = key)
    (given : preferredValues s.language? (understood s prepared) key ≠ [])
    (copy : ∀ name, FieldName.untokenized name ≠ key)
    (geojson : key = FieldName.normCoordsGeoJson → ∀ e ∈ prepared, e.name ≠ FieldName.normCoords) :
    Field.valuesOf key (ofPrepared s prepared)
      = preferredValues s.language? (understood s prepared) key := by
  have plain : key ∉ [FieldName.wktCoords, FieldName.hasWktCoords] := by
    simp only [List.mem_cons, List.not_mem_nil, or_false]
    rintro (rfl | rfl)
    · exact absurd begins (by decide)
    · exact absurd begins (by decide)
  have date : ¬IsFoundName s "_DATE_SEARCH" FieldName.normDate key := by
    intro found
    have inside := contains_of_isFoundName spoken found (copy FieldName.normDate).symm
    rw [not_contains_of_marked marked] at inside
    cases inside
  rw [valuesOf_ofPrepared plain (fun found => absurd found date) geojson,
    valuesOf_uncut fun f _ => copy f.name, valuesOf_shown given there]

/-- The copies of the fields of a key have the values in the language of the group, unless names,
places or dates are found by them. -/
theorem valuesOf_copies (there : ∃ e ∈ understood s prepared, e.name = key)
    (given : preferredValues s.language? (understood s prepared) key ≠ [])
    (other : key ∉ [FieldName.normName, FieldName.normPlace])
    (date : key = FieldName.normDate → ∀ e ∈ prepared, e.name ≠ FieldName.normLifePeriod)
    (absent : ∀ f ∈ prepared, f.name ≠ FieldName.untokenized key) :
    Field.valuesOf (FieldName.untokenized key) (ofPrepared s prepared)
      = preferredValues s.language? (understood s prepared) key := by
  simp only [List.mem_cons, List.not_mem_nil, or_false, not_or] at other
  have plain : FieldName.untokenized key ∉ [FieldName.wktCoords, FieldName.hasWktCoords] := by
    simp only [List.mem_cons, List.not_mem_nil, or_false, not_or]
    exact ⟨untokenized_ne (by decide), untokenized_ne (by decide)⟩
  have whole : ∀ f ∈ shown s prepared, f.name ≠ FieldName.untokenized key := by
    intro f member same
    rcases name_of_mem_shown member with ⟨e, entry, named⟩ | found | found
    · exact absent e (mem_prepared_of_understood entry) (named.trans same)
    · exact other.1 (eq_of_isFoundName_untokenized rfl (same ▸ found))
    · exact other.2 (eq_of_isFoundName_untokenized rfl (same ▸ found))
  rw [valuesOf_ofPrepared plain (fun found => date (eq_of_isFoundName_untokenized rfl found))
      fun same => absurd same (untokenized_ne (by decide)),
    valuesOf_untokenized_uncut whole, valuesOf_shown given there]

theorem mem_copies {v : String} (member : v ∈ Field.valuesOf key prepared)
    (plain : languageOf? key = none) (found : key ∈ [FieldName.normName, FieldName.normPlace])
    (none : preferredValues s.language? (understood s prepared) (FieldName.untokenized key) = []) :
    v ∈ Field.valuesOf (FieldName.untokenized key) (ofPrepared s prepared) := by
  have entry : ⟨key, v⟩ ∈ understood s prepared := mem_understood (Field.mem_valuesOf.mp member) plain
  have written : ⟨FieldName.untokenized key, v⟩ ∈ withNameFields s [] (understood s prepared) := by
    simp only [List.mem_cons, List.not_mem_nil, or_false] at found
    rcases found with rfl | rfl
    · exact mem_withNameFields_of_name entry (show isName FieldName.normName = true by decide) (.inr rfl)
    · exact mem_withNameFields_of_place entry (show isPlace FieldName.normPlace = true by decide) (.inr rfl)
  exact Field.mem_valuesOf.mpr
    (mem_ofPrepared_of_found (f := ⟨FieldName.untokenized key, v⟩) written none)

end Written

theorem mem_prepared {relevant : List (String × String)}
    (done : List.Forall₂ (Prepared s) relevant prepared) :
    (∃ entry ∈ relevant, entry.1 = key) ↔ ∃ f ∈ prepared, f.name = key := by
  induction done with
  | nil => simp
  | cons head _ ih => rw [List.exists_mem_cons_iff, List.exists_mem_cons_iff, ih, head.name]

/-- In a group with a language, the fields of a key have the values of the key in that language, and so
have their uncut copies; only the copies of names and of places keep the other values. -/
theorem preferred_of_ofEntries (spoken : s.language? = some language)
    (marked : languageOf? (keyIn key language) = some language)
    (plain : ∃ entry ∈ entries, isRelevant entry = true ∧ entry.1 = key)
    (preferred : ∃ entry ∈ entries, isRelevant entry = true ∧ entry.1 = keyIn key language)
    (ran : ofEntries s entries t = .ok fields t') :
    ∃ prepared, List.Forall₂ (Prepared s) (entries.filter isRelevant) prepared
      ∧ ((∀ name, FieldName.untokenized name ≠ key) →
          (key = FieldName.normCoordsGeoJson → ∀ e ∈ prepared, e.name ≠ FieldName.normCoords) →
          Field.valuesOf key fields = Field.valuesOf (keyIn key language) prepared)
      ∧ (key ∉ [FieldName.normName, FieldName.normPlace] →
          (key = FieldName.normDate → ∀ e ∈ prepared, e.name ≠ FieldName.normLifePeriod) →
          (∀ e ∈ prepared, e.name ≠ FieldName.untokenized key) →
          Field.valuesOf (FieldName.untokenized key) fields
            = Field.valuesOf (keyIn key language) prepared)
      ∧ (key ∈ [FieldName.normName, FieldName.normPlace] →
          (∀ e ∈ prepared, e.name ≠ keyIn (FieldName.untokenized key) language) →
          ∀ v ∈ Field.valuesOf key prepared, v ∈ Field.valuesOf (FieldName.untokenized key) fields)
      ∧ ∀ f ∈ fields, ∀ l, languageOf? f.name = some l → l = language := by
  obtain ⟨entry, member, relevant, named⟩ := plain
  have begins : Text.startsWith key FieldName.normMark = true := by
    simp only [isRelevant, named, Bool.and_eq_true] at relevant
    exact relevant.1.1
  rcases ofEntries_ok ran with ⟨rfl, -⟩ | ⟨prepared, done, rfl⟩
  · cases member
  have there : ∃ e ∈ understood s prepared, e.name = key := by
    obtain ⟨e, given, same⟩ :=
      (mem_prepared done).mp ⟨entry, List.mem_filter.mpr ⟨member, relevant⟩, named⟩
    exact ⟨e, mem_understood given (same ▸ languageOf?_of_marked marked), same⟩
  have values := preferredValues_of_marked prepared spoken marked
  have given : preferredValues s.language? (understood s prepared) key ≠ [] := by
    obtain ⟨other, member, relevant, named⟩ := preferred
    obtain ⟨e, given, same⟩ :=
      (mem_prepared done).mp ⟨other, List.mem_filter.mpr ⟨member, relevant⟩, named⟩
    rw [values, ← same]
    exact List.ne_nil_of_mem (Field.mem_valuesOf.mpr given)
  refine ⟨prepared, done, ?_, ?_, ?_, ?_⟩
  · intro copy geojson
    rw [valuesOf_key spoken marked begins there given copy geojson, values]
  · intro other date absent
    rw [valuesOf_copies there given other date absent, values]
  · intro found absent v value
    apply mem_copies value (languageOf?_of_marked marked) found
    apply List.eq_nil_iff_forall_not_mem.mpr
    intro w preferred
    obtain ⟨l, e, same, -, entry, -, -, named⟩ := mem_preferredValues preferred
    rw [spoken] at same
    cases same
    exact absent e (mem_prepared_of_understood entry) named
  · intro f member l
    exact languageOf?_of_mem_ofPrepared spoken member

section English

def inEnglish : AuthorityStyle := { label := some "MD_SUBJECT_LANG_EN" }

def subjects : List (String × String) :=
  [("NORM_NAME", "Geschichte"), ("NORM_NAME_LANG_EN", "History"), ("NORM_SUBJECT", "Vergangenheit"),
    ("NORM_SUBJECT_LANG_EN", "past"), ("NORM_SUBJECT_LANG_FR", "passé")]

theorem preferred_of_subjects : inEnglish.language? = some "en"
    ∧ languageOf? (keyIn "NORM_SUBJECT" "en") = some "en"
    ∧ ∃ fields t', ofEntries inEnglish subjects {} = .ok fields t'
      ∧ ∃ prepared, List.Forall₂ (Prepared inEnglish) (subjects.filter isRelevant) prepared
        ∧ Field.valuesOf "NORM_SUBJECT" fields = Field.valuesOf "NORM_SUBJECT_LANG_EN" prepared
        ∧ ∀ f ∈ fields, ∀ l, languageOf? f.name = some l → l = "en" := by
  have spoken : inEnglish.language? = some "en" := by decide
  have marked : languageOf? (keyIn "NORM_SUBJECT" "en") = some "en" := by decide
  obtain ⟨fields, t', ran, -⟩ := Action.ok_of_outcome_map (g := fun _ : List Field => ())
    (x := ofEntries inEnglish subjects) (s := {}) (b := ()) (by decide +kernel)
  obtain ⟨prepared, done, values, -, -, others⟩ := preferred_of_ofEntries spoken marked
    ⟨("NORM_SUBJECT", "Vergangenheit"), by decide, by decide, rfl⟩
    ⟨("NORM_SUBJECT_LANG_EN", "past"), by decide, by decide, by decide⟩ ran
  refine ⟨spoken, marked, fields, t', ran, prepared, done, ?_, others⟩
  exact values (fun name => untokenized_ne (by decide)) fun geojson => absurd geojson (by decide)

theorem plain_copy_of_subjects : ∃ fields t', ofEntries inEnglish subjects {} = .ok fields t'
    ∧ Field.valuesOf FieldName.normName fields = ["History"]
    ∧ Field.valuesOf (FieldName.untokenized FieldName.normName) fields = ["History", "Geschichte"] := by
  have shown : ((ofEntries inEnglish subjects).outcome {}).map (fun fields =>
      (Field.valuesOf FieldName.normName fields,
        Field.valuesOf (FieldName.untokenized FieldName.normName) fields))
      = .ok (["History"], ["History", "Geschichte"]) := by decide +kernel
  obtain ⟨fields, t', ran, shown⟩ := Action.ok_of_outcome_map shown
  obtain ⟨names, copies⟩ := Prod.mk.inj shown
  exact ⟨fields, t', ran, names, copies⟩

end English

end MetadataIndex.AuthorityFields
