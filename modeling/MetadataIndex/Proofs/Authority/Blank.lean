import MetadataIndex.Proofs.Authority.Entries
import MetadataIndex.Proofs.Geo.Refusals
import MetadataIndex.Proofs.Text.Trimmed

/-!
# Blank fields of authority records

Entries with blank texts are left out, but a value may become blank when replacements are made, and a
part of a period may be empty. Places on the map are never blank. The mark of places on the map comes
last, and says whether there is one among the other fields.
-/

set_option autoImplicit false

namespace MetadataIndex

namespace Decimal

open Text (IsVisible isVisible_ofList)

theorem isVisible_exponentText (digits : List Char) (e : Int) : IsVisible (exponentText digits e) := by
  apply isVisible_ofList (c := 'e')
  · simp
  · decide

theorem isVisible_positionalText (digits : List Char) (e : Int) :
    IsVisible (positionalText plainNotation digits e) := by
  have point : IsVisible ".0" := ⟨'.', by decide, by decide⟩
  unfold positionalText
  split
  · apply isVisible_ofList (c := '.')
    · simp
    · decide
  · dsimp only
    split
    · exact point.append_left
    · apply isVisible_ofList (c := '.')
      · simp
      · decide

theorem isVisible_floatText (x : Float) : IsVisible (floatText x) := by
  have infinite : IsVisible "inf" := ⟨'i', by decide, by decide⟩
  have notANumber : IsVisible "nan" := ⟨'n', by decide, by decide⟩
  have zero : IsVisible ("0" ++ ".0") := ⟨'0', by decide, by decide⟩
  unfold floatText Notation.text
  split
  · exact notANumber
  · generalize body : (if x.isInf then _ else _) = text
    have visible : IsVisible text := by
      rw [← body]
      split
      · exact infinite
      · split
        · exact zero
        · dsimp only
          split
          · exact isVisible_exponentText _ _
          · exact isVisible_positionalText _ _
    dsimp only
    split
    · exact visible.append_left
    · exact visible

end Decimal

namespace Geo

open Text (IsVisible)

theorem isVisible_positionText {p : Position Float} {text : String}
    (written : positionText doubles p = .ok text) : IsVisible text := by
  unfold positionText at written
  split at written
  · cases written
    exact (Decimal.isVisible_floatText _).append_right.append_right
  · cases written

theorem isVisible_wkt {positions : List (Position Float)} {text : String}
    (written : wkt doubles positions = .ok (some text)) : IsVisible text := by
  have polygon : IsVisible "POLYGON((" := ⟨'P', by decide, by decide⟩
  unfold wkt at written
  split at written
  · cases written
  · obtain ⟨point, read, written⟩ := Checked.bind_ok written
    cases written
    exact isVisible_positionText read
  · obtain ⟨texts, -, written⟩ := Checked.bind_ok written
    cases written
    exact polygon.append_right.append_right

theorem isVisible_geoJson (g : Geometry Float) : IsVisible (geoJson doubles g) := by
  have opening : IsVisible "\x7b" := ⟨'\x7b', by decide, by decide⟩
  exact opening.append_right.append_right

theorem isVisible_convert {coords kind separator : String} :
    (∀ text ∈ (convert coords kind separator).wkt, IsVisible text)
      ∧ ∀ text ∈ (convert coords kind separator).geojson, IsVisible text := by
  rcases convertWith_cases doubles_onlyRefuse coords kind separator with ⟨g, text, -, written, same⟩ | none
  · rw [convert, same]
    constructor
    · rintro _ rfl
      exact isVisible_wkt written
    · rintro _ ⟨⟩
      exact isVisible_geoJson g
  · rw [convert, none]
    exact ⟨nofun, nofun⟩

end Geo

namespace AuthorityFields

open Text (IsVisible)

variable {s : AuthorityStyle} {t t' : AuthorityTexts} {prepared fields : List Field} {f : Field}

section Values

/-- A field with a blank value is replaced, and nothing is found by it. -/
def Unseen (s : AuthorityStyle) (prepared : List Field) (e : Field) : Prop :=
  preferredValues s.language? (understood s prepared) e.name ≠ []
    ∧ isName e.name = false ∧ isPlace e.name = false

theorem preferredValues_of_language {language : Option String} {entries : List Field} {name : String}
    (spoken : (languageOf? name).isSome = true) : preferredValues language entries name = [] := by
  apply List.eq_nil_iff_forall_not_mem.mpr
  intro v member
  obtain ⟨l, e, -, plain, -⟩ := mem_preferredValues member
  rw [plain] at spoken
  cases spoken

theorem exists_label {name : String}
    (given : preferredValues s.language? (understood s prepared) name ≠ []) :
    ∃ label, s.label? = some label := by
  obtain ⟨v, member⟩ := List.exists_mem_of_ne_nil _ given
  obtain ⟨l, e, spoken, -⟩ := mem_preferredValues member
  obtain ⟨label, named, -⟩ := Option.bind_eq_some_iff.mp spoken
  exact ⟨label, named⟩

theorem mem_shown_of_search {label ending v : String} (named : s.label? = some label)
    (found : ⟨label ++ ending, v⟩ ∈ withNameFields s [] (understood s prepared)) :
    ⟨label ++ ending, v⟩ ∈ shown s prepared :=
  mem_chosen.mpr (.inl ⟨preferredValues_label named, found⟩)

theorem unseen_of_shown (visible : ∀ f ∈ shown s prepared, IsVisible f.value) {e : Field}
    (entry : e ∈ understood s prepared) (blank : ¬IsVisible e.value) : Unseen s prepared e := by
  have kept : preferredValues s.language? (understood s prepared) e.name ≠ [] := by
    intro none
    exact blank (visible e (mem_chosen.mpr (.inl ⟨none, mem_withNameFields.mpr (.inl entry)⟩)))
  obtain ⟨label, named⟩ := exists_label kept
  refine ⟨kept, ?_, ?_⟩
  · apply Bool.eq_false_iff.mpr
    intro name
    have found := mem_withNameFields_of_name entry name (.inl ⟨label, named, rfl⟩)
    have seen := visible _ (mem_shown_of_search named found)
    exact blank seen
  · apply Bool.eq_false_iff.mpr
    intro place
    have found := mem_withNameFields_of_place entry place (.inl ⟨label, named, rfl⟩)
    have seen := visible _ (mem_shown_of_search named found)
    exact blank seen

theorem isVisible_of_hasValue {sort : String → Bool} {v : String}
    (unseen : ∀ e ∈ understood s prepared, ¬IsVisible e.value → sort e.name = false)
    (given : HasValue sort (understood s prepared) v) : IsVisible v := by
  obtain ⟨e, entry, ofSort, rfl⟩ := given
  by_contra blank
  rw [unseen e entry blank] at ofSort
  cases ofSort

theorem isVisible_shown_iff : (∀ f ∈ shown s prepared, IsVisible f.value)
    ↔ ∀ e ∈ understood s prepared, ¬IsVisible e.value → Unseen s prepared e := by
  constructor
  · intro visible e entry blank
    exact unseen_of_shown visible entry blank
  · intro unseen f member
    rcases mem_chosen.mp member with ⟨none, given⟩ | ⟨preferred, -⟩
    · rcases mem_withNameFields.mp given with entry | ⟨-, found⟩ | ⟨-, found⟩
      · by_contra blank
        exact (unseen f entry blank).1 none
      · apply isVisible_of_hasValue (fun e entry blank => (unseen e entry blank).2.1)
        exact (mem_searched (by simp [isName])).mp found
      · apply isVisible_of_hasValue (fun e entry blank => (unseen e entry blank).2.2)
        exact (mem_searched (by simp)).mp found
    · obtain ⟨l, e, -, -, entry, same, spoken, -⟩ := mem_preferredValues preferred
      rw [← same]
      by_contra blank
      exact (unseen e entry blank).1 (preferredValues_of_language spoken)

theorem isVisible_derivedFields_iff {e : Field} :
    (∀ f ∈ derivedFields s e, IsVisible f.value)
      ↔ (e.name = FieldName.normLifePeriod →
          ∀ date ∈ Text.splitAtLiteral "-" e.value, Text.trim date ≠ "") := by
  constructor
  · intro visible period date part
    have written : ⟨FieldName.untokenized FieldName.normDate, Text.trim date⟩ ∈ derivedFields s e :=
      mem_derivedFields.mpr (.inl ⟨period, mem_dateFields.mpr ⟨.inr rfl, date, part, rfl⟩⟩)
    have shown := visible _ written
    rwa [← Text.trim_ne_empty_iff, Text.trim_trim] at shown
  · intro given f member
    rcases mem_derivedFields.mp member with ⟨period, date⟩ | ⟨-, coords⟩
    · obtain ⟨-, part, split, same⟩ := mem_dateFields.mp date
      rw [same, ← Text.trim_ne_empty_iff, Text.trim_trim]
      exact given period part split
    · rcases mem_coordinateFields coords with ⟨-, wkt⟩ | ⟨-, geojson⟩
      · exact Geo.isVisible_convert.1 f.value wkt
      · exact Geo.isVisible_convert.2 f.value geojson

end Values

section Mark

theorem isFoundName_ne {ending plain name other : String} (last : ending.toList.getLast? = some 'H')
    (ends : other.toList.getLast? = some 'S') (found : IsFoundName s ending plain name) :
    name ≠ other := by
  rcases found with ⟨label, -, rfl⟩ | rfl
  · intro same
    rw [← same, String.toList_append, List.getLast?_append, last] at ends
    cases ends
  · apply untokenized_ne
    rw [ends]
    decide

/-- What is shown has no name of the marks of places on the map. -/
theorem name_ne_of_mem_uncut {entries : List (String × String)}
    (done : List.Forall₂ (Prepared s) (entries.filter isRelevant) prepared)
    (member : f ∈ (shown s prepared).flatMap withUntokenized) {other : String}
    (ends : other.toList.getLast? = some 'S')
    (unmarked : Text.startsWith other FieldName.normMark = false) : f.name ≠ other := by
  obtain ⟨g, given, -, whole | copy⟩ := mem_uncut.mp member
  · rw [whole]
    rcases name_of_mem_shown given with ⟨e, entry, same⟩ | found | found
    · intro named
      have begins := startsWith_of_prepared done (mem_prepared_of_understood entry)
      rw [same, named, unmarked] at begins
      cases begins
    · exact isFoundName_ne rfl ends found
    · exact isFoundName_ne rfl ends found
  · rw [copy]
    apply untokenized_ne
    rw [ends]
    decide

theorem name_ne_of_mem_derived {e : Field} (member : f ∈ derivedFields s e) :
    f.name ≠ FieldName.hasWktCoords := by
  rcases name_of_mem_derivedFields member with ⟨-, found⟩ | ⟨-, wkt | geojson⟩
  · exact isFoundName_ne rfl rfl found
  · rw [wkt]
    decide
  · rw [geojson]
    decide

theorem truthText_eq_true_iff {b : Bool} : truthText b = "true" ↔ b = true := by
  cases b with
  | true => simp [truthText]
  | false => simp [truthText]

theorem isVisible_truthText (b : Bool) : IsVisible (truthText b) := by
  cases b with
  | true => exact ⟨'t', by decide, by decide⟩
  | false => exact ⟨'f', by decide, by decide⟩

end Mark

theorem isVisible_ofPrepared_iff : (∀ f ∈ ofPrepared s prepared, IsVisible f.value)
    ↔ (∀ f ∈ shown s prepared, IsVisible f.value)
      ∧ ∀ e ∈ understood s prepared, ∀ f ∈ derivedFields s e, IsVisible f.value := by
  rw [ofPrepared_eq, List.forall_mem_append, List.forall_mem_append, List.forall_mem_singleton,
    and_iff_left (isVisible_truthText _), and_comm, List.forall_mem_flatMap, List.forall_mem_flatMap]
  apply and_congr_left
  intro _
  apply forall₂_congr
  intro f _
  simp [withUntokenized]

/-- No field is blank exactly if every blank entry is unseen and no part of a period is blank. -/
theorem blank_of_ofEntries {entries : List (String × String)}
    (ran : ofEntries s entries t = .ok fields t') :
    entries = [] ∧ fields = []
      ∨ ∃ prepared, List.Forall₂ (Prepared s) (entries.filter isRelevant) prepared
        ∧ ((∀ f ∈ fields, Text.trim f.value ≠ "")
          ↔ (∀ e ∈ understood s prepared, Text.trim e.value = "" →
              preferredValues s.language? (understood s prepared) e.name ≠ []
                ∧ isName e.name = false ∧ isPlace e.name = false)
            ∧ ∀ e ∈ understood s prepared, e.name = FieldName.normLifePeriod →
              ∀ date ∈ Text.splitAtLiteral "-" e.value, Text.trim date ≠ "")
        ∧ ∃ others mark, fields = others ++ [⟨FieldName.hasWktCoords, mark⟩]
          ∧ (∀ f ∈ others, f.name ≠ FieldName.hasWktCoords)
          ∧ (mark = "true" ↔ ∃ f ∈ others, f.name = FieldName.wktCoords) := by
  rcases ofEntries_ok ran with none | ⟨prepared, done, rfl⟩
  · exact .inl none
  refine .inr ⟨prepared, done, ?_, _, _, ofPrepared_eq s prepared, ?_, ?_⟩
  · simp only [Text.trim_ne_empty_iff (s := Field.value _), Text.trim_eq_empty_iff]
    rw [isVisible_ofPrepared_iff, isVisible_shown_iff]
    apply and_congr_right
    intro _
    exact forall₂_congr fun e _ => isVisible_derivedFields_iff
  · intro f member
    rcases List.mem_append.mp member with derived | written
    · obtain ⟨e, -, made⟩ := List.mem_flatMap.mp derived
      exact name_ne_of_mem_derived made
    · exact name_ne_of_mem_uncut done written rfl (by decide)
  · rw [truthText_eq_true_iff]
    simp only [hasCoordinates, List.any_eq_true, beq_iff_eq, List.mem_append]
    constructor
    · intro ⟨f, member, same⟩
      exact ⟨f, .inl member, same⟩
    · intro ⟨f, member, same⟩
      rcases member with derived | written
      · exact ⟨f, derived, same⟩
      · exact absurd same (name_ne_of_mem_uncut done written rfl (by decide))

section Painter

def ofPainter : AuthorityStyle := { label := some "MD_PAINTER" }

def painter : List (String × String) := [("NORM_NAME", "Anna"), ("NORM_LIFEPERIOD", "1749-1832")]

theorem blank_of_painter : ∃ fields t', ofEntries ofPainter painter {} = .ok fields t'
    ∧ ∃ prepared, List.Forall₂ (Prepared ofPainter) (painter.filter isRelevant) prepared
      ∧ ((∀ f ∈ fields, Text.trim f.value ≠ "")
        ↔ (∀ e ∈ understood ofPainter prepared, Text.trim e.value = "" →
            preferredValues ofPainter.language? (understood ofPainter prepared) e.name ≠ []
              ∧ isName e.name = false ∧ isPlace e.name = false)
          ∧ ∀ e ∈ understood ofPainter prepared, e.name = FieldName.normLifePeriod →
            ∀ date ∈ Text.splitAtLiteral "-" e.value, Text.trim date ≠ "")
      ∧ ∃ others mark, fields = others ++ [⟨FieldName.hasWktCoords, mark⟩]
        ∧ (∀ f ∈ others, f.name ≠ FieldName.hasWktCoords)
        ∧ (mark = "true" ↔ ∃ f ∈ others, f.name = FieldName.wktCoords) := by
  obtain ⟨fields, t', ran, -⟩ := Action.ok_of_outcome_map (g := fun _ : List Field => ())
    (x := ofEntries ofPainter painter) (s := {}) (b := ()) (by decide +kernel)
  refine ⟨fields, t', ran, ?_⟩
  rcases blank_of_ofEntries ran with ⟨none, -⟩ | law
  · cases none
  · exact law

theorem blank_date_of_openPeriod : ∃ fields t',
    ofEntries ofPainter [("NORM_LIFEPERIOD", "1900-")] {} = .ok fields t'
      ∧ Field.valuesOf "MD_PAINTER_DATE_SEARCH" fields = ["1900", ""] := by
  have shown : ((ofEntries ofPainter [("NORM_LIFEPERIOD", "1900-")]).outcome {}).map
      (Field.valuesOf "MD_PAINTER_DATE_SEARCH") = .ok ["1900", ""] := by decide +kernel
  obtain ⟨fields, t', ran, shown⟩ := Action.ok_of_outcome_map shown
  exact ⟨fields, t', ran, shown⟩

end Painter

end AuthorityFields

end MetadataIndex
