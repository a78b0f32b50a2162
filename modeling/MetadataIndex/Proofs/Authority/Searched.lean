import Mathlib.Data.List.Nodup
import MetadataIndex.Proofs.Authority.Entries

/-!
# What names and places are found by

A place is found by each of its values once. So is a name by its other forms; the name itself is found
by its value again where an earlier entry has this value already.
-/

set_option autoImplicit false

namespace MetadataIndex.AuthorityFields

variable {s : AuthorityStyle} {t t' : AuthorityTexts} {label ending plain : String}
  {sort always : String → Bool} {earlier entries prepared fields : List Field} {f : Field}

/-- Entries of which the second is found again by the value of the first. -/
def Repeats (sort always : String → Bool) (e f : Field) : Prop :=
  sort e.name = true ∧ always f.name = true ∧ e.value = f.value

theorem nodup_newValue : (newValue sort always earlier f).Nodup := by
  unfold newValue
  split
  · exact List.nodup_singleton _
  · exact List.nodup_nil

theorem forall_newValue : (∀ v ∈ newValue sort always earlier f, ¬HasValue sort earlier v)
    ↔ ∀ e ∈ earlier, ¬Repeats sort always e f := by
  constructor
  · intro new e member repeated
    obtain ⟨ofSort, found, same⟩ := repeated
    have written : f.value ∈ newValue sort always earlier f := by simp [newValue, found]
    exact new f.value written ⟨e, member, ofSort, same⟩
  · intro apart v written
    unfold newValue at written
    split at written
    case isTrue holds =>
      obtain rfl := List.mem_singleton.mp written
      rw [Bool.or_eq_true, Bool.and_eq_true, isNew_iff] at holds
      rcases holds with found | ⟨-, new⟩
      · intro known
        obtain ⟨e, member, ofSort, same⟩ := known
        exact apart e member ⟨ofSort, found, same⟩
      · exact new
    case isFalse => cases written

/-- Each entry adds its value to those that are known; the values found stay apart as long as no entry
repeats one before it. -/
theorem nodup_searched_iff (sorted : ∀ key, always key = true → sort key = true) :
    (searched sort always earlier entries).Nodup
        ∧ (∀ v ∈ searched sort always earlier entries, ¬HasValue sort earlier v)
      ↔ entries.Pairwise (fun e f => ¬Repeats sort always e f)
        ∧ ∀ e ∈ earlier, ∀ f ∈ entries, ¬Repeats sort always e f := by
  induction entries generalizing earlier with
  | nil => simp [searched]
  | cons f more ih =>
    have step := @ih (f :: earlier)
    have known (v : String) : ¬HasValue sort (f :: earlier) v
        ↔ v ∉ newValue sort always earlier f ∧ ¬HasValue sort earlier v := by
      rw [← mem_newValue sorted, not_or]
    rw [searched]
    constructor
    · intro both
      obtain ⟨once, new⟩ := both
      obtain ⟨-, rest, apart⟩ := List.nodup_append'.mp once
      obtain ⟨first, later⟩ := List.forall_mem_append.mp new
      have fresh : ∀ v ∈ searched sort always (f :: earlier) more, ¬HasValue sort (f :: earlier) v := by
        intro v member
        exact (known v).mpr ⟨fun old => apart old member, later v member⟩
      obtain ⟨pairs, crossed⟩ := step.mp ⟨rest, fresh⟩
      obtain ⟨own, others⟩ := List.forall_mem_cons.mp crossed
      constructor
      · exact List.pairwise_cons.mpr ⟨own, pairs⟩
      · intro e member
        exact List.forall_mem_cons.mpr ⟨forall_newValue.mp first e member, others e member⟩
    · intro both
      obtain ⟨pairs, crossed⟩ := both
      obtain ⟨own, pairs⟩ := List.pairwise_cons.mp pairs
      have first : ∀ e ∈ earlier, ¬Repeats sort always e f := fun e member =>
        crossed e member f (.head _)
      obtain ⟨rest, fresh⟩ := step.mpr ⟨pairs, List.forall_mem_cons.mpr
        ⟨own, fun e member g later => crossed e member g (.tail _ later)⟩⟩
      constructor
      · apply List.nodup_append'.mpr
        exact ⟨nodup_newValue, rest, fun v old member => ((known v).mp (fresh v member)).1 old⟩
      · rw [List.forall_mem_append]
        exact ⟨forall_newValue.mpr first, fun v member => ((known v).mp (fresh v member)).2⟩

theorem nodup_searched (sorted : ∀ key, always key = true → sort key = true) :
    (searched sort always [] entries).Nodup
      ↔ entries.Pairwise fun e f => ¬Repeats sort always e f := by
  have law : (searched sort always [] entries).Nodup
        ∧ (∀ v ∈ searched sort always [] entries, ¬HasValue sort [] v)
      ↔ entries.Pairwise (fun e f => ¬Repeats sort always e f)
        ∧ ∀ e ∈ ([] : List Field), ∀ f ∈ entries, ¬Repeats sort always e f := nodup_searched_iff sorted
  have none : ∀ v ∈ searched sort always [] entries, ¬HasValue sort [] v := by simp [HasValue]
  rwa [and_iff_left none, and_iff_left (List.forall_mem_nil _)] at law

section Names

variable {name : String}

theorem valuesOf_foundAs (named : s.label? = some label) (last : ending.toList.getLast? = some 'H')
    (other value : String) :
    Field.valuesOf (label ++ ending) (foundAs s other plain value)
      = if other = ending then [value] else [] := by
  have copy : FieldName.untokenized plain ≠ label ++ ending := by
    apply untokenized_ne
    rw [String.toList_append, List.getLast?_append, last, Option.some_or]
    decide
  rw [foundAs, AuthorityStyle.searchFields, named, Option.toList_some, List.map_singleton,
    List.singleton_append]
  by_cases same : other = ending
  · rw [if_pos same, Field.valuesOf_cons_of_eq (by rw [same]), Field.valuesOf_cons_of_ne copy]
    rfl
  · have apart : label ++ other ≠ label ++ ending :=
      fun joined => same ((String.append_right_inj label).mp joined)
    rw [if_neg same, Field.valuesOf_cons_of_ne apart, Field.valuesOf_cons_of_ne copy]
    rfl

theorem valuesOf_withNameFields (absent : ∀ e ∈ entries, e.name ≠ name)
    (each : ∀ earlier f, Field.valuesOf name (nameFields s earlier f) = newValue sort always earlier f) :
    Field.valuesOf name (withNameFields s earlier entries) = searched sort always earlier entries := by
  induction entries generalizing earlier with
  | nil => rfl
  | cons f more ih =>
    obtain ⟨first, rest⟩ := List.forall_mem_cons.mp absent
    rw [withNameFields_cons, Field.valuesOf_cons_of_ne first, Field.valuesOf_append, each, ih rest,
      searched]

theorem valuesOf_nameSearch (named : s.label? = some label)
    (absent : ∀ e ∈ entries, e.name ≠ label ++ "_NAME_SEARCH") :
    Field.valuesOf (label ++ "_NAME_SEARCH") (withNameFields s earlier entries)
      = searched isName (· == FieldName.normName) earlier entries := by
  have last : "_NAME_SEARCH".toList.getLast? = some 'H' := rfl
  apply valuesOf_withNameFields absent
  intro earlier f
  rw [nameFields_eq, Field.valuesOf_append, Field.valuesOf_flatMap, Field.valuesOf_flatMap]
  simp [valuesOf_foundAs named last]

theorem valuesOf_placeSearch (named : s.label? = some label)
    (absent : ∀ e ∈ entries, e.name ≠ label ++ "_PLACE_SEARCH") :
    Field.valuesOf (label ++ "_PLACE_SEARCH") (withNameFields s earlier entries)
      = searched isPlace (fun _ => false) earlier entries := by
  have last : "_PLACE_SEARCH".toList.getLast? = some 'H' := rfl
  apply valuesOf_withNameFields absent
  intro earlier f
  rw [nameFields_eq, Field.valuesOf_append, Field.valuesOf_flatMap, Field.valuesOf_flatMap]
  simp [valuesOf_foundAs named last]

theorem valuesOf_search (named : s.label? = some label) (last : ending.toList.getLast? = some 'H')
    (other : ending ≠ "_DATE_SEARCH") :
    Field.valuesOf (label ++ ending) (ofPrepared s prepared)
      = Field.valuesOf (label ++ ending) (withNameFields s [] (understood s prepared)) := by
  have ends : (label ++ ending).toList.getLast? = some 'H' := by
    rw [String.toList_append, List.getLast?_append, last, Option.some_or]
  have ne {name : String} (differs : name.toList.getLast? ≠ some 'H') : label ++ ending ≠ name := by
    intro same
    exact differs (same ▸ ends)
  have plain : label ++ ending ∉ [FieldName.wktCoords, FieldName.hasWktCoords] := by
    simp only [List.mem_cons, List.not_mem_nil, or_false, not_or]
    exact ⟨ne (by decide), ne (by decide)⟩
  have date : ¬IsFoundName s "_DATE_SEARCH" FieldName.normDate (label ++ ending) := by
    intro found
    rcases found with ⟨label', named', same⟩ | same
    · rw [named] at named'
      cases named'
      exact other ((String.append_right_inj label).mp same)
    · exact ne (by decide) same
  have copy (name : String) : FieldName.untokenized name ≠ label ++ ending :=
    untokenized_ne (by rw [ends]; decide)
  rw [valuesOf_ofPrepared plain (fun found => absurd found date)
      fun same => absurd same (ne (by decide)),
    valuesOf_uncut fun f _ => copy f.name, shown, valuesOf_chosen, if_neg List.not_mem_nil,
    if_pos (preferredValues_label named)]

end Names

/-- A group finds a record by the values of its places and of its names: by each place once, and by each
name once exactly if no value of a name repeats that of an earlier one. -/
theorem nodup_search_of_ofEntries {entries : List (String × String)} (named : s.label? = some label)
    (ran : ofEntries s entries t = .ok fields t') :
    ∃ prepared, List.Forall₂ (Prepared s) (entries.filter isRelevant) prepared
      ∧ ((∀ e ∈ prepared, e.name ≠ label ++ "_PLACE_SEARCH") →
          (∀ v, v ∈ Field.valuesOf (label ++ "_PLACE_SEARCH") fields
            ↔ HasValue isPlace (understood s prepared) v)
          ∧ (Field.valuesOf (label ++ "_PLACE_SEARCH") fields).Nodup)
      ∧ ((∀ e ∈ prepared, e.name ≠ label ++ "_NAME_SEARCH") →
          (∀ v, v ∈ Field.valuesOf (label ++ "_NAME_SEARCH") fields
            ↔ HasValue isName (understood s prepared) v)
          ∧ ((Field.valuesOf (label ++ "_NAME_SEARCH") fields).Nodup
            ↔ (understood s prepared).Pairwise fun e f =>
              isName e.name = true → f.name = FieldName.normName → e.value ≠ f.value)) := by
  rcases ofEntries_ok ran with ⟨rfl, rfl⟩ | ⟨prepared, done, rfl⟩
  · refine ⟨[], .nil, ?_, ?_⟩
    · simp [understood, Field.valuesOf, HasValue]
    · simp [understood, Field.valuesOf, HasValue]
  refine ⟨prepared, done, ?_, ?_⟩
  · intro absent
    rw [valuesOf_search named rfl (by decide),
      valuesOf_placeSearch named fun e member => absent e (mem_prepared_of_understood member)]
    have none : (understood s prepared).Pairwise fun e f => ¬Repeats isPlace (fun _ => false) e f :=
      List.pairwise_of_forall fun e f repeated => absurd repeated.2.1 Bool.false_ne_true
    constructor
    · intro v
      exact mem_searched (by simp)
    · exact (nodup_searched (by simp)).mpr none
  · intro absent
    rw [valuesOf_search named rfl (by decide),
      valuesOf_nameSearch named fun e member => absent e (mem_prepared_of_understood member)]
    constructor
    · intro v
      exact mem_searched (by simp [isName])
    · rw [nodup_searched (by simp [isName])]
      simp only [Repeats, beq_iff_eq, not_and]

section Author

def ofAuthor : AuthorityStyle := { label := some "MD_AUTHOR" }

def author : List (String × String) :=
  [("NORM_NAME", "Goethe, Johann Wolfgang von"), ("NORM_ALTNAME", "Goethe"), ("NORM_ALTNAME", "Goethe"),
    ("NORM_PLACE_LIVING", "Weimar"), ("NORM_PLACE_DEATH", "Weimar")]

theorem nodup_search_of_author : ofAuthor.label? = some "MD_AUTHOR"
    ∧ ∃ fields t', ofEntries ofAuthor author {} = .ok fields t'
      ∧ ∃ prepared, List.Forall₂ (Prepared ofAuthor) (author.filter isRelevant) prepared
        ∧ (Field.valuesOf "MD_AUTHOR_PLACE_SEARCH" fields).Nodup
        ∧ (∀ v, v ∈ Field.valuesOf "MD_AUTHOR_NAME_SEARCH" fields
          ↔ HasValue isName (understood ofAuthor prepared) v)
        ∧ ((Field.valuesOf "MD_AUTHOR_NAME_SEARCH" fields).Nodup
          ↔ (understood ofAuthor prepared).Pairwise fun e f =>
            isName e.name = true → f.name = FieldName.normName → e.value ≠ f.value) := by
  have named : ofAuthor.label? = some "MD_AUTHOR" := by decide
  obtain ⟨fields, t', ran, -⟩ := Action.ok_of_outcome_map (g := fun _ : List Field => ())
    (x := ofEntries ofAuthor author) (s := {}) (b := ()) (by decide +kernel)
  obtain ⟨prepared, done, places, names⟩ := nodup_search_of_ofEntries named ran
  have apart {name : String} (other : Text.startsWith name FieldName.normMark = false) :
      ∀ e ∈ prepared, e.name ≠ name := by
    intro e member same
    have begins := startsWith_of_prepared done member
    rw [same, other] at begins
    cases begins
  obtain ⟨-, once⟩ := places (apart (by decide))
  exact ⟨named, fields, t', ran, prepared, done, once, names (apart (by decide))⟩

theorem name_twice_of_repeated : ∃ fields t',
    ofEntries ofAuthor [("NORM_ALTNAME", "Goethe"), ("NORM_NAME", "Goethe")] {} = .ok fields t'
      ∧ Field.valuesOf "MD_AUTHOR_NAME_SEARCH" fields = ["Goethe", "Goethe"] := by
  have shown : ((ofEntries ofAuthor [("NORM_ALTNAME", "Goethe"), ("NORM_NAME", "Goethe")]).outcome
      {}).map (Field.valuesOf "MD_AUTHOR_NAME_SEARCH") = .ok ["Goethe", "Goethe"] := by decide +kernel
  obtain ⟨fields, t', ran, shown⟩ := Action.ok_of_outcome_map shown
  exact ⟨fields, t', ran, shown⟩

end Author

end MetadataIndex.AuthorityFields
