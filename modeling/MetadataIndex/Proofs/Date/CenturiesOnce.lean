import MetadataIndex.Proofs.Date.Century
import MetadataIndex.Proofs.Date.Years
import MetadataIndex.Proofs.Field.Written

/-!
# Centuries are written once

Texts are read for dates one after another, each with the centuries that were written before. Over all of
them no century is written twice, and in the end the centuries of all years are among those written.
-/

set_option autoImplicit false

namespace MetadataIndex

open FieldName (IsFacet)

/-- The century of a year after year one is the one in whose hundred years it lies. -/
theorem eq_centuryOf_iff {year century : Int} (positive : 0 < year) :
    century = centuryOf year ↔ 100 * (century - 1) < year ∧ year ≤ 100 * century := by
  have bounds := centuryOf_bounds year
  omega

theorem centuryOf_neg {year : Int} (positive : 0 < year) : centuryOf (-year) = -centuryOf year := by
  have after := centuryOf_bounds year
  have before := centuryOf_bounds (-year)
  omega

/-- Fields with the values of some years, and with the centuries of these years that were not `known`,
each of them once; `final` are the centuries known afterwards. -/
structure WritesOnce (known years written : List Int) (fields : List Field) (final : List Int) :
    Prop where
  yearValues : Field.valuesOf FieldName.year fields = years.map toString
  centuryValues : Field.valuesOf FieldName.century fields = written.map toString
  distinct : written.Nodup
  new : ∀ c ∈ written, c ∉ known
  after : ∀ c, c ∈ final ↔ c ∈ known ∨ c ∈ written
  covers : ∀ y ∈ years, centuryOf y ∈ final
  ofYear : ∀ c ∈ written, ∃ y ∈ years, centuryOf y = c

namespace WritesOnce

variable {known years written middle years' written' final : List Int} {fields fields' : List Field}

theorem nil (known : List Int) : WritesOnce known [] [] [] known := by
  constructor <;> simp [Field.valuesOf]

theorem append (first : WritesOnce known years written fields middle)
    (next : WritesOnce middle years' written' fields' final) :
    WritesOnce known (years ++ years') (written ++ written') (fields ++ fields') final where
  yearValues := by rw [Field.valuesOf_append, first.yearValues, next.yearValues, List.map_append]
  centuryValues := by
    rw [Field.valuesOf_append, first.centuryValues, next.centuryValues, List.map_append]
  distinct := by
    rw [List.nodup_append]
    refine ⟨first.distinct, next.distinct, ?_⟩
    intro c early c' late same
    exact next.new c' late ((first.after c').mpr (.inr (same ▸ early)))
  new c member := by
    cases List.mem_append.mp member with
    | inl early => exact first.new c early
    | inr late => exact fun before => next.new c late ((first.after c).mpr (.inl before))
  after c := by rw [next.after, first.after, List.mem_append, or_assoc]
  covers y member := by
    cases List.mem_append.mp member with
    | inl early => exact (next.after _).mpr (.inl (first.covers y early))
    | inr late => exact next.covers y late
  ofYear c member := by
    cases List.mem_append.mp member with
    | inl early =>
      obtain ⟨y, given, same⟩ := first.ofYear c early
      exact ⟨y, List.mem_append_left _ given, same⟩
    | inr late =>
      obtain ⟨y, given, same⟩ := next.ofYear c late
      exact ⟨y, List.mem_append_right _ given, same⟩

end WritesOnce

namespace PartialDate

variable {custom : Option String}

theorem valuesOf_fields {name : String} (facet : IsFacet name) (other : ∀ given ∈ custom, ¬IsFacet given)
    (d : PartialDate) (known : List Int) : Field.valuesOf name (d.fields known custom).1
      = Field.valuesOf name [⟨FieldName.year, toString d.year⟩]
        ++ Field.valuesOf name (if centuryOf d.year ∈ known then []
          else [⟨FieldName.century, toString (centuryOf d.year)⟩]) := by
  have customs : Field.valuesOf name
      (custom.toList.map fun given => (⟨given, toString d.year⟩ : Field)) = [] := by
    rw [Field.valuesOf_eq_nil_iff]
    intro f member same
    obtain ⟨given, named, rfl⟩ := List.mem_map.mp member
    obtain rfl : given = name := same
    exact other given (Option.mem_toList.mp named) facet
  have months : Field.valuesOf name d.monthFields = [] := by
    rw [Field.valuesOf_eq_nil_iff]
    intro f member same
    exact d.monthFields_not_isFacet f member (same ▸ facet)
  unfold fields
  dsimp only
  rw [Field.valuesOf_append, Field.valuesOf_append, customs, months, List.append_nil, List.append_nil,
    ← List.singleton_append, Field.valuesOf_append]
  by_cases before : centuryOf d.year ∈ known
  · simp [before]
  · simp [before]

theorem fields_writesOnce (other : ∀ given ∈ custom, ¬IsFacet given) (d : PartialDate)
    (known : List Int) : ∃ written,
      WritesOnce known [d.year] written (d.fields known custom).1 (d.fields known custom).2 := by
  have years := valuesOf_fields (.inl rfl) other d known
  have centuries := valuesOf_fields (.inr rfl) other d known
  have apart : FieldName.year ≠ FieldName.century := by decide
  by_cases before : centuryOf d.year ∈ known
  · have same : (d.fields known custom).2 = known := by simp [fields, before]
    rw [if_pos before] at years centuries
    rw [same]
    refine ⟨[], ?_, ?_, .nil, ?_, ?_, ?_, ?_⟩
    · simpa [Field.valuesOf] using years
    · simpa [Field.valuesOf, apart] using centuries
    · simp
    · simp
    · simpa using before
    · simp
  · have same : (d.fields known custom).2 = centuryOf d.year :: known := by simp [fields, before]
    rw [if_neg before] at years centuries
    rw [same]
    refine ⟨[centuryOf d.year], ?_, ?_, List.pairwise_singleton _ _, ?_, ?_, ?_, ?_⟩
    · simpa [Field.valuesOf, apart.symm] using years
    · simpa [Field.valuesOf, apart] using centuries
    · simpa using before
    · simp [or_comm]
    · simp
    · simp

theorem fieldsOfAll_writesOnce (other : ∀ given ∈ custom, ¬IsFacet given) (known : List Int)
    (dates : List PartialDate) : ∃ written, WritesOnce known (dates.map (·.year)) written
      (fieldsOfAll custom known dates).1 (fieldsOfAll custom known dates).2 := by
  induction dates generalizing known with
  | nil => exact ⟨[], .nil known⟩
  | cons d dates ih =>
    obtain ⟨first, writes⟩ := d.fields_writesOnce other known
    obtain ⟨rest, others⟩ := ih (d.fields known custom).2
    exact ⟨first ++ rest, writes.append others⟩

end PartialDate

/-- A text that is read for dates, with the least number of digits of a year and a further field for the
years. -/
structure DatedText where
  text : String
  least : Int
  custom : Option Json

namespace DatedText

open DateText (WithinLimit)

/-- The fields of the dates in texts that are read in turn, and the centuries known afterwards. -/
def fieldsOfAll : List Int → List DatedText → Checked (List Field × List Int)
  | known, [] => .ok ([], known)
  | known, t :: more => do
    let (fields, known) ← dateFields known t.text t.least t.custom
    let (rest, known) ← fieldsOfAll known more
    return (fields ++ rest, known)

/-- The text has no number that is too long, and the further field is none of the facets. -/
structure Readable (t : DatedText) : Prop where
  within : WithinLimit t.text.toList
  positive : 1 ≤ t.least
  other : ∀ v ∈ t.custom, ∃ name, v = .text name ∧ ¬IsFacet name

theorem Readable.dates {t : DatedText} (readable : t.Readable) :
    ∃ dates, DateText.read t.text t.least = .ok dates := by
  obtain ⟨least, same⟩ := Int.eq_ofNat_of_zero_le (Int.le_trans (by decide) readable.positive)
  have positive := readable.positive
  rw [same] at positive ⊢
  exact DateText.read_of_withinLimit readable.within (by omega)

theorem Readable.customFieldName {t : DatedText} (readable : t.Readable) :
    ∃ name, customFieldName t.custom = .ok name ∧ ∀ given ∈ name, ¬IsFacet given := by
  have other := readable.other
  cases configured : t.custom with
  | none => exact ⟨none, rfl, nofun⟩
  | some v =>
    obtain ⟨name, rfl, plain⟩ := other v configured
    exact ⟨some name, rfl, by simpa using plain⟩

/-- Within the limit every text gives fields, and they are those of its dates. -/
theorem Readable.dateFields {t : DatedText} (readable : t.Readable) (known : List Int) :
    ∃ name dates, (∀ given ∈ name, ¬IsFacet given) ∧ DateText.read t.text t.least = .ok dates
      ∧ dateFields known t.text t.least t.custom = .ok (PartialDate.fieldsOfAll name known dates) := by
  obtain ⟨dates, read⟩ := readable.dates
  obtain ⟨name, named, other⟩ := readable.customFieldName
  refine ⟨name, dates, other, read, ?_⟩
  unfold MetadataIndex.dateFields
  split
  case isTrue empty =>
    rw [String.isEmpty_iff.mp empty, DateText.read_eq readable.positive] at read
    cases read
    rfl
  case isFalse =>
    rw [read, named]
    cases dates with
    | nil => rfl
    | cons d dates => rfl

theorem fieldsOfAll_writesOnce {texts : List DatedText} (readable : ∀ t ∈ texts, t.Readable)
    (known : List Int) : ∃ dates written fields final,
      texts.mapM (fun t => DateText.read t.text t.least) = .ok dates
      ∧ fieldsOfAll known texts = .ok (fields, final)
      ∧ WritesOnce known (dates.flatten.map (·.year)) written fields final := by
  induction texts generalizing known with
  | nil => exact ⟨[], [], [], known, rfl, rfl, .nil known⟩
  | cons t texts ih =>
    obtain ⟨head, rest⟩ := List.forall_mem_cons.mp readable
    obtain ⟨name, first, other, read, made⟩ := head.dateFields known
    obtain ⟨written, writes⟩ := PartialDate.fieldsOfAll_writesOnce other known first
    obtain ⟨dates, more, fields, final, reads, ran, others⟩ :=
      ih rest (PartialDate.fieldsOfAll name known first).2
    refine ⟨first :: dates, written ++ more,
      (PartialDate.fieldsOfAll name known first).1 ++ fields, final, ?_, ?_, ?_⟩
    · rw [List.mapM_cons, read, reads]
      rfl
    · rw [fieldsOfAll, made]
      change (do let (rest, known) ← fieldsOfAll _ texts; return (_ ++ rest, known)) = _
      rw [ran]
      rfl
    · rw [List.flatten_cons, List.map_append]
      exact writes.append others

theorem inLimit_of_dates {texts : List DatedText} {dates : List (List PartialDate)}
    (read : texts.mapM (fun t => DateText.read t.text t.least) = .ok dates) :
    ∀ d ∈ dates.flatten, Decimal.InLimit d.year := by
  intro d member
  obtain ⟨some, given, inside⟩ := List.mem_flatten.mp member
  obtain ⟨t, -, made⟩ := Checked.of_mem_mapM read given
  exact DateText.inLimit_of_read made d inside

/-- Whatever centuries are known at first, and whatever texts are read, the centuries that are written are
all different and none of those. Known in the end are the ones known at first and the ones written, among
them the century of every year that is written. -/
theorem centuries_of_fieldsOfAll {texts : List DatedText} (readable : ∀ t ∈ texts, t.Readable)
    (known : List Int) : ∃ (dates : List (List PartialDate)) (years written : List Int)
      (fields : List Field) (final : List Int),
      texts.mapM (fun t => DateText.read t.text t.least) = .ok dates
      ∧ fieldsOfAll known texts = .ok (fields, final)
      ∧ years = dates.flatten.map (·.year)
      ∧ Field.valuesOf FieldName.year fields = years.map toString
      ∧ Field.valuesOf FieldName.century fields = written.map toString
      ∧ (Field.valuesOf FieldName.century fields).Nodup
      ∧ (∀ c ∈ written, c ∉ known ∧ ∃ y ∈ years, centuryOf y = c)
      ∧ (∀ c, c ∈ final ↔ c ∈ known ∨ c ∈ written)
      ∧ (∀ y ∈ years, centuryOf y ∈ final)
      ∧ (∀ y c, 0 < y → (c = centuryOf y ↔ 100 * (c - 1) < y ∧ y ≤ 100 * c))
      ∧ (∀ y, 0 < y → centuryOf (-y) = -centuryOf y) ∧ centuryOf 0 = 1 := by
  obtain ⟨dates, written, fields, final, read, ran, writes⟩ := fieldsOfAll_writesOnce readable known
  have limited : ∀ c ∈ written, Decimal.InLimit c := by
    intro c member
    obtain ⟨y, given, same⟩ := writes.ofYear c member
    obtain ⟨d, inside, rfl⟩ := List.mem_map.mp given
    exact same ▸ centuryOf_inLimit (inLimit_of_dates read d inside)
  have values : (Field.valuesOf FieldName.century fields).Nodup := by
    rw [writes.centuryValues]
    apply List.pairwise_map.mpr
    apply writes.distinct.imp_of_mem
    intro c c' member member' other same
    exact other ((limited c member).toString_inj (limited c' member') same)
  have new : ∀ c ∈ written, c ∉ known ∧ ∃ y ∈ dates.flatten.map (·.year), centuryOf y = c :=
    fun c member => ⟨writes.new c member, writes.ofYear c member⟩
  exact ⟨dates, _, written, fields, final, read, ran, rfl, writes.yearValues, writes.centuryValues, values,
    new, writes.after, writes.covers, fun _ _ => eq_centuryOf_iff, fun _ => centuryOf_neg, rfl⟩

/-- A range of years, a date with a further field, a year before year one and a text without date. -/
def datedTexts : List DatedText :=
  [⟨" 1520-1530, 1605", 3, none⟩, ⟨"05.08.1560", 4, some (.text "YEAR_PUBLISH")⟩, ⟨"-44", 2, none⟩,
    ⟨"n. d.", 1, none⟩]

theorem centuries_of_datedTexts : (∀ t ∈ datedTexts, t.Readable) ∧ ∃ fields,
    fieldsOfAll [20, 17] datedTexts = .ok (fields, [-1, 16, 20, 17])
      ∧ Field.valuesOf FieldName.year fields = ["1520", "1530", "1605", "1560", "-44"]
      ∧ Field.valuesOf FieldName.century fields = ["16", "-1"]
      ∧ (Field.valuesOf FieldName.century fields).Nodup := by
  have readable : ∀ t ∈ datedTexts, t.Readable := by
    have short : ∀ t ∈ datedTexts, t.text.toList.length ≤ Decimal.digitLimit ∧ 1 ≤ t.least := by
      decide +kernel
    have other : ∀ t ∈ datedTexts, ∀ v ∈ t.custom, ∃ name, v = .text name ∧ ¬IsFacet name := by
      simp [datedTexts, IsFacet, FieldName.year, FieldName.century]
    intro t member
    exact ⟨DateText.withinLimit_of_length_le (short t member).1, (short t member).2, other t member⟩
  have ends : (fieldsOfAll [20, 17] datedTexts).map (fun ended =>
      (ended.2, Field.valuesOf FieldName.year ended.1, Field.valuesOf FieldName.century ended.1))
      = .ok ([-1, 16, 20, 17], ["1520", "1530", "1605", "1560", "-44"], ["16", "-1"]) := by
    decide +kernel
  obtain ⟨-, -, -, fields, final, -, ran, -, -, -, distinct, -⟩ :=
    centuries_of_fieldsOfAll readable [20, 17]
  rw [ran] at ends
  obtain ⟨last, values⟩ := Prod.mk.inj (Except.ok.inj ends)
  obtain ⟨years, centuries⟩ := Prod.mk.inj values
  obtain rfl : final = [-1, 16, 20, 17] := last
  exact ⟨readable, fields, ran, years, centuries, distinct⟩

end DatedText

end MetadataIndex
