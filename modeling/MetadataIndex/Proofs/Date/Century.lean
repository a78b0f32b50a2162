import MetadataIndex.Date.Century
import MetadataIndex.Proofs.Decimal.Written
import MetadataIndex.Proofs.Effect.Comparison
import MetadataIndex.Proofs.Field.Facet

/-!
# Centuries of dates

Centuries follow each other as the years do, and there is no century 0. The years and centuries that a
text gives are those of its dates, which are within the limit on written numbers.
-/

set_option autoImplicit false

namespace MetadataIndex

open Decimal (InLimit)
open FieldName (IsFacet)

/-- A century ends with a year that is a multiple of a hundred; before year one it starts with one. -/
theorem centuryOf_bounds (year : Int) :
    year < 0 ∧ centuryOf year < 0 ∧ 100 * centuryOf year ≤ year ∧ year < 100 * (centuryOf year + 1)
      ∨ year = 0 ∧ centuryOf year = 1
      ∨ 0 < year ∧ 100 * (centuryOf year - 1) < year ∧ year ≤ 100 * centuryOf year := by
  unfold centuryOf
  dsimp only
  split
  · simp_all
  · split
    · omega
    · omega

theorem centuryOf_ne_zero (year : Int) : centuryOf year ≠ 0 := by
  have bounds := centuryOf_bounds year
  omega

theorem centuryOf_mono {a b : Int} (le : a ≤ b) : centuryOf a ≤ centuryOf b := by
  have left := centuryOf_bounds a
  have right := centuryOf_bounds b
  omega

theorem centuryOf_inLimit {year : Int} (limited : InLimit year) : InLimit (centuryOf year) := by
  have one : 1 < Nat.pow 10 Decimal.digitLimit := Decimal.one_lt_pow (by decide)
  have bounds := centuryOf_bounds year
  unfold InLimit at *
  omega

namespace DateText

theorem limitedValue_inLimit {cs : List Char} {n : Nat} (read : limitedValue cs = .ok n) :
    InLimit n := by
  unfold limitedValue at read
  split at read
  case isTrue short =>
    cases read
    have small : ∀ d ∈ cs.filterMap Text.decimalValue?, d < 10 := by
      intro d member
      obtain ⟨c, -, value⟩ := List.mem_filterMap.mp member
      exact Text.decimalValue?_lt value
    exact Decimal.ofDigits_lt_of_length_le small
      (Nat.le_trans (List.length_filterMap_le _ _) short)
  case isFalse => cases read

theorem inLimit_of_date? {w : WrittenDate} {d : PartialDate} (made : w.date? = .ok (some d)) :
    InLimit d.year := by
  obtain ⟨year, read, made⟩ := Checked.bind_ok made
  dsimp only at made
  split at made
  · cases made
    exact limitedValue_inLimit read
  · cases made

theorem inLimit_of_absoluteAmong {cs : List Char} {formats : List (List Char → Option WrittenDate)}
    {d : PartialDate} (made : absoluteAmong cs formats = .ok (some d)) : InLimit d.year := by
  induction formats with
  | nil => cases made
  | cons format more ih =>
    unfold absoluteAmong at made
    cases written : format cs with
    | none =>
      rw [written] at made
      exact ih made
    | some w =>
      rw [written] at made
      obtain ⟨date, tried, made⟩ := Checked.bind_ok made
      cases date with
      | none => exact ih made
      | some date =>
        cases made
        exact inLimit_of_date? tried

theorem inLimit_of_yearsOf {least : Nat} {negative : Bool} {length : SignedRun → Nat}
    {runs : List SignedRun} {dates : List PartialDate}
    (made : yearsOf least negative length runs = .ok dates) : ∀ d ∈ dates, InLimit d.year := by
  induction runs generalizing dates with
  | nil =>
    cases made
    simp
  | cons run more ih =>
    unfold yearsOf at made
    split at made
    · obtain ⟨n, lifted, made⟩ := Checked.bind_ok made
      obtain ⟨k, read, same⟩ := Checked.bind_ok lifted
      cases same
      obtain ⟨rest, others, made⟩ := Checked.bind_ok made
      cases made
      have limited := limitedValue_inLimit read
      refine List.forall_mem_cons.mpr ⟨?_, ih others⟩
      dsimp only
      split
      · simpa [InLimit] using limited
      · exact limited
    · exact ih made

theorem inLimit_of_read {s : String} {least : Int} {dates : List PartialDate}
    (made : read s least = .ok dates) : ∀ d ∈ dates, InLimit d.year := by
  have scanned : ∀ cs, scanYears cs least.toNat = .ok dates → ∀ d ∈ dates, InLimit d.year := by
    intro cs made
    unfold scanYears at made
    split at made
    · exact inLimit_of_yearsOf made
    · exact inLimit_of_yearsOf made
  unfold read at made
  dsimp only at made
  split at made
  · cases made
  · split at made
    · cases made
      simp
    · obtain ⟨date, tried, made⟩ := Checked.bind_ok made
      cases date with
      | none => exact scanned _ made
      | some date =>
        cases made
        simpa using inLimit_of_absoluteAmong tried

end DateText

namespace PartialDate

theorem monthFields_not_isFacet (d : PartialDate) : ∀ f ∈ d.monthFields, ¬IsFacet f.name := by
  have names : ¬IsFacet FieldName.yearMonth ∧ ¬IsFacet FieldName.yearMonthDay
      ∧ ¬IsFacet FieldName.monthDay := by
    decide
  unfold monthFields
  split
  · simp
  · split
    · simpa using names.1
    · simpa using names

theorem monthFields_other (d : PartialDate) :
    ∀ f ∈ d.monthFields, f.name ≠ FieldName.hasWktCoords := by
  have names : FieldName.yearMonth ≠ FieldName.hasWktCoords
      ∧ FieldName.yearMonthDay ≠ FieldName.hasWktCoords
      ∧ FieldName.monthDay ≠ FieldName.hasWktCoords := by
    decide
  unfold monthFields
  split
  · simp
  · split
    · simpa using names.1
    · simpa using names

/-- What is written for dates, with the centuries noted before and after. -/
structure Written (custom : Option String) (centuries : List Int) (dates : List PartialDate)
    (fields : List Field) (final : List Int) : Prop where
  year : ∀ v, ⟨FieldName.year, v⟩ ∈ fields → ∃ d ∈ dates, v = toString d.year
  century : custom ≠ some FieldName.century → ∀ v, ⟨FieldName.century, v⟩ ∈ fields →
    ∃ d ∈ dates, v = toString (centuryOf d.year)
  noted : ∀ n ∈ final, n ∈ centuries ∨ ⟨FieldName.century, toString n⟩ ∈ fields
    ∧ ∃ d ∈ dates, n = centuryOf d.year
  keeps : ∀ n ∈ centuries, n ∈ final
  named : ∀ f ∈ fields, f.name ≠ FieldName.hasWktCoords ∨ custom = some f.name
  covers : ∀ d ∈ dates, centuryOf d.year ∈ final

variable {custom : Option String}

theorem Written.nil (centuries : List Int) : Written custom centuries [] [] centuries :=
  ⟨by simp, by simp, fun _ known => .inl known, fun _ known => known, by simp, by simp⟩

theorem Written.append {centuries middle final : List Int} {dates more : List PartialDate}
    {fields others : List Field} (first : Written custom centuries dates fields middle)
    (next : Written custom middle more others final) :
    Written custom centuries (dates ++ more) (fields ++ others) final where
  year v member := by
    rcases List.mem_append.mp member with early | late
    · obtain ⟨d, given, same⟩ := first.year v early
      exact ⟨d, List.mem_append_left _ given, same⟩
    · obtain ⟨d, given, same⟩ := next.year v late
      exact ⟨d, List.mem_append_right _ given, same⟩
  century other v member := by
    rcases List.mem_append.mp member with early | late
    · obtain ⟨d, given, same⟩ := first.century other v early
      exact ⟨d, List.mem_append_left _ given, same⟩
    · obtain ⟨d, given, same⟩ := next.century other v late
      exact ⟨d, List.mem_append_right _ given, same⟩
  noted n member := by
    rcases next.noted n member with before | ⟨written, d, given, same⟩
    · rcases first.noted n before with known | ⟨written, d, given, same⟩
      · exact .inl known
      · exact .inr ⟨List.mem_append_left _ written, d, List.mem_append_left _ given, same⟩
    · exact .inr ⟨List.mem_append_right _ written, d, List.mem_append_right _ given, same⟩
  keeps n known := next.keeps n (first.keeps n known)
  named f member := by
    rcases List.mem_append.mp member with early | late
    · exact first.named f early
    · exact next.named f late
  covers d given := by
    rcases List.mem_append.mp given with early | late
    · exact next.keeps _ (first.covers d early)
    · exact next.covers d late

theorem written_fields (d : PartialDate) (centuries : List Int) :
    Written custom centuries [d] (d.fields centuries custom).1 (d.fields centuries custom).2 := by
  have months : ∀ name v, IsFacet name → (⟨name, v⟩ : Field) ∉ d.monthFields :=
    fun name v facet member => d.monthFields_not_isFacet _ member facet
  have apart : FieldName.year ≠ FieldName.century := by decide
  constructor
  case year =>
    intro v member
    simp only [fields, List.mem_append, List.mem_cons, List.mem_map] at member
    rcases member with (((same | new) | ⟨name, -, ⟨⟩⟩) | month)
    · simpa using (Field.mk.inj same).2
    · split at new
      · simp [apart] at new
      · simp at new
    · simp
    · exact absurd month (months _ _ (.inl rfl))
  case century =>
    intro other v member
    simp only [fields, List.mem_append, List.mem_cons, List.mem_map] at member
    rcases member with (((same | new) | ⟨name, named, same⟩) | month)
    · simp [apart.symm] at same
    · split at new
      · simp_all
      · simp at new
    · obtain rfl : name = FieldName.century := (Field.mk.inj same).1
      simp_all
    · exact absurd month (months _ _ (.inr rfl))
  case noted =>
    intro n member
    unfold fields at member ⊢
    by_cases known : centuryOf d.year ∈ centuries
    · simp_all
    · rcases (by simpa [known] using member : n = centuryOf d.year ∨ n ∈ centuries) with rfl | before
      · right
        simp [known]
      · exact .inl before
  case keeps =>
    intro n known
    unfold fields
    dsimp only
    split
    · exact .tail _ known
    · exact known
  case named =>
    intro f member
    have facets : FieldName.year ≠ FieldName.hasWktCoords
        ∧ FieldName.century ≠ FieldName.hasWktCoords := by
      decide
    simp only [fields, List.mem_append, List.mem_cons, List.mem_map] at member
    rcases member with (((rfl | new) | ⟨name, named, rfl⟩) | month)
    · exact .inl facets.1
    · split at new
      · rw [List.mem_singleton] at new
        exact .inl (new ▸ facets.2)
      · cases new
    · exact .inr (Option.mem_toList.mp named)
    · exact .inl (d.monthFields_other f month)
  case covers =>
    unfold fields
    by_cases known : centuryOf d.year ∈ centuries
    · simp [known]
    · simp [known]

theorem written_fieldsOfAll (centuries : List Int) (dates : List PartialDate) :
    Written custom centuries dates (fieldsOfAll custom centuries dates).1
      (fieldsOfAll custom centuries dates).2 := by
  induction dates generalizing centuries with
  | nil => exact .nil centuries
  | cons d dates ih => exact (written_fields d centuries).append (ih _)

/-- Where the century of a date is noted, only fields are given that were given when it was not. -/
theorem fields_of_noted (d : PartialDate) (before : List Int) {later : List Int}
    (noted : centuryOf d.year ∈ later) :
    ∃ again, d.fields later custom = (again, later) ∧ again ⊆ (d.fields before custom).1 := by
  refine ⟨(d.fields later custom).1, ?_, ?_⟩
  · simp [fields, noted]
  · intro f member
    simp only [fields, List.contains_eq_mem, noted, decide_true, Bool.not_true, Bool.false_eq_true,
      if_false, List.mem_append, List.mem_cons] at member ⊢
    tauto

theorem fieldsOfAll_of_noted (dates : List PartialDate) (before : List Int) {later : List Int}
    (noted : ∀ d ∈ dates, centuryOf d.year ∈ later) :
    ∃ again, fieldsOfAll custom later dates = (again, later)
      ∧ again ⊆ (fieldsOfAll custom before dates).1 := by
  induction dates generalizing before with
  | nil => exact ⟨[], rfl, List.Subset.refl _⟩
  | cons d dates ih =>
    obtain ⟨head, rest⟩ := List.forall_mem_cons.mp noted
    obtain ⟨first, same, given⟩ := d.fields_of_noted before head
    obtain ⟨more, others, givenMore⟩ := ih (d.fields before custom).2 rest
    refine ⟨first ++ more, ?_, ?_⟩
    · rw [fieldsOfAll, same]
      dsimp only
      rw [others]
    · exact List.append_subset.mpr ⟨List.Subset.trans given (List.subset_append_left _ _),
        List.Subset.trans givenMore (List.subset_append_right _ _)⟩

end PartialDate

theorem customFieldName_ok {custom : Option Json} {name : String}
    (named : customFieldName custom = .ok (some name)) : custom = some (.text name) := by
  unfold customFieldName at named
  split at named
  · cases named
  · cases named
    rfl
  · cases named
  · cases named
  · cases named

/-- Date fields are written for dates within the limit; the further field has its configured name. -/
theorem dateFields_ok {centuries final : List Int} {value : String} {least : Int}
    {custom : Option Json} {fields : List Field}
    (made : dateFields centuries value least custom = .ok (fields, final)) :
    ∃ name dates, (∀ given, name = some given → custom = some (.text given))
      ∧ (∀ d ∈ dates, InLimit d.year) ∧ PartialDate.Written name centuries dates fields final := by
  unfold dateFields at made
  split at made
  · cases made
    exact ⟨none, [], nofun, by simp, .nil _⟩
  · obtain ⟨dates, read, made⟩ := Checked.bind_ok made
    split at made
    · cases made
      exact ⟨none, [], nofun, by simp, .nil _⟩
    · obtain ⟨name, named, made⟩ := Checked.bind_ok made
      have written : PartialDate.Written name centuries dates
          (PartialDate.fieldsOfAll name centuries dates).1
          (PartialDate.fieldsOfAll name centuries dates).2 :=
        PartialDate.written_fieldsOfAll centuries dates
      rw [Except.ok.inj made] at written
      refine ⟨name, dates, ?_, DateText.inLimit_of_read read, written⟩
      rintro given rfl
      exact customFieldName_ok named

/-- Reading a value again where its centuries are noted gives only fields that it gave. -/
theorem dateFields_of_noted {before final later : List Int} {value : String} {least : Int}
    {custom : Option Json} {fields : List Field}
    (made : dateFields before value least custom = .ok (fields, final)) (noted : final ⊆ later) :
    ∃ again, dateFields later value least custom = .ok (again, later) ∧ again ⊆ fields := by
  unfold dateFields at made ⊢
  split at made
  case isTrue empty =>
    rw [if_pos empty]
    exact ⟨[], rfl, List.nil_subset _⟩
  case isFalse given =>
    rw [if_neg given]
    obtain ⟨dates, read, made⟩ := Checked.bind_ok made
    rw [read]
    cases dates with
    | nil => exact ⟨[], rfl, List.nil_subset _⟩
    | cons d dates =>
      obtain ⟨name, named, made⟩ := Checked.bind_ok made
      have written : PartialDate.Written name before (d :: dates) fields final := by
        have all : PartialDate.Written name before (d :: dates) _ _ :=
          PartialDate.written_fieldsOfAll before (d :: dates)
        rwa [Except.ok.inj made] at all
      have covered : ∀ date ∈ d :: dates, centuryOf date.year ∈ later :=
        fun date member => noted (written.covers date member)
      obtain ⟨again, same, given⟩ := PartialDate.fieldsOfAll_of_noted (d :: dates) before covered
      rw [Except.ok.inj made] at given
      refine ⟨again, ?_, given⟩
      change (do return PartialDate.fieldsOfAll (← customFieldName custom) later (d :: dates)) = _
      rw [named, ← same]
      rfl

end MetadataIndex
