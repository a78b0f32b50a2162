import MetadataIndex.Proofs.Date.Formats
import MetadataIndex.Proofs.Date.Reading

/-!
# Absolute dates

A date that exists and is written in one of the forms is read as that date and nothing else, whatever blank
characters stand around it. A date with a month comes from no other text: the scan for years gives years
alone.
-/

set_option autoImplicit false

namespace MetadataIndex

namespace Text

theorem strip_between {p : Char → Bool} {lead cs tail : List Char} (front : ∀ c ∈ lead, p c = true)
    (back : ∀ c ∈ tail, p c = true) : strip p (lead ++ cs ++ tail) = strip p cs := by
  rw [strip, strip, List.append_assoc, List.dropWhile_append_of_pos front, List.dropWhile_append]
  split
  case isTrue none =>
    have gone : (tail ++ []).dropWhile p = [] := List.dropWhile_append_of_pos back
    rw [List.append_nil] at gone
    rw [gone, List.isEmpty_iff.mp none]
  case isFalse =>
    have behind : ∀ c ∈ tail.reverse, p c = true := by simpa using back
    rw [dropTrailing, List.reverse_append, List.dropWhile_append_of_pos behind, ← dropTrailing]

end Text

/-- The date has a month, and the calendar has it and the day if there is one. -/
def PartialDate.IsDay (d : PartialDate) : Prop :=
  ∃ month, d.month = some month ∧ IsGregorian d.year month d.day

namespace DateText

open Text (isBlank)

variable {cs : List Char} {w : WrittenDate}

theorem date?_eq (limited : w.year.length ≤ Decimal.digitLimit) :
    w.date? = .ok (if w.Exists then some w.date else none) := by
  have year : limitedValue w.year = .ok (numeral w.year) := by
    rw [← digitsValue_eq]
    exact if_pos limited
  simp only [WrittenDate.date?, year, digitsValue_eq, PartialDate.inCalendar_iff,
    WrittenTime.valid_iff]
  by_cases real : w.Exists
  · rw [if_pos real]
    exact if_pos real
  · rw [if_neg real]
    exact if_neg real

theorem date?_eq_some {d : PartialDate} (made : w.date? = .ok (some d)) : w.Exists ∧ d = w.date := by
  rw [date?_eq (date?_ok_iff.mp ⟨_, made⟩)] at made
  split at made
  case isTrue real =>
    cases made
    exact ⟨real, rfl⟩
  case isFalse => cases made

/-! ## Trying the formats -/

section Tried

variable {tried : List (List Char → Option WrittenDate)}

theorem absoluteAmong_eq_none
    (none : ∀ format ∈ tried, ∀ v, format cs = some v → v.date? = .ok none) :
    absoluteAmong cs tried = .ok .none := by
  induction tried with
  | nil => rfl
  | cons format tried ih =>
    obtain ⟨head, others⟩ := List.forall_mem_cons.mp none
    rw [absoluteAmong]
    cases read : format cs with
    | none => exact ih others
    | some v =>
      dsimp only
      rw [head v read]
      exact ih others

theorem absoluteAmong_eq_some {d : PartialDate}
    (same : ∀ format ∈ tried, ∀ v, format cs = some v → v.date? = .ok (some d))
    (given : ∃ format ∈ tried, ∃ v, format cs = some v) : absoluteAmong cs tried = .ok (some d) := by
  induction tried with
  | nil =>
    obtain ⟨_, member, _⟩ := given
    cases member
  | cons format tried ih =>
    obtain ⟨head, others⟩ := List.forall_mem_cons.mp same
    rw [absoluteAmong]
    cases read : format cs with
    | none =>
      obtain ⟨other, member, v, found⟩ := given
      refine ih others ⟨other, ?_, v, found⟩
      cases member with
      | head =>
        rw [read] at found
        cases found
      | tail _ later => exact later
    | some v =>
      dsimp only
      rw [head v read]
      rfl

theorem exists_format_of_absoluteAmong {d : PartialDate}
    (found : absoluteAmong cs tried = .ok (some d)) :
    ∃ format ∈ tried, ∃ v, format cs = some v ∧ v.date? = .ok (some d) := by
  induction tried with
  | nil => cases found
  | cons format tried ih =>
    have later (found : absoluteAmong cs tried = .ok (some d)) :
        ∃ other ∈ format :: tried, ∃ v, other cs = some v ∧ v.date? = .ok (some d) := by
      obtain ⟨other, member, rest⟩ := ih found
      exact ⟨other, .tail _ member, rest⟩
    rw [absoluteAmong] at found
    cases read : format cs with
    | none =>
      rw [read] at found
      exact later found
    | some v =>
      rw [read] at found
      obtain ⟨date, made, found⟩ := Checked.bind_ok found
      cases date with
      | none => exact later found
      | some date =>
        cases found
        exact ⟨format, .head _, v, read, made⟩

end Tried

theorem absolute?_of_spelled (spelled : w.SpelledAs cs) (real : w.Exists)
    (limited : w.year.length ≤ Decimal.digitLimit) : absolute? cs = .ok (some w.date) := by
  apply absoluteAmong_eq_some
  · intro format known v read
    obtain rfl := (exists_format_iff.mp ⟨format, known, read⟩).unique spelled
    rw [date?_eq limited, if_pos real]
  · obtain ⟨format, known, read⟩ := exists_format_iff.mpr spelled
    exact ⟨format, known, w, read⟩

theorem absolute?_of_not_isDate (within : WithinLimit cs) (absent : ¬IsDate cs) :
    absolute? cs = .ok none := by
  apply absoluteAmong_eq_none
  intro format known v read
  have spelled := exists_format_iff.mp ⟨format, known, read⟩
  rw [date?_eq (spelled.length_year_le within), if_neg fun real => absent ⟨v, spelled, real⟩]

theorem spelled_of_absolute? {d : PartialDate} (found : absolute? cs = .ok (some d)) :
    ∃ w : WrittenDate, w.SpelledAs cs ∧ w.Exists ∧ d = w.date := by
  obtain ⟨format, known, w, read, made⟩ := exists_format_of_absoluteAmong found
  exact ⟨w, exists_format_iff.mp ⟨format, known, read⟩, date?_eq_some made⟩

/-! ## Reading -/

theorem read_eq {s : String} {least : Int} (positive : 1 ≤ least) : read s least = (do
    match ← absolute? (Text.trim s).toList with
    | some date => return [date]
    | none => scanYears (Text.trim s).toList least.toNat) := by
  unfold read
  simp only [Int.not_lt.mpr positive, if_false]
  cases (Text.trim s).toList with
  | nil => rfl
  | cons c cs => rfl

theorem toList_trim_of_spelled {s : String} {lead tail : List Char} (spelled : w.SpelledAs cs)
    (text : s.toList = lead ++ cs ++ tail) (front : ∀ c ∈ lead, isBlank c = true)
    (back : ∀ c ∈ tail, isBlank c = true) : (Text.trim s).toList = cs := by
  rw [Text.trim, String.toList_ofList, text, Text.strip_between front back,
    Text.strip_eq_self spelled.not_isBlank]

theorem bare_of_yearsOf {least : Nat} {negative : Bool} {length : SignedRun → Nat}
    {runs : List SignedRun} {dates : List PartialDate}
    (made : yearsOf least negative length runs = .ok dates) :
    ∀ d ∈ dates, d.month = none ∧ d.day = none := by
  induction runs generalizing dates with
  | nil =>
    cases made
    exact List.forall_mem_nil _
  | cons run more ih =>
    unfold yearsOf at made
    split at made
    · obtain ⟨n, -, made⟩ := Checked.bind_ok made
      obtain ⟨rest, others, made⟩ := Checked.bind_ok made
      cases made
      exact List.forall_mem_cons.mpr ⟨⟨rfl, rfl⟩, ih others⟩
    · exact ih made

theorem bare_of_scanYears {least : Nat} {dates : List PartialDate}
    (made : scanYears cs least = .ok dates) : ∀ d ∈ dates, d.month = none ∧ d.day = none := by
  unfold scanYears at made
  split at made
  · exact bare_of_yearsOf made
  · exact bare_of_yearsOf made

/-- What is read is the one date that is written, or years alone. -/
theorem read_cases {s : String} {least : Int} {dates : List PartialDate} (positive : 1 ≤ least)
    (made : read s least = .ok dates) :
    (∃ w : WrittenDate, w.SpelledAs (Text.trim s).toList ∧ w.Exists ∧ dates = [w.date])
      ∨ ∀ d ∈ dates, d.month = none ∧ d.day = none := by
  rw [read_eq positive] at made
  obtain ⟨date, found, made⟩ := Checked.bind_ok made
  cases date with
  | some date =>
    cases made
    obtain ⟨w, spelled, real, rfl⟩ := spelled_of_absolute? found
    exact .inl ⟨w, spelled, real, rfl⟩
  | none => exact .inr (bare_of_scanYears made)

/-- A written date that exists is read as that date alone, whatever blank characters stand around it, and
whatever is read with a month is a date of the calendar and the only one. -/
theorem date_of_read {least : Int} (positive : 1 ≤ least) :
    (∀ (s : String) (lead cs tail : List Char) (w : WrittenDate), s.toList = lead ++ cs ++ tail →
      (∀ c ∈ lead, isBlank c = true) → (∀ c ∈ tail, isBlank c = true) → w.SpelledAs cs → w.Exists →
      w.year.length ≤ Decimal.digitLimit → read s least = .ok [w.date])
    ∧ ∀ (s : String) (dates : List PartialDate), read s least = .ok dates →
      ∀ d ∈ dates, d.month ≠ none → d.IsDay ∧ dates = [d] := by
  constructor
  · intro s lead cs tail w text front back spelled real limited
    rw [read_eq positive, toList_trim_of_spelled spelled text front back,
      absolute?_of_spelled spelled real limited]
    rfl
  · intro s dates made d member month
    rcases read_cases positive made with ⟨w, -, real, rfl⟩ | bare
    · obtain rfl := List.mem_singleton.mp member
      exact ⟨⟨_, rfl, real.1⟩, rfl⟩
    · exact absurd (bare d member).1 month

/-- A leap day, one minute before its end. -/
def leapDay : WrittenDate where
  year := ['2', '0', '0', '0']
  month := ['0', '2']
  day := some ['2', '9']
  time := some ⟨['2', '3'], ['5', '9'], none⟩

theorem leapDay_spelled : leapDay.SpelledAs
    (['2', '0', '0', '0'] ++ '-' :: (['0', '2'] ++ '-' :: (['2', '9'] ++ 'T' ::
      (['2', '3'] ++ ':' :: ['5', '9'] ++ '+' :: (['0', '2'] ++ ':' :: ['0', '0']))))) :=
  .dateTime (by decide) (by decide) (by decide) (.minutes (by decide) (by decide))
    (.inr (.offset (.inl rfl) (by decide) (by decide)))

theorem date_of_read_leapDay : (1 : Int) ≤ 1 ∧ leapDay.Exists
    ∧ read "\t2000-02-29T23:59+02:00 " 1 = .ok [⟨2000, some 2, some 29⟩] :=
  ⟨by decide, by decide,
    (date_of_read (by decide)).1 _ ['\t'] _ [' '] leapDay (by cbv)
      (List.forall_mem_singleton.mpr (by decide)) (List.forall_mem_singleton.mpr (by decide))
      leapDay_spelled (by decide) (by decide)⟩

/-- A quarter past ten on a day of August. -/
def morning : WrittenDate where
  year := ['2', '0', '1', '4']
  month := ['0', '8']
  day := some ['0', '5']
  time := some ⟨['1', '0'], ['1', '5'], some ['0', '0']⟩

/-- A fraction of a second with ten digits and an offset without minutes are none of the form, so the text
around them is scanned for years. -/
theorem read_of_longFraction_bareOffset :
    morning.Exists
      ∧ read "2014-08-05T10:15:00.123456789+01:00" 4 = .ok [morning.date]
      ∧ read "2014-08-05T10:15:00.1234567890+01:00" 4
        = .ok [⟨2014, none, none⟩, ⟨1234567890, none, none⟩]
      ∧ read "2014-08-05T10:15:00.123456789+01" 4
        = .ok [⟨2014, none, none⟩, ⟨123456789, none, none⟩] :=
  ⟨by decide, by decide +kernel, by decide +kernel, by decide +kernel⟩

end DateText

end MetadataIndex
