import MetadataIndex.Proofs.Date.Absolute
import MetadataIndex.Proofs.Date.Utc

/-!
# Midnights

The instant at which a date starts. The numbers in it are filled with zeros after the sign, so a year before
zero has four digits only if it is not greater than -1000; apart from these years the midnight of a date is
an instant.
-/

set_option autoImplicit false

namespace MetadataIndex.DateText

open MetadataIndex.Text (isDecimalDigit)

/-! ## Padded numbers -/

/-- The decimal digits of a number behind as many zeros as the width asks for. -/
def zeroPadded (width n : Nat) : List Char :=
  List.replicate (width - (Nat.toDigits 10 n).length) '0' ++ Nat.toDigits 10 n

theorem toList_padded (width : Nat) (n : Int) : (PartialDate.padded width n).toList
    = if n < 0 then '-' :: zeroPadded (width - 1) n.natAbs else zeroPadded width n.natAbs := by
  unfold PartialDate.padded zeroPadded
  dsimp only
  split
  · simp [Nat.repr_eq_ofList_toDigits]
  · simp [Nat.repr_eq_ofList_toDigits]

theorem isDigit_zeroPadded (width n : Nat) : ∀ c ∈ zeroPadded width n, c.isDigit = true := by
  intro c member
  rcases List.mem_append.mp member with zero | digit
  · obtain ⟨-, rfl⟩ := List.mem_replicate.mp zero
    rfl
  · exact Nat.isDigit_of_mem_toDigits (by decide) (by decide) digit

theorem allDigits_zeroPadded (width n : Nat) : AllDigits (zeroPadded width n) := by
  intro c member
  rw [isDecimalDigit, Text.decimalValue?_of_isDigit (isDigit_zeroPadded width n c member)]
  rfl

theorem length_zeroPadded (width n : Nat) :
    (zeroPadded width n).length = max width (Nat.toDigits 10 n).length := by
  simp [zeroPadded]
  omega

theorem numeral_zeroPadded (width n : Nat) : numeral (zeroPadded width n) = n := by
  have digits : ∀ cs : List Char, (∀ c ∈ cs, c.isDigit = true) →
      cs.filterMap Text.decimalValue? = cs.map fun c => c.toNat - 48 := by
    intro cs all
    rw [List.filterMap_congr fun c member => Text.decimalValue?_of_isDigit (all c member)]
    rw [List.filterMap_eq_map']
  have zeros : ∀ (k : Nat) (ds : List Nat),
      Decimal.ofDigits (List.replicate k 0 ++ ds) = Decimal.ofDigits ds := by
    intro k ds
    induction k with
    | zero => rfl
    | succ k ih => exact ih
  rw [← digitsValue_eq, digitsValue, digits _ (isDigit_zeroPadded width n), zeroPadded, List.map_append,
    List.map_replicate]
  exact (zeros _ _).trans (Decimal.ofDigits_map_toDigits n)

theorem isTwoDigits_zeroPadded {n : Nat} (small : n < 100) : IsTwoDigits (zeroPadded 2 n) := by
  have short : (Nat.toDigits 10 n).length ≤ 2 := Decimal.length_toDigits_le (by decide) small
  exact ⟨by rw [length_zeroPadded]; omega, allDigits_zeroPadded 2 n⟩

theorem four_le_length_zeroPadded_iff (n : Nat) : 4 ≤ (zeroPadded 3 n).length ↔ 1000 ≤ n := by
  have short : (Nat.toDigits 10 n).length ≤ 3 ↔ n < 10 ^ 3 :=
    Nat.length_toDigits_le_iff (by decide) (by decide)
  rw [length_zeroPadded]
  omega

theorem ascii_of_isDigit {c : Char} (digit : c.isDigit = true) : c.toNat < 128 := by
  simp only [Char.isDigit, Bool.and_eq_true, decide_eq_true_eq] at digit
  have high : c.toNat ≤ 57 := digit.2
  omega

theorem ascii_zeroPadded (width n : Nat) : ∀ c ∈ zeroPadded width n, c.toNat < 128 :=
  fun c member => ascii_of_isDigit (isDigit_zeroPadded width n c member)

/-! ## The start of a date -/

/-- The first day of the date is one of the calendar; a missing month or day is the first one. -/
def StartsInCalendar (d : PartialDate) : Prop :=
  PartialDate.IsGregorian d.year (d.month.getD 1) (some (d.day.getD 1))

theorem startsInCalendar_of_isDay {d : PartialDate} (day : d.IsDay) : StartsInCalendar d := by
  obtain ⟨month, given, real⟩ := day
  rw [← PartialDate.inCalendar_iff] at real
  rw [StartsInCalendar, given, ← PartialDate.inCalendar_iff]
  refine ⟨real.1, fun k same => ?_⟩
  cases same
  cases first : d.day with
  | none => exact ⟨Nat.le_refl 1, (PartialDate.one_le_daysInMonth _ _).1⟩
  | some k => exact real.2 k first

theorem startsInCalendar_of_bare {d : PartialDate} (bare : d.month = none ∧ d.day = none) :
    StartsInCalendar d := by
  rw [StartsInCalendar, bare.1, bare.2, ← PartialDate.inCalendar_iff]
  refine ⟨by decide, fun k same => ?_⟩
  cases same
  exact ⟨Nat.le_refl 1, (PartialDate.one_le_daysInMonth _ _).1⟩

/-- What is read starts on a day of the calendar, and before year zero it is a bare year. -/
theorem startsInCalendar_of_read {s : String} {least : Int} {dates : List PartialDate}
    (positive : 1 ≤ least) (made : read s least = .ok dates) :
    ∀ d ∈ dates, StartsInCalendar d ∧ (d.year < 0 → d.month = none ∧ d.day = none) := by
  intro d member
  rcases read_cases positive made with ⟨w, -, real, rfl⟩ | bare
  · obtain rfl := List.mem_singleton.mp member
    refine ⟨startsInCalendar_of_isDay ⟨_, rfl, real.1⟩, fun before => ?_⟩
    exact absurd before (Int.not_lt.mpr (Int.natCast_nonneg _))
  · exact ⟨startsInCalendar_of_bare (bare d member), fun _ => bare d member⟩

def startOfDay : WrittenTime := ⟨['0', '0'], ['0', '0'], some ['0', '0']⟩

/-- The first instant of a date, with the digits of its year. -/
def dayStart (year : List Char) (d : PartialDate) : WrittenDate :=
  ⟨year, zeroPadded 2 (d.month.getD 1), some (zeroPadded 2 (d.day.getD 1)), some startOfDay⟩

theorem toList_midnight (d : PartialDate) : (midnight d).toList
    = if d.year < 0 then
        '-' :: ((dayStart (zeroPadded 3 d.year.natAbs) d).instantText startOfDay).toList
      else ((dayStart (zeroPadded 4 d.year.natAbs) d).instantText startOfDay).toList := by
  have unsigned : ∀ n : Nat, ¬(n : Int) < 0 := fun n => Int.not_lt.mpr (Int.natCast_nonneg n)
  simp only [midnight, String.toList_append, toList_padded, unsigned, if_false, Int.natAbs_natCast,
    WrittenDate.instantText, dayStart, startOfDay, String.toList_ofList]
  split
  · simp
  · simp

theorem spelledUtc_dayStart {year : List Char} {d : PartialDate} (isYear : IsYear year)
    (starts : StartsInCalendar d) :
    (dayStart year d).SpelledUtc ((dayStart year d).instantText startOfDay).toList := by
  obtain ⟨month, day⟩ := PartialDate.inCalendar_iff.mpr starts
  have day := day _ rfl
  have most := (PartialDate.one_le_daysInMonth d.year (d.month.getD 1)).2
  have isMonth : IsTwoDigits (zeroPadded 2 (d.month.getD 1)) := isTwoDigits_zeroPadded (by omega)
  have isDay : IsTwoDigits (zeroPadded 2 (d.day.getD 1)) := isTwoDigits_zeroPadded (by omega)
  have zeros : IsTwoDigits ['0', '0'] := by decide
  exact spelledUtc_instantText (w := dayStart year d) (t := startOfDay) isYear isMonth rfl isDay zeros
    zeros rfl zeros

theorem spelledUtc_midnight {d : PartialDate} (starts : StartsInCalendar d) (late : 0 ≤ d.year) :
    (dayStart (zeroPadded 4 d.year.natAbs) d).SpelledUtc (midnight d).toList := by
  rw [toList_midnight, if_neg (Int.not_lt.mpr late)]
  refine spelledUtc_dayStart ⟨?_, allDigits_zeroPadded _ _⟩ starts
  rw [length_zeroPadded]
  omega

theorem ascii_midnight (d : PartialDate) : ∀ c ∈ (midnight d).toList, c.toNat < 128 := by
  have zeros : ∀ c ∈ ['0', '0'], c.toNat < 128 := by simp
  have started (year : List Char) (digits : ∀ c ∈ year, c.toNat < 128) :
      ∀ c ∈ ((dayStart year d).instantText startOfDay).toList, c.toNat < 128 :=
    forall_mem_instantText ascii_marks digits (ascii_zeroPadded _ _) (ascii_zeroPadded _ _) zeros zeros
      zeros
  rw [toList_midnight]
  split
  · exact List.forall_mem_cons.mpr ⟨by decide, started _ (ascii_zeroPadded _ _)⟩
  · exact started _ (ascii_zeroPadded _ _)

theorem dayStart_values (year : List Char) (d : PartialDate) :
    numeral (dayStart year d).month = d.month.getD 1
      ∧ (dayStart year d).day.map numeral = some (d.day.getD 1)
      ∧ ∀ t ∈ (dayStart year d).time, t.OnClock := by
  refine ⟨numeral_zeroPadded _ _, congrArg some (numeral_zeroPadded _ _), fun t same => ?_⟩
  cases same
  decide

/-- The midnight of a date is an instant, unless its year before zero has less than four digits. -/
theorem isInstantText_midnight_iff {d : PartialDate} (starts : StartsInCalendar d) :
    IsInstantText (midnight d).toList ↔ ¬(-1000 < d.year ∧ d.year < 0) := by
  by_cases early : d.year < 0
  · rw [toList_midnight, if_pos early]
    have long : 4 ≤ (zeroPadded 3 d.year.natAbs).length ↔ ¬(-1000 < d.year ∧ d.year < 0) := by
      rw [four_le_length_zeroPadded_iff]
      omega
    obtain ⟨month, day, time⟩ := dayStart_values (zeroPadded 3 d.year.natAbs) d
    rw [← long]
    constructor
    · intro isInstant
      obtain ⟨w, spelled⟩ := exists_spelledUtc_of_negative isInstant
      obtain ⟨isYear, rest, same⟩ := exists_year_of_spelledUtc spelled
      rw [toList_instantText] at same
      have sameYear : zeroPadded 3 d.year.natAbs = w.year :=
        (append_mark_inj (allDigits_zeroPadded _ _) isYear.2 hyphen_mark hyphen_mark same).1
      rw [sameYear]
      exact isYear.1
    · intro enough
      refine .negative (spelledUtc_dayStart ⟨enough, allDigits_zeroPadded _ _⟩ starts) ?_ time
      rw [month, day, dayStart, numeral_zeroPadded]
      rwa [show -(d.year.natAbs : Int) = d.year by omega]
  · have late : 0 ≤ d.year := Int.not_lt.mp early
    obtain ⟨month, day, time⟩ := dayStart_values (zeroPadded 4 d.year.natAbs) d
    refine iff_of_true (.unsigned (spelledUtc_midnight starts late) ⟨?_, time⟩) fun h => early h.2
    rw [month, day, dayStart, numeral_zeroPadded]
    rwa [show (d.year.natAbs : Int) = d.year by omega]

end MetadataIndex.DateText
