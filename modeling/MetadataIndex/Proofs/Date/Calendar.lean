import Mathlib.Data.Nat.Digits.Defs
import MetadataIndex.Date.Reading
import MetadataIndex.Proofs.Decimal.Written
import Std.Time.Date.PlainDate

/-!
# The calendar

Dates are checked against the proleptic Gregorian calendar, as the standard library has it, and digits are
read as the number that they stand for by their positions.
-/

set_option autoImplicit false

namespace MetadataIndex

namespace PartialDate

open Std.Time

/-- The proleptic Gregorian calendar has the month of the year, and the day if one is given. -/
def IsGregorian (year : Int) (month : Nat) (day : Option Nat) : Prop :=
  ∃ date : PlainDate, date.year.toInt = year ∧ date.month.val = month ∧ ∀ d ∈ day, date.day.val = d

theorem isLeap_iff (year : Year.Offset) : year.isLeap = true ↔ IsLeapYear year.toInt := by
  simp only [Year.Offset.isLeap, IsLeapYear, decide_eq_true_eq, ne_eq, ← Int.dvd_iff_tmod_eq_zero,
    ← Int.dvd_iff_emod_eq_zero]

theorem days_eq_daysInMonth (year : Year.Offset) (month : Month.Ordinal) :
    (Month.Ordinal.days year.isLeap month).val = daysInMonth year.toInt month.val.toNat := by
  obtain ⟨m, low, high⟩ := month
  obtain rfl | rfl | rfl | rfl | rfl | rfl | rfl | rfl | rfl | rfl | rfl | rfl :
      m = 1 ∨ m = 2 ∨ m = 3 ∨ m = 4 ∨ m = 5 ∨ m = 6 ∨ m = 7 ∨ m = 8 ∨ m = 9 ∨ m = 10 ∨ m = 11 ∨ m = 12 := by
    omega
  case inr.inl =>
    cases leap : year.isLeap with
    | true =>
      have february : daysInMonth year.toInt 2 = 29 := by
        simp [daysInMonth, (isLeap_iff year).mp leap]
      exact (congrArg Nat.cast february).symm
    | false =>
      have february : daysInMonth year.toInt 2 = 28 := by
        simp [daysInMonth, ← isLeap_iff year, leap]
      exact (congrArg Nat.cast february).symm
  all_goals rfl

theorem one_le_daysInMonth (year : Int) (month : Nat) :
    1 ≤ daysInMonth year month ∧ daysInMonth year month ≤ 31 := by
  unfold daysInMonth
  split
  · split
    · decide
    · decide
  · split
    · decide
    · decide

theorem inCalendar_iff {year : Int} {month : Nat} {day : Option Nat} :
    InCalendar year month day ↔ IsGregorian year month day := by
  constructor
  · rintro ⟨⟨low, high⟩, days⟩
    let ordinal : Month.Ordinal := ⟨month, by omega, by omega⟩
    have most (d : Nat) (few : d ≤ daysInMonth year month) :
        (d : Int) ≤ (Month.Ordinal.days (Year.Offset.isLeap year) ordinal).val := by
      rw [days_eq_daysInMonth]
      exact_mod_cast few
    have bound := (one_le_daysInMonth year month).2
    cases day with
    | none =>
      have first := most 1 (one_le_daysInMonth year month).1
      exact ⟨⟨year, ordinal, ⟨1, by decide⟩, first⟩, rfl, rfl, nofun⟩
    | some k =>
      obtain ⟨first, last⟩ := days k rfl
      refine ⟨⟨year, ordinal, ⟨k, by omega, by omega⟩, most k last⟩, rfl, rfl, fun d same => ?_⟩
      cases same
      rfl
  · rintro ⟨⟨y, ⟨m, low, high⟩, ⟨k, first, last⟩, valid⟩, sameYear, sameMonth, days⟩
    obtain rfl : y.toInt = year := sameYear
    have number : m = month := sameMonth
    have most : k ≤ daysInMonth y.toInt month := by
      rw [show month = m.toNat by omega, ← days_eq_daysInMonth y ⟨m, low, high⟩]
      exact valid
    refine ⟨by omega, fun d given => ?_⟩
    have day : k = d := days d given
    omega

instance (year : Int) (month : Nat) (day : Option Nat) : Decidable (IsGregorian year month day) :=
  decidable_of_iff _ inCalendar_iff

end PartialDate

namespace DateText

/-- The number that decimal digits of any script stand for. -/
def numeral (cs : List Char) : Nat := Nat.ofDigits 10 (cs.filterMap Text.decimalValue?).reverse

theorem ofDigits_reverse (digits : List Nat) : Nat.ofDigits 10 digits.reverse = Decimal.ofDigits digits := by
  induction digits using List.reverseRecOn with
  | nil => rfl
  | append_singleton digits d ih =>
    rw [List.reverse_append, List.reverse_singleton, List.singleton_append, Nat.ofDigits_cons, ih,
      Decimal.ofDigits_append_singleton]
    exact (Nat.add_comm _ _).trans (congrArg (· + d) (Nat.mul_comm _ _))

theorem digitsValue_eq : digitsValue = numeral := funext fun _ => (ofDigits_reverse _).symm

/-- A time of day before midnight. -/
def WrittenTime.OnClock (t : WrittenTime) : Prop :=
  numeral t.hour < 24 ∧ numeral t.minute < 60 ∧ ∀ s ∈ t.second, numeral s < 60

theorem WrittenTime.valid_iff {t : WrittenTime} : t.Valid ↔ t.OnClock := by
  simp only [WrittenTime.Valid, WrittenTime.OnClock, digitsValue_eq]
  refine and_congr Nat.lt_succ_iff.symm (and_congr Nat.lt_succ_iff.symm ?_)
  exact forall₂_congr fun _ _ => Nat.lt_succ_iff.symm

instance (t : WrittenTime) : Decidable t.OnClock := decidable_of_iff _ WrittenTime.valid_iff

end DateText

end MetadataIndex
