import MetadataIndex.Text.Category

/-!
# Partial dates

A date is a year with optionally a month and a day of the proleptic Gregorian calendar.
-/

set_option autoImplicit false

namespace MetadataIndex

/-- A year, and optionally a month and a day. -/
structure PartialDate where
  /-- The year; zero and negative years come before year one. -/
  year : Int
  month : Option Nat := none
  day : Option Nat := none
deriving DecidableEq, Repr

namespace PartialDate

def IsLeapYear (year : Int) : Prop :=
  year % 4 = 0 ∧ (year % 100 ≠ 0 ∨ year % 400 = 0)

instance (year : Int) : Decidable (IsLeapYear year) :=
  inferInstanceAs (Decidable (year % 4 = 0 ∧ (year % 100 ≠ 0 ∨ year % 400 = 0)))

def daysInMonth (year : Int) (month : Nat) : Nat :=
  if month = 2 then (if IsLeapYear year then 29 else 28)
  else if month = 4 ∨ month = 6 ∨ month = 9 ∨ month = 11 then 30
  else 31

/-- Whether the calendar has the month, and the day if there is one. -/
def InCalendar (year : Int) (month : Nat) (day : Option Nat) : Prop :=
  (1 ≤ month ∧ month ≤ 12) ∧ ∀ d ∈ day, 1 ≤ d ∧ d ≤ daysInMonth year month

instance (year : Int) (month : Nat) (day : Option Nat) : Decidable (InCalendar year month day) :=
  inferInstanceAs (Decidable ((1 ≤ month ∧ month ≤ 12) ∧ ∀ d ∈ day, _))

/-- A number with at least `width` characters, filled with zeros after the sign. -/
def padded (width : Nat) (n : Int) : String :=
  let digits := (Nat.repr n.natAbs).toList
  if n < 0 then
    String.ofList ('-' :: List.replicate (width - 1 - digits.length) '0' ++ digits)
  else String.ofList (List.replicate (width - digits.length) '0' ++ digits)

end PartialDate

end MetadataIndex
