import MetadataIndex.Date.Basic
import MetadataIndex.Decimal.Numeral
import MetadataIndex.Fault

/-!
# Reading dates

A text is first tried as an absolute date in one of eight formats. Any other text is scanned for
years: a text with a hyphen inside is a range, otherwise each signed number long enough is a year.
-/

set_option autoImplicit false

namespace MetadataIndex.DateText

open MetadataIndex.Text (isDecimalDigit decimalValue?)

/-- The digits at the start of a text, and the rest. -/
def spanDigits (cs : List Char) : List Char × List Char :=
  (cs.takeWhile isDecimalDigit, cs.dropWhile isDecimalDigit)

def twoDigits? : List Char → Option (List Char × List Char)
  | a :: b :: rest => if isDecimalDigit a && isDecimalDigit b then some ([a, b], rest) else none
  | _ => none

def yearDigits? (cs : List Char) : Option (List Char × List Char) :=
  let (digits, rest) := spanDigits cs
  if 4 ≤ digits.length then some (digits, rest) else none

def after? (c : Char) : List Char → Option (List Char)
  | d :: rest => if d = c then some rest else none
  | [] => none

/-- A time of day as written; the fraction of a second is passed over. -/
structure WrittenTime where
  hour : List Char
  minute : List Char
  second : Option (List Char)
deriving DecidableEq, Repr

/-- A date as written. -/
structure WrittenDate where
  year : List Char
  month : List Char
  day : Option (List Char) := none
  time : Option WrittenTime := none
deriving DecidableEq, Repr

def dropFraction : List Char → List Char
  | '.' :: rest =>
    let (digits, rest') := spanDigits rest
    if 1 ≤ digits.length ∧ digits.length ≤ 9 then rest' else '.' :: rest
  | cs => cs

/-- The time of day at the start of a text, and the rest. -/
def time? (cs : List Char) : Option (WrittenTime × List Char) := do
  let (hour, rest) ← twoDigits? cs
  let (minute, rest) ← twoDigits? (← after? ':' rest)
  match after? ':' rest with
  | some more =>
    match twoDigits? more with
    | some (second, rest) => return (⟨hour, minute, some second⟩, dropFraction rest)
    | none => return (⟨hour, minute, none⟩, rest)
  | none => return (⟨hour, minute, none⟩, rest)

def isoDatePart? (cs : List Char) : Option (WrittenDate × List Char) := do
  let (year, rest) ← yearDigits? cs
  let (month, rest) ← twoDigits? (← after? '-' rest)
  let (day, rest) ← twoDigits? (← after? '-' rest)
  return (⟨year, month, some day, none⟩, rest)

def whole {α : Type} (result : Option (α × List Char)) : Option α :=
  match result with
  | some (a, []) => some a
  | _ => none

def localDateTime? (cs : List Char) : Option WrittenDate := do
  let (date, rest) ← isoDatePart? cs
  let time ← whole (time? (← after? 'T' rest))
  return { date with time }

def isOffset : List Char → Bool
  | ['Z'] => true
  | sign :: rest =>
    (sign == '+' || sign == '-') &&
      match twoDigits? rest with
      | some (_, ':' :: rest) => (whole (twoDigits? rest)).isSome
      | _ => false
  | [] => false

/-- A date and a time of day with an offset from universal time. -/
def instant? (cs : List Char) : Option WrittenDate := do
  let (date, rest) ← isoDatePart? cs
  let (time, rest) ← time? (← after? 'T' rest)
  if isOffset rest then some { date with time } else none

def yearLast? (separator : Char) (cs : List Char) : Option (List Char × List Char × List Char) := do
  let (first, rest) ← twoDigits? cs
  let (second, rest) ← twoDigits? (← after? separator rest)
  let year ← whole (yearDigits? (← after? separator rest))
  return (first, second, year)

def yearFirst? (separator : Char) (cs : List Char) : Option WrittenDate := do
  let (year, rest) ← yearDigits? cs
  let (month, rest) ← twoDigits? (← after? separator rest)
  let day ← whole (twoDigits? (← after? separator rest))
  return ⟨year, month, some day, none⟩

def yearMonth? (cs : List Char) : Option WrittenDate := do
  let (year, rest) ← yearDigits? cs
  let month ← whole (twoDigits? (← after? '-' rest))
  return ⟨year, month, none, none⟩

/-- The formats of an absolute date, in the order in which they are tried. -/
def formats : List (List Char → Option WrittenDate) :=
  [localDateTime?,
    instant?,
    fun cs => (yearLast? '.' cs).map fun (day, month, year) => ⟨year, month, some day, none⟩,
    yearFirst? '-',
    yearMonth?,
    fun cs => (yearLast? '/' cs).map fun (month, day, year) => ⟨year, month, some day, none⟩,
    yearFirst? '.',
    yearFirst? '/']

def digitsValue (cs : List Char) : Nat :=
  Decimal.ofDigits (cs.filterMap decimalValue?)

/-- The number written by digits, within the limit on their count. -/
def limitedValue (cs : List Char) : Checked Nat :=
  if cs.length ≤ Decimal.digitLimit then .ok (digitsValue cs) else refuse .notANumber

def WrittenTime.Valid (t : WrittenTime) : Prop :=
  digitsValue t.hour ≤ 23 ∧ digitsValue t.minute ≤ 59 ∧ ∀ s ∈ t.second, digitsValue s ≤ 59

instance (t : WrittenTime) : Decidable t.Valid :=
  inferInstanceAs (Decidable (_ ∧ _ ∧ ∀ s ∈ t.second, _))

/-- The date that is written, if the calendar has it and its time of day exists. -/
def WrittenDate.date? (w : WrittenDate) : Checked (Option PartialDate) := do
  let year ← limitedValue w.year
  let month := digitsValue w.month
  let day := w.day.map digitsValue
  if PartialDate.InCalendar year month day ∧ ∀ t ∈ w.time, t.Valid then
    return some ⟨year, some month, day⟩
  else return none

/-- The absolute date of the first format that gives one. -/
def absoluteAmong (cs : List Char) :
    List (List Char → Option WrittenDate) → Checked (Option PartialDate)
  | [] => .ok none
  | format :: more => do
    match format cs with
    | none => absoluteAmong cs more
    | some w =>
      match ← w.date? with
      | some date => return some date
      | none => absoluteAmong cs more

def absolute? (cs : List Char) : Checked (Option PartialDate) :=
  absoluteAmong cs formats

/-- A run of digits with the sign before it. -/
structure SignedRun where
  signed : Bool
  digits : List Char
deriving DecidableEq, Repr

/-- A run as a list, if it has enough digits. -/
def runIf (enough : Bool) (signed : Bool) (reversed : List Char) : List SignedRun :=
  if enough then [⟨signed, reversed.reverse⟩] else []

/-- The runs of a range: at least two characters, of which the first may be a plus sign. `plus` says
that a plus sign precedes the digits at hand. -/
def rangeRuns (plus : Bool) (digits : List Char) : List Char → List SignedRun
  | [] => runIf (2 ≤ digits.length + plus.toNat && !digits.isEmpty) plus digits
  | c :: cs =>
    if isDecimalDigit c then rangeRuns plus (c :: digits) cs
    else
      runIf (2 ≤ digits.length + plus.toNat && !digits.isEmpty) plus digits
        ++ rangeRuns (c == '+') [] cs

/-- The runs of digits, with whether a minus sign stands before. -/
def minusRuns (minus : Bool) (digits : List Char) : List Char → List SignedRun
  | [] => runIf (!digits.isEmpty) minus digits
  | c :: cs =>
    if isDecimalDigit c then minusRuns minus (c :: digits) cs
    else runIf (!digits.isEmpty) minus digits ++ minusRuns (c == '-') [] cs

/-- The years of runs that are long enough, where `length` counts a run and `negative` says whether
its sign is a minus. -/
def yearsOf (least : Nat) (negative : Bool) (length : SignedRun → Nat) :
    List SignedRun → Checked (List PartialDate)
  | [] => .ok []
  | run :: more => do
    if least ≤ length run then
      let n : Int ← limitedValue run.digits
      let rest ← yearsOf least negative length more
      return ⟨if negative && run.signed then -n else n, none, none⟩ :: rest
    else yearsOf least negative length more

/-- Whether a text is a range of years: a hyphen stands in it and not at its start. -/
def isRange (cs : List Char) : Bool :=
  cs.contains '-' && cs.head? != some '-'

/-- The years in a text that is no absolute date. -/
def scanYears (cs : List Char) (least : Nat) : Checked (List PartialDate) :=
  if isRange cs then
    yearsOf least false (fun run => run.digits.length + run.signed.toNat) (rangeRuns false [] cs)
  else yearsOf least true (fun run => run.digits.length) (minusRuns false [] cs)

/-- The dates in a text; a bare number needs `least` digits to count as a year. -/
def read (s : String) (least : Int) : Checked (List PartialDate) := do
  if least < 1 then refuse .yearDigitsNotPositive
  let cs := (Text.trim s).toList
  if cs.isEmpty then return []
  match ← absolute? cs with
  | some date => return [date]
  | none => scanYears cs least.toNat

end MetadataIndex.DateText
