import MetadataIndex.Proofs.Date.Calendar
import MetadataIndex.Proofs.Text.Trimmed

/-!
# Written dates

The forms in which an absolute date is written, said without the readers of the formats. In every form the
parts of a date stand at fixed places, so a text is written in one way only. No blank character stands in
a written date.
-/

set_option autoImplicit false

namespace MetadataIndex.DateText

open MetadataIndex.Text (isBlank isDecimalDigit)

/-- Decimal digits of any script and nothing else. -/
def AllDigits (cs : List Char) : Prop := ∀ c ∈ cs, isDecimalDigit c = true

instance (cs : List Char) : Decidable (AllDigits cs) := List.decidableBAll _ cs

def IsTwoDigits (cs : List Char) : Prop := cs.length = 2 ∧ AllDigits cs

instance (cs : List Char) : Decidable (IsTwoDigits cs) :=
  inferInstanceAs (Decidable (_ ∧ _))

/-- The digits of a year, of which there are four or more. -/
def IsYear (cs : List Char) : Prop := 4 ≤ cs.length ∧ AllDigits cs

instance (cs : List Char) : Decidable (IsYear cs) :=
  inferInstanceAs (Decidable (_ ∧ _))

/-- A fraction of a second has up to nine digits, and may be absent. -/
inductive IsFraction : List Char → Prop where
  | absent : IsFraction []
  | given {digits : List Char} :
      AllDigits digits → 1 ≤ digits.length → digits.length ≤ 9 → IsFraction ('.' :: digits)

/-- The offset from universal time. -/
inductive IsZone : List Char → Prop where
  | universal : IsZone ['Z']
  | offset {sign : Char} {hours minutes : List Char} :
      sign = '+' ∨ sign = '-' → IsTwoDigits hours → IsTwoDigits minutes →
      IsZone (sign :: (hours ++ ':' :: minutes))

inductive WrittenTime.SpelledAs : WrittenTime → List Char → Prop where
  | minutes {hour minute : List Char} :
      IsTwoDigits hour → IsTwoDigits minute → SpelledAs ⟨hour, minute, none⟩ (hour ++ ':' :: minute)
  | seconds {hour minute second fraction : List Char} :
      IsTwoDigits hour → IsTwoDigits minute → IsTwoDigits second → IsFraction fraction →
      SpelledAs ⟨hour, minute, some second⟩ (hour ++ ':' :: (minute ++ ':' :: (second ++ fraction)))

/-- A date is written in the form of one of the formats. A date with a time of day may have an offset
behind it. -/
inductive WrittenDate.SpelledAs : WrittenDate → List Char → Prop where
  | dayFirst {year month day : List Char} :
      IsYear year → IsTwoDigits month → IsTwoDigits day →
      SpelledAs ⟨year, month, some day, none⟩ (day ++ '.' :: (month ++ '.' :: year))
  | monthFirst {year month day : List Char} :
      IsYear year → IsTwoDigits month → IsTwoDigits day →
      SpelledAs ⟨year, month, some day, none⟩ (month ++ '/' :: (day ++ '/' :: year))
  | yearFirst {separator : Char} {year month day : List Char} :
      separator = '-' ∨ separator = '.' ∨ separator = '/' →
      IsYear year → IsTwoDigits month → IsTwoDigits day →
      SpelledAs ⟨year, month, some day, none⟩ (year ++ separator :: (month ++ separator :: day))
  | yearMonth {year month : List Char} :
      IsYear year → IsTwoDigits month →
      SpelledAs ⟨year, month, none, none⟩ (year ++ '-' :: month)
  | dateTime {year month day clock zone : List Char} {time : WrittenTime} :
      IsYear year → IsTwoDigits month → IsTwoDigits day → time.SpelledAs clock →
      zone = [] ∨ IsZone zone →
      SpelledAs ⟨year, month, some day, some time⟩
        (year ++ '-' :: (month ++ '-' :: (day ++ 'T' :: (clock ++ zone))))

/-- The date that is written. -/
def WrittenDate.date (w : WrittenDate) : PartialDate :=
  ⟨numeral w.year, some (numeral w.month), w.day.map numeral⟩

/-- The calendar has the date that is written, and its time of day exists. -/
def WrittenDate.Exists (w : WrittenDate) : Prop :=
  PartialDate.IsGregorian (numeral w.year) (numeral w.month) (w.day.map numeral)
    ∧ ∀ t ∈ w.time, t.OnClock

instance (w : WrittenDate) : Decidable w.Exists :=
  inferInstanceAs (Decidable (_ ∧ ∀ t ∈ w.time, _))

/-- The text is an absolute date that exists. -/
def IsDate (cs : List Char) : Prop := ∃ w : WrittenDate, w.SpelledAs cs ∧ w.Exists

variable {cs digits rest : List Char}

/-- What follows does not start with a digit, so that the digits before it end there. -/
def EndsDigits (rest : List Char) : Prop := ∀ c ∈ rest.head?, isDecimalDigit c = false

theorem endsDigits_nil : EndsDigits [] := nofun

theorem endsDigits_cons {c : Char} (mark : isDecimalDigit c = false) : EndsDigits (c :: rest) := by
  intro d head
  cases head
  exact mark

theorem hyphen_mark : isDecimalDigit '-' = false := by decide

theorem dot_mark : isDecimalDigit '.' = false := by decide

theorem slash_mark : isDecimalDigit '/' = false := by decide

theorem spanDigits_append (all : AllDigits digits) (ends : EndsDigits rest) :
    spanDigits (digits ++ rest) = (digits, rest) := by
  have none : rest.takeWhile isDecimalDigit = [] := by
    cases rest with
    | nil => rfl
    | cons c rest => simp [ends c rfl]
  rw [spanDigits, List.takeWhile_append_of_pos all, List.dropWhile_append_of_pos all, none,
    List.append_nil, Text.dropWhile_eq_self ends]

theorem allDigits_spanDigits (cs : List Char) : AllDigits (spanDigits cs).1 :=
  fun _ member => List.all_eq_true.mp List.all_takeWhile _ member

theorem endsDigits_spanDigits (cs : List Char) : EndsDigits (spanDigits cs).2 := by
  intro c head
  have stop := List.head?_dropWhile_not isDecimalDigit cs
  rw [show (cs.dropWhile isDecimalDigit).head? = some c from head] at stop
  simpa using stop

/-- Where digits end at a mark, the digits, the mark and what follows are all determined. -/
theorem append_mark_inj {a b r t : List Char} {c d : Char} (left : AllDigits a) (right : AllDigits b)
    (mark : isDecimalDigit c = false) (mark' : isDecimalDigit d = false)
    (same : a ++ c :: r = b ++ d :: t) : a = b ∧ c = d ∧ r = t := by
  have spans := congrArg spanDigits same
  rw [spanDigits_append left (endsDigits_cons mark), spanDigits_append right (endsDigits_cons mark')]
    at spans
  cases spans
  exact ⟨rfl, rfl, rfl⟩

/-- What follows a time of day cannot be taken for a part of it. -/
def EndsTime (rest : List Char) : Prop :=
  ∀ c ∈ rest.head?, isDecimalDigit c = false ∧ c ≠ ':' ∧ c ≠ '.'

theorem endsTime_nil : EndsTime [] := nofun

theorem IsZone.endsTime (zone : IsZone rest) : EndsTime rest := by
  intro c head
  cases zone with
  | universal =>
    cases head
    decide
  | offset sign =>
    cases head
    rcases sign with rfl | rfl
    · decide
    · decide

/-! ## Where the parts stand -/

/-- The parts of a time of day, by their places in a text that starts with one. -/
def timeParts (cs : List Char) : WrittenTime where
  hour := cs.take 2
  minute := (cs.drop 3).take 2
  second := if (cs.drop 5).head? = some ':' then some ((cs.drop 6).take 2) else none

/-- The parts of a date by their places in its text, whichever form it has. -/
def writtenParts (cs : List Char) : WrittenDate :=
  let (first, rest) := spanDigits cs
  if 4 ≤ first.length then
    { year := first
      month := (rest.drop 1).take 2
      day := if rest.length ≤ 3 then none else some ((rest.drop 4).take 2)
      time := if rest.length ≤ 6 then none else some (timeParts (rest.drop 7)) }
  else if rest.head? = some '.' then
    { year := cs.drop 6, month := (cs.drop 3).take 2, day := some first }
  else { year := cs.drop 6, month := first, day := some ((cs.drop 3).take 2) }

theorem WrittenTime.SpelledAs.eq_timeParts {t : WrittenTime} {clock : List Char}
    (spelled : t.SpelledAs clock) (ends : EndsTime rest) : t = timeParts (clock ++ rest) := by
  cases spelled with
  | @minutes hour minute isHour isMinute =>
    obtain ⟨a, b, rfl⟩ := List.length_eq_two.mp isHour.1
    obtain ⟨c, d, rfl⟩ := List.length_eq_two.mp isMinute.1
    have none : rest.head? ≠ some ':' := fun head => absurd rfl (ends ':' head).2.1
    simp [timeParts, none]
  | @seconds hour minute second fraction isHour isMinute isSecond isFraction =>
    obtain ⟨a, b, rfl⟩ := List.length_eq_two.mp isHour.1
    obtain ⟨c, d, rfl⟩ := List.length_eq_two.mp isMinute.1
    obtain ⟨e, f, rfl⟩ := List.length_eq_two.mp isSecond.1
    simp [timeParts]

theorem WrittenDate.SpelledAs.eq_writtenParts {w : WrittenDate} (spelled : w.SpelledAs cs) :
    w = writtenParts cs := by
  cases spelled with
  | @dayFirst year month day isYear isMonth isDay =>
    rw [writtenParts, spanDigits_append isDay.2 (endsDigits_cons dot_mark)]
    obtain ⟨a, b, rfl⟩ := List.length_eq_two.mp isDay.1
    obtain ⟨c, d, rfl⟩ := List.length_eq_two.mp isMonth.1
    simp
  | @monthFirst year month day isYear isMonth isDay =>
    rw [writtenParts, spanDigits_append isMonth.2 (endsDigits_cons slash_mark)]
    obtain ⟨a, b, rfl⟩ := List.length_eq_two.mp isDay.1
    obtain ⟨c, d, rfl⟩ := List.length_eq_two.mp isMonth.1
    simp
  | @yearFirst separator year month day mark isYear isMonth isDay =>
    have noDigit : isDecimalDigit separator = false := by
      rcases mark with rfl | rfl | rfl
      · exact hyphen_mark
      · exact dot_mark
      · exact slash_mark
    rw [writtenParts, spanDigits_append isYear.2 (endsDigits_cons noDigit)]
    obtain ⟨a, b, rfl⟩ := List.length_eq_two.mp isDay.1
    obtain ⟨c, d, rfl⟩ := List.length_eq_two.mp isMonth.1
    simp [isYear.1]
  | @yearMonth year month isYear isMonth =>
    rw [writtenParts, spanDigits_append isYear.2 (endsDigits_cons hyphen_mark)]
    obtain ⟨c, d, rfl⟩ := List.length_eq_two.mp isMonth.1
    simp [isYear.1]
  | @dateTime year month day clock zone time isYear isMonth isDay spelled offset =>
    have ends : EndsTime zone := by
      rcases offset with rfl | isZone
      · exact endsTime_nil
      · exact isZone.endsTime
    rw [writtenParts, spanDigits_append isYear.2 (endsDigits_cons hyphen_mark)]
    obtain ⟨a, b, rfl⟩ := List.length_eq_two.mp isDay.1
    obtain ⟨c, d, rfl⟩ := List.length_eq_two.mp isMonth.1
    simp [isYear.1, ← spelled.eq_timeParts ends]

/-- A text is written in one way only, so no format takes a text away from another. -/
theorem WrittenDate.SpelledAs.unique {v w : WrittenDate} (left : v.SpelledAs cs)
    (right : w.SpelledAs cs) : v = w :=
  left.eq_writtenParts.trans right.eq_writtenParts.symm

/-! ## Characters of a written date -/

theorem isDecimalDigit_of_isBlank {c : Char} (blank : isBlank c = true) : isDecimalDigit c = false := by
  have table : ∀ n ∈ [0x85, 0xa0, 0x1680, 0x2000, 0x2001, 0x2002, 0x2003, 0x2004, 0x2005, 0x2006,
      0x2007, 0x2008, 0x2009, 0x200a, 0x2028, 0x2029, 0x202f, 0x205f, 0x3000],
      Text.decimalRanges.find? n = none := by
    decide +kernel
  simp only [isBlank, Bool.or_eq_true, Bool.and_eq_true, decide_eq_true_eq, beq_iff_eq] at blank
  have outside : ¬(48 ≤ c.toNat ∧ c.toNat ≤ 57) := by omega
  unfold isDecimalDigit Text.decimalValue?
  dsimp only
  split
  · simpa using outside
  · have listed := table c.toNat (by simp only [List.mem_cons, List.not_mem_nil, or_false]; omega)
    rw [listed]
    rfl

theorem isBlank_of_isDecimalDigit {c : Char} (digit : isDecimalDigit c = true) :
    isBlank c = false := by
  cases blank : isBlank c with
  | false => rfl
  | true => exact absurd digit (by simp [isDecimalDigit_of_isBlank blank])

theorem AllDigits.not_isBlank (all : AllDigits cs) : ∀ c ∈ cs, isBlank c = false :=
  fun c member => isBlank_of_isDecimalDigit (all c member)

theorem IsZone.not_isBlank (zone : IsZone cs) : ∀ c ∈ cs, isBlank c = false := by
  cases zone with
  | universal => exact List.forall_mem_singleton.mpr (by decide)
  | @offset sign _ _ isSign isHours isMinutes =>
    have plain : isBlank sign = false := by
      rcases isSign with rfl | rfl
      · decide
      · decide
    simp only [List.forall_mem_cons, List.forall_mem_append]
    exact ⟨plain, isHours.2.not_isBlank, by decide, isMinutes.2.not_isBlank⟩

theorem WrittenTime.SpelledAs.not_isBlank {t : WrittenTime} (spelled : t.SpelledAs cs) :
    ∀ c ∈ cs, isBlank c = false := by
  cases spelled with
  | minutes isHour isMinute =>
    simp only [List.forall_mem_cons, List.forall_mem_append]
    exact ⟨isHour.2.not_isBlank, by decide, isMinute.2.not_isBlank⟩
  | @seconds _ _ _ fraction isHour isMinute isSecond isFraction =>
    have behind : ∀ c ∈ fraction, isBlank c = false := by
      cases isFraction with
      | absent => exact List.forall_mem_nil _
      | given all => exact List.forall_mem_cons.mpr ⟨by decide, all.not_isBlank⟩
    simp only [List.forall_mem_cons, List.forall_mem_append]
    exact ⟨isHour.2.not_isBlank, by decide, isMinute.2.not_isBlank, by decide,
      isSecond.2.not_isBlank, behind⟩

theorem WrittenDate.SpelledAs.not_isBlank {w : WrittenDate} (spelled : w.SpelledAs cs) :
    ∀ c ∈ cs, isBlank c = false := by
  cases spelled with
  | dayFirst isYear isMonth isDay =>
    simp only [List.forall_mem_cons, List.forall_mem_append]
    exact ⟨isDay.2.not_isBlank, by decide, isMonth.2.not_isBlank, by decide, isYear.2.not_isBlank⟩
  | monthFirst isYear isMonth isDay =>
    simp only [List.forall_mem_cons, List.forall_mem_append]
    exact ⟨isMonth.2.not_isBlank, by decide, isDay.2.not_isBlank, by decide, isYear.2.not_isBlank⟩
  | @yearFirst separator _ _ _ mark isYear isMonth isDay =>
    have plain : isBlank separator = false := by
      rcases mark with rfl | rfl | rfl
      · decide
      · decide
      · decide
    simp only [List.forall_mem_cons, List.forall_mem_append]
    exact ⟨isYear.2.not_isBlank, plain, isMonth.2.not_isBlank, plain, isDay.2.not_isBlank⟩
  | yearMonth isYear isMonth =>
    simp only [List.forall_mem_cons, List.forall_mem_append]
    exact ⟨isYear.2.not_isBlank, by decide, isMonth.2.not_isBlank⟩
  | @dateTime _ _ _ _ zone _ isYear isMonth isDay spelled offset =>
    have behind : ∀ c ∈ zone, isBlank c = false := by
      rcases offset with rfl | isZone
      · exact List.forall_mem_nil _
      · exact isZone.not_isBlank
    simp only [List.forall_mem_cons, List.forall_mem_append]
    exact ⟨isYear.2.not_isBlank, by decide, isMonth.2.not_isBlank, by decide, isDay.2.not_isBlank,
      by decide, spelled.not_isBlank, behind⟩

/-! ## The limit on digits -/

/-- No more digits stand together than a number may have. -/
def WithinLimit (cs : List Char) : Prop :=
  ∀ part, part <:+: cs → AllDigits part → part.length ≤ Decimal.digitLimit

theorem WithinLimit.infix {part : List Char} (within : WithinLimit cs) (inside : part <:+: cs) :
    WithinLimit part :=
  fun _ deeper => within _ (deeper.trans inside)

theorem withinLimit_of_length_le (short : cs.length ≤ Decimal.digitLimit) : WithinLimit cs :=
  fun _ inside _ => Nat.le_trans inside.length_le short

theorem WrittenDate.SpelledAs.isYear {w : WrittenDate} (spelled : w.SpelledAs cs) : IsYear w.year := by
  cases spelled with
  | dayFirst isYear => exact isYear
  | monthFirst isYear => exact isYear
  | yearFirst _ isYear => exact isYear
  | yearMonth isYear => exact isYear
  | dateTime isYear => exact isYear

theorem WrittenDate.SpelledAs.year_infix {w : WrittenDate} (spelled : w.SpelledAs cs) :
    w.year <:+: cs := by
  cases spelled with
  | @dayFirst year month day =>
    exact ⟨day ++ '.' :: (month ++ ['.']), [], by simp⟩
  | @monthFirst year month day =>
    exact ⟨month ++ '/' :: (day ++ ['/']), [], by simp⟩
  | yearFirst => exact (List.prefix_append _ _).isInfix
  | yearMonth => exact (List.prefix_append _ _).isInfix
  | dateTime => exact (List.prefix_append _ _).isInfix

theorem WrittenDate.SpelledAs.length_year_le {w : WrittenDate} (spelled : w.SpelledAs cs)
    (within : WithinLimit cs) : w.year.length ≤ Decimal.digitLimit :=
  within _ spelled.year_infix spelled.isYear.2

end MetadataIndex.DateText
