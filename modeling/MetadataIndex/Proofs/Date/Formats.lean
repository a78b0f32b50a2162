import MetadataIndex.Proofs.Date.Written

/-!
# Formats of dates

A reader of one of the formats accepts exactly the texts that are written in its form, with the same
parts. A date is therefore read in a text exactly when the text is written in one of the forms, whichever
format is tried first.
-/

set_option autoImplicit false

namespace MetadataIndex.DateText

open MetadataIndex.Text (isDecimalDigit)

variable {cs digits rest : List Char}

/-! ## Readers of one part -/

theorem twoDigits?_eq_some_iff :
    twoDigits? cs = some (digits, rest) ↔ IsTwoDigits digits ∧ cs = digits ++ rest := by
  constructor
  · intro read
    unfold twoDigits? at read
    split at read
    · split at read
      case isTrue both =>
        cases read
        exact ⟨⟨rfl, by simpa [AllDigits] using both⟩, rfl⟩
      case isFalse => cases read
    · cases read
  · rintro ⟨⟨two, all⟩, rfl⟩
    obtain ⟨a, b, rfl⟩ := List.length_eq_two.mp two
    simp [twoDigits?, all a (by simp), all b (by simp)]

theorem after?_eq_some_iff {c : Char} : after? c cs = some rest ↔ cs = c :: rest := by
  constructor
  · intro read
    unfold after? at read
    split at read
    · split at read
      case isTrue same =>
        cases read
        rw [same]
      case isFalse => cases read
    · cases read
  · rintro rfl
    simp [after?]

theorem whole_eq_some_iff {α : Type} {result : Option (α × List Char)} {a : α} :
    whole result = some a ↔ result = some (a, []) := by
  constructor
  · intro read
    unfold whole at read
    split at read
    · cases read
      rfl
    · cases read
  · rintro rfl
    rfl

theorem yearDigits?_eq_some_iff : yearDigits? cs = some (digits, rest)
    ↔ IsYear digits ∧ cs = digits ++ rest ∧ EndsDigits rest := by
  constructor
  · intro read
    unfold yearDigits? at read
    dsimp only at read
    split at read
    case isTrue enough =>
      cases read
      exact ⟨⟨enough, allDigits_spanDigits cs⟩, List.takeWhile_append_dropWhile.symm,
        endsDigits_spanDigits cs⟩
    case isFalse => cases read
  · rintro ⟨⟨enough, all⟩, rfl, ends⟩
    simp [yearDigits?, spanDigits_append all ends, enough]

/-! ## Readers of a date -/

theorem yearFirst?_eq_some_iff {separator : Char} (mark : isDecimalDigit separator = false)
    {w : WrittenDate} : yearFirst? separator cs = some w
      ↔ ∃ year month day, IsYear year ∧ IsTwoDigits month ∧ IsTwoDigits day
        ∧ cs = year ++ separator :: (month ++ separator :: day)
        ∧ w = ⟨year, month, some day, none⟩ := by
  simp only [yearFirst?, Option.bind_eq_bind, Option.bind_eq_some_iff, Prod.exists,
    yearDigits?_eq_some_iff, twoDigits?_eq_some_iff, after?_eq_some_iff, whole_eq_some_iff]
  constructor
  · rintro ⟨year, _, ⟨isYear, rfl, -⟩, _, rfl, month, _, ⟨isMonth, rfl⟩, _, rfl, day, ⟨isDay, same⟩,
      made⟩
    rw [List.append_nil] at same
    subst same
    cases made
    exact ⟨year, month, _, isYear, isMonth, isDay, rfl, rfl⟩
  · rintro ⟨year, month, day, isYear, isMonth, isDay, rfl, rfl⟩
    exact ⟨year, _, ⟨isYear, rfl, endsDigits_cons mark⟩, _, rfl, month, _, ⟨isMonth, rfl⟩, _, rfl, day,
      ⟨isDay, (List.append_nil _).symm⟩, rfl⟩

theorem yearLast?_eq_some_iff {separator : Char} {first second year : List Char} :
    yearLast? separator cs = some (first, second, year)
      ↔ IsTwoDigits first ∧ IsTwoDigits second ∧ IsYear year
        ∧ cs = first ++ separator :: (second ++ separator :: year) := by
  simp only [yearLast?, Option.bind_eq_bind, Option.bind_eq_some_iff, Prod.exists,
    yearDigits?_eq_some_iff, twoDigits?_eq_some_iff, after?_eq_some_iff, whole_eq_some_iff]
  constructor
  · rintro ⟨_, _, ⟨isFirst, rfl⟩, _, rfl, _, _, ⟨isSecond, rfl⟩, _, rfl, _, ⟨isYear, same, -⟩, made⟩
    rw [List.append_nil] at same
    subst same
    cases made
    exact ⟨isFirst, isSecond, isYear, rfl⟩
  · rintro ⟨isFirst, isSecond, isYear, rfl⟩
    exact ⟨first, _, ⟨isFirst, rfl⟩, _, rfl, second, _, ⟨isSecond, rfl⟩, _, rfl, year,
      ⟨isYear, (List.append_nil _).symm, endsDigits_nil⟩, rfl⟩

theorem yearMonth?_eq_some_iff {w : WrittenDate} : yearMonth? cs = some w
    ↔ ∃ year month, IsYear year ∧ IsTwoDigits month ∧ cs = year ++ '-' :: month
      ∧ w = ⟨year, month, none, none⟩ := by
  simp only [yearMonth?, Option.bind_eq_bind, Option.bind_eq_some_iff, Prod.exists,
    yearDigits?_eq_some_iff, twoDigits?_eq_some_iff, after?_eq_some_iff, whole_eq_some_iff]
  constructor
  · rintro ⟨year, _, ⟨isYear, rfl, -⟩, _, rfl, month, ⟨isMonth, same⟩, made⟩
    rw [List.append_nil] at same
    subst same
    cases made
    exact ⟨year, _, isYear, isMonth, rfl, rfl⟩
  · rintro ⟨year, month, isYear, isMonth, rfl, rfl⟩
    exact ⟨year, _, ⟨isYear, rfl, endsDigits_cons hyphen_mark⟩, _, rfl, month,
      ⟨isMonth, (List.append_nil _).symm⟩, rfl⟩

theorem isoDatePart?_eq_some_iff {w : WrittenDate} : isoDatePart? cs = some (w, rest)
    ↔ ∃ year month day, IsYear year ∧ IsTwoDigits month ∧ IsTwoDigits day
      ∧ cs = year ++ '-' :: (month ++ '-' :: (day ++ rest)) ∧ w = ⟨year, month, some day, none⟩ := by
  simp only [isoDatePart?, Option.bind_eq_bind, Option.bind_eq_some_iff, Prod.exists,
    yearDigits?_eq_some_iff, twoDigits?_eq_some_iff, after?_eq_some_iff]
  constructor
  · rintro ⟨year, _, ⟨isYear, rfl, -⟩, _, rfl, month, _, ⟨isMonth, rfl⟩, _, rfl, day, _,
      ⟨isDay, rfl⟩, made⟩
    cases made
    exact ⟨year, month, day, isYear, isMonth, isDay, rfl, rfl⟩
  · rintro ⟨year, month, day, isYear, isMonth, isDay, rfl, rfl⟩
    exact ⟨year, _, ⟨isYear, rfl, endsDigits_cons hyphen_mark⟩, _, rfl, month, _, ⟨isMonth, rfl⟩, _,
      rfl, day, _, ⟨isDay, rfl⟩, rfl⟩

/-! ## Readers of a time of day -/

theorem dropFraction_eq_iff (ends : EndsTime rest) :
    dropFraction cs = rest ↔ ∃ fraction, IsFraction fraction ∧ cs = fraction ++ rest := by
  constructor
  · intro read
    unfold dropFraction at read
    split at read
    · next behind =>
      dsimp only at read
      split at read
      case isTrue few =>
        subst read
        exact ⟨'.' :: (spanDigits behind).1, .given (allDigits_spanDigits behind) few.1 few.2, by
          simp [spanDigits, List.takeWhile_append_dropWhile]⟩
      case isFalse =>
        subst read
        exact absurd rfl (ends '.' rfl).2.2
    · exact ⟨[], .absent, read⟩
  · rintro ⟨fraction, isFraction, rfl⟩
    cases isFraction with
    | absent =>
      rw [List.nil_append]
      unfold dropFraction
      split
      · exact absurd rfl (ends '.' rfl).2.2
      · rfl
    | given all some few =>
      simp [dropFraction, spanDigits_append all fun c head => (ends c head).1, some, few]

theorem after?_eq_none {c : Char} (other : ∀ d ∈ cs.head?, d ≠ c) : after? c cs = none := by
  cases cs with
  | nil => rfl
  | cons d cs => simp [after?, other d rfl]

theorem time?_eq_some_iff (ends : EndsTime rest) {t : WrittenTime} :
    time? cs = some (t, rest) ↔ ∃ clock, t.SpelledAs clock ∧ cs = clock ++ rest := by
  simp only [time?, Option.bind_eq_bind, Option.bind_eq_some_iff, Prod.exists, twoDigits?_eq_some_iff,
    after?_eq_some_iff]
  constructor
  · rintro ⟨hour, _, ⟨isHour, rfl⟩, _, rfl, minute, behind, ⟨isMinute, rfl⟩, read⟩
    cases seconds : after? ':' behind with
    | none =>
      rw [seconds] at read
      cases read
      exact ⟨_, .minutes isHour isMinute, by simp⟩
    | some more =>
      rw [seconds] at read
      rw [after?_eq_some_iff] at seconds
      subst seconds
      dsimp only at read
      cases two : twoDigits? more with
      | none =>
        rw [two] at read
        cases read
        exact absurd rfl (ends ':' rfl).2.1
      | some parts =>
        obtain ⟨second, behind⟩ := parts
        rw [two] at read
        obtain ⟨isSecond, rfl⟩ := twoDigits?_eq_some_iff.mp two
        cases read
        obtain ⟨fraction, isFraction, same⟩ := (dropFraction_eq_iff ends).mp rfl
        exact ⟨_, .seconds isHour isMinute isSecond isFraction, by simp [← same]⟩
  · rintro ⟨clock, spelled, rfl⟩
    cases spelled with
    | @minutes hour minute isHour isMinute =>
      refine ⟨hour, ':' :: (minute ++ rest), ⟨isHour, by simp⟩, _, rfl, minute, rest, ⟨isMinute, rfl⟩,
        ?_⟩
      rw [after?_eq_none fun d head => (ends d head).2.1]
      rfl
    | @seconds hour minute second fraction isHour isMinute isSecond isFraction =>
      refine ⟨hour, ':' :: (minute ++ ':' :: (second ++ (fraction ++ rest))), ⟨isHour, by simp⟩, _, rfl,
        minute, _, ⟨isMinute, rfl⟩, ?_⟩
      rw [after?_eq_some_iff.mpr rfl]
      dsimp only
      rw [twoDigits?_eq_some_iff.mpr ⟨isSecond, rfl⟩]
      dsimp only
      rw [(dropFraction_eq_iff ends).mpr ⟨fraction, isFraction, rfl⟩]
      rfl

theorem isOffset_iff : isOffset rest = true ↔ IsZone rest := by
  constructor
  · intro read
    unfold isOffset at read
    split at read
    · exact .universal
    · next sign behind _ =>
      rw [Bool.and_eq_true, Bool.or_eq_true, beq_iff_eq, beq_iff_eq] at read
      obtain ⟨isSign, read⟩ := read
      split at read
      · next hours minutes two =>
        obtain ⟨isHours, rfl⟩ := twoDigits?_eq_some_iff.mp two
        obtain ⟨digits, last⟩ := Option.isSome_iff_exists.mp read
        rw [whole_eq_some_iff, twoDigits?_eq_some_iff] at last
        obtain ⟨isMinutes, rfl⟩ := last
        rw [List.append_nil]
        exact .offset isSign isHours isMinutes
      · cases read
    · cases read
  · intro zone
    cases zone with
    | universal => rfl
    | @offset sign hours minutes isSign isHours isMinutes =>
      have first : twoDigits? (hours ++ ':' :: minutes) = some (hours, ':' :: minutes) :=
        twoDigits?_eq_some_iff.mpr ⟨isHours, rfl⟩
      have last : twoDigits? minutes = some (minutes, []) :=
        twoDigits?_eq_some_iff.mpr ⟨isMinutes, (List.append_nil _).symm⟩
      have other : sign ≠ 'Z' := by rcases isSign with rfl | rfl <;> decide
      simp [isOffset, first, last, whole, isSign, other]

theorem localDateTime?_eq_some_iff {w : WrittenDate} : localDateTime? cs = some w
    ↔ ∃ year month day time clock, IsYear year ∧ IsTwoDigits month ∧ IsTwoDigits day
      ∧ time.SpelledAs clock ∧ cs = year ++ '-' :: (month ++ '-' :: (day ++ 'T' :: clock))
      ∧ w = ⟨year, month, some day, some time⟩ := by
  simp only [localDateTime?, Option.bind_eq_bind, Option.bind_eq_some_iff, Prod.exists,
    isoDatePart?_eq_some_iff, after?_eq_some_iff, whole_eq_some_iff, time?_eq_some_iff endsTime_nil]
  constructor
  · rintro ⟨_, _, ⟨year, month, day, isYear, isMonth, isDay, rfl, rfl⟩, _, rfl, time, ⟨clock, spelled,
      same⟩, made⟩
    rw [List.append_nil] at same
    subst same
    cases made
    exact ⟨year, month, day, time, _, isYear, isMonth, isDay, spelled, rfl, rfl⟩
  · rintro ⟨year, month, day, time, clock, isYear, isMonth, isDay, spelled, rfl, rfl⟩
    exact ⟨_, _, ⟨year, month, day, isYear, isMonth, isDay, rfl, rfl⟩, _, rfl, time,
      ⟨clock, spelled, (List.append_nil _).symm⟩, rfl⟩

theorem instant?_eq_some_iff {w : WrittenDate} : instant? cs = some w
    ↔ ∃ year month day time clock zone, IsYear year ∧ IsTwoDigits month ∧ IsTwoDigits day
      ∧ time.SpelledAs clock ∧ IsZone zone
      ∧ cs = year ++ '-' :: (month ++ '-' :: (day ++ 'T' :: (clock ++ zone)))
      ∧ w = ⟨year, month, some day, some time⟩ := by
  simp only [instant?, Option.bind_eq_bind, Option.bind_eq_some_iff, Prod.exists,
    isoDatePart?_eq_some_iff, after?_eq_some_iff]
  constructor
  · rintro ⟨_, _, ⟨year, month, day, isYear, isMonth, isDay, rfl, rfl⟩, _, rfl, time, zone, read, made⟩
    split at made
    case isTrue offset =>
      have isZone := isOffset_iff.mp offset
      obtain ⟨clock, spelled, rfl⟩ := (time?_eq_some_iff isZone.endsTime).mp read
      cases made
      exact ⟨year, month, day, time, clock, zone, isYear, isMonth, isDay, spelled, isZone, rfl, rfl⟩
    case isFalse => cases made
  · rintro ⟨year, month, day, time, clock, zone, isYear, isMonth, isDay, spelled, isZone, rfl, rfl⟩
    refine ⟨_, _, ⟨year, month, day, isYear, isMonth, isDay, rfl, rfl⟩, _, rfl, time, zone,
      (time?_eq_some_iff isZone.endsTime).mpr ⟨clock, spelled, rfl⟩, ?_⟩
    rw [if_pos (isOffset_iff.mpr isZone)]

/-! ## The formats -/

/-- A text has one of the formats exactly when it is written in one of the forms, with the same parts. -/
theorem exists_format_iff {w : WrittenDate} :
    (∃ format ∈ formats, format cs = some w) ↔ w.SpelledAs cs := by
  simp only [formats, List.mem_cons, List.not_mem_nil, or_false, exists_eq_or_imp, exists_eq_left,
    Option.map_eq_some_iff, Prod.exists, localDateTime?_eq_some_iff, instant?_eq_some_iff,
    yearMonth?_eq_some_iff, yearLast?_eq_some_iff, yearFirst?_eq_some_iff hyphen_mark,
    yearFirst?_eq_some_iff dot_mark, yearFirst?_eq_some_iff slash_mark]
  constructor
  · rintro (⟨year, month, day, time, clock, isYear, isMonth, isDay, spelled, rfl, rfl⟩
      | ⟨year, month, day, time, clock, zone, isYear, isMonth, isDay, spelled, isZone, rfl, rfl⟩
      | ⟨day, month, year, ⟨isDay, isMonth, isYear, rfl⟩, rfl⟩
      | ⟨year, month, day, isYear, isMonth, isDay, rfl, rfl⟩
      | ⟨year, month, isYear, isMonth, rfl, rfl⟩
      | ⟨month, day, year, ⟨isMonth, isDay, isYear, rfl⟩, rfl⟩
      | ⟨year, month, day, isYear, isMonth, isDay, rfl, rfl⟩
      | ⟨year, month, day, isYear, isMonth, isDay, rfl, rfl⟩)
    · have given := WrittenDate.SpelledAs.dateTime isYear isMonth isDay spelled (.inl rfl)
      rwa [List.append_nil] at given
    · exact .dateTime isYear isMonth isDay spelled (.inr isZone)
    · exact .dayFirst isYear isMonth isDay
    · exact .yearFirst (.inl rfl) isYear isMonth isDay
    · exact .yearMonth isYear isMonth
    · exact .monthFirst isYear isMonth isDay
    · exact .yearFirst (.inr (.inl rfl)) isYear isMonth isDay
    · exact .yearFirst (.inr (.inr rfl)) isYear isMonth isDay
  · intro spelled
    cases spelled with
    | @dayFirst year month day isYear isMonth isDay =>
      exact .inr (.inr (.inl ⟨day, month, year, ⟨isDay, isMonth, isYear, rfl⟩, rfl⟩))
    | @monthFirst year month day isYear isMonth isDay =>
      exact .inr (.inr (.inr (.inr (.inr (.inl ⟨month, day, year, ⟨isMonth, isDay, isYear, rfl⟩, rfl⟩)))))
    | @yearFirst _ year month day mark isYear isMonth isDay =>
      rcases mark with rfl | rfl | rfl
      · exact .inr (.inr (.inr (.inl ⟨year, month, day, isYear, isMonth, isDay, rfl, rfl⟩)))
      · exact .inr (.inr (.inr (.inr (.inr (.inr (.inl
          ⟨year, month, day, isYear, isMonth, isDay, rfl, rfl⟩))))))
      · exact .inr (.inr (.inr (.inr (.inr (.inr (.inr
          ⟨year, month, day, isYear, isMonth, isDay, rfl, rfl⟩))))))
    | @yearMonth year month isYear isMonth =>
      exact .inr (.inr (.inr (.inr (.inl ⟨year, month, isYear, isMonth, rfl, rfl⟩))))
    | @dateTime year month day clock zone time isYear isMonth isDay spelled offset =>
      rcases offset with rfl | isZone
      · exact .inl ⟨year, month, day, time, clock, isYear, isMonth, isDay, spelled,
          by rw [List.append_nil], rfl⟩
      · exact .inr (.inl ⟨year, month, day, time, clock, zone, isYear, isMonth, isDay, spelled, isZone,
          rfl, rfl⟩)

theorem isDate_iff : IsDate cs ↔ ∃ format ∈ formats, ∃ w ∈ format cs, w.Exists := by
  constructor
  · rintro ⟨w, spelled, real⟩
    obtain ⟨format, known, read⟩ := exists_format_iff.mpr spelled
    exact ⟨format, known, w, read, real⟩
  · rintro ⟨format, known, w, read, real⟩
    exact ⟨w, exists_format_iff.mp ⟨format, known, read⟩, real⟩

instance (cs : List Char) : Decidable (IsDate cs) := decidable_of_iff' _ isDate_iff

end MetadataIndex.DateText
