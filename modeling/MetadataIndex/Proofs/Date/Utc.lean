import MetadataIndex.Date.Instant
import MetadataIndex.Proofs.Date.Formats

/-!
# Dates in universal time

The texts of instants. A text is an instant exactly when a date and a time of day are written in it in
universal time, and a local date with a time of day becomes such a text.
-/

set_option autoImplicit false

namespace MetadataIndex.DateText

/-- A date and a time of day are written in universal time, the year without a sign. -/
inductive WrittenDate.SpelledUtc : WrittenDate → List Char → Prop where
  | mk {year month day clock : List Char} {time : WrittenTime} :
      IsYear year → IsTwoDigits month → IsTwoDigits day → time.SpelledAs clock →
      SpelledUtc ⟨year, month, some day, some time⟩
        (year ++ '-' :: (month ++ '-' :: (day ++ 'T' :: (clock ++ ['Z']))))

/-- The text of an instant of universal time that exists; a minus sign stands before negative years. -/
inductive IsInstantText : List Char → Prop where
  | unsigned {w : WrittenDate} {cs : List Char} : w.SpelledUtc cs → w.Exists → IsInstantText cs
  | negative {w : WrittenDate} {cs : List Char} :
      w.SpelledUtc cs →
      PartialDate.IsGregorian (-(numeral w.year : Int)) (numeral w.month) (w.day.map numeral) →
      (∀ t ∈ w.time, t.OnClock) → IsInstantText ('-' :: cs)

variable {cs : List Char} {w : WrittenDate}

theorem WrittenDate.SpelledUtc.spelledAs (spelled : w.SpelledUtc cs) : w.SpelledAs cs := by
  cases spelled with
  | mk isYear isMonth isDay clock => exact .dateTime isYear isMonth isDay clock (.inr .universal)

theorem head?_ne_hyphen_of_isYear {year rest : List Char} (isYear : IsYear year) :
    (year ++ rest).head? ≠ some '-' := by
  obtain ⟨long, all⟩ := isYear
  cases year with
  | nil => cases long
  | cons c year =>
    intro head
    cases head
    exact absurd (all '-' (.head _)) (by decide)

theorem WrittenDate.SpelledUtc.head?_ne (spelled : w.SpelledUtc cs) : cs.head? ≠ some '-' := by
  cases spelled with
  | mk isYear => exact head?_ne_hyphen_of_isYear isYear

theorem getLast?_of_isTwoDigits {digits front : List Char} (two : IsTwoDigits digits) :
    (front ++ digits).getLast? ≠ some 'Z' := by
  intro last
  rw [List.getLast?_append_of_ne_nil _ (List.ne_nil_of_length_eq_add_one two.1)] at last
  exact absurd (two.2 'Z' (List.mem_of_getLast? last)) (by decide)

theorem isInstant_iff : isInstant cs = true ↔ ∃ w : WrittenDate, w.SpelledUtc cs := by
  rw [isInstant, Bool.and_eq_true, Option.isSome_iff_exists, beq_iff_eq]
  constructor
  · rintro ⟨⟨w, read⟩, last⟩
    obtain ⟨year, month, day, time, clock, zone, isYear, isMonth, isDay, spelled, isZone, rfl, rfl⟩ :=
      instant?_eq_some_iff.mp read
    cases isZone with
    | universal => exact ⟨_, .mk isYear isMonth isDay spelled⟩
    | @offset sign hours minutes _ _ isMinutes =>
      have behind : year ++ '-' :: (month ++ '-' :: (day ++ 'T' :: (clock ++ sign :: (hours
          ++ ':' :: minutes)))) = (year ++ '-' :: (month ++ '-' :: (day ++ 'T' :: (clock ++ sign :: (hours
          ++ [':']))))) ++ minutes := by simp
      rw [behind] at last
      exact absurd last (getLast?_of_isTwoDigits isMinutes)
  · rintro ⟨w, spelled⟩
    cases spelled with
    | @mk year month day clock time isYear isMonth isDay spelled =>
      refine ⟨⟨_, instant?_eq_some_iff.mpr ⟨year, month, day, time, clock, _, isYear, isMonth, isDay,
        spelled, .universal, rfl, rfl⟩⟩, ?_⟩
      simp [List.getLast?_append, List.getLast?_cons]

theorem exists_year_of_spelledUtc (spelled : w.SpelledUtc cs) :
    IsYear w.year ∧ ∃ rest, cs = w.year ++ '-' :: rest := by
  cases spelled with
  | mk isYear => exact ⟨isYear, _, rfl⟩

theorem WrittenDate.SpelledUtc.ne_nil (spelled : w.SpelledUtc cs) : cs ≠ [] := by
  obtain ⟨-, rest, rfl⟩ := exists_year_of_spelledUtc spelled
  simp

theorem isInstantText_iff_of_spelledUtc (spelled : w.SpelledUtc cs) : IsInstantText cs ↔ w.Exists := by
  constructor
  · intro isInstant
    cases isInstant with
    | unsigned again real => exact again.spelledAs.unique spelled.spelledAs ▸ real
    | negative => exact absurd rfl spelled.head?_ne
  · exact .unsigned spelled

theorem exists_spelledUtc_of_negative (isInstant : IsInstantText ('-' :: cs)) :
    ∃ w : WrittenDate, w.SpelledUtc cs := by
  cases isInstant with
  | unsigned spelled => exact absurd rfl spelled.head?_ne
  | @negative w _ spelled => exact ⟨w, spelled⟩

/-! ## Dates with a time of day -/

theorem toList_instantText (w : WrittenDate) (t : WrittenTime) : (w.instantText t).toList
    = w.year ++ '-' :: (w.month ++ '-' :: (w.day.getD [] ++ 'T' ::
      (t.hour ++ ':' :: (t.minute ++ ':' :: (t.second.getD ['0', '0'] ++ ['Z']))))) := by
  simp [WrittenDate.instantText]

theorem spelledUtc_instantText {t : WrittenTime} {day second : List Char} (isYear : IsYear w.year)
    (isMonth : IsTwoDigits w.month) (given : w.day = some day) (isDay : IsTwoDigits day)
    (isHour : IsTwoDigits t.hour) (isMinute : IsTwoDigits t.minute)
    (shown : t.second.getD ['0', '0'] = second) (isSecond : IsTwoDigits second) :
    WrittenDate.SpelledUtc ⟨w.year, w.month, some day, some ⟨t.hour, t.minute, some second⟩⟩
      (w.instantText t).toList := by
  have text : (w.instantText t).toList = w.year ++ '-' :: (w.month ++ '-' :: (day ++ 'T' ::
      ((t.hour ++ ':' :: (t.minute ++ ':' :: (second ++ []))) ++ ['Z']))) := by
    simp [toList_instantText, given, shown]
  rw [text]
  exact .mk isYear isMonth isDay (.seconds isHour isMinute isSecond .absent)

theorem ascii_marks : ∀ c ∈ ['-', 'T', ':', 'Z'], c.toNat < 128 := by simp

theorem forall_mem_instantText {P : Char → Prop} {t : WrittenTime}
    (marks : ∀ c ∈ ['-', 'T', ':', 'Z'], P c) (year : ∀ c ∈ w.year, P c) (month : ∀ c ∈ w.month, P c)
    (day : ∀ c ∈ w.day.getD [], P c) (hour : ∀ c ∈ t.hour, P c) (minute : ∀ c ∈ t.minute, P c)
    (second : ∀ c ∈ t.second.getD ['0', '0'], P c) : ∀ c ∈ (w.instantText t).toList, P c := by
  simp only [List.forall_mem_cons] at marks
  obtain ⟨hyphen, time, colon, zone, -⟩ := marks
  rw [toList_instantText]
  simp only [List.forall_mem_append, List.forall_mem_cons]
  exact ⟨year, hyphen, month, hyphen, day, time, hour, colon, minute, colon, second, zone,
    List.forall_mem_nil _⟩

theorem WrittenTime.SpelledAs.digits {t : WrittenTime} {clock : List Char} (spelled : t.SpelledAs clock) :
    IsTwoDigits t.hour ∧ IsTwoDigits t.minute ∧ IsTwoDigits (t.second.getD ['0', '0']) := by
  cases spelled with
  | minutes isHour isMinute =>
    have zeros : IsTwoDigits ['0', '0'] := by decide
    exact ⟨isHour, isMinute, zeros⟩
  | seconds isHour isMinute isSecond => exact ⟨isHour, isMinute, isSecond⟩

theorem WrittenTime.SpelledAs.forall_mem {P : Char → Prop} {t : WrittenTime} {clock : List Char}
    (spelled : t.SpelledAs clock) (inClock : ∀ c ∈ clock, P c) (zero : P '0') :
    (∀ c ∈ t.hour, P c) ∧ (∀ c ∈ t.minute, P c) ∧ ∀ c ∈ t.second.getD ['0', '0'], P c := by
  cases spelled with
  | minutes =>
    simp only [List.forall_mem_append, List.forall_mem_cons] at inClock
    obtain ⟨hour, -, minute⟩ := inClock
    exact ⟨hour, minute, List.forall_mem_cons.mpr ⟨zero, List.forall_mem_singleton.mpr zero⟩⟩
  | seconds =>
    simp only [List.forall_mem_append, List.forall_mem_cons] at inClock
    obtain ⟨hour, -, minute, -, second, -⟩ := inClock
    exact ⟨hour, minute, second⟩

/-- The date with its time of day, to the second. -/
def WrittenDate.toSecond (w : WrittenDate) (t : WrittenTime) : WrittenDate :=
  { w with time := some { t with second := some (t.second.getD ['0', '0']) } }

theorem spelledUtc_toSecond {t : WrittenTime} (read : localDateTime? cs = some w)
    (time : w.time = some t) : (w.toSecond t).SpelledUtc (w.instantText t).toList := by
  obtain ⟨year, month, day, t', clock, isYear, isMonth, isDay, spelled, -, rfl⟩ :=
    localDateTime?_eq_some_iff.mp read
  cases time
  obtain ⟨isHour, isMinute, isSecond⟩ := spelled.digits
  exact spelledUtc_instantText isYear isMonth rfl isDay isHour isMinute rfl isSecond

theorem exists_toSecond {t : WrittenTime} (real : w.Exists) (time : w.time = some t) :
    (w.toSecond t).Exists := by
  obtain ⟨day, times⟩ := real
  obtain ⟨hour, minute, second⟩ := times t time
  refine ⟨day, fun t' same => ?_⟩
  cases same
  refine ⟨hour, minute, fun s same => ?_⟩
  cases same
  cases given : t.second with
  | none => decide
  | some s => exact second s given

end MetadataIndex.DateText
