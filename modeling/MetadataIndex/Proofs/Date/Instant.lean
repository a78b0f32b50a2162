import MetadataIndex.Proofs.Date.Midnight
import MetadataIndex.Proofs.Date.Years

/-!
# Instants of date fields

What a date field holds: nothing, or an instant of universal time. Instants that a text holds already are
kept without a look at the calendar, and the year of an instant made from a year before zero has one digit
less than other years. What is an instant, whichever way it was made, is kept when it is read again.
-/

set_option autoImplicit false

namespace MetadataIndex.DateText

variable {cs : List Char} {w : WrittenDate}

theorem trim_of_spelledUtc {s : String} (spelled : w.SpelledUtc s.toList) : Text.trim s = s := by
  rw [Text.trim, Text.strip_eq_self spelled.spelledAs.not_isBlank, String.ofList_toList]

/-- The text of an instant is kept as it is. -/
theorem toInstant_of_spelledUtc {s : String} (spelled : w.SpelledUtc s.toList) :
    toInstant s = .ok s := by
  unfold toInstant
  rw [trim_of_spelledUtc spelled, if_pos (isInstant_iff.mpr ⟨w, spelled⟩), String.ofList_toList]
  rfl

/-! ## The ways to an instant -/

/-- How the instant of a text comes about. -/
inductive Gives (s : String) : String → Prop where
  | kept {w : WrittenDate} : w.SpelledUtc (Text.trim s).toList → Gives s (Text.trim s)
  | completed {w : WrittenDate} {t : WrittenTime} :
      isInstant (Text.trim s).toList = false → localDateTime? (Text.trim s).toList = some w →
      w.Exists → w.time = some t → Gives s (w.instantText t)
  | absent : isInstant (Text.trim s).toList = false → read s 4 = .ok [] → Gives s ""
  | started {d : PartialDate} {more : List PartialDate} :
      isInstant (Text.trim s).toList = false → read s 4 = .ok (d :: more) → Gives s (midnight d)

theorem of_validLocal? {t : WrittenTime} (found : validLocal? cs = .ok (some (w, t))) :
    localDateTime? cs = some w ∧ w.Exists ∧ w.time = some t := by
  unfold validLocal? at found
  cases read : localDateTime? cs with
  | none =>
    rw [read] at found
    cases found
  | some v =>
    rw [read] at found
    obtain ⟨date, made, found⟩ := Checked.bind_ok found
    split at found
    · next d time _ given =>
      cases found
      exact ⟨rfl, (date?_eq_some made).1, given⟩
    · cases found

theorem read_trim (s : String) (least : Int) :
    read (String.ofList (Text.trim s).toList) least = read s least := by
  rw [read, read, String.ofList_toList, Text.trim_trim]

theorem gives_of_toInstant {s r : String} (made : toInstant s = .ok r) : Gives s r := by
  unfold toInstant at made
  dsimp only at made
  rw [read_trim] at made
  cases instant : isInstant (Text.trim s).toList with
  | true =>
    rw [if_pos instant, String.ofList_toList] at made
    cases made
    obtain ⟨w, spelled⟩ := isInstant_iff.mp instant
    exact .kept spelled
  | false =>
    rw [if_neg (by simp [instant])] at made
    obtain ⟨found, valid, made⟩ := Checked.bind_ok made
    cases found with
    | some found =>
      cases made
      obtain ⟨read, real, time⟩ := of_validLocal? valid
      exact .completed instant read real time
    | none =>
      obtain ⟨dates, read, made⟩ := Checked.bind_ok made
      cases dates with
      | nil =>
        cases made
        exact .absent instant read
      | cons d more =>
        cases made
        exact .started instant read

/-- Within the limit on digits an instant or the empty text is made of every text. -/
theorem toInstant_of_withinLimit {s : String} (within : WithinLimit s.toList) :
    ∃ r, toInstant s = .ok r := by
  refine toInstant_ok_iff.mpr fun ⟨_, long⟩ => ?_
  have positive : (1 : Int) ≤ 4 := by decide
  exact read_ok_iff positive |>.mp (read_of_withinLimit within (by decide)) long

/-! ## What a date field holds -/

/-- The text is an instant already, but the calendar does not have its date or its time of day does not
exist. -/
def IsUnchecked (s : String) : Prop :=
  ∃ w : WrittenDate, w.SpelledUtc (Text.trim s).toList ∧ ¬w.Exists

theorem isUnchecked_iff_of_spelledUtc {s : String} (spelled : w.SpelledUtc (Text.trim s).toList) :
    IsUnchecked s ↔ ¬w.Exists := by
  constructor
  · rintro ⟨v, again, unreal⟩
    exact again.spelledAs.unique spelled.spelledAs ▸ unreal
  · exact fun unreal => ⟨w, spelled, unreal⟩

theorem isUnchecked_iff {s : String} : IsUnchecked s
    ↔ isInstant (Text.trim s).toList = true ∧ ¬(writtenParts (Text.trim s).toList).Exists := by
  rw [isInstant_iff]
  constructor
  · rintro ⟨w, spelled, unreal⟩
    exact ⟨⟨w, spelled⟩, spelled.spelledAs.eq_writtenParts ▸ unreal⟩
  · rintro ⟨⟨w, spelled⟩, unreal⟩
    exact ⟨w, spelled, spelled.spelledAs.eq_writtenParts ▸ unreal⟩

instance (s : String) : Decidable (IsUnchecked s) := decidable_of_iff' _ isUnchecked_iff

/-- The first date in the text is a year before zero with less than four digits. -/
def HasShortYear (s : String) : Prop :=
  ∃ year more, read s 4 = .ok (⟨year, none, none⟩ :: more) ∧ -1000 < year ∧ year < 0

theorem not_hasShortYear_of_spelled {s : String} (spelled : w.SpelledAs (Text.trim s).toList)
    (real : w.Exists) (limited : w.year.length ≤ Decimal.digitLimit) : ¬HasShortYear s := by
  rintro ⟨year, more, made, -⟩
  have positive : (1 : Int) ≤ 4 := by decide
  rw [read_eq positive, absolute?_of_spelled spelled real limited] at made
  cases made

theorem hasShortYear_iff {s : String} {d : PartialDate} {more : List PartialDate}
    (made : read s 4 = .ok (d :: more)) : HasShortYear s ↔ -1000 < d.year ∧ d.year < 0 := by
  constructor
  · rintro ⟨year, others, same, range⟩
    rw [made] at same
    cases same
    exact range
  · intro range
    have bare := (startsInCalendar_of_read (by decide) made d (.head _)).2 range.2
    obtain ⟨year, month, day⟩ := d
    obtain ⟨rfl, rfl⟩ := bare
    exact ⟨year, more, made, range⟩

theorem isInstantText_iff_of_gives {s r : String} (within : WithinLimit s.toList) (gives : Gives s r) :
    r = "" ∨ IsInstantText r.toList ↔ ¬IsUnchecked s ∧ ¬HasShortYear s := by
  have inside := within.infix (Text.trim_infix s)
  have checked (other : isInstant (Text.trim s).toList = false) : ¬IsUnchecked s := by
    rintro ⟨w, spelled, -⟩
    rw [isInstant_iff.mpr ⟨w, spelled⟩] at other
    cases other
  cases gives with
  | @kept w spelled =>
    have given : Text.trim s ≠ "" := by
      intro empty
      rw [empty] at spelled
      exact spelled.ne_nil rfl
    rw [or_iff_right given, isInstantText_iff_of_spelledUtc spelled,
      isUnchecked_iff_of_spelledUtc spelled, Decidable.not_not]
    refine (and_iff_left_of_imp fun real => ?_).symm
    exact not_hasShortYear_of_spelled spelled.spelledAs real (spelled.spelledAs.length_year_le inside)
  | @completed w t other read real time =>
    have written := exists_format_iff.mp ⟨localDateTime?, .head _, read⟩
    exact iff_of_true (.inr (.unsigned (spelledUtc_toSecond read time) (exists_toSecond real time)))
      ⟨checked other, not_hasShortYear_of_spelled written real (written.length_year_le inside)⟩
  | absent other made =>
    refine iff_of_true (.inl rfl) ⟨checked other, ?_⟩
    rintro ⟨year, more, same, -⟩
    rw [made] at same
    cases same
  | @started d more other made =>
    have starts := (startsInCalendar_of_read (by decide) made d (.head _)).1
    have given : midnight d ≠ "" := by simp [midnight]
    rw [or_iff_right given, isInstantText_midnight_iff starts, hasShortYear_iff made]
    exact (and_iff_right (checked other)).symm

/-- What is not taken from the text is ASCII. -/
theorem ascii_or_mem_of_gives {s r : String} (gives : Gives s r) :
    ∀ c ∈ r.toList, c.toNat < 128 ∨ c ∈ s.toList := by
  have inside : ∀ c ∈ (Text.trim s).toList, c.toNat < 128 ∨ c ∈ s.toList :=
    fun c member => .inr ((Text.trim_infix s).subset member)
  cases gives with
  | kept => exact inside
  | @completed w t _ read _ time =>
    obtain ⟨year, month, day, t', clock, -, -, -, spelled, text, rfl⟩ :=
      localDateTime?_eq_some_iff.mp read
    cases time
    rw [text] at inside
    simp only [List.forall_mem_append, List.forall_mem_cons] at inside
    obtain ⟨inYear, -, inMonth, -, inDay, -, inClock⟩ := inside
    obtain ⟨inHour, inMinute, inSecond⟩ := spelled.forall_mem inClock (.inl (by decide))
    have marks : ∀ c ∈ ['-', 'T', ':', 'Z'], c.toNat < 128 ∨ c ∈ s.toList :=
      fun c member => .inl (ascii_marks c member)
    exact forall_mem_instantText marks inYear inMonth inDay inHour inMinute inSecond
  | absent => exact List.forall_mem_nil _
  | @started d => exact fun c member => .inl (ascii_midnight d c member)

/-- A date field holds nothing or an instant that exists, unless its text is an instant already that was
not checked, or its first date is a year before zero with less than four digits. -/
theorem isInstantText_of_toInstant {s : String} (within : WithinLimit s.toList) :
    ∃ r, toInstant s = .ok r
      ∧ (r = "" ∨ IsInstantText r.toList ↔ ¬IsUnchecked s ∧ ¬HasShortYear s)
      ∧ ∀ c ∈ r.toList, c.toNat < 128 ∨ c ∈ s.toList := by
  obtain ⟨r, made⟩ := toInstant_of_withinLimit within
  have gives := gives_of_toInstant made
  exact ⟨r, made, isInstantText_iff_of_gives within gives, ascii_or_mem_of_gives gives⟩

theorem isInstantText_of_toInstant_german :
    WithinLimit "05.08.2014".toList ∧ toInstant "05.08.2014" = .ok "2014-08-05T00:00:00Z"
      ∧ IsInstantText "2014-08-05T00:00:00Z".toList := by
  have within : WithinLimit "05.08.2014".toList := withinLimit_of_length_le (by decide +kernel)
  have value : toInstant "05.08.2014" = .ok "2014-08-05T00:00:00Z" := by decide +kernel
  have dates : read "05.08.2014" 4 = .ok [⟨2014, some 8, some 5⟩] := by decide +kernel
  obtain ⟨r, made, holds, -⟩ := isInstantText_of_toInstant within
  rw [value] at made
  cases made
  refine ⟨within, value, (holds.mpr ⟨by decide +kernel, ?_⟩).resolve_left (by decide +kernel)⟩
  rw [hasShortYear_iff dates]
  decide

/-- A date that no calendar has and a time that no day has are kept, and the year -44 gets three digits. -/
theorem not_isInstantText_of_toInstant :
    (toInstant "2014-13-45T99:99Z" = .ok "2014-13-45T99:99Z"
      ∧ ¬IsInstantText "2014-13-45T99:99Z".toList)
    ∧ toInstant "-0044" = .ok "-044-01-01T00:00:00Z"
      ∧ ¬IsInstantText "-044-01-01T00:00:00Z".toList := by
  have kept : toInstant "2014-13-45T99:99Z" = .ok "2014-13-45T99:99Z" := by decide +kernel
  have unchecked : IsUnchecked "2014-13-45T99:99Z" := by decide +kernel
  have early : toInstant "-0044" = .ok "-044-01-01T00:00:00Z" := by decide +kernel
  have dates : read "-0044" 4 = .ok [⟨-44, none, none⟩] := by decide +kernel
  have short : HasShortYear "-0044" := (hasShortYear_iff dates).mpr (by decide)
  have within (s : String) (few : s.toList.length ≤ Decimal.digitLimit) : WithinLimit s.toList :=
    withinLimit_of_length_le few
  refine ⟨⟨kept, fun isInstant => ?_⟩, early, fun isInstant => ?_⟩
  · have both := isInstantText_iff_of_gives (within _ (by decide +kernel)) (gives_of_toInstant kept)
    exact (both.mp (.inr isInstant)).1 unchecked
  · have both := isInstantText_iff_of_gives (within _ (by decide +kernel)) (gives_of_toInstant early)
    exact (both.mp (.inr isInstant)).2 short

/-! ## Instants again -/

theorem exists_spelledUtc_of_gives {s r : String} (gives : Gives s r) (given : r ≠ "")
    (unsigned : r.toList.head? ≠ some '-') : ∃ w : WrittenDate, w.SpelledUtc r.toList := by
  cases gives with
  | kept spelled => exact ⟨_, spelled⟩
  | completed _ read _ time => exact ⟨_, spelledUtc_toSecond read time⟩
  | absent => exact absurd rfl given
  | @started d more _ made =>
    have starts := (startsInCalendar_of_read (by decide) made d (.head _)).1
    have late : 0 ≤ d.year := by
      apply Int.not_lt.mp
      intro early
      rw [toList_midnight, if_pos early] at unsigned
      exact unsigned rfl
    exact ⟨_, spelledUtc_midnight starts late⟩

/-- An instant that a date field holds stays as it is when it is made an instant again. -/
theorem toInstant_again {s : String} (within : WithinLimit s.toList) :
    ∃ r, toInstant s = .ok r
      ∧ (r ≠ "" → r.toList.head? ≠ some '-' → toInstant r = .ok r) := by
  obtain ⟨r, made⟩ := toInstant_of_withinLimit within
  refine ⟨r, made, fun given unsigned => ?_⟩
  obtain ⟨w, spelled⟩ := exists_spelledUtc_of_gives (gives_of_toInstant made) given unsigned
  exact toInstant_of_spelledUtc spelled

theorem toInstant_again_evening :
    WithinLimit "1969-07-20T20:17".toList
      ∧ toInstant "1969-07-20T20:17" = .ok "1969-07-20T20:17:00Z"
      ∧ toInstant "1969-07-20T20:17:00Z" = .ok "1969-07-20T20:17:00Z" := by
  have within : WithinLimit "1969-07-20T20:17".toList := withinLimit_of_length_le (by decide +kernel)
  have value : toInstant "1969-07-20T20:17" = .ok "1969-07-20T20:17:00Z" := by decide +kernel
  obtain ⟨r, made, again⟩ := toInstant_again within
  rw [value] at made
  cases made
  exact ⟨within, value, again (by decide +kernel) (by decide +kernel)⟩

end MetadataIndex.DateText
