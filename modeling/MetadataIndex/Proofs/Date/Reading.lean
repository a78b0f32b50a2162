import MetadataIndex.Date.Century
import MetadataIndex.Date.Instant
import MetadataIndex.Proofs.Date.Formats
import MetadataIndex.Proofs.Effect.Comparison

/-!
# Dates that cannot be read

Dates are read in every text but one with a number of too many digits: as the year of an absolute date,
or, where there is none, as a number that counts as a year.
-/

set_option autoImplicit false

namespace MetadataIndex.DateText

open MetadataIndex.Text (isDecimalDigit)

variable {cs : List Char} {w : WrittenDate}

/-- Where an absolute date has its year: at its start, or after a day and a month. -/
def writtenYear (cs : List Char) : List Char :=
  if 4 ≤ (cs.takeWhile isDecimalDigit).length then cs.takeWhile isDecimalDigit else cs.drop 6

/-- Whichever formats a text has, its year stands in one place. -/
theorem year_of_format {format : List Char → Option WrittenDate} (known : format ∈ formats)
    (read : format cs = some w) : w.year = writtenYear cs := by
  have spelled := exists_format_iff.mp ⟨format, known, read⟩
  rw [spelled.eq_writtenParts, writtenParts, writtenYear, spanDigits]
  dsimp only
  split
  · rfl
  · split
    · rfl
    · rfl

theorem limitedValue_ok_iff {digits : List Char} :
    (∃ n, limitedValue digits = .ok n) ↔ digits.length ≤ Decimal.digitLimit := by
  unfold limitedValue
  split
  case isTrue short => exact ⟨fun _ => short, fun _ => ⟨_, rfl⟩⟩
  case isFalse long => exact ⟨nofun, fun short => absurd short long⟩

theorem date?_ok_iff : (∃ d, w.date? = .ok d) ↔ w.year.length ≤ Decimal.digitLimit := by
  rw [← limitedValue_ok_iff]
  refine Checked.exists_bind_ok.trans (exists_congr fun n => and_iff_left ?_)
  dsimp only
  split
  · exact ⟨_, rfl⟩
  · exact ⟨_, rfl⟩

/-- A text has the form of an absolute date with too many digits in its year. -/
def HasLongYear (cs : List Char) : Prop :=
  (∃ format ∈ formats, (format cs).isSome = true) ∧ Decimal.digitLimit < (writtenYear cs).length

theorem absoluteAmong_ok_iff {tried : List (List Char → Option WrittenDate)} (known : tried ⊆ formats) :
    (∃ d, absoluteAmong cs tried = .ok d)
      ↔ ∀ format ∈ tried, (format cs).isSome = true →
        (writtenYear cs).length ≤ Decimal.digitLimit := by
  induction tried with
  | nil => exact ⟨fun _ => List.forall_mem_nil _, fun _ => ⟨none, rfl⟩⟩
  | cons format tried ih =>
    obtain ⟨head, rest⟩ := List.cons_subset.mp known
    rw [List.forall_mem_cons, absoluteAmong]
    cases read : format cs with
    | none => simpa using ih rest
    | some w =>
      -- All formats that fit give the same year, so the first of them decides for the others.
      rw [← year_of_format head read] at ih ⊢
      refine Checked.exists_bind_ok.trans ?_
      rw [Option.isSome_some, forall_prop_of_true rfl]
      constructor
      · rintro ⟨d, made, -⟩
        have short := date?_ok_iff.mp ⟨d, made⟩
        exact ⟨short, fun _ _ _ => short⟩
      · rintro ⟨short, others⟩
        obtain ⟨d, made⟩ := date?_ok_iff.mpr short
        refine ⟨d, made, ?_⟩
        cases d with
        | some date => exact ⟨_, rfl⟩
        | none => exact (ih rest).mpr others

theorem absolute?_ok_iff : (∃ d, absolute? cs = .ok d) ↔ ¬HasLongYear cs := by
  refine (absoluteAmong_ok_iff (List.Subset.refl _)).trans ?_
  simp only [HasLongYear, not_and, Nat.not_lt, forall_exists_index, and_imp]

/-- The runs of digits in a text that is no absolute date, with the number of characters by which each
counts. -/
def countedRuns (cs : List Char) : List (SignedRun × Nat) :=
  if isRange cs then
    (rangeRuns false [] cs).map fun run => (run, run.digits.length + run.signed.toNat)
  else (minusRuns false [] cs).map fun run => (run, run.digits.length)

theorem yearsOf_ok_iff {least : Nat} {negative : Bool} {length : SignedRun → Nat}
    {runs : List SignedRun} : (∃ dates, yearsOf least negative length runs = .ok dates)
      ↔ ∀ run ∈ runs, least ≤ length run → run.digits.length ≤ Decimal.digitLimit := by
  induction runs with
  | nil => exact ⟨fun _ => List.forall_mem_nil _, fun _ => ⟨[], rfl⟩⟩
  | cons run runs ih =>
    rw [List.forall_mem_cons, ← ih, yearsOf]
    split
    case isFalse small => exact ⟨fun ran => ⟨fun enough => absurd enough small, ran⟩, And.right⟩
    case isTrue enough =>
      rw [forall_prop_of_true enough, ← limitedValue_ok_iff]
      constructor
      · rintro ⟨dates, ran⟩
        obtain ⟨n, lifted, ran⟩ := Checked.bind_ok ran
        obtain ⟨k, read, -⟩ := Checked.bind_ok lifted
        obtain ⟨rest, others, -⟩ := Checked.bind_ok ran
        exact ⟨⟨k, read⟩, rest, others⟩
      · rintro ⟨⟨n, read⟩, rest, others⟩
        rw [read, others]
        exact ⟨_, rfl⟩

/-- A number that counts as a year has too many digits. -/
def HasLongRun (cs : List Char) (least : Nat) : Prop :=
  ∃ run ∈ countedRuns cs, least ≤ run.2 ∧ Decimal.digitLimit < run.1.digits.length

theorem scanYears_ok_iff {least : Nat} :
    (∃ dates, scanYears cs least = .ok dates) ↔ ¬HasLongRun cs least := by
  unfold scanYears HasLongRun countedRuns
  split
  · rw [yearsOf_ok_iff]
    simp
  · rw [yearsOf_ok_iff]
    simp

/-- The text is read as an absolute date with too many digits in its year, or it is none and a number in
it that counts as a year has too many. -/
def HasLongDate (cs : List Char) (least : Nat) : Prop :=
  HasLongYear cs ∨ absolute? cs = .ok none ∧ HasLongRun cs least

theorem not_hasLongDate_nil (least : Nat) : ¬HasLongDate [] least := by
  rintro (⟨-, long⟩ | ⟨-, run, member, -⟩)
  · cases long
  · cases member

theorem dates_ok_iff {least : Nat} : (∃ dates, (do
      match ← absolute? cs with
      | some date => return [date]
      | none => scanYears cs least : Checked (List PartialDate)) = .ok dates)
    ↔ ¬HasLongDate cs least := by
  rw [Checked.exists_bind_ok, HasLongDate, not_or, ← absolute?_ok_iff]
  constructor
  · rintro ⟨d, found, ran⟩
    refine ⟨⟨d, found⟩, ?_⟩
    rintro ⟨absent, long⟩
    rw [absent] at found
    cases found
    exact scanYears_ok_iff.mp ran long
  · rintro ⟨⟨d, found⟩, short⟩
    refine ⟨d, found, ?_⟩
    cases d with
    | some date => exact ⟨_, rfl⟩
    | none => exact scanYears_ok_iff.mpr fun long => short ⟨found, long⟩

theorem read_ok_iff {s : String} {least : Int} (positive : 1 ≤ least) :
    (∃ dates, read s least = .ok dates) ↔ ¬HasLongDate (Text.trim s).toList least.toNat := by
  have nonneg : ¬least < 1 := Int.not_lt.mpr positive
  unfold read
  simp only [nonneg, if_false]
  cases (Text.trim s).toList with
  | nil => exact ⟨fun _ => not_hasLongDate_nil _, fun _ => ⟨[], rfl⟩⟩
  | cons c cs => exact dates_ok_iff

theorem validLocal?_ok_of_absolute? {d : Option PartialDate} (found : absolute? cs = .ok d) :
    ∃ l, validLocal? cs = .ok l := by
  have short := absolute?_ok_iff.mp ⟨d, found⟩
  unfold validLocal?
  cases read : localDateTime? cs with
  | none => exact ⟨none, rfl⟩
  | some w =>
    have enough : w.year.length ≤ Decimal.digitLimit := by
      rw [year_of_format (.head _) read]
      exact Nat.not_lt.mp fun long => short ⟨⟨localDateTime?, .head _, by simp [read]⟩, long⟩
    obtain ⟨date, made⟩ := date?_ok_iff.mpr enough
    refine Checked.exists_bind_ok.mpr ⟨date, made, ?_⟩
    split
    · exact ⟨_, rfl⟩
    · exact ⟨_, rfl⟩

theorem absolute?_of_validLocal? {l : WrittenDate × WrittenTime}
    (found : validLocal? cs = .ok (some l)) : ∃ d, absolute? cs = .ok (some d) := by
  unfold validLocal? at found
  split at found
  · cases found
  · next w read =>
    obtain ⟨date, made, found⟩ := Checked.bind_ok found
    split at found
    · next d t _ =>
      refine ⟨d, ?_⟩
      rw [absolute?, formats, absoluteAmong, read]
      change (do match ← w.date? with | some date => return some date | none => _) = _
      rw [made]
      rfl
    · cases found

/-- A text becomes an instant, or none, unless it has a date that is too long; what is an instant already
may have any number of digits in its year. -/
theorem toInstant_ok_iff {s : String} : (∃ instant, toInstant s = .ok instant)
    ↔ ¬(isInstant (Text.trim s).toList = false ∧ HasLongDate (Text.trim s).toList 4) := by
  have again : Text.trim (String.ofList (Text.trim s).toList) = Text.trim s := by simp
  have positive : (1 : Int) ≤ 4 := by decide
  have reads := read_ok_iff (s := String.ofList (Text.trim s).toList) positive
  rw [again] at reads
  unfold toInstant
  dsimp only
  generalize (Text.trim s).toList = cs at reads
  cases isInstant cs with
  | true => exact ⟨fun _ => nofun, fun _ => ⟨_, rfl⟩⟩
  | false =>
    simp only [Bool.false_eq_true, if_false, true_and]
    rw [Checked.exists_bind_ok]
    constructor
    · rintro ⟨l, found, ran⟩
      cases l with
      | some l =>
        obtain ⟨d, found⟩ := absolute?_of_validLocal? found
        rintro (long | ⟨absent, -⟩)
        · exact absolute?_ok_iff.mp ⟨_, found⟩ long
        · rw [absent] at found
          cases found
      | none =>
        obtain ⟨dates, read, -⟩ := Checked.exists_bind_ok.mp ran
        exact reads.mp ⟨dates, read⟩
    · intro short
      obtain ⟨d, found⟩ := absolute?_ok_iff.mpr fun long => short (.inl long)
      obtain ⟨l, valid⟩ := validLocal?_ok_of_absolute? found
      refine ⟨l, valid, ?_⟩
      cases l with
      | some l => exact ⟨_, rfl⟩
      | none =>
        obtain ⟨dates, read⟩ := reads.mpr short
        refine Checked.exists_bind_ok.mpr ⟨dates, read, ?_⟩
        cases dates with
        | nil => exact ⟨_, rfl⟩
        | cons d dates => exact ⟨_, rfl⟩

end MetadataIndex.DateText

namespace MetadataIndex

open DateText (HasLongDate)

def Json.IsText (v : Json) : Prop := ∃ s, v = .text s

theorem customFieldName_ok_iff {custom : Option Json} :
    (∃ name, customFieldName custom = .ok name) ↔ ∀ v ∈ custom, v.IsText := by
  cases custom with
  | none => exact ⟨fun _ => nofun, fun _ => ⟨none, rfl⟩⟩
  | some v =>
    simp only [Option.mem_some_iff, forall_eq']
    cases v with
    | text s => exact ⟨fun _ => ⟨s, rfl⟩, fun _ => ⟨some s, rfl⟩⟩
    | _ => exact ⟨nofun, nofun⟩

theorem dateFields_ok_iff {centuries : List Int} {value : String} {least : Int} {custom : Option Json}
    (positive : 1 ≤ least) : (∃ made, dateFields centuries value least custom = .ok made)
      ↔ ¬HasLongDate (Text.trim value).toList least.toNat
        ∧ ((∃ d dates, DateText.read value least = .ok (d :: dates)) → ∀ v ∈ custom, v.IsText) := by
  rw [← DateText.read_ok_iff positive, ← customFieldName_ok_iff, dateFields]
  split
  case isTrue empty =>
    obtain rfl := String.isEmpty_iff.mp empty
    have none : DateText.read "" least = .ok [] := by
      unfold DateText.read
      rw [if_neg (Int.not_lt.mpr positive)]
      rfl
    rw [none]
    exact iff_of_true ⟨_, rfl⟩ ⟨⟨_, rfl⟩, nofun⟩
  case isFalse =>
    rw [Checked.exists_bind_ok]
    constructor
    · rintro ⟨dates, read, made⟩
      refine ⟨⟨dates, read⟩, ?_⟩
      rintro ⟨d, more, same⟩
      rw [read] at same
      cases same
      obtain ⟨name, named, -⟩ := Checked.exists_bind_ok.mp made
      exact ⟨name, named⟩
    · rintro ⟨⟨dates, read⟩, named⟩
      refine ⟨dates, read, ?_⟩
      cases dates with
      | nil => exact ⟨_, rfl⟩
      | cons d more => exact Checked.exists_map_ok.mpr (named ⟨d, more, read⟩)

end MetadataIndex
