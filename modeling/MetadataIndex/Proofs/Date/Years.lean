import MetadataIndex.Proofs.Date.Absolute

/-!
# Years in a text

The runs of digits in a text, said without the readers of ranges and of signed numbers, and what these
readers make of them. A signed number counts by its digits. In a range of years a run counts as one longer
when a plus sign stands before it, and a single digit does not count at all.
-/

set_option autoImplicit false

namespace MetadataIndex.DateText

open MetadataIndex.Text (isBlank isDecimalDigit)

def isSign (c : Char) : Bool := c == '+' || c == '-'

/-- Digits that stand together, with no further digit at either end, and the sign directly before them. -/
structure DigitRun where
  sign : Option Char
  digits : List Char
deriving DecidableEq, Repr

/-- The runs of digits in a text, in their order; `before` is the character before the text. -/
def digitRuns (before : Option Char) : List Char → List DigitRun
  | [] => []
  | c :: cs =>
    if isDecimalDigit c && !before.any isDecimalDigit then
      ⟨before.filter isSign, c :: cs.takeWhile isDecimalDigit⟩ :: digitRuns (some c) cs
    else digitRuns (some c) cs

/-- The run as a scan reports it that looks for one of the signs. -/
def DigitRun.marked (mark : Char) (run : DigitRun) : SignedRun :=
  ⟨run.sign == some mark, run.digits⟩

variable {cs : List Char} {before : Option Char}

theorem infix_of_mem_digitRuns {run : DigitRun} (member : run ∈ digitRuns before cs) :
    run.digits <:+: cs ∧ AllDigits run.digits ∧ run.digits ≠ [] := by
  induction cs generalizing before with
  | nil => cases member
  | cons c cs ih =>
    have later (member : run ∈ digitRuns (some c) cs) :
        run.digits <:+: c :: cs ∧ AllDigits run.digits ∧ run.digits ≠ [] :=
      have found := ih member
      ⟨found.1.trans (List.suffix_cons c cs).isInfix, found.2⟩
    rw [digitRuns] at member
    split at member
    case isTrue starts =>
      rw [Bool.and_eq_true] at starts
      rcases List.mem_cons.mp member with rfl | member
      · refine ⟨List.IsPrefix.isInfix ?_, ?_, by simp⟩
        · exact (List.prefix_cons_inj c).mpr (List.takeWhile_prefix _)
        · exact List.forall_mem_cons.mpr ⟨starts.1, allDigits_spanDigits cs⟩
      · exact later member
    case isFalse => exact later member

/-! ## Scans -/

/-- A scan collects the runs of digits one character at a time, with whether the mark stands before them,
and gives those that it keeps, judged by the mark and the number of digits. -/
structure Scans (mark : Char) (keep : Bool → Nat → Bool)
    (scan : Bool → List Char → List Char → List SignedRun) : Prop where
  atEnd : ∀ signed digits, scan signed digits [] = runIf (keep signed digits.length) signed digits
  atDigit : ∀ signed digits c cs, isDecimalDigit c = true →
    scan signed digits (c :: cs) = scan signed (c :: digits) cs
  atOther : ∀ signed digits c cs, isDecimalDigit c = false →
    scan signed digits (c :: cs)
      = runIf (keep signed digits.length) signed digits ++ scan (c == mark) [] cs
  someDigit : ∀ signed, keep signed 0 = false
  markSign : isSign mark = true

theorem isEmpty_eq_length (digits : List Char) : (!digits.isEmpty) = decide (0 < digits.length) := by
  cases digits with
  | nil => rfl
  | cons c digits => simp

theorem rangeRuns_scans :
    Scans '+' (fun plus n => 2 ≤ n + plus.toNat && 0 < n) rangeRuns where
  atEnd _ digits := by rw [rangeRuns, isEmpty_eq_length]
  atDigit _ _ c _ digit := by simp [rangeRuns, digit]
  atOther _ digits c _ other := by simp [rangeRuns, other, isEmpty_eq_length]
  someDigit _ := by simp
  markSign := rfl

theorem minusRuns_scans : Scans '-' (fun _ n => 0 < n) minusRuns where
  atEnd _ digits := by rw [minusRuns, isEmpty_eq_length]
  atDigit _ _ c _ digit := by simp [minusRuns, digit]
  atOther _ digits c _ other := by simp [minusRuns, other, isEmpty_eq_length]
  someDigit _ := rfl
  markSign := rfl

theorem digitRuns_other {c : Char} (other : isDecimalDigit c = false) :
    digitRuns before (c :: cs) = digitRuns (some c) cs := by
  simp [digitRuns, other]

theorem digitRuns_inside {c d : Char} (digit : isDecimalDigit d = true) :
    digitRuns (some d) (c :: cs) = digitRuns (some c) cs := by
  simp [digitRuns, digit]

theorem digitRuns_start {c : Char} (digit : isDecimalDigit c = true)
    (none : before.any isDecimalDigit = false) :
    digitRuns before (c :: cs)
      = ⟨before.filter isSign, c :: cs.takeWhile isDecimalDigit⟩ :: digitRuns (some c) cs := by
  simp [digitRuns, digit, none]

theorem filter_isSign_beq {mark : Char} (sign : isSign mark = true) (before : Option Char) :
    (before.filter isSign == some mark) = (before == some mark) := by
  cases before with
  | none => rfl
  | some c =>
    rw [Bool.eq_iff_iff]
    simp only [beq_iff_eq, Option.filter_eq_some_iff, Option.some.injEq]
    exact and_iff_left_of_imp fun same => same ▸ sign

section Scanned

variable {mark : Char} {keep : Bool → Nat → Bool}
  {scan : Bool → List Char → List Char → List SignedRun}

/-- The runs that a scan gives, read off the runs of digits. -/
def keptRuns (mark : Char) (keep : Bool → Nat → Bool) (runs : List DigitRun) : List SignedRun :=
  (runs.map (·.marked mark)).filter fun run => keep run.signed run.digits.length

theorem keptRuns_cons (run : DigitRun) (runs : List DigitRun) : keptRuns mark keep (run :: runs)
    = runIf (keep (run.sign == some mark) run.digits.length) (run.sign == some mark)
        run.digits.reverse ++ keptRuns mark keep runs := by
  simp only [keptRuns, List.map_cons, List.filter_cons, DigitRun.marked, runIf, List.reverse_reverse]
  split
  · rfl
  · rfl

/-- Inside a run the scan goes on to the end of the digits and gives the whole run; outside of one it
gives the runs to come. -/
theorem Scans.cases (scans : Scans mark keep scan) (cs : List Char) :
    (∀ signed digits d, isDecimalDigit d = true → scan signed (d :: digits) cs
      = runIf (keep signed ((cs.takeWhile isDecimalDigit).reverse ++ d :: digits).length) signed
          ((cs.takeWhile isDecimalDigit).reverse ++ d :: digits)
        ++ keptRuns mark keep (digitRuns (some d) cs))
    ∧ ∀ before : Option Char, before.any isDecimalDigit = false →
      scan (before == some mark) [] cs = keptRuns mark keep (digitRuns before cs) := by
  induction cs with
  | nil =>
    constructor
    · intro signed digits d _
      simp [scans.atEnd, digitRuns, keptRuns]
    · intro before _
      simp [scans.atEnd, digitRuns, keptRuns, scans.someDigit, runIf]
  | cons c cs ih =>
    obtain ⟨inside, outside⟩ := ih
    cases kind : isDecimalDigit c with
    | true =>
      constructor
      · intro signed digits d digit
        rw [scans.atDigit _ _ _ _ kind, inside _ _ _ kind, digitRuns_inside digit]
        simp [kind]
      · intro before none
        rw [scans.atDigit _ _ _ _ kind, inside _ _ _ kind, digitRuns_start kind none, keptRuns_cons]
        simp [filter_isSign_beq scans.markSign]
    | false =>
      have next := outside (some c) kind
      rw [Option.some_beq_some] at next
      constructor
      · intro signed digits d digit
        rw [scans.atOther _ _ _ _ kind, next, digitRuns_other kind]
        simp [kind]
      · intro before none
        rw [scans.atOther _ _ _ _ kind, next, digitRuns_other kind]
        simp [scans.someDigit, runIf]

theorem Scans.eq (scans : Scans mark keep scan) (cs : List Char) :
    scan false [] cs = keptRuns mark keep (digitRuns none cs) :=
  (scans.cases cs).2 none rfl

end Scanned

/-! ## The years of the runs -/

/-- The run as a year. -/
def DigitRun.year (run : DigitRun) : PartialDate := ⟨numeral run.digits, none, none⟩

/-- The run as a year, which is negative behind a minus sign. -/
def DigitRun.signedYear (run : DigitRun) : PartialDate :=
  ⟨if run.sign = some '-' then -(numeral run.digits : Int) else numeral run.digits, none, none⟩

/-- The characters by which a run counts in a range of years: a plus sign before it is one more. -/
def DigitRun.lengthInRange (run : DigitRun) : Nat :=
  if run.sign = some '+' then run.digits.length + 1 else run.digits.length

theorem yearsOf_keptRuns {mark : Char} {keep : Bool → Nat → Bool} {least : Nat} {negative : Bool}
    {length : SignedRun → Nat} {counts : DigitRun → Bool} {runs : List DigitRun}
    (short : ∀ run ∈ runs, run.digits.length ≤ Decimal.digitLimit)
    (same : ∀ run ∈ runs, counts run
      = (keep (run.sign == some mark) run.digits.length && decide (least ≤ length (run.marked mark)))) :
    yearsOf least negative length (keptRuns mark keep runs)
      = .ok ((runs.filter counts).map fun run =>
        ⟨if negative && run.sign == some mark then -(numeral run.digits : Int)
          else numeral run.digits, none, none⟩) := by
  induction runs with
  | nil => rfl
  | cons run runs ih =>
    obtain ⟨limited, short⟩ := List.forall_mem_cons.mp short
    obtain ⟨counted, same⟩ := List.forall_mem_cons.mp same
    have rest := ih short same
    have value : limitedValue (run.marked mark).digits = .ok (numeral run.digits) := by
      rw [← digitsValue_eq]
      exact if_pos limited
    rw [keptRuns_cons, List.filter_cons, counted, runIf, List.reverse_reverse]
    cases keep (run.sign == some mark) run.digits.length with
    | false => simpa using rest
    | true =>
      rw [if_pos rfl, List.singleton_append, yearsOf, rest, ← DigitRun.marked]
      by_cases enough : least ≤ length (run.marked mark)
      · rw [if_pos enough, if_pos (by simpa using enough), value]
        rfl
      · rw [if_neg enough, if_neg (by simpa using enough)]

section Years

variable {least : Nat}

theorem length_digits_le (within : WithinLimit cs) :
    ∀ run ∈ digitRuns before cs, run.digits.length ≤ Decimal.digitLimit := by
  intro run member
  obtain ⟨inside, all, -⟩ := infix_of_mem_digitRuns member
  exact within _ inside all

theorem length_digits_pos {run : DigitRun} (member : run ∈ digitRuns before cs) :
    0 < run.digits.length :=
  List.length_pos_iff.mpr (infix_of_mem_digitRuns member).2.2

theorem scanYears_signed (within : WithinLimit cs) (single : isRange cs = false) :
    scanYears cs least = .ok (((digitRuns none cs).filter fun run =>
      least ≤ run.digits.length).map DigitRun.signedYear) := by
  have counted : ∀ run ∈ digitRuns none cs, decide (least ≤ run.digits.length)
      = (decide (0 < run.digits.length) && decide (least ≤ (run.marked '-').digits.length)) := by
    intro run member
    rw [decide_eq_true (length_digits_pos member), Bool.true_and, DigitRun.marked]
  rw [scanYears, if_neg (by simp [single]), minusRuns_scans.eq,
    yearsOf_keptRuns (length_digits_le within) counted]
  congr 1
  apply List.map_congr_left
  intro run _
  simp [DigitRun.signedYear]

theorem scanYears_range (within : WithinLimit cs) (range : isRange cs = true) :
    scanYears cs least = .ok (((digitRuns none cs).filter fun run =>
      max 2 least ≤ run.lengthInRange).map DigitRun.year) := by
  have counted : ∀ run ∈ digitRuns none cs, decide (max 2 least ≤ run.lengthInRange)
      = ((2 ≤ run.digits.length + (run.sign == some '+').toNat && 0 < run.digits.length)
        && decide (least ≤ (run.marked '+').digits.length + (run.marked '+').signed.toNat)) := by
    intro run member
    have given := length_digits_pos member
    have length : run.lengthInRange = run.digits.length + (run.sign == some '+').toNat := by
      unfold DigitRun.lengthInRange
      by_cases plus : run.sign = some '+'
      · simp [plus]
      · simp [plus]
    rw [DigitRun.marked, length, decide_eq_true given, Bool.and_true, ← Bool.decide_and]
    exact decide_eq_decide.mpr Nat.max_le
  rw [scanYears, if_pos range, rangeRuns_scans.eq,
    yearsOf_keptRuns (length_digits_le within) counted]
  congr 1

end Years

/-! ## The text around the runs -/

theorem digitRuns_append_blank {tail : List Char} (back : ∀ c ∈ tail, isBlank c = true) :
    digitRuns before (cs ++ tail) = digitRuns before cs := by
  have ends : tail.takeWhile isDecimalDigit = [] := by
    cases tail with
    | nil => rfl
    | cons c tail => simp [isDecimalDigit_of_isBlank (back c (.head _))]
  induction cs generalizing before with
  | nil =>
    clear ends
    induction tail generalizing before with
    | nil => rfl
    | cons c tail ih =>
      obtain ⟨blank, back⟩ := List.forall_mem_cons.mp back
      exact (digitRuns_other (isDecimalDigit_of_isBlank blank)).trans (ih back)
  | cons c cs ih =>
    have same : (cs ++ tail).takeWhile isDecimalDigit = cs.takeWhile isDecimalDigit := by
      rw [List.takeWhile_append, ends, List.append_nil]
      split
      case isTrue whole =>
        exact ((List.takeWhile_sublist _).eq_of_length whole).symm
      case isFalse => rfl
    rw [List.cons_append, digitRuns, digitRuns, ih, same]

theorem digitRuns_of_blank {c : Char} (blank : isBlank c = true) :
    digitRuns (some c) cs = digitRuns none cs := by
  have noSign : isSign c = false := by
    cases kind : isSign c with
    | false => rfl
    | true =>
      rw [isSign, Bool.or_eq_true, beq_iff_eq, beq_iff_eq] at kind
      rcases kind with rfl | rfl
      · exact absurd blank (by decide)
      · exact absurd blank (by decide)
  cases cs with
  | nil => rfl
  | cons d cs => simp [digitRuns, isDecimalDigit_of_isBlank blank, Option.filter, noSign]

theorem digitRuns_blank_append {lead : List Char} (front : ∀ c ∈ lead, isBlank c = true) :
    digitRuns none (lead ++ cs) = digitRuns none cs := by
  induction lead with
  | nil => rfl
  | cons c lead ih =>
    obtain ⟨blank, front⟩ := List.forall_mem_cons.mp front
    rw [List.cons_append, digitRuns_other (isDecimalDigit_of_isBlank blank), digitRuns_of_blank blank,
      ih front]

theorem digitRuns_trim (s : String) :
    digitRuns none (Text.trim s).toList = digitRuns none s.toList := by
  obtain ⟨lead, tail, split, front, back⟩ := Text.exists_append_strip isBlank s.toList
  conv => rhs; rw [split]
  rw [List.append_assoc, digitRuns_blank_append front, digitRuns_append_blank back, Text.trim,
    String.toList_ofList]

/-! ## Reading years -/

theorem read_of_not_isDate {s : String} {least : Nat} (positive : 1 ≤ least)
    (within : WithinLimit s.toList) (absent : ¬IsDate (Text.trim s).toList) :
    read s least = scanYears (Text.trim s).toList least := by
  have inside := within.infix (Text.trim_infix s)
  rw [read_eq (by omega), absolute?_of_not_isDate inside absent, Int.toNat_natCast]
  -- The scan is generalized so that nothing of it is unfolded.
  generalize scanYears (Text.trim s).toList least = years
  rfl

/-- Within the limit on digits dates are read in every text. -/
theorem read_of_withinLimit {s : String} {least : Nat} (within : WithinLimit s.toList)
    (positive : 1 ≤ least) : ∃ dates, read s least = .ok dates := by
  have inside := within.infix (Text.trim_infix s)
  by_cases present : IsDate (Text.trim s).toList
  · obtain ⟨w, spelled, real⟩ := present
    rw [read_eq (by omega), absolute?_of_spelled spelled real (spelled.length_year_le inside)]
    exact ⟨_, rfl⟩
  · rw [read_of_not_isDate positive within present]
    cases range : isRange (Text.trim s).toList with
    | true => exact ⟨_, scanYears_range inside range⟩
    | false => exact ⟨_, scanYears_signed inside range⟩

/-- In a range of years with the least number of digits `least`, the run counts though it has too few
digits, or does not count though it has enough. -/
def DigitRun.Miscounted (least : Nat) (run : DigitRun) : Prop :=
  if run.sign = some '+' then 2 ≤ least ∧ run.digits.length + 1 = least
  else least = 1 ∧ run.digits.length = 1

/-- Of two tests that keep different elements, one of them weaker, the weaker one keeps more. -/
theorem map_filter_eq_iff {α β : Type} {p q : α → Bool} {f : α → β} {l : List α}
    (weaker : ∀ a, p a = true → q a = true) :
    (l.filter p).map f = (l.filter q).map f ↔ ∀ a ∈ l, q a = true → p a = true := by
  constructor
  · intro same a member kept
    have lengths : (l.filter p).length = (l.filter q).length := by
      simpa using congrArg List.length same
    have equal := (List.monotone_filter_right l weaker).eq_of_length lengths
    have inside : a ∈ l.filter p := equal ▸ List.mem_filter.mpr ⟨member, kept⟩
    exact (List.mem_filter.mp inside).2
  · intro stronger
    congr 1
    apply List.filter_congr
    intro a member
    rw [Bool.eq_iff_iff]
    exact ⟨weaker a, stronger a member⟩

theorem map_year_eq_iff {least : Nat} (positive : 1 ≤ least) {runs : List DigitRun}
    (given : ∀ run ∈ runs, 0 < run.digits.length) :
    (runs.filter fun run => max 2 least ≤ run.lengthInRange).map DigitRun.year
        = (runs.filter fun run => least ≤ run.digits.length).map DigitRun.year
      ↔ ∀ run ∈ runs, ¬run.Miscounted least := by
  by_cases single : least = 1
  · have weaker (run : DigitRun) (counts : decide (max 2 least ≤ run.lengthInRange) = true) :
        decide (least ≤ run.digits.length) = true := by
      unfold DigitRun.lengthInRange at counts
      grind
    rw [map_filter_eq_iff weaker]
    refine forall₂_congr fun run member => ?_
    have some := given run member
    unfold DigitRun.lengthInRange DigitRun.Miscounted
    grind
  · have weaker (run : DigitRun) (counts : decide (least ≤ run.digits.length) = true) :
        decide (max 2 least ≤ run.lengthInRange) = true := by
      unfold DigitRun.lengthInRange
      grind
    rw [eq_comm, map_filter_eq_iff weaker]
    refine forall₂_congr fun run member => ?_
    unfold DigitRun.lengthInRange DigitRun.Miscounted
    grind

/-- A range of years: a hyphen stands in the text and not at its start. -/
def IsYearRange (cs : List Char) : Prop := '-' ∈ cs ∧ cs.head? ≠ some '-'

instance (cs : List Char) : Decidable (IsYearRange cs) :=
  inferInstanceAs (Decidable (_ ∧ _))

theorem isRange_iff : isRange cs = true ↔ IsYearRange cs := by
  simp [isRange, IsYearRange]

/-- The years of a text that is no absolute date. Outside of ranges they are the runs with enough digits,
negative behind a minus sign. In a range they are the runs with enough characters; these are the runs with
enough digits exactly when none is miscounted. -/
theorem years_of_read {s : String} {least : Nat} (positive : 1 ≤ least)
    (within : WithinLimit s.toList) (absent : ¬IsDate (Text.trim s).toList) :
    (¬IsYearRange (Text.trim s).toList → read s least = .ok (((digitRuns none s.toList).filter fun run =>
      least ≤ run.digits.length).map DigitRun.signedYear))
    ∧ (IsYearRange (Text.trim s).toList → read s least = .ok (((digitRuns none s.toList).filter fun run =>
        max 2 least ≤ run.lengthInRange).map DigitRun.year)
      ∧ (read s least = .ok (((digitRuns none s.toList).filter fun run =>
          least ≤ run.digits.length).map DigitRun.year)
        ↔ ∀ run ∈ digitRuns none s.toList, ¬run.Miscounted least)) := by
  have inside := within.infix (Text.trim_infix s)
  rw [read_of_not_isDate positive within absent]
  constructor
  · intro single
    rw [← isRange_iff, Bool.not_eq_true] at single
    rw [scanYears_signed inside single, digitRuns_trim]
  · intro range
    rw [scanYears_range inside (isRange_iff.mpr range), digitRuns_trim]
    refine ⟨rfl, ?_⟩
    rw [Except.ok.injEq]
    exact map_year_eq_iff positive fun run member => length_digits_pos member

theorem years_of_read_lifetime : 1 ≤ 3 ∧ WithinLimit " 1870-1880, 12 S.".toList
    ∧ ¬IsDate (Text.trim " 1870-1880, 12 S.").toList
    ∧ IsYearRange (Text.trim " 1870-1880, 12 S.").toList
    ∧ read " 1870-1880, 12 S." (3 : Nat) = .ok [⟨1870, none, none⟩, ⟨1880, none, none⟩] := by
  have within : WithinLimit " 1870-1880, 12 S.".toList := withinLimit_of_length_le (by decide +kernel)
  have absent : ¬IsDate (Text.trim " 1870-1880, 12 S.").toList := by decide +kernel
  have range : IsYearRange (Text.trim " 1870-1880, 12 S.").toList := by decide +kernel
  have years := ((years_of_read (show 1 ≤ 3 by decide) within absent).2 range).1
  exact ⟨by decide, within, absent, range, years.trans (by decide +kernel)⟩

/-- A single digit does not count in a range, and behind a plus sign one digit less is enough. -/
theorem not_read_by_digits :
    (¬IsDate (Text.trim "5-12").toList ∧ IsYearRange (Text.trim "5-12").toList
      ∧ (digitRuns none "5-12".toList).filter (fun run => 1 ≤ run.digits.length)
        = [⟨none, ['5']⟩, ⟨some '-', ['1', '2']⟩]
      ∧ read "5-12" 1 = .ok [⟨12, none, none⟩])
    ∧ ¬IsDate (Text.trim "1870-+12").toList ∧ IsYearRange (Text.trim "1870-+12").toList
      ∧ (digitRuns none "1870-+12".toList).filter (fun run => 3 ≤ run.digits.length)
        = [⟨none, ['1', '8', '7', '0']⟩]
      ∧ read "1870-+12" 3 = .ok [⟨1870, none, none⟩, ⟨12, none, none⟩] := by
  decide +kernel

end MetadataIndex.DateText
