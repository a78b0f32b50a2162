import Mathlib.Data.Finset.Max
import Mathlib.Data.List.Sort
import MetadataIndex.Proofs.Date.Gaps

/-!
# Gaps that are closed

What is written under a name is a set of integers, whatever their texts are. Filling its gaps gives the
integers between the least and the greatest of them, and leaves no gap.
-/

set_option autoImplicit false

namespace MetadataIndex

variable {present skip : List Int} {i : Int}

theorem sorted_missingIntegers (present skip : List Int) :
    (missingIntegers present skip).Pairwise (· < ·) := by
  have ascending (lo hi : Int) : (integersBetween lo hi).Pairwise (· < ·) := by
    unfold integersBetween
    rw [List.pairwise_map]
    exact List.pairwise_lt_range.imp fun below => by omega
  cases present with
  | nil => exact .nil
  | cons n more => exact (ascending _ _).filter _

theorem mem_missingIntegers_iff_between : i ∈ missingIntegers present skip
    ↔ (∃ lo hi, IsLeast {a | a ∈ present} lo ∧ IsGreatest {a | a ∈ present} hi ∧ lo < i ∧ i < hi)
      ∧ i ∉ present ∧ i ∉ skip := by
  rw [mem_missingIntegers]
  constructor
  · intro missing
    obtain ⟨⟨a, low, below⟩, ⟨b, high, above⟩, absent, kept⟩ := missing
    have given : present.toFinset.Nonempty := ⟨a, List.mem_toFinset.mpr low⟩
    have least := present.toFinset.isLeast_min' given
    have greatest := present.toFinset.isGreatest_max' given
    rw [List.coe_toFinset] at least greatest
    have under := Int.le_trans (least.2 low) below
    have beyond := Int.lt_of_lt_of_le above (greatest.2 high)
    have other : present.toFinset.min' given ≠ i := fun same => absent (same ▸ least.1)
    exact ⟨⟨_, _, least, greatest, Int.lt_iff_le_and_ne.mpr ⟨under, other⟩, beyond⟩, absent, kept⟩
  · intro between
    obtain ⟨⟨lo, hi, least, greatest, above, below⟩, absent, kept⟩ := between
    exact ⟨⟨lo, least.1, Int.le_of_lt above⟩, ⟨hi, greatest.1, below⟩, absent, kept⟩

theorem missingIntegers_congr {present' skip' : List Int} (same : ∀ i, i ∈ present' ↔ i ∈ present)
    (skipped : ∀ i, i ∈ skip' ↔ i ∈ skip) :
    missingIntegers present' skip' = missingIntegers present skip := by
  apply (sorted_missingIntegers present' skip').eq_of_mem_iff (sorted_missingIntegers present skip)
  intro i
  simp only [mem_missingIntegers, same, skipped]

/-- What fills the gaps lies between two of the integers, so that it leaves no new gap. -/
theorem missingIntegers_append_self (present skip : List Int) :
    missingIntegers (present ++ missingIntegers present skip) skip = [] := by
  have lower : ∀ a ∈ present ++ missingIntegers present skip, ∃ a' ∈ present, a' ≤ a := by
    intro a member
    cases List.mem_append.mp member with
    | inl old => exact ⟨a, old, Int.le_refl a⟩
    | inr added => exact (mem_missingIntegers.mp added).1
  have upper : ∀ b ∈ present ++ missingIntegers present skip, ∃ b' ∈ present, b ≤ b' := by
    intro b member
    cases List.mem_append.mp member with
    | inl old => exact ⟨b, old, Int.le_refl b⟩
    | inr added =>
      obtain ⟨b', high, above⟩ := (mem_missingIntegers.mp added).2.1
      exact ⟨b', high, Int.le_of_lt above⟩
  rw [List.eq_nil_iff_forall_not_mem]
  intro i missing
  obtain ⟨⟨a, low, below⟩, ⟨b, high, above⟩, absent, kept⟩ := mem_missingIntegers.mp missing
  obtain ⟨a', low, under⟩ := lower a low
  obtain ⟨b', high, beyond⟩ := upper b high
  rw [List.mem_append, not_or] at absent
  apply absent.2
  apply mem_missingIntegers.mpr
  exact ⟨⟨a', low, Int.le_trans under below⟩, ⟨b', high, Int.lt_of_lt_of_le above beyond⟩, absent.1, kept⟩

/-- The integers that are written under a name, each in any text that reads as it. -/
def writtenIntegers (name : String) (fields : List Field) : Set Int :=
  {i | ∃ v, ⟨name, v⟩ ∈ fields ∧ Decimal.readInt? v = some i}

variable {name : String} {fields : List Field}

theorem writtenIntegers_eq (name : String) (fields : List Field) :
    writtenIntegers name fields = {i | i ∈ integerValues name fields} := by
  ext i
  exact mem_integerValues.symm

theorem integerValues_append (name : String) (fields others : List Field) :
    integerValues name (fields ++ others) = integerValues name fields ++ integerValues name others := by
  simp [integerValues, Field.valuesOf]

theorem integerValues_cons_of_read {v : String} (read : Decimal.readInt? v = some i) :
    integerValues name (⟨name, v⟩ :: fields) = i :: integerValues name fields := by
  simp [integerValues, Field.valuesOf, read]

theorem integerValues_map_toString (name : String) {added : List Int}
    (limited : ∀ i ∈ added, Decimal.InLimit i) :
    integerValues name (added.map fun i => ⟨name, toString i⟩) = added := by
  induction added with
  | nil => rfl
  | cons i added ih =>
    obtain ⟨first, rest⟩ := List.forall_mem_cons.mp limited
    rw [List.map_cons, integerValues_cons_of_read (Decimal.readInt?_toString first), ih rest]

theorem inLimit_of_mem_missingIntegers
    (missing : i ∈ missingIntegers (integerValues name fields) skip) : Decimal.InLimit i := by
  obtain ⟨⟨a, low, below⟩, ⟨b, high, above⟩, -⟩ := mem_missingIntegers.mp missing
  obtain ⟨_, -, lowest⟩ := mem_integerValues.mp low
  obtain ⟨_, -, highest⟩ := mem_integerValues.mp high
  exact .of_between (Decimal.inLimit_of_readInt? lowest) (Decimal.inLimit_of_readInt? highest) below
    (Int.le_of_lt above)

theorem completeIntegers_eq (named : name ≠ "") (fields : List Field) (skip : List Int) :
    completeIntegers fields name skip
      = .ok ((missingIntegers (integerValues name fields) skip).map fun i => ⟨name, toString i⟩) := by
  unfold completeIntegers
  rw [if_neg (by simpa using named)]

/-- What fills the gaps under a name, in ascending order, is what lies strictly between the least and the
greatest integer that is written there and is neither written itself nor skipped. Of the fields only the
set of these integers counts, and nothing is left to fill afterwards. -/
theorem completeIntegers_closes (named : name ≠ "") (fields : List Field) (skip : List Int) :
    ∃ added : List Int,
      completeIntegers fields name skip = .ok (added.map fun i => ⟨name, toString i⟩)
      ∧ added.Pairwise (· < ·)
      ∧ (∀ i, i ∈ added ↔ (∃ lo hi, IsLeast (writtenIntegers name fields) lo
          ∧ IsGreatest (writtenIntegers name fields) hi ∧ lo < i ∧ i < hi)
        ∧ i ∉ writtenIntegers name fields ∧ i ∉ skip)
      ∧ (∀ others skip', writtenIntegers name others = writtenIntegers name fields →
        (∀ i, i ∈ skip' ↔ i ∈ skip) →
        completeIntegers others name skip' = completeIntegers fields name skip)
      ∧ completeIntegers (fields ++ added.map fun i => ⟨name, toString i⟩) name skip = .ok [] := by
  refine ⟨_, completeIntegers_eq named fields skip, sorted_missingIntegers _ _, ?between, ?depends,
    ?closed⟩
  case between =>
    intro i
    rw [writtenIntegers_eq]
    exact mem_missingIntegers_iff_between
  case depends =>
    intro others skip' written skipped
    rw [writtenIntegers_eq, writtenIntegers_eq] at written
    have same : ∀ i, i ∈ integerValues name others ↔ i ∈ integerValues name fields :=
      Set.ext_iff.mp written
    rw [completeIntegers_eq named, completeIntegers_eq named, missingIntegers_congr same skipped]
  case closed =>
    rw [completeIntegers_eq named, integerValues_append,
      integerValues_map_toString name fun i missing => inLimit_of_mem_missingIntegers missing,
      missingIntegers_append_self, List.map_nil]

theorem completeIntegers_closes_years : FieldName.year ≠ ""
    ∧ completeIntegers [⟨FieldName.year, " +01_993"⟩, ⟨FieldName.year, "n. d."⟩, ⟨FieldName.century, "5"⟩,
        ⟨FieldName.year, "1989"⟩, ⟨FieldName.year, "1993"⟩] FieldName.year [1991]
      = .ok [⟨FieldName.year, "1990"⟩, ⟨FieldName.year, "1992"⟩]
    ∧ completeIntegers [⟨FieldName.year, " +01_993"⟩, ⟨FieldName.year, "n. d."⟩, ⟨FieldName.century, "5"⟩,
        ⟨FieldName.year, "1989"⟩, ⟨FieldName.year, "1993"⟩, ⟨FieldName.year, "1990"⟩,
        ⟨FieldName.year, "1992"⟩] FieldName.year [1991] = .ok [] := by
  have named : FieldName.year ≠ "" := by decide
  have filled : completeIntegers [⟨FieldName.year, " +01_993"⟩, ⟨FieldName.year, "n. d."⟩,
      ⟨FieldName.century, "5"⟩, ⟨FieldName.year, "1989"⟩, ⟨FieldName.year, "1993"⟩] FieldName.year [1991]
      = .ok [⟨FieldName.year, "1990"⟩, ⟨FieldName.year, "1992"⟩] := by
    decide +kernel
  obtain ⟨added, made, -, -, -, closed⟩ := completeIntegers_closes named _ _
  rw [filled] at made
  rw [← Except.ok.inj made] at closed
  exact ⟨named, filled, closed⟩

end MetadataIndex
