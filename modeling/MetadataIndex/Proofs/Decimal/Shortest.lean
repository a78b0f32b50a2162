import Mathlib.Data.List.Basic
import MetadataIndex.Decimal.Shortest

/-!
# The characters of doubles

A double is written with digits, a point, signs, the letter of an exponent and the letters of the names
of infinity and of not-a-number.
-/

set_option autoImplicit false

namespace MetadataIndex.Decimal

def IsFloatMark (c : Char) : Prop := c.isDigit = true ∨ c ∈ ".e+-infa".toList

instance (c : Char) : Decidable (IsFloatMark c) := inferInstanceAs (Decidable (_ ∨ _))

/-- Only characters in which doubles are written. -/
def FloatMarks (cs : List Char) : Prop := ∀ c ∈ cs, IsFloatMark c

instance (cs : List Char) : Decidable (FloatMarks cs) := List.decidableBAll IsFloatMark cs

namespace FloatMarks

variable {cs ds : List Char}

theorem cons {c : Char} (first : IsFloatMark c) (rest : FloatMarks cs) : FloatMarks (c :: cs) :=
  List.forall_mem_cons.mpr ⟨first, rest⟩

theorem append (first : FloatMarks cs) (rest : FloatMarks ds) : FloatMarks (cs ++ ds) :=
  List.forall_mem_append.mpr ⟨first, rest⟩

theorem of_subset (marks : FloatMarks ds) (within : cs ⊆ ds) : FloatMarks cs := by
  intro c member
  exact marks c (within member)

theorem zeros (count : Nat) : FloatMarks (List.replicate count '0') := by
  intro c member
  rw [(List.mem_replicate.mp member).2]
  decide

theorem repr (n : Nat) : FloatMarks (Nat.repr n).toList := by
  intro c member
  rw [Nat.toList_repr] at member
  exact .inl (Nat.isDigit_of_mem_toDigits (by decide) (by decide) member)

end FloatMarks

theorem dropTrailingZeros_subset (digits : List Char) : dropTrailingZeros digits ⊆ digits := by
  intro c member
  rw [dropTrailingZeros, List.mem_reverse] at member
  exact List.mem_reverse.mp ((List.dropWhile_suffix _).subset member)

variable {digits : List Char}

theorem floatMarks_exponentText (marks : FloatMarks digits) (e : Int) :
    FloatMarks (exponentText digits e).toList := by
  have sign : IsFloatMark (if e < 0 then '-' else '+') := by
    split
    · decide
    · decide
  unfold exponentText
  rw [String.toList_ofList]
  apply FloatMarks.append
  · split
    · exact marks
    · obtain ⟨first, more⟩ := List.forall_mem_cons.mp marks
      exact .cons first (.cons (by decide) more)
    · decide
  · apply FloatMarks.cons (by decide)
    apply FloatMarks.cons sign
    split
    · exact .cons (by decide) (.repr _)
    · exact .repr _

theorem floatMarks_positionalText (marks : FloatMarks digits) (e : Int) :
    FloatMarks (positionalText plainNotation digits e).toList := by
  have start : FloatMarks "0.".toList := by decide
  have tail : FloatMarks plainNotation.integerTail.toList := by decide
  unfold positionalText
  dsimp only
  split
  · rw [String.toList_ofList]
    exact (start.append (.zeros _)).append marks
  split
  · rw [String.toList_append, String.toList_ofList]
    exact (marks.append (.zeros _)).append tail
  · rw [String.toList_ofList]
    apply FloatMarks.append
    · exact marks.of_subset (List.take_subset _ _)
    · exact .cons (by decide) (marks.of_subset (List.drop_subset _ _))

theorem floatMarks_floatText (x : Float) : FloatMarks (floatText x).toList := by
  have notANumber : FloatMarks plainNotation.notANumber.toList := by decide
  have infinity : FloatMarks plainNotation.infinity.toList := by decide
  have zero : FloatMarks ("0" ++ plainNotation.integerTail).toList := by decide
  have minus : FloatMarks "-".toList := by decide
  unfold floatText Notation.text
  split
  · exact notANumber
  generalize body : (if x.isInf then _ else _) = text
  have magnitude : FloatMarks text.toList := by
    have written (n : Nat) : FloatMarks (dropTrailingZeros (Nat.repr n).toList) :=
      (FloatMarks.repr n).of_subset (dropTrailingZeros_subset _)
    rw [← body]
    split
    · exact infinity
    split
    · exact zero
    dsimp only
    split
    · exact floatMarks_exponentText (written _) _
    · exact floatMarks_positionalText (written _) _
  dsimp only
  split
  · rw [String.toList_append]
    exact minus.append magnitude
  · exact magnitude

end MetadataIndex.Decimal
