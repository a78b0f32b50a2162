import Mathlib.Data.List.Induction
import MetadataIndex.Decimal.Numeral

/-!
# Reading written integers

An integer within the limit on digits is read back from its own text, and only such integers are read.
No two integers have the same text.
-/

set_option autoImplicit false

namespace MetadataIndex

namespace Text

theorem strip_eq_self {p : Char → Bool} {cs : List Char} (none : ∀ c ∈ cs, p c = false) :
    strip p cs = cs := by
  have start : cs.dropWhile p = cs := by
    cases cs with
    | nil => rfl
    | cons c cs => simp [none c (.head _)]
  rw [strip, start]
  exact dropTrailing_eq_self fun c last => none c (List.mem_of_getLast? last)

theorem decimalValue?_of_isDigit {c : Char} (digit : c.isDigit = true) :
    decimalValue? c = some (c.toNat - 48) := by
  simp only [Char.isDigit, Bool.and_eq_true, decide_eq_true_eq] at digit
  obtain ⟨low, high⟩ := digit
  have low : 48 ≤ c.toNat := low
  have high : c.toNat ≤ 57 := high
  simp [decimalValue?, low, high, show c.toNat < 128 by omega]

theorem decimalValue?_lt {c : Char} {d : Nat} (value : decimalValue? c = some d) : d < 10 := by
  simp only [decimalValue?] at value
  split at value
  · split at value
    · simp_all
      omega
    · cases value
  · obtain ⟨range, -, rfl⟩ := Option.map_eq_some_iff.mp value
    exact Nat.mod_lt _ (by decide)

end Text

namespace Decimal

/-- The integers that have no more digits than a written number may have. -/
def InLimit (n : Int) : Prop := n.natAbs < Nat.pow 10 digitLimit

theorem InLimit.of_between {a b n : Int} (low : InLimit a) (high : InLimit b) (above : a ≤ n)
    (below : n ≤ b) : InLimit n := by
  unfold InLimit at *
  omega

theorem ofDigits_lt {digits : List Nat} (small : ∀ d ∈ digits, d < 10) :
    ofDigits digits < Nat.pow 10 digits.length := by
  induction digits using List.reverseRecOn with
  | nil => simp [ofDigits]
  | append_singleton digits d ih =>
    have before := ih fun d member => small d (List.mem_append_left _ member)
    have last := small d (by simp)
    have next : Nat.pow 10 (digits.length + 1) = Nat.pow 10 digits.length * 10 := rfl
    rw [ofDigits_append_singleton, List.length_append, List.length_singleton, next]
    omega

theorem ofDigits_lt_of_length_le {digits : List Nat} {k : Nat} (small : ∀ d ∈ digits, d < 10)
    (short : digits.length ≤ k) : ofDigits digits < Nat.pow 10 k :=
  Nat.lt_of_lt_of_le (ofDigits_lt small) (Nat.pow_le_pow_right (by decide) short)

theorem length_toDigits_le {n k : Nat} (given : 0 < k) (small : n < Nat.pow 10 k) :
    (Nat.toDigits 10 n).length ≤ k :=
  (Nat.length_toDigits_le_iff (by decide) given).mpr small

theorem one_lt_pow {k : Nat} (given : k ≠ 0) : 1 < Nat.pow 10 k := Nat.one_lt_pow given (by decide)

theorem digitRun?_of_digits (expectDigit : Bool) {cs : List Char}
    (digits : ∀ c ∈ cs, c.isDigit = true) (given : expectDigit = true → cs ≠ []) :
    digitRun? expectDigit cs = some (cs.map fun c => c.toNat - 48) := by
  induction cs generalizing expectDigit with
  | nil =>
    cases expectDigit with
    | true => exact absurd rfl (given rfl)
    | false => rfl
  | cons c cs ih =>
    have rest := ih false (fun d later => digits d (.tail _ later)) nofun
    simp [digitRun?, Text.decimalValue?_of_isDigit (digits c (.head _)), rest]

theorem ofDigits_map_toDigits (n : Nat) :
    ofDigits ((Nat.toDigits 10 n).map fun c => c.toNat - 48) = n := by
  conv => rhs; rw [← Nat.ofDigitChars_ten_toDigits (n := n)]
  rw [ofDigits, List.foldl_map, Nat.ofDigitChars_eq_foldl]
  simp only [Nat.mul_comm]
  rfl

theorem isNumberBlank_of_isDigit {c : Char} (digit : c.isDigit = true) :
    isNumberBlank c = false := by
  simp only [Char.isDigit, Bool.and_eq_true, decide_eq_true_eq] at digit
  obtain ⟨low, high⟩ := digit
  have low : 48 ≤ c.toNat := low
  have high : c.toNat ≤ 57 := high
  simp [isNumberBlank, Text.isBlank]
  omega

theorem takeSign_of_isDigit {c : Char} (digit : c.isDigit = true) (cs : List Char) :
    takeSign (c :: cs) = (false, c :: cs) := by
  unfold takeSign
  split
  · simp_all
  · simp_all
  · rfl

/-- The digits of a number within the limit are read as the number, with either sign before them. -/
theorem readInt?_ofList (negative : Bool) {cs : List Char} {n : Nat}
    (digits : (negative, Nat.toDigits 10 n) = takeSign cs) (blank : ∀ c ∈ cs, isNumberBlank c = false)
    (limited : n < Nat.pow 10 digitLimit) :
    readInt? (String.ofList cs) = some (if negative then -(n : Int) else n) := by
  have given : Nat.toDigits 10 n ≠ [] := Nat.toDigits_ne_nil
  have run := digitRun?_of_digits true
    (fun c member => Nat.isDigit_of_mem_toDigits (by decide) (by decide) member) fun _ => given
  have length := length_toDigits_le (show 0 < digitLimit by decide) limited
  simp [readInt?, Text.strip_eq_self blank, ← digits, run, length, ofDigits_map_toDigits]

/-- An integer within the limit is read back from its text. -/
theorem readInt?_toString {n : Int} (limited : InLimit n) : readInt? (toString n) = some n := by
  have plain : ∀ c ∈ Nat.toDigits 10 n.natAbs, isNumberBlank c = false := fun c member =>
    isNumberBlank_of_isDigit (Nat.isDigit_of_mem_toDigits (by decide) (by decide) member)
  rw [Int.toString_eq_repr, Int.repr_eq_if]
  split
  case isTrue positive =>
    have same : n.toNat = n.natAbs := by omega
    rw [Nat.repr_eq_ofList_toDigits, same]
    rw [readInt?_ofList false (n := n.natAbs) ?_ plain limited]
    · rw [if_neg Bool.false_ne_true]
      exact congrArg some (by omega)
    · have given : Nat.toDigits 10 n.natAbs ≠ [] := Nat.toDigits_ne_nil
      obtain ⟨c, cs, split⟩ := List.exists_cons_of_ne_nil given
      have digit : c.isDigit = true :=
        Nat.isDigit_of_mem_toDigits (b := 10) (n := n.natAbs) (by decide) (by decide) (by simp [split])
      rw [split, takeSign_of_isDigit digit]
  case isFalse negative =>
    have same : (-n).toNat = n.natAbs := by omega
    rw [Nat.repr_eq_ofList_toDigits, same]
    have text : "-" ++ String.ofList (Nat.toDigits 10 n.natAbs)
        = String.ofList ('-' :: Nat.toDigits 10 n.natAbs) := by
      rw [← String.toList_inj]
      simp
    rw [text, readInt?_ofList true (n := n.natAbs) rfl ?_ limited]
    · rw [if_pos rfl]
      exact congrArg some (by omega)
    · exact List.forall_mem_cons.mpr ⟨by decide, plain⟩

theorem lt_of_mem_digitRun? {expectDigit : Bool} {cs : List Char} {digits : List Nat}
    (run : digitRun? expectDigit cs = some digits) : ∀ d ∈ digits, d < 10 := by
  induction cs generalizing expectDigit digits with
  | nil =>
    cases expectDigit with
    | true => cases run
    | false =>
      cases run
      simp
  | cons c cs ih =>
    unfold digitRun? at run
    split at run
    case h_1 d value =>
      obtain ⟨rest, later, rfl⟩ := Option.map_eq_some_iff.mp run
      exact List.forall_mem_cons.mpr ⟨Text.decimalValue?_lt value, ih later⟩
    case h_2 =>
      split at run
      · exact ih run
      · cases run

theorem inLimit_of_readInt? {s : String} {n : Int} (read : readInt? s = some n) : InLimit n := by
  unfold readInt? at read
  dsimp only at read
  split at read
  case h_1 digits run =>
    split at read
    case isTrue short =>
      have small := ofDigits_lt_of_length_le (lt_of_mem_digitRun? run) short
      cases read
      unfold InLimit
      split
      · rwa [Int.natAbs_neg, Int.natAbs_natCast]
      · rwa [Int.natAbs_natCast]
    case isFalse => cases read
  case h_2 => cases read

theorem InLimit.toString_inj {a b : Int} (left : InLimit a) (right : InLimit b)
    (same : toString a = toString b) : a = b := by
  have read := readInt?_toString left
  rw [same, readInt?_toString right] at read
  exact (Option.some.inj read).symm

theorem toString_ne_empty (n : Int) : toString n ≠ "" := by
  have digits : ∀ k : Nat, Nat.repr k ≠ "" := fun k empty => by
    rw [Nat.repr_eq_ofList_toDigits, ← String.toList_inj] at empty
    simp at empty
  rw [Int.toString_eq_repr, Int.repr_eq_if]
  split
  · exact digits _
  · intro empty
    rw [← String.toList_inj] at empty
    simp at empty

end Decimal

end MetadataIndex
