import Mathlib.Tactic.IntervalCases
import MetadataIndex.Proofs.Value.Length

/-!
# What roman numerals are worth

Read from the right, a letter is taken away when it is less than the greatest one so far. So a text of
roman digits is worth the sum of its letters, each taken away exactly when a greater one stands anywhere to
its right, and the numeral that a number is written with is worth that number.
-/

set_option autoImplicit false

namespace MetadataIndex.Roman

/-- What a letter of either case is worth; a character that is no digit is worth nothing. -/
def worth (c : Char) : Int := (digit? c.toLower).getD 0

/-- The sum of values, each taken away when a greater one stands anywhere to its right. -/
def signedSum : List Int → Int
  | [] => 0
  | v :: vs => (if ∃ w ∈ vs, v < w then -v else v) + signedSum vs

def greatest (vs : List Int) : Int := vs.foldr max 0

variable {v : Int} {vs ws : List Int}

/-! ## Reading from the right -/

theorem le_greatest : ∀ w ∈ vs, w ≤ greatest vs := by
  induction vs with
  | nil => exact List.forall_mem_nil _
  | cons v vs ih =>
    refine List.forall_mem_cons.mpr ⟨Int.le_max_left _ _, ?_⟩
    intro w later
    exact Int.le_trans (ih w later) (Int.le_max_right _ _)

theorem greatest_mem_or (vs : List Int) : greatest vs ∈ vs ∨ greatest vs = 0 := by
  induction vs with
  | nil => exact .inr rfl
  | cons v vs ih =>
    rcases Int.le_total v (greatest vs) with less | more
    · have same : greatest (v :: vs) = greatest vs := Int.max_eq_right less
      rw [same]
      exact ih.imp_left (.tail v)
    · have same : greatest (v :: vs) = v := Int.max_eq_left more
      rw [same]
      exact .inl (.head vs)

/-- A greater value stands among others exactly when the greatest of them is greater. -/
theorem exists_lt_iff (positive : 0 ≤ v) : (∃ w ∈ vs, v < w) ↔ v < greatest vs := by
  constructor
  · intro ⟨w, member, less⟩
    exact Int.lt_of_lt_of_le less (le_greatest w member)
  · intro less
    rcases greatest_mem_or vs with member | none
    · exact ⟨_, member, less⟩
    · omega

theorem IsDigit.digit? {c : Char} (known : IsDigit c) : digit? c.toLower = some (worth c) := by
  obtain ⟨value, found⟩ := Option.isSome_iff_exists.mp known
  rw [worth, found, Option.getD_some]

theorem worth_nonneg (c : Char) : 0 ≤ worth c := by
  unfold worth Roman.digit?
  split <;> decide

theorem addDigit_eq (positive : 0 ≤ v) : addDigit v (signedSum vs, greatest vs)
    = (signedSum (v :: vs), greatest (v :: vs)) := by
  rw [addDigit, signedSum]
  simp only [exists_lt_iff positive]
  split
  case isTrue less =>
    have same : greatest (v :: vs) = greatest vs := Int.max_eq_right (Int.le_of_lt less)
    rw [same]
    congr 1
    omega
  case isFalse more =>
    have same : greatest (v :: vs) = v := Int.max_eq_left (Int.not_lt.mp more)
    rw [same]
    congr 1
    omega

/-- The total carries the greatest value so far beside the sum. -/
theorem total_of_digits {cs : List Char} (digits : ∀ c ∈ cs, IsDigit c) :
    total (cs.map Char.toLower)
      = .ok (signedSum (cs.map worth), greatest (cs.map worth)) := by
  induction cs with
  | nil => rfl
  | cons c cs ih =>
    obtain ⟨head, rest⟩ := List.forall_mem_cons.mp digits
    rw [List.map_cons, total, ih rest, head.digit?, List.map_cons, ← addDigit_eq (worth_nonneg c)]
    rfl

theorem lowerChars_of_digits {before cs : List Char} (digits : ∀ c ∈ cs, IsDigit c) :
    Text.lowerChars before cs = cs.map Char.toLower := by
  induction cs generalizing before with
  | nil => rfl
  | cons c cs ih =>
    obtain ⟨head, rest⟩ := List.forall_mem_cons.mp digits
    have plain : c ≠ 'Σ' := by
      rintro rfl
      revert head
      decide
    rw [Text.lowerChars, if_neg plain, head.lowerChar, ih rest]
    rfl

theorem isNumeral_of_digits {s : String} (given : s ≠ "") (digits : ∀ c ∈ s.toList, IsDigit c) :
    isNumeral s = true := by
  have back : ∀ c ∈ s.toList.reverse, IsDigit c := fun c member =>
    digits c (List.mem_reverse.mp member)
  have some : s.toList.reverse ≠ [] := by simpa using given
  unfold isNumeral
  split
  · next rest same =>
    rw [same] at back
    exact absurd (back '\n' (.head _)) (by decide)
  · refine Bool.and_eq_true_iff.mpr ⟨by simpa using given, List.all_eq_true.mpr ?_⟩
    intro c member
    have known : (Roman.digit? c.toLower).isSome = true := back c member
    rw [isNumeralChar, known, Bool.true_or, Bool.true_or]

/-- A text of roman digits is worth the sum of its letters, each taken away when a greater one stands
to its right. -/
theorem value_of_digits {s : String} (given : s ≠ "") (digits : ∀ c ∈ s.toList, IsDigit c) :
    value s = .ok (signedSum (s.toList.map worth)) := by
  rw [value, if_pos (isNumeral_of_digits given digits), Text.lower, String.toList_ofList,
    lowerChars_of_digits digits, total_of_digits digits]
  rfl

/-! ## Numerals of numbers -/

/-- The letters for one, five and ten of a decimal place. -/
structure Place where
  one : Char
  five : Char
  ten : Char
  unit : Int
  unit_pos : 0 < unit := by decide
  worth_one : worth one = unit := by decide
  worth_five : worth five = 5 * unit := by decide
  worth_ten : worth ten = 10 * unit := by decide

def ones : Place := { one := 'I', five := 'V', ten := 'X', unit := 1 }

def tens : Place := { one := 'X', five := 'L', ten := 'C', unit := 10 }

def hundreds : Place := { one := 'C', five := 'D', ten := 'M', unit := 100 }

/-- The letters of a decimal digit at its place. -/
def Place.write (p : Place) : Nat → List Char
  | 0 => []
  | 1 => [p.one]
  | 2 => [p.one, p.one]
  | 3 => [p.one, p.one, p.one]
  | 4 => [p.one, p.five]
  | 5 => [p.five]
  | 6 => [p.five, p.one]
  | 7 => [p.five, p.one, p.one]
  | 8 => [p.five, p.one, p.one, p.one]
  | _ => [p.one, p.ten]

/-- The numeral of a number: a letter for each thousand, then the letters of the hundreds, the tens and
the ones. -/
def numeral (n : Nat) : List Char :=
  List.replicate (n / 1000) 'M' ++ (hundreds.write (n % 1000 / 100)
    ++ (tens.write (n % 100 / 10) ++ ones.write (n % 10)))

/-- Behind values that are as great as all that follow, the sum goes on by itself. -/
theorem signedSum_append (falls : ∀ v ∈ vs, ∀ w ∈ ws, w ≤ v) :
    signedSum (vs ++ ws) = signedSum vs + signedSum ws := by
  induction vs with
  | nil => exact (Int.zero_add _).symm
  | cons v vs ih =>
    obtain ⟨head, rest⟩ := List.forall_mem_cons.mp falls
    have same : (∃ w ∈ vs ++ ws, v < w) ↔ ∃ w ∈ vs, v < w := by
      constructor
      · intro ⟨w, member, less⟩
        rcases List.mem_append.mp member with here | behind
        · exact ⟨w, here, less⟩
        · exact absurd less (Int.not_lt.mpr (head w behind))
      · intro ⟨w, member, less⟩
        exact ⟨w, List.mem_append_left _ member, less⟩
    rw [List.cons_append, signedSum, signedSum, ih rest, Int.add_assoc]
    simp only [same]

theorem signedSum_replicate (k : Nat) (v : Int) : signedSum (List.replicate k v) = k * v := by
  induction k with
  | zero => simp [signedSum]
  | succ k ih =>
    have top : ¬∃ w ∈ List.replicate k v, v < w := by
      intro ⟨w, member, less⟩
      rw [List.eq_of_mem_replicate member] at less
      exact Int.lt_irrefl v less
    rw [List.replicate_succ, signedSum, if_neg top, ih, Int.add_comm, Int.natCast_succ, Int.add_mul,
      Int.one_mul]

theorem signedSum_write (p : Place) {d : Nat} (small : d < 10) :
    signedSum ((p.write d).map worth) = d * p.unit := by
  have positive := p.unit_pos
  have order : p.unit < 5 * p.unit ∧ p.unit < 10 * p.unit ∧ ¬5 * p.unit < p.unit := by omega
  interval_cases d
  all_goals
    simp only [Place.write, List.map_cons, List.map_nil, signedSum, p.worth_one, p.worth_five,
      p.worth_ten, List.mem_cons, List.not_mem_nil, or_false, exists_eq_or_imp, exists_eq_left,
      false_and, exists_false, order, Int.lt_irrefl, if_true, if_false]
    omega

theorem eq_of_mem_write {p : Place} {d : Nat} {c : Char} (member : c ∈ p.write d) :
    c = p.one ∨ c = p.five ∨ c = p.ten := by
  unfold Place.write at member
  split at member <;> simp only [List.mem_cons, List.not_mem_nil, or_false] at member <;> tauto

/-- The letters of a place are worth between one and ten of its unit. -/
theorem bounds_write (p : Place) (d : Nat) :
    ∀ v ∈ (p.write d).map worth, p.unit ≤ v ∧ v ≤ 10 * p.unit := by
  intro v member
  have positive := p.unit_pos
  obtain ⟨c, letter, rfl⟩ := List.mem_map.mp member
  rcases eq_of_mem_write letter with rfl | rfl | rfl
  · rw [p.worth_one]
    omega
  · rw [p.worth_five]
    omega
  · rw [p.worth_ten]
    omega

theorem signedSum_numeral (n : Nat) : signedSum ((numeral n).map worth) = n := by
  have thousand : worth 'M' = 1000 := by decide
  have high := bounds_write hundreds (n % 1000 / 100)
  have middle := bounds_write tens (n % 100 / 10)
  have low := bounds_write ones (n % 10)
  simp only [hundreds, tens, ones] at high middle low
  rw [numeral, List.map_append, List.map_append, List.map_append, List.map_replicate, thousand,
    signedSum_append, signedSum_append, signedSum_append, signedSum_replicate,
    signedSum_write hundreds (by omega), signedSum_write tens (by omega),
    signedSum_write ones (by omega)]
  · simp only [hundreds, tens, ones]
    omega
  · intro v here w behind
    exact Int.le_trans (low w behind).2 (middle v here).1
  · intro v here w behind
    rcases List.mem_append.mp behind with inTens | inOnes
    · exact Int.le_trans (middle w inTens).2 (high v here).1
    · exact Int.le_trans (low w inOnes).2 (Int.le_trans (by decide) (high v here).1)
  · intro v here w behind
    rw [List.eq_of_mem_replicate here]
    rcases List.mem_append.mp behind with inHundreds | behind
    · exact (high w inHundreds).2
    · rcases List.mem_append.mp behind with inTens | inOnes
      · exact Int.le_trans (middle w inTens).2 (by decide)
      · exact Int.le_trans (low w inOnes).2 (by decide)

/-! ## Spelling -/

/-- The letters that numerals are written with. -/
def letters : List Char := ['I', 'V', 'X', 'L', 'C', 'D', 'M']

example : letters.map worth = [1, 5, 10, 50, 100, 500, 1000] := by decide

/-- A letter may be written in either case. -/
def Spells (c letter : Char) : Prop := c = letter ∨ c = letter.toLower

instance (c letter : Char) : Decidable (Spells c letter) := inferInstanceAs (Decidable (_ ∨ _))

theorem worth_of_mem_letters {letter : Char} (known : letter ∈ letters) :
    IsDigit letter ∧ IsDigit letter.toLower ∧ worth letter.toLower = worth letter := by
  simp only [letters, List.mem_cons, List.not_mem_nil, or_false] at known
  rcases known with rfl | rfl | rfl | rfl | rfl | rfl | rfl <;> decide

theorem worth_of_spells {c letter : Char} (known : letter ∈ letters) (spells : Spells c letter) :
    IsDigit c ∧ worth c = worth letter := by
  obtain ⟨upper, lower, same⟩ := worth_of_mem_letters known
  rcases spells with rfl | rfl
  · exact ⟨upper, rfl⟩
  · exact ⟨lower, same⟩

theorem digits_of_spelled {cs word : List Char} (spelled : List.Forall₂ Spells cs word)
    (known : ∀ letter ∈ word, letter ∈ letters) :
    (∀ c ∈ cs, IsDigit c) ∧ cs.map worth = word.map worth := by
  induction spelled with
  | nil => exact ⟨List.forall_mem_nil _, rfl⟩
  | cons head _ ih =>
    obtain ⟨first, rest⟩ := List.forall_mem_cons.mp known
    obtain ⟨digit, same⟩ := worth_of_spells first head
    obtain ⟨digits, others⟩ := ih rest
    refine ⟨List.forall_mem_cons.mpr ⟨digit, digits⟩, ?_⟩
    rw [List.map_cons, List.map_cons, same, others]

theorem mem_letters_of_mem_numeral {n : Nat} : ∀ letter ∈ numeral n, letter ∈ letters := by
  intro letter member
  have of_place {p : Place} {d : Nat} (here : letter ∈ p.write d) (one : p.one ∈ letters)
      (five : p.five ∈ letters) (ten : p.ten ∈ letters) : letter ∈ letters := by
    rcases eq_of_mem_write here with rfl | rfl | rfl
    · exact one
    · exact five
    · exact ten
  rcases List.mem_append.mp member with thousand | member
  · rw [List.eq_of_mem_replicate thousand]
    decide
  rcases List.mem_append.mp member with here | member
  · exact of_place here (by decide) (by decide) (by decide)
  rcases List.mem_append.mp member with here | here
  · exact of_place here (by decide) (by decide) (by decide)
  · exact of_place here (by decide) (by decide) (by decide)

theorem numeral_ne_nil {n : Nat} (positive : 1 ≤ n) : numeral n ≠ [] := by
  intro none
  have sum := signedSum_numeral n
  rw [none, List.map_nil, signedSum] at sum
  omega

/-- The numeral of a number, in letters of either case, is worth the number. A text of roman letters is
worth the sum of its letters, each taken away exactly when a greater one stands anywhere to its right. -/
theorem value_of_letters :
    (∀ n : Nat, 1 ≤ n → ∀ s : String, List.Forall₂ Spells s.toList (numeral n) → value s = .ok n)
      ∧ ∀ s : String, s ≠ "" → (∀ c ∈ s.toList, ∃ letter ∈ letters, Spells c letter) →
        value s = .ok (signedSum (s.toList.map worth)) := by
  constructor
  · intro n positive s spelled
    obtain ⟨digits, same⟩ := digits_of_spelled spelled mem_letters_of_mem_numeral
    have given : s ≠ "" := by
      rintro rfl
      exact numeral_ne_nil positive (List.forall₂_nil_left_iff.mp spelled)
    rw [value_of_digits given digits, same, signedSum_numeral]
  · intro s given spelled
    refine value_of_digits given ?_
    intro c member
    obtain ⟨letter, known, spells⟩ := spelled c member
    exact (worth_of_spells known spells).1

theorem value_of_mixedLetters :
    numeral 1994 = ['M', 'C', 'M', 'X', 'C', 'I', 'V'] ∧ value "McmXCiv" = .ok 1994
      ∧ signedSum ("ixM".toList.map worth) = 989 ∧ value "ixM" = .ok 989 := by
  refine ⟨by decide, ?_, by decide, ?_⟩
  · refine value_of_letters.1 1994 (by decide) "McmXCiv" ?_
    have spelled : "McmXCiv".toList = ['M', 'c', 'm', 'X', 'C', 'i', 'v'] := by decide
    rw [spelled]
    decide
  · refine value_of_letters.2 "ixM" (by decide) ?_
    have spelled : "ixM".toList = ['i', 'x', 'M'] := by decide
    rw [spelled]
    intro c member
    simp only [List.mem_cons, List.not_mem_nil, or_false] at member
    rcases member with rfl | rfl | rfl
    · exact ⟨'I', by decide, by decide⟩
    · exact ⟨'X', by decide, by decide⟩
    · exact ⟨'M', by decide, by decide⟩

end MetadataIndex.Roman
