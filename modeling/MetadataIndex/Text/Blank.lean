/-!
# Blank characters and trimming

A character is blank when it separates words: the white space of Unicode and the four ASCII
information separators. Trimming removes blank characters from both ends of a text.
-/

set_option autoImplicit false

namespace MetadataIndex.Text

/-- A character that separates words: Unicode white space or one of U+001C to U+001F. -/
def isBlank (c : Char) : Bool :=
  let n := c.toNat
  (9 ≤ n && n ≤ 13) || (28 ≤ n && n ≤ 32) || n == 0x85 || n == 0xa0 || n == 0x1680
    || (0x2000 ≤ n && n ≤ 0x200a) || n == 0x2028 || n == 0x2029 || n == 0x202f
    || n == 0x205f || n == 0x3000

def dropTrailing (p : Char → Bool) (cs : List Char) : List Char :=
  (cs.reverse.dropWhile p).reverse

def strip (p : Char → Bool) (cs : List Char) : List Char :=
  dropTrailing p (cs.dropWhile p)

def trim (s : String) : String :=
  String.ofList (strip isBlank s.toList)

theorem exists_append_dropTrailing (p : Char → Bool) (cs : List Char) :
    ∃ tail, cs = dropTrailing p cs ++ tail ∧ ∀ c ∈ tail, p c = true := by
  refine ⟨(cs.reverse.takeWhile p).reverse, ?_, fun c hc => ?_⟩
  · rw [dropTrailing, ← List.reverse_append, List.takeWhile_append_dropWhile, List.reverse_reverse]
  · exact List.all_eq_true.mp List.all_takeWhile c (List.mem_reverse.mp hc)

theorem exists_append_strip (p : Char → Bool) (cs : List Char) :
    ∃ lead tail, cs = lead ++ strip p cs ++ tail ∧
      (∀ c ∈ lead, p c = true) ∧ ∀ c ∈ tail, p c = true := by
  obtain ⟨tail, hcs, htail⟩ := exists_append_dropTrailing p (cs.dropWhile p)
  refine ⟨cs.takeWhile p, tail, ?_, fun c hc => List.all_eq_true.mp List.all_takeWhile c hc, htail⟩
  rw [List.append_assoc, strip, ← hcs, List.takeWhile_append_dropWhile]

theorem getLast?_dropTrailing {p : Char → Bool} {cs : List Char} {c : Char}
    (h : (dropTrailing p cs).getLast? = some c) : p c = false := by
  rw [dropTrailing, List.getLast?_reverse] at h
  have := List.head?_dropWhile_not p cs.reverse
  rw [h] at this
  simpa using this

theorem dropTrailing_eq_self {p : Char → Bool} {cs : List Char}
    (h : ∀ c ∈ cs.getLast?, p c = false) : dropTrailing p cs = cs := by
  rw [dropTrailing, List.reverse_eq_iff]
  rw [← List.head?_reverse] at h
  cases hr : cs.reverse with
  | nil => rfl
  | cons c rest =>
    rw [hr] at h
    exact List.dropWhile_cons_of_neg (by rw [h c rfl]; exact Bool.false_ne_true)

/-- What is left does not end with a character that satisfies `p`. -/
theorem getLast?_strip {p : Char → Bool} {cs : List Char} {c : Char}
    (h : (strip p cs).getLast? = some c) : p c = false :=
  getLast?_dropTrailing h

/-- What is left does not begin with a character that satisfies `p`. -/
theorem head?_strip {p : Char → Bool} {cs : List Char} {c : Char}
    (h : (strip p cs).head? = some c) : p c = false := by
  obtain ⟨tail, hcs, -⟩ := exists_append_dropTrailing p (cs.dropWhile p)
  have := List.head?_dropWhile_not p cs
  rw [hcs] at this
  rw [strip] at h
  cases hd : dropTrailing p (cs.dropWhile p) with
  | nil =>
    rw [hd] at h
    cases h
  | cons d rest =>
    rw [hd] at h this
    cases h
    simpa using this

theorem strip_strip (p : Char → Bool) (cs : List Char) : strip p (strip p cs) = strip p cs := by
  have hd : (strip p cs).dropWhile p = strip p cs := by
    cases hs : strip p cs with
    | nil => rfl
    | cons c rest =>
      have hc : p c = false := head?_strip (show (strip p cs).head? = some c by rw [hs]; rfl)
      exact List.dropWhile_cons_of_neg (by rw [hc]; exact Bool.false_ne_true)
  conv => lhs; rw [strip, hd]
  exact dropTrailing_eq_self fun c hc => getLast?_strip hc

@[simp] theorem trim_trim (s : String) : trim (trim s) = trim s := by
  simp [trim, strip_strip]

end MetadataIndex.Text
