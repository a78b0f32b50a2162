import MetadataIndex.Proofs.Text.Trimmed

/-!
# Words joined by a character

Words that do not hold a character are found again when the text that it joins them to is split. The
joined text begins and ends as the words do. A split text has a piece more than it has separators.
-/

set_option autoImplicit false

namespace MetadataIndex.Text

variable {c : Char} {words : List String}

theorem pieces_singleton (c : Char) (cs : List Char) : pieces [c] 0 cs = cs.splitOn c := by
  induction cs with
  | nil => rfl
  | cons d cs ih =>
    have begins : beginsWith [c] (d :: cs) = (d == c) := by
      rw [Bool.eq_iff_iff, beginsWith_iff, List.singleton_prefix_cons_iff, beq_iff_eq, eq_comm]
    rw [pieces, begins, List.splitOn_cons_eq_if_modifyHead, ← ih]
    cases d == c with
    | true => rfl
    | false =>
      obtain ⟨piece, more, split⟩ := List.exists_cons_of_ne_nil (pieces_ne_nil [c] 0 cs)
      rw [split]
      rfl

theorem length_splitAtLiteral_singleton (c : Char) (s : String) :
    (splitAtLiteral (String.singleton c) s).length = s.toList.count c + 1 := by
  rw [splitAtLiteral, List.length_map, String.toList_singleton, pieces_singleton]
  induction s.toList with
  | nil => rfl
  | cons d cs ih =>
    rw [List.splitOn_cons_eq_if_modifyHead, List.count_cons]
    split
    · rw [List.length_cons, ih]
    · rw [List.length_modifyHead, ih, Nat.add_zero]

/-- The first piece of a text that does not begin with the separator begins as the text does. -/
theorem exists_head_splitAtLiteral {c d : Char} {cs : List Char} (other : c ≠ d) {s : String}
    (begins : s.toList = c :: cs) :
    ∃ first more, splitAtLiteral (String.singleton d) s = first :: more
      ∧ first.toList.head? = some c := by
  rw [splitAtLiteral, begins, String.toList_singleton, pieces_singleton,
    List.splitOn_cons_eq_if_modifyHead, if_neg (by simpa using other)]
  obtain ⟨piece, more, split⟩ := List.exists_cons_of_ne_nil (List.splitOn_ne_nil d cs)
  rw [split]
  exact ⟨String.ofList (c :: piece), more.map String.ofList, rfl, by simp⟩

theorem splitAtLiteral_intercalate (apart : ∀ word ∈ words, c ∉ word.toList) (some : words ≠ []) :
    splitAtLiteral (String.singleton c) ((String.singleton c).intercalate words) = words := by
  have apart' : ∀ cs ∈ words.map String.toList, c ∉ cs := by
    intro cs member
    obtain ⟨word, inside, rfl⟩ := List.mem_map.mp member
    exact apart word inside
  rw [splitAtLiteral, String.toList_intercalate, String.toList_singleton, pieces_singleton,
    List.splitOn_intercalate c apart' (by simpa using some), List.map_map]
  simp

theorem trim_intercalate (sep : String) (trimmed : ∀ word ∈ words, trim word = word)
    (given : ∀ word ∈ words, word ≠ "") :
    trim (sep.intercalate words) = sep.intercalate words := by
  induction words with
  | nil => rfl
  | cons first more ih =>
    obtain ⟨trimmed₁, trimmed₂⟩ := List.forall_mem_cons.mp trimmed
    obtain ⟨given₁, given₂⟩ := List.forall_mem_cons.mp given
    by_cases last : more = []
    · rw [last, String.intercalate_singleton]
      exact trimmed₁
    · rw [String.intercalate_cons_of_ne_nil last]
      exact trim_joined sep trimmed₁ (ih trimmed₂ given₂) given₁ (intercalate_ne_empty last given₂)

end MetadataIndex.Text
