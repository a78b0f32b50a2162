import MetadataIndex.Text.Blank
import MetadataIndex.Text.Search

/-!
# Pieces between separators

Each piece of a text that was split stands in the text, and no piece holds the separator. A text that
does not hold it is its only piece. What trimming leaves stands in the text as well, and a literal in
texts that are joined stands in one of them if what joins them has none of its characters.
-/

set_option autoImplicit false

namespace MetadataIndex.Text

theorem prefix_of_head_pieces {sep cs piece : List Char} {more : List (List Char)}
    (split : pieces sep 0 cs = piece :: more) : piece <+: cs := by
  have joined := intercalate_pieces sep 0 cs
  rw [split, List.drop_zero] at joined
  rw [← joined]
  cases more with
  | nil => simp [List.intercalate]
  | cons next more =>
    rw [List.intercalate_cons_cons, List.append_assoc]
    exact List.prefix_append _ _

theorem infix_of_mem_pieces {sep : List Char} {skip : Nat} {cs p : List Char}
    (member : p ∈ pieces sep skip cs) : p <:+: cs := by
  fun_induction pieces sep skip cs with
  | case1 skip =>
    obtain rfl := List.mem_singleton.mp member
    exact List.infix_rfl
  | case2 skip c cs ih => exact (ih member).trans (List.suffix_cons c cs).isInfix
  | case3 c cs found ih =>
    obtain rfl | later := List.mem_cons.mp member
    · exact List.nil_infix
    · exact (ih later).trans (List.suffix_cons c cs).isInfix
  | case4 c cs found none ih => exact absurd none (pieces_ne_nil sep 0 cs)
  | case5 c cs found piece more split ih =>
    obtain rfl | later := List.mem_cons.mp member
    · exact ((List.prefix_cons_inj c).mpr (prefix_of_head_pieces split)).isInfix
    · rw [split] at ih
      exact (ih (.tail _ later)).trans (List.suffix_cons c cs).isInfix

theorem not_infix_of_mem_pieces {sep : List Char} (given : sep ≠ []) {skip : Nat}
    {cs p : List Char} (member : p ∈ pieces sep skip cs) : ¬sep <:+: p := by
  have empty : ¬sep <:+: [] := fun inside => given (List.eq_nil_of_infix_nil inside)
  fun_induction pieces sep skip cs generalizing p with
  | case1 skip => simpa [List.mem_singleton.mp member] using empty
  | case2 skip c cs ih => exact ih member
  | case3 c cs found ih =>
    rcases List.mem_cons.mp member with rfl | later
    · exact empty
    · exact ih later
  | case4 c cs found none ih => exact absurd none (pieces_ne_nil sep 0 cs)
  | case5 c cs found piece more split ih =>
    rw [split] at ih
    rcases List.mem_cons.mp member with rfl | later
    · intro inside
      rcases List.infix_cons_iff.mp inside with start | within
      · -- a separator at the start of the piece would begin the text
        have begins := start.trans ((List.prefix_cons_inj c).mpr (prefix_of_head_pieces split))
        simp [given, beginsWith_iff.mpr begins] at found
      · exact ih (.head _) within
    · exact ih (.tail _ later)

theorem pieces_of_not_infix {sep cs : List Char} (absent : ¬sep <:+: cs) :
    pieces sep 0 cs = [cs] := by
  induction cs with
  | nil => rfl
  | cons c cs ih =>
    have rest := ih fun within => absent (within.trans (List.suffix_cons c cs).isInfix)
    have begins : beginsWith sep (c :: cs) = false :=
      Bool.eq_false_iff.mpr fun start => absent (beginsWith_iff.mp start).isInfix
    simp [pieces, begins, rest]

theorem containsLiteral_of_mem_splitAtLiteral {sep s part : String} (given : sep ≠ "")
    (member : part ∈ splitAtLiteral sep s) : containsLiteral part sep = false := by
  obtain ⟨piece, inside, rfl⟩ := List.mem_map.mp member
  refine Bool.eq_false_iff.mpr fun holds => ?_
  rw [containsLiteral_iff, String.toList_ofList] at holds
  exact not_infix_of_mem_pieces (by simpa using given) inside holds

theorem splitAtLiteral_of_not_contains {sep s : String} (absent : containsLiteral s sep = false) :
    splitAtLiteral sep s = [s] := by
  have outside : ¬sep.toList <:+: s.toList := fun inside => by
    rw [containsLiteral_iff.mpr inside] at absent
    cases absent
  simp [splitAtLiteral, pieces_of_not_infix outside]

theorem replaceLiteral_of_not_contains {old new s : String} (absent : containsLiteral s old = false) :
    replaceLiteral old new s = s := by
  have outside : ¬old.toList <:+: s.toList := fun inside => by
    rw [containsLiteral_iff.mpr inside] at absent
    cases absent
  simp [replaceLiteral, pieces_of_not_infix outside, List.intercalate]

theorem strip_infix (p : Char → Bool) (cs : List Char) : strip p cs <:+: cs := by
  obtain ⟨lead, tail, split, -⟩ := exists_append_strip p cs
  exact ⟨lead, tail, split.symm⟩

theorem trim_infix (s : String) : (trim s).toList <:+: s.toList := by
  rw [trim, String.toList_ofList]
  exact strip_infix isBlank s.toList

/-- Stripping takes away no character that is kept. -/
theorem mem_strip_of_mem {p : Char → Bool} {cs : List Char} {c : Char} (member : c ∈ cs)
    (kept : p c = false) : c ∈ strip p cs := by
  obtain ⟨lead, tail, split, front, back⟩ := exists_append_strip p cs
  rw [split, List.mem_append, List.mem_append] at member
  rcases member with (early | inside) | late
  · exact absurd (front c early) (by simp [kept])
  · exact inside
  · exact absurd (back c late) (by simp [kept])

theorem containsLiteral_of_infix {s part literal : String} (inside : part.toList <:+: s.toList)
    (absent : containsLiteral s literal = false) : containsLiteral part literal = false := by
  refine Bool.eq_false_iff.mpr fun holds => ?_
  rw [containsLiteral_iff.mpr ((containsLiteral_iff.mp holds).trans inside)] at absent
  cases absent

theorem infix_of_infix_append_cons {p xs ys : List Char} {c : Char} (other : c ∉ p)
    (inside : p <:+: xs ++ c :: ys) : p <:+: xs ∨ p <:+: ys := by
  have past (l : List Char) (all : ∀ x ∈ l, x ∈ p) (start : l <+: c :: ys) : l = [] := by
    obtain none | ⟨more, rfl, -⟩ := List.prefix_cons_iff.mp start
    · exact none
    · exact absurd (all c (.head _)) other
  rcases List.infix_append_iff.mp inside with before | after | ⟨front, back, rfl, ends, start⟩
  · exact .inl before
  · rcases List.infix_cons_iff.mp after with start | later
    · rw [past p (fun _ member => member) start]
      exact .inl List.nil_infix
    · exact .inr later
  · rw [past back (fun _ member => List.mem_append_right front member) start, List.append_nil]
    exact .inl ends.isInfix

theorem infix_of_infix_joined {p sep xs ys : List Char} (given : sep ≠ []) (others : ∀ c ∈ sep, c ∉ p)
    (inside : p <:+: xs ++ sep ++ ys) : p <:+: xs ∨ p <:+: ys := by
  induction sep generalizing xs with
  | nil => exact absurd rfl given
  | cons c sep ih =>
    obtain ⟨first, rest⟩ := List.forall_mem_cons.mp others
    rw [List.append_assoc, List.cons_append] at inside
    rcases infix_of_infix_append_cons first inside with before | after
    · exact .inl before
    · by_cases last : sep = []
      · rw [last] at after
        exact .inr after
      · have next : p <:+: [] ++ sep ++ ys := after
        rcases ih last rest next with empty | later
        · rw [List.infix_nil.mp empty]
          exact .inl List.nil_infix
        · exact .inr later

/-- A text that is joined by what a literal has nothing of holds it only in one of its parts. -/
theorem containsLiteral_joined {s t sep literal : String} (given : sep ≠ "")
    (others : ∀ c ∈ sep.toList, c ∉ literal.toList) (first : containsLiteral s literal = false)
    (second : containsLiteral t literal = false) : containsLiteral (s ++ sep ++ t) literal = false := by
  refine Bool.eq_false_iff.mpr fun holds => ?_
  rw [containsLiteral_iff, String.toList_append, String.toList_append] at holds
  rcases infix_of_infix_joined (by simpa using given) others holds with inside | inside
  · rw [containsLiteral_iff.mpr inside] at first
    cases first
  · rw [containsLiteral_iff.mpr inside] at second
    cases second

theorem containsLiteral_intercalate {sep literal : String} {parts : List String} (given : sep ≠ "")
    (others : ∀ c ∈ sep.toList, c ∉ literal.toList) (empty : literal ≠ "")
    (each : ∀ part ∈ parts, containsLiteral part literal = false) :
    containsLiteral (sep.intercalate parts) literal = false := by
  induction parts with
  | nil =>
    refine Bool.eq_false_iff.mpr fun holds => empty ?_
    rw [containsLiteral_iff, String.intercalate_nil] at holds
    exact String.toList_inj.mp (List.infix_nil.mp holds)
  | cons part parts ih =>
    obtain ⟨first, rest⟩ := List.forall_mem_cons.mp each
    by_cases last : parts = []
    · rw [last, String.intercalate_singleton]
      exact first
    · rw [String.intercalate_cons_of_ne_nil last]
      exact containsLiteral_joined given others first (ih rest)

theorem intercalate_ne_empty {sep : String} {parts : List String} (some : parts ≠ [])
    (given : ∀ part ∈ parts, part ≠ "") : sep.intercalate parts ≠ "" := by
  obtain ⟨part, more, rfl⟩ := List.exists_cons_of_ne_nil some
  have first := given part (.head _)
  by_cases last : more = []
  · rw [last, String.intercalate_singleton]
    exact first
  · rw [String.intercalate_cons_of_ne_nil last]
    intro none
    exact first (String.append_eq_empty_iff.mp (String.append_eq_empty_iff.mp none).1).1

end MetadataIndex.Text
