import Mathlib.Data.List.Basic
import Mathlib.Data.List.TakeWhile
import MetadataIndex.Proofs.Text.Pieces

/-!
# Trimmed texts

Trimming leaves nothing exactly of a blank text, and leaves a text as it is exactly when neither end is
blank. A literal whose ends are not blank stands in a text as it stands in the trimmed text.
-/

set_option autoImplicit false

namespace MetadataIndex.Text

variable {s : String}

/-- A text has a character that is not blank. -/
def IsVisible (s : String) : Prop := ∃ c ∈ s.toList, isBlank c = false

theorem trim_ne_empty_iff : trim s ≠ "" ↔ IsVisible s := by
  constructor
  · intro given
    cases stripped : strip isBlank s.toList with
    | nil => exact absurd (congrArg String.ofList stripped) given
    | cons c more =>
      have kept : c ∈ strip isBlank s.toList := by simp [stripped]
      have head : (strip isBlank s.toList).head? = some c := by simp [stripped]
      exact ⟨c, (Text.strip_infix isBlank s.toList).subset kept, head?_strip head⟩
  · intro ⟨c, member, visible⟩ none
    have kept := mem_strip_of_mem member visible
    rw [← String.toList_ofList (l := strip isBlank s.toList), ← trim, none] at kept
    cases kept

theorem trim_eq_empty_iff : trim s = "" ↔ ¬IsVisible s := by
  rw [← trim_ne_empty_iff, ne_eq, Decidable.not_not]

theorem IsVisible.append_left {t : String} (visible : IsVisible t) : IsVisible (s ++ t) := by
  obtain ⟨c, member, shown⟩ := visible
  exact ⟨c, by simp [member], shown⟩

theorem IsVisible.append_right {t : String} (visible : IsVisible s) : IsVisible (s ++ t) := by
  obtain ⟨c, member, shown⟩ := visible
  exact ⟨c, by simp [member], shown⟩

theorem isVisible_ofList {cs : List Char} {c : Char} (member : c ∈ cs) (shown : isBlank c = false) :
    IsVisible (String.ofList cs) :=
  ⟨c, by simpa using member, shown⟩

section Ends

variable {p : Char → Bool} {cs part : List Char}

theorem dropWhile_eq_self (front : ∀ c ∈ cs.head?, p c = false) : cs.dropWhile p = cs := by
  cases cs with
  | nil => rfl
  | cons c cs =>
    apply List.dropWhile_cons_of_neg
    rw [front c rfl]
    exact Bool.false_ne_true

theorem head?_strip_cons {c : Char} (kept : p c = false) (cs : List Char) :
    (strip p (c :: cs)).head? = some c := by
  have front : (c :: cs).dropWhile p = c :: cs := by
    apply dropWhile_eq_self
    intro d head
    cases head
    exact kept
  obtain ⟨tail, split, dropped⟩ := exists_append_dropTrailing p (c :: cs)
  rw [strip, front]
  cases rest : dropTrailing p (c :: cs) with
  | nil =>
    rw [rest, List.nil_append] at split
    rw [dropped c (split ▸ .head _)] at kept
    cases kept
  | cons d more =>
    rw [rest] at split
    cases split
    rfl

theorem strip_eq_self_iff :
    strip p cs = cs ↔ (∀ c ∈ cs.head?, p c = false) ∧ ∀ c ∈ cs.getLast?, p c = false := by
  constructor
  · intro same
    rw [← same]
    constructor
    · intro c head
      exact head?_strip head
    · intro c last
      exact getLast?_strip last
  · intro ⟨front, back⟩
    rw [strip, dropWhile_eq_self front, dropTrailing_eq_self back]

theorem infix_dropWhile (front : ∀ c ∈ part.head?, p c = false) (given : part ≠ [])
    (inside : part <:+: cs) : part <:+: cs.dropWhile p := by
  obtain ⟨before, after, rfl⟩ := inside
  induction before with
  | nil =>
    rw [List.nil_append, dropWhile_eq_self]
    · exact (List.prefix_append part after).isInfix
    · intro c head
      rw [List.head?_append_of_ne_nil part given] at head
      exact front c head
  | cons c before ih =>
    rw [List.cons_append, List.cons_append, List.dropWhile_cons]
    split
    · exact ih
    · exact ⟨c :: before, after, rfl⟩

theorem infix_strip (front : ∀ c ∈ part.head?, p c = false) (back : ∀ c ∈ part.getLast?, p c = false)
    (given : part ≠ []) (inside : part <:+: cs) : part <:+: strip p cs := by
  have first := infix_dropWhile front given inside
  rw [← List.reverse_infix, strip, dropTrailing, List.reverse_reverse]
  apply infix_dropWhile
  · intro c head
    rw [List.head?_reverse] at head
    exact back c head
  · simpa using given
  · exact List.reverse_infix.mpr first

end Ends

variable {t literal : String}

theorem trim_eq_self_iff : trim s = s
    ↔ (∀ c ∈ s.toList.head?, isBlank c = false) ∧ ∀ c ∈ s.toList.getLast?, isBlank c = false := by
  rw [← strip_eq_self_iff, ← String.toList_inj, trim, String.toList_ofList]

/-- What stands between two trimmed texts is kept, blank or not. -/
theorem trim_joined (sep : String) (first : trim s = s) (last : trim t = t)
    (given : s ≠ "") (given' : t ≠ "") : trim (s ++ sep ++ t) = s ++ sep ++ t := by
  have given : s.toList ≠ [] := by simpa using given
  have given' : t.toList ≠ [] := by simpa using given'
  rw [trim_eq_self_iff, String.toList_append, String.toList_append, List.append_assoc,
    List.head?_append_of_ne_nil _ given, ← List.append_assoc, List.getLast?_append_of_ne_nil _ given']
  exact ⟨(trim_eq_self_iff.mp first).1, (trim_eq_self_iff.mp last).2⟩

theorem trim_append (first : trim s = s) (last : trim t = t) (given : s ≠ "") (given' : t ≠ "") :
    trim (s ++ t) = s ++ t := by
  have joined := trim_joined "" first last given given'
  rwa [String.append_empty] at joined

theorem containsLiteral_trim (s : String) (ends : trim literal = literal) (given : literal ≠ "") :
    containsLiteral (trim s) literal = containsLiteral s literal := by
  obtain ⟨front, back⟩ := trim_eq_self_iff.mp ends
  rw [Bool.eq_iff_iff, containsLiteral_iff, containsLiteral_iff]
  constructor
  · intro inside
    exact inside.trans (Text.trim_infix s)
  · intro inside
    rw [trim, String.toList_ofList]
    exact infix_strip front back (by simpa using given) inside

theorem startsWith_iff {p : String} : startsWith s p = true ↔ p.toList <+: s.toList := by
  rw [startsWith, beginsWith_iff]

theorem endsWith_iff {p : String} : endsWith s p = true ↔ p.toList <:+ s.toList := by
  rw [endsWith, beginsWith_iff, List.reverse_prefix]

theorem startsWith_trim {p : String} (visible : ∀ c ∈ p.toList, isBlank c = false)
    (begins : startsWith s p = true) : startsWith (trim s) p = true := by
  obtain ⟨lead, tail, split, front, back⟩ := exists_append_strip isBlank s.toList
  rw [startsWith_iff, trim, String.toList_ofList]
  rw [startsWith_iff, split] at begins
  generalize p.toList = literal at visible begins ⊢
  -- The text begins with what is not blank, so nothing is taken away before it.
  have none : literal = [] ∨ lead = [] := by
    cases literal with
    | nil => exact .inl rfl
    | cons c literal =>
      cases lead with
      | nil => exact .inr rfl
      | cons first lead =>
        obtain ⟨rfl, -⟩ := List.cons_prefix_cons.mp begins
        exact absurd (front c (.head _)) (by simp [visible c (.head _)])
  rcases none with rfl | rfl
  · exact List.nil_prefix
  rw [List.nil_append] at begins
  rcases List.prefix_or_prefix_of_prefix begins (List.prefix_append _ tail) with within | beyond
  · exact within
  · obtain ⟨more, rfl⟩ := beyond
    have rest := (List.prefix_append_right_inj _).mp begins
    cases more with
    | nil => simp
    | cons c more =>
      have blank := back c (rest.subset (.head _))
      have shown := visible c (List.mem_append_right _ (.head _))
      exact absurd (shown.symm.trans blank) Bool.false_ne_true

/-! ## The middle of a text -/

section Middle

variable {p : Char → Bool} {a b c : List Char} {x : Char}

theorem dropWhile_append_of_mem (member : x ∈ a) (kept : p x = false) :
    (a ++ b).dropWhile p = a.dropWhile p ++ b := by
  have given : ¬(a.dropWhile p).isEmpty = true := by
    intro none
    have all := List.dropWhile_eq_nil_iff.mp (List.isEmpty_iff.mp none) x member
    exact Bool.false_ne_true (kept.symm.trans all)
  rw [List.dropWhile_append, if_neg given]

theorem dropTrailing_append_of_mem (member : x ∈ b) (kept : p x = false) :
    dropTrailing p (a ++ b) = a ++ dropTrailing p b := by
  rw [dropTrailing, List.reverse_append, dropWhile_append_of_mem (List.mem_reverse.mpr member) kept,
    List.reverse_append, List.reverse_reverse]
  rfl

theorem all_or_exists (p : Char → Bool) (cs : List Char) :
    (∀ x ∈ cs, p x = true) ∨ ∃ x ∈ cs, p x = false := by
  cases all : cs.all p with
  | true => exact .inl (List.all_eq_true.mp all)
  | false =>
    obtain ⟨x, member, kept⟩ := List.all_eq_false.mp all
    exact .inr ⟨x, member, Bool.eq_false_iff.mpr kept⟩

theorem strip_append_left (all : ∀ x ∈ a, p x = true) : strip p (a ++ b) = strip p b := by
  rw [strip, strip, List.dropWhile_append_of_pos all]

theorem strip_append_right (all : ∀ x ∈ b, p x = true) : strip p (a ++ b) = strip p a := by
  have shorter (cs : List Char) : dropTrailing p (cs ++ b) = dropTrailing p cs := by
    rw [dropTrailing, List.reverse_append,
      List.dropWhile_append_of_pos fun x member => all x (List.mem_reverse.mp member)]
    rfl
  obtain none | ⟨x, member, kept⟩ := all_or_exists p a
  · rw [strip_append_left none, strip, strip, List.dropWhile_eq_nil_iff.mpr all,
      List.dropWhile_eq_nil_iff.mpr none]
  · rw [strip, dropWhile_append_of_mem member kept, shorter]
    rfl

/-- What is between two ends of which something is left is kept. -/
theorem strip_append_append {y : Char} (member : x ∈ a) (kept : p x = false) (member' : y ∈ c)
    (kept' : p y = false) : strip p (a ++ b ++ c) = a.dropWhile p ++ b ++ dropTrailing p c := by
  rw [strip, List.append_assoc, dropWhile_append_of_mem member kept, ← List.append_assoc,
    dropTrailing_append_of_mem member' kept']

theorem countP_strip (p : Char → Bool) (cs : List Char) :
    (strip p cs).countP (!p ·) = cs.countP (!p ·) := by
  obtain ⟨lead, tail, split, front, back⟩ := exists_append_strip p cs
  have none {part : List Char} (all : ∀ c ∈ part, p c = true) : part.countP (!p ·) = 0 :=
    List.countP_eq_zero.mpr fun c member => by simp [all c member]
  calc (strip p cs).countP (!p ·)
      = (lead ++ strip p cs ++ tail).countP (!p ·) := by
        rw [List.countP_append, List.countP_append, none front, none back, Nat.zero_add, Nat.add_zero]
    _ = cs.countP (!p ·) := by rw [← split]

/-- What is in the middle makes no difference exactly when it is nothing, or is trimmed away with one
of the ends. -/
theorem strip_without_iff : strip p (a ++ b ++ c) = strip p (a ++ c)
    ↔ b = [] ∨ (∀ x ∈ b, p x = true) ∧ ((∀ x ∈ a, p x = true) ∨ ∀ x ∈ c, p x = true) := by
  constructor
  · intro same
    have blank : ∀ x ∈ b, p x = true := by
      have count := congrArg (List.countP (!p ·)) same
      rw [countP_strip, countP_strip, List.countP_append, List.countP_append, List.countP_append] at count
      have zero : b.countP (!p ·) = 0 := by omega
      intro x member
      simpa using List.countP_eq_zero.mp zero x member
    obtain front | ⟨x, member, kept⟩ := all_or_exists p a
    · exact .inr ⟨blank, .inl front⟩
    obtain back | ⟨y, member', kept'⟩ := all_or_exists p c
    · exact .inr ⟨blank, .inr back⟩
    have direct : strip p (a ++ c) = a.dropWhile p ++ [] ++ dropTrailing p c := by
      rw [← strip_append_append member kept member' kept', List.append_nil]
    rw [strip_append_append member kept member' kept', direct] at same
    exact .inl (List.append_cancel_left (List.append_cancel_right same))
  · rintro (rfl | ⟨blank, front | back⟩)
    · rw [List.append_nil]
    · rw [List.append_assoc, strip_append_left front, strip_append_left blank, strip_append_left front]
    · rw [strip_append_right back, strip_append_right blank, strip_append_right back]

end Middle

end MetadataIndex.Text
