import MetadataIndex.Proofs.Text.Trimmed
import MetadataIndex.Proofs.Value.Token

/-!
# The ends of cleaned names

A name is cleaned in two passes: blanks are trimmed away, then ASCII marks are taken off the ends. The
second pass may lay a blank bare, and there is no third. A blank that is an ASCII character is a mark too
and goes with the others; so the ends are clean exactly when no other blank is enclosed by what is taken
off, and exactly then cleaning again changes nothing.
-/

set_option autoImplicit false

namespace MetadataIndex.Value

/-- A character that does not belong at the end of a name: a blank or an ASCII mark. -/
def isEdge (c : Char) : Bool := Text.isBlank c || isAsciiMark c

/-- A text is empty, or begins and ends with a character that belongs there. -/
def CleanEnds (cs : List Char) : Prop :=
  (∀ c ∈ cs.head?, isEdge c = false) ∧ ∀ c ∈ cs.getLast?, isEdge c = false

/-- Between characters that are not blank stands a blank outside ASCII, and on one side of it there are
only blanks and ASCII marks. -/
def EnclosesBlank (cs : List Char) : Prop :=
  ∃ before b after, cs = before ++ b :: after ∧ Text.isBlank b = true ∧ 128 ≤ b.toNat
    ∧ (∃ c ∈ before, Text.isBlank c = false) ∧ (∃ c ∈ after, Text.isBlank c = false)
    ∧ ((∀ c ∈ before, isEdge c = true) ∨ ∀ c ∈ after, isEdge c = true)

variable {cs outer inner left inner' outer' : List Char} {b : Char}

theorem isEdge_of_isBlank {c : Char} (blank : Text.isBlank c = true) : isEdge c = true := by
  simp [isEdge, blank]

theorem isEdge_of_isAsciiMark {c : Char} (mark : isAsciiMark c = true) : isEdge c = true := by
  simp [isEdge, mark]

/-- What is no mark and yet an edge is a blank outside ASCII. -/
theorem wide_of_isEdge {c : Char} (edge : isEdge c = true) (plain : isAsciiMark c = false) :
    Text.isBlank c = true ∧ 128 ≤ c.toNat := by
  have blank : Text.isBlank c = true := by simpa [isEdge, plain] using edge
  refine ⟨blank, ?_⟩
  by_contra narrow
  have letter : Text.isAsciiAlphanumeric c.toNat = true := by
    simpa [isAsciiMark, Nat.lt_of_not_le narrow] using plain
  rw [isBlank_of_isAsciiAlphanumeric letter] at blank
  cases blank

theorem EnclosesBlank.reverse (encloses : EnclosesBlank cs) : EnclosesBlank cs.reverse := by
  obtain ⟨before, b, after, rfl, blank, wide, front, back, edges⟩ := encloses
  refine ⟨after.reverse, b, before.reverse, by simp, blank, wide, ?_, ?_, ?_⟩
  · simpa using back
  · simpa using front
  · simpa using edges.symm

/-! ## The two passes -/

/-- What the passes take off a text at both ends, first the outer parts and then the inner ones, and what
they leave of it. -/
structure Passes (cs outer inner left inner' outer' : List Char) : Prop where
  split : cs = outer ++ inner ++ left ++ inner' ++ outer'
  blank : ∀ c ∈ outer, Text.isBlank c = true
  blank' : ∀ c ∈ outer', Text.isBlank c = true
  mark : ∀ c ∈ inner, isAsciiMark c = true
  mark' : ∀ c ∈ inner', isAsciiMark c = true
  first : ∀ c ∈ (inner ++ left ++ inner').head?, Text.isBlank c = false
  last : ∀ c ∈ (inner ++ left ++ inner').getLast?, Text.isBlank c = false
  head : ∀ c ∈ left.head?, isAsciiMark c = false
  rear : ∀ c ∈ left.getLast?, isAsciiMark c = false

theorem exists_passes (name : String) :
    ∃ outer inner inner' outer',
      Passes name.toList outer inner (cleanName name).toList inner' outer' := by
  obtain ⟨outer, outer', trimmed, blank, blank'⟩ :=
    Text.exists_append_strip Text.isBlank name.toList
  have first : ∀ c ∈ (Text.strip Text.isBlank name.toList).head?, Text.isBlank c = false :=
    fun _ => Text.head?_strip
  have last : ∀ c ∈ (Text.strip Text.isBlank name.toList).getLast?, Text.isBlank c = false :=
    fun _ => Text.getLast?_strip
  have result : (cleanName name).toList
      = Text.strip isAsciiMark (Text.strip Text.isBlank name.toList) := by
    simp [cleanName, Text.trim]
  rw [result]
  generalize Text.strip Text.isBlank name.toList = middle at trimmed first last ⊢
  obtain ⟨inner, inner', cleaned, mark, mark'⟩ := Text.exists_append_strip isAsciiMark middle
  refine ⟨outer, inner, inner', outer', ?_⟩
  constructor
  case split =>
    have whole := congrArg (fun part => outer ++ part ++ outer') cleaned
    simpa using trimmed.trans whole
  case blank => exact blank
  case blank' => exact blank'
  case mark => exact mark
  case mark' => exact mark'
  case first => rwa [← cleaned]
  case last => rwa [← cleaned]
  case head => exact fun _ => Text.head?_strip
  case rear => exact fun _ => Text.getLast?_strip

namespace Passes

theorem reverse (passes : Passes cs outer inner left inner' outer') :
    Passes cs.reverse outer'.reverse inner'.reverse left.reverse inner.reverse outer.reverse where
  split := by simp [passes.split]
  blank := by simpa using passes.blank'
  blank' := by simpa using passes.blank
  mark := by simpa using passes.mark'
  mark' := by simpa using passes.mark
  first := by
    have last := passes.last
    rwa [← List.head?_reverse, List.reverse_append, List.reverse_append, ← List.append_assoc] at last
  last := by
    have first := passes.first
    rwa [← List.getLast?_reverse, List.reverse_append, List.reverse_append, ← List.append_assoc]
      at first
  head := by simpa using passes.rear
  rear := by simpa using passes.head

theorem edge_outside (passes : Passes cs outer inner left inner' outer') :
    (∀ c ∈ outer ++ inner, isEdge c = true) ∧ ∀ c ∈ inner' ++ outer', isEdge c = true := by
  constructor
  · intro c member
    cases List.mem_append.mp member with
    | inl inOuter => exact isEdge_of_isBlank (passes.blank c inOuter)
    | inr inInner => exact isEdge_of_isAsciiMark (passes.mark c inInner)
  · intro c member
    cases List.mem_append.mp member with
    | inl inInner => exact isEdge_of_isAsciiMark (passes.mark' c inInner)
    | inr inOuter => exact isEdge_of_isBlank (passes.blank' c inOuter)

/-- A blank that is laid bare at the front was enclosed: a mark stood before it, and behind it what the
text ends with. -/
theorem encloses_of_head (passes : Passes cs outer inner left inner' outer')
    (bare : b ∈ left.head?) (edge : isEdge b = true) : EnclosesBlank cs := by
  obtain ⟨blank, wide⟩ := wide_of_isEdge edge (passes.head b bare)
  obtain ⟨rest, rfl⟩ := List.head?_eq_some_iff.mp bare
  refine ⟨outer ++ inner, b, rest ++ inner' ++ outer', by simp [passes.split], blank, wide, ?_, ?_,
    .inl passes.edge_outside.1⟩
  · cases inner with
    | nil =>
      have shown := passes.first b (by simp)
      rw [blank] at shown
      cases shown
    | cons c inner => exact ⟨c, by simp, passes.first c (by simp)⟩
  · cases ending : (rest ++ inner').getLast? with
    | none =>
      have shown := passes.last b (by simp [List.getLast?_eq_none_iff.mp ending])
      rw [blank] at shown
      cases shown
    | some c =>
      refine ⟨c, List.mem_append_left _ (List.mem_of_getLast? ending), passes.last c ?_⟩
      simp [List.getLast?_append, List.getLast?_cons, ending]

theorem encloses_of_not_clean (passes : Passes cs outer inner left inner' outer')
    (unclean : ¬CleanEnds left) : EnclosesBlank cs := by
  by_contra none
  apply unclean
  constructor
  · intro c front
    by_contra edge
    exact none (passes.encloses_of_head front (by simpa using edge))
  · intro c back
    by_contra edge
    have enclosed := passes.reverse.encloses_of_head (by simpa using back) (by simpa using edge)
    exact none (by simpa using enclosed.reverse)

/-- A blank outside ASCII with a visible character before it is not taken off at the front. -/
theorem ne_of_visible {before : List Char} (more : List Char) (blank : ∀ c ∈ outer, Text.isBlank c = true)
    (mark : ∀ c ∈ inner, isAsciiMark c = true) (wide : 128 ≤ b.toNat)
    (shown : ∃ c ∈ before, Text.isBlank c = false) : outer ++ inner ≠ before ++ b :: more := by
  intro same
  rcases List.append_eq_append_iff.mp same with ⟨shift, rfl, rfl⟩ | ⟨shift, rfl, -⟩
  · have marked := mark b (by simp)
    simp [isAsciiMark, Nat.not_lt_of_le wide] at marked
  · obtain ⟨c, member, visible⟩ := shown
    have hidden := blank c (by simp [member])
    rw [visible] at hidden
    cases hidden

/-- An enclosed blank is left. -/
theorem left_of_encloses (passes : Passes cs outer inner left inner' outer')
    {before after : List Char} (split : cs = before ++ b :: after) (wide : 128 ≤ b.toNat)
    (front : ∃ c ∈ before, Text.isBlank c = false) (back : ∃ c ∈ after, Text.isBlank c = false) :
    ∃ lead trail, left = lead ++ b :: trail ∧ before = outer ++ inner ++ lead
      ∧ after = trail ++ inner' ++ outer' := by
  have frontTaken (more : List Char) : outer ++ inner ≠ before ++ b :: more :=
    ne_of_visible more passes.blank passes.mark wide front
  have rearTaken (more : List Char) : inner' ++ outer' ≠ more ++ b :: after := by
    intro same
    have shown : ∃ c ∈ after.reverse, Text.isBlank c = false := by simpa using back
    apply ne_of_visible more.reverse passes.reverse.blank passes.reverse.mark wide shown
    rw [← List.reverse_append, same]
    simp
  have both : (outer ++ inner) ++ (left ++ (inner' ++ outer')) = before ++ b :: after := by
    simp [← split, passes.split]
  obtain ⟨lead, rfl, rest⟩ : ∃ lead, before = outer ++ inner ++ lead
      ∧ left ++ (inner' ++ outer') = lead ++ b :: after := by
    rcases List.append_eq_append_iff.mp both with ⟨lead, begins, rest⟩ | ⟨shift, begins, rest⟩
    · exact ⟨lead, begins, rest⟩
    · cases shift with
      | nil => exact ⟨[], by simpa using begins.symm, by simpa using rest.symm⟩
      | cons c shift =>
        obtain ⟨rfl, -⟩ := List.cons.inj rest
        exact absurd begins (frontTaken _)
  rcases List.append_eq_append_iff.mp rest with ⟨shift, -, ends⟩ | ⟨shift, rfl, ends⟩
  · exact absurd ends (rearTaken _)
  · cases shift with
    | nil => exact absurd ends.symm (rearTaken [])
    | cons c trail =>
      obtain ⟨rfl, rfl⟩ := List.cons.inj ends
      exact ⟨lead, trail, rfl, rfl, by simp⟩

theorem not_clean_of_encloses (passes : Passes cs outer inner left inner' outer')
    (encloses : EnclosesBlank cs) : ¬CleanEnds left := by
  obtain ⟨before, b, after, split, blank, wide, front, back, edges⟩ := encloses
  obtain ⟨lead, trail, rfl, rfl, rfl⟩ := passes.left_of_encloses split wide front back
  have edge := isEdge_of_isBlank blank
  intro clean
  cases edges with
  | inl edges =>
    -- The first character that is left is one of those before the blank, or the blank.
    cases lead with
    | nil => exact Bool.false_ne_true ((clean.1 b (by simp)).symm.trans edge)
    | cons c lead => exact Bool.false_ne_true ((clean.1 c (by simp)).symm.trans (edges c (by simp)))
  | inr edges =>
    cases ending : trail.getLast? with
    | none =>
      obtain rfl := List.getLast?_eq_none_iff.mp ending
      exact Bool.false_ne_true ((clean.2 b (by simp)).symm.trans edge)
    | some c =>
      have kept := clean.2 c (by simp [List.getLast?_append, List.getLast?_cons, ending])
      have taken := edges c (by simp [List.mem_of_getLast? ending])
      exact Bool.false_ne_true (kept.symm.trans taken)

/-- The ends of what is left are clean exactly when the text encloses no blank outside ASCII. -/
theorem clean_iff (passes : Passes cs outer inner left inner' outer') :
    CleanEnds left ↔ ¬EnclosesBlank cs := by
  constructor
  · intro clean encloses
    exact passes.not_clean_of_encloses encloses clean
  · intro none
    by_contra unclean
    exact none (passes.encloses_of_not_clean unclean)

end Passes

/-- Cleaning leaves a name as it is exactly when its ends are clean. -/
theorem cleanName_eq_self_iff {name : String} : cleanName name = name ↔ CleanEnds name.toList := by
  have unfolded : cleanName name = name
      ↔ Text.strip isAsciiMark (Text.trim name).toList = name.toList := by
    rw [← String.toList_inj, cleanName, String.toList_ofList]
  rw [unfolded]
  constructor
  · intro same
    -- Both passes only shorten, so that neither did.
    have trimmed : (Text.trim name).toList = name.toList := by
      apply (Text.trim_infix name).eq_of_length_le
      conv => lhs; rw [← same]
      exact (Text.strip_infix isAsciiMark _).length_le
    rw [trimmed] at same
    rw [String.toList_inj] at trimmed
    obtain ⟨front, back⟩ := Text.trim_eq_self_iff.mp trimmed
    obtain ⟨front', back'⟩ := Text.strip_eq_self_iff.mp same
    constructor
    · intro c head
      simp [isEdge, front c head, front' c head]
    · intro c last
      simp [isEdge, back c last, back' c last]
  · intro clean
    obtain ⟨front, back⟩ := clean
    simp only [isEdge, Bool.or_eq_false_iff] at front back
    have trimmed : Text.trim name = name := Text.trim_eq_self_iff.mpr
      ⟨fun c head => (front c head).1, fun c last => (back c last).1⟩
    rw [trimmed]
    exact Text.strip_eq_self_iff.mpr
      ⟨fun c head => (front c head).2, fun c last => (back c last).2⟩

/-- A cleaned name is a part of the name, and what stands around it are blanks and ASCII marks. It is empty
or has clean ends, and cleaning it again changes nothing, exactly when the name encloses no blank outside
ASCII. -/
theorem cleanName_ends (name : String) :
    (∃ before after, name.toList = before ++ (cleanName name).toList ++ after
        ∧ (∀ c ∈ before, isEdge c = true) ∧ ∀ c ∈ after, isEdge c = true)
      ∧ (CleanEnds (cleanName name).toList ↔ ¬EnclosesBlank name.toList)
      ∧ (cleanName (cleanName name) = cleanName name ↔ ¬EnclosesBlank name.toList) := by
  obtain ⟨outer, inner, inner', outer', passes⟩ := exists_passes name
  refine ⟨⟨outer ++ inner, inner' ++ outer', ?_, passes.edge_outside⟩, passes.clean_iff, ?_⟩
  · simp [passes.split]
  · rw [cleanName_eq_self_iff, passes.clean_iff]

/-- A no-break space behind a bracket is laid bare, and so is one between brackets. -/
theorem unclean_of_bracketedBlank :
    cleanName "(\u00a0a" = "\u00a0a" ∧ isEdge '\u00a0' = true ∧ cleanName "\u00a0a" = "a"
      ∧ cleanName "(\u00a0)" = "\u00a0" ∧ cleanName "\u00a0" = "" := by
  decide

end MetadataIndex.Value
