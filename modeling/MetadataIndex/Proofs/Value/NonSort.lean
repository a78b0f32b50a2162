import MetadataIndex.Proofs.Pattern.Literal
import MetadataIndex.Proofs.Text.Trimmed
import MetadataIndex.Value.NonSort

/-!
# What is left out for sorting

With literal marks all from the first opening mark to the last closing mark is left out. Of a text with
several marked parts this takes the text between them as well; a text with one marked part, or none,
keeps all that is not marked.
-/

set_option autoImplicit false

namespace MetadataIndex.NonSort

open Pattern (IsLiteral anyText)

/-- A text with marked parts: what is in front of them, and each part with what is behind it. -/
structure MarkedText where
  front : List Char
  parts : List (List Char × List Char)

namespace MarkedText

variable (opening closing : List Char) (v : MarkedText)

/-- The text with its marks. -/
def write : List Char :=
  v.front ++ v.parts.flatMap fun part => opening ++ part.1 ++ closing ++ part.2

/-- Which characters of the text are neither marked nor part of a mark. -/
def plainAt : List Bool :=
  (v.front.map fun _ => true)
    ++ v.parts.flatMap fun part =>
      ((opening ++ part.1 ++ closing).map fun _ => false) ++ part.2.map fun _ => true

/-- The text without the marked parts. -/
def plain : List Char :=
  v.front ++ v.parts.flatMap (·.2)

/-- What is between the first marked part and the last one, without the parts between them. -/
def between : List Char :=
  v.parts.dropLast.flatMap (·.2)

/-- What is behind the last marked part. -/
def rear : List Char :=
  v.parts.getLast?.elim [] (·.2)

/-- No mark is in what is not marked, nor reaches into it. -/
def IsApart (mark : List Char) : Prop :=
  ∀ i, mark <+: (v.write opening closing).drop i → ∀ k, i ≤ k → k < i + mark.length →
    (v.plainAt opening closing)[k]? ≠ some true

variable {opening closing v}

theorem plain_eq : v.plain = v.front ++ v.between ++ v.rear := by
  rw [plain, between, rear]
  obtain none | ⟨init, last, parts⟩ := v.parts.eq_nil_or_concat'
  · rw [none]
    simp
  · rw [parts]
    simp

theorem plainAt_front {k : Nat} (inside : k < v.front.length) :
    (v.plainAt opening closing)[k]? = some true := by
  have inside : k < (v.front.map fun _ => true).length := by rwa [List.length_map]
  rw [plainAt, List.getElem?_append_left inside, List.getElem?_eq_getElem inside, List.getElem_map]

/-- The text up to the last closing mark. -/
def upTo (opening closing front : List Char) (init : List (List Char × List Char)) (inner : List Char) :
    List Char :=
  front ++ (init.flatMap fun part => opening ++ part.1 ++ closing ++ part.2) ++ opening ++ inner

section Last

variable {front inner behind : List Char} {init : List (List Char × List Char)}

theorem write_concat : write opening closing ⟨front, init ++ [(inner, behind)]⟩
    = upTo opening closing front init inner ++ closing ++ behind := by
  simp [write, upTo]

theorem plainAt_rear {k : Nat} (start : (upTo opening closing front init inner ++ closing).length ≤ k)
    (within : k < (upTo opening closing front init inner ++ closing ++ behind).length) :
    (plainAt opening closing ⟨front, init ++ [(inner, behind)]⟩)[k]? = some true := by
  obtain ⟨flags, same, length⟩ : ∃ flags,
      plainAt opening closing ⟨front, init ++ [(inner, behind)]⟩ = flags ++ behind.map (fun _ => true)
        ∧ flags.length = (upTo opening closing front init inner ++ closing).length := by
    refine ⟨(front.map fun _ => true) ++ (init.flatMap fun part =>
      ((opening ++ part.1 ++ closing).map fun _ => false) ++ part.2.map fun _ => true)
        ++ (opening ++ inner ++ closing).map (fun _ => false), ?_, ?_⟩
    · simp [plainAt]
    · simp [upTo, List.length_flatMap, Nat.add_assoc]
  rw [List.length_append, ← length] at within
  have inside : k - flags.length < behind.length := by omega
  rw [same, List.getElem?_append_right (length ▸ start), List.getElem?_map,
    List.getElem?_eq_getElem inside, Option.map_some]

end Last

/-- Where no mark touches what is not marked, the opening mark is first behind the front and the closing
mark is last before the rear. -/
theorem isSpan {front inner behind : List Char} {init : List (List Char × List Char)}
    (given : opening ≠ []) (given' : closing ≠ [])
    (apart : IsApart opening closing ⟨front, init ++ [(inner, behind)]⟩ opening)
    (apart' : IsApart opening closing ⟨front, init ++ [(inner, behind)]⟩ closing) :
    Pattern.IsSpan opening closing (write opening closing ⟨front, init ++ [(inner, behind)]⟩)
      front.length (upTo opening closing front init inner).length where
  starts := by
    rw [write, List.drop_left]
    cases init with
    | nil => simp
    | cons part init => simp [List.append_assoc]
  first i before here := by
    refine apart i here i (Nat.le_refl _) ?_ (plainAt_front before)
    exact Nat.lt_add_of_pos_right (List.length_pos_iff.mpr given)
  behind := by
    rw [upTo]
    simp only [List.length_append]
    omega
  ends := by
    rw [write_concat, List.append_assoc, List.drop_left]
    exact List.prefix_append _ _
  last j after here := by
    have long := List.length_pos_iff.mpr given'
    have within := Pattern.prefix_within here given'
    refine apart' j here (j + closing.length - 1) (by omega) (by omega) (plainAt_rear ?_ ?_)
    · rw [List.length_append]
      omega
    · rw [write_concat] at within
      omega

/-- Without marked parts no mark is in the text. -/
theorem not_starts_of_nil {front : List Char} (given : opening ≠ [])
    (apart : IsApart opening closing ⟨front, []⟩ opening) (i : Nat) :
    ¬opening <+: (write opening closing ⟨front, []⟩).drop i := by
  intro here
  have within := Pattern.prefix_within here given
  have long := List.length_pos_iff.mpr given
  have same : write opening closing ⟨front, []⟩ = front := List.append_nil front
  rw [same] at within
  exact apart i here i (Nat.le_refl _) (by omega) (plainAt_front (by dsimp only; omega))

/-- Where a mark stands is seen from its places in the text. -/
theorem isApart_of_places {mark : List Char} (given : mark ≠ [])
    (apart : ∀ i < (v.write opening closing).length, mark <+: (v.write opening closing).drop i →
      ∀ k < i + mark.length, i ≤ k → (v.plainAt opening closing)[k]? ≠ some true) :
    v.IsApart opening closing mark := by
  intro i here k first last
  have within := Pattern.prefix_within here given
  have long := List.length_pos_iff.mpr given
  exact apart i (by omega) here k last first

end MarkedText

section Apply

variable {p s : String} {v : MarkedText}

theorem mark_text (p : String) : mark (some (.text p)) = p := by
  rw [mark, Option.getD_some, Json.displayIfGiven, Json.isGiven]
  split
  · rfl
  · next none => exact (String.isEmpty_iff.mp (by simpa using none)).symm

theorem pattern_literal : pattern ⟨some (.text p), some (.text s)⟩
    = String.ofList (p.toList ++ anyText ++ s.toList) := by
  rw [pattern, mark_text, mark_text, String.ofList_append, String.ofList_append, String.ofList_toList,
    String.ofList_toList]
  rfl

/-- With an opening mark, all that the pattern takes is removed and the rest trimmed. -/
theorem apply_of_replaced {value result : String} (given : p ≠ "")
    (replaced : Pattern.replacePattern (String.ofList (p.toList ++ anyText ++ s.toList)) "" value
      = .ok result) : apply ⟨some (.text p), some (.text s)⟩ value = .ok (Text.trim result) := by
  have filled : isVoid ⟨some (.text p), some (.text s)⟩ = false := by
    have here : p.isEmpty = false := by simpa [String.isEmpty_iff] using given
    rw [isVoid, Option.getD_some, Json.isGiven, here]
    rfl
  rw [apply, filled, if_neg Bool.false_ne_true, pattern_literal, replaced]
  rfl

theorem apply_written (given : p ≠ "") (given' : s ≠ "") (literal : ∀ c ∈ p.toList, IsLiteral c)
    (literal' : ∀ c ∈ s.toList, IsLiteral c) (apart : v.IsApart p.toList s.toList p.toList)
    (apart' : v.IsApart p.toList s.toList s.toList) :
    apply ⟨some (.text p), some (.text s)⟩ (String.ofList (v.write p.toList s.toList))
      = .ok (Text.trim (String.ofList (v.front ++ v.rear))) := by
  have filled : p.toList ≠ [] := by simpa using given
  have filled' : s.toList ≠ [] := by simpa using given'
  obtain ⟨front, parts⟩ := v
  obtain rfl | ⟨init, ⟨inner, behind⟩, rfl⟩ := parts.eq_nil_or_concat'
  · have replaced := Pattern.replacePattern_none literal literal' filled fun i _ starts =>
      absurd starts (MarkedText.not_starts_of_nil filled apart i)
    exact apply_of_replaced given replaced
  · have replaced := Pattern.replacePattern_span literal literal' filled filled'
      (MarkedText.isSpan filled filled' apart apart')
    have kept : (MarkedText.write p.toList s.toList ⟨front, init ++ [(inner, behind)]⟩).take front.length
        = front := by
      rw [MarkedText.write, List.take_left]
    have rest : (MarkedText.write p.toList s.toList ⟨front, init ++ [(inner, behind)]⟩).drop
        ((MarkedText.upTo p.toList s.toList front init inner).length + s.toList.length) = behind := by
      rw [MarkedText.write_concat, ← List.length_append, List.drop_left]
    rw [kept, rest] at replaced
    rw [apply_of_replaced given replaced, MarkedText.rear, List.getLast?_concat]
    rfl

/-- Of a text with literal marks the front and the rear are left, trimmed. That is the text without the
marked parts exactly when nothing is between them, or blanks that are trimmed away with an end. -/
theorem apply_of_marked (given : p ≠ "") (given' : s ≠ "") (literal : ∀ c ∈ p.toList, IsLiteral c)
    (literal' : ∀ c ∈ s.toList, IsLiteral c) (apart : v.IsApart p.toList s.toList p.toList)
    (apart' : v.IsApart p.toList s.toList s.toList) :
    apply ⟨some (.text p), some (.text s)⟩ (String.ofList (v.write p.toList s.toList))
        = .ok (Text.trim (String.ofList (v.front ++ v.rear)))
      ∧ (Text.trim (String.ofList (v.front ++ v.rear)) = Text.trim (String.ofList v.plain)
        ↔ v.between = [] ∨ (∀ c ∈ v.between, Text.isBlank c = true)
          ∧ ((∀ c ∈ v.front, Text.isBlank c = true) ∨ ∀ c ∈ v.rear, Text.isBlank c = true)) := by
  refine ⟨apply_written given given' literal literal' apart apart', ?_⟩
  rw [Text.trim, Text.trim, String.ofList_inj, String.toList_ofList, String.toList_ofList,
    MarkedText.plain_eq, eq_comm]
  exact Text.strip_without_iff

end Apply

/-! ## Titles -/

/-- A title with its article marked. -/
def article : MarkedText where
  front := []
  parts := [(['D', 'e', 'r'], [' ', 'T', 'i', 't', 'e', 'l'])]

/-- A title with two marked parts. -/
def articles : MarkedText where
  front := []
  parts := [(['D', 'e', 'r'], [' ', 'T', 'i', 't', 'e', 'l', ' ']),
    (['u', 'n', 'd'], [' ', 'E', 'n', 'd', 'e'])]

theorem toList_marks : "<<".toList = ['<', '<'] ∧ ">>".toList = ['>', '>'] := by decide

theorem isApart_article : article.IsApart "<<".toList ">>".toList "<<".toList
    ∧ article.IsApart "<<".toList ">>".toList ">>".toList := by
  rw [toList_marks.1, toList_marks.2]
  exact ⟨MarkedText.isApart_of_places (by decide) (by decide),
    MarkedText.isApart_of_places (by decide) (by decide)⟩

theorem isApart_articles : articles.IsApart "<<".toList ">>".toList "<<".toList
    ∧ articles.IsApart "<<".toList ">>".toList ">>".toList := by
  rw [toList_marks.1, toList_marks.2]
  exact ⟨MarkedText.isApart_of_places (by decide) (by decide +kernel),
    MarkedText.isApart_of_places (by decide) (by decide +kernel)⟩

theorem isLiteral_marks : (∀ c ∈ "<<".toList, IsLiteral c) ∧ ∀ c ∈ ">>".toList, IsLiteral c := by
  rw [toList_marks.1, toList_marks.2]
  exact ⟨List.forall_mem_cons.mpr ⟨by decide, List.forall_mem_singleton.mpr (by decide)⟩,
    List.forall_mem_cons.mpr ⟨by decide, List.forall_mem_singleton.mpr (by decide)⟩⟩

theorem apply_of_marked_article :
    apply ⟨some (.text "<<"), some (.text ">>")⟩ "<<Der>> Titel" = .ok "Titel" := by
  have text : "<<Der>> Titel" = String.ofList (article.write "<<".toList ">>".toList) := by decide
  have left : Text.trim (String.ofList (article.front ++ article.rear)) = "Titel" := by decide
  rw [text, ← left]
  exact (apply_of_marked (by decide) (by decide) isLiteral_marks.1 isLiteral_marks.2
    isApart_article.1 isApart_article.2).1

/-- What is between two marked parts is lost. -/
theorem lost_between_articles : articles.IsApart "<<".toList ">>".toList "<<".toList
    ∧ articles.IsApart "<<".toList ">>".toList ">>".toList
    ∧ (∀ part ∈ articles.parts, ¬['<', '<'] <:+: part.1 ∧ ¬['>', '>'] <:+: part.1)
    ∧ apply ⟨some (.text "<<"), some (.text ">>")⟩ "<<Der>> Titel <<und>> Ende" = .ok "Ende"
    ∧ Text.trim (String.ofList articles.plain) = "Titel  Ende" := by
  refine ⟨isApart_articles.1, isApart_articles.2, by decide, ?_, by decide⟩
  have text : "<<Der>> Titel <<und>> Ende"
      = String.ofList (articles.write "<<".toList ">>".toList) := by decide
  have left : Text.trim (String.ofList (articles.front ++ articles.rear)) = "Ende" := by decide
  rw [text, ← left]
  exact apply_written (by decide) (by decide) isLiteral_marks.1 isLiteral_marks.2
    isApart_articles.1 isApart_articles.2

end MetadataIndex.NonSort
