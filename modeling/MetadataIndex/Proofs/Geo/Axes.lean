import MetadataIndex.Proofs.Geo.Grouping
import MetadataIndex.Proofs.Text.Joined

/-!
# The order of axes

A text that gives the latitude first is converted as the text in which the words of each pair are swapped
is converted without that. Numbers are grouped from the left whatever their dimension is, and reading
them fails exactly when one of the words is not a number.
-/

set_option autoImplicit false

namespace MetadataIndex.Geo

section Pairs

variable {α β ν : Type}

/-- The items of each pair swapped; a last item without another stays. -/
def swapPairs : List α → List α
  | x :: y :: more => y :: x :: swapPairs more
  | items => items

theorem swapPairs_perm (items : List α) : (swapPairs items).Perm items := by
  fun_induction swapPairs items with
  | case1 x y more ih => exact (List.Perm.swap x y _).trans ((ih.cons y).cons x)
  | case2 items => exact .refl _

theorem swapPairs_swapPairs (items : List α) : swapPairs (swapPairs items) = items := by
  fun_induction swapPairs items with
  | case1 x y more ih => rw [swapPairs, ih]
  | case2 items single => rw [swapPairs]; exact single

theorem forall₂_swapPairs {R : α → β → Prop} {as : List α} {bs : List β} :
    List.Forall₂ R as bs → List.Forall₂ R (swapPairs as) (swapPairs bs)
  | .nil => .nil
  | .cons only .nil => .cons only .nil
  | .cons first (.cons second rest) => .cons second (.cons first (forall₂_swapPairs rest))

theorem mapM_swapPairs_ok_iff {f : α → Checked β} {items : List α} {results : List β} :
    (swapPairs items).mapM f = .ok (swapPairs results) ↔ items.mapM f = .ok results := by
  rw [Checked.mapM_ok_iff, Checked.mapM_ok_iff]
  constructor
  · intro related
    have back := forall₂_swapPairs related
    rwa [swapPairs_swapPairs, swapPairs_swapPairs] at back
  · exact forall₂_swapPairs

theorem grouped_swapPairs (values : List ν) :
    grouped 2 false (swapPairs values) = grouped 2 true values := by
  fun_induction swapPairs values with
  | case1 x y more ih =>
    rw [grouped_pair, grouped_pair, ih]
    rfl
  | case2 values single =>
    have short : values.length < 2 := by
      match values, single with
      | [], _ => simp
      | [x], _ => simp
      | x :: y :: more, single => exact absurd rfl (single x y more)
    rw [grouped_of_length_lt short, grouped_of_length_lt short]

end Pairs

/-- Words that are found again in the text that a character joins them to. -/
structure Joinable (c : Char) (words : List String) : Prop where
  apart : ∀ word ∈ words, c ∉ word.toList
  trimmed : ∀ word ∈ words, Text.trim word = word
  given : ∀ word ∈ words, word ≠ ""

def joined (c : Char) (words : List String) : String := (String.singleton c).intercalate words

section

variable {c : Char} {words : List String}

theorem tokens_joined (joinable : Joinable c words) :
    tokens (joined c words) (String.singleton c) = words := by
  have separates : (String.singleton c).isEmpty = false := by simp
  by_cases none : words = []
  · rw [none]
    exact tokens_empty _
  rw [tokens, separates, joined, Text.trim_intercalate _ joinable.trimmed joinable.given,
    if_neg Bool.false_ne_true, Text.splitAtLiteral_intercalate joinable.apart none,
    List.map_congr_left joinable.trimmed, List.map_id', List.filter_eq_self]
  intro word member
  simpa using joinable.given word member

theorem Joinable.swapPairs (joinable : Joinable c words) : Joinable c (swapPairs words) := by
  have same {word : String} (member : word ∈ Geo.swapPairs words) : word ∈ words :=
    (swapPairs_perm words).subset member
  constructor
  · intro word member
    exact joinable.apart word (same member)
  · intro word member
    exact joinable.trimmed word (same member)
  · intro word member
    exact joinable.given word (same member)

end

open Checked (FailsWith)

variable {ν : Type} {n : Numbers ν} {c : Char} {words : List String}

theorem convertWith_swapPairs (joinable : Joinable c words) {latitudeFirst plain : String}
    {kind kind' : Kind} (first : Kind.ofName? latitudeFirst = some kind)
    (second : Kind.ofName? plain = some kind') (read : kind.read n = kind'.read n)
    (shape : ∀ values, kind.shape n values = kind'.shape n (swapPairs values)) :
    convertWith n (joined c words) latitudeFirst (String.singleton c)
      = convertWith n (joined c (swapPairs words)) plain (String.singleton c) := by
  have same : geometry? n (joined c words) latitudeFirst (String.singleton c)
      = geometry? n (joined c (swapPairs words)) plain (String.singleton c) := by
    apply Option.ext
    intro g
    rw [found_geometry_iff first, found_geometry_iff second, tokens_joined joinable,
      tokens_joined joinable.swapPairs, read]
    constructor
    · intro ⟨values, known, made⟩
      exact ⟨swapPairs values, mapM_swapPairs_ok_iff.mpr known, (shape values).symm.trans made⟩
    · intro ⟨values, known, made⟩
      refine ⟨swapPairs values, ?_, ?_⟩
      · rwa [← mapM_swapPairs_ok_iff, swapPairs_swapPairs]
      · rwa [shape, swapPairs_swapPairs]
  rw [convertWith, same, convertWith]

theorem shape_point (values : List ν) :
    (Kind.point true).shape n values = (Kind.point false).shape n (swapPairs values) := by
  rw [Kind.shape, Kind.shape, grouped_swapPairs]

theorem shape_polygon (values : List ν) :
    (Kind.polygon true).shape n values = (Kind.polygon false).shape n (swapPairs values) := by
  rw [Kind.shape, Kind.shape, grouped_swapPairs]

/-- Words are read as numbers, or refused where they are none. -/
def Numbers.Reads (n : Numbers ν) (float : String → Option ν) : Prop :=
  ∀ word, n.number word = required .notANumber (float word)

variable {float : String → Option ν}

theorem Numbers.Reads.ok_iff (reads : n.Reads float) {word : String} {x : ν} :
    n.number word = .ok x ↔ float word = some x := by
  rw [reads]
  cases float word with
  | none =>
    constructor
    · intro read
      cases read
    · intro read
      cases read
  | some y =>
    constructor
    · intro read
      exact congrArg some (Except.ok.inj read)
    · intro read
      exact congrArg Except.ok (Option.some.inj read)

theorem Numbers.Reads.mapM_ok_iff (reads : n.Reads float) {values : List ν} :
    words.mapM n.number = .ok values ↔ words.map float = values.map some := by
  simp only [Checked.mapM_ok_iff, reads.ok_iff]
  rw [← List.forall₂_eq_eq_eq, List.forall₂_map_left_iff, List.forall₂_map_right_iff]

theorem Numbers.Reads.mapM_eq_refuse_iff (reads : n.Reads float) :
    words.mapM n.number = refuse .notANumber ↔ ∃ word ∈ words, float word = none := by
  constructor
  · intro refused
    by_contra known
    have each : ∀ word ∈ words, ∃ x, n.number word = .ok x := by
      intro word member
      obtain ⟨x, read⟩ := Option.ne_none_iff_exists'.mp fun missing => known ⟨word, member, missing⟩
      exact ⟨x, reads.ok_iff.mpr read⟩
    obtain ⟨values, read⟩ := Checked.mapM_ok_iff_each.mpr each
    rw [refused] at read
    cases read
  · intro ⟨word, member, missing⟩
    have fails : FailsWith (· = .refused .notANumber) (words.mapM n.number) := by
      apply FailsWith.mapM
      intro other _
      rw [reads]
      exact .required (P := (· = .refused .notANumber)) rfl _
    cases ran : words.mapM n.number with
    | error fault => rw [fails fault ran, refuse]
    | ok values =>
      obtain ⟨x, read⟩ := Checked.mapM_ok_iff_each.mp ⟨values, ran⟩ word member
      rw [reads.ok_iff, missing] at read
      cases read

theorem map_eq_refuse_iff {α β : Type} {c : Checked α} {f : α → β} {cause : Refusal} :
    c.map f = refuse cause ↔ c = refuse cause := by
  cases c with
  | error fault =>
    constructor
    · intro refused
      cases refused
      rfl
    · intro refused
      cases refused
      rfl
  | ok a =>
    constructor
    · intro refused
      cases refused
    · intro refused
      cases refused

section

variable {d : Nat} {reverse : Bool}

theorem readPositions_joined (joinable : Joinable c words) (enough : 2 ≤ d) :
    readPositions n (joined c words) (String.singleton c) d reverse
      = (words.mapM n.number).map (grouped d reverse) := by
  rw [readPositions_eq enough, tokens_joined joinable]

theorem exists_positions_of_numbers (reads : n.Reads float) (joinable : Joinable c words) (enough : 2 ≤ d)
    {values : List ν} (known : words.map float = values.map some) : ∃ positions,
      readPositions n (joined c words) (String.singleton c) d reverse = .ok positions
        ∧ positions.length = words.length / d
        ∧ ∀ i < words.length / d,
          positions[i]? = some (oriented reverse ((values.drop (d * i)).take d)) := by
  have count : words.length = values.length := by simpa using congrArg List.length known
  rw [readPositions_joined joinable enough, reads.mapM_ok_iff.mpr known, count]
  refine ⟨grouped d reverse values, rfl, length_grouped d reverse values, ?_⟩
  intro i within
  simp [grouped, within]

theorem readPositions_eq_refuse_iff (reads : n.Reads float) (joinable : Joinable c words)
    (enough : 2 ≤ d) :
    readPositions n (joined c words) (String.singleton c) d reverse = refuse .notANumber
      ↔ ∃ word ∈ words, float word = none := by
  rw [readPositions_joined joinable enough, map_eq_refuse_iff, reads.mapM_eq_refuse_iff]

end

/-- The order of axes is a matter of the words: with the latitude first, a text is converted as the text
with the words of each pair swapped is without. Words that are numbers fill positions from the left. -/
theorem convertWith_latitudeFirst (reads : n.Reads float) (joinable : Joinable c words) :
    convertWith n (joined c words) "gml:point:4326" (String.singleton c)
        = convertWith n (joined c (swapPairs words)) "gml:point" (String.singleton c)
      ∧ convertWith n (joined c words) "gml:polygon:4326" (String.singleton c)
        = convertWith n (joined c (swapPairs words)) "gml:polygon" (String.singleton c)
      ∧ ∀ (d : Nat) (reverse : Bool), 2 ≤ d →
        (∀ values : List ν, words.map float = values.map some → ∃ positions,
          readPositions n (joined c words) (String.singleton c) d reverse = .ok positions
            ∧ positions.length = words.length / d
            ∧ ∀ i < words.length / d,
              positions[i]? = some (oriented reverse ((values.drop (d * i)).take d)))
        ∧ (readPositions n (joined c words) (String.singleton c) d reverse = refuse .notANumber
          ↔ ∃ word ∈ words, float word = none) := by
  refine ⟨?_, ?_, ?_⟩
  · exact convertWith_swapPairs joinable rfl rfl rfl shape_point
  · exact convertWith_swapPairs joinable rfl rfl rfl shape_polygon
  · intro d reverse enough
    constructor
    · intro values known
      exact exists_positions_of_numbers reads joinable enough known
    · exact readPositions_eq_refuse_iff reads joinable enough

theorem doubles_reads : doubles.Reads Decimal.readFloat? := fun _ => rfl

/-- Three words of which the last has no pair. -/
theorem convertWith_latitudeFirst_three : Joinable ' ' ["50.1", "8.6", "7"]
    ∧ convert "50.1 8.6 7" "gml:point:4326" " " = convert "8.6 50.1 7" "gml:point" " "
    ∧ convert "50.1 8.6 7" "gml:polygon:4326" " " = convert "8.6 50.1 7" "gml:polygon" " " := by
  have joinable : Joinable ' ' ["50.1", "8.6", "7"] := by
    constructor
    · decide
    · decide
    · decide
  obtain ⟨points, polygons, -⟩ := convertWith_latitudeFirst doubles_reads joinable
  exact ⟨joinable, points, polygons⟩

end MetadataIndex.Geo
