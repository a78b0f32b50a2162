import Mathlib.Data.List.Perm.Basic
import MetadataIndex.Proofs.Geo.Refusals

/-!
# Numbers in groups

Numbers are grouped from the left; what is left over at the end fills no position. A text has the geometry
that its kind makes of the numbers that its tokens are read as, if all of them are read.
-/

set_option autoImplicit false

namespace MetadataIndex.Geo

variable {ν : Type}

/-- The first two of several values swapped. -/
def swapFirst {α : Type} : List α → List α
  | x :: y :: more => y :: x :: more
  | values => values

/-- The axes of a position in the order in which they are kept. -/
def oriented (reverse : Bool) (p : Position ν) : Position ν := if reverse then swapFirst p else p

/-- The positions that values give, `d` of them for each. -/
def grouped (d : Nat) (reverse : Bool) (values : List ν) : List (Position ν) :=
  (List.range (values.length / d)).map fun i => oriented reverse ((values.drop (d * i)).take d)

variable {n : Numbers ν} {d : Nat} {reverse : Bool}

theorem swapFirst_perm {α : Type} (values : List α) : (swapFirst values).Perm values := by
  unfold swapFirst
  split
  · exact .swap _ _ _
  · exact .refl _

theorem oriented_perm (reverse : Bool) (p : Position ν) : (oriented reverse p).Perm p := by
  unfold oriented
  split
  · exact swapFirst_perm p
  · exact .refl _

@[simp] theorem length_grouped (d : Nat) (reverse : Bool) (values : List ν) :
    (grouped d reverse values).length = values.length / d := by
  simp [grouped]

theorem grouped_of_length_lt {values : List ν} (short : values.length < d) :
    grouped d reverse values = [] := by
  simp [grouped, Nat.div_eq_of_lt short]

theorem grouped_append {first : List ν} (positive : 0 < d) (full : first.length = d) (reverse : Bool)
    (rest : List ν) : grouped d reverse (first ++ rest) = oriented reverse first :: grouped d reverse rest := by
  have count : (first ++ rest).length / d = rest.length / d + 1 := by
    rw [List.length_append, full, Nat.add_div_left _ positive]
  unfold grouped
  rw [count, List.range_succ_eq_map, List.map_cons, List.map_map, Nat.mul_zero, List.drop_zero,
    List.take_left' full]
  congr 1
  apply List.map_congr_left
  intro i _
  have later : d * (i + 1) = first.length + d * i := by
    rw [Nat.mul_add, Nat.mul_one, full, Nat.add_comm]
  rw [Function.comp_apply, Nat.succ_eq_add_one, later, ← List.drop_drop, List.drop_left]

theorem grouped_pair (reverse : Bool) (x y : ν) (more : List ν) :
    grouped 2 reverse (x :: y :: more) = oriented reverse [x, y] :: grouped 2 reverse more := by
  have full : [x, y].length = 2 := rfl
  exact grouped_append (by decide) full reverse more

theorem grouped_self {values : List ν} (positive : 0 < d) (full : values.length = d) :
    grouped d reverse values = [oriented reverse values] := by
  have alone := grouped_append positive full reverse []
  have none : ([] : List ν).length < d := by rwa [List.length_nil]
  rwa [List.append_nil, grouped_of_length_lt none] at alone

/-- The positions hold the values in groups, without those left over at the end. -/
theorem flatten_grouped_perm (positive : 0 < d) (reverse : Bool) (values : List ν) :
    (grouped d reverse values).flatten.Perm (values.take (d * (values.length / d))) := by
  by_cases short : values.length < d
  · rw [grouped_of_length_lt short, Nat.div_eq_of_lt short]
    exact .refl _
  · have full : (values.take d).length = d := by simp; omega
    have count : values.length / d = (values.drop d).length / d + 1 := by
      rw [List.length_drop, ← Nat.add_div_right _ positive, Nat.sub_add_cancel (by omega)]
    have split := grouped_append positive full reverse (values.drop d)
    rw [List.take_append_drop] at split
    have rest := flatten_grouped_perm positive reverse (values.drop d)
    rw [split, List.flatten_cons, count, Nat.mul_add, Nat.mul_one, Nat.add_comm, List.take_add]
    exact (oriented_perm reverse _).append rest
termination_by values.length
decreasing_by
  rw [List.length_drop]
  omega

section

variable {current : List ν} {text : String} {texts : List String} {x : ν}

theorem groupPositions_of_full (enough : 2 ≤ d) (read : n.number text = .ok x)
    (full : (current ++ [x]).length = d) : groupPositions n d reverse current (text :: texts)
      = (groupPositions n d reverse [] texts).map (oriented reverse (current ++ [x]) :: ·) := by
  obtain ⟨y, z, more, same⟩ := isPlace_of_length (p := current ++ [x]) (by omega)
  have complete : ((current ++ [x]).length : Int) = d := by omega
  rw [groupPositions, read]
  change (if ((current ++ [x]).length : Int) = d then _ else _) = _
  rw [if_pos complete, same]
  cases reverse with
  | true => rfl
  | false => rfl

theorem groupPositions_of_short (read : n.number text = .ok x) (short : (current ++ [x]).length < d) :
    groupPositions n d reverse current (text :: texts)
      = groupPositions n d reverse (current ++ [x]) texts := by
  have incomplete : ((current ++ [x]).length : Int) ≠ d := by omega
  rw [groupPositions, read]
  change (if ((current ++ [x]).length : Int) = d then _ else _) = _
  rw [if_neg incomplete]

/-- Reading in groups gives the groups of all numbers, or fails with the first that is not read. -/
theorem groupPositions_eq (enough : 2 ≤ d) (short : current.length < d) (texts : List String) :
    groupPositions n d reverse current texts
      = (texts.mapM n.number).map fun values => grouped d reverse (current ++ values) := by
  induction texts generalizing current with
  | nil =>
    rw [List.mapM_nil]
    change _ = Except.ok (grouped d reverse (current ++ []))
    rw [List.append_nil, grouped_of_length_lt short]
    rfl
  | cons text texts ih =>
    cases read : n.number text with
    | error fault =>
      rw [groupPositions, List.mapM_cons, read]
      rfl
    | ok x =>
      rw [List.mapM_cons, read]
      by_cases full : (current ++ [x]).length = d
      · have none : ([] : List ν).length < d := by
          rw [List.length_nil]
          omega
        rw [groupPositions_of_full enough read full, ih none]
        cases texts.mapM n.number with
        | error fault => rfl
        | ok values =>
          change Except.ok (oriented reverse (current ++ [x]) :: grouped d reverse values)
            = Except.ok (grouped d reverse (current ++ x :: values))
          rw [List.append_cons current x values, grouped_append (by omega) full]
      · have length : (current ++ [x]).length = current.length + 1 := by simp
        have short : (current ++ [x]).length < d := by omega
        rw [groupPositions_of_short read short, ih short]
        cases texts.mapM n.number with
        | error fault => rfl
        | ok values =>
          change Except.ok (grouped d reverse (current ++ [x] ++ values))
            = Except.ok (grouped d reverse (current ++ x :: values))
          rw [List.append_assoc, List.singleton_append]

end

theorem tokens_of_blank {coords : String} (blank : (Text.trim coords).isEmpty) (separator : String) :
    tokens coords separator = [] := by
  rw [tokens, String.isEmpty_iff.mp blank]
  simp [Text.trim, Text.strip, Text.dropTrailing, Text.splitAtLiteral, Text.pieces]

theorem tokens_empty (separator : String) : tokens "" separator = [] :=
  tokens_of_blank (by decide) separator

theorem readPositions_eq (enough : 2 ≤ d) (coords separator : String) :
    readPositions n coords separator d reverse
      = ((tokens coords separator).mapM n.number).map (grouped d reverse) := by
  unfold readPositions
  split
  case isTrue empty =>
    rw [String.isEmpty_iff.mp empty, tokens_empty, List.mapM_nil]
    change _ = Except.ok (grouped d reverse [])
    rw [grouped_of_length_lt (by simp; omega)]
  case isFalse => exact groupPositions_eq enough (by simp; omega) _

theorem readPairs_eq (coords separator : String) :
    readPositions n coords separator 2 reverse
      = ((tokens coords separator).mapM n.number).map (grouped 2 reverse) :=
  readPositions_eq (Nat.le_refl 2) coords separator

/-- How a kind of coordinate text has its tokens read. -/
def Kind.read (n : Numbers ν) : Kind → String → Checked ν
  | .sexagesimal => n.sexagesimal
  | _ => n.number

/-- A point where there is one position, a polygon where there are several. -/
def pointOrPolygon (positions : List (Position ν)) : Option (Geometry ν) :=
  match positions with
  | [p] => some (.point p)
  | _ => polygonOf positions

/-- The geometry that a kind makes of the numbers of a text. -/
def Kind.shape (n : Numbers ν) : Kind → List ν → Option (Geometry ν)
  | .point latitudeFirst, values => pointOf (grouped 2 latitudeFirst values)
  | .polygon latitudeFirst, values => polygonOf (grouped 2 latitudeFirst values)
  | .mods, values =>
    if values.length = 2 ∨ values.length = 3 then some (.point values) else none
  | .sexagesimal, values => pointOrPolygon (rectangle n values)

theorem Kind.shape_nil (kind : Kind) : kind.shape n [] = none := by
  cases kind with
  | point latitudeFirst =>
    rw [Kind.shape, grouped_of_length_lt (by simp)]
    rfl
  | polygon latitudeFirst =>
    rw [Kind.shape, grouped_of_length_lt (by simp)]
    rfl
  | mods => rfl
  | sexagesimal => rfl

theorem readSexagesimal_eq (coords separator : String) :
    readSexagesimal n coords separator
      = ((tokens coords separator).mapM n.sexagesimal).map (rectangle n) := by
  unfold readSexagesimal
  split
  case isTrue empty =>
    rw [String.isEmpty_iff.mp empty, tokens_empty, List.mapM_nil]
    rfl
  case isFalse => rfl

theorem map_map_ok_iff {α β γ : Type} {c : Checked α} {f : α → β} {make : β → Option γ} {g : γ} :
    (c.map f).map make = .ok (some g) ↔ ∃ a, c = .ok a ∧ make (f a) = some g := by
  cases c with
  | error fault =>
    constructor
    · intro made
      cases made
    · intro ⟨a, read, _⟩
      cases read
  | ok a =>
    constructor
    · intro made
      exact ⟨a, rfl, Except.ok.inj made⟩
    · intro ⟨a', read, made⟩
      cases read
      exact congrArg Except.ok made

/-- A geometry is read exactly when all tokens are, and the kind makes it of their numbers. -/
theorem readGeometry_eq_ok_iff {coords separator : String} {kind : Kind} {g : Geometry ν} :
    readGeometry n coords separator kind = .ok (some g)
      ↔ ∃ values, (tokens coords separator).mapM (kind.read n) = .ok values
        ∧ kind.shape n values = some g := by
  cases kind with
  | point latitudeFirst =>
    rw [readGeometry, readPairs_eq]
    exact map_map_ok_iff
  | polygon latitudeFirst =>
    rw [readGeometry, readPairs_eq]
    exact map_map_ok_iff
  | mods =>
    have count {values : List ν} (read : (tokens coords separator).mapM n.number = .ok values) :
        values.length = (tokens coords separator).length :=
      (Checked.mapM_ok_iff.mp read).length_eq.symm
    unfold readGeometry
    dsimp only
    split
    case isTrue full =>
      rw [readPositions_eq (by omega), map_map_ok_iff]
      apply exists_congr
      intro values
      apply and_congr_right
      intro read
      rw [← count read] at full ⊢
      rw [grouped_self (by omega) rfl, Kind.shape, if_pos full]
      rfl
    case isFalse other =>
      constructor
      · intro made
        cases made
      · intro ⟨values, read, made⟩
        rw [Kind.shape, count read, if_neg other] at made
        cases made
  | sexagesimal =>
    rw [readGeometry, readSexagesimal_eq]
    exact map_map_ok_iff

theorem found_geometry_iff {coords name separator : String} {kind : Kind} {g : Geometry ν}
    (known : Kind.ofName? name = some kind) : geometry? n coords name separator = some g
      ↔ ∃ values, (tokens coords separator).mapM (kind.read n) = .ok values
        ∧ kind.shape n values = some g := by
  unfold geometry?
  by_cases blank : (Text.trim coords).isEmpty
  · rw [if_pos blank, tokens_of_blank blank, List.mapM_nil]
    constructor
    · intro made
      cases made
    · intro ⟨values, read, made⟩
      cases read
      rw [kind.shape_nil] at made
      cases made
  rw [if_neg blank, known, ← readGeometry_eq_ok_iff]
  dsimp only
  cases readGeometry n coords separator kind with
  | error fault =>
    constructor
    · intro made
      cases made
    · intro made
      cases made
  | ok g =>
    constructor
    · intro made
      exact congrArg Except.ok made
    · intro made
      exact Except.ok.inj made

end MetadataIndex.Geo
