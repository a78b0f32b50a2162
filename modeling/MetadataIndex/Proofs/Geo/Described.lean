import Mathlib.Data.List.Perm.Subperm
import MetadataIndex.Proofs.Decimal.Shortest
import MetadataIndex.Proofs.Geo.Grouping
import MetadataIndex.Proofs.Text.Trimmed

/-!
# One geometry in two forms

A text that is converted has the same positions in both forms. They name the same kind of geometry except
where a ring has one position, and they hold all numbers of the text except where a ring has an odd number
of them.
-/

set_option autoImplicit false

namespace MetadataIndex.Geo

variable {ν : Type} {n : Numbers ν}

def Geometry.IsPolygon (g : Geometry ν) : Prop := ∃ ring, g = .polygon ring

/-- A ring that is given by its positions. -/
def Kind.IsRing : Kind → Prop
  | .polygon _ => True
  | _ => False

/-- A kind has a geometry for this many numbers. -/
def Kind.Takes : Kind → Nat → Prop
  | .point _, count => 2 ≤ count
  | .polygon _, count => 2 ≤ count
  | .mods, count => count = 2 ∨ count = 3
  | .sexagesimal, count => count = 2 ∨ count = 4

/-- No number of a text is missing among the coordinates. A point is the first position of its text, and
a rectangle without extent has one place for two numbers that are the same. -/
def Kind.Covers (n : Numbers ν) : Kind → List ν → List ν → Prop
  | .point _, _, _ => True
  | .polygon _, values, coordinates => values.Subperm coordinates
  | .mods, values, coordinates => values.Subperm coordinates
  | .sexagesimal, values, coordinates => ∀ x ∈ values, ∃ y ∈ coordinates, y = x ∨ n.same y x = true

/-- The first two coordinates of a position in running text. -/
def placeText (n : Numbers ν) : Position ν → String
  | x :: y :: _ => n.text x ++ " " ++ n.text y
  | _ => ""

/-- Places one after another: one alone, or the corners of a polygon. -/
def listed (n : Numbers ν) : List (Position ν) → String
  | [p] => placeText n p
  | positions => "POLYGON((" ++ ", ".intercalate (positions.map (placeText n)) ++ "))"

/-! ## Search texts -/

theorem positionText_of_isPlace {p : Position ν} (place : IsPlace p) :
    positionText n p = .ok (placeText n p) := by
  obtain ⟨x, y, more, rfl⟩ := place
  rfl

theorem wkt_eq {positions : List (Position ν)} (places : ∀ p ∈ positions, IsPlace p)
    (given : positions ≠ []) : wkt n positions = .ok (some (listed n positions)) := by
  match positions, places, given with
  | [p], places, _ =>
    rw [wkt, positionText_of_isPlace (places p (.head _))]
    rfl
  | p :: q :: more, places, _ =>
    have all : (p :: q :: more).mapM (positionText n) = .ok ((p :: q :: more).map (placeText n)) := by
      rw [Checked.mapM_ok_iff_map, List.map_map]
      apply List.map_congr_left
      intro r member
      exact positionText_of_isPlace (places r member)
    unfold wkt
    rw [all]
    rfl

/-- Numbers are written without the letter that begins the name of a polygon. -/
theorem startsWith_listed (written : ∀ x, 'P' ∉ (n.text x).toList) {positions : List (Position ν)}
    (places : ∀ p ∈ positions, IsPlace p) (given : positions ≠ []) :
    Text.startsWith (listed n positions) "POLYGON" = true ↔ 1 < positions.length := by
  rw [Text.startsWith_iff]
  match positions, places, given with
  | [p], places, _ =>
    constructor
    · intro begins
      obtain ⟨x, y, more, rfl⟩ := places p (.head _)
      have letter : 'P' ∈ (n.text x ++ " " ++ n.text y).toList := begins.subset (by decide)
      simp [written] at letter
    · intro several
      exact absurd several (by simp)
  | p :: q :: more, _, _ =>
    constructor
    · intro _
      simp
    · intro _
      rw [listed]
      · rw [String.append_assoc, String.toList_append]
        exact List.IsPrefix.trans (by decide) (List.prefix_append _ _)
      · simp

/-! ## Geometries of numbers -/

theorem isPlace_of_mem_grouped {reverse : Bool} {values : List ν} {p : Position ν}
    (member : p ∈ grouped 2 reverse values) : IsPlace p := by
  apply isPlace_of_length
  obtain ⟨i, within, rfl⟩ := List.mem_map.mp member
  rw [List.mem_range] at within
  rw [(oriented_perm reverse _).length_eq, List.length_take, List.length_drop]
  omega

theorem covers_grouped_iff {reverse : Bool} {values : List ν} :
    values.Subperm (grouped 2 reverse values).flatten ↔ values.length % 2 ≠ 1 := by
  have held := flatten_grouped_perm (by decide : 0 < 2) reverse values
  rw [held.subperm_left]
  constructor
  · intro covered odd
    have count := covered.length_le
    rw [List.length_take] at count
    omega
  · intro even
    rw [List.take_of_length_le (by omega)]

/-- What is known of the geometry of several numbers. -/
structure Shaped (n : Numbers ν) (kind : Kind) (values : List ν) (g : Geometry ν) : Prop where
  places : ∀ p ∈ g.positions, IsPlace p
  given : g.positions ≠ []
  several : (g.IsPolygon ↔ 1 < g.positions.length) ↔ ¬(kind.IsRing ∧ values.length < 4)
  covers : kind.Covers n values g.positions.flatten ↔ ¬(kind.IsRing ∧ values.length % 2 = 1)

theorem not_isPolygon_point (p : Position ν) : ¬(Geometry.point p).IsPolygon := nofun

theorem shaped_point {kind : Kind} {values : List ν} {p : Position ν} (other : ¬kind.IsRing)
    (place : IsPlace p) (covers : kind.Covers n values p) : Shaped n kind values (.point p) := by
  constructor
  · intro q member
    rw [List.mem_singleton.mp member]
    exact place
  · exact List.cons_ne_nil _ _
  · simp [other, not_isPolygon_point, Geometry.positions]
  · simpa [other, Geometry.positions] using covers

theorem shaped_ring {latitudeFirst : Bool} {values : List ν}
    (given : grouped 2 latitudeFirst values ≠ []) :
    Shaped n (.polygon latitudeFirst) values (.polygon (grouped 2 latitudeFirst values)) := by
  have ring : (Kind.polygon latitudeFirst).IsRing := trivial
  have polygon : (Geometry.polygon (grouped 2 latitudeFirst values)).IsPolygon := ⟨_, rfl⟩
  constructor
  · intro p member
    exact isPlace_of_mem_grouped member
  · exact given
  · simp only [ring, polygon, true_iff, true_and, Geometry.positions, length_grouped]
    omega
  · simp only [ring, true_and, Kind.Covers, Geometry.positions]
    exact covers_grouped_iff

theorem rectangle_ne_nil_iff {values : List ν} :
    rectangle n values ≠ [] ↔ Kind.sexagesimal.Takes values.length := by
  unfold rectangle Kind.Takes
  split
  · simp
  · split
    · simp
    · simp
  · next other other' =>
    match values, other, other' with
    | [], _, _ => simp
    | [_], _, _ => simp
    | [x, y], other, _ => exact absurd rfl (other x y)
    | [_, _, _], _, _ => simp
    | [west, east, north, south], _, other' => exact absurd rfl (other' west east north south)
    | _ :: _ :: _ :: _ :: _ :: more, _, _ => simp

theorem covers_rectangle {values : List ν} (given : rectangle n values ≠ []) :
    Kind.sexagesimal.Covers n values (rectangle n values).flatten := by
  revert given
  unfold rectangle
  split
  · intro _ x member
    exact ⟨x, member, .inl rfl⟩
  · split
    · next same =>
      rw [Bool.and_eq_true] at same
      simp [Kind.Covers, same.1, same.2]
    · simp [Kind.Covers]
  · intro given
    exact absurd rfl given

theorem shaped_pointOrPolygon {values : List ν} {g : Geometry ν}
    (made : pointOrPolygon (rectangle n values) = some g) : Shaped n .sexagesimal values g := by
  have other : ¬Kind.sexagesimal.IsRing := not_false
  have places := rectangle_isPlace (n := n) values
  have covers (given : rectangle n values ≠ []) := covers_rectangle given
  generalize rectangle n values = positions at made places covers
  match positions, made with
  | [p], made =>
    cases made
    exact shaped_point other (places p (.head _)) (by simpa using covers (List.cons_ne_nil _ _))
  | p :: q :: more, made =>
    cases made
    have polygon : (Geometry.polygon (p :: q :: more)).IsPolygon := ⟨_, rfl⟩
    constructor
    · exact places
    · exact List.cons_ne_nil _ _
    · simp [other, polygon, Geometry.positions]
    · simpa [other, Geometry.positions] using covers

theorem shaped_of_shape {kind : Kind} {values : List ν} {g : Geometry ν}
    (made : kind.shape n values = some g) : Shaped n kind values g := by
  cases kind with
  | point latitudeFirst =>
    obtain ⟨p, first, rfl⟩ := Option.map_eq_some_iff.mp made
    exact shaped_point not_false (isPlace_of_mem_grouped (List.mem_of_head? first)) trivial
  | polygon latitudeFirst =>
    rw [Kind.shape, polygonOf] at made
    split at made
    · cases made
    · next given =>
      cases made
      exact shaped_ring (by simpa using given)
  | mods =>
    rw [Kind.shape] at made
    split at made
    · next count =>
      cases made
      exact shaped_point not_false (isPlace_of_length (by omega)) (List.Subperm.refl _)
    · cases made
  | sexagesimal => exact shaped_pointOrPolygon made

theorem exists_pointOf_iff {positions : List (Position ν)} :
    (∃ g, pointOf positions = some g) ↔ positions ≠ [] := by
  cases positions with
  | nil => simp [pointOf]
  | cons p more => simp [pointOf]

theorem exists_polygonOf_iff {positions : List (Position ν)} :
    (∃ g, polygonOf positions = some g) ↔ positions ≠ [] := by
  cases positions with
  | nil => simp [polygonOf]
  | cons p more => simp [polygonOf]

theorem exists_pointOrPolygon_iff {positions : List (Position ν)} :
    (∃ g, pointOrPolygon positions = some g) ↔ positions ≠ [] := by
  match positions with
  | [] => simp [pointOrPolygon, polygonOf]
  | [p] => simp [pointOrPolygon]
  | p :: q :: more => simp [pointOrPolygon, polygonOf]

theorem grouped_ne_nil_iff {reverse : Bool} {values : List ν} :
    grouped 2 reverse values ≠ [] ↔ 2 ≤ values.length := by
  rw [← List.length_pos_iff, length_grouped]
  omega

theorem exists_shape_iff {kind : Kind} {values : List ν} :
    (∃ g, kind.shape n values = some g) ↔ kind.Takes values.length := by
  cases kind with
  | point latitudeFirst => exact exists_pointOf_iff.trans grouped_ne_nil_iff
  | polygon latitudeFirst => exact exists_polygonOf_iff.trans grouped_ne_nil_iff
  | mods =>
    rw [Kind.shape, Kind.Takes]
    split
    · next count => simp [count]
    · next count => simp [count]
  | sexagesimal =>
    rw [Kind.shape, ← rectangle_ne_nil_iff (n := n)]
    exact exists_pointOrPolygon_iff

/-! ## Converted texts -/

variable {coords name separator : String} {kind : Kind} {g : Geometry ν}

theorem exists_geometry_iff (known : Kind.ofName? name = some kind) :
    (∃ g, geometry? n coords name separator = some g)
      ↔ ∃ values, (tokens coords separator).mapM (kind.read n) = .ok values
        ∧ kind.Takes values.length := by
  simp only [found_geometry_iff known, ← exists_shape_iff (n := n)]
  constructor
  · intro ⟨g, values, read, made⟩
    exact ⟨values, read, g, made⟩
  · intro ⟨values, read, g, made⟩
    exact ⟨g, values, read, made⟩

theorem convertWith_of_geometry (found : geometry? n coords name separator = some g)
    (places : ∀ p ∈ g.positions, IsPlace p) (given : g.positions ≠ []) :
    convertWith n coords name separator = ⟨some (geoJson n g), some (listed n g.positions)⟩ := by
  rw [convertWith, found]
  dsimp only
  rw [wkt_eq places given]

theorem exists_geometry_of_wkt {text : String}
    (converted : (convertWith n coords name separator).wkt = some text) :
    ∃ g, geometry? n coords name separator = some g
      ∧ convertWith n coords name separator = ⟨some (geoJson n g), some text⟩ := by
  unfold convertWith at converted ⊢
  split at converted
  · cases converted
  · next g found =>
    split at converted
    · cases converted
      exact ⟨g, found, rfl⟩
    · cases converted

/-- A text has both forms or neither, and both list the same positions. They name the same kind of geometry
unless a ring has one position, and no number is missing unless a ring has an odd number of them. -/
theorem convertWith_described (written : ∀ x, 'P' ∉ (n.text x).toList)
    (known : Kind.ofName? name = some kind) :
    ((∃ g, geometry? n coords name separator = some g)
        ↔ ∃ values, (tokens coords separator).mapM (kind.read n) = .ok values
          ∧ kind.Takes values.length)
      ∧ (convertWith n coords name separator = {} ∨ ∃ g, geometry? n coords name separator = some g)
      ∧ ∀ g, geometry? n coords name separator = some g → ∃ values text,
        (tokens coords separator).mapM (kind.read n) = .ok values
          ∧ convertWith n coords name separator = ⟨some (geoJson n g), some text⟩
          ∧ text = listed n g.positions ∧ (∀ p ∈ g.positions, IsPlace p)
          ∧ ((g.IsPolygon ↔ Text.startsWith text "POLYGON" = true)
            ↔ ¬(kind.IsRing ∧ values.length < 4))
          ∧ (kind.Covers n values g.positions.flatten ↔ ¬(kind.IsRing ∧ values.length % 2 = 1)) := by
  refine ⟨exists_geometry_iff known, ?_, ?_⟩
  · unfold convertWith
    cases geometry? n coords name separator with
    | none => exact .inl rfl
    | some g => exact .inr ⟨g, rfl⟩
  · intro g found
    obtain ⟨values, read, made⟩ := (found_geometry_iff known).mp found
    have shaped := shaped_of_shape made
    refine ⟨values, listed n g.positions, read, ?_, rfl, shaped.places, ?_, shaped.covers⟩
    · exact convertWith_of_geometry found shaped.places shaped.given
    · rw [startsWith_listed written shaped.places shaped.given]
      exact shaped.several

theorem doubles_written (x : Float) : 'P' ∉ (doubles.text x).toList := by
  intro member
  have mark := Decimal.floatMarks_floatText x 'P' member
  revert mark
  decide

/-- A closed ring. -/
theorem convertWith_described_ring : Kind.ofName? "gml:polygon" = some (.polygon false)
    ∧ ∃ g values, geometry? doubles "0 0 0 1 1 1 0 0" "gml:polygon" " " = some g
      ∧ (tokens "0 0 0 1 1 1 0 0" " ").mapM doubles.number = .ok values
      ∧ (g.IsPolygon ↔ Text.startsWith (listed doubles g.positions) "POLYGON" = true)
      ∧ (Kind.polygon false).Covers doubles values g.positions.flatten := by
  have text : (convert "0 0 0 1 1 1 0 0" "gml:polygon" " ").wkt
      = some "POLYGON((0.0 0.0, 0.0 1.0, 1.0 1.0, 0.0 0.0))" := by decide +kernel
  obtain ⟨g, found, -⟩ := exists_geometry_of_wkt text
  have known : Kind.ofName? "gml:polygon" = some (.polygon false) := by decide +kernel
  obtain ⟨-, -, described⟩ := convertWith_described doubles_written known
  obtain ⟨values, text, read, -, rfl, -, named, covers⟩ := described g found
  have eight : (tokens "0 0 0 1 1 1 0 0" " ").length = 8 := by decide +kernel
  have count : values.length = 8 := (Checked.mapM_ok_iff.mp read).length_eq.symm.trans eight
  refine ⟨known, g, values, found, read, named.mpr ?_, covers.mpr ?_⟩
  · omega
  · omega

theorem isPolygon_of_ring {latitudeFirst : Bool} {values : List ν}
    (made : (Kind.polygon latitudeFirst).shape n values = some g) : g.IsPolygon := by
  rw [Kind.shape, polygonOf] at made
  split at made
  · cases made
  · cases made
    exact ⟨_, rfl⟩

/-- A number without another is left out, and a ring of one position is written as a point. -/
theorem not_described_ring :
    (∃ g values, geometry? doubles "1 2 3 4 5" "gml:polygon" " " = some g
        ∧ (tokens "1 2 3 4 5" " ").mapM doubles.number = .ok values
        ∧ ¬(Kind.polygon false).Covers doubles values g.positions.flatten
        ∧ convert "1 2 3 4 5" "gml:polygon" " "
          = ⟨some (geoJson doubles g), some "POLYGON((1.0 2.0, 3.0 4.0))"⟩)
      ∧ ∃ g, geometry? doubles "1 2" "gml:polygon" " " = some g ∧ g.IsPolygon
        ∧ convert "1 2" "gml:polygon" " " = ⟨some (geoJson doubles g), some "1.0 2.0"⟩
        ∧ Text.startsWith "1.0 2.0" "POLYGON" = false := by
  have known : Kind.ofName? "gml:polygon" = some (.polygon false) := by decide +kernel
  constructor
  · have text : (convert "1 2 3 4 5" "gml:polygon" " ").wkt = some "POLYGON((1.0 2.0, 3.0 4.0))" := by
      decide +kernel
    obtain ⟨g, found, converted⟩ := exists_geometry_of_wkt text
    obtain ⟨values, read, made⟩ := (found_geometry_iff known).mp found
    have five : (tokens "1 2 3 4 5" " ").length = 5 := by decide +kernel
    have count : values.length = 5 := (Checked.mapM_ok_iff.mp read).length_eq.symm.trans five
    refine ⟨g, values, found, read, ?_, converted⟩
    rw [(shaped_of_shape made).covers, not_not]
    exact ⟨trivial, by omega⟩
  · have text : (convert "1 2" "gml:polygon" " ").wkt = some "1.0 2.0" := by decide +kernel
    obtain ⟨g, found, converted⟩ := exists_geometry_of_wkt text
    obtain ⟨values, -, made⟩ := (found_geometry_iff known).mp found
    exact ⟨g, found, isPolygon_of_ring made, converted, by decide +kernel⟩

end MetadataIndex.Geo
