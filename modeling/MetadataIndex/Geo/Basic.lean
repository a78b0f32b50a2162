import MetadataIndex.Decimal.Numeral
import MetadataIndex.Decimal.Shortest
import MetadataIndex.Json.Printer
import MetadataIndex.Fault
import MetadataIndex.Text.Case
import MetadataIndex.Text.Search

/-!
# Coordinates

A geometry is a point or a ring of positions. How numbers are read and written is a parameter, so
that what is done with them does not depend on their representation.
-/

set_option autoImplicit false

namespace MetadataIndex.Geo

abbrev Position (ν : Type) := List ν

/-- A point or a polygon with one ring. -/
inductive Geometry (ν : Type) where
  | point (position : Position ν)
  | polygon (ring : List (Position ν))
deriving DecidableEq, Repr

namespace Geometry

def positions {ν : Type} : Geometry ν → List (Position ν)
  | point p => [p]
  | polygon ring => ring

end Geometry

/-- How coordinates are read, compared and written. -/
structure Numbers (ν : Type) where
  number : String → Checked ν
  sexagesimal : String → Checked ν
  same : ν → ν → Bool
  text : ν → String
  json : ν → Json

def integerPart (cs : List Char) : Checked Int :=
  required .notANumber (Decimal.readInt? (String.ofList cs))

/-- The degrees of a direction letter, three digits, two digits of minutes and two of seconds. West
and south are negative. -/
def sexagesimalToDecimal (s : String) : Checked Float :=
  let cs := s.toList
  match cs with
  | direction :: digits =>
    if cs.length = 8 then do
      let negative := [['W'], ['S']].contains (Text.upperChar direction)
      let degrees ← integerPart (digits.take 3)
      let minutes ← integerPart ((digits.drop 3).take 2)
      let seconds ← integerPart (digits.drop 5)
      let magnitude :=
        Float.ofInt degrees + Float.ofInt minutes / 60.0 + Float.ofInt seconds / 3600.0
      return magnitude * (if negative then -1.0 else 1.0)
    else refuse (.coordinateLength s)
  | [] => refuse (.coordinateLength s)

def doubles : Numbers Float where
  number s := required .notANumber (Decimal.readFloat? s)
  sexagesimal := sexagesimalToDecimal
  same x y := x == y
  text := Decimal.floatText
  json := .float

/-- The kinds of coordinate texts. -/
inductive Kind where
  | point (latitudeFirst : Bool)
  /-- A ring of positions; with `latitudeFirst` their axes are swapped. -/
  | polygon (latitudeFirst : Bool)
  | mods
  /-- A point or a rectangle in degrees, minutes and seconds. -/
  | sexagesimal
deriving DecidableEq, Repr

def Kind.names : List (String × Kind) :=
  [("gml:point", .point false), ("gml:point:4326", .point true), ("gml:polygon", .polygon false),
    ("gml:polygon:4326", .polygon true), ("mods:coordinates/point", .mods),
    ("sexagesimal:point", .sexagesimal), ("sexagesimal:polygon", .sexagesimal)]

/-- The kind of a name, in letters of either case. -/
def Kind.ofName? (name : String) : Option Kind :=
  lookup? (Text.lower name) Kind.names

/-- The tokens of a coordinate text; blank ones are left out. -/
def tokens (coords separator : String) : List String :=
  ((Text.splitAtLiteral (if separator.isEmpty then " " else separator) (Text.trim coords)).map
    Text.trim).filter (!·.isEmpty)

def swapAxes {ν : Type} : Position ν → Checked (Position ν)
  | x :: y :: more => .ok (y :: x :: more)
  | _ => .error .outOfRange

/-- Groups numbers into positions; those at hand are in `current`. Numbers that fill no position are
dropped. -/
def groupPositions {ν : Type} (n : Numbers ν) (dimensions : Int) (reverse : Bool) :
    List ν → List String → Checked (List (Position ν))
  | _, [] => .ok []
  | current, token :: more => do
    let x ← n.number token
    let current := current ++ [x]
    if (current.length : Int) = dimensions then
      let position ← if reverse then swapAxes current else pure current
      return position :: (← groupPositions n dimensions reverse [] more)
    else groupPositions n dimensions reverse current more

def readPositions {ν : Type} (n : Numbers ν) (coords separator : String) (dimensions : Int)
    (reverse : Bool) : Checked (List (Position ν)) :=
  if coords.isEmpty then .ok []
  else groupPositions n dimensions reverse [] (tokens coords separator)

/-- A point of two tokens, or the closed ring of a rectangle of four: west, east, north, south. A
rectangle without extent is a point. -/
def rectangle {ν : Type} (n : Numbers ν) : List ν → List (Position ν)
  | [x, y] => [[x, y]]
  | [west, east, north, south] =>
    if n.same west east && n.same north south then [[west, north]]
    else [[west, north], [east, north], [east, south], [west, south], [west, north]]
  | _ => []

def readSexagesimal {ν : Type} (n : Numbers ν) (coords separator : String) :
    Checked (List (Position ν)) :=
  if coords.isEmpty then .ok []
  else ((tokens coords separator).mapM n.sexagesimal).map (rectangle n)

def pointOf {ν : Type} (positions : List (Position ν)) : Option (Geometry ν) :=
  positions.head?.map .point

def polygonOf {ν : Type} (positions : List (Position ν)) : Option (Geometry ν) :=
  if positions.isEmpty then none else some (.polygon positions)

def readGeometry {ν : Type} (n : Numbers ν) (coords separator : String) :
    Kind → Checked (Option (Geometry ν))
  | .point latitudeFirst => (readPositions n coords separator 2 latitudeFirst).map pointOf
  | .polygon latitudeFirst => (readPositions n coords separator 2 latitudeFirst).map polygonOf
  | .mods =>
    let count := (tokens coords separator).length
    if count = 2 ∨ count = 3 then (readPositions n coords separator count false).map pointOf
    else refuse (.pointDimensions count)
  | .sexagesimal =>
    (readSexagesimal n coords separator).map fun positions =>
      match positions with
      | [p] => some (.point p)
      | _ => polygonOf positions

/-- The first two coordinates of a position in running text. -/
def positionText {ν : Type} (n : Numbers ν) : Position ν → Checked String
  | x :: y :: _ => .ok (n.text x ++ " " ++ n.text y)
  | _ => .error .outOfRange

/-- Positions as a search text: a point, or a polygon of several. -/
def wkt {ν : Type} (n : Numbers ν) (positions : List (Position ν)) : Checked (Option String) := do
  match positions with
  | [] => return none
  | [p] => return some (← positionText n p)
  | _ => return some ("POLYGON((" ++ ", ".intercalate (← positions.mapM (positionText n)) ++ "))")

def geometryJson {ν : Type} (n : Numbers ν) : Geometry ν → Json
  | .point p => .object [("type", .text "Point"), ("coordinates", .array (p.map n.json))]
  | .polygon ring =>
    .object [("type", .text "Polygon"),
      ("coordinates", .array [.array (ring.map fun p => .array (p.map n.json))])]

/-- A geometry as the text of a collection of one feature. -/
def geoJson {ν : Type} (n : Numbers ν) (g : Geometry ν) : String :=
  let feature : Json :=
    .object [("type", .text "Feature"), ("properties", .object []), ("geometry", geometryJson n g)]
  (Json.object [("type", .text "FeatureCollection"), ("features", .array [feature])]).render

/-- Coordinates for display and for search; both are missing where there are none. -/
structure Converted where
  geojson : Option String := none
  wkt : Option String := none
deriving DecidableEq, Repr

/-- The geometry in a coordinate text of a named kind, if there is one. -/
def geometry? {ν : Type} (n : Numbers ν) (coords kind separator : String) : Option (Geometry ν) :=
  if (Text.trim coords).isEmpty then none
  else
    match Kind.ofName? kind with
    | none => none
    | some kind =>
      match readGeometry n coords separator kind with
      | .ok g => g
      | .error _ => none

def convertWith {ν : Type} (n : Numbers ν) (coords kind separator : String) : Converted :=
  match geometry? n coords kind separator with
  | none => {}
  | some g =>
    match wkt n g.positions with
    | .ok text => ⟨some (geoJson n g), text⟩
    | .error _ => {}

/-- Converts a coordinate text of a named kind to doubles. -/
def convert (coords kind separator : String) : Converted :=
  convertWith doubles coords kind separator

/-- The kind that a coordinate text of an authority record is taken for. -/
def guessKind (coords : String) : String :=
  let count := (Text.splitAtLiteral " " coords).length
  if Text.startsWith coords "E" || Text.startsWith coords "W" then
    if count = 2 then "sexagesimal:point"
    else if count = 4 then "sexagesimal:polygon"
    else "mods:coordinates/point"
  else "mods:coordinates/point"

end MetadataIndex.Geo
