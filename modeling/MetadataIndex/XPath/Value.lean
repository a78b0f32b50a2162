import MetadataIndex.Xml.Cursor
import MetadataIndex.XPath.Number

/-!
# Values of expressions

A value is a set of places in document order, a number, a text or a truth value. Each is taken as
any of the last three by a fixed rule; comparison with a set of places asks for one place.
-/

set_option autoImplicit false

namespace MetadataIndex.XPath

open MetadataIndex.Xml (Cursor)

/-- The value of an expression. -/
inductive Value where
  | places (l : List Cursor)
  | number (x : Float)
  | text (s : String)
  | truth (b : Bool)

namespace Value

/-- The value as a text; of places, that of the first. -/
def toText : Value → String
  | places l => (l.head?.map (·.fullText)).getD ""
  | number x => numberText x
  | text s => s
  | truth b => if b then "true" else "false"

def toNumber : Value → Float
  | places l => readNumber ((l.head?.map (·.fullText)).getD "")
  | number x => x
  | text s => readNumber s
  | truth b => if b then 1.0 else 0.0

def toTruth : Value → Bool
  | places l => !l.isEmpty
  | number x => !(x == 0.0) && !x.isNaN
  | text s => !s.isEmpty
  | truth b => b

/-- The places of a value that is a set of places. -/
def places? : Value → Option (List Cursor)
  | places l => some l
  | _ => none

/-- Whether the two values that are no sets of places are equal: as truth values if either is one,
else as numbers if either is one, else as texts. -/
def equalPlain (negated : Bool) (a b : Value) : Bool :=
  match a, b with
  | truth _, _ | _, truth _ => (a.toTruth == b.toTruth) != negated
  | number _, _ | _, number _ => (a.toNumber == b.toNumber) != negated
  | _, _ => (a.toText == b.toText) != negated

def equals (negated : Bool) (a b : Value) : Bool :=
  match a, b with
  | places l, places r =>
    let right := r.map (·.fullText)
    l.any fun c => right.any fun s => (c.fullText == s) != negated
  | places _, truth _ | truth _, places _ => (a.toTruth == b.toTruth) != negated
  | places l, _ => l.any fun c => equalPlain negated (text c.fullText) b
  | _, places r => r.any fun c => equalPlain negated a (text c.fullText)
  | _, _ => equalPlain negated a b

def compares (holds : Float → Float → Bool) (a b : Value) : Bool :=
  match a, b with
  | places l, places r =>
    let right := r.map fun c => readNumber c.fullText
    l.any fun c => right.any fun y => holds (readNumber c.fullText) y
  | places _, truth _ | truth _, places _ =>
    holds (truth a.toTruth).toNumber (truth b.toTruth).toNumber
  | places l, _ => l.any fun c => holds (readNumber c.fullText) b.toNumber
  | _, places r => r.any fun c => holds a.toNumber (readNumber c.fullText)
  | _, _ => holds a.toNumber b.toNumber

end Value

def comesBefore : List (Nat × Nat) → List (Nat × Nat) → Bool
  | [], _ :: _ => true
  | _, [] => false
  | (kind, index) :: p, (kind', index') :: q =>
    if kind != kind' then kind < kind'
    else if index != index' then index < index'
    else comesBefore p q

def areInOrder : List (List (Nat × Nat) × Cursor) → Bool
  | [] => true
  | [_] => true
  | (p, _) :: (q, c) :: more => comesBefore p q && areInOrder ((q, c) :: more)

def dropRepeated : List (List (Nat × Nat) × Cursor) → List Cursor
  | [] => []
  | [(_, c)] => [c]
  | (p, c) :: (q, c') :: more =>
    if p == q then dropRepeated ((q, c') :: more) else c :: dropRepeated ((q, c') :: more)

def inOrder (l : List Cursor) : List Cursor :=
  let keyed := l.map fun c => (c.position, c)
  if areInOrder keyed then l
  else dropRepeated (keyed.mergeSort fun a b => !comesBefore b.1 a.1)

end MetadataIndex.XPath
