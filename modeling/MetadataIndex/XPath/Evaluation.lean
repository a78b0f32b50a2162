import MetadataIndex.XPath.Syntax
import MetadataIndex.XPath.Function

/-!
# Evaluating expressions

An expression is evaluated at a place. The value of a step is in document order and holds each
place once; a predicate counts places in the direction of its step. An expression that uses an
unknown mark, name or function, or a value of the wrong kind, has no value.
-/

set_option autoImplicit false

namespace MetadataIndex.XPath

open MetadataIndex.Xml (Cursor Node Name)

/-- What names in an expression stand for. -/
structure Bindings where
  namespaces : List (String × String) := []
  values : List (String × Value) := []

namespace Bindings

def namespace? (b : Bindings) (mark : String) : Option String :=
  if mark == "xml" then some Xml.xmlSpace else lookup? mark b.namespaces

/-- The value of a variable. A variable with a mark has none. -/
def value? (b : Bindings) (mark : Option String) (name : String) : Option Value :=
  match mark with
  | none => lookup? name b.values
  | some _ => none

end Bindings

def Axis.placesFrom (a : Axis) (c : Cursor) : List Cursor :=
  match a with
  | ancestor => c.ancestors
  | ancestorOrSelf => c :: c.ancestors
  | ofAttributes => c.attributes
  | child => c.children
  | descendant => c.descendants
  | descendantOrSelf => c.subtree
  | following => c.following
  | followingSibling => c.siblingsAfter
  | ofNamespaces => c.namespaces
  | parent => c.above?.toList
  | preceding => c.preceding
  | precedingSibling => c.siblingsBefore
  | self => [c]

/-- Whether a name test is about what is at a place: attributes in the direction of attributes,
namespaces in theirs, and elements in all others. -/
def Axis.hasName (a : Axis) (holds : Name → Bool) : Cursor → Bool
  | .inside _ _ (.element name _ _ _) => holds name
  | .ofAttribute _ _ attr => a == .ofAttributes && holds attr.name
  | .ofBinding _ _ mark _ => a == .ofNamespaces && holds { plain := mark }
  | _ => false

/-- The condition that a test puts on places in a direction, if its mark is bound. -/
def NodeTest.condition (b : Bindings) (a : Axis) : NodeTest → Option (Cursor → Bool)
  | anyName => some (a.hasName fun _ => true)
  | anyNameIn mark => (b.namespace? mark).map fun space => a.hasName (·.space == space)
  | name none plain => some (a.hasName fun n => n.space.isEmpty && n.plain == plain)
  | name (some mark) plain =>
    (b.namespace? mark).map fun space => a.hasName fun n => n.space == space && n.plain == plain
  | node => some fun
    | .inside _ _ (.reference _ _) => false
    | _ => true
  | text => some fun
    | .inside _ _ (.text _) => true
    | _ => false
  | comment => some fun
    | .inside _ _ (.comment _) => true
    | _ => false
  | instruction target => some fun
    | .inside _ _ (.instruction t _) => target.all (· == t)
    | _ => false

/-- Keeps the places that satisfy a condition on a place and its position, counted from `i`. -/
def keepWhere (holds : Cursor → Nat → Option Bool) : Nat → List Cursor → Option (List Cursor)
  | _, [] => some []
  | i, c :: more => do
    let kept ← holds c i
    let rest ← keepWhere holds (i + 1) more
    return if kept then c :: rest else rest

/-- Whether a predicate with this value keeps a place at a position. -/
def Value.keeps (position : Nat) : Value → Bool
  | .number x => Float.ofNat position == x
  | v => v.toTruth

def Operator.apply (op : Operator) (a b : Value) : Option Value :=
  match op with
  | either => some (.truth (a.toTruth || b.toTruth))
  | both => some (.truth (a.toTruth && b.toTruth))
  | equal => some (.truth (a.equals false b))
  | unequal => some (.truth (a.equals true b))
  | less => some (.truth (a.compares (· < ·) b))
  | lessOrEqual => some (.truth (a.compares (· ≤ ·) b))
  | greater => some (.truth (a.compares (fun x y => y < x) b))
  | greaterOrEqual => some (.truth (a.compares (fun x y => y ≤ x) b))
  | plus => some (.number (a.toNumber + b.toNumber))
  | minus => some (.number (a.toNumber - b.toNumber))
  | times => some (.number (a.toNumber * b.toNumber))
  | quotient => some (.number (a.toNumber / b.toNumber))
  | modulo => some (.number (Decimal.remainder a.toNumber b.toNumber))
  | union => do return .places (inOrder ((← a.places?) ++ (← b.places?)))

mutual

def Expr.eval (b : Bindings) : Expr → Focus → Option Value
  | .binary .either left right, f => do
    if (← left.eval b f).toTruth then return .truth true
    return .truth (← right.eval b f).toTruth
  | .binary .both left right, f => do
    if (← left.eval b f).toTruth then return .truth (← right.eval b f).toTruth
    return .truth false
  | .binary op left right, f => do
    let left ← left.eval b f
    let right ← right.eval b f
    op.apply left right
  | .negative e, f => do return .number (-(← e.eval b f).toNumber)
  | .numeric e, f => do return .number (← e.eval b f).toNumber
  | .literal s, _ => some (.text s)
  | .number x, _ => some (.number x)
  | .variable mark name, _ => b.value? mark name
  | .call mark name arguments, f => do
    let arguments ← evalAll b arguments f
    match mark with
    | none => callFunction f name arguments
    | some _ => none
  | .root, f => some (.places [f.place.top])
  | .here, f => some (.places [f.place])
  | .step origin axis test predicates, f => do
    let places ← (← origin.eval b f).places?
    let holds ← test.condition b axis
    let found ← places.mapM fun c =>
      keepAll b predicates ((axis.placesFrom c).filter holds)
    return .places (inOrder found.flatten)
  | .filtered e predicate, f => do
    let places ← (← e.eval b f).places?
    return .places (← keepWhere
      (fun c i => (predicate.eval b ⟨c, i, places.length⟩).map (·.keeps i)) 1 places)

def evalAll (b : Bindings) : List Expr → Focus → Option (List Value)
  | [], _ => some []
  | e :: more, f => do
    let v ← e.eval b f
    return v :: (← evalAll b more f)

/-- The places that all predicates keep, each among those that the ones before it keep. -/
def keepAll (b : Bindings) : List Expr → List Cursor → Option (List Cursor)
  | [], places => some places
  | predicate :: more, places => do
    let kept ← keepWhere
      (fun c i => (predicate.eval b ⟨c, i, places.length⟩).map (·.keeps i)) 1 places
    keepAll b more kept

end

end MetadataIndex.XPath
