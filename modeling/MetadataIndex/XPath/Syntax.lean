/-!
# Expressions

The expressions that select parts of a document. A path is a step from the places another
expression gives; predicates keep some of the places of a step.
-/

set_option autoImplicit false

namespace MetadataIndex.XPath

/-- The direction of a step. -/
inductive Axis where
  | ancestor
  | ancestorOrSelf
  | ofAttributes
  | child
  | descendant
  | descendantOrSelf
  | following
  | followingSibling
  | ofNamespaces
  | parent
  | preceding
  | precedingSibling
  | self
deriving DecidableEq, Repr

def Axis.names : List (String × Axis) :=
  [("ancestor", .ancestor), ("ancestor-or-self", .ancestorOrSelf), ("attribute", .ofAttributes),
    ("child", .child), ("descendant", .descendant), ("descendant-or-self", .descendantOrSelf),
    ("following", .following), ("following-sibling", .followingSibling),
    ("namespace", .ofNamespaces), ("parent", .parent), ("preceding", .preceding),
    ("preceding-sibling", .precedingSibling), ("self", .self)]

/-- What a step asks of a place. -/
inductive NodeTest where
  | anyName
  | anyNameIn (mark : String)
  | name (mark : Option String) (plain : String)
  | node
  | text
  | comment
  | instruction (target : Option String)
deriving DecidableEq, Repr

/-- An operation on two values. -/
inductive Operator where
  | either
  | both
  | equal
  | unequal
  | less
  | lessOrEqual
  | greater
  | greaterOrEqual
  | plus
  | minus
  | times
  | quotient
  | modulo
  | union
deriving DecidableEq, Repr

/-- An expression. -/
inductive Expr where
  | binary (op : Operator) (left right : Expr)
  | negative (e : Expr)
  | numeric (e : Expr)
  | literal (s : String)
  | number (x : Float)
  | variable (mark : Option String) (name : String)
  | call (mark : Option String) (name : String) (arguments : List Expr)
  | root
  | here
  | step (origin : Expr) (axis : Axis) (test : NodeTest) (predicates : List Expr)
  | filtered (e predicate : Expr)

end MetadataIndex.XPath
