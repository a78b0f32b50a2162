import MetadataIndex.XPath.Syntax
import MetadataIndex.XPath.Number
import MetadataIndex.Xml.Character

/-!
# Reading expressions

Operations bind in six levels below signs and unions. Whether a name begins a function call or a
path is decided by what follows it. The arguments of a call may end with the text.
-/

set_option autoImplicit false

namespace MetadataIndex.XPath

open MetadataIndex.Xml (takePlainName isPlainNameStart isNameStart isNameChar expect)

/-- The operations of each level, those that begin alike with the longer first. -/
def operatorLevels : List (List (String × Operator)) :=
  [[("or", .either)], [("and", .both)], [("=", .equal), ("!=", .unequal)],
    [("<=", .lessOrEqual), ("<", .less), (">=", .greaterOrEqual), (">", .greater)],
    [("+", .plus), ("-", .minus)], [("*", .times), ("div", .quotient), ("mod", .modulo)]]

/-- The operation of a level at the front of a text, and what follows. -/
def takeOperator (level : Nat) (cs : List Char) : Option (Operator × List Char) :=
  (operatorLevels.getD level []).findSome? fun (word, op) => (expect word cs).map (op, ·)

/-- The step to everything below a place and the place itself. -/
def throughDescendants (origin : Expr) : Expr :=
  .step origin .descendantOrSelf .node []

def takeMarkedName (cs : List Char) : Option ((Option String × String) × List Char) := do
  let (first, rest) ← takePlainName cs
  match rest with
  | ':' :: rest => do
    let (second, rest) ← takePlainName rest
    return ((some first, second), rest)
  | _ => return ((none, first), rest)

def takeLiteral (cs : List Char) : Option (String × List Char) :=
  (Xml.takeQuoted cs).map fun (text, rest) => (String.ofList text, rest)

/-- The names of the tests that are written with brackets. -/
def typeTestNames : List String :=
  ["comment", "node", "processing-instruction", "text"]

/-- The rest of a test with brackets, after the opening bracket. -/
def takeTypeTest (name : String) (cs : List Char) : Option (NodeTest × List Char) := do
  let cs := skipBlanks cs
  let (test, rest) ← match name with
    | "comment" => some (NodeTest.comment, cs)
    | "node" => some (.node, cs)
    | "text" => some (.text, cs)
    | "processing-instruction" =>
      match cs with
      | ')' :: _ => some (.instruction none, cs)
      | _ => do
        let (target, rest) ← takeLiteral cs
        some (.instruction (some target), skipBlanks rest)
    | _ => none
  return (test, ← expect ")" rest)

/-- The test of a step; `name` is a name that was read already. -/
def takeTest (name : Option String) (cs : List Char) : Option (NodeTest × List Char) := do
  let cs := skipBlanks cs
  match name, cs with
  | none, '*' :: rest => return (.anyName, rest)
  | _, _ =>
    let (name, rest) ← match name with
      | some name => some (name, cs)
      | none => takePlainName cs
    match skipBlanks rest with
    | '(' :: inner => takeTypeTest name inner
    | after =>
      match rest with
      | ':' :: '*' :: rest => return (.anyNameIn name, rest)
      | ':' :: rest =>
        let (plain, rest) ← takePlainName rest
        return (.name (some name) plain, rest)
      | _ => return (.name none name, after)

def takeAxisAndTest (cs : List Char) : Option ((Axis × NodeTest) × List Char) := do
  let withAxis (axis : Axis) (name : Option String) (cs : List Char) :
      Option ((Axis × NodeTest) × List Char) := do
    let (test, rest) ← takeTest name cs
    return ((axis, test), rest)
  match cs with
  | '*' :: _ => withAxis .child none cs
  | _ =>
    match takePlainName cs with
    | some (name, rest) =>
      match Axis.names.lookup name, skipBlanks rest with
      | some axis, ':' :: ':' :: rest => withAxis axis none rest
      | _, rest => withAxis .child (some name) rest
    | none =>
      match cs with
      | '@' :: rest => withAxis .ofAttributes none rest
      | _ => withAxis .child none cs

/-- Whether an expression begins with a path, and not with a value. -/
def beginsWithPath (cs : List Char) : Option Bool :=
  match cs with
  | [] => none
  | '.' :: d :: _ => some (!d.isDigit)
  | c :: _ =>
    if c == '$' || c == '(' || c.isDigit || c == '\'' || c == '"' then some false
    else if c == '*' || c == '/' || c == '@' || c == '.' then some true
    else if isNameStart c then
      let name := cs.takeWhile isNameChar
      if Text.occursIn "::".toList name then some true
      else
        match skipBlanks (cs.dropWhile isNameChar) with
        | '(' :: _ => some (typeTestNames.contains (String.ofList name))
        | _ => some true
    else none

/-- Whether a path goes on after the mark of the document. -/
def continuesFromRoot (c : Char) : Bool :=
  c.isAlpha || c == '_' || c == '.' || c == '@' || c == '*'

mutual

/-- An expression of a level of operations: operands of the next level with operations between. -/
def takeLevel : Nat → Nat → List Char → Option (Expr × List Char)
  | 0, _, _ => none
  | fuel + 1, level, cs => do
    let (left, rest) ← takeOperand fuel level (skipBlanks cs)
    takeChain fuel level left (skipBlanks rest)

def takeOperand : Nat → Nat → List Char → Option (Expr × List Char)
  | 0, _, _ => none
  | fuel + 1, level, cs =>
    if level + 1 < operatorLevels.length then takeLevel fuel (level + 1) cs
    else takeSigned fuel false false cs

def takeChain : Nat → Nat → Expr → List Char → Option (Expr × List Char)
  | 0, _, _, _ => none
  | fuel + 1, level, left, cs =>
    match takeOperator level cs with
    | none => some (left, cs)
    | some (op, rest) => do
      let (right, rest) ← takeOperand fuel level (skipBlanks rest)
      takeChain fuel level (.binary op left right) (skipBlanks rest)

def takeSigned : Nat → Bool → Bool → List Char → Option (Expr × List Char)
  | 0, _, _, _ => none
  | fuel + 1, signed, negative, cs =>
    match cs with
    | '-' :: rest => takeSigned fuel true (!negative) (skipBlanks rest)
    | _ => do
      let (first, rest) ← takePath fuel cs
      let (e, rest) ← takeUnion fuel first (skipBlanks rest)
      return (if !signed then e else if negative then .negative e else .numeric e, rest)

def takeUnion : Nat → Expr → List Char → Option (Expr × List Char)
  | 0, _, _ => none
  | fuel + 1, left, cs =>
    match cs with
    | '|' :: rest => do
      let (right, rest) ← takePath fuel (skipBlanks rest)
      takeUnion fuel (.binary .union left right) (skipBlanks rest)
    | _ => some (left, cs)

/-- A path or a value, with the steps that follow it. -/
def takePath : Nat → List Char → Option (Expr × List Char)
  | 0, _ => none
  | fuel + 1, cs => do
    let cs := skipBlanks cs
    if ← beginsWithPath cs then
      match cs with
      | '/' :: _ => takeFromRoot fuel .root cs
      | _ => takeRelative fuel .here cs
    else
      let (e, rest) ← takePrimary fuel cs
      let (e, rest) ← takeFilters fuel e (skipBlanks rest)
      match rest with
      | '/' :: '/' :: rest => takeRelative fuel (throughDescendants e) (skipBlanks rest)
      | '/' :: _ => takeRelative fuel e rest
      | _ => return (e, rest)

def takeFromRoot : Nat → Expr → List Char → Option (Expr × List Char)
  | 0, _, _ => none
  | fuel + 1, origin, cs =>
    match cs with
    | '/' :: '/' :: rest => do
      let (e, rest) ← takeRelative fuel (throughDescendants origin) (skipBlanks rest)
      takeFromRoot fuel e rest
    | '/' :: rest =>
      match skipBlanks rest with
      | c :: rest =>
        if continuesFromRoot c then do
          let (e, rest) ← takeRelative fuel origin (c :: rest)
          takeFromRoot fuel e rest
        else takeFromRoot fuel origin (c :: rest)
      | [] => some (origin, [])
    | _ => some (origin, cs)

/-- A path from places; one mark may stand before its first step. -/
def takeRelative : Nat → Expr → List Char → Option (Expr × List Char)
  | 0, _, _ => none
  | fuel + 1, origin, cs => do
    let (origin, cs) := match skipBlanks cs with
      | '/' :: '/' :: rest => (throughDescendants origin, skipBlanks rest)
      | '/' :: rest => (origin, skipBlanks rest)
      | rest => (origin, rest)
    let (e, rest) ← takeStep fuel origin cs
    takeSteps fuel e (skipBlanks rest)

def takeSteps : Nat → Expr → List Char → Option (Expr × List Char)
  | 0, _, _ => none
  | fuel + 1, origin, cs =>
    match cs with
    | '/' :: '/' :: rest => do
      let (e, rest) ← takeStep fuel (throughDescendants origin) (skipBlanks rest)
      takeSteps fuel e (skipBlanks rest)
    | '/' :: rest => do
      let (e, rest) ← takeStep fuel origin (skipBlanks rest)
      takeSteps fuel e (skipBlanks rest)
    | _ => some (origin, cs)

def takeStep : Nat → Expr → List Char → Option (Expr × List Char)
  | 0, _, _ => none
  | fuel + 1, origin, cs =>
    match skipBlanks cs with
    | '.' :: '.' :: rest => some (.step origin .parent .node [], skipBlanks rest)
    | '.' :: rest => some (origin, skipBlanks rest)
    | cs => do
      let ((axis, test), rest) ← takeAxisAndTest cs
      let (predicates, rest) ← takePredicates fuel (skipBlanks rest)
      return (.step origin axis test predicates, rest)

def takePredicates : Nat → List Char → Option (List Expr × List Char)
  | 0, _ => none
  | fuel + 1, cs =>
    match cs with
    | '[' :: rest => do
      let (predicate, rest) ← takeLevel fuel 0 (skipBlanks rest)
      let (more, rest) ← takePredicates fuel (skipBlanks (← expect "]" rest))
      return (predicate :: more, rest)
    | _ => some ([], cs)

def takeFilters : Nat → Expr → List Char → Option (Expr × List Char)
  | 0, _, _ => none
  | fuel + 1, e, cs =>
    match cs with
    | '[' :: rest => do
      let (predicate, rest) ← takeLevel fuel 0 (skipBlanks rest)
      takeFilters fuel (.filtered e predicate) (skipBlanks (← expect "]" rest))
    | _ => some (e, cs)

/-- A value: a variable, an expression in brackets, a number, a text or a call. -/
def takePrimary : Nat → List Char → Option (Expr × List Char)
  | 0, _ => none
  | fuel + 1, cs =>
    match cs with
    | '$' :: rest => do
      let ((mark, name), rest) ← takeMarkedName rest
      return (.variable mark name, rest)
    | '(' :: rest => do
      let (e, rest) ← takeLevel fuel 0 (skipBlanks rest)
      return (e, ← expect ")" rest)
    | c :: _ =>
      if c.isDigit || c == '.' then do
        let (x, rest) ← takeNumber cs
        return (.number x, rest)
      else if c == '\'' || c == '"' then do
        let (s, rest) ← takeLiteral cs
        return (.literal s, rest)
      else do
        let ((mark, name), rest) ← takeMarkedName cs
        let rest ← expect "(" (skipBlanks rest)
        let (arguments, rest) ← takeArguments fuel (skipBlanks rest)
        return (.call mark name arguments, rest)
    | [] => none

/-- The arguments of a call up to the closing bracket or the end. -/
def takeArguments : Nat → List Char → Option (List Expr × List Char)
  | 0, _ => none
  | fuel + 1, cs =>
    match cs with
    | [] => some ([], [])
    | ')' :: rest => some ([], rest)
    | _ => takeArgument fuel cs

/-- One argument of a call and those that follow it. -/
def takeArgument : Nat → List Char → Option (List Expr × List Char)
  | 0, _ => none
  | _ + 1, [] => some ([], [])
  | fuel + 1, cs => do
    let (argument, rest) ← takeLevel fuel 0 cs
    match rest with
    | ')' :: rest => return ([argument], rest)
    | ',' :: rest => do
      let (more, rest) ← takeArgument fuel (skipBlanks rest)
      return (argument :: more, rest)
    | _ => none

end

def Expr.read? (s : String) : Option Expr :=
  let cs := s.toList
  match takeLevel (32 * (cs.length + 1)) 0 cs with
  | some (e, []) => some e
  | _ => none

end MetadataIndex.XPath
