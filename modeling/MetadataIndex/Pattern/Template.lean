import MetadataIndex.Fault
import MetadataIndex.Pattern.Parser
import MetadataIndex.Pattern.Matcher

/-!
# Replacement by template

A template is text with references to the groups of a pattern. Replacing writes it in place of
each match; a group that took no part in the match counts as empty.
-/

set_option autoImplicit false

namespace MetadataIndex.Pattern

/-- A piece of a template. -/
inductive Piece where
  | char (c : Char)
  /-- The text of a group; the whole match has number zero. -/
  | group (index : Nat)
deriving DecidableEq, Repr

def groupPiece (r : Regex) (index : Nat) : Reader Piece :=
  if index ≤ r.groups then return .group index else malformed

def namedPiece (r : Regex) : Reader Piece := do
  if ← accept '<' then
    let name ← takeBefore '>'
    match ← groupNumber? name with
    | some i => groupPiece r i
    | none =>
      if isGroupName name then
        match lookup? name r.names with
        | some i => return .group i
        | none => throw .unknownGroup
      else malformed
  else malformed

/-- A reference by one or two digits, or a character by three digits in base 8. -/
def digitPiece (r : Regex) (c : Char) : Reader Piece := do
  match ← peek with
  | some d =>
    if d.isDigit then
      discard next
      match ← peek with
      | some e =>
        if isOctal c && isOctal d && isOctal e then
          discard next
          let n := number 8 [c, d, e]
          if n ≤ 255 then return .char (Char.ofNat n) else malformed
        else groupPiece r (number 10 [c, d])
      | none => groupPiece r (number 10 [c, d])
    else groupPiece r (number 10 [c])
  | none => groupPiece r (number 10 [c])

def readTemplateEscape (r : Regex) : Reader (List Piece) := do
  let c ← next!
  if c = 'g' then return [← namedPiece r]
  else if c = '0' then
    let ds ← takeUpTo isOctal 2
    return [.char (Char.ofNat (number 8 ds % 256))]
  else if c.isDigit then return [← digitPiece r c]
  else
    match letterEscape? c with
    | some x => return [.char x]
    | none => if c.isAlpha then malformed else return [.char '\\', .char c]

def readTemplate (r : Regex) : Nat → Reader (List Piece)
  | 0 => return []
  | fuel + 1 => do
    match ← next with
    | none => return []
    | some '\\' => do
      let pieces ← readTemplateEscape r
      return pieces ++ (← readTemplate r fuel)
    | some c => return .char c :: (← readTemplate r fuel)

def templateOf (r : Regex) (template : String) : Except Problem (List Piece) :=
  (readTemplate r (template.length + 1)).run' { rest := template.toList }

def part (cs : List Char) (s : Span) : List Char :=
  (cs.drop s.1).take (s.2 - s.1)

def Piece.expand (cs : List Char) (m : Match) : Piece → List Char
  | char c => [c]
  | group 0 => part cs m.whole
  | group (i + 1) => match (m.spans[i]?).join with
    | some s => part cs s
    | none => []

/-- The text with each match replaced, where `offset` characters are already written. -/
def substituteFrom (cs : List Char) (write : Match → List Char) : Nat → List Match → List Char
  | offset, [] => cs.drop offset
  | offset, m :: more =>
    part cs (offset, m.whole.1) ++ write m ++ substituteFrom cs write m.whole.2 more

/-- The text with each match replaced by what `write` gives for it. -/
def Regex.substitute (r : Regex) (write : Match → List Char) (cs : List Char) : List Char :=
  substituteFrom cs write 0 (r.matchesOf cs)

/-- The text with each match of a pattern replaced by a template. -/
def replacePattern (pattern template text : String) : Except Problem String := do
  let r ← Regex.ofText pattern
  let pieces ← templateOf r template
  let cs := text.toList
  return String.ofList (r.substitute (fun m => pieces.flatMap (Piece.expand cs m)) cs)

/-- The fault that a problem is. A malformed pattern or template is none: values stay as they are. -/
def Problem.fault? : Problem → Option Fault
  | malformed => none
  | unknownGroup => some .outOfRange
  | tooMany => some .overflow
  | longNumber => some (.refused .notANumber)
  | bothClasses => some (.refused .bothClasses)

/-- What a pattern makes of a value, which stays as it is where the notation is malformed. -/
def orUnchanged (value : String) : Except Problem String → Checked String
  | .ok result => .ok result
  | .error problem =>
    match problem.fault? with
    | some fault => .error fault
    | none => .ok value

end MetadataIndex.Pattern
