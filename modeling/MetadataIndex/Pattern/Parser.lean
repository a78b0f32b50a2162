import MetadataIndex.Decimal.Numeral
import MetadataIndex.Json.Basic
import MetadataIndex.Pattern.Syntax

/-!
# Reading patterns

A pattern is read from left to right with the switches that are in force: regardless of case,
lines, every character, free layout and ASCII classes. Switches for the whole pattern stand at its
start; others hold inside their group.
-/

set_option autoImplicit false

namespace MetadataIndex.Pattern

/-- Why a pattern or a template cannot be used. -/
inductive Problem where
  | malformed
  /-- A template refers to a group name that the pattern does not have. -/
  | unknownGroup
  | tooMany
  /-- A count or a group is given by more digits than numbers are read from. -/
  | longNumber
  /-- The whole pattern asks for ASCII classes and for those of all characters. -/
  | bothClasses
deriving DecidableEq, Repr

/-- The switches in force. -/
structure Switches where
  ignoreCase : Bool := false
  /-- The anchors for start and end hold at each line. -/
  lines : Bool := false
  pointAll : Bool := false
  layout : Bool := false
  ascii : Bool := false
  unicode : Bool := false

def Switches.set (s : Switches) (value : Bool) : Char → Option Switches
  | 'i' => some { s with ignoreCase := value }
  | 'm' => some { s with lines := value }
  | 's' => some { s with pointAll := value }
  | 'x' => some { s with layout := value }
  | 'a' => some { s with ascii := value }
  | 'u' => some { s with unicode := value }
  | _ => none

def Switches.compare (s : Switches) : Compare :=
  if s.ignoreCase then (if s.ascii then .foldAscii else .fold) else .exact

/-- The state of the reader. -/
structure Progress where
  rest : List Char
  groups : Nat := 0
  names : List (String × Nat) := []
  opened : List Nat := []
  widths : List (Nat × Width) := []
  /-- The number of groups when the outermost assertion behind began. -/
  behindFloor : Option Nat := none
  conditions : List Nat := []
  /-- The letters of the switches for the whole pattern. -/
  letters : List Char := []

abbrev Reader := StateT Progress (Except Problem)

def malformed {α : Type} : Reader α := throw .malformed

def peek : Reader (Option Char) := return (← get).rest.head?

def next : Reader (Option Char) := do
  let p ← get
  match p.rest with
  | [] => return none
  | c :: rest =>
    set { p with rest }
    return some c

def next! : Reader Char := do
  match ← next with
  | some c => return c
  | none => malformed

def accept (c : Char) : Reader Bool := do
  if (← peek) = some c then
    discard next
    return true
  else return false

def takeUpTo (p : Char → Bool) : Nat → Reader (List Char)
  | 0 => return []
  | limit + 1 => do
    match ← peek with
    | some c =>
      if p c then
        discard next
        return c :: (← takeUpTo p limit)
      else return []
    | none => return []

def takeAll (p : Char → Bool) : Reader (List Char) := do
  takeUpTo p (← get).rest.length

/-- Takes the text before a terminator, which must come and may not come at once. -/
def takeBefore (terminator : Char) : Reader String := do
  let cs ← takeAll (· != terminator)
  if cs.isEmpty || !(← accept terminator) then malformed
  else return String.ofList cs

/-- Whether a text may be the name of a group. -/
def isGroupName (name : String) : Bool :=
  match name.toList with
  | [] => false
  | c :: cs => (Text.isWordChar c && !Text.isDecimalDigit c) && cs.all Text.isWordChar

/-- The number written in ASCII digits, if the text is one. -/
def asciiNumber? (s : String) : Option Nat :=
  if !s.isEmpty && s.toList.all Char.isDigit then
    some (s.toList.foldl (fun n c => n * 10 + (c.toNat - 48)) 0)
  else none

/-- The number of a group, if the text is one. -/
def groupNumber? (s : String) : Reader (Option Nat) :=
  match asciiNumber? s with
  | some i => if Decimal.digitLimit < s.length then throw .longNumber else return some i
  | none => return none

def isOctal (c : Char) : Bool := '0' ≤ c && c ≤ '7'

def isHex (c : Char) : Bool := (base16? c).isSome
where
  base16? (c : Char) : Option Nat :=
    if '0' ≤ c && c ≤ '9' then some (c.toNat - 48)
    else if 'a' ≤ c && c ≤ 'f' then some (c.toNat - 87)
    else if 'A' ≤ c && c ≤ 'F' then some (c.toNat - 55)
    else none

/-- The number written in digits of a base up to 16. -/
def number (base : Nat) (cs : List Char) : Nat :=
  cs.foldl (fun n c => n * base + (isHex.base16? c).getD 0) 0

/-- A character given by exactly `digits` digits in base 16. -/
def codeEscape (digits : Nat) : Reader Char := do
  let cs ← takeUpTo isHex digits
  let n := number 16 cs
  if cs.length = digits && n ≤ 0x10ffff then return Char.ofNat n else malformed

def letterEscape? : Char → Option Char
  | 'a' => some (Char.ofNat 7)
  | 'b' => some (Char.ofNat 8)
  | 'f' => some (Char.ofNat 12)
  | 'n' => some '\n'
  | 'r' => some '\r'
  | 't' => some '\t'
  | 'v' => some (Char.ofNat 11)
  | '\\' => some '\\'
  | _ => none

/-- The named class of an escape, with whether it is the complement. -/
def classEscape? : Char → Option (Bool × NamedClass)
  | 'd' => some (false, .digit)
  | 'D' => some (true, .digit)
  | 's' => some (false, .blank)
  | 'S' => some (true, .blank)
  | 'w' => some (false, .word)
  | 'W' => some (true, .word)
  | _ => none

/-- Refuses a group that an enclosing assertion behind has opened itself. -/
def checkBehind (group : Nat) : Reader Unit := do
  match (← get).behindFloor with
  | some floor => if floor < group then malformed else return ()
  | none => return ()

def reference (s : Switches) (group : Nat) : Reader Node := do
  let p ← get
  if group = 0 || p.groups < group || p.opened.contains group then malformed
  else
    checkBehind group
    return .back s.compare group

def readEscape (s : Switches) : Reader Node := do
  let c ← next!
  match classEscape? c with
  | some (negated, cls) => return .one (.oneOf .exact false [.named s.ascii negated cls])
  | none =>
    match c with
    | 'A' => return .anchor .textStart
    | 'Z' => return .anchor .textEnd
    | 'b' => return .anchor (.wordEdge s.ascii false)
    | 'B' => return .anchor (.wordEdge s.ascii true)
    | 'x' => return .one (.char s.compare (← codeEscape 2))
    | 'u' => return .one (.char s.compare (← codeEscape 4))
    | 'U' => return .one (.char s.compare (← codeEscape 8))
    | '0' =>
      let ds ← takeUpTo isOctal 2
      return .one (.char s.compare (Char.ofNat (number 8 ds)))
    | _ =>
      if c.isDigit then
        match ← peek with
        | some d =>
          if d.isDigit then
            discard next
            let third ← peek
            match third with
            | some e =>
              if isOctal c && isOctal d && isOctal e then
                discard next
                let n := number 8 [c, d, e]
                if n ≤ 255 then return .one (.char s.compare (Char.ofNat n)) else malformed
              else reference s (number 10 [c, d])
            | none => reference s (number 10 [c, d])
          else reference s (number 10 [c])
        | none => reference s (number 10 [c])
      else
        match letterEscape? c with
        | some x => return .one (.char s.compare x)
        | none => if c.isAlpha then malformed else return .one (.char s.compare c)

def readClassEscape (s : Switches) : Reader ClassItem := do
  let c ← next!
  match classEscape? c, letterEscape? c with
  | some (negated, cls), _ => return .named s.ascii negated cls
  | none, some x => return .char x
  | none, none =>
    match c with
    | 'x' => return .char (← codeEscape 2)
    | 'u' => return .char (← codeEscape 4)
    | 'U' => return .char (← codeEscape 8)
    | _ =>
      if isOctal c then
        let ds ← takeUpTo isOctal 2
        let n := number 8 (c :: ds)
        if n ≤ 255 then return .char (Char.ofNat n) else malformed
      else if c.isDigit || c.isAlpha then malformed
      else return .char c

/-- The items of a bracketed class up to its end; `acc` holds those read, in reverse. -/
def readClassItems (s : Switches) : Nat → List ClassItem → Reader (List ClassItem)
  | 0, _ => malformed
  | fuel + 1, acc => do
    let c ← next!
    if c = ']' && !acc.isEmpty then return acc.reverse
    else
      let first ← if c = '\\' then readClassEscape s else pure (.char c)
      if ← accept '-' then
        let d ← next!
        if d = ']' then return (.char '-' :: first :: acc).reverse
        else
          let last ← if d = '\\' then readClassEscape s else pure (.char d)
          match first, last with
          | .char lo, .char hi =>
            if hi < lo then malformed else readClassItems s fuel (.range lo hi :: acc)
          | _, _ => malformed
      else readClassItems s fuel (first :: acc)

def readClass (s : Switches) : Reader Node := do
  let negated ← accept '^'
  let items ← readClassItems s ((← get).rest.length + 1) []
  return .one (.oneOf s.compare negated items)

/-- What a group that starts with a question mark and switch letters does. -/
inductive SwitchGroup where
  /-- It sets the switches of the whole pattern, by these letters. -/
  | whole (s : Switches) (letters : List Char)
  | scoped (s : Switches)

/-- Letters that set or clear switches; `turnedOn` are those set before a minus sign. -/
def readSwitchLetters (value : Bool) (turnedOn : List Char) :
    Nat → Switches → Char → Reader (Switches × Char × List Char)
  | 0, _, _ => malformed
  | fuel + 1, s, c => do
    match s.set value c with
    | none => malformed
    | some s' =>
      if (s'.ascii && s'.unicode) || (!value && (c = 'a' || c = 'u')) || turnedOn.contains c then
        malformed
      else
        let d ← next!
        let (s'', last, letters) ← if d = ')' || d = '-' || d = ':' then pure (s', d, [])
          else readSwitchLetters value turnedOn fuel s' d
        return (s'', last, c :: letters)

/-- The switches of a group, from its first letter or minus sign. -/
def readSwitchGroup (s : Switches) (c : Char) : Reader SwitchGroup := do
  let size := (← get).rest.length + 1
  -- Asking for one kind of classes replaces the other kind.
  let base := { s with unicode := false }
  let (on, last, letters) ← if c = '-' then pure (base, '-', [])
    else do
      let outer := if s.ascii then { base with ascii := false } else base
      let (on, last, letters) ← readSwitchLetters true [] size outer c
      let kept := if s.ascii && !on.unicode then { on with ascii := true } else on
      pure ({ kept with unicode := false }, last, letters)
  if last = ')' then return .whole on letters
  else if last = ':' then return .scoped on
  else
    let (off, last, _) ← readSwitchLetters false letters size on (← next!)
    if last = ':' then return .scoped off else malformed

/-- Skips blanks and comments of a pattern with free layout. -/
def skipLayout : Nat → List Char → List Char
  | 0, cs => cs
  | fuel + 1, cs =>
    match cs with
    | '#' :: rest => skipLayout fuel ((rest.dropWhile (· != '\n')).drop 1)
    | c :: rest =>
      if c = ' ' || (9 ≤ c.toNat && c.toNat ≤ 13) then skipLayout fuel rest else cs
    | [] => []

/-- Takes the switches for the whole pattern from its start. -/
def readLeadingSwitches : Nat → Switches → Reader Switches
  | 0, s => return s
  | fuel + 1, s => do
    if s.layout then
      modify fun p => { p with rest := skipLayout (p.rest.length + 1) p.rest }
    let before ← get
    match before.rest with
    | '(' :: '?' :: '#' :: rest =>
      match (rest.dropWhile (· != ')')) with
      | _ :: rest =>
        set { before with rest }
        readLeadingSwitches fuel s
      | [] => malformed
    | '(' :: '?' :: c :: rest =>
      if (s.set true c).isSome then
        set { before with rest }
        match ← readSwitchGroup s c with
        | .whole s letters =>
          modify fun p => { p with letters := p.letters ++ letters }
          readLeadingSwitches fuel s
        | .scoped _ =>
          set before
          return s
      else return s
    | _ => return s

/-- What stands in a sequence, as far as a following repetition asks. -/
inductive Item where
  | plain (n : Node)
  | fixed (n : Node)
  | repeated (n : Node)

def Item.node : Item → Node
  | plain n => n
  | fixed n => n
  | repeated n => n

def sequence (items : List Item) : Node :=
  match items with
  | [] => .empty
  | item :: more => more.foldl (fun rest item => .seq item.node rest) item.node

def countLimit : Nat := 4294967295

/-- Counts in braces after the opening brace, or nothing if the brace stands for itself. -/
def readCounts : Reader (Option (Nat × Option Nat)) := do
  let before ← get
  let lo ← takeAll Char.isDigit
  let comma ← accept ','
  let hi ← if comma then takeAll Char.isDigit else pure lo
  if (lo.isEmpty && !comma) || !(← accept '\x7d') then
    set before
    return none
  else
    let least := number 10 lo
    let most := if hi.isEmpty then none else some (number 10 hi)
    if Decimal.digitLimit < lo.length then throw .longNumber
    else if countLimit ≤ least then throw .tooMany
    else if Decimal.digitLimit < hi.length then throw .longNumber
    else if countLimit ≤ most.getD 0 then throw .tooMany
    else if most.any (· < least) then malformed
    else return some (least, most)

/-- How much a repetition takes, from the mark after it. -/
def readGreed : Reader Greed := do
  if ← accept '?' then return .reluctant
  if ← accept '+' then return .possessive
  return .greedy

def repeatLast (least : Nat) (most : Option Nat) (items : List Item) : Reader (List Item) := do
  match items with
  | .plain n :: more =>
    return .repeated (.rep (← readGreed) least most n) :: more
  | _ => malformed

def openGroup (name : Option String) : Reader Nat := do
  let p ← get
  let index := p.groups + 1
  match name with
  | none => set { p with groups := index, opened := index :: p.opened }
  | some name =>
    if (lookup? name p.names).isSome then malformed
    else
      set { p with
        groups := index, opened := index :: p.opened, names := p.names ++ [(name, index)] }
  return index

def Progress.groupWidth (p : Progress) (i : Nat) : Width :=
  ((p.widths.find? (·.1 == i)).map (·.2)).getD ⟨0, none⟩

def closeGroup (index : Nat) (body : Node) : Reader Unit :=
  modify fun p => { p with
    opened := p.opened.erase index
    widths := (index, body.width p.groupWidth) :: p.widths }

mutual

def readAlternatives : Nat → Switches → Reader Node
  | 0, _ => malformed
  | fuel + 1, s => do
    let first ← readSequence fuel s []
    if ← accept '|' then return .alt first (← readAlternatives fuel s)
    else return first

def readSequence : Nat → Switches → List Item → Reader Node
  | 0, _, _ => malformed
  | fuel + 1, s, items => do
    match ← peek with
    | none => return sequence items
    | some c =>
      if c = '|' || c = ')' then return sequence items
      else
        discard next
        if s.layout && (c = ' ' || (9 ≤ c.toNat && c.toNat ≤ 13)) then readSequence fuel s items
        else if s.layout && c = '#' then
          discard (takeAll (· != '\n'))
          readSequence fuel s items
        else
          match c with
          | '\\' =>
            let n ← readEscape s
            let item := match n with
              | .anchor _ => Item.fixed n
              | _ => Item.plain n
            readSequence fuel s (item :: items)
          | '[' => readSequence fuel s (.plain (← readClass s) :: items)
          | '*' => readSequence fuel s (← repeatLast 0 none items)
          | '+' => readSequence fuel s (← repeatLast 1 none items)
          | '?' => readSequence fuel s (← repeatLast 0 (some 1) items)
          | '\x7b' =>
            match ← readCounts with
            | some (least, most) => readSequence fuel s (← repeatLast least most items)
            | none => readSequence fuel s (.plain (.one (.char s.compare c)) :: items)
          | '.' => readSequence fuel s (.plain (.one (.any s.pointAll)) :: items)
          | '^' => readSequence fuel s (.fixed (.anchor (.start s.lines)) :: items)
          | '$' => readSequence fuel s (.fixed (.anchor (.finish s.lines)) :: items)
          | '(' =>
            match ← readGroup fuel s with
            | some n => readSequence fuel s (.plain n :: items)
            | none => readSequence fuel s items
          | _ => readSequence fuel s (.plain (.one (.char s.compare c)) :: items)

/-- The inside of a group up to its closing parenthesis. -/
def readBody : Nat → Switches → Reader Node
  | 0, _ => malformed
  | fuel + 1, s => do
    let n ← readAlternatives fuel s
    if ← accept ')' then return n else malformed

def readNumbered : Nat → Switches → Option String → Reader Node
  | 0, _, _ => malformed
  | fuel + 1, s, name => do
    let index ← openGroup name
    let body ← readBody fuel s
    closeGroup index body
    return .group index body

def readAssertion : Nat → Switches → Bool → Bool → Reader Node
  | 0, _, _, _ => malformed
  | fuel + 1, s, behind, negated => do
    let outer := (← get).behindFloor
    if behind && outer.isNone then modify fun p => { p with behindFloor := some p.groups }
    let body ← readBody fuel s
    modify fun p => { p with behindFloor := outer }
    if negated && body = .empty then return .fail
    else if behind then
      let w := body.width (← get).groupWidth
      if w.most = some w.least then return .look (some w.least) negated body else malformed
    else return .look none negated body

def readCondition : Nat → Switches → Reader Node
  | 0, _ => malformed
  | fuel + 1, s => do
    let name ← takeBefore ')'
    let group ← if isGroupName name then
        match lookup? name (← get).names with
        | some i => pure i
        | none => malformed
      else match ← groupNumber? name with
        | some i =>
          if i = 0 then malformed
          else
            modify fun p => { p with conditions := i :: p.conditions }
            pure i
        | none => malformed
    checkBehind group
    let given ← readSequence fuel s []
    let otherwise ← if ← accept '|' then readSequence fuel s [] else pure .empty
    if ← accept ')' then return .cond group given otherwise else malformed

/-- A group after its opening parenthesis; a comment gives no pattern. -/
def readGroup : Nat → Switches → Reader (Option Node)
  | 0, _ => malformed
  | fuel + 1, s => do
    if !(← accept '?') then return some (← readNumbered fuel s none)
    else
      let c ← next!
      match c with
      | ':' => return some (← readBody fuel s)
      | '>' => return some (.atomic (← readBody fuel s))
      | '=' => return some (← readAssertion fuel s false false)
      | '!' => return some (← readAssertion fuel s false true)
      | '<' =>
        let d ← next!
        if d = '=' then return some (← readAssertion fuel s true false)
        else if d = '!' then return some (← readAssertion fuel s true true)
        else malformed
      | '#' =>
        discard (takeAll (· != ')'))
        if ← accept ')' then return none else malformed
      | '(' => return some (← readCondition fuel s)
      | 'P' =>
        let d ← next!
        if d = '<' then
          let name ← takeBefore '>'
          if isGroupName name then return some (← readNumbered fuel s (some name)) else malformed
        else if d = '=' then
          let name ← takeBefore ')'
          match lookup? name (← get).names with
          | some i => return some (← reference s i)
          | none => malformed
        else malformed
      | _ =>
        if c = '-' || (s.set true c).isSome then
          match ← readSwitchGroup s c with
          | .scoped s => return some (← readBody fuel s)
          | .whole _ _ => malformed
        else malformed

end

def readPattern : Reader Node := do
  let size := (← get).rest.length
  let s ← readLeadingSwitches (size + 1) {}
  let n ← readAlternatives (8 * size + 8) s
  let p ← get
  if p.letters.contains 'a' && p.letters.contains 'u' then throw .bothClasses
  else if p.rest.isEmpty && p.conditions.all (· ≤ p.groups) then return n
  else malformed

def Regex.ofText (s : String) : Except Problem Regex :=
  match readPattern.run { rest := s.toList } with
  | .ok (node, p) => .ok ⟨node, p.groups, p.names⟩
  | .error e => .error e

end MetadataIndex.Pattern
