import MetadataIndex.Xml.Declarations

/-!
# Markup

The content of a document as it is written: elements under their full names, with texts, comments,
processing instructions and references to entities. Reading takes the text apart into tokens and
nests them; every element is closed under its own name.
-/

set_option autoImplicit false

namespace MetadataIndex.Xml

/-- A part of a document as it is written. -/
inductive Markup where
  | element (name : String) (attributes : List (String × String)) (content : List Markup)
  | text (s : String)
  | comment (s : String)
  | instruction (target data : String)
  /-- A reference to a declared entity, and the text it stands for. -/
  | reference (name text : String)

/-- A token of a document. -/
inductive Token where
  | opening (name : String) (attributes : List (String × String))
  /-- The end of an element; an element without content has it next to its beginning. -/
  | closing (name : String)
  | chars (s : String)
  | section (s : String)
  | comment (s : String)
  | instruction (target data : String)
  | reference (name : String)
deriving DecidableEq, Repr

namespace Token

/-- The attributes at the front of a text, at most `limit` of them, with what follows. -/
def takeAttributes (d : Declarations) (element : String) :
    Nat → List Char → Option (List (String × String) × List Char)
  | 0, _ => none
  | limit + 1, cs =>
    match requireSpaces cs >>= takeName with
    | none => some ([], skipSpaces cs)
    | some (name, rest) => do
      let (value, rest) ← takeQuoted (← expectEquals rest)
      let (more, rest) ← takeAttributes d element limit rest
      return ((name, ← attributeValue d element name value) :: more, rest)

/-- The declared attributes of an element that are not written. -/
def missingAttributes (d : Declarations) (element : String) (written : List (String × String)) :
    Option (List (String × String)) :=
  (d.attributes.filter fun a => a.element == element && (lookup? a.name written).isNone).filterMapM
    fun a =>
      match a.default with
      | none => some none
      | some value => (attributeValue d element a.name value).map fun v => some (a.name, v)

/-- The names at the front of pairs, none of them twice. -/
def areDistinct : List (String × String) → Bool
  | [] => true
  | (name, _) :: more => (lookup? name more).isNone && areDistinct more

/-- The tokens of the beginning of an element after its mark. -/
def takeOpening (d : Declarations) (cs : List Char) : Option (List Token × List Char) := do
  let (name, rest) ← takeName cs
  let (written, rest) ← takeAttributes d name rest.length.succ rest
  if !areDistinct written then none
  let attributes := written ++ (← missingAttributes d name written)
  match rest with
  | '>' :: rest => return ([opening name attributes], rest)
  | '/' :: '>' :: rest => return ([opening name attributes, closing name], rest)
  | _ => none

/-- The next tokens of a text that is not empty, and what follows. -/
def take (d : Declarations) : List Char → Option (List Token × List Char)
  | '<' :: '/' :: cs => do
    let (name, rest) ← takeName cs
    return ([closing name], ← expect ">" (skipSpaces rest))
  | '<' :: '!' :: '-' :: '-' :: cs => do
    let (text, rest) ← takeComment cs
    return ([comment (String.ofList text)], rest)
  | '<' :: '!' :: cs => do
    let (text, rest) ← Text.cut? "]]>".toList (← expect "[CDATA[" cs)
    return ([.section (String.ofList text)], rest)
  | '<' :: '?' :: cs => do
    let (target, data, rest) ← takeInstruction cs
    return ([instruction target data], rest)
  | '<' :: cs => takeOpening d cs
  | '&' :: cs => do
    let (piece, rest) ← takeReference cs
    match piece with
    | .char c => return ([.section (String.singleton c)], rest)
    | .code c => return ([.section (String.singleton c)], rest)
    | .entity name =>
      match lookup? name namedChars with
      | some c => return ([.section (String.singleton c)], rest)
      | none => return ([reference name], rest)
  | cs =>
    let isMark (c : Char) : Bool := c == '<' || c == '&'
    let text := cs.takeWhile (!isMark ·)
    if Text.occursIn "]]>".toList text then none
    else some ([chars (String.ofList text)], cs.dropWhile (!isMark ·))

/-- The tokens of a text in reverse order after those given, in at most `limit` steps. -/
def takeAll (d : Declarations) : Nat → List Token → List Char → Option (List Token)
  | _, done, [] => some done
  | 0, _, _ :: _ => none
  | limit + 1, done, cs =>
    match take d cs with
    | some (tokens, rest) => takeAll d limit (tokens.reverse ++ done) rest
    | none => none

def ofChars (d : Declarations) (cs : List Char) : Option (List Token) :=
  (takeAll d cs.length [] cs).map List.reverse

end Token

/-- An element that is not closed yet, and what stands before it, in reverse order. -/
structure OpenElement where
  name : String
  attributes : List (String × String)
  /-- What stands before the element in its parent, in reverse order. -/
  before : List Markup

/-- Elements that are not closed, innermost first, and the content of the innermost. -/
structure Nesting where
  above : List OpenElement := []
  content : List Markup := []

namespace Nesting

def push (n : Nesting) (m : Markup) : Nesting :=
  { n with content := m :: n.content }

/-- Adds characters to the content; they go on with a run of characters. -/
def pushChars (n : Nesting) (s : String) : Nesting :=
  match n.content with
  | .text t :: more => { n with content := .text (t ++ s) :: more }
  | _ => n.push (.text s)

/-- Takes a token in. `resolve` gives the text of an entity; the result is none if an element is
closed under another name. -/
def take (resolve : String → Option String) (n : Nesting) : Token → Option Nesting
  | .opening name attributes =>
    some { above := ⟨name, attributes, n.content⟩ :: n.above, content := [] }
  | .closing name =>
    match n.above with
    | ⟨opened, attributes, before⟩ :: above =>
      if opened == name then
        some { above, content := .element name attributes n.content.reverse :: before }
      else none
    | [] => none
  | .chars s => some (n.pushChars s)
  | .section s => some (n.pushChars s)
  | .comment s => some (n.push (.comment s))
  | .instruction target data => some (n.push (.instruction target data))
  | .reference name => (resolve name).map fun text => n.push (.reference name text)

def contentOf (resolve : String → Option String) (tokens : List Token) : Option (List Markup) :=
  match tokens.foldlM (take resolve) {} with
  | some ⟨[], content⟩ => some content.reverse
  | _ => none

end Nesting

namespace Markup

mutual

/-- The characters of a part, in order, without comments and instructions. -/
def chars : Markup → String
  | element _ _ content => charsOfAll content
  | text s => s
  | comment _ => ""
  | instruction _ _ => ""
  | reference _ s => s

def charsOfAll : List Markup → String
  | [] => ""
  | m :: more => chars m ++ charsOfAll more

end

mutual

def depth : Markup → Nat
  | element _ _ content => depthOfAll content + 1
  | _ => 0

def depthOfAll : List Markup → Nat
  | [] => 0
  | m :: more => max (depth m) (depthOfAll more)

end

/-- The text of an entity: the characters of the content it stands for, with entities at most
`depth` deep in one another. -/
def entityChars (d : Declarations) : Nat → String → Option String
  | 0, _ => none
  | depth + 1, name =>
    match lookup? name d.entities with
    | some (.internal replacement) => do
      let tokens ← Token.ofChars d replacement
      return charsOfAll (← Nesting.contentOf (entityChars d depth) tokens)
    | some .external => some ""
    | none => if d.hasUnread then some "" else none

end Markup

end MetadataIndex.Xml
