import MetadataIndex.Xml.Encoding
import MetadataIndex.Xml.DocumentMarkup
import MetadataIndex.Fault

/-!
# Documents

The content of a document with names resolved in their namespaces. Every mark in a name must be
bound where it is used.
-/

set_option autoImplicit false

namespace MetadataIndex.Xml

/-- A name with its namespace. -/
structure Name where
  space : String := ""
  /-- The mark the name is written with; empty for none. -/
  mark : String := ""
  plain : String
deriving DecidableEq, Repr, Inhabited

namespace Name

/-- Whether two names are the same; marks do not count. -/
def same (a b : Name) : Bool :=
  a.space == b.space && a.plain == b.plain

def written (n : Name) : String :=
  if n.mark.isEmpty then n.plain else n.mark ++ ":" ++ n.plain

def expanded (n : Name) : String :=
  if n.space.isEmpty then n.plain else "\x7b" ++ n.space ++ "\x7d" ++ n.plain

end Name

/-- An attribute. -/
structure Attribute where
  name : Name
  value : String
  isIdentifier : Bool := false
deriving DecidableEq, Repr

/-- A part of a document. -/
inductive Node where
  /-- An element with its attributes, the namespaces that are bound in it, and its content. -/
  | element (name : Name) (attributes : List Attribute) (bindings : List (String × String))
      (content : List Node)
  | text (s : String)
  | comment (s : String)
  | instruction (target data : String)
  /-- A reference to a declared entity, and the text it stands for. -/
  | reference (name text : String)

def xmlSpace : String := "http://www.w3.org/XML/1998/namespace"

def declarationSpace : String := "http://www.w3.org/2000/xmlns/"

/-- The mark and the rest of a written name; a name has at most one mark. -/
def splitName (written : String) : Option (String × String) :=
  match takePlainName written.toList with
  | some (first, []) => some ("", first)
  | some (first, ':' :: rest) =>
    match takePlainName rest with
    | some (second, []) => some (first, second)
    | _ => none
  | _ => none

def isAddressChar (c : Char) : Bool :=
  c.isAlphanum || "-._~:/?#[]@!$&'()*+,;=%".toList.contains c

/-- Whether every mark of an escape is followed by two digits. -/
def hasWholeEscapes : List Char → Bool
  | [] => true
  | '%' :: a :: b :: cs => (hexDigit? a).isSome && (hexDigit? b).isSome && hasWholeEscapes cs
  | '%' :: _ => false
  | _ :: cs => hasWholeEscapes cs

/-- Whether a text can be the address of a namespace: only characters of addresses, whole escapes,
at most one fragment, and a scheme of letters where a colon ends the first part. -/
def isAddress (s : String) : Bool :=
  let cs := s.toList
  let first := cs.takeWhile fun c => !("/?#".toList.contains c)
  let scheme := first.takeWhile (· != ':')
  let hasScheme := first.contains ':'
  cs.all isAddressChar && hasWholeEscapes cs && cs.count '#' ≤ 1
    && (!hasScheme || (scheme.head?.any Char.isAlpha
      && scheme.all fun c => c.isAlphanum || c == '+' || c == '-' || c == '.'))

def declaredMark? (name : String) : Option String :=
  match expect "xmlns" name.toList with
  | some [] => some ""
  | some (':' :: mark) => some (String.ofList mark)
  | _ => none

def isAllowedBinding (mark space : String) : Bool :=
  if mark == "xml" then space == xmlSpace
  else mark != "xmlns" && space != xmlSpace && space != declarationSpace
    && (space.isEmpty || isAddress space) && (mark.isEmpty || !space.isEmpty)

def bindingsOf (attributes : List (String × String)) : Option (List (String × String)) :=
  (attributes.filterMapM fun (name, value) =>
    match declaredMark? name with
    | none => some none
    | some mark =>
      if mark.isEmpty || (splitName mark).any (·.1.isEmpty) then
        if isAllowedBinding mark value then
          some (if mark == "xml" then none else some (mark, value))
        else none
      else none)

/-- The bindings in an element: its own before those around it that it does not replace. -/
def extendScope (own outer : List (String × String)) : List (String × String) :=
  own ++ outer.filter fun (mark, _) => (lookup? mark own).isNone

/-- The name that a written name stands for; a name without mark is in `unmarked`. -/
def resolveName (scope : List (String × String)) (unmarked : String) (written : String) :
    Option Name := do
  let (mark, plain) ← splitName written
  if mark.isEmpty then return { space := unmarked, plain }
  else if mark == "xml" then return { space := xmlSpace, mark, plain }
  else return { space := ← lookup? mark scope, mark, plain }

def areDistinctNames : List Attribute → Bool
  | [] => true
  | a :: more => !more.any (·.name.same a.name) && areDistinctNames more

def resolveAttributes (d : Declarations) (scope : List (String × String)) (element : String)
    (attributes : List (String × String)) : Option (List Attribute) := do
  let resolved ← (attributes.filter fun (name, _) => (declaredMark? name).isNone).mapM
    fun (name, value) => do
      let resolved ← resolveName scope "" name
      return {
        name := resolved, value
        isIdentifier := name == "xml:id" || d.kindOf element name == .identifier : Attribute }
  if areDistinctNames resolved then some resolved else none

namespace Node

mutual

/-- The part of a document that markup stands for where namespaces are bound as given. -/
def ofMarkup? (d : Declarations) (scope : List (String × String)) : Markup → Option Node
  | .element name attributes content => do
    let scope := extendScope (← bindingsOf attributes) scope
    let resolved ← resolveName scope ((lookup? "" scope).getD "") name
    let attributes ← resolveAttributes d scope name attributes
    return element resolved attributes scope (← ofAllMarkup? d scope content)
  | .text s => some (text s)
  | .comment s => some (comment s)
  | .instruction target data =>
    if target.toList.contains ':' then none else some (instruction target data)
  | .reference name s => some (reference name s)

def ofAllMarkup? (d : Declarations) (scope : List (String × String)) :
    List Markup → Option (List Node)
  | [] => some []
  | m :: more => do
    let node ← ofMarkup? d scope m
    return node :: (← ofAllMarkup? d scope more)

end

def content : Node → List Node
  | element _ _ _ content => content
  | _ => []

def attributes : Node → List Attribute
  | element _ attributes _ _ => attributes
  | _ => []

def bindings : Node → List (String × String)
  | element _ _ bindings _ => bindings
  | _ => []

def isElement : Node → Bool
  | element .. => true
  | _ => false

/-- The value of the attribute of an element with a name in no namespace. -/
def attribute? (n : Node) (name : String) : Option String :=
  (n.attributes.find? fun a => a.name.space.isEmpty && a.name.plain == name).map (·.value)

/-- The characters that stand directly in an element; those of entities are left out. The
characters of a comment or an instruction are its own. -/
def directText : Node → String
  | element _ _ _ content => String.join (content.map fun
    | text s => s
    | _ => "")
  | text s => s
  | comment s => s
  | instruction _ data => data
  | reference _ _ => ""

mutual

/-- All characters in an element, in order; those of entities are among them. -/
def fullText : Node → String
  | element _ _ _ content => fullTextOfAll content
  | text s => s
  | comment _ => ""
  | instruction _ _ => ""
  | reference _ s => s

def fullTextOfAll : List Node → String
  | [] => ""
  | n :: more => fullText n ++ fullTextOfAll more

end

/-- The number of parts of an element that are neither characters nor sections. -/
def childCount (n : Node) : Nat :=
  (n.content.filter fun
    | text _ => false
    | _ => true).length

end Node

/-- A document. -/
structure Document where
  content : List Node

namespace Document

def depthLimit : Nat := 257

/-- The document that a text is, if it is well-formed. -/
def read? (s : String) : Option Document := do
  let markup ← DocumentMarkup.ofChars (← decode s.toList)
  if depthLimit < Markup.depthOfAll markup.content then none
  return { content := ← Node.ofAllMarkup? markup.declarations [] markup.content }

/-- The document that a text is; the text may not be empty. -/
def read (s : String) : Checked Document :=
  if s.isEmpty then refuse .noDocument else required .malformedDocument (read? s)

end Document

end MetadataIndex.Xml
