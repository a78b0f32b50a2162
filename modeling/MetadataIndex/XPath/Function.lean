import MetadataIndex.XPath.Value

/-!
# Functions

The functions that expressions may call. A call with another number of arguments than a function
takes, or of a function that does not exist, has no value.
-/

set_option autoImplicit false

namespace MetadataIndex.XPath

open MetadataIndex.Xml (Cursor Node Name)

/-- Where an expression is evaluated: a place with its position among those considered. -/
structure Focus where
  place : Cursor
  position : Nat := 1
  size : Nat := 1

/-- The name of what is at a place, as it is written. -/
def writtenName : Cursor → String
  | .inside _ _ (.element name _ _ _) => name.written
  | .inside _ _ (.instruction target _) => target
  | .ofAttribute _ _ a => a.name.written
  | .ofBinding _ _ mark _ => mark
  | _ => ""

/-- The name of what is at a place, without its mark. -/
def plainName : Cursor → String
  | .inside _ _ (.element name _ _ _) => name.plain
  | .inside _ _ (.instruction target _) => target
  | .ofAttribute _ _ a => a.name.plain
  | .ofBinding _ _ mark _ => mark
  | _ => ""

/-- The namespace of the name of what is at a place. -/
def nameSpace : Cursor → String
  | .inside _ _ (.element name _ _ _) => name.space
  | .ofAttribute _ _ a => a.name.space
  | _ => ""

def wordsOf (s : String) : List String :=
  ((s.toList.splitBy fun a b => isBlank a == isBlank b).filter
    fun word => word.any (!isBlank ·)).map String.ofList

def normalizeBlanks (s : String) : String :=
  " ".intercalate (wordsOf s)

def roundHalfUp (x : Float) : Float :=
  if -0.5 ≤ x && x < 0.5 then x * 0.0
  else
    let below := x.floor
    if 0.5 ≤ x - below then below + 1.0 else below

/-- The characters of a text from a position, as many as given; positions count from one. -/
def substring (s : String) (start : Float) (length : Option Float) : String :=
  let first := roundHalfUp start
  let isKept (p : Float) : Bool :=
    first ≤ p && (match length with
      | some n => p < first + roundHalfUp n
      | none => true)
  String.ofList ((s.toList.zipIdx 1).filterMap fun (c, i) =>
    if isKept (Float.ofNat i) then some c else none)

/-- Replaces each character that stands in the first list by the one at its place in the second, or
drops it if there is none. -/
def mapChars (old new : List Char) (s : String) : String :=
  String.ofList (s.toList.filterMap fun c =>
    match old.idxOf? c with
    | some i => new[i]?
    | none => some c)

/-- The language declared for a place by the nearest element around it. -/
def languageOf? (c : Cursor) : Option String :=
  (c :: c.ancestors).findSome? fun c =>
    c.node? >>= fun n => (n.attributes.find? fun a =>
      a.name.space == Xml.xmlSpace && a.name.plain == "lang").map (·.value)

/-- Whether a declared language is the one asked for or a part of it. -/
def isInLanguage (asked declared : String) : Bool :=
  let fold (s : String) : List Char := s.toList.map Char.toUpper
  match Text.dropLiteral? (fold asked) (fold declared) with
  | some [] => true
  | some (c :: _) => c == '-'
  | none => false

/-- The element of a document that is identified by a word. -/
def elementById? (c : Cursor) (word : String) : Option Cursor :=
  c.top.descendants.find? fun c => c.node?.any fun n =>
    n.attributes.any fun a => a.isIdentifier && a.value == word

def elementsById (c : Cursor) : Value → List Cursor
  | .places l => inOrder (l.flatMap fun p => (wordsOf p.fullText).filterMap (elementById? c))
  | v => inOrder ((wordsOf v.toText).filterMap (elementById? c))

/-- The value of a function of places; without argument it is about the place in focus. -/
def onPlace (f : Focus) (get : Cursor → String) : List Value → Option Value
  | [] => some (.text (get f.place))
  | [.places l] => some (.text ((l.head?.map get).getD ""))
  | _ => none

/-- The value of a function of a text; without argument it is about the place in focus. -/
def onText (f : Focus) (get : String → Value) : List Value → Option Value
  | [] => some (get f.place.fullText)
  | [v] => some (get v.toText)
  | _ => none

def callFunction (f : Focus) (name : String) (arguments : List Value) : Option Value :=
  match name, arguments with
  | "last", [] => some (.number (Float.ofNat f.size))
  | "position", [] => some (.number (Float.ofNat f.position))
  | "count", [.places l] => some (.number (Float.ofNat l.length))
  | "id", [v] => some (.places (elementsById f.place v))
  | "local-name", _ => onPlace f plainName arguments
  | "namespace-uri", _ => onPlace f nameSpace arguments
  | "name", _ => onPlace f writtenName arguments
  | "string", _ => onText f .text arguments
  | "concat", _ :: _ :: _ => some (.text (String.join (arguments.map Value.toText)))
  | "starts-with", [a, b] => some (.truth (Text.startsWith a.toText b.toText))
  | "contains", [a, b] => some (.truth (Text.containsLiteral a.toText b.toText))
  | "substring-before", [a, b] =>
    some (.text (match Text.cut? b.toText.toList a.toText.toList with
      | some (before, _) => String.ofList before
      | none => ""))
  | "substring-after", [a, b] =>
    some (.text (match Text.cut? b.toText.toList a.toText.toList with
      | some (_, after) => String.ofList after
      | none => ""))
  | "substring", [a, b] => some (.text (substring a.toText b.toNumber none))
  | "substring", [a, b, c] => some (.text (substring a.toText b.toNumber (some c.toNumber)))
  | "string-length", _ => onText f (fun s => .number (Float.ofNat s.length)) arguments
  | "normalize-space", _ => onText f (fun s => .text (normalizeBlanks s)) arguments
  | "translate", [a, b, c] =>
    some (.text (mapChars b.toText.toList c.toText.toList a.toText))
  | "boolean", [v] => some (.truth v.toTruth)
  | "not", [v] => some (.truth (!v.toTruth))
  | "true", [] => some (.truth true)
  | "false", [] => some (.truth false)
  | "lang", [v] => some (.truth ((languageOf? f.place).any (isInLanguage v.toText)))
  | "number", [] => some (.number (readNumber f.place.fullText))
  | "number", [v] => some (.number v.toNumber)
  | "sum", [.places l] =>
    some (.number (l.foldl (fun x c => x + readNumber c.fullText) 0.0))
  | "floor", [v] => some (.number v.toNumber.floor)
  | "ceiling", [v] => some (.number v.toNumber.ceil)
  | "round", [v] => some (.number (roundHalfUp v.toNumber))
  | _, _ => none

end MetadataIndex.XPath
