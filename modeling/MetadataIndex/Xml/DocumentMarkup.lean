import MetadataIndex.Xml.Markup

/-!
# The markup of a document

A document is one element with comments and processing instructions before and after it.
-/

set_option autoImplicit false

namespace MetadataIndex.Xml

/-- The markup of a document. -/
structure DocumentMarkup where
  declarations : Declarations
  content : List Markup

namespace DocumentMarkup

/-- Reads what may stand before the declaration of the type, at most `limit` parts, in reverse
order after those given, with what follows. -/
def takeMiscellany : Nat → List Markup → List Char → Option (List Markup × List Char)
  | 0, _, _ => none
  | limit + 1, done, cs =>
    match skipSpaces cs with
    | '<' :: '!' :: '-' :: '-' :: rest => do
      let (text, rest) ← takeComment rest
      takeMiscellany limit (.comment (String.ofList text) :: done) rest
    | '<' :: '?' :: rest => do
      let (target, data, rest) ← takeInstruction rest
      takeMiscellany limit (.instruction target data :: done) rest
    | rest => some (done, rest)

def isMiscellany : Markup → Bool
  | .comment _ => true
  | .instruction _ _ => true
  | _ => false

def isElement : Markup → Bool
  | .element _ _ _ => true
  | _ => false

/-- Whether nothing but separators stands outside of elements among tokens; `depth` elements are
open. -/
def hasBareSeparators : Nat → List Token → Bool
  | _, [] => true
  | depth, .opening _ _ :: more => hasBareSeparators (depth + 1) more
  | depth, .closing _ :: more => hasBareSeparators (depth - 1) more
  | 0, .chars s :: more => s.toList.all isSpace && hasBareSeparators 0 more
  | 0, .section _ :: _ => false
  | 0, .reference _ :: _ => false
  | depth, _ :: more => hasBareSeparators depth more

def dropBareSeparators (content : List Markup) : List Markup :=
  content.filter fun m => isMiscellany m || isElement m

def ofChars (cs : List Char) : Option DocumentMarkup := do
  if !cs.all isChar then none
  let cs := normalizeLineEnds cs
  let (before, rest) ← takeMiscellany cs.length.succ [] cs
  let (declarations, rest) ← match expect "<!DOCTYPE" rest with
    | some rest => readDocumentType rest
    | none => some ({}, rest)
  let tokens ← Token.ofChars declarations rest
  if !hasBareSeparators 0 tokens then none
  let content ← Nesting.contentOf (Markup.entityChars declarations entityDepth) tokens
  if (content.filter isElement).length != 1 then none
  return { declarations, content := before.reverse ++ dropBareSeparators content }

def root? (d : DocumentMarkup) : Option Markup :=
  d.content.find? isElement

end DocumentMarkup

end MetadataIndex.Xml
