import MetadataIndex.Effect
import MetadataIndex.Field.FreeText
import MetadataIndex.Geo.Basic
import MetadataIndex.Text.Composed
import MetadataIndex.Value.Replacement
import MetadataIndex.Field.Basic

/-!
# Fields of authority records

The entries of a record become index fields. Names, places, dates and coordinates are written again
for search. In a group with a language, an entry in that language takes the place of the entry
without language; entries in other languages are left out.
-/

set_option autoImplicit false

namespace MetadataIndex

/-- The language at the end of a field name: two characters after the mark of a language. -/
def languageOf? (name : String) : Option String :=
  match Text.cut? FieldName.languageMark.toList name.toList with
  | some (_, [a, b]) => some (Text.lower (String.ofList [a, b]))
  | _ => none

/-- The running texts that the values of a record are added to. -/
structure AuthorityTexts where
  default : Option FreeText := none
  terms : Option FreeText := none

namespace AuthorityTexts

/-- Adds the value of an entry to the texts it belongs to. -/
def addEntry (defaults : List Json) (t : AuthorityTexts) (f : Field) : AuthorityTexts :=
  let isDefault := defaults.any fun d => d.text? == some f.name
  { default := if isDefault then t.default.map (·.add f.value) else t.default
    terms :=
      if Text.startsWith f.name FieldName.normUri then t.terms else t.terms.map (·.add f.value) }

end AuthorityTexts

/-- How the entries of a record are written. -/
structure AuthorityStyle where
  /-- The name of the group that the record belongs to. -/
  label : Option String := none
  replaceRules : List ReplaceRule := []
  defaults : List Json := []

namespace AuthorityStyle

def label? (s : AuthorityStyle) : Option String :=
  s.label.filter (!·.isEmpty)

def language? (s : AuthorityStyle) : Option String :=
  s.label? >>= languageOf?

def searchFields (s : AuthorityStyle) (ending value : String) : List Field :=
  s.label?.toList.map fun label => ⟨label ++ ending, value⟩

end AuthorityStyle

namespace AuthorityFields

def isRelevant (entry : String × String) : Bool :=
  Text.startsWith entry.1 FieldName.normMark && !(Text.trim entry.2).isEmpty
    && entry.1 != FieldName.normStaticPage

/-- Applies the replacements to the values of relevant entries and adds these to the texts they
belong to. -/
def prepare (s : AuthorityStyle) (entries : List (String × String)) :
    Action AuthorityTexts (List Field) :=
  (entries.filter isRelevant).mapM fun (key, text) => do
    let value ← ReplaceRule.applyAll s.replaceRules (Text.composed text)
    modify (·.addEntry s.defaults ⟨key, value⟩)
    return ⟨key, value⟩

/-- Whether an entry has no language or the language of the group. -/
def isUnderstood (language : Option String) (f : Field) : Bool :=
  match languageOf? f.name with
  | none => true
  | some l => some l == language

/-- Whether a key is that of another form of a name. -/
def isNameVariant (key : String) : Bool :=
  Text.startsWith key "NORM_ALTNAME" || Text.startsWith key "NORM_OFFICIALNAME"

def isName (key : String) : Bool :=
  key == FieldName.normName || isNameVariant key

def isPlace (key : String) : Bool :=
  Text.startsWith key FieldName.normPlace

/-- The search fields of a name or a place; `earlier` are the entries before it. A repeated place or
other form of a name has none. -/
def nameFields (s : AuthorityStyle) (earlier : List Field) (f : Field) : List Field :=
  let isNew (sort : String → Bool) : Bool := !earlier.any fun e => sort e.name && e.value == f.value
  if f.name == FieldName.normName || (isNameVariant f.name && isNew isName) then
    s.searchFields "_NAME_SEARCH" f.value
      ++ [⟨FieldName.untokenized FieldName.normName, f.value⟩]
  else if isPlace f.name && isNew isPlace then
    s.searchFields "_PLACE_SEARCH" f.value
      ++ [⟨FieldName.untokenized FieldName.normPlace, f.value⟩]
  else []

def withNameFields (s : AuthorityStyle) : List Field → List Field → List Field
  | _, [] => []
  | earlier, f :: more =>
    f :: nameFields s earlier f ++ withNameFields s (f :: earlier) more

def dateFields (s : AuthorityStyle) (value : String) : List Field :=
  (Text.splitAtLiteral "-" value).flatMap fun date =>
    s.searchFields "_DATE_SEARCH" (Text.trim date)
      ++ [⟨FieldName.untokenized FieldName.normDate, Text.trim date⟩]

def coordinateFields (value : String) : List Field :=
  let c := Geo.convert value (Geo.guessKind value) " "
  c.wkt.toList.map (⟨FieldName.wktCoords, ·⟩)
    ++ c.geojson.toList.map (⟨FieldName.normCoordsGeoJson, ·⟩)

def derivedFields (s : AuthorityStyle) (f : Field) : List Field :=
  if f.name == FieldName.normLifePeriod then dateFields s f.value
  else if f.name == FieldName.normCoords then coordinateFields f.value
  else []

/-- A field with its copy that is not cut into words. -/
def withUntokenized (f : Field) : List Field :=
  [f, ⟨FieldName.untokenized f.name, f.value⟩]

/-- The values that take the place of the values of a field in a language. -/
def preferredValues (language : Option String) (entries : List Field) (name : String) :
    List String :=
  match language, languageOf? name with
  | some l, none =>
    Field.valuesOf (name ++ FieldName.languageMark ++ Text.upper l)
      (entries.filter fun f => (languageOf? f.name).isSome)
  | _, _ => []

/-- Writes fields. Where values in the language of the group take the place of the values of a
name, they stand once, at the first field of that name; the names done are in `replaced`. -/
def inLanguage (language : Option String) (entries : List Field) :
    List String → List Field → List Field
  | _, [] => []
  | replaced, f :: more =>
    if replaced.contains f.name then inLanguage language entries replaced more
    else
      match preferredValues language entries f.name with
      | [] => withUntokenized f ++ inLanguage language entries replaced more
      | values =>
        values.flatMap (fun v => withUntokenized ⟨f.name, v⟩)
          ++ inLanguage language entries (f.name :: replaced) more

def hasCoordinates (fields : List Field) : Bool :=
  fields.any (·.name == FieldName.wktCoords)

def truthText (b : Bool) : String := if b then "true" else "false"

def ofPrepared (s : AuthorityStyle) (prepared : List Field) : List Field :=
  let entries := prepared.filter (isUnderstood s.language?)
  let derived := entries.flatMap (derivedFields s)
  derived ++ inLanguage s.language? entries [] (withNameFields s [] entries)
    ++ [⟨FieldName.hasWktCoords, truthText (hasCoordinates derived)⟩]

def ofEntries (s : AuthorityStyle) (entries : List (String × String)) :
    Action AuthorityTexts (List Field) := do
  if entries.isEmpty then return []
  return ofPrepared s (← prepare s entries)

end AuthorityFields

end MetadataIndex
