import MetadataIndex.Text.Blank
import MetadataIndex.Text.Search

/-!
# Authority identifiers

An identifier names a record of a vocabulary: by a bare value in the default vocabulary, or by an
address that the vocabulary may qualify. The address of a vocabulary alone names no record.
-/

set_option autoImplicit false

namespace MetadataIndex

/-- What names a record of a vocabulary. -/
inductive AuthorityIdentifier where
  | bare (value : String)
  /-- An address, and the vocabulary it may be relative to. -/
  | scheme (valueUri : String) (authorityUri : Option String)
deriving DecidableEq, Repr

def defaultVocabulary : String := "https://d-nb.info/gnd/"

namespace AuthorityIdentifier

def vocabularies : List String := ["https://d-nb.info/gnd/", "http://d-nb.info/gnd/"]

def namesNothing (value : String) : Bool :=
  value.isEmpty || vocabularies.contains value

def nonEmpty? (s : String) : Option String :=
  if s.isEmpty then none else some s

def classify (value : String) (authorityUri : Option String) : AuthorityIdentifier :=
  match authorityUri >>= nonEmpty? with
  | some authority => scheme value (nonEmpty? (Text.trim authority))
  | none => if Text.startsWith value "http" then scheme value none else bare value

/-- Reads an identifier from its value and the address of its vocabulary. -/
def read? (value : Option String) (authorityUri : Option String := none) :
    Option AuthorityIdentifier := do
  let value := Text.trim (← value)
  if namesNothing value then none else some (classify value authorityUri)

/-- Reads the identifier in the attributes of an element. The address of the vocabulary counts only
beside the name of the vocabulary. -/
def ofAttributes? (attribute? : String → Option String) : Option AuthorityIdentifier :=
  match attribute? "authority" with
  | none => read? (attribute? "valueURI")
  | some _ => read? (attribute? "valueURI") (attribute? "authorityURI")

def toUri (base : String := defaultVocabulary) : AuthorityIdentifier → String
  | bare value => base ++ Text.trim value
  | scheme valueUri authorityUri =>
    let value := Text.trim valueUri
    match authorityUri >>= nonEmpty? with
    | some authority => if Text.startsWith value authority then value else authority ++ value
    | none => value

end AuthorityIdentifier

end MetadataIndex
