import MetadataIndex.Citation.Fetcher
import MetadataIndex.Rule.File
import MetadataIndex.Rule.Reader
import MetadataIndex.Service.Settings
import MetadataIndex.Structure.Location
import MetadataIndex.Transform.Document

/-!
# Handling requests

A request names a document and the rules for it, and is answered with the fields of the document.
Authority records and rule files are kept from one request to the next. What is wrong with a
request or its rules is reported in the response.
-/

set_option autoImplicit false

namespace MetadataIndex

open MetadataIndex.Xml (Cursor)

/-- What requests are handled on. -/
structure Platform (ω : Type) where
  network : Web.Network ω
  files : FileStore ω
  now : ω → Float × ω
  environment : String → Option String

/-- The outer world, and what is kept from one request to the next. -/
structure ServiceState (ω : Type) where
  world : ω
  cache : Option (AuthorityCache Float) := none
  shelf : RuleShelf := {}

/-- A response. -/
structure ServiceResponse where
  status : Nat
  body : List (String × Json)

namespace ServiceState

variable {ω : Type}

def onRules {α : Type} (action : Action (RuleState ω) α) : Action (ServiceState ω) α :=
  action.onPart (fun s => ⟨s.world, s.shelf⟩)
    (fun s r => { s with world := r.world, shelf := r.shelf })

def onAuthority {α : Type} (action : Action (AuthorityState ω Float) α) :
    Action (ServiceState ω) α :=
  action.onPart (fun s => ⟨s.world, s.cache⟩)
    (fun s a => { s with world := a.world, cache := a.cache })

end ServiceState

namespace ServiceResponse

def completed (logId : Option String) (members : List (String × Json)) : ServiceResponse :=
  ⟨200, ("message", .text "Metadata transformation completed") :: ("log_id", .ofText? logId)
    :: members⟩

/-- The response to a request that ended with a fault. -/
def ofFault : Fault → ServiceResponse
  | .refused cause =>
    ⟨400, [("error", .text cause.message), ("message", .text "Invalid configuration or input")]⟩
  | _ => ⟨500, [("error", .text "*"), ("message", .text "Internal server error")]⟩

end ServiceResponse

namespace Platform

variable {ω : Type}

/-- The service of authority records with the settings of a node, if there is one; its cache is
brought in line with the settings. -/
def authority (p : Platform ω) (s : NodeSettings) :
    Action (ServiceState ω) (Option (AuthorityService ω Float)) := do
  if !s.resolvesAuthority then return none
  let options ← s.lookupOptions
  let cache ← s.cache (← get).cache
  modify fun state => { state with cache := some cache }
  return some { lookup := options.lookup p.network, now := p.now, scale := .floats }

def rules (p : Platform ω) (s : NodeSettings) : Action (ServiceState ω) RuleSet := do
  let config ← ServiceState.onRules (RuleFile.resolve p.files (p.environment "IAC_ASSETS_BUCKET")
    s.rules (s.rulesPath.getD .null))
  RuleSet.ofJson config

def rootOf (document : Json) : Checked Cursor := do
  if !document.isGiven then refuse .noDocument
  match document with
  | .text s => required .malformedDocument (← Xml.Document.read s).root?
  | _ => refuse .documentNotText

/-- What is put before expressions: what the request asks for, or what the place needs. -/
def leadingOf (requested : Json) (l : Location) : Checked String :=
  match requested with
  | .null => .ok l.leading
  | v => if v.isGiven then v.asText else .ok ""

/-- The members of the document of a result. A free text to start with that is no text is kept as it
is, and nothing can be added to it. -/
def membersWith (default : Json) (r : TransformResult) : Checked (List (String × Json)) := do
  let members ← r.members
  match default.given? with
  | none => return members
  | some (.text _) => return members
  | some v =>
    if r.defaultText.isEmpty then return store "default_value" v members else .error .wrongType

def complete (p : Platform ω) (event : Json) : Action (ServiceState ω) ServiceResponse := do
  let settings ← NodeSettings.ofEvent p.environment event
  let data ← NodeSettings.dataOf event
  let rules ← p.rules settings
  let evaluator := XPath.Evaluator.ofNamespaces rules.namespaces
  let root ← rootOf (Json.setting data "document")
  let l ← locate evaluator root (Json.setting data "log_id")
  let authority ← p.authority settings
  let default := Json.setting data "default_value"
  let t : Transformer ω Float :=
    { rules
      builder :=
        { evaluator, authority
          citations := some (Citation.documentAt p.network { timeout := settings.timeout }) } }
  let result ← ServiceState.onAuthority (t.transform
    { element := some l.element, context := l.context
      leading := leadingOf (Json.setting data "query_prefix") l, default := default.text?.getD "" })
  return .completed (l.context >>= (·.place.node.id)) (← membersWith default result)

def handle (p : Platform ω) (event : Json) : Action (ServiceState ω) ServiceResponse := do
  let _ ← event.settings
  try p.complete event
  catch fault => return .ofFault fault

end Platform

end MetadataIndex
