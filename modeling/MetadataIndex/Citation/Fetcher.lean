import MetadataIndex.Citation.Address
import MetadataIndex.Web.Basic
import MetadataIndex.Xml.Cursor

/-!
# Fetching citation documents

The document of a citation is requested once. There is none when its address cannot be filled, when
the request fails, or when the response is no well-formed document.
-/

set_option autoImplicit false

namespace MetadataIndex.Citation

open MetadataIndex.Web (Network Reply Response Failure)

/-- How citation documents are requested. -/
structure Options where
  /-- The number of seconds after which a request is given up. -/
  timeout : Float := 10.0
  /-- The headers of a request; when there are none, documents of elements are accepted. -/
  headers : List (String × String) := []

def defaultHeaders : List (String × String) := [("Accept", "application/xml")]

namespace Options

def requestHeaders (o : Options) : List (String × String) :=
  if o.headers.isEmpty then defaultHeaders else o.headers

end Options

def rootOf (r : Response) : Option Xml.Cursor := do
  if r.text.isEmpty then none
  (← Xml.Document.read? r.text).root?

/-- The root of the document that a reply is. A failure outside of the exchange ends the
operation. -/
def rootOfReply (address : String) : Reply → Checked (Option Xml.Cursor)
  | .ok r => .ok (if (r.failure? address).isSome then none else rootOf r)
  | .error f =>
    match f.kind with
    | .other => refuse (.reported f.message)
    | _ => .ok none

def documentAt {ω : Type} (network : Network ω) (o : Options) (address : String) :
    Action ω (Option Xml.Cursor) := do
  rootOfReply address (← Action.ofChange (network.get ⟨address, o.requestHeaders, o.timeout⟩))

def fetch {ω : Type} (network : Network ω) (o : Options) (values : String → List String)
    (template : String) : Action ω (Option Xml.Cursor) :=
  match addressOf values template with
  | .ok address => documentAt network o address
  | .error _ => return none

end MetadataIndex.Citation
