import MetadataIndex.Authority.Payload
import MetadataIndex.Authority.Record
import MetadataIndex.Text.Percent
import MetadataIndex.Web.Retry

/-!
# Looking up authority records

A record is requested at its address, or at an address made from a template. What is wrong with the
request or the payload is reported in the result.
-/

set_option autoImplicit false

namespace MetadataIndex

/-- The format of a payload. -/
inductive PayloadFormat where
  | json
  | xml
deriving DecidableEq, Repr

/-- The format that a setting names; any other setting leaves it to the response. -/
def PayloadFormat.ofName? (name : String) : Option PayloadFormat :=
  match Text.lower name with
  | "json" => some json
  | "xml" => some xml
  | _ => none

/-- How records are requested. -/
structure LookupOptions where
  /-- The number of seconds after which a request is given up. -/
  timeout : Float := 10.0
  /-- The address of a request, with a placeholder for the address of the record. -/
  template : Option String := none
  /-- The format of payloads, if it is not left to the response. -/
  format : Option PayloadFormat := none
  retry : Web.RetryPolicy := {}
  headers : List (String × String) := []

namespace LookupOptions

/-- What stands in a template for the address of a record. -/
def placeholder : String := "\x7buri\x7d"

def check (o : LookupOptions) : Checked Unit :=
  match o.template with
  | some template =>
    if Text.containsLiteral template placeholder then .ok ()
    else refuse (.templateWithoutPlaceholder template)
  | none => .ok ()

def kinds : List String := ["rest"]

def ofKind (kind : String) (o : LookupOptions) : Checked LookupOptions := do
  if !kinds.contains kind then refuse (.unknownLookup kind)
  o.check
  return o

def addressOf (o : LookupOptions) (uri : String) : String :=
  match o.template with
  | some template => Text.replaceLiteral placeholder (Text.percentEncoded uri) template
  | none => uri

def formatOf (o : LookupOptions) (r : Web.Response) : PayloadFormat :=
  match o.format with
  | some format => format
  | none =>
    let named := Text.lower ((r.header? "Content-Type").getD "")
    if Text.containsLiteral named "xml" then .xml
    else if Text.containsLiteral named "json" then .json
    else if Text.startsWith (Text.trim r.text) "<" then .xml
    else .json

def entriesOf (o : LookupOptions) (r : Web.Response) :
    Except PayloadError (List (String × String)) :=
  match o.formatOf r with
  | .xml => Payload.readXml (Text.trim r.text)
  | .json => Payload.readJson r.text

/-- The result that a response is. A record that does not exist is found without entries. -/
def resultOf (o : LookupOptions) (r : Web.Response) : LookupResult :=
  if r.status = 404 then .found [] (some 404)
  else if !r.isSuccess then
    .failed ("Authority lookup failed with status " ++ toString r.status) (some r.status)
  else if (Text.trim r.text).isEmpty then .found [] (some r.status)
  else
    match o.entriesOf r with
    | .ok entries => .found entries (some r.status)
    | .error e => .failed ("Malformed authority payload: " ++ e.message) (some r.status)

/-- Requests an address once. Only a response worth repeating counts as a failure. -/
def request {ω : Type} (o : LookupOptions) (network : Web.Network ω) (address : String)
    (world : ω) : Web.Reply × ω :=
  let (reply, world) := network.get ⟨address, o.headers, o.timeout⟩ world
  match reply with
  | .error f => (.error f, world)
  | .ok r =>
    match r.failure? address with
    | some f => (if f.isTransient then .error f else .ok r, world)
    | none => (.ok r, world)

def lookup {ω : Type} (o : LookupOptions) (network : Web.Network ω) (uri : String) :
    Action ω LookupResult := do
  let uri := Text.trim uri
  if uri.isEmpty then return .failed "Authority URI is empty"
  let report ← Web.attempt network.pause o.retry (o.request network (o.addressOf uri))
  match report.outcome with
  | some (.ok r) => return o.resultOf r
  | some (.error f) => return .failed f.message f.status?
  | none => return .failed report.message

end LookupOptions

end MetadataIndex
