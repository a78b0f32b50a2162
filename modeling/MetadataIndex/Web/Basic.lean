import MetadataIndex.Effect
import MetadataIndex.Text.Case

/-!
# Requests and replies

A request for an address ends with a response or with a failure. A network answers requests and
waits; how it does so is a parameter, together with the state it keeps.
-/

set_option autoImplicit false

namespace MetadataIndex.Web

/-- A request for the document at an address. -/
structure Request where
  url : String
  headers : List (String × String) := []
  /-- The number of seconds after which the request is given up. -/
  timeout : Float := 10.0

/-- What a server sends. -/
structure Response where
  status : Int := 200
  reason : String := ""
  headers : List (String × String) := []
  text : String := ""
deriving DecidableEq, Repr

/-- The kinds of failure. -/
inductive FailureKind where
  | timeout
  | connection
  | status (code : Int)
  | request
  | other
deriving DecidableEq, Repr

/-- A failure with its message. -/
structure Failure where
  kind : FailureKind
  message : String
deriving DecidableEq, Repr

abbrev Reply := Except Failure Response

/-- Answers requests and waits, with a state. -/
structure Network (ω : Type) where
  get : Request → ω → Reply × ω
  pause : Float → ω → ω

namespace Response

def isSuccess (r : Response) : Bool := r.status < 400

/-- The value of a header with a name in letters of either case. -/
def header? (r : Response) (name : String) : Option String :=
  (r.headers.find? fun (key, _) => Text.lower key == Text.lower name).map (·.2)

/-- The failure that a response is when its number says so. -/
def failure? (r : Response) (url : String) : Option Failure :=
  let words (side : String) : String :=
    toString r.status ++ " " ++ side ++ " Error: " ++ r.reason ++ " for url: " ++ url
  if 400 ≤ r.status && r.status < 500 then some ⟨.status r.status, words "Client"⟩
  else if 500 ≤ r.status && r.status < 600 then some ⟨.status r.status, words "Server"⟩
  else none

end Response

/-- The numbers of responses after which a request is worth repeating. -/
def transientStatuses : List Int := [408, 429, 500, 502, 503, 504]

namespace Failure

def isTransient (f : Failure) : Bool :=
  match f.kind with
  | .timeout => true
  | .connection => true
  | .status code => transientStatuses.contains code
  | .request => false
  | .other => false

/-- The number of the response that a failure comes from. -/
def status? (f : Failure) : Option Int :=
  match f.kind with
  | .status code => some code
  | _ => none

end Failure

end MetadataIndex.Web
