import MetadataIndex.Authority.Resolver
import MetadataIndex.Rule.File
import MetadataIndex.Web.Basic

/-!
# Scripted worlds

An outer world that is written down beforehand: a network, a lookup of authority records and a store
of files. Each request for an address takes the next reply or result, and the last one repeats. What was
asked is kept in order, and the present is set by hand.
-/

set_option autoImplicit false

/-! ## Networks -/

namespace MetadataIndex.Web

/-- Replies written down beforehand, and what was asked of them. -/
structure Script where
  /-- The replies of each address that are still to come. -/
  replies : List (String × List Reply) := []
  requests : List Request := []
  pauses : List Float := []

namespace Script

def unreachable : Failure := ⟨.connection, "unreachable"⟩

def next {α : Type} (scripted : List (String × List α)) (key : String) :
    Option α × List (String × List α) :=
  match lookup? key scripted with
  | some (first :: rest) =>
    (some first, if rest.isEmpty then scripted else store key rest scripted)
  | _ => (none, scripted)

def get (r : Request) (s : Script) : Reply × Script :=
  let (reply, replies) := next s.replies r.url
  (reply.getD (.error unreachable), { s with replies, requests := r :: s.requests })

def pause (seconds : Float) (s : Script) : Script :=
  { s with pauses := seconds :: s.pauses }

def network : Network Script := ⟨get, pause⟩

end Script

end MetadataIndex.Web

/-! ## Lookups -/

namespace MetadataIndex

/-- Results written down beforehand, what was asked of them, and the present. -/
structure LookupScript where
  /-- The results of each address that are still to come. -/
  results : List (String × List LookupResult) := []
  asked : List String := []
  now : Float := 0.0

namespace LookupScript

/-- Looks up an address. An address without results is found without entries. -/
def lookup (uri : String) (s : LookupScript) : LookupResult × LookupScript :=
  let (result, results) := Web.Script.next s.results uri
  (result.getD (.found []), { s with results, asked := uri :: s.asked })

def service (base : String := defaultVocabulary) : AuthorityService LookupScript Float where
  lookup uri := Action.ofChange (lookup uri)
  now s := (s.now, s)
  scale := .floats
  base := base

end LookupScript

end MetadataIndex

/-! ## Worlds -/

namespace MetadataIndex

/-- A network, a lookup and a store that are written down beforehand. -/
structure ScriptedWorld where
  web : Web.Script := {}
  authority : LookupScript := {}
  /-- The files by bucket and key, or the codes that they end with. -/
  files : List (String × Except String String) := []
  reads : List String := []

namespace ScriptedWorld

def network : Web.Network ScriptedWorld where
  get request w :=
    let (reply, web) := Web.Script.get request w.web
    (reply, { w with web })
  pause seconds w := { w with web := Web.Script.pause seconds w.web }

def service : AuthorityService ScriptedWorld Float where
  lookup uri w :=
    let (result, authority) := w.authority.lookup uri
    .ok result { w with authority }
  now w := (w.authority.now, w)
  scale := .floats

/-- The store of files. A file that is not written down does not exist. -/
def fileStore : FileStore ScriptedWorld where
  read bucket key w :=
    let path := bucket ++ "/" ++ key
    ((lookup? path w.files).getD (.error "NoSuchKey"), { w with reads := path :: w.reads })

end ScriptedWorld

end MetadataIndex
