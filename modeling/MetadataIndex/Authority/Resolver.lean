import MetadataIndex.Authority.Cache
import MetadataIndex.Authority.Fields
import MetadataIndex.Authority.Identifier

/-!
# Resolving authority identifiers

An identifier is resolved to an address, and the record at the address is taken from the cache while
it is fresh, else looked up. Only records with entries are kept.
-/

set_option autoImplicit false

namespace MetadataIndex

/-- Where records come from and how their age is measured. -/
structure AuthorityService (ω τ : Type) where
  lookup : String → Action ω LookupResult
  now : ω → τ × ω
  scale : TimeScale τ
  base : String := defaultVocabulary

/-- The outer world and the records that are kept. -/
structure AuthorityState (ω τ : Type) where
  world : ω
  cache : Option (AuthorityCache τ) := none

namespace AuthorityState

variable {ω τ : Type}

def onWorld {α : Type} (action : Action ω α) : Action (AuthorityState ω τ) α :=
  action.onPart (·.world) (fun s world => { s with world })

def cacheSize (s : AuthorityState ω τ) : Option Nat := s.cache.map (·.size)

end AuthorityState

namespace AuthorityService

variable {ω τ : Type}

def resolveUri (base uri : String) : String :=
  let uri := Text.trim uri
  if Text.startsWith uri "http" then uri else base ++ uri

def fromCache (s : AuthorityService ω τ) (uri : String) :
    Action (AuthorityState ω τ) (Option (AuthorityRecord τ)) :=
  Action.ofChange fun state =>
    match state.cache with
    | none => (none, state)
    | some cache =>
      let (now, world) := s.now state.world
      let (r, cache) := cache.get s.scale now uri
      (r, { world, cache := some cache })

def keep (r : AuthorityRecord τ) : Action (AuthorityState ω τ) Unit :=
  modify fun state => { state with cache := state.cache.map (·.put r.uri r) }

/-- Looks up the record at an address, and keeps it if it has entries. -/
def fetchAnew (s : AuthorityService ω τ) (uri : String) :
    Action (AuthorityState ω τ) (Option (AuthorityRecord τ)) := do
  match ← AuthorityState.onWorld (s.lookup uri) with
  | .failed .. => return none
  | .found [] _ => return none
  | .found entries _ =>
    let now ← AuthorityState.onWorld (Action.ofChange s.now)
    let r : AuthorityRecord τ := ⟨uri, entries, now⟩
    keep r
    return some r

/-- The record at an address, from the cache while it is fresh. -/
def fetch (s : AuthorityService ω τ) (uri : String) :
    Action (AuthorityState ω τ) (Option (AuthorityRecord τ)) := do
  match ← s.fromCache uri with
  | some r => return some r
  | none => s.fetchAnew uri

def recordOf (s : AuthorityService ω τ) (uri : String) :
    Action (AuthorityState ω τ) (Option (AuthorityRecord τ)) :=
  s.fetch (resolveUri s.base uri)

/-- The fields of the record that an identifier names; there are none without a record. -/
def resolve (s : AuthorityService ω τ) (style : AuthorityStyle) (uri : String) :
    Action (AuthorityState ω τ × AuthorityTexts) (List Field) := do
  match ← (s.recordOf uri).onPart (·.1) (fun (_, texts) state => (state, texts)) with
  | none => return []
  | some r =>
    (AuthorityFields.ofEntries style r.entries).onPart (·.2)
      (fun (state, _) texts => (state, texts))

end AuthorityService

end MetadataIndex
