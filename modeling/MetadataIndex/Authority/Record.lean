/-!
# Authority records

A record is an ordered list of keys with texts, fetched from an address. A lookup finds the entries
of a record, of which there may be none, or fails.
-/

set_option autoImplicit false

namespace MetadataIndex

/-- A record of a vocabulary, and when it was fetched. -/
structure AuthorityRecord (τ : Type) where
  uri : String
  entries : List (String × String)
  createdAt : τ
deriving DecidableEq, Repr

def AuthorityRecord.isEmpty {τ : Type} (r : AuthorityRecord τ) : Bool := r.entries.isEmpty

/-- How a lookup ends. -/
inductive LookupResult where
  /-- The entries that were found, and the number of the response. -/
  | found (entries : List (String × String)) (status : Option Int := none)
  /-- Why nothing is known, and the number of the response. -/
  | failed (message : String) (status : Option Int := none)
deriving DecidableEq, Repr

def LookupResult.entries : LookupResult → List (String × String)
  | found entries _ => entries
  | failed _ _ => []

end MetadataIndex
