import Std.Data.TreeMap
import MetadataIndex.Authority.Record
import MetadataIndex.Json.Display
import MetadataIndex.Fault

/-!
# Authority cache

Fetched records are kept under their addresses. A record whose age has reached the lifetime is
dropped when it is asked for. How ages are measured is a parameter.
-/

set_option autoImplicit false

namespace MetadataIndex

/-- How points in time are compared. -/
structure TimeScale (τ : Type) where
  hours : τ → τ → τ
  reaches : τ → τ → Bool

namespace TimeScale

def floats : TimeScale Float where
  hours start now := (now - start) / 3600.0
  reaches age lifetime := lifetime ≤ age

def exact : TimeScale Rat where
  hours start now := (now - start) / 3600
  reaches age lifetime := lifetime ≤ age

end TimeScale

/-- Fetched records with their lifetime. -/
structure AuthorityCache (τ : Type) where
  /-- The age in hours at which a record is dropped. -/
  lifetime : τ
  /-- The number of records above which the cache counts as large. -/
  sizeWarning : Int := 10000
  records : Std.TreeMap String (AuthorityRecord τ) := ∅

namespace AuthorityCache

def create (lifetime : Float) (shown : String) (sizeWarning : Int := 10000) :
    Checked (AuthorityCache Float) :=
  if lifetime < 0.0 then refuse (.negativeLifetime shown) else .ok { lifetime, sizeWarning }

variable {τ : Type}

def size (c : AuthorityCache τ) : Nat := c.records.size

def isStale (scale : TimeScale τ) (c : AuthorityCache τ) (now : τ) (r : AuthorityRecord τ) : Bool :=
  scale.reaches (scale.hours r.createdAt now) c.lifetime

def fresh? (scale : TimeScale τ) (c : AuthorityCache τ) (now : τ) (key : String) :
    Option (AuthorityRecord τ) :=
  c.records[key]?.filter fun r => !c.isStale scale now r

def remove (c : AuthorityCache τ) (key : String) : AuthorityCache τ :=
  { c with records := c.records.erase key }

/-- Asks for a record. A stale one is dropped and counts as missing. -/
def get (scale : TimeScale τ) (c : AuthorityCache τ) (now : τ) (key : String) :
    Option (AuthorityRecord τ) × AuthorityCache τ :=
  match c.records[key]? with
  | none => (none, c)
  | some r => if c.isStale scale now r then (none, c.remove key) else (some r, c)

def put (c : AuthorityCache τ) (key : String) (r : AuthorityRecord τ) : AuthorityCache τ :=
  { c with records := c.records.insert key r }

def clear (c : AuthorityCache τ) : AuthorityCache τ :=
  { c with records := ∅ }

theorem getElem?_records_put (c : AuthorityCache τ) (key other : String) (r : AuthorityRecord τ) :
    (c.put key r).records[other]? = if key = other then some r else c.records[other]? := by
  simp [put, Std.TreeMap.getElem?_insert]

theorem getElem?_records_remove (c : AuthorityCache τ) (key other : String) :
    (c.remove key).records[other]? = if key = other then none else c.records[other]? := by
  simp [remove, Std.TreeMap.getElem?_erase]

/-- What the cache answers is the record that is kept and not stale. -/
theorem fst_get (scale : TimeScale τ) (c : AuthorityCache τ) (now : τ) (key : String) :
    (c.get scale now key).1 = c.fresh? scale now key := by
  cases h : c.records[key]? with
  | none => simp [get, fresh?, h]
  | some r => cases hs : c.isStale scale now r <;> simp [get, fresh?, h, hs, Option.filter]

end AuthorityCache

end MetadataIndex
