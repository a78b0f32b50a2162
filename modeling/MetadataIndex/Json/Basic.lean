/-!
# Structured values

Values of a structured document. The members of an object are ordered; a name occurs once. Integers
and numbers with a fraction are kept apart.
-/

set_option autoImplicit false

namespace MetadataIndex

/-- A value of a structured document. -/
inductive Json where
  | null
  | bool (b : Bool)
  | int (n : Int)
  | float (x : Float)
  | text (s : String)
  | array (items : List Json)
  | object (members : List (String × Json))
deriving Inhabited

def lookup? {α : Type} (name : String) : List (String × α) → Option α
  | [] => none
  | (key, value) :: more => if key = name then some value else lookup? name more

/-- Stores a value under a name: in place if the name is there, else at the end. -/
def store {α : Type} (name : String) (value : α) : List (String × α) → List (String × α)
  | [] => [(name, value)]
  | (key, old) :: more =>
    if key = name then (key, value) :: more else (key, old) :: store name value more

def storeAll {α : Type} (base overrides : List (String × α)) : List (String × α) :=
  overrides.foldl (fun members (key, value) => store key value members) base

section Members

variable {α : Type}

theorem lookup?_eq_none_iff {name : String} {members : List (String × α)} :
    lookup? name members = none ↔ name ∉ members.map (·.1) := by
  fun_induction lookup? name members <;> simp_all [eq_comm]

theorem lookup?_append (name : String) (a b : List (String × α)) :
    lookup? name (a ++ b) = (lookup? name a <|> lookup? name b) := by
  induction a with
  | nil => simp [lookup?]
  | cons p a ih => by_cases h : p.1 = name <;> simp_all [lookup?]

theorem lookup?_store_self (name : String) (value : α) (members : List (String × α)) :
    lookup? name (store name value members) = some value := by
  fun_induction store name value members <;> simp_all [lookup?]

theorem lookup?_store_of_ne {name other : String} (h : other ≠ name) (value : α)
    (members : List (String × α)) :
    lookup? other (store name value members) = lookup? other members := by
  fun_induction store name value members <;> simp_all [lookup?, eq_comm]

/-- Storing keeps the names in their order; a new one comes last. -/
theorem map_fst_store (name : String) (value : α) (members : List (String × α)) :
    (store name value members).map (·.1) =
      members.map (·.1) ++ if name ∈ members.map (·.1) then [] else [name] := by
  induction members with
  | nil => simp [store]
  | cons p members ih =>
    by_cases h : p.1 = name
    · simp [store, h]
    · simp only [store, h, ↓reduceIte, List.map_cons, ih, List.mem_cons, Ne.symm h, false_or,
        List.cons_append]

end Members

namespace Json

/-- Whether the value counts as given: null, false, zero and what is empty do not. -/
def isGiven : Json → Bool
  | null => false
  | bool b => b
  | int n => n != 0
  | float x => !(x == 0.0)
  | text s => !s.isEmpty
  | array items => !items.isEmpty
  | object members => !members.isEmpty

def isNull : Json → Bool
  | null => true
  | _ => false

def text? : Json → Option String
  | text s => some s
  | _ => none

def member? (v : Json) (name : String) : Option Json :=
  match v with
  | object members => lookup? name members
  | _ => none

/-- The member of an object with the given name, or null. -/
def member (v : Json) (name : String) : Json :=
  (v.member? name).getD null

mutual

/-- The number of values that stand inside one another, at most. -/
def depth : Json → Nat
  | array items => depthOfItems items + 1
  | object members => depthOfMembers members + 1
  | _ => 1

def depthOfItems : List Json → Nat
  | [] => 0
  | item :: more => max (depth item) (depthOfItems more)

def depthOfMembers : List (String × Json) → Nat
  | [] => 0
  | (_, value) :: more => max (depth value) (depthOfMembers more)

end

end Json

end MetadataIndex
