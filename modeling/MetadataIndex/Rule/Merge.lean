import MetadataIndex.Json.Setting

/-!
# Combining configurations

Inline rules are laid over the rules of a shared file: fields and namespaces one by one, where all
rules of a field are replaced, and every other member as a whole.
-/

set_option autoImplicit false

namespace MetadataIndex

/-- Whether a member of a configuration is combined name by name. -/
def isCombined (name : String) : Bool :=
  name == "fields" || name == "namespaces"

/-- The members of a base value to be combined with others; what is not given has none. -/
def combinable (v : Json) : Checked (List (String × Json)) :=
  if v.isGiven then
    match v with
    | .object members => .ok members
    | _ => .error .wrongType
  else .ok []

/-- Lays the members of one configuration over those of another. -/
def mergeRules (base overrides : List (String × Json)) : Checked (List (String × Json)) :=
  overrides.foldlM
    (fun merged (name, value) => do
      match value with
      | .object members =>
        if isCombined name then
          let under ← combinable (Json.setting base name)
          return store name (.object (storeAll under members)) merged
        else return store name value merged
      | _ => return store name value merged)
    base

end MetadataIndex
