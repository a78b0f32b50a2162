import MetadataIndex.Effect
import MetadataIndex.Json.Parser
import MetadataIndex.Rule.Merge

/-!
# Rule files

Rules that several nodes share stand in files of a store. The files used last are kept; a file that
cannot be read is not. Rules given inline are laid over those of the file.
-/

set_option autoImplicit false

namespace MetadataIndex

/-- A store of files in buckets. A file that is not given ends with a code. -/
structure FileStore (ω : Type) where
  read : String → String → ω → Except String String × ω

/-- A file with its rules. -/
structure RuleFile where
  bucket : String
  key : String
  rules : List (String × Json)

/-- The files that are kept, the last used first. -/
structure RuleShelf where
  files : List RuleFile := []

namespace RuleShelf

def capacity : Nat := 10

def find? (s : RuleShelf) (bucket key : String) : Option RuleFile :=
  s.files.find? fun f => f.bucket == bucket && f.key == key

/-- Puts a file in front of the others; the last ones are given up. -/
def use (s : RuleShelf) (f : RuleFile) : RuleShelf :=
  let others := s.files.filter fun g => !(g.bucket == f.bucket && g.key == f.key)
  ⟨(f :: others).take capacity⟩

theorem length_use_le (s : RuleShelf) (f : RuleFile) : (s.use f).files.length ≤ capacity := by
  exact List.length_take_le ..

theorem find?_use_self (s : RuleShelf) (f : RuleFile) :
    (s.use f).find? f.bucket f.key = some f := by
  simp [use, find?, capacity]

/-- Using a file keeps every other file, unless the shelf is full. -/
theorem find?_use_of_ne {s : RuleShelf} {f : RuleFile} {bucket key : String}
    (room : s.files.length < capacity) (h : (f.bucket == bucket && f.key == key) = false) :
    (s.use f).find? bucket key = s.find? bucket key := by
  have short : (f :: s.files.filter
      fun g => !(g.bucket == f.bucket && g.key == f.key)).length ≤ capacity :=
    Nat.succ_le_of_lt (Nat.lt_of_le_of_lt (List.length_filter_le ..) room)
  rw [use, find?, List.take_of_length_le short, List.find?_cons_of_neg (by simp [h]),
    List.find?_filter, find?]
  congr 1
  funext g
  cases sought : g.bucket == bucket && g.key == key with
  | false => simp
  | true =>
    obtain ⟨rfl, rfl⟩ : g.bucket = bucket ∧ g.key = key := by simpa using sought
    have other : (g.bucket == f.bucket && g.key == f.key) = false := by
      rw [BEq.comm (a := g.bucket), BEq.comm (a := g.key), h]
    simp [other]

end RuleShelf

/-- The outer world and the rule files that are kept. -/
structure RuleState (ω : Type) where
  world : ω
  shelf : RuleShelf := {}

namespace RuleFile

def missingCodes : List String := ["NoSuchKey", "404"]

def rulesOf (bucket key : String) : Except String String → Checked (List (String × Json))
  | .error code =>
    refuse (if missingCodes.contains code then .rulesFileMissing bucket key
      else .rulesFileUnreadable bucket key)
  | .ok content =>
    match Json.read content with
    | .error .malformed => refuse (.rulesFileMalformed bucket key)
    | .error .longNumeral => refuse .notANumber
    | .ok (.object rules) => .ok rules
    | .ok _ => refuse (.rulesFileNotObject bucket key)

/-- The rules in the file of a bucket under a key. A file that is kept is not read again. -/
def load {ω : Type} (store : FileStore ω) (bucket key : String) :
    Action (RuleState ω) (List (String × Json)) := do
  match (← get).shelf.find? bucket key with
  | some f =>
    modify fun s => { s with shelf := s.shelf.use f }
    return f.rules
  | none =>
    let content ← Action.ofChange fun s =>
      let (content, world) := store.read bucket key s.world
      (content, { s with world })
    let rules ← rulesOf bucket key content
    modify fun s => { s with shelf := s.shelf.use ⟨bucket, key, rules⟩ }
    return rules

def keyOf : Json → Checked String
  | .array _ => .error .wrongType
  | .object _ => .error .wrongType
  | v => .ok v.display

/-- The rules of a configuration: those of a file under those given inline, or one of both. -/
def resolve {ω : Type} (store : FileStore ω) (bucket : Option String) (inlineRules path : Json) :
    Action (RuleState ω) Json := do
  if path.isGiven then
    let bucket ← required .bucketUnset (bucket.filter (!·.isEmpty))
    let shared ← load store bucket (← keyOf path)
    if inlineRules.isGiven then return .object (← mergeRules shared (← inlineRules.settings))
    else return .object shared
  else if inlineRules.isGiven then return inlineRules
  else throw (.refused .noRules)

end RuleFile

end MetadataIndex
