import MetadataIndex.Rule.Entity
import MetadataIndex.Value.Replacement
import MetadataIndex.Value.Length
import MetadataIndex.Value.NonSort
import MetadataIndex.Geo.Basic

/-!
# Field rules

A rule is one way of producing values for an index field: from a constant, from the text that
expressions select, or from grouped records. A rule set maps field names to their rules in order.
-/

set_option autoImplicit false

namespace MetadataIndex

/-- An expression with the texts around its values. -/
structure XPathSource where
  xpath : String
  leading : String := ""
  trailing : String := ""
deriving DecidableEq, Repr

/-- Which matches give values. -/
inductive NodeScope where
  | first
  | all
deriving DecidableEq, Repr

/-- Whether the blocks of the children are searched. -/
inductive ChildScope where
  | none
  | all
deriving DecidableEq, Repr

/-- Which ancestors are searched. -/
inductive ParentScope where
  | none
  | first
  | all
deriving DecidableEq, Repr

/-- The steps that every value of a rule goes through. -/
structure ValuePipeline where
  replaceRules : List ReplaceRule := []
  oneToken : Bool := false
  splittingCharacter : Option Json := none
  lowercase : Bool := false
  normalizers : List Normalizer := []
  nonSort : List NonSort := []

/-- One configured way of producing values for an index field. -/
structure FieldRule where
  field : String
  sources : List XPathSource := []
  node : NodeScope := .all
  child : ChildScope := .none
  parents : ParentScope := .none
  constant : Option String := none
  valuePostfix : String := ""
  oneField : Bool := false
  oneFieldSeparator : String := " "
  addSortField : Bool := false
  allowDuplicates : Bool := false
  addToDefault : Bool := false
  /-- A copy that is not cut into words is written. -/
  addUntokenized : Bool := true
  normalizeYear : Bool := false
  /-- The number of digits that make a bare number a year. -/
  yearDigits : Int := 3
  yearField : Option Json := none
  interpolateYears : Bool := false
  geoSource : Option String := none
  geoSeparator : String := " "
  addGeoSearchField : Bool := false
  /-- The keys of authority records whose values go into the free text. -/
  authorityDefaults : List Json := []
  pipeline : ValuePipeline := {}
  group : Option GroupEntity := none

namespace FieldRule

def isGrouped (r : FieldRule) : Bool := r.group.isSome

/-- Whether the first value that is written ends the rule. -/
def stopsAfterFirst (r : FieldRule) : Bool := r.node == .first

end FieldRule

/-- The rules of each field and the namespaces their expressions use. -/
structure RuleSet where
  /-- The fields in order, each with its rules in order. -/
  fields : List (String × List FieldRule) := []
  namespaces : List (String × String) := []

namespace RuleSet

def names (s : RuleSet) : List String := s.fields.map (·.1)

def rulesFor (s : RuleSet) (name : String) : List FieldRule :=
  (lookup? name s.fields).getD []

end RuleSet

end MetadataIndex
