import MetadataIndex.Value.Roman
import MetadataIndex.Json.Setting
import MetadataIndex.Pattern.Parser
import MetadataIndex.Pattern.Template

/-!
# Values of fixed length

A normalizer brings a value, or the parts of it that a pattern selects, to a fixed length by
padding or cutting at one end. Parts that are roman numerals may be written in digits instead.
-/

set_option autoImplicit false

namespace MetadataIndex

/-- The end of a value at which it is padded or cut. -/
inductive Side where
  | front
  | rear
deriving DecidableEq, Repr

/-- The side a setting names; the front unless it names the rear. -/
def Side.ofJson (v : Json) : Checked Side :=
  if v.isGiven then
    match v with
    | .text s => .ok (if ["rear", "back"].contains (Text.lower s) then .rear else .front)
    | _ => .error .missingPart
  else .ok .front

/-- How a value is brought to a fixed length. -/
structure Normalizer where
  length : Nat
  filler : Char := '0'
  side : Side := .front
  /-- The pattern of the relevant part; its groups are the relevant parts if it has any. -/
  relevantPart : Option Json := none
  convertRoman : Bool := false
  length_pos : 0 < length := by decide

namespace Normalizer

def resize (n : Normalizer) (cs : List Char) : List Char :=
  let padding := List.replicate (n.length - cs.length) n.filler
  match n.side with
  | .front => padding ++ cs.drop (cs.length - n.length)
  | .rear => cs.take n.length ++ padding

@[simp] theorem length_resize (n : Normalizer) (cs : List Char) :
    (n.resize cs).length = n.length := by
  cases h : n.side <;> simp [resize, h] <;> omega

theorem resize_of_length_eq {n : Normalizer} {cs : List Char} (h : cs.length = n.length) :
    n.resize cs = cs := by
  cases hs : n.side <;> simp only [resize, hs, h, Nat.sub_self, List.replicate_zero,
    List.drop_zero, List.nil_append, List.append_nil, List.take_of_length_le (Nat.le_of_eq h)]

/-- The greatest number of characters that a text can be filled up with. -/
def fillLimit : Nat := 9223372036854775807

def part (n : Normalizer) (cs : List Char) : Checked (List Char) :=
  if n.convertRoman && Roman.isNumeral (String.ofList cs) then
    (Roman.value (String.ofList cs)).map fun value => (toString value).toList
  else if n.length - cs.length ≤ fillLimit then .ok (n.resize cs)
  else .error .overflow

/-- Whether a span comes before another when parts are replaced from the right. -/
def laterFirst (a b : Pattern.Span) : Bool :=
  b.1 < a.1 || (b.1 == a.1 && b.2 ≤ a.2)

def relevantSpans (m : Pattern.Match) : List Pattern.Span :=
  if m.spans.isEmpty then [m.whole]
  else (m.spans.toList.filterMap id).mergeSort laterFirst

/-- Puts the normal forms of the parts of `value` that the spans select in their places; the offsets
are those of `value`. -/
def replaceSpans (n : Normalizer) (value : List Char) :
    List Char → List Pattern.Span → Checked (List Char)
  | result, [] => .ok result
  | result, span :: more => do
    let normal ← n.part (Pattern.part value span)
    n.replaceSpans value (result.take span.1 ++ normal ++ result.drop span.2) more

/-- Normalizes a value. A pattern that cannot be read, or that matches nowhere, leaves the value as
it is. -/
def normalize (n : Normalizer) (value : String) : Checked String := do
  match n.relevantPart with
  | none => return String.ofList (← n.part value.toList)
  | some setting =>
    match Pattern.Regex.ofText (← setting.asText) with
    | .error problem =>
      match problem.fault? with
      | some fault => .error fault
      | none => return value
    | .ok regex =>
      match regex.search value.toList with
      | none => return value
      | some m =>
        return String.ofList (← n.replaceSpans value.toList value.toList (relevantSpans m))

def lengthOfJson (v : Json) : Checked Int :=
  match v.toInt with
  | .error .overflow => .error .overflow
  | .error _ => refuse (.malformedLength v.display)
  | .ok n => .ok n

def ofJson (config : Json) : Checked Normalizer := do
  let members ← config.settings
  let length ← lengthOfJson ((lookup? "length" members).getD (.int 0))
  if h : 0 < length.toNat then
    let side ← Side.ofJson (Json.setting members "position")
    let filler := Json.setting members "filler"
    return {
      length := length.toNat
      filler := (filler.displayIfGiven.toList.head?).getD '0'
      side
      relevantPart := (Json.setting members "relevant_part_regex").given?
      convertRoman := (Json.setting members "convert_roman").isGiven
      length_pos := h }
  else refuse (.lengthNotPositive length)

end Normalizer

end MetadataIndex
