import MetadataIndex.Date.Reading

/-!
# Instants

A date field holds an instant of universal time. A text that is one already stays as it is; a date
with a time of day keeps its time; any other date becomes the midnight at which it starts.
-/

set_option autoImplicit false

namespace MetadataIndex.DateText

def isInstant (cs : List Char) : Bool :=
  (instant? cs).isSome && cs.getLast? == some 'Z'

/-- The instant of a date with time of day, as written. -/
def WrittenDate.instantText (w : WrittenDate) (t : WrittenTime) : String :=
  String.ofList (w.year ++ '-' :: w.month ++ '-' :: w.day.getD []
    ++ 'T' :: t.hour ++ ':' :: t.minute ++ ':' :: t.second.getD ['0', '0'] ++ ['Z'])

def midnight (d : PartialDate) : String :=
  PartialDate.padded 4 d.year ++ "-" ++ PartialDate.padded 2 (d.month.getD 1) ++ "-"
    ++ PartialDate.padded 2 (d.day.getD 1) ++ "T00:00:00Z"

/-- The date with time of day that a text is, as written. -/
def validLocal? (cs : List Char) : Checked (Option (WrittenDate × WrittenTime)) := do
  match localDateTime? cs with
  | none => return none
  | some w =>
    match ← w.date?, w.time with
    | some _, some t => return some (w, t)
    | _, _ => return none

/-- The instant of the first date in a text, or the empty text if there is none. -/
def toInstant (s : String) : Checked String := do
  let cs := (Text.trim s).toList
  if isInstant cs then return String.ofList cs
  else
    match ← validLocal? cs with
    | some (w, t) => return w.instantText t
    | none =>
      match ← read (String.ofList cs) 4 with
      | [] => return ""
      | date :: _ => return midnight date

end MetadataIndex.DateText
