import Annals.Json.Basic

/-!
# Records in JSON

A record is written as an object with one member for each of its fields, and read from an object or
from an array of the fields' values in order. Members with other keys are passed over whatever they
hold; a field that is given twice is a fault.
-/

namespace Annals.Json

/-- Notes the value of a field, unless it already has one. A key that names no field notes nothing. -/
def noteField (key : String) (value : Json) :
    List (String × Option Json) → Option (List (String × Option Json))
  | [] => some []
  | (name, noted) :: fields =>
    if name = key then
      match noted with
      | none => some ((name, some value) :: fields)
      | some _ => none
    else (noteField key value fields).map ((name, noted) :: ·)

def noteMember (fields : List (String × Option Json)) (member : Bytes × Json) :
    Option (List (String × Option Json)) := do
  let key ← textOf? member.1
  noteField key member.2 fields

/-- The values given for the fields of these names, in the order of the names. -/
def fields? (names : List String) : Json → Option (List (Option Json))
  | .object members => do
    let fields ← members.foldlM noteMember (names.map fun name => (name, none))
    some (fields.map Prod.snd)
  | .array items =>
    if items.length ≤ names.length then
      some (items.map some ++ List.replicate (names.length - items.length) none)
    else none
  | _ => none

def record? (names : List String) (value : Json) : Option (List Json) := do
  let fields ← fields? names value
  fields.mapM id

end Annals.Json
