import ComputeRelay.Json.Scalar

/-! Records as JSON: an object with known members in any order, or an array of their values in
the order in which the record declares them. -/

namespace ComputeRelay.Json

/-- The members a record declares, and whether others are refused or passed over. -/
structure Shape where
  fields : List String
  closed : Bool

/-- The values given for a record's members. -/
abbrev Slots := List (String × Json)

/-- The declared members of a written record. A member may not be written twice. -/
def Shape.slots? (shape : Shape) : Json → Option Slots
  | .object members =>
    let known := members.filter fun m => shape.fields.contains m.1
    if (shape.closed && known.length != members.length) || !(known.map (·.1)).Nodup then none
    else some known
  | .array items =>
    if items.length ≤ shape.fields.length then some (shape.fields.zip items) else none
  | _ => none

namespace Slots

def required? (slots : Slots) (name : String) (read : Json → Option α) : Option α :=
  (slots.lookup name).bind read

def optional? (slots : Slots) (name : String) (read : Json → Option α) (default : α) : Option α :=
  match slots.lookup name with
  | none => some default
  | some v => read v

end Slots

end ComputeRelay.Json
