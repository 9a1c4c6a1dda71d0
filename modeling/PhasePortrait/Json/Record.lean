import PhasePortrait.Json.Source

/-!
# Records in JSON

A record is written as an object with a member per field, in any order, or as an array of the values
of its first fields. A member that names no field is passed over; a field must not be given twice.
-/

namespace PhasePortrait.Json.Source

/-- The value given for a field: none, or the only one. -/
def field? (members : List (String × Source)) (name : String) : Option (Option Source) :=
  match members.filter fun m => m.1 == name with
  | [] => some none
  | [m] => some (some m.2)
  | _ => none

/-- What a text gives for each of the named fields of a record. -/
def fields? (names : List String) : Source → Option (List (Option Source))
  | array items =>
    if items.length ≤ names.length then
      some (items.map some ++ List.replicate (names.length - items.length) none)
    else none
  | object members => do
    let members ← members.mapM fun m => return (← string? m.1, m.2)
    names.mapM (field? members)
  | _ => none

/-- A whole number that is not negative. -/
def toNat? : Source → Option Nat
  | number n => do
    match ← n.number? with
    | .natural n => return n
    | _ => none
  | _ => none

/-- A number of any kind. -/
def toFloat? : Source → Option Float
  | number n => n.number?.map Number.toFloat
  | _ => none

/-- A truth value. -/
def toBool? : Source → Option Bool
  | bool b => some b
  | _ => none

/-- A string. -/
def toString? : Source → Option String
  | string letters => string? letters
  | _ => none

end PhasePortrait.Json.Source
