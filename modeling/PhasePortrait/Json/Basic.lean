import PhasePortrait.Binary64.Basic

/-!
# JSON values

The free part of a configuration, and everything the program reports in a structured form. A number
keeps the kind it was written in: whole numbers of 64 bits stay whole numbers, all others are
binary64. An object holds its members in the order of their names, each name once.
-/

namespace PhasePortrait

/-- A number of a JSON value. -/
inductive Json.Number where
  /-- A whole number that is not negative, below `2 ^ 64`. -/
  | natural (n : Nat)
  /-- The negative of a whole number from `1` to `2 ^ 63`. -/
  | negative (n : Nat)
  /-- Any other finite number. -/
  | real (x : Float)

/-- A JSON value. -/
inductive Json where
  | null
  | bool (b : Bool)
  | number (n : Json.Number)
  | string (s : String)
  | array (items : List Json)
  | object (members : List (String × Json))

namespace Json

/-- The number as a binary64 value. -/
def Number.toFloat : Number → Float
  | natural n => Float.ofNat n
  | negative n => -Float.ofNat n
  | real x => x

/-- Numbers are the same if they are of one kind and equal there: `1` and `1.0` differ. -/
def Number.same : Number → Number → Bool
  | natural m, natural n => m == n
  | negative m, negative n => m == n
  | real x, real y => x == y
  | _, _ => false

mutual

/-- Equality of values, by the equality of numbers. -/
def same : Json → Json → Bool
  | null, null => true
  | bool a, bool b => a == b
  | number a, number b => a.same b
  | string a, string b => a == b
  | array xs, array ys => sameItems xs ys
  | object xs, object ys => sameMembers xs ys
  | _, _ => false

/-- Equality of lists of values. -/
def sameItems : List Json → List Json → Bool
  | [], [] => true
  | x :: xs, y :: ys => same x y && sameItems xs ys
  | _, _ => false

/-- Equality of lists of members. -/
def sameMembers : List (String × Json) → List (String × Json) → Bool
  | [], [] => true
  | (k, x) :: xs, (l, y) :: ys => k == l && same x y && sameMembers xs ys
  | _, _ => false

end

/-- A whole number that is not negative. -/
def natural (n : Nat) : Json := number (.natural n)

/-- A binary64 number. -/
def real (x : Float) : Json := number (.real x)

/-- The members with one more, which replaces a member of the same name. -/
def put (key : String) (value : Json) : List (String × Json) → List (String × Json)
  | [] => [(key, value)]
  | (k, v) :: rest =>
    if key = k then (key, value) :: rest
    else if key < k then (key, value) :: (k, v) :: rest
    else (k, v) :: put key value rest

/-- The members of `more` put on top of `members`; of several of one name the last counts. -/
def putAll (members more : List (String × Json)) : List (String × Json) :=
  more.foldl (fun acc m => put m.1 m.2 acc) members

/-- The object of the given members, in any order. -/
def ofMembers (members : List (String × Json)) : Json := object (putAll [] members)

/-- The member of a name. A value that is no object has no members. -/
def get? (key : String) : Json → Option Json
  | object members => (members.find? fun m => m.1 == key).map (·.2)
  | _ => none

/-- Whether the value is `null`. -/
def isNull : Json → Bool
  | null => true
  | _ => false

/-- Whether the value is an object. -/
def isObject : Json → Bool
  | object _ => true
  | _ => false

/-- The value of a number of any kind. -/
def toFloat? : Json → Option Float
  | number n => some n.toFloat
  | _ => none

/-- The value of a whole number that is not negative. -/
def toNat? : Json → Option Nat
  | number (.natural n) => some n
  | _ => none

end Json

end PhasePortrait
