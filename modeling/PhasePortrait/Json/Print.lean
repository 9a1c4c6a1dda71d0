import PhasePortrait.Decimal.Shortest
import PhasePortrait.Json.Basic
import PhasePortrait.Text.Hex

/-!
# Writing JSON

Two layouts: compact, without any blank, and pretty, with one member or item per line and two spaces
per level. A binary64 number always shows that it is one: by a point, or from `10 ^ 16` on and below
`10 ^ -5` by an exponent with its sign. A value that is not finite is written `null`.
-/

namespace PhasePortrait.Json

/-- The text of a finite positive decimal: positional where the point stands near the digits. -/
def decimalText (d : Decimal) : String :=
  let shift := d.point - 1
  if -5 ≤ shift ∧ shift < 16 then
    let text := d.plain
    if 0 ≤ d.exponent then text ++ ".0" else text
  else
    let mark := if 0 ≤ shift then "e+" else "e"
    String.ofList (Decimal.pointAfter 1 d.digitChars) ++ mark ++ toString shift

/-- The text of a binary64 number. -/
def realText (x : Float) : String :=
  if x.isFinite then
    let p := Binary64.parts x
    (if p.negative then "-" else "") ++ decimalText (Decimal.shortest .even p)
  else "null"

/-- The text of a number. -/
def Number.text : Number → String
  | natural n => toString n
  | negative n => "-" ++ toString n
  | real x => realText x

/-- How a character is written inside a string: a quote, a backslash and the control characters are
escaped. -/
def letterText (c : Char) : List Char :=
  if c = '"' then ['\\', '"']
  else if c = '\\' then ['\\', '\\']
  else if c = '\n' then ['\\', 'n']
  else if c = '\r' then ['\\', 'r']
  else if c = '\t' then ['\\', 't']
  else if c = '\x08' then ['\\', 'b']
  else if c = '\x0c' then ['\\', 'f']
  else if c < ' ' then ['\\', 'u', '0', '0'] ++ Text.hexPair c.toNat
  else [c]

/-- A string between its quotes. -/
def quote (s : String) : String := String.ofList ('"' :: s.toList.flatMap letterText ++ ['"'])

/-- The pieces joined by a separator. -/
def joined (separator : String) (pieces : List String) : String :=
  String.intercalate separator pieces

mutual

/-- The text of a value without blanks. -/
def compact : Json → String
  | null => "null"
  | bool b => if b then "true" else "false"
  | number n => n.text
  | string s => quote s
  | array items => "[" ++ joined "," (compactItems items) ++ "]"
  | object members => "\x7b" ++ joined "," (compactMembers members) ++ "\x7d"

/-- The texts of items. -/
def compactItems : List Json → List String
  | [] => []
  | item :: rest => compact item :: compactItems rest

/-- The texts of members. -/
def compactMembers : List (String × Json) → List String
  | [] => []
  | (key, value) :: rest => (quote key ++ ":" ++ compact value) :: compactMembers rest

end

/-- The start of a line at a level. -/
def margin (level : Nat) : String := String.ofList ('\n' :: List.replicate (2 * level) ' ')

mutual

/-- The text of a value whose closing bracket stands at a level. -/
def prettyAt (level : Nat) : Json → String
  | null => "null"
  | bool b => if b then "true" else "false"
  | number n => n.text
  | string s => quote s
  | array [] => "[]"
  | array items =>
    "[" ++ joined "," (prettyItems (level + 1) items) ++ margin level ++ "]"
  | object [] => "\x7b\x7d"
  | object members =>
    "\x7b" ++ joined "," (prettyMembers (level + 1) members) ++ margin level ++ "\x7d"

/-- The lines of items. -/
def prettyItems (level : Nat) : List Json → List String
  | [] => []
  | item :: rest => (margin level ++ prettyAt level item) :: prettyItems level rest

/-- The lines of members. -/
def prettyMembers (level : Nat) : List (String × Json) → List String
  | [] => []
  | (key, value) :: rest =>
    (margin level ++ quote key ++ ": " ++ prettyAt level value) :: prettyMembers level rest

end

/-- The text of a value over several lines. -/
def pretty (value : Json) : String := prettyAt 0 value

end PhasePortrait.Json
