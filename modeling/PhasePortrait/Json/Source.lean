import PhasePortrait.Json.Literal
import PhasePortrait.Text.Hex

/-!
# JSON texts

A text is read in two steps. The first finds its shape: what is a string, a number, an array, an
object, with the members of an object in the order of the text and nothing checked that the shape
does not show. The second makes a value of a shape, and refuses what no value has: a number beyond
the largest binary64 one, half of a surrogate pair, a nesting beyond a limit.

The steps are apart because a record reads a member that it does not know for its shape only.
-/

namespace PhasePortrait.Json

/-- One character of a string as it is written: itself, or a 16-bit code after `\u`. -/
inductive Source.Letter where
  | char (c : Char)
  | code (unit : Nat)

/-- The shape of a JSON text. -/
inductive Source where
  | null
  | bool (b : Bool)
  | number (n : Literal)
  | string (letters : List Source.Letter)
  | array (items : List Source)
  | object (members : List (List Source.Letter × Source))

namespace Source

/-! ## From a text to its shape -/

/-- Whether a character may stand between the parts of a text. -/
def isBlank (c : Char) : Bool := c == ' ' || c == '\n' || c == '\t' || c == '\r'

/-- The text without the blanks at its start. -/
def skipBlanks (text : List Char) : List Char := text.dropWhile isBlank

/-- The code of four hexadecimal digits. -/
def code? (a b c d : Char) : Option Nat := do
  let high := 16 * (← Text.hexDigit? a) + (← Text.hexDigit? b)
  let low := 16 * (← Text.hexDigit? c) + (← Text.hexDigit? d)
  return 256 * high + low

/-- The character that an escape of one letter stands for. -/
def escape? : Char → Option Char
  | '"' => some '"'
  | '\\' => some '\\'
  | '/' => some '/'
  | 'b' => some '\x08'
  | 'f' => some '\x0c'
  | 'n' => some '\n'
  | 'r' => some '\r'
  | 't' => some '\t'
  | _ => none

/-- The letters of a string whose opening quote has been read, and the text after the closing one.
A control character must be escaped. -/
def letters? (before : List Letter) : List Char → Option (List Letter × List Char)
  | [] => none
  | '"' :: rest => some (before.reverse, rest)
  | '\\' :: 'u' :: a :: b :: c :: d :: rest => do
    letters? (.code (← code? a b c d) :: before) rest
  | '\\' :: c :: rest => do letters? (.char (← escape? c) :: before) rest
  | c :: rest => if c < ' ' then none else letters? (.char c :: before) rest

/-- At least one digit, and the text after the last one. -/
def digits? (text : List Char) : Option (List Char × List Char) :=
  match text.takeWhile Char.isDigit with
  | [] => none
  | digits => some (digits, text.dropWhile Char.isDigit)

/-- The digits of the whole part: a zero stands alone. -/
def whole? : List Char → Option (List Char × List Char)
  | '0' :: c :: rest => if c.isDigit then none else some (['0'], c :: rest)
  | text => digits? text

/-- The digits after a point, if there is one. -/
def fraction? : List Char → Option (List Char × List Char)
  | '.' :: rest => digits? rest
  | text => some ([], text)

/-- The exponent after its mark, if there is one. -/
def exponent? : List Char → Option (Option Int × List Char)
  | [] => some (none, [])
  | mark :: rest =>
    if mark == 'e' || mark == 'E' then do
      let (negative, text) := Binary64.takeSign rest
      let (digits, rest) ← digits? text
      let size := (Binary64.digitsValue digits : Int)
      return (some (if negative then -size else size), rest)
    else some (none, mark :: rest)

/-- A number, and the text after it. -/
def number? (text : List Char) : Option (Source × List Char) := do
  let (negative, text) := match text with
    | '-' :: rest => (true, rest)
    | text => (false, text)
  let (whole, text) ← whole? text
  let (fraction, text) ← fraction? text
  let (exponent, text) ← exponent? text
  return (.number { negative, whole, fraction, exponent }, text)

mutual

/-- The shape of a value that starts after blanks, and the text after it. The first argument bounds
the characters read. -/
def value? : Nat → List Char → Option (Source × List Char)
  | 0, _ => none
  | fuel + 1, text =>
    match skipBlanks text with
    | 'n' :: 'u' :: 'l' :: 'l' :: rest => some (.null, rest)
    | 't' :: 'r' :: 'u' :: 'e' :: rest => some (.bool true, rest)
    | 'f' :: 'a' :: 'l' :: 's' :: 'e' :: rest => some (.bool false, rest)
    | '"' :: rest => (letters? [] rest).map fun (letters, rest) => (.string letters, rest)
    | '[' :: rest =>
      match skipBlanks rest with
      | ']' :: rest => some (.array [], rest)
      | _ => items? fuel [] rest
    | '\x7b' :: rest =>
      match skipBlanks rest with
      | '\x7d' :: rest => some (.object [], rest)
      | _ => members? fuel [] rest
    | text => number? text

/-- The items of an array from one of them on, and the text after the bracket. -/
def items? : Nat → List Source → List Char → Option (Source × List Char)
  | 0, _, _ => none
  | fuel + 1, before, text => do
    let (item, text) ← value? fuel text
    match skipBlanks text with
    | ',' :: rest => items? fuel (item :: before) rest
    | ']' :: rest => return (.array (item :: before).reverse, rest)
    | _ => none

/-- The members of an object from one of them on, and the text after the brace. -/
def members? : Nat → List (List Letter × Source) → List Char → Option (Source × List Char)
  | 0, _, _ => none
  | fuel + 1, before, text =>
    match skipBlanks text with
    | '"' :: rest => do
      let (name, rest) ← letters? [] rest
      match skipBlanks rest with
      | ':' :: rest =>
        let (value, rest) ← value? fuel rest
        match skipBlanks rest with
        | ',' :: rest => members? fuel ((name, value) :: before) rest
        | '\x7d' :: rest => return (.object ((name, value) :: before).reverse, rest)
        | _ => none
      | _ => none
    | _ => none

end

/-- The shape of a whole text, which holds one value and blanks around it. -/
def ofText? (text : String) : Option Source := do
  let letters := text.toList
  let (source, rest) ← value? (2 * letters.length + 1) letters
  if (skipBlanks rest).isEmpty then return source else none

/-! ## From a shape to a value -/

/-- The characters of written letters. Two codes that are the halves of a surrogate pair stand for
one character; a half alone stands for none. -/
def text? : List Letter → Option (List Char)
  | [] => some []
  | .char c :: rest => (text? rest).map (c :: ·)
  | .code high :: .code low :: rest =>
    if 0xD800 ≤ high ∧ high < 0xDC00 then
      if 0xDC00 ≤ low ∧ low < 0xE000 then
        (text? rest).map (Char.ofNat (0x10000 + (high - 0xD800) * 0x400 + (low - 0xDC00)) :: ·)
      else none
    else if 0xDC00 ≤ high ∧ high < 0xE000 then none
    else (text? (.code low :: rest)).map (Char.ofNat high :: ·)
  | .code unit :: rest =>
    if 0xD800 ≤ unit ∧ unit < 0xE000 then none else (text? rest).map (Char.ofNat unit :: ·)

/-- The string of written letters. -/
def string? (letters : List Letter) : Option String := (text? letters).map String.ofList

mutual

/-- The value of a shape in which fewer than `depth` arrays and objects are inside one another. -/
def toJson? (depth : Nat) : Source → Option Json
  | null => some .null
  | bool b => some (.bool b)
  | number n => n.number?.map .number
  | string letters => (string? letters).map .string
  | array items => if depth ≤ 1 then none else (toItems? (depth - 1) items).map .array
  | object members => if depth ≤ 1 then none else (toMembers? (depth - 1) members).map .ofMembers

/-- The values of a list of shapes. -/
def toItems? (depth : Nat) : List Source → Option (List Json)
  | [] => some []
  | item :: rest => do
    let item ← toJson? depth item
    let rest ← toItems? depth rest
    return item :: rest

/-- The members of a list of named shapes. -/
def toMembers? (depth : Nat) : List (List Letter × Source) → Option (List (String × Json))
  | [] => some []
  | (name, value) :: rest => do
    let name ← string? name
    let value ← toJson? depth value
    let rest ← toMembers? depth rest
    return (name, value) :: rest

end

/-- One more than the number of arrays and objects that may be inside one another. -/
def depthLimit : Nat := 128

end Source

/-- The value of a JSON text. -/
def ofText? (text : String) : Option Json := do
  (← Source.ofText? text).toJson? Source.depthLimit

end PhasePortrait.Json
