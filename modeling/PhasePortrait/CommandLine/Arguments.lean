/-!
# Arguments

The words of a command line as options and an operand. An option is given by its long name behind
two hyphens or by one letter behind one hyphen; its value follows as the next word, or in the same
word, behind the letter or an equals sign. Letters may be joined behind one hyphen as long as they
take no value. Each option may be given once. Behind a lone `--` every word is an operand.

A word that starts with a hyphen is read as options, unless a value is awaited or the operand is
still missing that may start with a hyphen itself.
-/

namespace PhasePortrait.CommandLine

/-- Which values that start with a hyphen are taken. -/
inductive Hyphens where
  /-- None. -/
  | no
  /-- Negative numbers. -/
  | numbers
  /-- All. -/
  | any
deriving DecidableEq

/-- What a value may be. -/
structure ValueKind where
  hyphens : Hyphens
  accepts : String → Bool

/-- An option. One without a kind of value is a flag. -/
structure Opt where
  long : Option String
  short : Option Char
  value : Option ValueKind

/-- What an option is known by: its long name, or its letter if it has none. -/
def Opt.key (o : Opt) : String :=
  match o.long, o.short with
  | some name, _ => name
  | none, some letter => String.singleton letter
  | none, none => ""

/-- The arguments that a command takes. -/
structure Usage where
  options : List Opt
  operand : Option ValueKind

/-- Why the words are not read to their end. -/
inductive Stop where
  /-- They are not what the command takes. -/
  | misuse
  /-- They ask for help. -/
  | help
deriving DecidableEq, Repr

/-- What the words have given so far. -/
structure Arguments where
  /-- The options by their keys, with their values; that of a flag is empty. -/
  given : List (String × String)
  operand : Option String
  /-- The option whose value is awaited. -/
  pending : Option Opt
  /-- Whether only operands follow. -/
  operandsOnly : Bool

namespace Arguments

/-- Nothing is given. -/
def none : Arguments := ⟨[], .none, .none, false⟩

/-- The value of an option. -/
def value? (a : Arguments) (key : String) : Option String :=
  (a.given.find? fun g => g.1 == key).map (·.2)

/-- Whether a flag or an option is given. -/
def has (a : Arguments) (key : String) : Bool := (a.value? key).isSome

/-- No value may be awaited. -/
def settled (a : Arguments) : Except Stop Arguments :=
  if a.pending.isSome then .error .misuse else .ok a

/-- Gives an option that is not given yet. -/
def give (a : Arguments) (o : Opt) (value : String) : Except Stop Arguments := do
  let a ← a.settled
  if a.has o.key then .error .misuse
  else
    match o.value with
    | some kind =>
      if kind.accepts value then .ok { a with given := (o.key, value) :: a.given }
      else .error .misuse
    | .none => .ok { a with given := (o.key, value) :: a.given }

/-- Awaits the value of an option. -/
def await (a : Arguments) (o : Opt) : Except Stop Arguments := do
  return { ← a.settled with pending := some o }

/-- Asks for help. -/
def askHelp (a : Arguments) : Except Stop Arguments := do
  let _ ← a.settled
  .error .help

/-- Takes a word as the operand. -/
def takeOperand (u : Usage) (a : Arguments) (word : String) : Except Stop Arguments := do
  let a ← a.settled
  match u.operand, a.operand with
  | some kind, .none =>
    if kind.accepts word then .ok { a with operand := some word } else .error .misuse
  | _, _ => .error .misuse

/-- Takes a word as the value that is awaited, or else as the operand. -/
def takeWord (u : Usage) (a : Arguments) (word : String) : Except Stop Arguments :=
  match a.pending with
  | some o => { a with pending := .none }.give o word
  | .none => takeOperand u a word

/-- Whether the operand is missing and may start with a hyphen. -/
def operandMayHyphen (u : Usage) (a : Arguments) : Bool :=
  a.operand.isNone && (u.operand.map fun kind => decide (kind.hyphens = .any)).getD false

/-- Whether a value is awaited that may start with a hyphen. -/
def awaitsHyphens (a : Arguments) : Bool :=
  ((a.pending.bind Opt.value).map fun kind => decide (kind.hyphens = .any)).getD false

/-- Whether a value is awaited that may be a negative number. -/
def awaitsNumber (a : Arguments) : Bool :=
  ((a.pending.bind Opt.value).map fun kind => decide (kind.hyphens = .numbers)).getD false

/-- Whether a letter marks an exponent. -/
def isExponentMark (letter : Char) : Bool := letter == 'e' || letter == 'E'

/-- Whether letters look like a number: digits, with one point behind the first and one exponent
mark behind that, which stands neither first nor last and is not followed by a sign. -/
def looksLikeNumber (letters : List Char) : Bool :=
  let isTail (tail : List Char) : Bool :=
    match tail with
    | [] => true
    | mark :: digits => isExponentMark mark && !digits.isEmpty && digits.all Char.isDigit
  match letters with
  | [] => true
  | first :: rest =>
    first.isDigit &&
      match rest.dropWhile Char.isDigit with
      | '.' :: rest => isTail (rest.dropWhile Char.isDigit)
      | rest => isTail rest

/-- The option of a letter. -/
def short? (u : Usage) (letter : Char) : Option Opt :=
  u.options.find? fun o => o.short == some letter

/-- The option of a long name. -/
def long? (u : Usage) (name : String) : Option Opt :=
  u.options.find? fun o => o.long == some name

/-- Whether a letter is an option or asks for help. -/
def isLetter (u : Usage) (letter : Char) : Bool := letter == 'h' || (short? u letter).isSome

/-- Letters behind one hyphen. The first one that takes a value takes the rest, if there is any. -/
def takeLetters (u : Usage) (a : Arguments) : List Char → Except Stop Arguments
  | [] => .ok a
  | letter :: rest =>
    match short? u letter with
    | some o =>
      if o.value.isNone then do takeLetters u (← a.give o "") rest
      else
        match rest with
        | [] => a.await o
        | '=' :: value => a.give o (String.ofList value)
        | value => a.give o (String.ofList value)
    | .none => if letter == 'h' then a.askHelp else .error .misuse

/-- What stands before the first equals sign, and what behind it. -/
def splitEquals (letters : List Char) : String × Option String :=
  let name := String.ofList (letters.takeWhile (· != '='))
  match letters.dropWhile (· != '=') with
  | [] => (name, .none)
  | _ :: value => (name, some (String.ofList value))

/-- A word behind two hyphens. -/
def takeLong (u : Usage) (a : Arguments) (word : String) (letters : List Char) :
    Except Stop Arguments :=
  let (name, value) := splitEquals letters
  match long? u name with
  | some o =>
    match o.value, value with
    | some _, some value => a.give o value
    | some _, .none => a.await o
    | .none, .none => a.give o ""
    | .none, some _ => .error .misuse
  | .none =>
    if name == "help" then if value.isNone then a.askHelp else .error .misuse
    else if a.operandMayHyphen u then takeWord u a word
    else .error .misuse

/-- One word more. -/
def take (u : Usage) (a : Arguments) (word : String) : Except Stop Arguments :=
  if a.operandsOnly then takeOperand u a word
  else
    match word.toList with
    | ['-', '-'] =>
      if a.awaitsHyphens then takeWord u a word else .ok { a with operandsOnly := true }
    | '-' :: '-' :: letters =>
      if a.awaitsHyphens then takeWord u a word else takeLong u a word letters
    | '-' :: letter :: letters =>
      let letters := letter :: letters
      if a.awaitsHyphens || (a.awaitsNumber && looksLikeNumber letters) then takeWord u a word
      else if a.operandMayHyphen u && letters.any fun c => !isLetter u c then takeWord u a word
      else takeLetters u a letters
    | _ => takeWord u a word

/-- All words. An operand that the command takes must be given. -/
def ofWords (u : Usage) (words : List String) : Except Stop Arguments := do
  let a ← words.foldlM (take u) none
  let a ← a.settled
  if u.operand.isSome && a.operand.isNone then .error .misuse else .ok a

end Arguments

end PhasePortrait.CommandLine
