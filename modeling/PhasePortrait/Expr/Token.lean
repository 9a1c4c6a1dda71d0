import PhasePortrait.Scalar

/-!
# Tokens of an equation

What the right-hand side of an equation is written with: numbers, the four names it is a function
of, five functions, and the symbols. A word that is none of the names is kept as it is, so that the
place where it is met can be reported.
-/

namespace PhasePortrait.Expr

/-- A name with a value: the point and the two parameters. -/
inductive Var where
  | x
  | y
  | a
  | b
deriving DecidableEq, Repr

/-- A function of one argument. -/
inductive Func where
  | sin
  | cos
  | tan
  | exp
  | sqrt
deriving DecidableEq, Repr

/-- An operator or a parenthesis. -/
inductive Symbol where
  | plus
  | minus
  | times
  | divide
  | power
  | opening
  | closing
deriving DecidableEq, Repr

/-- A token. -/
inductive Token (α : Type) where
  | number (value : α)
  | var (v : Var)
  | func (f : Func)
  | symbol (s : Symbol)
  | unknown (word : String)
deriving DecidableEq

namespace Var

/-- The name as it is written. -/
def name : Var → String
  | x => "x"
  | y => "y"
  | a => "a"
  | b => "b"

/-- All of them. -/
def all : List Var := [x, y, a, b]

end Var

namespace Func

/-- The name as it is written. -/
def name : Func → String
  | sin => "sin"
  | cos => "cos"
  | tan => "tan"
  | exp => "exp"
  | sqrt => "sqrt"

/-- All of them. -/
def all : List Func := [sin, cos, tan, exp, sqrt]

/-- The value at an argument. -/
def apply {α : Type} [Scalar α] [Elementary α] : Func → α → α
  | sin, v => Elementary.sin v
  | cos, v => Elementary.cos v
  | tan, v => Elementary.tan v
  | exp, v => Elementary.exp v
  | sqrt, v => Scalar.sqrt v

end Func

namespace Symbol

/-- The character it is written with. -/
def char : Symbol → Char
  | plus => '+'
  | minus => '-'
  | times => '*'
  | divide => '/'
  | power => '^'
  | opening => '('
  | closing => ')'

/-- All of them. -/
def all : List Symbol := [plus, minus, times, divide, power, opening, closing]

/-- The symbol that a character is. -/
def ofChar? (c : Char) : Option Symbol := all.find? fun s => s.char == c

end Symbol

namespace Token

variable {α : Type}

/-- The token that a word is: a name, a function, or unknown. -/
def ofWord (word : String) : Token α :=
  match Var.all.find? fun v => v.name == word with
  | some v => var v
  | none =>
    match Func.all.find? fun f => f.name == word with
    | some f => func f
    | none => unknown word

/-- The text of a token. -/
def text [Numeral α] : Token α → String
  | number value => Numeral.text value
  | var v => v.name
  | func f => f.name
  | symbol s => String.singleton s.char
  | unknown word => word

end Token

end PhasePortrait.Expr
