import PhasePortrait.Expr.Walk

/-!
# The grammar of equations

What an equation is, said without reading it: a syntax tree, the tokens it is written with (its
**yield**), how deep its factors are nested, and its value.

    expression := term (('+' | '-') term)*          grouped from the left
    term       := factor (('*' | '/') factor)*      grouped from the left
    factor     := base | base '^' factor | '-' factor | function factor
    base       := number | name | '(' expression ')'

A sign and a function stand with the factors and not with the bases. So the operand of either is a
whole factor with its power, and no power is ever that of a sign or of a call: `-x^2` can only be
the negative of a square.

Nothing here has a position, a level that runs out or an error that ends the reading. What the walk
makes of the yield of a tree is the subject of `PhasePortrait.Proofs.Expr.Reading`.
-/

namespace PhasePortrait.Expr.Tree

/-- The operators between terms. -/
inductive Additive where
  | plus
  | minus
deriving DecidableEq, Repr

/-- The operators between factors. -/
inductive Multiplicative where
  | times
  | divide
deriving DecidableEq, Repr

mutual

/-- A chain of terms. The last operator joins all that stands before it to the last term. -/
inductive Expression (α : Type) where
  | term (t : Term α)
  | chain (left : Expression α) (op : Additive) (right : Term α)

/-- A chain of factors, grouped like an expression. -/
inductive Term (α : Type) where
  | factor (f : Factor α)
  | chain (left : Term α) (op : Multiplicative) (right : Factor α)

/-- A base with or without a power, or a sign or a function before a whole factor. -/
inductive Factor (α : Type) where
  | base (b : Base α)
  | power (b : Base α) (exponent : Factor α)
  | negate (f : Factor α)
  | call (function : Func) (argument : Factor α)

/-- What a power may be raised from. -/
inductive Base (α : Type) where
  | number (value : α)
  | var (v : Var)
  | group (e : Expression α)

end

variable {α : Type}

/-! ## Yields -/

/-- The symbol that an operator between terms is written with. -/
def Additive.symbol : Additive → Symbol
  | plus => .plus
  | minus => .minus

/-- The symbol that an operator between factors is written with. -/
def Multiplicative.symbol : Multiplicative → Symbol
  | times => .times
  | divide => .divide

mutual

/-- The tokens that an expression is written with. -/
def Expression.yield : Expression α → List (Token α)
  | .term t => t.yield
  | .chain left op right => left.yield ++ .symbol op.symbol :: right.yield

/-- The tokens that a term is written with. -/
def Term.yield : Term α → List (Token α)
  | .factor f => f.yield
  | .chain left op right => left.yield ++ .symbol op.symbol :: right.yield

/-- The tokens that a factor is written with. A sign or a function stands before its operand. -/
def Factor.yield : Factor α → List (Token α)
  | .base b => b.yield
  | .power b exponent => b.yield ++ .symbol .power :: exponent.yield
  | .negate f => .symbol .minus :: f.yield
  | .call function argument => .func function :: argument.yield

/-- The tokens that a base is written with. Parentheses belong to a group and to nothing else. -/
def Base.yield : Base α → List (Token α)
  | .number value => [.number value]
  | .var v => [.var v]
  | .group e => .symbol .opening :: e.yield ++ [.symbol .closing]

end

mutual

/-- No factor is written without tokens, so there is always a first one to look at. -/
theorem Factor.yield_ne_nil : ∀ f : Factor α, f.yield ≠ []
  | .base b => b.yield_ne_nil
  | .power b exponent => by simp [Factor.yield]
  | .negate f => by simp [Factor.yield]
  | .call function argument => by simp [Factor.yield]

theorem Base.yield_ne_nil : ∀ b : Base α, b.yield ≠ []
  | .number value => by simp [Base.yield]
  | .var v => by simp [Base.yield]
  | .group e => by simp [Base.yield]

end

/-! ## Nesting

A number or a name by itself is one level deep. Parentheses, a sign, a function and an exponent each
put what they hold one level deeper. -/

mutual

/-- How deep the factors of an expression are nested. -/
def Expression.depth : Expression α → Nat
  | .term t => t.depth
  | .chain left _ right => max left.depth right.depth

/-- How deep the factors of a term are nested. -/
def Term.depth : Term α → Nat
  | .factor f => f.depth
  | .chain left _ right => max left.depth right.depth

/-- How deep the factors of a factor are nested, itself included. -/
def Factor.depth : Factor α → Nat
  | .base b => b.depth
  | .power b exponent => max b.depth (exponent.depth + 1)
  | .negate f => f.depth + 1
  | .call _ argument => argument.depth + 1

/-- How deep the factors of a base are nested, the factor it belongs to included. -/
def Base.depth : Base α → Nat
  | .number _ => 1
  | .var _ => 1
  | .group e => e.depth + 1

end

/-! ## Values -/

section Values

variable [Scalar α] [Elementary α]

/-- What an operator between terms does to two values. -/
def Additive.apply : Additive → α → α → α
  | plus, left, right => left + right
  | minus, left, right => left - right

/-- What an operator between factors does to two values. -/
def Multiplicative.apply : Multiplicative → α → α → α
  | times, left, right => left * right
  | divide, left, right => left / right

variable (bindings : Bindings α)

mutual

/-- The value of an expression. -/
def Expression.value : Expression α → α
  | .term t => t.value
  | .chain left op right => op.apply left.value right.value

/-- The value of a term, from the left. -/
def Term.value : Term α → α
  | .factor f => f.value
  | .chain left op right => op.apply left.value right.value

/-- The value of a factor. A sign and a function take the value of the whole factor behind them. -/
def Factor.value : Factor α → α
  | .base b => b.value
  | .power b exponent => Elementary.pow b.value exponent.value
  | .negate f => -f.value
  | .call function argument => function.apply argument.value

/-- The value of a base. A name has the value that it is bound to. -/
def Base.value : Base α → α
  | .number value => value
  | .var v => bindings.get v
  | .group e => e.value

end

mutual

/-- Every quotient of an expression is finite. -/
def Expression.QuotientsFinite : Expression α → Prop
  | .term t => t.QuotientsFinite
  | .chain left _ right => left.QuotientsFinite ∧ right.QuotientsFinite

/-- Every quotient of a term is finite, and so is the term itself where it is one. -/
def Term.QuotientsFinite : Term α → Prop
  | .factor f => f.QuotientsFinite
  | .chain left op right =>
    (left.QuotientsFinite ∧ right.QuotientsFinite) ∧
      (op = .divide → Scalar.isFinite (left.value bindings / right.value bindings))

/-- Every quotient inside a factor is finite. -/
def Factor.QuotientsFinite : Factor α → Prop
  | .base b => b.QuotientsFinite
  | .power b exponent => b.QuotientsFinite ∧ exponent.QuotientsFinite
  | .negate f => f.QuotientsFinite
  | .call _ argument => argument.QuotientsFinite

/-- Every quotient inside a base is finite. -/
def Base.QuotientsFinite : Base α → Prop
  | .number _ => True
  | .var _ => True
  | .group e => e.QuotientsFinite

end

end Values

end PhasePortrait.Expr.Tree
