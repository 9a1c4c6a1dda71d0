import PhasePortrait.Expr.Error

/-!
# Walking an equation

An equation is evaluated while its tokens are read, from left to right and with one token of
look-ahead:

- an expression is a chain of terms joined by `+` and `-`;
- a term is a chain of factors joined by `*` and `/`;
- a factor is a base, with `^` and a factor behind it or without;
- a base is a number, a name, an expression in parentheses, or a sign or function before a factor.

So chains group from the left and powers from the right, and a sign or a function takes a whole
factor, with its power: `-2^2` is `-4`.

A **production** reads at least one token whenever it succeeds. It carries that as a proof, and the
chains, which are the only loops, end by it. Nesting ends by the levels: a factor inside another has
one level less, and a factor without a level left is an error.

A quotient is checked where it is formed, before anything behind it is read.
-/

namespace PhasePortrait.Expr

variable {α : Type}

/-- The values of the four names. -/
structure Bindings (α : Type) where
  x : α
  y : α
  a : α
  b : α

/-- The value of a name. -/
def Bindings.get (bindings : Bindings α) : Var → α
  | .x => bindings.x
  | .y => bindings.y
  | .a => bindings.a
  | .b => bindings.b

/-- What reading from a list of tokens gives: a value and the tokens behind what was read. -/
abbrev Reading (α : Type) := Except Error (α × List (Token α))

/-- A reader that uses up at least one token when it succeeds. -/
structure Production (α : Type) where
  /-- Reads from the start of a list of tokens. -/
  run : List (Token α) → Reading α
  /-- Fewer tokens are left than there were. -/
  shorter : ∀ {tokens value rest}, run tokens = .ok (value, rest) → rest.length < tokens.length

/-- How the operators of a chain join two values; a symbol that is no operator of the chain joins
nothing. -/
abbrev Joining (α : Type) := Symbol → Option (α → α → Except Error α)

/-- Joins operands to a value, from the left, as long as operators of the chain follow. -/
def chain (join : Joining α) (operand : Production α) (left : α) (tokens : List (Token α)) :
    Reading α :=
  match tokens with
  | .symbol s :: after =>
    match join s with
    | none => .ok (left, .symbol s :: after)
    | some combine =>
      match _hrun : operand.run after with
      | .error e => .error e
      | .ok (right, rest) =>
        match combine left right with
        | .error e => .error e
        | .ok value => chain join operand value rest
  | tokens => .ok (left, tokens)
termination_by tokens.length
decreasing_by
  have := operand.shorter _hrun
  simp only [List.length_cons]
  omega

/-- A chain leaves no more tokens than it is given. -/
theorem chain_length_le (join : Joining α) (operand : Production α) {left : α}
    {tokens : List (Token α)} {value : α} {rest : List (Token α)}
    (h : chain join operand left tokens = .ok (value, rest)) : rest.length ≤ tokens.length := by
  fun_induction chain join operand left tokens with
  | case1 => cases h; exact Nat.le_refl _
  | case2 => cases h
  | case3 => cases h
  | case4 left s after combine hjoin right mid hrun value' hcombine ih =>
    have := operand.shorter hrun
    have := ih h
    simp only [List.length_cons]
    omega
  | case5 => cases h; exact Nat.le_refl _

namespace Production

/-- An operand, and what a chain joins to it. -/
def chained (operand : Production α) (join : Joining α) : Production α where
  run tokens :=
    match operand.run tokens with
    | .error e => .error e
    | .ok (left, rest) => chain join operand left rest
  shorter {tokens value rest} h := by
    split at h
    next => cases h
    next left mid hrun =>
      have := operand.shorter hrun
      have := chain_length_le join operand h
      omega

/-- A production that is made only when it is run. -/
def delayed (make : Unit → Production α) : Production α where
  run tokens := (make ()).run tokens
  shorter h := (make ()).shorter h

end Production

section Grammar

variable [Scalar α] [Elementary α] [Numeral α]

/-- The operators of an expression. -/
def joinSum : Joining α
  | .plus => some fun left right => .ok (left + right)
  | .minus => some fun left right => .ok (left - right)
  | _ => none

/-- The operators of a term. A quotient must be finite. -/
def joinProduct : Joining α
  | .times => some fun left right => .ok (left * right)
  | .divide => some fun left right =>
    if Scalar.isFinite (left / right) then .ok (left / right) else .error .divisionNotFinite
  | _ => none

/-- A term over given factors. -/
def term (factor : Production α) : Production α := factor.chained joinProduct

/-- An expression over given factors. -/
def expression (factor : Production α) : Production α := (term factor).chained joinSum

/-- What a base may be, over the factors that may stand inside it. -/
def readBase (bindings : Bindings α) (inner : Production α) : List (Token α) → Reading α
  | [] => .error .unexpectedEnd
  | .number value :: rest => .ok (value, rest)
  | .var v :: rest => .ok (bindings.get v, rest)
  | .func f :: [] => .error (.missingOperand f)
  | .func f :: rest =>
    match inner.run rest with
    | .error e => .error e
    | .ok (value, rest) => .ok (f.apply value, rest)
  | .symbol .opening :: rest =>
    match (expression inner).run rest with
    | .error e => .error e
    | .ok (value, .symbol .closing :: rest) => .ok (value, rest)
    | .ok _ => .error .mismatchedParentheses
  | .symbol .minus :: rest =>
    match inner.run rest with
    | .error e => .error e
    | .ok (value, rest) => .ok (-value, rest)
  | .symbol s :: _ => .error (.unexpectedToken (Token.text (.symbol s : Token α)))
  | .unknown word :: _ => .error (.unknownToken word)

/-- A base. -/
def base (bindings : Bindings α) (inner : Production α) : Production α where
  run := readBase bindings inner
  shorter {tokens value rest} h := by
    unfold readBase at h
    split at h
    case h_1 => cases h
    case h_2 => cases h; simp
    case h_3 => cases h; simp
    case h_4 => cases h
    case h_5 =>
      split at h
      next => cases h
      next hrun => cases h; have := inner.shorter hrun; simp only [List.length_cons]; omega
    case h_6 =>
      split at h
      next => cases h
      next hrun =>
        cases h
        have := (expression inner).shorter hrun
        simp only [List.length_cons] at this ⊢
        omega
      next => cases h
    case h_7 =>
      split at h
      next => cases h
      next hrun => cases h; have := inner.shorter hrun; simp only [List.length_cons]; omega
    case h_8 => cases h
    case h_9 => cases h

/-- A base, and its exponent if one follows. -/
def powered (base inner : Production α) : Production α where
  run tokens :=
    match base.run tokens with
    | .error e => .error e
    | .ok (value, .symbol .power :: rest) =>
      match inner.run rest with
      | .error e => .error e
      | .ok (exponent, rest) => .ok (Elementary.pow value exponent, rest)
    | .ok reading => .ok reading
  shorter {tokens value rest} h := by
    split at h
    next => cases h
    next hbase =>
      split at h
      next => cases h
      next hinner =>
        cases h
        have := base.shorter hbase
        have := inner.shorter hinner
        simp only [List.length_cons] at *
        omega
    next hbase => cases h; exact base.shorter hbase

/-- The factor that no level is left for. -/
def exhausted : Production α where
  run tokens := if tokens.isEmpty then .error .unexpectedEnd else .error .tooDeep
  shorter h := by split at h <;> cases h

/-- A factor with a number of levels left, itself included. -/
def factor (bindings : Bindings α) : (levels : Nat) → Production α
  | 0 => exhausted
  | levels + 1 => .delayed fun _ =>
    let inner := factor bindings levels
    powered (base bindings inner) inner

/-- The value of a whole list of tokens. -/
def walk (bindings : Bindings α) (tokens : List (Token α)) : Except Error α :=
  match (expression (factor bindings maxDepth)).run tokens with
  | .error e => .error e
  | .ok (_, token :: _) => .error (.trailingToken token.text)
  | .ok (value, []) => if Scalar.isFinite value then .ok value else .error .nonFinite

end Grammar

end PhasePortrait.Expr
