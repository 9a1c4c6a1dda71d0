import PhasePortrait.Proofs.Expr.Grammar

/-!
# Reading the yield of a tree

The productions of the walk against the grammar, in both directions:

- **every yield is read**: on the yield of a tree, with tokens behind it that cannot belong to the
  tree, a production gives what evaluating the tree gives, and leaves the tokens behind;
- **only yields are read**: the tokens that a production uses up are the yield of a tree.

Evaluating a tree is the walk without the tokens: from left to right, with a number of levels left,
up to the first thing that is wrong.
-/

namespace PhasePortrait.Expr

variable {α : Type}

/-! ## Chains, one operator at a time -/

/-- A symbol that is no operator of the chain ends it. -/
theorem chain_stop {join : Joining α} {operand : Production α} {left : α} {tokens : List (Token α)}
    (h : ∀ s after, tokens = .symbol s :: after → join s = none) :
    chain join operand left tokens = .ok (left, tokens) := by
  unfold chain
  split
  next s after => rw [h s after rfl]
  next => rfl

/-- A chain that ends where it starts only hands its value on. -/
theorem bind_chain_stop {join : Joining α} {operand : Production α} {tokens : List (Token α)}
    (h : ∀ s after, tokens = .symbol s :: after → join s = none) (value : Except Error α) :
    (value.bind fun left => chain join operand left tokens) =
      value.map fun left => (left, tokens) := by
  cases value with
  | error cause => rfl
  | ok left => exact chain_stop h

/-- An operator of the chain takes the operand behind it. The loop is unrolled once, and the rest of
it starts with the value that the operator makes. -/
theorem chain_operator {join : Joining α} {operand : Production α} {left : α} {s : Symbol}
    {after : List (Token α)} {combine : α → α → Except Error α} (h : join s = some combine) :
    chain join operand left (.symbol s :: after) =
      (operand.run after).bind fun (right, rest) =>
        (combine left right).bind fun value => chain join operand value rest := by
  rw [chain, h]
  dsimp only
  split
  next hrun => rw [hrun]; rfl
  next right rest hrun =>
    rw [hrun]
    change _ = (combine left right).bind fun value => chain join operand value rest
    split
    next hcombine => rw [hcombine]; rfl
    next hcombine => rw [hcombine]; rfl

/-- Running a chain is running its first operand and then going on. This is the form that a proof
follows. -/
theorem chained_run (operand : Production α) (join : Joining α) (tokens : List (Token α)) :
    (operand.chained join).run tokens =
      (operand.run tokens).bind fun (left, rest) => chain join operand left rest := by
  simp only [Production.chained]
  cases operand.run tokens <;> rfl

/-- Whatever a production uses up has a property. -/
def Production.Reads (p : Production α) (used : List (Token α) → Prop) : Prop :=
  ∀ {tokens value rest}, p.run tokens = .ok (value, rest) →
    ∃ front, used front ∧ tokens = front ++ rest

/-- What a chain uses up behind tokens with a property keeps the property, if an operator and an
operand do. -/
theorem chain_reads {join : Joining α} {operand : Production α}
    {whole part : List (Token α) → Prop} (hoperand : operand.Reads part)
    (hjoin : ∀ {left s right}, join s ≠ none → whole left → part right →
      whole (left ++ .symbol s :: right))
    {x : α} {tokens : List (Token α)} {value : α} {rest : List (Token α)}
    (h : chain join operand x tokens = .ok (value, rest)) {left : List (Token α)}
    (hleft : whole left) : ∃ front, whole (left ++ front) ∧ tokens = front ++ rest := by
  fun_induction chain join operand x tokens generalizing left with
  | case1 => cases h; exact ⟨[], by simpa using hleft, rfl⟩
  | case2 => cases h
  | case3 => cases h
  | case4 x s after combine hcombine y mid hrun z hz ih =>
    have hs : join s ≠ none := by simp [hcombine]
    obtain ⟨right, hright, rfl⟩ := hoperand hrun
    obtain ⟨front, hfront, rfl⟩ := ih h (hjoin hs hleft hright)
    exact ⟨.symbol s :: right ++ front, by simpa using hfront, by simp⟩
  | case5 => cases h; exact ⟨[], by simpa using hleft, rfl⟩

/-- What a production uses up that reads chains: an operand is a whole, and an operator with another
operand behind a whole makes a whole. -/
theorem chained_reads {join : Joining α} {operand : Production α}
    {whole part : List (Token α) → Prop} (hoperand : operand.Reads part)
    (hpart : ∀ {front}, part front → whole front)
    (hjoin : ∀ {left s right}, join s ≠ none → whole left → part right →
      whole (left ++ .symbol s :: right)) :
    (operand.chained join).Reads whole := by
  intro tokens value rest h
  simp only [Production.chained] at h
  split at h
  next => cases h
  next x mid hrun =>
    obtain ⟨left, hleft, rfl⟩ := hoperand hrun
    obtain ⟨front, hfront, rfl⟩ := chain_reads hoperand hjoin h (hpart hleft)
    exact ⟨left ++ front, hfront, by simp⟩

end PhasePortrait.Expr

namespace PhasePortrait.Expr.Tree

variable {α : Type} [Scalar α] [Elementary α]

/-! ## Evaluating a tree -/

/-- What an operator makes of two values, where a quotient must be finite. -/
def Multiplicative.combine : Multiplicative → α → α → Except Error α
  | times, left, right => .ok (left * right)
  | divide, left, right =>
    if Scalar.isFinite (left / right) then .ok (left / right) else .error .divisionNotFinite

mutual

/-- The value of an expression with some levels left, or the first thing wrong with it. -/
def Expression.evaluate (bindings : Bindings α) (levels : Nat) : Expression α → Except Error α
  | .term t => t.evaluate bindings levels
  | .chain left op right => do
    let x ← left.evaluate bindings levels
    let y ← right.evaluate bindings levels
    return op.apply x y

/-- The value of a term with some levels left, or the first thing wrong with it. A quotient is
checked where it is made. -/
def Term.evaluate (bindings : Bindings α) (levels : Nat) : Term α → Except Error α
  | .factor f => f.evaluate bindings levels
  | .chain left op right => do
    let x ← left.evaluate bindings levels
    let y ← right.evaluate bindings levels
    op.combine x y

/-- The value of a factor with some levels left for it and those inside it, or the first thing
wrong with it. -/
def Factor.evaluate (bindings : Bindings α) : (levels : Nat) → Factor α → Except Error α
  | 0, _ => .error .tooDeep
  | levels + 1, .base b => b.evaluate bindings levels
  | levels + 1, .power b exponent => do
    let x ← b.evaluate bindings levels
    let y ← exponent.evaluate bindings levels
    return Elementary.pow x y
  | levels + 1, .negate f => do return -(← f.evaluate bindings levels)
  | levels + 1, .call function argument => do
    return function.apply (← argument.evaluate bindings levels)

/-- The value of a base with some levels left for the factors inside it, or the first thing wrong
with it. -/
def Base.evaluate (bindings : Bindings α) (levels : Nat) : Base α → Except Error α
  | .number value => .ok value
  | .var v => .ok (bindings.get v)
  | .group e => e.evaluate bindings levels

end

/-! ## Every yield is read -/

section Operators

omit [Elementary α]

/-- The operators of the two chains are told apart by their symbols. Each chain knows its own. -/
@[simp] theorem joinSum_symbol (op : Additive) :
    joinSum op.symbol = some fun left right : α => .ok (op.apply left right) := by
  cases op <;> rfl

/-- The symbol of a product or a quotient joins with the operation that it is for. -/
@[simp] theorem joinProduct_symbol (op : Multiplicative) :
    joinProduct op.symbol = some fun left right : α => op.combine left right := by
  cases op <;> rfl

/-- A term ends at a sign of a sum, which is left for the expression. -/
@[simp] theorem joinProduct_additive (op : Additive) :
    joinProduct (α := α) op.symbol = none := by
  cases op <;> rfl

end Operators

/-- What follows the expression of a group. -/
def closing (value : α) : List (Token α) → Reading α
  | .symbol .closing :: rest => .ok (value, rest)
  | _ => .error .mismatchedParentheses

/-- What follows a base. -/
def raising (inner : Production α) (value : α) : List (Token α) → Reading α
  | .symbol .power :: rest =>
    (inner.run rest).map fun (exponent, rest) => (Elementary.pow value exponent, rest)
  | rest => .ok (value, rest)

omit [Scalar α] [Elementary α] in
/-- A group that is not closed fails, whatever stands there instead. -/
theorem closing_mismatched {rest : List (Token α)} (value : α)
    (h : rest.head? ≠ some (.symbol .closing)) :
    closing value rest = .error .mismatchedParentheses := by
  unfold closing
  split
  · exact absurd rfl h
  · rfl

omit [Scalar α] in
theorem raising_stop (inner : Production α) {rest : List (Token α)} (value : α)
    (h : rest.head? ≠ some (.symbol .power)) : raising inner value rest = .ok (value, rest) := by
  unfold raising
  split
  · exact absurd rfl h
  · rfl

omit [Scalar α] in
theorem powered_run (base inner : Production α) (tokens : List (Token α)) :
    (powered base inner).run tokens =
      (base.run tokens).bind fun (value, rest) => raising inner value rest := by
  simp only [powered]
  cases hrun : base.run tokens with
  | error cause => rfl
  | ok reading =>
    obtain ⟨value, _ | ⟨token, rest⟩⟩ := reading
    · rfl
    · cases token with
      | symbol s =>
        cases s with
        | power =>
          simp only [Except.bind, raising]
          cases inner.run rest <;> rfl
        | _ => rfl
      | _ => rfl

omit [Scalar α] in
/-- A base that no power follows is a factor. -/
theorem powered_stop {base inner : Production α} {tokens rest : List (Token α)}
    {value : Except Error α} (hbase : base.run tokens = value.map fun x => (x, rest))
    (hrest : rest.head? ≠ some (.symbol .power)) :
    (powered base inner).run tokens = value.map fun x => (x, rest) := by
  rw [powered_run, hbase]
  cases value with
  | error cause => rfl
  | ok x => exact raising_stop inner x hrest

variable [Numeral α] (bindings : Bindings α)

/-- A factor with a level left is a base with or without a power. -/
theorem factor_succ (levels : Nat) (tokens : List (Token α)) :
    (factor bindings (levels + 1)).run tokens =
      (powered (base bindings (factor bindings levels)) (factor bindings levels)).run tokens := rfl

@[simp] theorem base_run (inner : Production α) (tokens : List (Token α)) :
    (base bindings inner).run tokens = readBase bindings inner tokens := rfl

/-- The forms of a base, one equation for each: a sign, which is read with all of the factor behind
it. -/
theorem readBase_minus (inner : Production α) (tokens : List (Token α)) :
    readBase bindings inner (.symbol .minus :: tokens) =
      (inner.run tokens).map fun (value, rest) => (-value, rest) := by
  rw [readBase]
  cases inner.run tokens <;> rfl

/-- A function, with the factor behind it. One that ends the text is an error of its own. -/
theorem readBase_func (inner : Production α) (function : Func) {tokens : List (Token α)}
    (h : tokens ≠ []) :
    readBase bindings inner (.func function :: tokens) =
      (inner.run tokens).map fun (value, rest) => (function.apply value, rest) := by
  rw [readBase]
  · cases inner.run tokens <;> rfl
  · exact h

theorem readBase_group (inner : Production α) (tokens : List (Token α)) :
    readBase bindings inner (.symbol .opening :: tokens) =
      ((expression inner).run tokens).bind fun (value, rest) => closing value rest := by
  rw [readBase]
  cases hrun : (expression inner).run tokens with
  | error cause => rfl
  | ok reading =>
    obtain ⟨value, _ | ⟨token, rest⟩⟩ := reading
    · rfl
    · cases token with
      | symbol s => cases s <;> rfl
      | _ => rfl

/-- A group around an expression that is read to its closing parenthesis has the value of that
expression. -/
theorem readBase_opening {inner : Production α} {tokens rest : List (Token α)}
    {value : Except Error α}
    (h : (expression inner).run tokens = value.map fun x => (x, .symbol .closing :: rest)) :
    readBase bindings inner (.symbol .opening :: tokens) = value.map fun x => (x, rest) := by
  rw [readBase_group, h]
  cases value <;> rfl

mutual

/-- On the yield of an expression an expression is read as far as the tree goes, and then its chain
goes on, unless what follows belongs to the last term. -/
theorem Expression.run_yield : ∀ (e : Expression α) (levels : Nat) {rest : List (Token α)},
    rest.head? ≠ some (.symbol .power) →
    (∀ s after, rest = .symbol s :: after → joinProduct (α := α) s = none) →
    (expression (factor bindings levels)).run (e.yield ++ rest) =
      (e.evaluate bindings levels).bind fun value =>
        chain joinSum (term (factor bindings levels)) value rest
  | .term t, levels, rest, hpower, hproduct => by
    rw [expression, chained_run, Expression.yield, t.run_yield levels hpower,
      bind_chain_stop hproduct, Expression.evaluate]
    cases t.evaluate bindings levels <;> rfl
  | .chain left op right, levels, rest, hpower, hproduct => by
    rw [Expression.yield, List.append_assoc, List.cons_append,
      left.run_yield levels (by cases op <;> simp [Additive.symbol]) (by simp),
      Expression.evaluate]
    cases left.evaluate bindings levels with
    | error cause => rfl
    | ok x =>
      change chain joinSum _ x _ = _
      rw [chain_operator (joinSum_symbol op), right.run_yield levels hpower,
        bind_chain_stop hproduct]
      cases right.evaluate bindings levels <;> rfl

/-- On the yield of a term a term is read as far as the tree goes, and then its chain goes on,
unless a power follows. -/
theorem Term.run_yield : ∀ (t : Term α) (levels : Nat) {rest : List (Token α)},
    rest.head? ≠ some (.symbol .power) →
    (term (factor bindings levels)).run (t.yield ++ rest) =
      (t.evaluate bindings levels).bind fun value =>
        chain joinProduct (factor bindings levels) value rest
  | .factor f, levels, rest, hpower => by
    rw [term, chained_run, Term.yield, f.run_yield levels hpower, Term.evaluate]
    cases f.evaluate bindings levels <;> rfl
  | .chain left op right, levels, rest, hpower => by
    rw [Term.yield, List.append_assoc, List.cons_append,
      left.run_yield levels (by cases op <;> simp [Multiplicative.symbol]), Term.evaluate]
    cases left.evaluate bindings levels with
    | error cause => rfl
    | ok x =>
      change chain joinProduct _ x _ = _
      rw [chain_operator (joinProduct_symbol op), right.run_yield levels hpower]
      cases right.evaluate bindings levels <;> rfl

/-- On the yield of a factor a factor is read, unless a power follows. By the form of the tree: a
sign and a function read their operand with one level less, and a power reads its exponent so. -/
theorem Factor.run_yield : ∀ (f : Factor α) (levels : Nat) {rest : List (Token α)},
    rest.head? ≠ some (.symbol .power) →
    (factor bindings levels).run (f.yield ++ rest) =
      (f.evaluate bindings levels).map fun value => (value, rest)
  | f, 0, rest, _ => by
    have hne : (f.yield ++ rest).isEmpty = false := by
      cases hf : f.yield with
      | nil => exact absurd hf f.yield_ne_nil
      | cons token tokens => rfl
    simp only [factor, exhausted, hne, Factor.evaluate, Except.map, Bool.false_eq_true, if_false]
  | .base b, levels + 1, rest, hpower => powered_stop (b.run_yield levels rest) hpower
  | .power b exponent, levels + 1, rest, hpower => by
    have hbase := b.run_yield levels (.symbol .power :: (exponent.yield ++ rest))
    have hexponent := exponent.run_yield levels hpower
    rw [factor_succ, Factor.yield, Factor.evaluate, List.append_assoc, List.cons_append]
    cases hx : b.evaluate bindings levels with
    | error cause =>
      rw [hx] at hbase
      simp only [powered, base, hbase, Except.map]
      rfl
    | ok x =>
      rw [hx] at hbase
      simp only [powered, base, hbase, Except.map, hexponent]
      cases exponent.evaluate bindings levels <;> rfl
  | .negate f, levels + 1, rest, hpower => by
    refine powered_stop ?_ hpower
    rw [base_run, Factor.yield, List.cons_append, readBase_minus, f.run_yield levels hpower,
      Factor.evaluate]
    cases f.evaluate bindings levels <;> rfl
  | .call function argument, levels + 1, rest, hpower => by
    refine powered_stop ?_ hpower
    rw [base_run, Factor.yield, List.cons_append, readBase_func bindings _ _
      (List.append_ne_nil_of_left_ne_nil argument.yield_ne_nil rest),
      argument.run_yield levels hpower, Factor.evaluate]
    cases argument.evaluate bindings levels <;> rfl

/-- On the yield of a base a base is read, whatever follows. A group ends at its own parenthesis,
and so its contents cannot run on into what comes behind it. -/
theorem Base.run_yield : ∀ (b : Base α) (levels : Nat) (rest : List (Token α)),
    readBase bindings (factor bindings levels) (b.yield ++ rest) =
      (b.evaluate bindings levels).map fun value => (value, rest)
  | .number value, levels, rest => rfl
  | .var v, levels, rest => rfl
  | .group e, levels, rest => by
    have he := e.run_yield levels
      (by simp : (Token.symbol .closing :: rest).head? ≠ some (.symbol .power))
      (by rintro s after ⟨⟩; rfl)
    rw [bind_chain_stop (by rintro s after ⟨⟩; rfl)] at he
    rw [Base.yield, List.append_assoc, List.cons_append, List.cons_append, List.nil_append,
      readBase_opening bindings he, Base.evaluate]

end

/-! ## Only yields are read -/

omit [Elementary α] [Numeral α] in
/-- An operator of the chain and another factor make a longer term. -/
theorem term_longer {left right : List (Token α)} {s : Symbol} (hs : joinProduct (α := α) s ≠ none)
    (hleft : ∃ t : Term α, t.yield = left) (hright : ∃ f : Factor α, f.yield = right) :
    ∃ t : Term α, t.yield = left ++ .symbol s :: right := by
  obtain ⟨t, rfl⟩ := hleft
  obtain ⟨f, rfl⟩ := hright
  cases s with
  | times => exact ⟨.chain t .times f, rfl⟩
  | divide => exact ⟨.chain t .divide f, rfl⟩
  | _ => exact absurd rfl hs

omit [Elementary α] [Numeral α] in
/-- An operator of a sum and another term make a longer expression. -/
theorem expression_longer {left right : List (Token α)} {s : Symbol}
    (hs : joinSum (α := α) s ≠ none) (hleft : ∃ e : Expression α, e.yield = left)
    (hright : ∃ t : Term α, t.yield = right) :
    ∃ e : Expression α, e.yield = left ++ .symbol s :: right := by
  obtain ⟨e, rfl⟩ := hleft
  obtain ⟨t, rfl⟩ := hright
  cases s with
  | plus => exact ⟨.chain e .plus t, rfl⟩
  | minus => exact ⟨.chain e .minus t, rfl⟩
  | _ => exact absurd rfl hs

omit [Elementary α] [Numeral α] in
/-- Factors that are yields of trees make terms that are. -/
theorem term_reads {p : Production α} (hp : p.Reads fun used => ∃ f : Factor α, f.yield = used) :
    (term p).Reads fun used => ∃ t : Term α, t.yield = used := by
  refine chained_reads hp ?_ term_longer
  rintro _ ⟨f, rfl⟩
  exact ⟨.factor f, rfl⟩

omit [Elementary α] [Numeral α] in
theorem expression_reads {p : Production α}
    (hp : p.Reads fun used => ∃ f : Factor α, f.yield = used) :
    (expression p).Reads fun used => ∃ e : Expression α, e.yield = used := by
  refine chained_reads (term_reads hp) ?_ expression_longer
  rintro _ ⟨t, rfl⟩
  exact ⟨.term t, rfl⟩

/-- A factor takes every power that it can. So behind a factor there is none, and the tree of what
was read is the only one that fits. -/
theorem factor_rest (levels : Nat) {tokens rest : List (Token α)} {value : α}
    (h : (factor bindings levels).run tokens = .ok (value, rest)) :
    rest.head? ≠ some (.symbol .power) := by
  induction levels generalizing tokens value rest with
  | zero => simp only [factor, exhausted] at h; split at h <;> cases h
  | succ levels ih =>
    rw [factor_succ] at h
    simp only [powered] at h
    split at h
    next => cases h
    next =>
      split at h
      next => cases h
      next hrun => cases h; exact ih hrun
    next reading hpower _ =>
      cases h
      intro hhead
      obtain ⟨after, rfl⟩ := List.head?_eq_some_iff.mp hhead
      exact hpower _ _ rfl

/-- What a base uses up is the yield of a base, or that of a sign or a function with a whole
factor, after which no power follows. -/
theorem readBase_reads {levels : Nat}
    (hinner : (factor bindings levels).Reads fun used => ∃ f : Factor α, f.yield = used)
    {tokens rest : List (Token α)} {value : α}
    (h : readBase bindings (factor bindings levels) tokens = .ok (value, rest)) :
    (∃ b : Base α, tokens = b.yield ++ rest) ∨
      (∃ f : Factor α, tokens = f.yield ++ rest) ∧ rest.head? ≠ some (.symbol .power) := by
  unfold readBase at h
  split at h
  case h_1 => cases h
  case h_2 => cases h; exact .inl ⟨.number _, rfl⟩
  case h_3 v _ => cases h; exact .inl ⟨.var v, rfl⟩
  case h_4 => cases h
  case h_5 function after _ =>
    split at h
    next => cases h
    next x mid hrun =>
      cases h
      obtain ⟨_, ⟨f, rfl⟩, rfl⟩ := hinner hrun
      exact .inr ⟨⟨.call function f, rfl⟩, factor_rest bindings levels hrun⟩
  case h_6 after =>
    split at h
    next => cases h
    next x mid hrun =>
      cases h
      obtain ⟨_, ⟨e, rfl⟩, rfl⟩ := expression_reads hinner hrun
      exact .inl ⟨.group e, by simp [Base.yield]⟩
    next => cases h
  case h_7 after =>
    split at h
    next => cases h
    next x mid hrun =>
      cases h
      obtain ⟨_, ⟨f, rfl⟩, rfl⟩ := hinner hrun
      exact .inr ⟨⟨.negate f, rfl⟩, factor_rest bindings levels hrun⟩
  case h_8 => cases h
  case h_9 => cases h

/-- By induction on the levels that are left, all that a factor uses up is the yield of a tree. A
base may itself be a factor with a sign, and then no power is left behind it. -/
theorem factor_reads (levels : Nat) :
    (factor bindings levels).Reads fun used => ∃ f : Factor α, f.yield = used := by
  induction levels with
  | zero =>
    intro tokens value rest h
    simp only [factor, exhausted] at h
    split at h <;> cases h
  | succ levels ih =>
    intro tokens value rest h
    rw [factor_succ] at h
    simp only [powered, base_run] at h
    split at h
    next => cases h
    next x after hbase =>
      split at h
      next => cases h
      next y mid hrun =>
        cases h
        obtain ⟨_, ⟨exponent, rfl⟩, rfl⟩ := ih hrun
        obtain ⟨b, rfl⟩ | ⟨_, hhead⟩ := readBase_reads bindings ih hbase
        · exact ⟨_, ⟨.power b exponent, rfl⟩, by simp [Factor.yield]⟩
        · exact absurd rfl hhead
    next reading _ hbase =>
      cases h
      obtain ⟨b, rfl⟩ | ⟨⟨f, rfl⟩, _⟩ := readBase_reads bindings ih hbase
      · exact ⟨_, ⟨.base b, rfl⟩, rfl⟩
      · exact ⟨_, ⟨f, rfl⟩, rfl⟩

end PhasePortrait.Expr.Tree
