import PhasePortrait.Expr.Expression
import PhasePortrait.Proofs.Expr.Reading

/-!
# One text at two points

The walk evaluates while it reads, so its way through the tokens could depend on the values it
meets. It does not, but for one exit: a quotient that is not finite ends the reading where it stands.
Two walks over the same tokens at different points go on side by side, reading the same tokens and
failing in the same way, until one of them divides badly (`Parallel`).

What is wrong with a half-typed equation is therefore the same for every particle and in every tick,
or a division fails first (`syntax_errors_ignore_values`).
-/

namespace PhasePortrait.Expr

variable {α β γ δ ε : Type}

/-- Two results that are related, or errors that are equal, or a bad quotient on either side. -/
inductive Parallel (R : β → γ → Prop) : Except Error β → Except Error γ → Prop where
  | ok {x y} (h : R x y) : Parallel R (.ok x) (.ok y)
  | error (cause) : Parallel R (.error cause) (.error cause)
  | divisionLeft (other) : Parallel R (.error .divisionNotFinite) other
  | divisionRight (other) : Parallel R other (.error .divisionNotFinite)

/-- Two readings side by side, and two others behind them. If the first ones go apart because a
quotient is bad, so do the whole ones. -/
theorem Parallel.bind {R : β → γ → Prop} {S : δ → ε → Prop} {first : Except Error β}
    {second : Except Error γ} {f : β → Except Error δ} {g : γ → Except Error ε}
    (h : Parallel R first second)
    (hnext : ∀ x y, first = .ok x → R x y → Parallel S (f x) (g y)) :
    Parallel S (first.bind f) (second.bind g) := by
  cases h with
  | ok hxy => exact hnext _ _ rfl hxy
  | error cause => exact .error cause
  | divisionLeft => exact .divisionLeft _
  | divisionRight => exact .divisionRight _

/-- Results side by side stay so when both are changed, by whatever relates the changed ones. -/
theorem Parallel.map {R : β → γ → Prop} {S : δ → ε → Prop} {first : Except Error β}
    {second : Except Error γ} {f : β → δ} {g : γ → ε} (h : Parallel R first second)
    (hnext : ∀ {x y}, R x y → S (f x) (g y)) : Parallel S (first.map f) (second.map g) := by
  cases h with
  | ok hxy => exact .ok (hnext hxy)
  | error cause => exact .error cause
  | divisionLeft => exact .divisionLeft _
  | divisionRight => exact .divisionRight _

/-- Two readings that leave the same tokens. -/
def SameRest (first second : α × List (Token α)) : Prop := first.2 = second.2

/-- Two productions that read side by side. -/
def Production.Parallel (p q : Production α) : Prop :=
  ∀ tokens, Expr.Parallel SameRest (p.run tokens) (q.run tokens)

/-- The operators of a chain fail at quotients only. -/
def OnlyDivides (join : Joining α) : Prop :=
  ∀ {s combine left right cause}, join s = some combine →
    combine left right = .error cause → cause = .divisionNotFinite

/-- The results of an operator are not related by their values. That either can only be a bad
quotient is all that is needed. -/
theorem OnlyDivides.parallel {join : Joining α} (h : OnlyDivides join) {s : Symbol}
    {combine : α → α → Except Error α} (hs : join s = some combine) (x y x' y' : α) :
    Expr.Parallel (fun _ _ : α => True) (combine x y) (combine x' y') := by
  cases hfirst : combine x y with
  | error cause =>
    rw [h hs hfirst]
    exact .divisionLeft _
  | ok value =>
    cases hsecond : combine x' y' with
    | error cause =>
      rw [h hs hsecond]
      exact .divisionRight _
    | ok value' => exact .ok trivial

/-! ## The productions -/

/-- Chains over operands that read side by side do so from whatever values they start. The induction
is on the tokens that are left: both chains find the same operator, and either its quotient is bad
on one side or both go on. -/
theorem chain_parallel {join : Joining α} {p q : Production α} (hp : p.Parallel q)
    (hjoin : OnlyDivides join) (x y : α) (tokens : List (Token α)) :
    Expr.Parallel SameRest (chain join p x tokens) (chain join q y tokens) := by
  by_cases hoperator : ∃ s after combine, tokens = .symbol s :: after ∧ join s = some combine
  · obtain ⟨s, after, combine, htokens, hs⟩ := hoperator
    rw [htokens, chain_operator hs, chain_operator hs]
    refine (hp after).bind fun (right, rest) (right', rest') hrun hrest => ?_
    obtain rfl : rest = rest' := hrest
    refine (hjoin.parallel hs x right y right').bind fun value value' _ _ => ?_
    have hshorter : rest.length < tokens.length := by
      rw [htokens]
      exact Nat.lt_succ_of_lt (p.shorter hrun)
    exact chain_parallel hp hjoin value value' rest
  · have hstop : ∀ s after, tokens = .symbol s :: after → join s = none := by
      intro s after htokens
      cases hs : join s with
      | none => rfl
      | some combine => exact absurd ⟨s, after, combine, htokens, hs⟩ hoperator
    rw [chain_stop hstop, chain_stop hstop]
    exact .ok rfl
termination_by tokens.length

/-- A chain starts with an operand, and goes on from its value. -/
theorem chained_parallel {join : Joining α} {p q : Production α} (hp : p.Parallel q)
    (hjoin : OnlyDivides join) : (p.chained join).Parallel (q.chained join) := by
  intro tokens
  rw [chained_run, chained_run]
  refine (hp tokens).bind fun (left, rest) (left', rest') _ hrest => ?_
  obtain rfl : rest = rest' := hrest
  exact chain_parallel hp hjoin left left' rest

section Grammar

variable [Scalar α]

theorem joinSum_onlyDivides : OnlyDivides (joinSum : Joining α) := by
  intro s combine left right cause hs hcombine
  cases s <;> cases hs <;> cases hcombine

theorem joinProduct_onlyDivides : OnlyDivides (joinProduct : Joining α) := by
  intro s combine left right cause hs hcombine
  cases s with
  | times => cases hs; cases hcombine
  | divide =>
    cases hs
    dsimp only at hcombine
    split at hcombine
    · cases hcombine
    · exact (Except.error.inj hcombine).symm
  | _ => cases hs

theorem expression_parallel {p q : Production α} (hp : p.Parallel q) :
    (expression p).Parallel (expression q) :=
  chained_parallel (chained_parallel hp joinProduct_onlyDivides) joinSum_onlyDivides

variable [Elementary α]

omit [Scalar α] in
/-- A power is read behind a base if its sign is there, which is the same for both, since both have
left the same tokens. -/
theorem powered_parallel {base base' inner inner' : Production α} (hbase : base.Parallel base')
    (hinner : inner.Parallel inner') : (powered base inner).Parallel (powered base' inner') := by
  intro tokens
  rw [Tree.powered_run, Tree.powered_run]
  refine (hbase tokens).bind fun (x, rest) (y, rest') _ hrest => ?_
  obtain rfl : rest = rest' := hrest
  -- Whether a power follows is seen from the tokens alone.
  change Expr.Parallel SameRest (Tree.raising inner x rest) (Tree.raising inner' y rest)
  unfold Tree.raising
  split
  next after _ => exact (hinner after).map id
  next => exact .ok rfl

variable [Numeral α] (first second : Bindings α)

/-- A base is told by its first token, and that is the same for both walks. Names have their own
values on either side, and values are not compared. -/
theorem base_parallel {p q : Production α} (hp : p.Parallel q) :
    (base first p).Parallel (base second q) := by
  intro tokens
  rw [Tree.base_run, Tree.base_run]
  rcases tokens with _ | ⟨value | v | f | s | word, rest⟩
  case nil => exact .error _
  case cons.number => exact .ok rfl
  case cons.var => exact .ok rfl
  case cons.func =>
    cases rest with
    | nil => exact .error _
    | cons token rest =>
      rw [Tree.readBase_func _ _ _ (List.cons_ne_nil _ _),
        Tree.readBase_func _ _ _ (List.cons_ne_nil _ _)]
      exact (hp (token :: rest)).map id
  case cons.symbol =>
    cases s with
    | opening =>
      rw [Tree.readBase_group, Tree.readBase_group]
      refine (expression_parallel hp rest).bind fun (x, after) (y, after') _ hafter => ?_
      obtain rfl : after = after' := hafter
      change Expr.Parallel SameRest (Tree.closing x after) (Tree.closing y after)
      unfold Tree.closing
      split
      next => exact .ok rfl
      next => exact .error _
    | minus =>
      rw [Tree.readBase_minus, Tree.readBase_minus]
      exact (hp rest).map id
    | _ => exact .error _
  case cons.unknown => exact .error _

/-- Factors read side by side, by induction on the levels that are left. -/
theorem factor_parallel (levels : Nat) :
    (factor first levels).Parallel (factor second levels) := by
  induction levels with
  | zero =>
    intro tokens
    change Expr.Parallel SameRest (exhausted.run tokens) (exhausted.run tokens)
    cases tokens <;> exact .error _
  | succ levels ih =>
    intro tokens
    rw [Tree.factor_succ, Tree.factor_succ]
    exact powered_parallel (base_parallel first second ih) ih tokens

/-! ## The walk -/

/-- What two walks over one text may come to: it is malformed, in one way; or it is well formed and
only a value may be at fault; or a quotient is. -/
inductive Compared : Except Error α → Except Error α → Prop where
  | malformed {cause} (hcause : cause.isParseError = true) :
    Compared (.error cause) (.error cause)
  | wellFormed {x y} (hx : ∀ cause, x = .error cause → cause.isParseError = false)
      (hy : ∀ cause, y = .error cause → cause.isParseError = false) : Compared x y
  | divisionLeft (other) : Compared (.error .divisionNotFinite) other
  | divisionRight (other) : Compared other (.error .divisionNotFinite)

omit [Elementary α] [Numeral α] in
/-- The last step of a walk can only find fault with the value. -/
theorem isParseError_of_finite {value : α} {cause : Error}
    (h : (if Scalar.isFinite value then .ok value else .error .nonFinite : Except Error α) =
      .error cause) : cause.isParseError = false := by
  split at h
  · cases h
  · cases h
    rfl

/-- The walk adds two checks: that nothing stands behind the expression, which is the same for both,
and that the value is finite. -/
theorem walk_compared (tokens : List (Token α)) :
    Compared (walk first tokens) (walk second tokens) := by
  have hrun := expression_parallel (factor_parallel first second maxDepth) tokens
  unfold walk
  generalize (expression (factor first maxDepth)).run tokens = x at hrun
  generalize (expression (factor second maxDepth)).run tokens = y at hrun
  cases hrun with
  | @ok x y hrest =>
    obtain ⟨value, rest⟩ := x
    obtain ⟨value', rest'⟩ := y
    obtain rfl : rest = rest' := hrest
    cases rest with
    | nil => exact .wellFormed (fun _ => isParseError_of_finite) fun _ => isParseError_of_finite
    | cons token rest => exact .malformed rfl
  | error cause =>
    cases hcause : cause.isParseError with
    | true => exact .malformed hcause
    | false =>
      have hfault : ∀ other, (.error cause : Except Error α) = .error other →
          other.isParseError = false := by
        rintro _ ⟨⟩
        exact hcause
      exact .wellFormed hfault hfault
  | divisionLeft => exact .divisionLeft _
  | divisionRight => exact .divisionRight _

/-- An equation is its tokens, unless it is empty. Then it has an error of its own at every
point. -/
theorem eval_compared (equation : Expression α) :
    Compared (equation.eval first) (equation.eval second) := by
  unfold Expression.eval
  split
  · exact .malformed rfl
  · exact walk_compared first second equation.tokens

omit [Scalar α] [Elementary α] [Numeral α] in
/-- What is malformed on one side is malformed in that way on the other one, or divides badly
there. -/
theorem Compared.malformed_or_divided {x y : Except Error α} (h : Compared x y) {cause : Error}
    (hx : x = .error cause) (hcause : cause.isParseError = true) :
    y = .error cause ∨ y = .error .divisionNotFinite := by
  cases h with
  | malformed => exact .inl hx
  | wellFormed hfirst =>
    rw [hfirst cause hx] at hcause
    cases hcause
  | divisionLeft =>
    cases hx
    cases hcause
  | divisionRight => exact .inr rfl

omit [Scalar α] [Elementary α] [Numeral α] in
/-- What is well formed on one side is not malformed on the other one. A quotient that is not finite
may stop either side early, but that is no error of the text. -/
theorem Compared.well_formed {x y : Except Error α} (h : Compared x y)
    (hx : (∃ value, x = .ok value) ∨ x = .error .nonFinite) {cause : Error}
    (hy : y = .error cause) : cause.isParseError = false := by
  cases h with
  | malformed hcause =>
    obtain ⟨value, hvalue⟩ | hvalue := hx
    · cases hvalue
    · cases hvalue
      cases hcause
  | wellFormed _ hsecond => exact hsecond cause hy
  | divisionLeft =>
    obtain ⟨value, hvalue⟩ | hvalue := hx <;> cases hvalue
  | divisionRight =>
    cases hy
    rfl

/-- **Errors of the text do not depend on the values.** If a list of tokens is malformed at one
point, it is malformed in the same way at every other point, the token that is blamed included, or
else a quotient fails there; and if it is well formed at one point it is malformed nowhere. So it is
for equations, the empty one included. -/
theorem syntax_errors_ignore_values (tokens : List (Token α)) (equation : Expression α) :
    (∀ cause, walk first tokens = .error cause → cause.isParseError = true →
      walk second tokens = .error cause ∨ walk second tokens = .error .divisionNotFinite) ∧
    ((∃ value, walk first tokens = .ok value) ∨ walk first tokens = .error .nonFinite →
      ∀ cause, walk second tokens = .error cause → cause.isParseError = false) ∧
    (∀ cause, equation.eval first = .error cause → cause.isParseError = true →
      equation.eval second = .error cause ∨ equation.eval second = .error .divisionNotFinite) ∧
    ((∃ value, equation.eval first = .ok value) ∨ equation.eval first = .error .nonFinite →
      ∀ cause, equation.eval second = .error cause → cause.isParseError = false) := by
  have hwalk := walk_compared first second tokens
  have heval := eval_compared first second equation
  exact ⟨fun _ => hwalk.malformed_or_divided, fun h _ => hwalk.well_formed h,
    fun _ => heval.malformed_or_divided, fun h _ => heval.well_formed h⟩

end Grammar

end PhasePortrait.Expr
