import PhasePortrait.Proofs.Expr.Parallel
import PhasePortrait.Proofs.Expr.Semantics

/-!
# Where an error is found

A list of tokens is **viable** if something can be put behind it that makes it an equation. A reader
with one token of look-ahead can find an error as early as there is one: at the first token with
which the tokens so far are no longer viable. The walk does.

Two things are followed through the productions at once (`Foreseen`). What was read up to a failure
can be continued to what was to be read, in a way that fits the error (`Site`). And the failure would
have been the same with any tokens behind the one that was looked at, so no continuation of that
token is an equation: on an equation the walk finds nothing wrong with the form.

Nesting does not matter for what is viable. A text that is too deep is given up before it is known
whether it is an equation, and that error says nothing here.
-/

namespace PhasePortrait.Expr

variable {α β : Type}

/-- Something can be put behind the tokens that reaches the goal. -/
def Opens (goal : List (Token α) → Prop) (front : List (Token α)) : Prop :=
  ∃ rest, goal (front ++ rest)

theorem Opens.of_goal {goal : List (Token α) → Prop} {front : List (Token α)} (h : goal front) :
    Opens goal front :=
  ⟨[], by rwa [List.append_nil]⟩

/-- What opens one goal opens the other, behind other tokens: the second goal goes on where the first
one is reached. -/
theorem Opens.lift {goal goal' : List (Token α) → Prop} {lead front : List (Token α)}
    (h : Opens goal front) (hgoal : ∀ used, goal used → Opens goal' (lead ++ used)) :
    Opens goal' (lead ++ front) := by
  obtain ⟨rest, hrest⟩ := h
  obtain ⟨more, hmore⟩ := hgoal _ hrest
  exact ⟨rest ++ more, by simpa using hmore⟩

section Looking

variable [Numeral α]

/-- A place where reading fails, between what was read and the rest: how the tokens that were read
can go on, and how the error tells of what stands there instead. -/
inductive Site (goal : List (Token α) → Prop) (front : List (Token α)) :
    List (Token α) → Error → Prop where
  | unexpectedEnd (h : Opens goal front) : Site goal front [] .unexpectedEnd
  | missingOperand (f) (h : Opens goal front) : Site goal front [] (.missingOperand f)
  | unexpectedToken (token after) (h : Opens goal front) :
    Site goal front (token :: after) (.unexpectedToken token.text)
  | unknownToken (token after) (h : Opens goal front) :
    Site goal front (token :: after) (.unknownToken token.text)
  | mismatchedParentheses (rest) (h : Opens goal (front ++ [.symbol .closing])) :
    Site goal front rest .mismatchedParentheses
  | tooDeep (rest) : Site goal front rest .tooDeep
  | divisionNotFinite (rest) : Site goal front rest .divisionNotFinite

/-- A place where reading for one goal fails is one for the other goal, behind other tokens. The
error stays the same, since it tells of what stands at the place. -/
theorem Site.lift {goal goal' : List (Token α) → Prop} {lead front rest : List (Token α)}
    {cause : Error} (h : Site goal front rest cause)
    (hgoal : ∀ used, goal used → Opens goal' (lead ++ used)) :
    Site goal' (lead ++ front) rest cause := by
  cases h with
  | unexpectedEnd h => exact .unexpectedEnd (h.lift hgoal)
  | missingOperand f h => exact .missingOperand f (h.lift hgoal)
  | unexpectedToken token after h => exact .unexpectedToken token after (h.lift hgoal)
  | unknownToken token after h => exact .unknownToken token after (h.lift hgoal)
  | mismatchedParentheses rest h =>
    refine .mismatchedParentheses rest ?_
    rw [List.append_assoc]
    exact h.lift hgoal
  | tooDeep rest => exact .tooDeep rest
  | divisionNotFinite rest => exact .divisionNotFinite rest

theorem Site.trans {goal goal' : List (Token α) → Prop} {front rest : List (Token α)}
    {cause : Error} (h : Site goal front rest cause)
    (hgoal : ∀ used, goal used → Opens goal' used) : Site goal' front rest cause := by
  have hlift : Site goal' ([] ++ front) rest cause := h.lift hgoal
  exact hlift

/-- **Reading with one token of look-ahead.** The tokens fall into those that were read and the rest.
Of the rest no more than the first token was looked at: with another rest that starts with the same
token, the reading is the same. -/
inductive Foreseen (run : List (Token α) → Reading α) (goal : List (Token α) → Prop)
    (tokens : List (Token α)) : Prop where
  | ok {front rest} (value) (htokens : tokens = front ++ rest) (hgoal : goal front)
    (hrun : ∀ rest', rest'.head? = rest.head? → run (front ++ rest') = .ok (value, rest'))
  | error {front rest cause} (htokens : tokens = front ++ rest) (hsite : Site goal front rest cause)
    (hrun : ∀ rest', rest'.head? = rest.head? → run (front ++ rest') = .error cause)

/-! ## Putting readings together -/

omit [Numeral α] in
/-- What can be seen behind tokens that were read depends on what can be seen of the rest. -/
theorem head?_append_congr {front rest rest' : List (Token α)} (h : rest'.head? = rest.head?) :
    (front ++ rest').head? = (front ++ rest).head? := by
  cases front with
  | nil => exact h
  | cons token front => rfl

section Combining

variable {run run' : List (Token α) → Reading α} {goal goal' : List (Token α) → Prop}
  {tokens : List (Token α)}

theorem Foreseen.done (value : α) (hgoal : goal []) :
    Foreseen (fun tokens => .ok (value, tokens)) goal tokens :=
  .ok value rfl hgoal fun _ _ => rfl

/-- A reading that may stop where it stands, seeing no more than the first token. -/
theorem Foreseen.stop (value : α) (hgoal : goal [])
    (hrun : ∀ rest, rest.head? = tokens.head? → run rest = .ok (value, rest)) :
    Foreseen run goal tokens :=
  .ok value rfl hgoal hrun

/-- One reading after another. The second one starts where the first one ends, and is to read what
still lacks. -/
theorem Foreseen.bind (h : Foreseen run goal tokens) (next : α → List (Token α) → Reading α)
    (hopens : ∀ used, goal used → Opens goal' used)
    (hnext : ∀ front rest value, tokens = front ++ rest → goal front →
      run tokens = .ok (value, rest) →
      Foreseen (next value) (fun used => goal' (front ++ used)) rest) :
    Foreseen (fun tokens => (run tokens).bind fun (value, rest) => next value rest) goal'
      tokens := by
  cases h with
  | error htokens hsite hrun =>
    refine .error htokens (hsite.trans hopens) fun rest' hhead => ?_
    simp only [hrun rest' hhead, Except.bind]
  | @ok front rest value htokens hgoal hrun =>
    -- What the second reading looks at is what the first one leaves.
    cases hnext front rest value htokens hgoal (htokens ▸ hrun rest rfl) with
    | @ok middle last value' hrest hgoal' hrun' =>
      subst hrest
      refine .ok value' (htokens.trans (List.append_assoc ..).symm) hgoal' fun rest' hhead => ?_
      rw [List.append_assoc]
      simp only [hrun _ (head?_append_congr hhead), Except.bind, hrun' rest' hhead]
    | @error middle last cause hrest hsite hrun' =>
      subst hrest
      refine .error (htokens.trans (List.append_assoc ..).symm)
        (hsite.lift fun used hused => .of_goal hused) fun rest' hhead => ?_
      rw [List.append_assoc]
      simp only [hrun _ (head?_append_congr hhead), Except.bind, hrun' rest' hhead]

theorem Foreseen.map (h : Foreseen run goal tokens) (f : α → α) :
    Foreseen (fun tokens => (run tokens).map fun (value, rest) => (f value, rest)) goal tokens := by
  cases h with
  | ok value htokens hgoal hrun =>
    exact .ok (f value) htokens hgoal fun rest' hhead => by simp only [hrun rest' hhead, Except.map]
  | error htokens hsite hrun =>
    exact .error htokens hsite fun rest' hhead => by simp only [hrun rest' hhead, Except.map]

/-- A token that is passed over, before a reading that may see what comes next. Such a token has
been looked at itself, so nothing that replaces what is behind it changes that. -/
theorem Foreseen.cons {token : Token α} (h : Foreseen run (fun used => goal (token :: used)) tokens)
    (hrun : ∀ after, after.head? = tokens.head? → run' (token :: after) = run after) :
    Foreseen run' goal (token :: tokens) := by
  have hsame : ∀ {front rest rest' : List (Token α)}, tokens = front ++ rest →
      rest'.head? = rest.head? → run' (token :: (front ++ rest')) = run (front ++ rest') := by
    rintro front rest rest' rfl hhead
    exact hrun _ (head?_append_congr hhead)
  cases h with
  | ok value htokens hgoal hok =>
    refine .ok value (congrArg (token :: ·) htokens) hgoal fun rest' hhead => ?_
    exact (hsame htokens hhead).trans (hok rest' hhead)
  | @error front rest cause htokens hsite herror =>
    have hbehind : Site goal ([token] ++ front) rest cause :=
      hsite.lift fun used hused => .of_goal hused
    refine .error (congrArg (token :: ·) htokens) hbehind fun rest' hhead => ?_
    exact (hsame htokens hhead).trans (herror rest' hhead)

/-- A goal may be widened, if the wider one is reached wherever the other one is. -/
theorem Foreseen.mono (h : Foreseen run goal tokens) (hgoal : ∀ used, goal used → goal' used) :
    Foreseen run goal' tokens := by
  cases h with
  | ok value htokens hused hrun => exact .ok value htokens (hgoal _ hused) hrun
  | error htokens hsite hrun =>
    exact .error htokens (hsite.trans fun used hused => .of_goal (hgoal used hused)) hrun

end Combining

/-! ## Chains -/

/-- What a chain reads behind a whole makes a longer whole. The induction is on the tokens that are
left. At each operator the chain may fail in the operand, and there an operand was to be read; or
the operator itself fails, which is a bad quotient. -/
theorem chain_foreseen {join : Joining α} {operand : Production α}
    {whole part : List (Token α) → Prop} (hoperand : ∀ tokens, Foreseen operand.run part tokens)
    (hjoin : OnlyDivides join)
    (hwhole : ∀ {left s right}, join s ≠ none → whole left → part right →
      whole (left ++ .symbol s :: right))
    {left : List (Token α)} (hleft : whole left) (x : α) (tokens : List (Token α)) :
    Foreseen (chain join operand x) (fun used => whole (left ++ used)) tokens := by
  by_cases hoperator : ∃ s after combine, tokens = .symbol s :: after ∧ join s = some combine
  · obtain ⟨s, after, combine, htokens, hs⟩ := hoperator
    have hlonger : ∀ right, part right → whole (left ++ .symbol s :: right) := fun right hright =>
      hwhole (by rw [hs]; nofun) hleft hright
    rw [htokens]
    refine Foreseen.cons ?_ fun after _ => chain_operator hs
    refine (hoperand after).bind
      (fun y rest => (combine x y).bind fun value => chain join operand value rest)
      (fun right hright => .of_goal (hlonger right hright)) ?_
    intro right rest y hafter hright hrun
    cases hcombine : combine x y with
    | error cause =>
      rw [hjoin hs hcombine]
      exact .error (List.nil_append rest).symm (.divisionNotFinite rest) fun _ _ => rfl
    | ok value =>
      have hshorter : rest.length < tokens.length := by
        rw [htokens]
        exact Nat.lt_succ_of_lt (operand.shorter hrun)
      refine (chain_foreseen hoperand hjoin hwhole (hlonger right hright) value rest).mono ?_
      intro used hused
      simpa using hused
  · -- No operator of the chain is seen, and none would be seen with another rest.
    refine .stop x (by simpa using hleft) fun rest hhead => chain_stop fun s after hrest => ?_
    rw [hrest, List.head?_cons] at hhead
    obtain ⟨after', htokens⟩ := List.head?_eq_some_iff.mp hhead.symm
    cases hs : join s with
    | none => rfl
    | some combine => exact absurd ⟨s, after', combine, htokens, hs⟩ hoperator
termination_by tokens.length

/-- A chain of operands: the first one is a whole, and each further one makes a longer one. -/
theorem chained_foreseen {join : Joining α} {operand : Production α}
    {whole part : List (Token α) → Prop} (hoperand : ∀ tokens, Foreseen operand.run part tokens)
    (hjoin : OnlyDivides join) (hpart : ∀ {used}, part used → whole used)
    (hwhole : ∀ {left s right}, join s ≠ none → whole left → part right →
      whole (left ++ .symbol s :: right)) (tokens : List (Token α)) :
    Foreseen (operand.chained join).run whole tokens := by
  rw [funext (chained_run operand join)]
  refine (hoperand tokens).bind (chain join operand) (fun used hused => .of_goal (hpart hused)) ?_
  intro left rest x _ hleft _
  exact chain_foreseen hoperand hjoin hwhole (hpart hleft) x rest

/-! ## The productions -/

section Grammar

open PhasePortrait.Expr.Tree

/-- The tokens that are read as a factor, a term and an expression: those that some tree of the kind
yields. These are the goals of the three productions. -/
def IsFactor (used : List (Token α)) : Prop := ∃ f : Factor α, f.yield = used

def IsTerm (used : List (Token α)) : Prop := ∃ t : Term α, t.yield = used

def IsExpression (used : List (Token α)) : Prop := ∃ e : Tree.Expression α, e.yield = used

omit [Numeral α] in
/-- Where an operand is missing, a name can stand. -/
theorem opens_factor : Opens IsFactor ([] : List (Token α)) := ⟨[.var .x], .base (.var .x), rfl⟩

variable [Scalar α]

/-- An expression is a chain of terms, and a term a chain of factors. With what reads a factor
given, both chains are. -/
theorem expression_foreseen {p : Production α} (hp : ∀ tokens, Foreseen p.run IsFactor tokens)
    (tokens : List (Token α)) : Foreseen (expression p).run IsExpression tokens := by
  have hterm : ∀ tokens, Foreseen (term p).run IsTerm tokens := by
    refine chained_foreseen hp joinProduct_onlyDivides ?_ term_longer
    rintro _ ⟨f, rfl⟩
    exact ⟨.factor f, rfl⟩
  refine chained_foreseen hterm joinSum_onlyDivides ?_ expression_longer tokens
  rintro _ ⟨t, rfl⟩
  exact ⟨.term t, rfl⟩

variable [Elementary α]

variable (bindings : Bindings α)

/-- Behind an opening parenthesis an expression is read, and the closing one. Where that is missing
the expression could have been closed, which is what the error says. -/
theorem group_foreseen {inner : Production α} (hinner : ∀ tokens, Foreseen inner.run IsFactor tokens)
    (tokens : List (Token α)) :
    Foreseen (readBase bindings inner) IsFactor (.symbol .opening :: tokens) := by
  have hgroup : ∀ used : List (Token α), IsExpression used →
      IsFactor (.symbol .opening :: (used ++ [.symbol .closing])) := by
    rintro _ ⟨e, rfl⟩
    exact ⟨.base (.group e), rfl⟩
  refine Foreseen.cons ?_ fun after _ => readBase_group bindings inner after
  refine (expression_foreseen hinner tokens).bind closing
    (fun used hused => ⟨_, hgroup used hused⟩) ?_
  intro used rest value _ hused _
  by_cases hhead : rest.head? = some (.symbol .closing)
  · obtain ⟨after, rfl⟩ := List.head?_eq_some_iff.mp hhead
    exact Foreseen.cons (.done value (hgroup used hused)) fun _ _ => rfl
  · refine .error (List.nil_append rest).symm
      (.mismatchedParentheses rest (.of_goal (hgroup used hused))) fun rest' hsame => ?_
    exact closing_mismatched value (hsame ▸ hhead)

/-- All forms of a base: names, numbers, functions and parentheses, by the token that each starts
with. -/
theorem readBase_foreseen {inner : Production α}
    (hinner : ∀ tokens, Foreseen inner.run IsFactor tokens) (tokens : List (Token α)) :
    Foreseen (readBase bindings inner) IsFactor tokens := by
  -- A token that no factor starts with is seen before anything is read.
  have hrefused : ∀ {token : Token α} {after : List (Token α)} {cause : Error},
      Site IsFactor [] (token :: after) cause →
      (∀ after, readBase bindings inner (token :: after) = .error cause) →
      Foreseen (readBase bindings inner) IsFactor (token :: after) := by
    intro token after cause hsite hrun
    refine .error (List.nil_append _).symm hsite fun rest' hhead => ?_
    obtain ⟨after', rfl⟩ := List.head?_eq_some_iff.mp hhead
    exact hrun after'
  rcases tokens with _ | ⟨value | v | f | s | word, after⟩
  case nil =>
    refine .error (List.nil_append _).symm (.unexpectedEnd opens_factor) fun rest' hhead => ?_
    rw [List.head?_eq_none_iff.mp hhead]
    rfl
  case cons.number =>
    exact Foreseen.cons (.done value ⟨.base (.number value), rfl⟩) fun _ _ => rfl
  case cons.var =>
    exact Foreseen.cons (.done (bindings.get v) ⟨.base (.var v), rfl⟩) fun _ _ => rfl
  case cons.func =>
    have hcall : ∀ used : List (Token α), IsFactor used → IsFactor (.func f :: used) := by
      rintro _ ⟨argument, rfl⟩
      exact ⟨.call f argument, rfl⟩
    cases after with
    | nil =>
      refine .error (List.append_nil _).symm (.missingOperand f ?_) fun rest' hhead => ?_
      · exact ⟨[.var .x], hcall _ ⟨.base (.var .x), rfl⟩⟩
      · rw [List.head?_eq_none_iff.mp hhead]
        rfl
    | cons token after =>
      refine Foreseen.cons (((hinner (token :: after)).map f.apply).mono hcall) ?_
      intro rest hhead
      refine readBase_func bindings inner f ?_
      rintro rfl
      cases hhead
  case cons.symbol =>
    cases s with
    | opening => exact group_foreseen bindings hinner after
    | minus =>
      have hnegate : ∀ used : List (Token α), IsFactor used → IsFactor (.symbol .minus :: used) := by
        rintro _ ⟨f, rfl⟩
        exact ⟨.negate f, rfl⟩
      exact Foreseen.cons (((hinner after).map (- ·)).mono hnegate)
        fun rest _ => readBase_minus bindings inner rest
    | _ => exact hrefused (.unexpectedToken _ _ opens_factor) fun _ => rfl
  case cons.unknown =>
    exact hrefused (.unknownToken (.unknown word) _ opens_factor) fun _ => rfl

/-- A factor is a base under signs. The induction is on the levels that are left: what a parenthesis
or a sign holds is read with one level less. -/
theorem factor_foreseen (levels : Nat) (tokens : List (Token α)) :
    Foreseen (factor bindings levels).run IsFactor tokens := by
  induction levels generalizing tokens with
  | zero =>
    cases tokens with
    | nil =>
      refine .error (List.nil_append _).symm (.unexpectedEnd opens_factor) fun rest' hhead => ?_
      rw [List.head?_eq_none_iff.mp hhead]
      rfl
    | cons token after =>
      refine .error (List.nil_append _).symm (.tooDeep _) fun rest' hhead => ?_
      obtain ⟨after', rfl⟩ := List.head?_eq_some_iff.mp hhead
      rfl
  | succ levels ih =>
    rw [funext (factor_succ bindings levels), funext (powered_run _ _)]
    refine (readBase_foreseen bindings ih tokens).bind (raising (factor bindings levels))
      (fun used hused => .of_goal hused) ?_
    intro used rest value htokens hused hrun
    by_cases hhead : rest.head? = some (.symbol .power)
    · -- Only a base leaves a power behind; a sign or a function takes it.
      obtain ⟨after, rfl⟩ := List.head?_eq_some_iff.mp hhead
      obtain ⟨b, hb⟩ | ⟨_, hnone⟩ := readBase_reads bindings (factor_reads bindings levels) hrun
      · obtain rfl : used = b.yield := List.append_cancel_right (htokens.symm.trans hb)
        refine Foreseen.cons (((ih after).map (Elementary.pow value)).mono ?_) fun _ _ => rfl
        rintro _ ⟨exponent, rfl⟩
        exact ⟨.power b exponent, rfl⟩
      · exact absurd hhead hnone
    · refine .stop value (by simpa using hused) fun rest' hsame => ?_
      exact raising_stop _ value (hsame ▸ hhead)

/-! ## The walk -/

/-- Something can be put behind the tokens that makes them an equation, however deep. -/
def Viable (tokens : List (Token α)) : Prop := Opens IsExpression tokens

/-- An error that says that the text is no equation. -/
def Error.refusesForm : Error → Bool
  | .tooDeep => false
  | cause => cause.isParseError

/-- **What is refused for its form, whatever comes behind, cannot be made an equation.** If it
could, the walk would read that equation and find nothing wrong but its value or its nesting. -/
theorem not_viable_of_walk {front : List (Token α)} {token : Token α} {cause : Error}
    (hcause : cause.refusesForm = true)
    (hrun : ∀ rest, rest.head? = some token → walk bindings (front ++ rest) = .error cause) :
    ¬Viable (front ++ [token]) := by
  rintro ⟨rest, e, he⟩
  rw [List.append_assoc] at he
  have hwalk := hrun ([token] ++ rest) rfl
  rw [← he] at hwalk
  obtain ⟨hok, _⟩ | ⟨herror, _⟩ | ⟨herror, _⟩ | ⟨herror, _⟩ := walk_yield_cases bindings e
  · cases hok.symm.trans hwalk
  all_goals
    cases herror.symm.trans hwalk
    cases hcause

theorem walk_of_error {tokens : List (Token α)} {cause : Error}
    (h : (expression (factor bindings maxDepth)).run tokens = .error cause) :
    walk bindings tokens = .error cause := by
  rw [walk, h]

/-- What stands behind a whole expression is blamed by the walk itself. -/
theorem walk_of_trailing {tokens : List (Token α)} {value : α} {token : Token α}
    {rest : List (Token α)}
    (h : (expression (factor bindings maxDepth)).run tokens = .ok (value, token :: rest)) :
    walk bindings tokens = .error (.trailingToken token.text) := by
  rw [walk, h]

/-- The tokens before an index are viable, and not with the token at the index. -/
def FirstImpossible (tokens : List (Token α)) (k : Nat) (token : Token α) : Prop :=
  tokens[k]? = some token ∧ Viable (tokens.take k) ∧ ¬Viable (tokens.take (k + 1))

omit [Numeral α] [Scalar α] [Elementary α] in
/-- The token between what is viable and what is not any more is the first impossible one. -/
theorem firstImpossible_append {front after : List (Token α)} {token : Token α}
    (hviable : Viable front) (hnot : ¬Viable (front ++ [token])) :
    FirstImpossible (front ++ token :: after) front.length token := by
  refine ⟨by simp, by simpa using hviable, ?_⟩
  rwa [List.take_append, List.take_of_length_le (Nat.le_succ _), Nat.add_sub_cancel_left]

/-- What an error of the walk says of the tokens: how much of them is viable, and which token is the
first that makes them impossible. Errors that come of values or of nesting say nothing. -/
inductive Blamed (tokens : List (Token α)) : Error → Prop where
  | unexpectedEnd (h : Viable tokens) : Blamed tokens .unexpectedEnd
  | missingOperand (f) (h : Viable tokens) : Blamed tokens (.missingOperand f)
  | unexpectedToken {k token} (h : FirstImpossible tokens k token) :
    Blamed tokens (.unexpectedToken token.text)
  | unknownToken {k token} (h : FirstImpossible tokens k token) :
    Blamed tokens (.unknownToken token.text)
  | trailingToken {k token} (h : FirstImpossible tokens k token) :
    Blamed tokens (.trailingToken token.text)
  | mismatchedParentheses {k} (hk : k ≤ tokens.length)
    (hclosing : Viable (tokens.take k ++ [.symbol .closing]))
    (hnext : k = tokens.length ∨ ¬Viable (tokens.take (k + 1))) :
    Blamed tokens .mismatchedParentheses
  | tooDeep : Blamed tokens .tooDeep
  | value {cause} (h : cause.isParseError = false) : Blamed tokens cause

/-- A site tells where the front can go on, and the error stays the same whatever comes behind the
token that was looked at. The two together are what blaming that token says. -/
theorem blamed_of_site {front rest : List (Token α)} {cause : Error}
    (hsite : Site IsExpression front rest cause)
    (hrun : ∀ rest', rest'.head? = rest.head? → walk bindings (front ++ rest') = .error cause) :
    Blamed (front ++ rest) cause := by
  cases hsite with
  | unexpectedEnd h => exact .unexpectedEnd (by rwa [List.append_nil])
  | missingOperand f h => exact .missingOperand f (by rwa [List.append_nil])
  | unexpectedToken token after h =>
    exact .unexpectedToken (firstImpossible_append h (not_viable_of_walk bindings rfl hrun))
  | unknownToken token after h =>
    exact .unknownToken (firstImpossible_append h (not_viable_of_walk bindings rfl hrun))
  | mismatchedParentheses rest h =>
    have hclosing : Viable (front ++ [.symbol .closing]) := h
    refine .mismatchedParentheses (k := front.length) (by simp) (by simpa using hclosing) ?_
    cases rest with
    | nil => exact .inl (by simp)
    | cons token after =>
      refine .inr ?_
      rw [List.take_append, List.take_of_length_le (Nat.le_succ _), Nat.add_sub_cancel_left]
      exact not_viable_of_walk bindings rfl hrun
  | tooDeep => exact .tooDeep
  | divisionNotFinite => exact .value rfl

/-- Each error of the walk comes of a site in the expression, or of a token behind it. In both cases
the walk answers the same whatever follows that token, so the token is to blame. -/
theorem walk_blamed {tokens : List (Token α)} {cause : Error}
    (h : walk bindings tokens = .error cause) : Blamed tokens cause := by
  cases expression_foreseen (factor_foreseen bindings maxDepth) tokens with
  | @error front rest cause' htokens hsite hrun =>
    have hwalk : ∀ rest', rest'.head? = rest.head? →
        walk bindings (front ++ rest') = .error cause' := fun rest' hhead =>
      walk_of_error bindings (hrun rest' hhead)
    subst htokens
    cases (hwalk rest rfl).symm.trans h
    exact blamed_of_site bindings hsite hwalk
  | @ok front rest value htokens hgoal hrun =>
    subst htokens
    cases rest with
    | nil =>
      rw [walk, hrun [] rfl] at h
      exact .value (isParseError_of_finite h)
    | cons token after =>
      have hwalk : ∀ rest, rest.head? = some token →
          walk bindings (front ++ rest) = .error (.trailingToken token.text) := by
        intro rest hhead
        have htrailing := hrun rest hhead
        obtain ⟨after', rfl⟩ := List.head?_eq_some_iff.mp hhead
        exact walk_of_trailing bindings htrailing
      cases (hwalk (token :: after) rfl).symm.trans h
      exact .trailingToken
        (firstImpossible_append (.of_goal hgoal) (not_viable_of_walk bindings rfl hwalk))

/-- **An error is found at the first token that makes the text impossible.** Where the text is said
to end too early, all of it is viable. Where a token is blamed, the tokens before it are viable and
no longer with it, and the text that is told is the text of that token. Where a parenthesis is
missing, it could stand behind viable tokens, and either the text ends there or the token that stands
there instead makes it impossible. -/
theorem errors_blame_first_impossible_token (tokens : List (Token α)) :
    (∀ cause, walk bindings tokens = .error cause →
      cause = .unexpectedEnd ∨ (∃ f, cause = .missingOperand f) → Viable tokens) ∧
    (∀ text, walk bindings tokens = .error (.unexpectedToken text) ∨
        walk bindings tokens = .error (.unknownToken text) ∨
        walk bindings tokens = .error (.trailingToken text) →
      ∃ k token, tokens[k]? = some token ∧ token.text = text ∧
        Viable (tokens.take k) ∧ ¬Viable (tokens.take (k + 1))) ∧
    (walk bindings tokens = .error .mismatchedParentheses →
      ∃ k ≤ tokens.length, Viable (tokens.take k ++ [.symbol .closing]) ∧
        (k = tokens.length ∨ ¬Viable (tokens.take (k + 1)))) := by
  refine ⟨fun cause hwalk hcause => ?_, fun text hwalk => ?_, fun hwalk => ?_⟩
  · have hblamed := walk_blamed bindings hwalk
    obtain rfl | ⟨f, rfl⟩ := hcause
    · cases hblamed with
      | unexpectedEnd h => exact h
      | value h => cases h
    · cases hblamed with
      | missingOperand _ h => exact h
      | value h => cases h
  · obtain hwalk | hwalk | hwalk := hwalk
    · cases walk_blamed bindings hwalk with
      | unexpectedToken h => exact ⟨_, _, h.1, rfl, h.2⟩
      | value h => cases h
    · cases walk_blamed bindings hwalk with
      | unknownToken h => exact ⟨_, _, h.1, rfl, h.2⟩
      | value h => cases h
    · cases walk_blamed bindings hwalk with
      | trailingToken h => exact ⟨_, _, h.1, rfl, h.2⟩
      | value h => cases h
  · cases walk_blamed bindings hwalk with
    | mismatchedParentheses hk hclosing hnext => exact ⟨_, hk, hclosing, hnext⟩
    | value h => cases h

end Grammar

end Looking

end PhasePortrait.Expr
