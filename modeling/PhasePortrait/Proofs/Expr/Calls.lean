import Mathlib.Logic.Relation
import PhasePortrait.Proofs.Expr.Reading

/-!
# The walk, call by call

The walk again, as a machine that makes one call after another. What the productions hand to each
other is said outright here: the **position** of the next token, a counter of the **depth** that goes
up when a factor is entered and down when it is left, and a stack of the calls that are under way and
wait for one of their own.

A factor counts before it is read, so one factor call more than there are levels may be made; it
finds that the counter is too high, and fails. An error ends every call at once and leaves the
counters where they are. A call that returns hands its value to the innermost call that waits.

The machine is the walk: each of its calls comes to what the production of the call reads at its
position, with the levels that the depth leaves (`rule_performs`), so its answer is the answer of the
walk (`start_reaches_walk`).
-/

namespace PhasePortrait.Expr

/-! ## The machine -/

/-- What a call reads. -/
inductive Rule where
  | expression
  | term
  | factor
  | base
deriving DecidableEq, Repr

/-- The two chains. -/
inductive Chain where
  | sum
  | product
deriving DecidableEq, Repr

/-- The call that reads a chain. -/
def Chain.rule : Chain → Rule
  | sum => .expression
  | product => .term

/-- The calls that a chain makes. -/
def Chain.operand : Chain → Rule
  | sum => .term
  | product => .factor

/-- What a call reads and changes besides the tokens. Both go up while calls are made, and only the
depth comes down again. -/
structure Counters where
  /-- The tokens that are used up. -/
  position : Nat
  /-- The factors that are being read. -/
  depth : Nat
deriving DecidableEq, Repr

namespace Counters

/-- Past one token more. -/
def next (c : Counters) : Counters := { c with position := c.position + 1 }

/-- Inside one factor more. -/
def descend (c : Counters) : Counters := { c with depth := c.depth + 1 }

/-- Out of a factor. -/
def ascend (c : Counters) : Counters := { c with depth := c.depth - 1 }

end Counters

/-- What a call waits for, with what it knows already. -/
inductive Pending (α : Type) where
  /-- The first operand of a chain. -/
  | first (chain : Chain)
  /-- The operand behind an operator of a chain, and what it is joined to. -/
  | next (chain : Chain) (join : α → Except Error α)
  /-- The base of a factor. -/
  | base
  /-- The exponent of a factor. -/
  | exponent (base : α)
  | argument (f : Func)
  /-- What stands in parentheses. -/
  | contents
  /-- What stands behind a sign. -/
  | operand

/-- The call that waits. -/
def Pending.rule {α : Type} : Pending α → Rule
  | first chain | next chain _ => chain.rule
  | base | exponent _ => .factor
  | argument _ | contents | operand => .base

/-- The call that it waits for. -/
def Pending.callee {α : Type} : Pending α → Rule
  | first chain | next chain _ => chain.operand
  | base => .base
  | contents => .expression
  | exponent _ | argument _ | operand => .factor

/-- A call that waits. -/
structure Suspended (α : Type) where
  /-- The counters as it found them. -/
  entry : Counters
  pending : Pending α

/-- Where the machine is. The innermost call that waits comes first. -/
inductive Moment (α : Type) where
  /-- A call is made. -/
  | calling (rule : Rule) (entry : Counters) (stack : List (Suspended α))
  /-- A call returns a value. -/
  | returning (rule : Rule) (entry : Counters) (value : α) (exit : Counters)
    (stack : List (Suspended α))
  /-- All is done. -/
  | answered (result : Except Error α)

/-- The calls that are under way, the innermost one first. -/
def Moment.active {α : Type} : Moment α → List Rule
  | calling rule _ stack | returning rule _ _ _ stack =>
    rule :: stack.map fun call => call.pending.rule
  | answered _ => []

section Machine

variable {α : Type}

/-- The symbol at a position, if there is one. -/
def symbolAt? (tokens : List (Token α)) (position : Nat) : Option Symbol :=
  match tokens[position]? with
  | some (.symbol s) => some s
  | _ => none

variable [Scalar α]

/-- The operators of a chain. -/
def Chain.join : Chain → Joining α
  | sum => joinSum
  | product => joinProduct

/-- The operator of a chain at a position, if there is one. -/
def operatorAt? (tokens : List (Token α)) (chain : Chain) (position : Nat) :
    Option (α → α → Except Error α) :=
  (symbolAt? tokens position).bind chain.join

/-- A chain goes on behind its operator, or ends. -/
def goOn (tokens : List (Token α)) (chain : Chain) (entry : Counters) (left : α) (c : Counters)
    (stack : List (Suspended α)) : Moment α :=
  match operatorAt? tokens chain c.position with
  | some combine => .calling chain.operand c.next (⟨entry, .next chain (combine left)⟩ :: stack)
  | none => .returning chain.rule entry left c stack

variable [Elementary α]

/-- The innermost call that waits is given its value. It goes on with what it waits for: another
operator, an exponent, the end of a group, or its own return. Only here are levels given back. -/
def resume (tokens : List (Token α)) (call : Suspended α) (value : α) (c : Counters)
    (stack : List (Suspended α)) : Moment α :=
  match call.pending with
  | .first chain => goOn tokens chain call.entry value c stack
  | .next chain join =>
    match join value with
    | .error cause => .answered (.error cause)
    | .ok joined => goOn tokens chain call.entry joined c stack
  | .base =>
    if symbolAt? tokens c.position = some .power then
      .calling .factor c.next (⟨call.entry, .exponent value⟩ :: stack)
    else .returning .factor call.entry value c.ascend stack
  | .exponent base => .returning .factor call.entry (Elementary.pow base value) c.ascend stack
  | .argument f => .returning .base call.entry (f.apply value) c stack
  | .contents =>
    if symbolAt? tokens c.position = some .closing then
      .returning .base call.entry value c.next stack
    else .answered (.error .mismatchedParentheses)
  | .operand => .returning .base call.entry (-value) c stack

variable [Numeral α]

/-- The call of a base, at its first token. A token that is a value is passed and returned, and one
that begins something larger leads to one call. -/
def callBase (bindings : Bindings α) (tokens : List (Token α)) (c : Counters)
    (stack : List (Suspended α)) : Token α → Moment α
  | .number value => .returning .base c value c.next stack
  | .var v => .returning .base c (bindings.get v) c.next stack
  | .func f =>
    match tokens[c.position + 1]? with
    | none => .answered (.error (.missingOperand f))
    | some _ => .calling .factor c.next (⟨c, .argument f⟩ :: stack)
  | .symbol .opening => .calling .expression c.next (⟨c, .contents⟩ :: stack)
  | .symbol .minus => .calling .factor c.next (⟨c, .operand⟩ :: stack)
  | .symbol s => .answered (.error (.unexpectedToken (Token.text (.symbol s : Token α))))
  | .unknown word => .answered (.error (.unknownToken word))

/-- What the walk makes of the value of the whole expression. -/
def answer (tokens : List (Token α)) (value : α) (c : Counters) : Except Error α :=
  match tokens[c.position]? with
  | some token => .error (.trailingToken token.text)
  | none => if Scalar.isFinite value then .ok value else .error .nonFinite

/-- One step of the machine: the innermost call looks at the next token, or the value of a call is
handed to the one that waits for it. An answer is the end. -/
def Moment.step (bindings : Bindings α) (tokens : List (Token α)) : Moment α → Option (Moment α)
  | .calling .expression c stack =>
    match tokens[c.position]? with
    | none => some (.answered (.error .unexpectedEnd))
    | some _ => some (.calling .term c (⟨c, .first .sum⟩ :: stack))
  | .calling .term c stack => some (.calling .factor c (⟨c, .first .product⟩ :: stack))
  | .calling .factor c stack =>
    match tokens[c.position]? with
    | none => some (.answered (.error .unexpectedEnd))
    | some _ =>
      if maxDepth < c.descend.depth then some (.answered (.error .tooDeep))
      else some (.calling .base c.descend (⟨c, .base⟩ :: stack))
  | .calling .base c stack =>
    match tokens[c.position]? with
    | none => some (.answered (.error .unexpectedEnd))
    | some token => some (callBase bindings tokens c stack token)
  | .returning _ _ value c (call :: stack) => some (resume tokens call value c stack)
  | .returning _ _ value c [] => some (.answered (answer tokens value c))
  | .answered _ => none

/-- The walk starts with the call of an expression. -/
def Moment.start : Moment α := .calling .expression ⟨0, 0⟩ []

/-- Some steps of the machine, one after another. -/
def Reaches (bindings : Bindings α) (tokens : List (Token α)) : Moment α → Moment α → Prop :=
  Relation.ReflTransGen fun m m' => m.step bindings tokens = some m'

/-- The production of a call, with some levels left for the factors inside it. -/
def Rule.production (bindings : Bindings α) (levels : Nat) : Rule → Production α
  | expression => Expr.expression (Expr.factor bindings levels)
  | term => Expr.term (Expr.factor bindings levels)
  | factor => Expr.factor bindings levels
  | base => Expr.base bindings (Expr.factor bindings levels)

end Machine

/-! ## Tokens at a position -/

section Positions

variable {α : Type} {tokens : List (Token α)} {position : Nat}

/-- The machine looks tokens up by their position, and the productions take them off the front of a
list. The tokens from a position on are the list; these lemmas go back and forth. -/
theorem drop_of_some {token : Token α} (h : tokens[position]? = some token) :
    tokens.drop position = token :: tokens.drop (position + 1) := by
  obtain ⟨hlt, rfl⟩ := List.getElem?_eq_some_iff.mp h
  exact List.drop_eq_getElem_cons hlt

theorem drop_of_none (h : tokens[position]? = none) : tokens.drop position = [] :=
  List.drop_eq_nil_of_le (List.getElem?_eq_none_iff.mp h)

/-- The token at a position is the first of those from there on. -/
theorem getElem?_of_drop {rest : List (Token α)} (h : tokens.drop position = rest) :
    tokens[position]? = rest.head? := by
  rw [← h, List.head?_drop]

/-- A symbol at a position is a token, in terms of which the machine is described. -/
theorem symbolAt?_eq_some {s : Symbol} :
    symbolAt? tokens position = some s ↔ tokens[position]? = some (.symbol s) := by
  unfold symbolAt?
  split <;> simp_all

/-- With a symbol at a position, the list from there on starts with it. -/
theorem drop_of_symbolAt? {s : Symbol} (h : symbolAt? tokens position = some s) :
    tokens.drop position = .symbol s :: tokens.drop (position + 1) :=
  drop_of_some (symbolAt?_eq_some.mp h)

/-- Where a symbol is not found, the list does not start with it. -/
theorem head?_ne_of_symbolAt? {s : Symbol} (h : symbolAt? tokens position ≠ some s) :
    (tokens.drop position).head? ≠ some (.symbol s) := by
  rw [List.head?_drop]
  exact mt symbolAt?_eq_some.mpr h

/-- A symbol where a chain finds no operator is none of its operators. -/
theorem join_of_operatorAt? [Scalar α] {chain : Chain} {s : Symbol}
    (h : operatorAt? tokens chain position = none)
    (hs : tokens[position]? = some (.symbol s)) : chain.join (α := α) s = none := by
  rwa [operatorAt?, symbolAt?_eq_some.mpr hs] at h

end Positions

/-! ## What a moment leads to -/

section Simulation

variable {α : Type} [Scalar α] [Elementary α] [Numeral α]

/-- A moment leads to what a reading says: to its error, or to the moment after it. -/
def Leads (bindings : Bindings α) (tokens : List (Token α)) (m : Moment α) (reading : Reading α)
    (after : α → Nat → Moment α) : Prop :=
  match reading with
  | .error cause => Reaches bindings tokens m (.answered (.error cause))
  | .ok (value, rest) =>
    ∃ position, rest = tokens.drop position ∧ Reaches bindings tokens m (after value position)

variable {bindings : Bindings α} {tokens : List (Token α)} {m m' : Moment α} {reading : Reading α}
  {after later : α → Nat → Moment α}

theorem Reaches.single (h : m.step bindings tokens = some m') : Reaches bindings tokens m m' :=
  Relation.ReflTransGen.single h

theorem Leads.of_reaches (h : Reaches bindings tokens m m')
    (h' : Leads bindings tokens m' reading after) : Leads bindings tokens m reading after := by
  cases reading with
  | error cause => exact Relation.ReflTransGen.trans h h'
  | ok result =>
    obtain ⟨position, hrest, hreach⟩ := h'
    exact ⟨position, hrest, Relation.ReflTransGen.trans h hreach⟩

theorem Leads.of_step (h : m.step bindings tokens = some m')
    (h' : Leads bindings tokens m' reading after) : Leads bindings tokens m reading after :=
  .of_reaches (.single h) h'

theorem Leads.done (value : α) (position : Nat) (h : m = after value position) :
    Leads bindings tokens m (.ok (value, tokens.drop position)) after :=
  ⟨position, rfl, h ▸ .refl⟩

theorem Leads.failed (cause : Error) :
    Leads bindings tokens (.answered (.error cause)) (.error cause) after :=
  Relation.ReflTransGen.refl

/-- One reading after another. -/
theorem Leads.bind (h : Leads bindings tokens m reading after)
    {next : α × List (Token α) → Reading α}
    (hnext : ∀ value position, reading = .ok (value, tokens.drop position) →
      Leads bindings tokens (after value position) (next (value, tokens.drop position)) later) :
    Leads bindings tokens m (reading.bind next) later := by
  cases reading with
  | error cause => exact h
  | ok result =>
    obtain ⟨value, rest⟩ := result
    obtain ⟨position, rfl, hreach⟩ := h
    exact .of_reaches hreach (hnext value position rfl)

/-- The value of a reading is made into another one, and no more is read. -/
theorem Leads.map (h : Leads bindings tokens m reading after) {f : α → α}
    (hnext : ∀ value position,
      (after value position).step bindings tokens = some (later (f value) position)) :
    Leads bindings tokens m (reading.map fun (value, rest) => (f value, rest)) later := by
  cases reading with
  | error cause => exact h
  | ok result =>
    obtain ⟨value, rest⟩ := result
    obtain ⟨position, rfl, hreach⟩ := h
    exact .of_reaches hreach (.of_step (hnext value position) (.done (f value) position rfl))

/-! ## The machine reads what the productions read -/

/-- A call comes to what a production reads at its position, at the depth it was made at. -/
def Performs (bindings : Bindings α) (tokens : List (Token α)) (rule : Rule) (depth : Nat)
    (p : Production α) : Prop :=
  ∀ position stack,
    Leads bindings tokens (.calling rule ⟨position, depth⟩ stack) (p.run (tokens.drop position))
      fun value after => .returning rule ⟨position, depth⟩ value ⟨after, depth⟩ stack

variable {chain : Chain} {operand inner : Production α} {depth levels : Nat}

/-- A call with nothing to read fails. A term leaves that to its first factor. -/
theorem nothing_leads {rule : Rule} (hrule : rule ≠ .term) {entry : Counters}
    (h : tokens[entry.position]? = none) (stack : List (Suspended α)) :
    Leads bindings tokens (.calling rule entry stack) (.error .unexpectedEnd) after := by
  refine .of_step ?_ (.failed .unexpectedEnd)
  cases rule with
  | term => exact absurd rfl hrule
  | expression | factor | base => simp only [Moment.step, h]

/-- A chain goes on as its loop does. The induction is on the tokens that are left; at each operator
the chain waits for an operand and is then resumed with the counters that the operand has left. -/
theorem goOn_leads (hoperand : Performs bindings tokens chain.operand depth operand)
    (entry : Counters) (stack : List (Suspended α)) (left : α) (position : Nat) :
    Leads bindings tokens (goOn tokens chain entry left ⟨position, depth⟩ stack)
      (Expr.chain chain.join operand left (tokens.drop position))
      fun value after => .returning chain.rule entry value ⟨after, depth⟩ stack := by
  -- Each turn of the loop leaves fewer tokens.
  induction hlength : (tokens.drop position).length using Nat.strongRecOn
    generalizing left position with
  | ind length ih =>
    unfold goOn
    cases hoperator : operatorAt? tokens chain position with
    | none =>
      have hstop : ∀ s rest, tokens.drop position = .symbol s :: rest →
          chain.join (α := α) s = none := by
        intro s rest hdrop
        exact join_of_operatorAt? hoperator (getElem?_of_drop hdrop)
      rw [chain_stop hstop]
      exact .done left position rfl
    | some combine =>
      obtain ⟨s, hs, hjoin⟩ := Option.bind_eq_some_iff.mp hoperator
      rw [drop_of_symbolAt? hs, chain_operator hjoin]
      refine (hoperand (position + 1) _).bind fun right next hrun => ?_
      refine .of_step rfl ?_
      simp only [resume]
      cases combine left right with
      | error cause => exact .failed cause
      | ok joined =>
        refine ih _ ?_ joined next rfl
        have hshorter := operand.shorter hrun
        rw [← hlength, drop_of_symbolAt? hs, List.length_cons]
        omega

/-- The call of a chain, once its first operand is called. -/
theorem chained_leads (chain : Chain)
    (hoperand : Performs bindings tokens chain.operand depth operand)
    (entry : Counters) (stack : List (Suspended α)) (position : Nat) :
    Leads bindings tokens
      (.calling chain.operand ⟨position, depth⟩ (⟨entry, .first chain⟩ :: stack))
      ((operand.chained chain.join).run (tokens.drop position))
      fun value after => .returning chain.rule entry value ⟨after, depth⟩ stack := by
  rw [chained_run]
  refine (hoperand position _).bind fun left next _ => ?_
  exact .of_step rfl (goOn_leads hoperand entry stack left next)

/-- A term is the chain of products, with factors that are performed. -/
theorem term_performs (hinner : Performs bindings tokens .factor depth inner) :
    Performs bindings tokens .term depth (term inner) := fun position stack =>
  .of_step rfl (chained_leads .product hinner ⟨position, depth⟩ stack position)

/-- An expression is the chain of sums. It looks whether there is a token before it makes a call,
and a factor with nothing to read fails in the same way. -/
theorem expression_performs (hinner : Performs bindings tokens .factor depth inner)
    (hend : inner.run [] = .error .unexpectedEnd) :
    Performs bindings tokens .expression depth (expression inner) := by
  intro position stack
  cases htoken : tokens[position]? with
  | none =>
    have hrun : (expression inner).run [] = .error .unexpectedEnd := by
      rw [expression, chained_run, term, chained_run, hend]
      rfl
    rw [drop_of_none htoken, hrun]
    exact nothing_leads (by decide) htoken stack
  | some token =>
    have hstep : Moment.step bindings tokens (.calling .expression ⟨position, depth⟩ stack) =
        some (.calling .term ⟨position, depth⟩ (⟨⟨position, depth⟩, .first .sum⟩ :: stack)) := by
      simp only [Moment.step, htoken]
    exact .of_step hstep
      (chained_leads .sum (term_performs hinner) ⟨position, depth⟩ stack position)

/-- A factor with nothing to read has no value, whatever levels are left. -/
theorem factor_nil (bindings : Bindings α) (levels : Nat) :
    (factor bindings levels).run [] = .error .unexpectedEnd := by
  cases levels <;> rfl

/-- A base, by the token at the position. What it holds is a factor at the depth that was found, or
an expression of such factors. -/
theorem base_performs (hinner : Performs bindings tokens .factor depth inner)
    (hend : inner.run [] = .error .unexpectedEnd) :
    Performs bindings tokens .base depth (base bindings inner) := by
  intro position stack
  cases htoken : tokens[position]? with
  | none =>
    rw [drop_of_none htoken]
    exact nothing_leads (by decide) htoken stack
  | some token =>
    have hstep : Moment.step bindings tokens (.calling .base ⟨position, depth⟩ stack) =
        some (callBase bindings tokens ⟨position, depth⟩ stack token) := by
      simp only [Moment.step, htoken]
    refine .of_step hstep ?_
    rw [drop_of_some htoken, Tree.base_run]
    cases token with
    | number value => exact .done value (position + 1) rfl
    | var v => exact .done (bindings.get v) (position + 1) rfl
    | unknown word => exact .failed _
    | func f =>
      simp only [callBase]
      cases hoperand : tokens[position + 1]? with
      | none =>
        rw [drop_of_none hoperand]
        exact .failed _
      | some first =>
        rw [Tree.readBase_func _ _ _ (by simp [drop_of_some hoperand])]
        exact (hinner (position + 1) _).map fun value after => rfl
    | symbol s =>
      cases s with
      | minus =>
        rw [Tree.readBase_minus]
        exact (hinner (position + 1) _).map fun value after => rfl
      | opening =>
        rw [Tree.readBase_group]
        refine (expression_performs hinner hend (position + 1) _).bind fun value after _ => ?_
        refine .of_step rfl ?_
        simp only [resume]
        split
        next hclosing =>
          rw [drop_of_symbolAt? hclosing]
          exact .done value (after + 1) rfl
        next hclosing =>
          rw [Tree.closing_mismatched value (head?_ne_of_symbolAt? hclosing)]
          exact .failed _
      | _ => exact .failed _

/-- By induction on the levels that are left: a factor goes down one level, and is performed there
if those inside it are. -/
theorem factor_performs (hlevels : depth + levels = maxDepth) :
    Performs bindings tokens .factor depth (factor bindings levels) := by
  induction levels generalizing depth with
  | zero =>
    intro position stack
    cases htoken : tokens[position]? with
    | none =>
      rw [drop_of_none htoken]
      exact nothing_leads (by decide) htoken stack
    | some token =>
      -- The counter goes up before anything is read.
      have hdeep : maxDepth < depth + 1 := by omega
      rw [drop_of_some htoken]
      refine .of_step ?_ (.failed .tooDeep)
      simp only [Moment.step, htoken, Counters.descend]
      exact if_pos hdeep
  | succ levels ih =>
    have hinner : Performs bindings tokens .factor (depth + 1) (factor bindings levels) :=
      ih (by omega)
    intro position stack
    rw [Tree.factor_succ, Tree.powered_run]
    cases htoken : tokens[position]? with
    | none =>
      rw [drop_of_none htoken]
      exact nothing_leads (by decide) htoken stack
    | some token =>
      have hroom : ¬maxDepth < depth + 1 := by omega
      have hstep : Moment.step bindings tokens (.calling .factor ⟨position, depth⟩ stack) =
          some (.calling .base ⟨position, depth + 1⟩ (⟨⟨position, depth⟩, .base⟩ :: stack)) := by
        simp only [Moment.step, htoken, Counters.descend]
        exact if_neg hroom
      refine .of_step hstep ?_
      refine (base_performs hinner (factor_nil bindings levels) position _).bind
        fun value after _ => ?_
      refine .of_step rfl ?_
      simp only [resume]
      split
      next hpower =>
        rw [drop_of_symbolAt? hpower]
        exact (hinner (after + 1) _).map fun exponent after => rfl
      next hpower =>
        rw [Tree.raising_stop _ value (head?_ne_of_symbolAt? hpower)]
        exact .done value after rfl

variable (bindings tokens) in
/-- **Every call comes to what its production reads**, with the levels that the depth leaves, and
whatever calls wait for it. -/
theorem rule_performs (rule : Rule) (hlevels : depth + levels = maxDepth) :
    Performs bindings tokens rule depth (rule.production bindings levels) := by
  have hfactor : Performs bindings tokens .factor depth (factor bindings levels) :=
    factor_performs hlevels
  cases rule with
  | expression => exact expression_performs hfactor (factor_nil bindings levels)
  | term => exact term_performs hfactor
  | factor => exact hfactor
  | base => exact base_performs hfactor (factor_nil bindings levels)

/-- **The machine answers what the walk answers.** The whole expression is a call with no other call
around it; what is left is to look behind it and at its value. -/
theorem start_reaches_walk (bindings : Bindings α) (tokens : List (Token α)) :
    Reaches bindings tokens .start (.answered (walk bindings tokens)) := by
  have hcall := rule_performs bindings tokens .expression (Nat.zero_add maxDepth) 0 []
  rw [List.drop_zero] at hcall
  unfold walk
  change Leads bindings tokens .start ((expression (factor bindings maxDepth)).run tokens) _
    at hcall
  split
  next cause hrun =>
    rw [hrun] at hcall
    exact hcall
  next value token rest hrun =>
    rw [hrun] at hcall
    obtain ⟨position, hrest, hreach⟩ := hcall
    refine hreach.tail ?_
    simp only [Moment.step, answer, getElem?_of_drop hrest.symm, List.head?_cons]
  next value hrun =>
    rw [hrun] at hcall
    obtain ⟨position, hrest, hreach⟩ := hcall
    refine hreach.tail ?_
    simp only [Moment.step, answer, getElem?_of_drop hrest.symm, List.head?_nil]

end Simulation

end PhasePortrait.Expr
