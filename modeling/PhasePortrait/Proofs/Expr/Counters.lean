import PhasePortrait.Binary64.Text
import PhasePortrait.Proofs.Expr.Calls

/-!
# The counters of the walk

What the calls of the walk do to its counters, whatever the tokens are. A call that returns has used
up a token, has put the depth back to where it was, and stands before a token that what it read could
not have gone on with. The calls that are under way are as deep as the depth says, which a factor
checks as it is entered; so there are never more of them than a constant, and every run ends.

Nothing is said of the counters once an error has ended the calls: it leaves the depth where it was.

The invariant (`Moment.Sound`) is about the calls that wait: each of them knows the counters as it
found them, and the call it waits for was made no earlier, and one level deeper if it is a factor
that waits. Every step keeps it.
-/

namespace PhasePortrait.Expr

/-! ## What a call adds to the depth, and to the stack -/

/-- The symbols that what a call reads could go on with. -/
def Rule.continues : Rule → List Symbol
  | expression => [.plus, .minus, .times, .divide, .power]
  | term => [.times, .divide, .power]
  | factor => [.power]
  | base => []

/-- How much deeper the calls are that a call makes. -/
def Rule.levels : Rule → Nat
  | factor => 1
  | expression | term | base => 0

theorem Chain.levels_rule (chain : Chain) : chain.rule.levels = 0 := by
  cases chain <;> rfl

/-- How many calls there can be on one level, down to a call of this kind. A base stands at the end
of the level above it. -/
def Rule.rank : Rule → Nat
  | base => 0
  | expression => 1
  | term => 2
  | factor => 3

/-- There are four kinds of calls on a level, so no rank is above three. -/
theorem Rule.rank_le (rule : Rule) : rule.rank ≤ 3 := by
  cases rule <;> decide

/-- A call that waits and the one it waits for: either the rank goes up by one at least, or the
depth goes up by a level, which makes up for the rank that starts anew. -/
theorem Pending.rank_callee_le {α : Type} (pending : Pending α) :
    pending.rule.rank + 1 ≤ 4 * pending.rule.levels + pending.callee.rank := by
  cases pending with
  | first chain | next chain join => cases chain <;> exact Nat.le_of_ble_eq_true rfl
  | _ => exact Nat.le_of_ble_eq_true rfl

/-- What a chain could go on with is what its operand could, or an operator of its own. -/
theorem Chain.continues_cases {α : Type} [Scalar α] (chain : Chain) {s : Symbol}
    (h : s ∈ chain.rule.continues) :
    s ∈ chain.operand.continues ∨ chain.join (α := α) s ≠ none := by
  cases chain <;> cases s <;> simp_all [rule, operand, Rule.continues, join, joinSum, joinProduct]

/-! ## The invariant -/

section Invariant

variable {α : Type}

/-- What a call that returns has done to the counters, and what it stands before. -/
structure Restored (tokens : List (Token α)) (rule : Rule) (entry exit : Counters) : Prop where
  forward : entry.position < exit.position
  inside : exit.position ≤ tokens.length
  depth : exit.depth = entry.depth
  ended : ∀ s ∈ rule.continues, tokens[exit.position]? ≠ some (.symbol s)

/-- The calls that wait for a call: the first one is the call of the whole expression, and each one
of the others was made by the one below it. -/
inductive Stacked : Rule → Counters → List (Suspended α) → Prop where
  | outermost : Stacked .expression ⟨0, 0⟩ []
  | made {call : Suspended α} {rule : Rule} {entry : Counters} {stack : List (Suspended α)}
    (callee : call.pending.callee = rule)
    (forward : call.entry.position ≤ entry.position)
    (deeper : entry.depth = call.entry.depth + call.pending.rule.levels)
    (bounded : entry.depth ≤ maxDepth)
    (outer : Stacked call.pending.rule call.entry stack) : Stacked rule entry (call :: stack)

/-- The calls that are under way wait for each other, and one that returns has restored the
counters. -/
def Moment.Sound (tokens : List (Token α)) : Moment α → Prop
  | calling rule entry stack => Stacked rule entry stack
  | returning rule entry _ exit stack =>
    Stacked rule entry stack ∧ Restored tokens rule entry exit
  | answered _ => True

variable {tokens : List (Token α)} {rule : Rule} {entry exit : Counters}
  {stack : List (Suspended α)}

/-- The calls that wait are never deeper than the levels allow, as a factor checks that before it
makes a call. -/
theorem Stacked.depth_le (h : Stacked rule entry stack) : entry.depth ≤ maxDepth := by
  cases h with
  | outermost => exact Nat.zero_le _
  | made _ _ _ bounded _ => exact bounded

/-- The depth counts the factors that wait. -/
theorem Stacked.count_factor (h : Stacked rule entry stack) :
    (stack.map fun call => call.pending.rule).count .factor = entry.depth := by
  induction h with
  | outermost => rfl
  | @made call _ _ _ _ _ deeper _ _ ih =>
    rw [List.map_cons, List.count_cons, ih, deeper]
    cases call.pending.rule <;> rfl

/-- On every level there are four calls at most: the factor, the base, the expression and the
term. -/
theorem Stacked.length_lt (h : Stacked rule entry stack) :
    stack.length < 4 * entry.depth + rule.rank := by
  induction h with
  | outermost => exact Nat.one_pos
  | @made call _ _ _ callee _ deeper _ _ ih =>
    have hrank := call.pending.rank_callee_le
    rw [callee] at hrank
    rw [List.length_cons, deeper]
    omega

/-- One factor may be under way for each level, and one that is about to find that there is none. -/
theorem Stacked.count_active_le (h : Stacked rule entry stack) :
    (rule :: stack.map fun call => call.pending.rule).count .factor ≤ maxDepth + 1 := by
  have hdepth := h.depth_le
  rw [List.count_cons, h.count_factor]
  split <;> omega

/-- The calls under way are at most four for each level that there is, and three of the next one. -/
theorem Stacked.length_active_le (h : Stacked rule entry stack) :
    (rule :: stack.map fun call => call.pending.rule).length ≤ 4 * maxDepth + 3 := by
  have hdepth := h.depth_le
  have hlength := h.length_lt
  have hrank := rule.rank_le
  rw [List.length_cons, List.length_map]
  omega

theorem Moment.Sound.active_le {m : Moment α} (h : m.Sound tokens) :
    m.active.count .factor ≤ maxDepth + 1 ∧ m.active.length ≤ 4 * maxDepth + 3 := by
  cases m with
  | calling => exact ⟨h.count_active_le, h.length_active_le⟩
  | returning => exact ⟨h.1.count_active_le, h.1.length_active_le⟩
  | answered => exact ⟨Nat.zero_le _, Nat.zero_le _⟩

/-- A call that returns to one that was made before it, at the same depth. -/
theorem Restored.from_earlier {earlier : Counters} (h : Restored tokens rule entry exit)
    (hposition : earlier.position ≤ entry.position) (hdepth : entry.depth = earlier.depth) :
    Restored tokens rule earlier exit where
  forward := Nat.lt_of_le_of_lt hposition h.forward
  inside := h.inside
  depth := h.depth.trans hdepth
  ended := h.ended

/-- Nothing goes on behind a base, whatever it ends with. -/
theorem Restored.base (h : Restored tokens rule entry exit) :
    Restored tokens .base entry exit where
  forward := h.forward
  inside := h.inside
  depth := h.depth
  ended _ hs := absurd hs List.not_mem_nil

/-- A token that is there can be passed. -/
theorem Restored.past {token : Token α} (hforward : entry.position ≤ exit.position)
    (hdepth : exit.depth = entry.depth) (htoken : tokens[exit.position]? = some token) :
    Restored tokens .base entry exit.next where
  forward := Nat.lt_succ_of_le hforward
  inside := (List.getElem?_eq_some_iff.mp htoken).1
  depth := hdepth
  ended _ hs := absurd hs List.not_mem_nil

end Invariant

/-! ## Every step keeps the invariant -/

section Steps

variable {α : Type} [Scalar α] {tokens : List (Token α)} {rule : Rule} {entry exit : Counters}
  {stack : List (Suspended α)} {m m' : Moment α}

/-- A chain goes on at the depth that it was called at, with one operator and one operand read. If
there is no operator, what ended the operand ends the chain too. -/
theorem goOn_sound {chain : Chain} (left : α) (hstack : Stacked chain.rule entry stack)
    (h : Restored tokens chain.operand entry exit) :
    (goOn tokens chain entry left exit stack).Sound tokens := by
  unfold goOn
  cases hoperator : operatorAt? tokens chain exit.position with
  | some combine =>
    have hdeeper : exit.depth = entry.depth + chain.rule.levels := by
      rw [h.depth, chain.levels_rule, Nat.add_zero]
    exact .made rfl (Nat.le_succ_of_le (Nat.le_of_lt h.forward)) hdeeper
      (h.depth ▸ hstack.depth_le) hstack
  | none =>
    refine ⟨hstack, h.forward, h.inside, h.depth, fun s hs htoken => ?_⟩
    obtain hoperand | hown := chain.continues_cases (α := α) hs
    · exact h.ended s hoperand htoken
    · exact hown (join_of_operatorAt? hoperator htoken)

variable [Elementary α]

/-- A call that is given its value has got it from a call that restored the counters. What it does
next is a call of its own, or to return with the counters restored in turn. -/
theorem resume_sound {call : Suspended α} (value : α) (hstack : Stacked rule entry (call :: stack))
    (h : Restored tokens rule entry exit) :
    (resume tokens call value exit stack).Sound tokens := by
  obtain ⟨found, pending⟩ := call
  cases hstack with
  | made callee forward deeper bounded outer =>
  subst callee
  have hlater : found.position < exit.position := Nat.lt_of_le_of_lt forward h.forward
  have hdepth : exit.depth = found.depth + pending.rule.levels := h.depth.trans deeper
  cases pending with
  | first chain =>
    have hsame := deeper.trans (congrArg (found.depth + ·) chain.levels_rule)
    exact goOn_sound value outer (h.from_earlier forward hsame)
  | next chain join =>
    have hsame := deeper.trans (congrArg (found.depth + ·) chain.levels_rule)
    simp only [resume]
    cases join value with
    | error cause => trivial
    | ok joined => exact goOn_sound joined outer (h.from_earlier forward hsame)
  | base =>
    simp only [resume]
    split
    next =>
      exact .made rfl (Nat.le_succ_of_le (Nat.le_of_lt hlater)) hdepth (h.depth ▸ bounded) outer
    next hpower =>
      refine ⟨outer, hlater, h.inside, congrArg (· - 1) hdepth, fun s hs htoken => hpower ?_⟩
      cases List.mem_singleton.mp hs
      exact symbolAt?_eq_some.mpr htoken
  | exponent base => exact ⟨outer, hlater, h.inside, congrArg (· - 1) hdepth, h.ended⟩
  | argument f | operand => exact ⟨outer, (h.from_earlier forward deeper).base⟩
  | contents =>
    simp only [resume]
    split
    next hclosing =>
      exact ⟨outer, .past (Nat.le_of_lt hlater) hdepth (symbolAt?_eq_some.mp hclosing)⟩
    next => trivial

variable [Numeral α] {bindings : Bindings α}

omit [Scalar α] [Elementary α] in
/-- A base looks at its first token, and returns behind it or makes one call. Either way the token
is behind it, so that no call returns without having read something. -/
theorem callBase_sound (hstack : Stacked .base entry stack) {token : Token α}
    (htoken : tokens[entry.position]? = some token) :
    (callBase bindings tokens entry stack token).Sound tokens := by
  have hpast : Restored tokens .base entry entry.next := .past (Nat.le_refl _) rfl htoken
  -- A call behind the first token waits one token on, and no deeper.
  have hmade : ∀ pending : Pending α, pending.rule = .base →
      Stacked pending.callee entry.next (⟨entry, pending⟩ :: stack) := by
    intro pending hpending
    refine .made rfl (Nat.le_succ _) ?_ hstack.depth_le (hpending ▸ hstack)
    rw [hpending]
    rfl
  cases token with
  | number value => exact ⟨hstack, hpast⟩
  | var v => exact ⟨hstack, hpast⟩
  | unknown word => trivial
  | func f =>
    simp only [callBase]
    split
    next => trivial
    next => exact hmade (.argument f) rfl
  | symbol s =>
    cases s with
    | opening => exact hmade .contents rfl
    | minus => exact hmade .operand rfl
    | _ => trivial

/-- **A step keeps the invariant.** Calls are made by the calls that wait, so a step either adds one
to the stack, or takes the innermost one off as it is given its value. -/
theorem step_sound (hstep : m.step bindings tokens = some m') (h : m.Sound tokens) :
    m'.Sound tokens := by
  cases m with
  | answered result => cases hstep
  | calling rule entry stack =>
    cases rule with
    | expression =>
      simp only [Moment.step] at hstep
      split at hstep
      next => cases hstep; trivial
      next => cases hstep; exact .made rfl (Nat.le_refl _) rfl h.depth_le h
    | term =>
      cases hstep
      exact .made rfl (Nat.le_refl _) rfl h.depth_le h
    | factor =>
      simp only [Moment.step] at hstep
      split at hstep
      next => cases hstep; trivial
      next =>
        split at hstep
        next => cases hstep; trivial
        next hroom =>
          cases hstep
          exact .made rfl (Nat.le_refl _) rfl (Nat.le_of_not_lt hroom) h
    | base =>
      simp only [Moment.step] at hstep
      split at hstep
      next => cases hstep; trivial
      next token htoken => cases hstep; exact callBase_sound h htoken
  | returning rule entry value exit stack =>
    cases stack with
    | nil => cases hstep; trivial
    | cons call stack => cases hstep; exact resume_sound value h.1 h.2

/-- **Every moment of the walk is sound.** -/
theorem reaches_sound (h : Reaches bindings tokens .start m) : m.Sound tokens := by
  induction h with
  | refl => exact .outermost
  | tail _ hstep ih => exact step_sound hstep ih

/-- The walk is on its way to its answer at every moment. Steps have one outcome, so what is reached
and the answer are on one path, and behind an answer there is nothing. -/
theorem Reaches.to_answer (h : Reaches bindings tokens .start m) :
    Reaches bindings tokens m (.answered (walk bindings tokens)) := by
  have hunique : Relator.RightUnique
      fun m m' : Moment α => m.step bindings tokens = some m' :=
    fun _ _ _ hfirst hsecond => Option.some.inj (hfirst.symm.trans hsecond)
  obtain hahead | hbehind := Relation.ReflTransGen.total_of_right_unique hunique h
    (start_reaches_walk bindings tokens)
  · exact hahead
  · -- Nothing follows an answer.
    obtain rfl | ⟨_, hstep, _⟩ := hbehind.cases_head
    · exact .refl
    · cases hstep

/-- What a call comes to, for what its production reads. An error ends the walk. A value is returned
to the calls that wait, with the counters restored, before the tokens that are left. -/
def Settled (bindings : Bindings α) (tokens : List (Token α)) (rule : Rule) (entry : Counters)
    (stack : List (Suspended α)) : Reading α → Prop
  | .error cause => Reaches bindings tokens (.calling rule entry stack) (.answered (.error cause))
  | .ok (value, rest) =>
    ∃ exit, Restored tokens rule entry exit ∧ rest = tokens.drop exit.position ∧
      Reaches bindings tokens (.calling rule entry stack) (.returning rule entry value exit stack)

/-- What is reached from the start settles: the machine makes of a call what its production reads,
and the invariant says where the counters are then. -/
theorem settled_of_reaches (h : Reaches bindings tokens .start (.calling rule entry stack)) :
    Settled bindings tokens rule entry stack
      ((rule.production bindings (maxDepth - entry.depth)).run (tokens.drop entry.position)) := by
  have hdepth : entry.depth ≤ maxDepth := (reaches_sound h).depth_le
  have hcall :=
    rule_performs bindings tokens rule (Nat.add_sub_of_le hdepth) entry.position stack
  generalize (rule.production bindings (maxDepth - entry.depth)).run _ = reading at hcall ⊢
  cases reading with
  | error cause => exact hcall
  | ok result =>
    obtain ⟨value, rest⟩ := result
    obtain ⟨position, hrest, hreach⟩ := hcall
    exact ⟨⟨position, entry.depth⟩, (reaches_sound (h.trans hreach)).2, hrest, hreach⟩

/-- **The walk is bounded, and its calls restore the counters**, whatever the tokens are. At no moment
are more factors under way than the levels and one, nor more calls than a constant allows, and from
every moment the walk comes to its answer. Every call settles as its production says, with the levels
that the depth leaves for it, and every call that returns has restored the counters. -/
theorem bounded_of_reaches (h : Reaches bindings tokens .start m) :
    m.active.count .factor ≤ maxDepth + 1 ∧ m.active.length ≤ 4 * maxDepth + 3 ∧
      Reaches bindings tokens m (.answered (walk bindings tokens)) ∧
      match m with
      | .calling rule entry stack =>
        Settled bindings tokens rule entry stack
          ((rule.production bindings (maxDepth - entry.depth)).run (tokens.drop entry.position))
      | .returning rule entry _ exit _ => Restored tokens rule entry exit
      | .answered result => result = walk bindings tokens := by
  have hsound := reaches_sound h
  refine ⟨hsound.active_le.1, hsound.active_le.2, h.to_answer, ?_⟩
  cases m with
  | calling rule entry stack => exact settled_of_reaches h
  | returning rule entry value exit stack => exact hsound.2
  | answered result =>
    obtain hanswer | ⟨_, hstep, _⟩ := h.to_answer.cases_head
    · exact Moment.answered.inj hanswer
    · cases hstep

/-- The exponent of `2^3`, while its power waits for it. -/
theorem exponent_bounded :
    let tokens : List (Token Float) := [.number 2, .symbol .power, .number 3]
    let stack : List (Suspended Float) :=
      [⟨⟨0, 0⟩, .exponent 2⟩, ⟨⟨0, 0⟩, .first .product⟩, ⟨⟨0, 0⟩, .first .sum⟩]
    Reaches ⟨0, 0, 0, 0⟩ tokens .start (.calling .factor ⟨2, 1⟩ stack) ∧
      Settled ⟨0, 0, 0, 0⟩ tokens .factor ⟨2, 1⟩ stack
        ((factor ⟨0, 0, 0, 0⟩ (maxDepth - 1)).run [.number 3]) := by
  intro tokens stack
  have hreaches : Reaches ⟨0, 0, 0, 0⟩ tokens .start (.calling .factor ⟨2, 1⟩ stack) :=
    (((((Reaches.single rfl).tail rfl).tail rfl).tail rfl).tail rfl)
  exact ⟨hreaches, (bounded_of_reaches hreaches).2.2.2⟩

end Steps

end PhasePortrait.Expr
