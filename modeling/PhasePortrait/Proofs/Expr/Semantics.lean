import Mathlib.Order.MinMax
import PhasePortrait.Proofs.Expr.Reading

/-!
# The walk computes the value of the tree

The walk evaluates while it reads, and the grammar of `PhasePortrait.Proofs.Expr.Grammar` knows
neither the one nor the other. The two meet in the evaluation of a tree level by level: its result is
the value of the tree unless the tree is too deep for the levels or a quotient in it is not finite,
and each of its two errors tells which (`Tree.Outcome`).

With both directions of the reading this is `walk_agrees_with_grammar`: what has a value is exactly
what the grammar says, and of what the grammar allows nothing is refused for its form.
-/

namespace PhasePortrait.Expr

namespace Tree

variable {α : Type}

/-- What may come of evaluating a tree that has this value. Each of the two errors has its own
condition; where both hold, the one that is met first from the left is given. -/
inductive Outcome (deep finite : Prop) (value : α) : Except Error α → Prop where
  | ok (hdeep : ¬deep) (hfinite : finite) : Outcome deep finite value (.ok value)
  | tooDeep (hdeep : deep) : Outcome deep finite value (.error .tooDeep)
  | divisionNotFinite (hfinite : ¬finite) : Outcome deep finite value (.error .divisionNotFinite)

namespace Outcome

variable {deep₁ deep₂ finite₁ finite₂ : Prop} {x y : α} {r : Except Error α}

theorem congr (h : Outcome deep₁ finite₁ x r) (hdeep : deep₁ ↔ deep₂)
    (hfinite : finite₁ ↔ finite₂) : Outcome deep₂ finite₂ x r := by
  cases h with
  | ok hd hf => exact .ok (hdeep.not.mp hd) (hfinite.mp hf)
  | tooDeep hd => exact .tooDeep (hdeep.mp hd)
  | divisionNotFinite hf => exact .divisionNotFinite (hfinite.not.mp hf)

/-- One evaluation after another meets the errors of both. -/
theorem bind (h : Outcome deep₁ finite₁ x r) {next : α → Except Error α}
    (hnext : Outcome deep₂ finite₂ y (next x)) :
    Outcome (deep₁ ∨ deep₂) (finite₁ ∧ finite₂) y (r >>= next) := by
  cases h with
  | ok hd hf =>
    change Outcome _ _ y (next x)
    exact hnext.congr (or_iff_right hd).symm (and_iff_right hf).symm
  | tooDeep hd => exact .tooDeep (.inl hd)
  | divisionNotFinite hf => exact .divisionNotFinite fun h => hf h.1

/-- A last step that cannot fail keeps the errors. -/
theorem map (h : Outcome deep₁ finite₁ x r) (f : α → α) :
    Outcome deep₁ finite₁ (f x) (r >>= fun v => .ok (f v)) := by
  cases h with
  | ok hd hf => exact .ok hd hf
  | tooDeep hd => exact .tooDeep hd
  | divisionNotFinite hf => exact .divisionNotFinite hf

end Outcome

mutual

/-- The nesting of a factor starts with itself. -/
theorem Factor.depth_pos : ∀ f : Factor α, 0 < f.depth
  | .base b => b.depth_pos
  | .power b _ => lt_max_of_lt_left b.depth_pos
  | .negate _ => Nat.succ_pos _
  | .call _ _ => Nat.succ_pos _

theorem Base.depth_pos : ∀ b : Base α, 0 < b.depth
  | .number _ => Nat.one_pos
  | .var _ => Nat.one_pos
  | .group _ => Nat.succ_pos _

end

variable [Scalar α] [Elementary α]

omit [Elementary α] in
/-- An operator between factors fails at a quotient that is not finite, and nowhere else. A product
may be infinite: that is found at the end, if it gets there. -/
theorem Multiplicative.combine_outcome (op : Multiplicative) (x y : α) :
    Outcome False (op = .divide → Scalar.isFinite (x / y) = true) (op.apply x y)
      (op.combine x y) := by
  cases op with
  | times => exact .ok id (by simp)
  | divide =>
    rw [combine, apply]
    by_cases h : Scalar.isFinite (x / y) = true
    · rw [if_pos h]
      exact .ok id fun _ => h
    · rw [if_neg h]
      exact .divisionNotFinite fun hall => h (hall rfl)

variable (bindings : Bindings α)

mutual

/-- What comes of evaluating an expression. -/
theorem Expression.evaluate_outcome : ∀ (e : Expression α) (levels : Nat),
    Outcome (levels < e.depth) (e.QuotientsFinite bindings) (e.value bindings)
      (e.evaluate bindings levels)
  | .term t, levels => t.evaluate_outcome levels
  | .chain left op right, levels => by
    rw [Expression.evaluate, Expression.value]
    refine ((left.evaluate_outcome levels).bind ?_).congr lt_max_iff.symm Iff.rfl
    exact (right.evaluate_outcome levels).map fun y => op.apply (left.value bindings) y

theorem Term.evaluate_outcome : ∀ (t : Term α) (levels : Nat),
    Outcome (levels < t.depth) (t.QuotientsFinite bindings) (t.value bindings)
      (t.evaluate bindings levels)
  | .factor f, levels => f.evaluate_outcome levels
  | .chain left op right, levels => by
    have hdepth : levels < left.depth ∨ levels < right.depth ∨ False ↔
        levels < (Term.chain left op right).depth := by
      rw [Term.depth, lt_max_iff, or_false]
    rw [Term.evaluate, Term.value]
    refine ((left.evaluate_outcome levels).bind ?_).congr hdepth and_assoc.symm
    exact (right.evaluate_outcome levels).bind (op.combine_outcome _ _)

theorem Factor.evaluate_outcome : ∀ (f : Factor α) (levels : Nat),
    Outcome (levels < f.depth) (f.QuotientsFinite bindings) (f.value bindings)
      (f.evaluate bindings levels)
  | f, 0 => by
    rw [Factor.evaluate]
    exact .tooDeep f.depth_pos
  | .base b, levels + 1 => b.evaluate_outcome levels
  | .power b exponent, levels + 1 => by
    have hdepth : levels + 1 < b.depth ∨ levels < exponent.depth ↔
        levels + 1 < (Factor.power b exponent).depth := by
      rw [Factor.depth, lt_max_iff, Nat.add_lt_add_iff_right]
    rw [Factor.evaluate, Factor.value]
    refine ((b.evaluate_outcome levels).bind ?_).congr hdepth Iff.rfl
    exact (exponent.evaluate_outcome levels).map fun y => Elementary.pow (b.value bindings) y
  | .negate f, levels + 1 =>
    ((f.evaluate_outcome levels).map fun x => -x).congr Nat.add_lt_add_iff_right.symm Iff.rfl
  | .call function argument, levels + 1 =>
    ((argument.evaluate_outcome levels).map function.apply).congr
      Nat.add_lt_add_iff_right.symm Iff.rfl

theorem Base.evaluate_outcome : ∀ (b : Base α) (levels : Nat),
    Outcome (levels + 1 < b.depth) (b.QuotientsFinite bindings) (b.value bindings)
      (b.evaluate bindings levels)
  | .number _, levels => .ok (by simp [Base.depth]) trivial
  | .var _, levels => .ok (by simp [Base.depth]) trivial
  | .group e, levels =>
    (e.evaluate_outcome levels).congr Nat.add_lt_add_iff_right.symm Iff.rfl

end

end Tree

variable {α : Type} [Scalar α] [Elementary α] [Numeral α]

/-- The walk over the yield of a tree evaluates the tree and looks at its value. -/
theorem walk_yield (bindings : Bindings α) (e : Tree.Expression α) :
    walk bindings e.yield = (e.evaluate bindings maxDepth).bind fun value =>
      if Scalar.isFinite value then .ok value else .error .nonFinite := by
  have hrun := e.run_yield bindings maxDepth
    (by simp : ([] : List (Token α)).head? ≠ some (.symbol .power)) (by simp)
  rw [List.append_nil, bind_chain_stop (by simp)] at hrun
  rw [walk, hrun]
  cases e.evaluate bindings maxDepth <;> rfl

theorem walk_yield_cases (bindings : Bindings α) (e : Tree.Expression α) :
    (walk bindings e.yield = .ok (e.value bindings) ∧ e.depth ≤ maxDepth ∧
      e.QuotientsFinite bindings ∧ Scalar.isFinite (e.value bindings) = true) ∨
    walk bindings e.yield = .error .tooDeep ∧ maxDepth < e.depth ∨
    walk bindings e.yield = .error .divisionNotFinite ∧ ¬e.QuotientsFinite bindings ∨
    walk bindings e.yield = .error .nonFinite ∧ Scalar.isFinite (e.value bindings) = false := by
  have houtcome := e.evaluate_outcome bindings maxDepth
  rw [walk_yield]
  generalize e.evaluate bindings maxDepth = result at houtcome
  cases houtcome with
  | ok hdepth hquotients =>
    cases hfinite : Scalar.isFinite (e.value bindings) with
    | true => exact .inl ⟨by simp [Except.bind, hfinite], not_lt.mp hdepth, hquotients, rfl⟩
    | false => exact .inr (.inr (.inr ⟨by simp [Except.bind, hfinite], rfl⟩))
  | tooDeep hdepth => exact .inr (.inl ⟨rfl, hdepth⟩)
  | divisionNotFinite hquotients => exact .inr (.inr (.inl ⟨rfl, hquotients⟩))

/-- What has a value is the yield of a tree. -/
theorem exists_yield_of_walk {bindings : Bindings α} {tokens : List (Token α)} {value : α}
    (h : walk bindings tokens = .ok value) : ∃ e : Tree.Expression α, e.yield = tokens := by
  unfold walk at h
  split at h
  next => cases h
  next => cases h
  next hrun =>
    obtain ⟨_, ⟨e, rfl⟩, rfl⟩ :=
      Tree.expression_reads (Tree.factor_reads bindings maxDepth) hrun
    exact ⟨e, by simp⟩

/-- The walk and the grammar agree. The value of a list of tokens is the value of a tree with this
yield that is not nested too deep, has finite quotients only and is finite itself. Where a tree has
no value, one of these three conditions fails, and the error is the one for it. -/
theorem walk_agrees_with_grammar (bindings : Bindings α) :
    (∀ (tokens : List (Token α)) (value : α), walk bindings tokens = .ok value ↔
      ∃ e : Tree.Expression α, e.yield = tokens ∧ e.depth ≤ maxDepth ∧
        e.QuotientsFinite bindings ∧ e.value bindings = value ∧ Scalar.isFinite value = true) ∧
    ∀ e : Tree.Expression α,
      walk bindings e.yield = .ok (e.value bindings) ∨
      walk bindings e.yield = .error .tooDeep ∧ maxDepth < e.depth ∨
      walk bindings e.yield = .error .divisionNotFinite ∧ ¬e.QuotientsFinite bindings ∨
      walk bindings e.yield = .error .nonFinite ∧
        Scalar.isFinite (e.value bindings) = false := by
  refine ⟨fun tokens value => ⟨fun h => ?_, ?_⟩, fun e => ?_⟩
  · obtain ⟨e, rfl⟩ := exists_yield_of_walk h
    obtain ⟨hok, hdepth, hquotients, hfinite⟩ | ⟨herror, _⟩ | ⟨herror, _⟩ | ⟨herror, _⟩ :=
      walk_yield_cases bindings e
    · obtain rfl : e.value bindings = value := Except.ok.inj (hok.symm.trans h)
      exact ⟨e, rfl, hdepth, hquotients, rfl, hfinite⟩
    all_goals exact nomatch h.symm.trans herror
  · rintro ⟨e, rfl, hdepth, hquotients, rfl, hfinite⟩
    obtain ⟨hok, _⟩ | ⟨_, hdeep⟩ | ⟨_, hbad⟩ | ⟨_, hbad⟩ := walk_yield_cases bindings e
    · exact hok
    · exact absurd hdepth (not_le.mpr hdeep)
    · exact absurd hquotients hbad
    · exact nomatch hfinite.symm.trans hbad
  · exact (walk_yield_cases bindings e).imp_left And.left

end PhasePortrait.Expr
