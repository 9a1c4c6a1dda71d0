import PhasePortrait.Proofs.Draw
import PhasePortrait.Proofs.Expr.Semantics
import PhasePortrait.Proofs.Expr.Separators
import PhasePortrait.RandomSystem

/-!
# Random systems are well formed

The text of a random equation is put together from letters, and nothing in that says that it can be
read. It can: its tokens are the yield of a syntax tree (`RandomEquation.tokenize_text`), in which
each monomial is a term, and a sine or a cosine of one is a call of a group.

**Why nothing goes wrong but the value.** Such a tree is at most four levels deep and divides by
nothing, and of the ways in which the walk may fail on the yield of a tree that leaves one: a value
that is not finite. The names in it are the coordinates of its monomials, so the two parameters do
not matter.

Trees are made for every monomial and every sum of them; what is drawn is a sum of two or three
regular ones.
-/

namespace PhasePortrait

open PhasePortrait.Expr

/-! ## What is drawn -/

/-- A monomial in one of the coordinates, with a coefficient from 1 to 9 and a power from 1 to 5, by
itself or inside a sine or a cosine. -/
structure Monomial.IsRegular (m : Monomial) : Prop where
  coordinate : m.coordinate = .x ∨ m.coordinate = .y
  coefficient : 1 ≤ m.coefficient ∧ m.coefficient ≤ 9
  power : 1 ≤ m.power ∧ m.power ≤ 5
  wrapper : m.wrapper = none ∨ m.wrapper = some .sin ∨ m.wrapper = some .cos

/-- A sum of two or three regular monomials. -/
structure RandomEquation.IsRegular (e : RandomEquation) : Prop where
  count : e.rest.length = 1 ∨ e.rest.length = 2
  first : e.first.IsRegular
  rest : ∀ summand ∈ e.rest, summand.2.IsRegular

namespace Draw

/-- A number below a bound is at most what is one less. For a bound of zero there is nothing
else. -/
theorem ensures_below (bound : Nat) : Ensures (· ≤ bound - 1) (below bound) := below_le bound

/-- A monomial that is drawn is regular: each of its parts is drawn from the range that is asked
for. -/
theorem ensures_monomial : Ensures Monomial.IsRegular Monomial.random := by
  unfold Monomial.random
  refine (ensures_below 2).bind fun name _ => (ensures_below 9).bind fun coefficient hcoefficient =>
    (ensures_below 5).bind fun power hpower => ?_
  have hcoordinate : (if name = 0 then Var.x else Var.y) = .x ∨
      (if name = 0 then Var.x else Var.y) = .y := by
    split
    · exact .inl rfl
    · exact .inr rfl
  have hregular : ∀ wrapper : Option Func,
      wrapper = none ∨ wrapper = some .sin ∨ wrapper = some .cos →
      Monomial.IsRegular ⟨if name = 0 then .x else .y, coefficient + 1, power + 1, wrapper⟩ :=
    fun wrapper hwrapper =>
      ⟨hcoordinate, ⟨Nat.le_add_left 1 _, by dsimp only; omega⟩,
        ⟨Nat.le_add_left 1 _, by dsimp only; omega⟩, hwrapper⟩
  refine Ensures.bind (P := fun _ : Float => True) (fun _ => trivial) fun wrapped _ => ?_
  dsimp only
  split
  · refine (ensures_below 2).bind fun function _ => ?_
    apply Ensures.pure
    apply hregular
    split
    · exact .inr (.inl rfl)
    · exact .inr (.inr rfl)
  · exact .pure (hregular none (.inl rfl))

/-- A summand is a sign and a monomial, and only the monomial has to be regular. -/
theorem ensures_summand :
    Ensures (fun summand => summand.2.IsRegular) RandomEquation.randomSummand :=
  ensures_monomial.bind fun _ hm =>
    Ensures.bind (P := fun _ : Float => True) (fun _ => trivial) fun _ _ => .pure hm

/-- An equation that is drawn is a monomial with one or two summands. -/
theorem ensures_equation : Ensures RandomEquation.IsRegular RandomEquation.random := by
  refine (ensures_below 2).bind fun more hmore => ensures_monomial.bind fun first hfirst =>
    (ensures_summand.times (more + 1)).bind fun rest hrest => .pure ?_
  obtain ⟨hlength, hregular⟩ := hrest
  exact ⟨by dsimp only; omega, hfirst, hregular⟩

end Draw

/-! ## Trees -/

section Trees

variable {α : Type} [Scalar α]

/-- The value that a whole number is written for. -/
def Expr.whole (n : Nat) : α := OfScientific.ofScientific n true 0

namespace Monomial

/-- The power of a monomial; a power of one is left out. -/
def poweredTree (m : Monomial) : Tree.Factor α :=
  if m.power = 1 then .base (.var m.coordinate)
  else .power (.var m.coordinate) (.base (.number (whole m.power)))

/-- The tree of a monomial alone; a coefficient of one is left out. -/
def bareTree (m : Monomial) : Tree.Term α :=
  if m.coefficient = 1 then .factor m.poweredTree
  else .chain (.factor (.base (.number (whole m.coefficient)))) .times m.poweredTree

/-- The tree of a monomial. -/
def tree (m : Monomial) : Tree.Term α :=
  match m.wrapper with
  | some f => .factor (.call f (.base (.group (.term m.bareTree))))
  | none => m.bareTree

end Monomial

/-- A sum with one more monomial. -/
def RandomEquation.extend (left : Tree.Expression α) (summand : Bool × Monomial) :
    Tree.Expression α :=
  .chain left (if summand.1 then .minus else .plus) summand.2.tree

/-- The tree of a random equation. -/
def RandomEquation.tree (e : RandomEquation) : Tree.Expression α :=
  e.rest.foldl extend (.term e.first.tree)

/-- What holds of the first monomial and is kept by one more holds of the equation. -/
theorem RandomEquation.tree_induction {P : Tree.Expression α → Prop} (e : RandomEquation)
    (hfirst : P (.term e.first.tree))
    (hrest : ∀ left, P left → ∀ summand ∈ e.rest, P (extend left summand)) : P e.tree :=
  List.foldlRecOn e.rest extend hfirst hrest

/-! ## Texts -/

namespace Expr

/-- A whole number is one token. -/
theorem tokenize_toString (n : Nat) :
    tokenize (α := α) (toString n).toList = [.number (whole n)] := by
  have hvalue : Binary64.digitsValue (Nat.toDigits 10 n) = n := Nat.ofDigitChars_ten_toDigits
  have hdigits : ∀ c ∈ Nat.toDigits 10 n, c.isDigit = true := fun _ =>
    Nat.isDigit_of_mem_toDigits (by decide) (by decide)
  have htext : (toString n).toList = Nat.toDigits 10 n := by simp
  rw [htext, tokenize_whole Nat.toDigits_ne_nil hdigits, literal, List.append_nil, hvalue]
  rfl

end Expr

namespace Monomial

/-- The text of a monomial alone, with or without a coefficient and with or without a power. The
four forms are looked at one by one, as the tokens fall at different places. -/
theorem tokenize_bareText (m : Monomial) :
    tokenize (α := α) m.bareText.toList = m.bareTree.yield := by
  have hpower : tokenize (α := α)
      (m.coordinate.name ++ if m.power = 1 then "" else "^" ++ toString m.power).toList =
        m.poweredTree.yield := by
    unfold poweredTree
    split
    · rw [String.append_empty, tokenize_var]
      rfl
    · rw [String.toList_append, String.toList_append]
      refine (tokenize_symbol .power _ (toString m.power).toList).trans ?_
      rw [tokenize_var, tokenize_toString]
      rfl
  unfold bareText bareTree
  rw [String.append_assoc]
  split
  · rw [String.empty_append, hpower]
    rfl
  · rw [String.toList_append, String.toList_append, List.append_assoc]
    refine (tokenize_symbol .times _ (m.coordinate.name ++ _).toList).trans ?_
    rw [hpower, tokenize_toString]
    rfl

/-- The text of a monomial with its sine or cosine, whose parentheses are those of a group. A symbol
cuts the text, so what is inside is read as if it stood alone. -/
theorem tokenize_text (m : Monomial) : tokenize (α := α) m.text.toList = m.tree.yield := by
  unfold text tree
  cases m.wrapper with
  | none => exact m.tokenize_bareText
  | some f =>
    have hgroup : tokenize (α := α) (m.bareText.toList ++ [')']) =
        m.bareTree.yield ++ [.symbol .closing] := by
      have hcut := tokenize_symbol (α := α) .closing m.bareText.toList []
      rwa [tokenize_bareText, tokenize] at hcut
    simp only [String.toList_append, List.append_assoc]
    refine (tokenize_symbol .opening _ (m.bareText.toList ++ [')'])).trans ?_
    rw [tokenize_func, hgroup]
    rfl

end Monomial

namespace RandomEquation

/-- The sign between two monomials. It stands between blanks, which separate, so the texts on both
sides are scanned by themselves. -/
theorem tokenize_join (subtracted : Bool) (u v : List Char) :
    tokenize (α := α) (u ++ (if subtracted then " - " else " + ").toList ++ v) =
      tokenize u ++
        .symbol (if subtracted then Tree.Additive.minus else .plus).symbol :: tokenize v := by
  have hblank : ∀ c ∈ [' '], Skipped c := List.forall_mem_singleton.mpr (by decide)
  have hspaced : ∀ s : Symbol, tokenize (α := α) (u ++ [' ', s.char, ' '] ++ v) =
      tokenize u ++ .symbol s :: tokenize v := by
    intro s
    have hcut := tokenize_symbol (α := α) s (u ++ [' ']) ([' '] ++ v)
    rw [tokenize_append_skipped (α := α) hblank, tokenize_append_of_skipped hblank] at hcut
    simpa using hcut
  cases subtracted with
  | true => exact hspaced .minus
  | false => exact hspaced .plus

/-- **The text of a random equation is the yield of its tree.** By induction on the monomials behind
the first one, each of which is joined to the sum before it. -/
theorem tokenize_text (e : RandomEquation) :
    tokenize (α := α) e.text.toList = e.tree.yield := by
  obtain ⟨first, rest⟩ := e
  unfold text tree
  dsimp only
  have hfirst : tokenize (α := α) first.text.toList =
      (Tree.Expression.term first.tree).yield := first.tokenize_text
  generalize first.text = text at hfirst ⊢
  generalize (Tree.Expression.term first.tree : Tree.Expression α) = left at hfirst ⊢
  induction rest generalizing text left with
  | nil => exact hfirst
  | cons summand rest ih =>
    apply ih
    rw [String.toList_append, String.toList_append, tokenize_join, hfirst, Monomial.tokenize_text]
    rfl

/-! ## Names -/

/-- The token is no word without a meaning, and no name but that of a coordinate. -/
def IsPlain : Token α → Prop
  | .unknown _ => False
  | .var v => v = .x ∨ v = .y
  | .number _ | .func _ | .symbol _ => True

omit [Scalar α] in
/-- A chain of plain tokens has no operator that is not plain. -/
theorem isPlain_of_yield {left right : List (Token α)} {s : Symbol}
    (hleft : ∀ t ∈ left, IsPlain t) (hright : ∀ t ∈ right, IsPlain t) :
    ∀ t ∈ left ++ .symbol s :: right, IsPlain t := by
  intro t ht
  rcases List.mem_append.mp ht with ht | ht
  · exact hleft t ht
  · rcases List.mem_cons.mp ht with rfl | ht
    · trivial
    · exact hright t ht

end RandomEquation

open RandomEquation (IsPlain isPlain_of_yield)

/-- A monomial has numbers, its own coordinate, and maybe the name of a function. The tokens of all
its forms are looked through. -/
theorem Monomial.isPlain_tree {m : Monomial} (h : m.coordinate = .x ∨ m.coordinate = .y) :
    ∀ t ∈ (m.tree : Tree.Term α).yield, IsPlain t := by
  have hvar : ∀ t ∈ [Token.var (α := α) m.coordinate], IsPlain t := by
    intro t ht
    obtain rfl := List.mem_singleton.mp ht
    exact h
  have hnumber : ∀ n, ∀ t ∈ [Token.number (whole n : α)], IsPlain t := by
    intro n t ht
    obtain rfl := List.mem_singleton.mp ht
    trivial
  have hpowered : ∀ t ∈ (m.poweredTree : Tree.Factor α).yield, IsPlain t := by
    unfold poweredTree
    split
    · exact hvar
    · exact isPlain_of_yield hvar (hnumber _)
  have hbare : ∀ t ∈ (m.bareTree : Tree.Term α).yield, IsPlain t := by
    unfold bareTree
    split
    · exact hpowered
    · exact isPlain_of_yield (hnumber _) hpowered
  unfold tree
  cases m.wrapper with
  | none => exact hbare
  | some f =>
    have hfunc : ∀ t ∈ [Token.func (α := α) f], IsPlain t := by
      intro t ht
      obtain rfl := List.mem_singleton.mp ht
      trivial
    exact isPlain_of_yield hfunc (isPlain_of_yield hbare nofun)

namespace RandomEquation

theorem isPlain_tree {e : RandomEquation} (h : e.IsRegular) :
    ∀ t ∈ (e.tree : Tree.Expression α).yield, IsPlain t :=
  e.tree_induction (P := fun left => ∀ t ∈ left.yield, IsPlain t)
    (Monomial.isPlain_tree h.first.coordinate)
    fun _ hleft summand hsummand =>
      isPlain_of_yield hleft (Monomial.isPlain_tree (h.rest summand hsummand).coordinate)

end RandomEquation

/-! ## Nesting -/

omit [Scalar α] in
theorem Expr.Tree.Term.yield_ne_nil (t : Tree.Term α) : t.yield ≠ [] := by
  cases t with
  | factor f => exact f.yield_ne_nil
  | chain left op right => simp [Tree.Term.yield]

omit [Scalar α] in
theorem Expr.Tree.Expression.yield_ne_nil (e : Tree.Expression α) : e.yield ≠ [] := by
  cases e with
  | term t => exact t.yield_ne_nil
  | chain left op right => simp [Tree.Expression.yield]

/-- A power is two levels deep, and a group and a call are one more each. -/
theorem Monomial.depth_tree_le (m : Monomial) : (m.tree : Tree.Term α).depth ≤ 4 := by
  have hbare : (m.bareTree : Tree.Term α).depth ≤ 2 := by
    unfold bareTree poweredTree
    split <;> split <;> simp [Tree.Term.depth, Tree.Factor.depth, Tree.Base.depth]
  unfold tree
  cases m.wrapper with
  | none => exact Nat.le_trans hbare (by decide)
  | some f => exact Nat.add_le_add_right hbare 2

theorem RandomEquation.depth_tree_le (e : RandomEquation) :
    (e.tree : Tree.Expression α).depth ≤ 4 :=
  e.tree_induction (P := fun left => left.depth ≤ 4) e.first.depth_tree_le
    fun _ hleft summand _ => max_le hleft summand.2.depth_tree_le

/-! ## Values -/

section Values

variable [Elementary α] (bindings : Bindings α)

/-- A monomial divides by nothing. -/
theorem Monomial.quotientsFinite_tree (m : Monomial) :
    (m.tree : Tree.Term α).QuotientsFinite bindings := by
  have hbare : (m.bareTree : Tree.Term α).QuotientsFinite bindings := by
    unfold bareTree poweredTree
    split <;> split <;>
      simp [Tree.Term.QuotientsFinite, Tree.Factor.QuotientsFinite, Tree.Base.QuotientsFinite]
  unfold tree
  cases m.wrapper with
  | none => exact hbare
  | some f => exact hbare

theorem RandomEquation.quotientsFinite_tree (e : RandomEquation) :
    (e.tree : Tree.Expression α).QuotientsFinite bindings :=
  e.tree_induction (e.first.quotientsFinite_tree bindings)
    fun _ hleft summand _ => ⟨hleft, summand.2.quotientsFinite_tree bindings⟩

variable {bindings} {bindings' : Bindings α}

/-- The value of a monomial depends on its coordinate only. -/
theorem Monomial.value_tree_congr {m : Monomial}
    (h : bindings.get m.coordinate = bindings'.get m.coordinate) :
    (m.tree : Tree.Term α).value bindings = m.tree.value bindings' := by
  have hbare : (m.bareTree : Tree.Term α).value bindings = m.bareTree.value bindings' := by
    unfold bareTree poweredTree
    split <;> split <;> simp [Tree.Term.value, Tree.Factor.value, Tree.Base.value, h]
  unfold tree
  cases m.wrapper with
  | none => exact hbare
  | some f => exact congrArg f.apply hbare

/-- The value of a regular equation depends on the two coordinates only. None of its monomials has a
parameter for its coordinate. -/
theorem RandomEquation.value_tree_congr {e : RandomEquation} (h : e.IsRegular)
    (hx : bindings.x = bindings'.x) (hy : bindings.y = bindings'.y) :
    (e.tree : Tree.Expression α).value bindings = e.tree.value bindings' := by
  have hget : ∀ {m : Monomial}, m.IsRegular →
      bindings.get m.coordinate = bindings'.get m.coordinate := by
    intro m hm
    rcases hm.coordinate with hc | hc <;> rw [hc]
    · exact hx
    · exact hy
  refine e.tree_induction (P := fun left => left.value bindings = left.value bindings')
    (Monomial.value_tree_congr (hget h.first)) fun left hleft summand hsummand => ?_
  rw [extend, Tree.Expression.value, Tree.Expression.value, hleft,
    Monomial.value_tree_congr (hget (h.rest summand hsummand))]

variable [Numeral α]

/-- **A text that is a tree without quotients has its value**, or one that is not finite. Of the
ways in which reading the yield of a tree may fail, too many levels and a bad quotient are
excluded. -/
theorem Expression.eval_ofText {text : String} {e : Tree.Expression α}
    (htokens : tokenize text.toList = e.yield) (hdepth : e.depth ≤ maxDepth)
    (hquotients : e.QuotientsFinite bindings) :
    (Expression.ofText text).eval bindings =
      if Scalar.isFinite (e.value bindings) then .ok (e.value bindings) else .error .nonFinite := by
  have hclean : tokenize (Expression.clean text) = e.yield := by
    rw [Expression.tokenize_clean, htokens]
  have hsource : (String.ofList (Expression.clean text)).isEmpty = false := by
    -- A text without letters has no tokens, and a tree has some.
    cases hempty : Expression.clean text with
    | nil =>
      rw [hempty, tokenize] at hclean
      exact absurd hclean.symm e.yield_ne_nil
    | cons first rest => simp
  unfold Expression.eval Expression.ofText
  dsimp only
  rw [hsource, hclean, if_neg Bool.false_ne_true]
  rcases walk_yield_cases bindings e with h | h | h | h
  · rw [h.1, if_pos h.2.2.2]
  · omega
  · exact absurd hquotients h.2
  · rw [h.1, h.2, if_neg Bool.false_ne_true]

end Values

/-- **Random systems are well formed.** Whatever the state of the generator, both texts of a random
system are sums and differences of two or three monomials in `x` and `y`, with coefficients from 1
to 9 and powers from 1 to 5 of which a one is not written, each by itself or inside a sine or a
cosine. No word in them is unknown, and no name but `x` and `y` occurs.

Read as an equation such a text has the value of that sum for any values of the names, unless it is
not finite; so it has no fault of form and no bad quotient, and the two parameters do not matter. -/
theorem randomSystem_wellFormed [Elementary α] [Numeral α] (g : Generator) :
    ∃ dx dy : RandomEquation, (randomSystem g).1 = (dx.text, dy.text) ∧ ∀ e ∈ [dx, dy],
      e.IsRegular ∧
      tokenize e.text.toList = (e.tree : Tree.Expression α).yield ∧
      (∀ word, Token.unknown word ∉ tokenize (α := α) e.text.toList) ∧
      (∀ v, Token.var v ∈ tokenize (α := α) e.text.toList → v = .x ∨ v = .y) ∧
      (∀ bindings : Bindings α,
        let value := (e.tree : Tree.Expression α).value bindings
        (Expression.ofText e.text).eval bindings =
          if Scalar.isFinite value then .ok value else .error .nonFinite) ∧
      ∀ x y a b a' b' : α, (Expression.ofText e.text).eval ⟨x, y, a, b⟩ =
        (Expression.ofText e.text).eval ⟨x, y, a', b'⟩ := by
  refine ⟨(RandomEquation.random g).1, (RandomEquation.random (RandomEquation.random g).2).1, rfl,
    ?_⟩
  have hregular : ∀ e ∈ [(RandomEquation.random g).1,
      (RandomEquation.random (RandomEquation.random g).2).1], e.IsRegular := by
    simp only [List.forall_mem_cons, List.not_mem_nil, false_imp_iff, implies_true, and_true]
    exact ⟨Draw.ensures_equation _, Draw.ensures_equation _⟩
  intro e he
  have hplain := RandomEquation.isPlain_tree (α := α) (hregular e he)
  have heval : ∀ bindings : Bindings α, (Expression.ofText e.text).eval bindings =
      if Scalar.isFinite ((e.tree : Tree.Expression α).value bindings) then
        .ok (e.tree.value bindings) else .error .nonFinite := fun bindings =>
    Expression.eval_ofText e.tokenize_text (e.depth_tree_le.trans (by decide))
      (e.quotientsFinite_tree bindings)
  refine ⟨hregular e he, e.tokenize_text, ?_, ?_, heval, ?_⟩
  · intro word hword
    rw [e.tokenize_text] at hword
    exact hplain _ hword
  · intro v hv
    rw [e.tokenize_text] at hv
    exact hplain _ hv
  · intro x y a b a' b'
    have hvalue : (e.tree : Tree.Expression α).value ⟨x, y, a, b⟩ = e.tree.value ⟨x, y, a', b'⟩ :=
      RandomEquation.value_tree_congr (hregular e he) rfl rfl
    rw [heval, heval, hvalue]

end Trees

end PhasePortrait
