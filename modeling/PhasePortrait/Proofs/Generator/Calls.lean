import Mathlib.Data.FinEnum
import Mathlib.Data.Fintype.EquivFin
import Mathlib.Logic.Function.Iterate
import PhasePortrait.Proofs.Draw
import PhasePortrait.Proofs.Generator

/-!
# What is asked of a generator

Whatever is asked of a generator, its state moves along one orbit: that of the word after a word. A
call takes one word and so goes one step, or it takes none and goes no step (`Call.after_eq`). So all
that a run of calls does to the state is **how many words it took** (`state_afterAll`).

The step is a bijection of the words with zero as a fixed point. Hence zero is reached from zero
only, and two generators that differ stay apart for as long as they take words in step. When the
orbit comes back to where it started is not said here.
-/

namespace PhasePortrait.Generator

/-! ## The step -/

/-- A word is the one after exactly one other. -/
theorem advance_bijective : Function.Bijective advance :=
  Finite.injective_iff_bijective.mp advance_injective

theorem iterate_advance_zero (n : Nat) : advance^[n] 0 = 0 :=
  Function.iterate_fixed advance_zero n

/-- Zero is reached from zero only. -/
theorem iterate_advance_eq_zero (n : Nat) (s : UInt64) : advance^[n] s = 0 ↔ s = 0 := by
  constructor
  · intro hzero
    apply advance_injective.iterate n
    rw [hzero, iterate_advance_zero]
  · rintro rfl
    exact iterate_advance_zero n

/-! ## Calls -/

/-- What can be asked of a generator. -/
inductive Call (α : Type) where
  | word
  | unit
  | between (low high : α)
  | below (bound : Nat)

section Calls

variable {α : Type}

/-- How many words a call takes. Below zero there is nothing to draw. -/
def Call.words : Call α → Nat
  | .below 0 => 0
  | .word | .unit | .between _ _ | .below _ => 1

/-- How many words a list of calls takes. -/
def words : List (Call α) → Nat
  | [] => 0
  | call :: calls => call.words + words calls

theorem Call.words_eq_one {call : Call α} (h : call ≠ .below 0) : call.words = 1 := by
  cases call with
  | word | unit | between low high => rfl
  | below bound =>
    cases bound with
    | zero => exact absurd rfl h
    | succ bound => rfl

variable [Scalar α]

/-- The generator after a call. -/
def Call.after (g : Generator) : Call α → Generator
  | .word => (Draw.word g).2
  | .unit => ((Draw.unit : Draw α) g).2
  | .between low high => (Draw.between low high g).2
  | .below bound => (Draw.below bound g).2

/-- The generator after one call after another. -/
def afterAll (g : Generator) (calls : List (Call α)) : Generator := calls.foldl Call.after g

theorem below_zero (g : Generator) : Draw.below 0 g = (0, g) := rfl

theorem state_below {bound : Nat} (hbound : 0 < bound) (g : Generator) :
    (Draw.below bound g).2.state = advance g.state := by
  unfold Draw.below
  rw [if_neg (by omega)]
  rfl

/-- **A call goes as many steps as it takes words.** So the state after a call is known from the
count alone, whatever the call was for. -/
theorem Call.after_eq (call : Call α) (g : Generator) :
    (call.after g).state = advance^[call.words] g.state := by
  cases call with
  | word | unit | between low high => rfl
  | below bound =>
    cases bound with
    | zero => rfl
    | succ bound => exact state_below (Nat.succ_pos bound) g

/-- **A run goes as many steps as it takes words.** By induction on the calls, each of which starts
where the one before has stopped. -/
theorem state_afterAll (g : Generator) (calls : List (Call α)) :
    (g.afterAll calls).state = advance^[words calls] g.state := by
  induction calls generalizing g with
  | nil => rfl
  | cons call calls ih =>
    have hwords : words (call :: calls) = words calls + call.words := Nat.add_comm _ _
    calc (g.afterAll (call :: calls)).state
        = ((call.after g).afterAll calls).state := rfl
      _ = advance^[words calls] (advance^[call.words] g.state) := by rw [ih, call.after_eq]
      _ = advance^[words (call :: calls)] g.state := by
        rw [hwords, Function.iterate_add_apply]

/-- Whatever is asked of it, a generator is at zero if it was at zero. -/
theorem state_afterAll_eq_zero (g : Generator) (calls : List (Call α)) :
    (g.afterAll calls).state = 0 ↔ g.state = 0 := by
  rw [state_afterAll, iterate_advance_eq_zero]

/-- A word is zero if the generator is at zero. -/
theorem word_eq_zero (g : Generator) : (Draw.word g).1 = 0 ↔ g.state = 0 :=
  iterate_advance_eq_zero 1 g.state

theorem below_lt {bound : Nat} (hbound : 0 < bound) (g : Generator) :
    (Draw.below bound g).1 < bound := by
  have hbelow := Draw.below_eq_zero_or_lt bound g
  omega

/-- **A generator never degenerates.** The word after a word is a bijection of the words that leaves
zero at zero. So from any seed, whatever is asked of the generator, it does not come to zero and
never answers with the word zero; and two generators at different words that take the same number of
words, each in its own way, are at different words afterwards.

Every call takes one word, but that for a number below zero takes none and answers zero. A number
below any other bound is below it. -/
theorem generator_never_degenerates (α : Type) [Scalar α] :
    (Function.Bijective advance ∧ advance 0 = 0) ∧
    (∀ seed (calls : List (Call α)),
      ((ofSeed seed).afterAll calls).state ≠ 0 ∧
        (Draw.word ((ofSeed seed).afterAll calls)).1 ≠ 0) ∧
    (∀ (g h : Generator) (calls calls' : List (Call α)), g.state ≠ h.state →
      words calls = words calls' → (g.afterAll calls).state ≠ (h.afterAll calls').state) ∧
    (∀ (call : Call α) g, call ≠ .below 0 → (call.after g).state = advance g.state) ∧
    (∀ g, Draw.below 0 g = (0, g)) ∧
    (∀ bound g, 0 < bound → (Draw.below bound g).1 < bound) := by
  refine ⟨⟨advance_bijective, advance_zero⟩, ?_, ?_, ?_, below_zero, fun bound g => ?_⟩
  · intro seed calls
    have hlive : ((ofSeed seed).afterAll calls).state ≠ 0 := by
      rw [ne_eq, state_afterAll_eq_zero]
      exact isLive_ofSeed seed
    exact ⟨hlive, mt (word_eq_zero _).mp hlive⟩
  · intro g h calls calls' hdiffer hwords hmeet
    rw [state_afterAll, state_afterAll, hwords] at hmeet
    exact hdiffer (advance_injective.iterate _ hmeet)
  · intro call g hcall
    rw [call.after_eq, call.words_eq_one hcall]
    rfl
  · intro hbound
    exact below_lt hbound g

end Calls

end PhasePortrait.Generator
