import PhasePortrait.Particle.Population

/-!
# The generator does not stop

Each of the three shifts of a draw combines a word with itself moved by some bits, so the bits that
the move does not reach show the word as it was, and from them the next ones are known, and so on:
a word is determined by the one that follows it. Zero is followed by zero. So **a generator that is
not at zero never gets there**, whatever is drawn from it.

What holds of a generator and is kept by one word is kept by every draw (`Draw.Keeps`), since words
are all that is ever taken. How evenly the words are spread is another matter, and nothing is said
about it.
-/

namespace PhasePortrait

/-! ## Words -/

section Shifts

variable {w k : Nat}

/-- A shift to the left, mixed into the word that is shifted, can be undone: the lowest bits are not
reached by it, and each higher one is known once the bits below it are. -/
theorem xor_shiftLeft_injective (hk : 0 < k) :
    Function.Injective fun x : BitVec w => x ^^^ (x <<< k) := by
  intro x y hxy
  have hbits : ∀ i, x.getLsbD i = y.getLsbD i := by
    intro i
    -- From the lowest bit up: each one is combined with one that is known.
    induction i using Nat.strongRecOn with
    | ind i ih =>
      have hbit := congrArg (·.getLsbD i) hxy
      simp only [BitVec.getLsbD_xor, BitVec.getLsbD_shiftLeft] at hbit
      by_cases hik : i < k
      · simpa [hik] using hbit
      · rw [ih (i - k) (by omega)] at hbit
        exact Bool.xor_left_inj.mp hbit
  exact BitVec.eq_of_getLsbD_eq fun i _ => hbits i

/-- The same for a shift to the right. The highest bits are not reached by it, and the others are
known from them, from above. -/
theorem xor_shiftRight_injective (hk : 0 < k) :
    Function.Injective fun x : BitVec w => x ^^^ (x >>> k) := by
  intro x y hxy
  have hbits : ∀ n i, w - i ≤ n → x.getLsbD i = y.getLsbD i := by
    intro n
    -- From the highest bit down.
    induction n with
    | zero =>
      intro i hi
      rw [BitVec.getLsbD_of_ge x i (by omega), BitVec.getLsbD_of_ge y i (by omega)]
    | succ n ih =>
      intro i hi
      have hbit := congrArg (·.getLsbD i) hxy
      simp only [BitVec.getLsbD_xor, BitVec.getLsbD_ushiftRight] at hbit
      rw [ih (k + i) (by omega)] at hbit
      exact Bool.xor_left_inj.mp hbit
  exact BitVec.eq_of_getLsbD_eq fun i _ => hbits w i (Nat.sub_le _ _)

end Shifts

namespace Generator

/-- A word is determined by the one that follows it: each of the three shifts can be undone, and so
can all of them in a row. -/
theorem advance_injective : Function.Injective advance := by
  intro s t hst
  have hlast := xor_shiftLeft_injective (k := 17) (by decide) (congrArg UInt64.toBitVec hst)
  have hmiddle := xor_shiftRight_injective (k := 7) (by decide) hlast
  have hfirst := xor_shiftLeft_injective (k := 13) (by decide) hmiddle
  exact UInt64.toBitVec_inj.mp hfirst

/-- Zero is followed by zero, as nothing is mixed into nothing. -/
theorem advance_zero : advance 0 = 0 := by decide

/-- Not stuck at zero. A generator at zero would give zero for every word. -/
def IsLive (g : Generator) : Prop := g.state ≠ 0

/-- A generator made of a seed is not stuck, as a seed of zero is replaced. -/
theorem isLive_ofSeed (seed : UInt64) : (ofSeed seed).IsLive := by
  unfold IsLive ofSeed
  split
  next => decide
  next hseed => exact hseed

end Generator

/-! ## Draws -/

namespace Draw

variable {β γ : Type} {P : Generator → Prop}

/-- What holds of the generator before the draw holds after it. This is closed under everything that
draws are put together from. -/
def Keeps (P : Generator → Prop) (draw : Draw β) : Prop := ∀ g, P g → P (draw g).2

/-- Drawing nothing keeps everything, as the generator stays where it is. -/
theorem Keeps.pure (x : β) : Keeps P (Pure.pure x : Draw β) := fun _ hg => hg

/-- A draw behind another keeps what both of them keep, whatever the first one has drawn. -/
theorem Keeps.bind {draw : Draw β} {next : β → Draw γ} (h : Keeps P draw)
    (hnext : ∀ x, Keeps P (next x)) : Keeps P (draw >>= next) :=
  fun g hg => hnext _ _ (h g hg)

/-- One draw for each item of a list keeps what each of them keeps. -/
theorem Keeps.mapM {draw : β → Draw γ} (h : ∀ x, Keeps P (draw x)) (items : List β) :
    Keeps P (items.mapM draw) := by
  induction items with
  | nil => exact .pure []
  | cons item items ih =>
    rw [List.mapM_cons]
    exact (h item).bind fun _ => ih.bind fun _ => .pure _

/-- A draw made several times keeps what it keeps once. This is how all particles of a population
are drawn. -/
theorem Keeps.times {draw : Draw β} (h : Keeps P draw) (n : Nat) : Keeps P (times n draw) :=
  .mapM (fun _ => h) _

/-- A word is not followed by zero, since zero is: two words would have one successor. So no word
leads to where there is no way out. -/
theorem word_keeps_isLive : Keeps Generator.IsLive word := by
  intro g hg hzero
  exact hg (Generator.advance_injective (hzero.trans Generator.advance_zero.symm))

section Word

variable {α : Type} [Scalar α] (hword : Keeps P word)

include hword

/-- From here on a property is known to be kept by words. A number below a bound takes one word, or
none where the bound is zero. -/
theorem keeps_below (bound : Nat) : Keeps P (below bound) := by
  unfold below
  split
  · exact .pure 0
  · exact hword.bind fun _ => .pure _

/-- A number between zero and one is made of one word, of which some bits are dropped. -/
theorem keeps_unit : Keeps P (unit : Draw α) := hword.bind fun _ => .pure _

/-- A number between two others is made of one between zero and one. -/
theorem keeps_between (low high : α) : Keeps P (between low high) :=
  (keeps_unit hword).bind fun _ => .pure _

/-- A point takes a number for either coordinate. -/
theorem keeps_randomPoint (bounds : Bounds α) : Keeps P bounds.randomPoint :=
  (keeps_between hword _ _).bind fun _ => (keeps_between hword _ _).bind fun _ => .pure _

/-- A particle that begins again takes a point, and a number of ticks to fade in. -/
theorem keeps_reborn (bounds : Bounds α) (params : Params α) :
    Keeps P (Particle.reborn bounds params) :=
  (keeps_randomPoint hword bounds).bind fun _ => (keeps_below hword _).bind fun _ => .pure _

/-- A particle of a new population takes an age to begin with, too. -/
theorem keeps_spawn (bounds : Bounds α) (params : Params α) :
    Keeps P (Particle.spawn bounds params) :=
  (keeps_reborn hword bounds params).bind fun _ => (keeps_below hword _).bind fun _ => .pure _

/-- What happens to a particle at the end of a tick: only one that begins again takes words. -/
theorem keeps_settle (p : Population α) (i : Nat) (m : Advanced α) : Keeps P (p.settle i m) := by
  unfold Population.settle
  split
  · exact keeps_reborn hword _ _
  · exact .pure _

end Word

end Draw

end PhasePortrait
