import Mathlib.Data.List.Forall2
import PhasePortrait.Particle.Population

/-!
# What is drawn

A list that is drawn item by item holds, for each item, what that item draws from some state of the
generator. Which state that is depends on all the items before; that there is one is enough for
whatever holds of every draw.
-/

namespace PhasePortrait.Draw

variable {β γ : Type}

/-- Item by item, a list of draws holds what the items draw. Each item draws from the state that
those before it have left, and that is all that is known of the state. -/
theorem mapM_drawn (draw : β → Draw γ) (items : List β) (g : Generator) :
    List.Forall₂ (fun item drawn => ∃ g, drawn = (draw item g).1) items (items.mapM draw g).1 := by
  induction items generalizing g with
  | nil => exact .nil
  | cons item items ih =>
    rw [List.mapM_cons]
    exact .cons ⟨g, rfl⟩ (ih _)

theorem length_mapM (draw : β → Draw γ) (items : List β) (g : Generator) :
    (items.mapM draw g).1.length = items.length :=
  (mapM_drawn draw items g).length_eq.symm

theorem getElem?_mapM (draw : β → Draw γ) {items : List β} {i : Nat} {item : β}
    (hitem : items[i]? = some item) (g : Generator) :
    ∃ h, (items.mapM draw g).1[i]? = some (draw item h).1 := by
  have hdrawn := mapM_drawn draw items g
  obtain ⟨hi, rfl⟩ := List.getElem?_eq_some_iff.mp hitem
  have hi' : i < (items.mapM draw g).1.length := by rwa [length_mapM]
  obtain ⟨h, hh⟩ := hdrawn.get hi hi'
  exact ⟨h, by rw [List.getElem?_eq_getElem hi']; exact congrArg some hh⟩

/-- A repeated draw has as many items as were asked for. -/
theorem length_times (n : Nat) (draw : Draw γ) (g : Generator) :
    (times n draw g).1.length = n := by
  unfold times
  rw [length_mapM, List.length_replicate]

theorem exists_of_mem_times {n : Nat} {draw : Draw γ} {g : Generator} {drawn : γ}
    (hmem : drawn ∈ (times n draw g).1) : ∃ h, drawn = (draw h).1 := by
  obtain ⟨i, hi, rfl⟩ := List.mem_iff_getElem.mp hmem
  have hlength : i < (List.replicate n ()).length := by
    rw [List.length_replicate]
    rwa [length_times] at hi
  exact (mapM_drawn (fun _ : Unit => draw) (List.replicate n ()) g).get hlength hi

/-- What holds of all that may be drawn, whatever the state of the generator. Nothing is said of how
often. -/
def Ensures (P : γ → Prop) (draw : Draw γ) : Prop := ∀ g, P (draw g).1

theorem Ensures.pure {P : γ → Prop} {x : γ} (h : P x) : Ensures P (Pure.pure x : Draw γ) :=
  fun _ => h

/-- A draw that goes on with what was drawn may use what holds of that. -/
theorem Ensures.bind {P : β → Prop} {Q : γ → Prop} {draw : Draw β} {next : β → Draw γ}
    (h : Ensures P draw) (hnext : ∀ x, P x → Ensures Q (next x)) : Ensures Q (draw >>= next) :=
  fun g => hnext _ (h g) _

/-- Repeated draws are as many as were asked for, and what holds of one holds of each. -/
theorem Ensures.times {P : γ → Prop} {draw : Draw γ} (h : Ensures P draw) (n : Nat) :
    Ensures (fun drawn => drawn.length = n ∧ ∀ x ∈ drawn, P x) (times n draw) := by
  intro g
  refine ⟨length_times n draw g, fun x hx => ?_⟩
  obtain ⟨g', rfl⟩ := exists_of_mem_times hx
  exact h g'

/-- A number below a bound, or zero where there is none below it. -/
theorem below_le (bound : Nat) (g : Generator) : (below bound g).1 ≤ bound - 1 := by
  unfold below
  split
  · exact Nat.zero_le _
  · exact Nat.le_sub_one_of_lt (Nat.mod_lt _ (by omega))

theorem below_eq_zero_or_lt (bound : Nat) (g : Generator) :
    (below bound g).1 = 0 ∨ (below bound g).1 < bound := by
  have hle := below_le bound g
  omega

end PhasePortrait.Draw

namespace PhasePortrait.Particle

variable {α : Type} [Scalar α]

/-- A particle has faded in at once, or at an age below the bound. -/
theorem fadeInAge_reborn (bounds : Bounds α) (params : Params α) (g : Generator) :
    (reborn bounds params g).1.fadeInAge = 0 ∨
      (reborn bounds params g).1.fadeInAge < params.fadeIn := by
  change (Draw.below params.fadeIn _).1 = 0 ∨ (Draw.below params.fadeIn _).1 < params.fadeIn
  exact Draw.below_eq_zero_or_lt params.fadeIn _

theorem age_reborn (bounds : Bounds α) (params : Params α) (g : Generator) :
    (reborn bounds params g).1.age = 0 := rfl

/-- A particle is spawned no older than it may become. -/
theorem age_spawn_le (bounds : Bounds α) (params : Params α) (g : Generator) :
    (spawn bounds params g).1.age ≤ params.maxAge := by
  change (Draw.below params.maxAge _).1 ≤ params.maxAge
  exact Nat.le_trans (Draw.below_le _ _) (Nat.sub_le _ _)

end PhasePortrait.Particle
