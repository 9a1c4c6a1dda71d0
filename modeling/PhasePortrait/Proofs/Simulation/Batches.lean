import Mathlib.Logic.Function.Iterate
import PhasePortrait.Proofs.Simulation.Halted

/-!
# Batches of ticks

A batch is a number of ticks back to back, unless the loop stops before. What it does is said once,
tick by tick, with the shots that were taken (`Batch`): the bound is reached, or the loop is not
running and only heeds its flag, or there is a tick and the rest of the batch.

The renderer may raise the flag in any frame. That frame counts, and it is the last one
(`Batch.last_of_raised`), because the tick after it finds the flag up. It does not matter whether
this tick belongs to the same batch: so **two batches in a row are one** (`Batch.append`).

A run at the pace of a scheduler asks whether the loop is running before it waits, where a batch has
its tick find out. So it takes the same ticks, and leaves a flag that was raised to be heeded later
(`Batch.paced`).
-/

namespace PhasePortrait.Simulation

variable {σ φ ρ τ : Type}

/-- A frame that was drawn. -/
structure Shot where
  scene : Scene Float
  /-- Whether the flag was raised while it was drawn. -/
  raised : Bool

/-- The renderer that also keeps its shots, the first one first. -/
def shooting (draw : Drawing ρ) : Drawing (ρ × List Shot) := fun scene (r, shots) =>
  ((draw scene r).1, (draw scene r).2, shots ++ [⟨scene, (draw scene r).1⟩])

theorem isRunning_heed {s : Simulation σ φ} (h : s.isRunning = false) :
    s.heed.isRunning = false := by
  rw [isRunning, heed_empty h]
  rfl

section Batches

variable [Engine σ]

/-- The shots of a batch. -/
def shots (draw : Drawing ρ) (n : Nat) (s : Simulation σ φ) (r : ρ) : List Shot :=
  (s.runFor (shooting draw) n (r, [])).2.2.2

/-- The shot that a tick takes of an engine. -/
def shot (draw : Drawing ρ) (engine : σ) (r : ρ) : Shot :=
  ⟨Engine.scene (Engine.step engine).2, (draw (Engine.scene (Engine.step engine).2) r).1⟩

/-- A running loop after a tick. -/
def ticked (draw : Drawing ρ) (s : Simulation σ φ) (engine : σ) (r : ρ) : Simulation σ φ :=
  { s with
    engine := some (Engine.step engine).2
    cancelled := (shot draw engine r).raised
    ticks := s.ticks + 1
    status := (Engine.step engine).1.status? }

/-! ## What a batch does -/

/-- What a batch of at most some ticks does to a loop and a canvas, with the shots that are taken. -/
inductive Batch (draw : Drawing ρ) :
    Nat → Simulation σ φ → ρ → List Shot → Simulation σ φ → ρ → Prop where
  /-- The bound is reached. -/
  | full (s r) : Batch draw 0 s r [] s r
  /-- The loop is not running, and heeds its flag. -/
  | idle {n s r} (hidle : s.isRunning = false) : Batch draw (n + 1) s r [] s.heed r
  | tick {n s r engine shots last r'} (hengine : s.engine = some engine)
      (hlowered : s.cancelled = false)
      (hrest : Batch draw n (s.ticked draw engine r) (draw (shot draw engine r).scene r).2
        shots last r') :
    Batch draw (n + 1) s r (shot draw engine r :: shots) last r'

variable {draw : Drawing ρ} {m n : Nat} {s t u : Simulation σ φ} {r r' r'' : ρ}
  {taken later : List Shot}

theorem exists_batch (draw : Drawing ρ) (n : Nat) (s : Simulation σ φ) (r : ρ) :
    ∃ taken t r', Batch draw n s r taken t r' := by
  induction n generalizing s r with
  | zero => exact ⟨_, _, _, .full s r⟩
  | succ n ih =>
    cases hrunning : s.isRunning with
    | false => exact ⟨_, _, _, .idle hrunning⟩
    | true =>
      obtain ⟨⟨engine, hengine⟩, hlowered⟩ := isRunning_iff.mp hrunning
      obtain ⟨taken, t, r', hrest⟩ := ih (s.ticked draw engine r) (draw (shot draw engine r).scene r).2
      exact ⟨_, _, _, .tick hengine hlowered hrest⟩

/-- What is described is what a batch does, counting from any number of ticks done before. -/
theorem Batch.runFrom_eq (h : Batch draw n s r taken t r') (done : Nat) :
    runFrom draw done n s r = (done + taken.length, t, r') := by
  induction h generalizing done with
  | full s r => rfl
  | idle hidle =>
    rw [runFrom, tick_of_not_running hidle]
    rfl
  | tick hengine hlowered hrest ih =>
    rw [runFrom, tick_of_running hengine hlowered]
    refine (ih (done + 1)).trans ?_
    rw [List.length_cons, Nat.add_right_comm, Nat.add_assoc]

theorem Batch.runFor_eq (h : Batch draw n s r taken t r') :
    s.runFor draw n r = (taken.length, t, r') := by
  rw [runFor, h.runFrom_eq, Nat.zero_add]

/-- The loop and the canvas do not know that shots are kept. -/
theorem Batch.shooting (h : Batch draw n s r taken t r') (kept : List Shot) :
    Batch (shooting draw) n s (r, kept) taken t (r', kept ++ taken) := by
  induction h generalizing kept with
  | full s r =>
    rw [List.append_nil]
    exact .full s _
  | idle hidle =>
    rw [List.append_nil]
    exact .idle hidle
  | @tick n s r engine shots last r' hengine hlowered hrest ih =>
    have hnext := ih (kept ++ [shot draw engine r])
    rw [List.append_assoc] at hnext
    exact .tick hengine hlowered hnext

/-- The shots of the description are those that the renderer has kept. -/
theorem Batch.shots_eq (h : Batch draw n s r taken t r') : s.shots draw n r = taken := by
  rw [shots, (h.shooting []).runFor_eq, List.nil_append]

theorem Batch.length_le (h : Batch draw n s r taken t r') : taken.length ≤ n := by
  induction h with
  | full s r => exact Nat.le_refl _
  | idle hidle => exact Nat.zero_le _
  | tick hengine hlowered hrest ih => exact Nat.succ_le_succ ih

theorem Batch.ticks_eq (h : Batch draw n s r taken t r') : t.ticks = s.ticks + taken.length := by
  induction h with
  | full s r => rfl
  | @idle n s r hidle =>
    unfold heed
    split <;> rfl
  | @tick n s r engine shots last r' hengine hlowered hrest ih =>
    rw [ih, List.length_cons, ticked, Nat.add_right_comm, Nat.add_assoc]

/-- A batch that falls short of its bound has stopped the loop. -/
theorem Batch.not_running (h : Batch draw n s r taken t r') (hshort : taken.length < n) :
    t.isRunning = false := by
  induction h with
  | full s r => exact absurd hshort (Nat.lt_irrefl 0)
  | idle hidle => exact isRunning_heed hidle
  | tick hengine hlowered hrest ih => exact ih (Nat.lt_of_succ_lt_succ hshort)

/-- A batch of a loop that is not running takes no shots. -/
theorem Batch.of_not_running (h : Batch draw n s r taken t r') (hidle : s.isRunning = false) :
    taken = [] ∧ t.isRunning = false := by
  cases h with
  | full s r => exact ⟨rfl, hidle⟩
  | idle _ => exact ⟨rfl, isRunning_heed hidle⟩
  | tick hengine hlowered _ =>
    rw [isRunning_iff.mpr ⟨⟨_, hengine⟩, hlowered⟩] at hidle
    cases hidle

/-- **The frame in which the flag is raised is the last one.** -/
theorem Batch.last_of_raised (h : Batch draw n s r taken t r') {before after : List Shot}
    {raised : Shot} (htaken : taken = before ++ raised :: after) (hraised : raised.raised = true) :
    after = [] ∧ t.isRunning = false := by
  induction h generalizing before with
  | full s r | idle hidle => simp at htaken
  | @tick n s r engine shots last r' hengine hlowered hrest ih =>
    cases before with
    | cons first before => exact ih (List.cons.inj htaken).2
    | nil =>
      obtain ⟨rfl, rfl⟩ := List.cons.inj htaken
      -- The loop that is left has its flag up.
      exact hrest.of_not_running (by rw [isRunning, ticked, hraised]; rfl)

/-- **Two batches in a row are one.** The first batch may have stopped short of its bound. Then the
loop does not run, the second one takes no shots, and one batch of both bounds would have stopped at
the same tick. -/
theorem Batch.append (h : Batch draw m s r taken t r') (h' : Batch draw n t r' later u r'') :
    Batch draw (m + n) s r (taken ++ later) u r'' := by
  induction h with
  | full s r =>
    rw [Nat.zero_add]
    exact h'
  | @idle m s r hidle =>
    -- The second batch finds a loop that has heeded its flag, and does nothing more.
    have hheed : s.heed.heed = s.heed := heed_of_empty (heed_empty hidle)
    rw [Nat.add_right_comm, List.nil_append]
    cases h' with
    | full => exact .idle hidle
    | idle _ =>
      rw [hheed]
      exact .idle hidle
    | tick hengine _ _ =>
      rw [heed_empty hidle] at hengine
      cases hengine
  | @tick m s r engine shots last r' hengine hlowered hrest ih =>
    rw [Nat.add_right_comm, List.cons_append]
    exact .tick hengine hlowered (ih h')

/-- A bound that a batch falls short of does not matter. -/
theorem Batch.of_short (h : Batch draw n s r taken t r') (hshort : taken.length < n) {more : Nat}
    (hmore : taken.length < more) : Batch draw more s r taken t r' := by
  induction h generalizing more with
  | full s r => exact absurd hshort (Nat.lt_irrefl 0)
  | idle hidle =>
    obtain ⟨more, rfl⟩ := Nat.exists_eq_succ_of_ne_zero (Nat.ne_of_gt hmore)
    exact .idle hidle
  | tick hengine hlowered hrest ih =>
    obtain ⟨more, rfl⟩ := Nat.exists_eq_succ_of_ne_zero (Nat.ne_zero_of_lt hmore)
    exact .tick hengine hlowered
      (ih (Nat.lt_of_succ_lt_succ hshort) (Nat.lt_of_succ_lt_succ hmore))

/-! ## At a pace -/

variable {wait : Waiting τ}

/-- A run at a pace takes the ticks of a batch, waits once for each of them, and leaves the loop as
a batch of just so many ticks does. A batch that falls short goes on to heed the flag. -/
theorem Batch.paced (h : Batch draw n s r taken t r') (hwait : ∀ p, (wait p).1 = false)
    (done : Nat) (p : τ) :
    ∃ u, Batch draw taken.length s r taken u r' ∧
      runWhile wait draw done n s r p =
        (done + taken.length, u, r', (fun p => (wait p).2)^[taken.length] p) ∧
      (taken.length < n → u.isRunning = false ∧ u.heed = t) := by
  induction h generalizing done p with
  | full s r => exact ⟨s, .full s r, rfl, fun hshort => absurd hshort (Nat.lt_irrefl 0)⟩
  | @idle n s r hidle =>
    refine ⟨s, .full s r, ?_, fun _ => ⟨hidle, rfl⟩⟩
    rw [runWhile, hidle]
    rfl
  | @tick n s r engine shots last r' hengine hlowered hrest ih =>
    obtain ⟨u, hbatch, hrun, hshort⟩ := ih (done + 1) (wait p).2
    refine ⟨u, .tick hengine hlowered hbatch, ?_, fun h => hshort (Nat.lt_of_succ_lt_succ h)⟩
    have hsame : { s with cancelled := s.cancelled || (wait p).1 } = s := by
      rw [hwait p, Bool.or_false]
    rw [runWhile, isRunning_iff.mpr ⟨⟨_, hengine⟩, hlowered⟩]
    simp only [if_true, hsame, tick_of_running hengine hlowered]
    refine hrun.trans ?_
    rw [List.length_cons, Nat.add_right_comm, Nat.add_assoc, Function.iterate_succ_apply]

/-- The run at a pace, in full: its count, its loop, its canvas and its scheduler. -/
theorem Batch.runPaced_eq (h : Batch draw n s r taken t r') (hwait : ∀ p, (wait p).1 = false)
    (p : τ) :
    s.runPaced wait draw n r p =
      (taken.length, (s.runFor draw taken.length r).2.1, r',
        (fun p => (wait p).2)^[taken.length] p) := by
  obtain ⟨u, hbatch, hrun, -⟩ := h.paced hwait 0 p
  rw [runPaced, hrun, hbatch.runFor_eq, Nat.zero_add]

/-- **Batches compose.** In any state, and whatever draws: a batch of `m + n` ticks leaves the same
loop and the same canvas as one of `m` and then one of `n`, has taken the same shots and counts the
ticks of both. A batch counts the shots that it takes, and the loop counts as many ticks. It falls
short of its bound only if it leaves a loop that does not run, and a shot in which the flag was
raised is counted and is the last one.

A run at the pace of a scheduler that leaves the flag alone takes the ticks of a batch, in the same
shots, and waits once for each of them. If the bound is not reached then it makes no difference, and
the loop that the run leaves is the one that the batch leaves, before that has heeded the flag. -/
theorem batches_compose (draw : Drawing ρ) (wait : Waiting τ) (hwait : ∀ p, (wait p).1 = false)
    (s : Simulation σ φ) (r : ρ) (p : τ) (m n : Nat) :
    let first := s.runFor draw m r
    let second := first.2.1.runFor draw n first.2.2
    let batch := s.runFor draw n r
    let paced := s.runPaced wait draw n r p
    s.runFor draw (m + n) r = (first.1 + second.1, second.2) ∧
    s.shots draw (m + n) r = s.shots draw m r ++ first.2.1.shots draw n first.2.2 ∧
    (∀ kept, s.runFor (shooting draw) n (r, kept) =
      (batch.1, batch.2.1, batch.2.2, kept ++ s.shots draw n r)) ∧
    ((s.shots draw n r).length = batch.1 ∧ batch.1 ≤ n ∧ batch.2.1.ticks = s.ticks + batch.1) ∧
    (batch.1 < n → batch.2.1.isRunning = false) ∧
    (∀ before shot after, s.shots draw n r = before ++ shot :: after → shot.raised = true →
      after = [] ∧ batch.2.1.isRunning = false) ∧
    (paced.1 = batch.1 ∧ s.runFor draw batch.1 r = (batch.1, paced.2.1, batch.2.2) ∧
      paced.2.2 = (batch.2.2, (fun p => (wait p).2)^[batch.1] p) ∧
      s.runPaced wait (shooting draw) n (r, []) p =
        (paced.1, paced.2.1, (paced.2.2.1, s.shots draw n r), paced.2.2.2) ∧
      s.run draw n r = (paced.1, paced.2.1, paced.2.2.1)) ∧
    (batch.1 < n → paced.2.1.isRunning = false ∧ paced.2.1.heed = batch.2.1 ∧
      ∀ more, batch.1 < more →
        s.runFor draw more r = batch ∧ s.runPaced wait draw more r p = paced) := by
  obtain ⟨taken, t, r', h⟩ := exists_batch draw n s r
  obtain ⟨earlier, t₁, r₁, hfirst⟩ := exists_batch draw m s r
  obtain ⟨later, t₂, r₂, hsecond⟩ := exists_batch draw n t₁ r₁
  obtain ⟨u, hbatch, hpaced, hleft⟩ := h.paced hwait 0 p
  have hboth := hfirst.append hsecond
  rw [← runPaced] at hpaced
  simp only [hfirst.runFor_eq, hsecond.runFor_eq, h.runFor_eq, hboth.runFor_eq, h.shots_eq,
    hfirst.shots_eq, hsecond.shots_eq, hboth.shots_eq, hbatch.runFor_eq, hpaced, Nat.zero_add,
    List.length_append, true_and]
  refine ⟨fun kept => (h.shooting kept).runFor_eq, ⟨h.length_le, h.ticks_eq⟩, h.not_running,
    fun before shot after => h.last_of_raised, ⟨?_, ?_⟩, fun hshort => ?_⟩
  · rw [(h.shooting []).runPaced_eq hwait, (hbatch.shooting []).runFor_eq, List.nil_append]
  · rw [run, h.runPaced_eq (fun _ => rfl), hbatch.runFor_eq]
  · obtain ⟨hstopped, hheed⟩ := hleft hshort
    refine ⟨hstopped, hheed, fun more hmore => ?_⟩
    have hmost := h.of_short hshort hmore
    exact ⟨hmost.runFor_eq, by rw [hmost.runPaced_eq hwait, hbatch.runFor_eq]⟩

end Batches

/-! ## Flows -/

open CommandLine (flowFactory)

/-- A loop of flows whose renderer raises the flag in the second frame, which counts. A longer run
at a pace ends there too, and has waited twice. -/
theorem batches_compose_of_turning :
    let s := reached flowFactory turning () [Operation.start] 0
    let draw : Drawing Nat := fun _ frames => (frames == 1, frames + 1)
    let wait : Waiting Nat := fun waits => (false, waits + 1)
    (∀ waits, (wait waits).1 = false) ∧ (s.runFor draw 5 0).1 = 2 ∧
      (s.runFor draw (1 + 5) 0).1 = 2 ∧ (s.runFor draw 5 0).2.1.isRunning = false ∧
      (s.runPaced wait draw 9 0 0).2.2 = (2, 2) := by
  intro s draw wait
  have hwait : ∀ waits, (wait waits).1 = false := fun _ => rfl
  have hbatch : (s.runFor draw 5 0).1 = 2 := by decide +kernel
  have hcanvas : (s.runFor draw 5 0).2.2 = 2 := by decide +kernel
  have hshort : (s.runFor draw 5 0).1 < 5 := by
    rw [hbatch]
    decide
  obtain ⟨-, -, -, -, hstopped, -, ⟨-, -, hpaced, -⟩, hmore⟩ :=
    batches_compose draw wait hwait s 0 0 1 5
  obtain ⟨-, -, hmore⟩ := hmore hshort
  refine ⟨hwait, hbatch, ?_, hstopped hshort, ?_⟩
  · rw [(hmore 6 (by rw [hbatch]; decide)).1]
    exact hbatch
  · rw [(hmore 9 (by rw [hbatch]; decide)).2, hpaced, hbatch, hcanvas]
    rfl

end PhasePortrait.Simulation
