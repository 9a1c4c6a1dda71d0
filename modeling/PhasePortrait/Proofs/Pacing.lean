import PhasePortrait.CommandLine.FileTree
import PhasePortrait.Proofs.Binary64.Parts
import PhasePortrait.Proofs.Binary64.Reciprocal
import PhasePortrait.Proofs.CommandLine.Render

/-!
# Rates that abort

The check of a rate looks at the rate, and what has to fit is its reciprocal. Between the two there is
room, and it is twofold.

- A rate may be finite and above zero, and still so small that the seconds between two frames do not
  fit. Such a rate passes the check, and then the program aborts. These are the rates up to `2 ^ -64`
  (`Pace.ofRate_of_isTooSlow`, `Pace.exists_ofRate_eq_every`).
- A time that fits may still be more than the clock can read. Such a rate is paced, and the run is
  aborted by a wait. Up to `2 ^ -63` that is the first one, whatever the clock reads
  (`Pace.clockEnd_le_iff`). Above, it is the wait after which the next tick would be due beyond the
  clock, and which one that is depends on the clock.

A command that is aborted has written nothing. However else it goes, it comes to an ending that is
told: well, or with a failure that has a code of its own.
-/

namespace PhasePortrait

namespace Pace

open Binary64 (twoTo)

/-- The rates that pass the check. -/
def IsRate (fps : Float) : Prop := fps.isFinite = true ∧ (0.0 : Float) < fps

/-- The rates that have more seconds between two frames than a time can have. -/
def IsTooSlow (fps : Float) : Prop := (0.0 : Float) < fps ∧ fps ≤ twoTo (-64)

variable {fps : Float}

/-- The fastest of the rates that are too slow is a finite number. -/
theorem isFinite_slowest : (twoTo (-64)).isFinite = true := by decide +kernel

/-- A rate that is too slow is a rate: it is above zero, and as small as it is, it is finite. -/
theorem IsTooSlow.isRate (h : IsTooSlow fps) : IsRate fps :=
  ⟨Binary64.isFinite_of_between (by decide +kernel) isFinite_slowest (Binary64.le_of_lt h.1) h.2,
    h.1⟩

/-- The check asks whether a rate is not at most zero. For a finite one that is being above zero. -/
theorem isRate_iff : IsRate fps ↔ fps.isFinite = true ∧ ¬fps ≤ (0.0 : Float) :=
  and_congr_right fun hfinite => Binary64.lt_iff_not_le (by decide +kernel) hfinite

/-- A time fits if it is finite, not below zero, and less than `2 ^ 64` seconds. -/
theorem isSome_nanoseconds? (seconds : Float) :
    (nanoseconds? seconds).isSome = true ↔
      seconds.isFinite = true ∧ (0.0 : Float) ≤ seconds ∧ seconds < twoTo 64 := by
  unfold nanoseconds?
  split <;> simp_all [and_assoc]

/-- What is not a rate is refused by the name of the option, with the rate in the message. -/
theorem ofRate_of_not_isRate (h : ¬IsRate fps) :
    ofRate fps = .refused (.invalidParameter "fps" (.notPositive fps)) := by
  rw [isRate_iff, not_and_or, not_not] at h
  refine if_pos ?_
  rcases h with hinfinite | hnonpos
  · rw [Bool.eq_false_of_not_eq_true hinfinite]
    rfl
  · rw [decide_eq_true hnonpos, Bool.or_true]

/-- What passes the check is paced by its reciprocal, or not at all. -/
theorem ofRate_of_isRate (h : IsRate fps) :
    ofRate fps = match nanoseconds? (1.0 / fps) with
      | some n => .every n
      | none => .overflow := by
  rw [isRate_iff] at h
  refine if_neg ?_
  rw [h.1, decide_eq_false h.2]
  decide

/-- The time between two frames fits for the rates above `2 ^ -64`. It is the reciprocal, computed
with its rounding, that has to be less than `2 ^ 64`. -/
theorem isSome_nanoseconds?_one_div (h : IsRate fps) :
    (nanoseconds? (1.0 / fps)).isSome = true ↔ ¬fps ≤ twoTo (-64) := by
  have hlow : Binary64.IsPower (twoTo (-64)) (-64) := ⟨by decide, rfl⟩
  have hhigh : Binary64.IsPower (twoTo 64) 64 := ⟨by decide, rfl⟩
  rw [isSome_nanoseconds?,
    ← Binary64.one_div_lt_iff (by decide) (by decide) hlow hhigh h.1 h.2]
  have hnonneg := Binary64.zero_le_one_div h.1 h.2
  tauto

/-- A rate that is too slow passes the check and cannot be paced. This is the gap between what is
checked and what is needed. -/
theorem ofRate_of_isTooSlow (h : IsTooSlow fps) : ofRate fps = .overflow := by
  have hnone : nanoseconds? (1.0 / fps) = none := by
    rw [← Option.not_isSome_iff_eq_none, isSome_nanoseconds?_one_div h.isRate]
    exact not_not_intro h.2
  rw [ofRate_of_isRate h.isRate, hnone]

/-- Every faster rate is paced. That the time fits does not say that the clock can read what it
leads to. -/
theorem exists_ofRate_eq_every (h : IsRate fps) (hfast : twoTo (-64) < fps) :
    ∃ n, ofRate fps = .every n := by
  have hsome := (isSome_nanoseconds?_one_div h).mpr
    ((Binary64.lt_iff_not_le isFinite_slowest h.1).mp hfast)
  obtain ⟨n, hn⟩ := Option.isSome_iff_exists.mp hsome
  refine ⟨n, ?_⟩
  rw [ofRate_of_isRate h, hn]

/-- What a pace says of the rate that it comes of. The three kinds of rates exclude each other, so
this is said once and read off in either direction. -/
def Suits (fps : Float) : Pace → Prop
  | .refused cause => cause = .invalidParameter "fps" (.notPositive fps) ∧ ¬IsRate fps
  | .overflow => IsTooSlow fps
  | .every _ => IsRate fps ∧ twoTo (-64) < fps

/-- Every rate is of one of the three kinds, and its pace is that of the kind. -/
theorem suits_ofRate (fps : Float) : Suits fps (ofRate fps) := by
  by_cases hrate : IsRate fps
  · by_cases hslow : fps ≤ twoTo (-64)
    · have htooSlow : IsTooSlow fps := ⟨hrate.2, hslow⟩
      rw [ofRate_of_isTooSlow htooSlow]
      exact htooSlow
    · have hfast := (Binary64.lt_iff_not_le isFinite_slowest hrate.1).mpr hslow
      obtain ⟨n, hn⟩ := exists_ofRate_eq_every hrate hfast
      rw [hn]
      exact ⟨hrate, hfast⟩
  · rw [ofRate_of_not_isRate hrate]
    exact ⟨rfl, hrate⟩

/-- The three kinds exclude each other, so each pace tells the kind of its rate. -/
theorem ofRate_eq_refused_iff :
    ofRate fps = .refused (.invalidParameter "fps" (.notPositive fps)) ↔ ¬IsRate fps := by
  refine ⟨fun h => ?_, ofRate_of_not_isRate⟩
  have hsuits := suits_ofRate fps
  rw [h] at hsuits
  exact hsuits.2

theorem ofRate_eq_overflow_iff : ofRate fps = .overflow ↔ IsTooSlow fps := by
  refine ⟨fun h => ?_, ofRate_of_isTooSlow⟩
  have hsuits := suits_ofRate fps
  rwa [h] at hsuits

theorem ofRate_eq_every_iff :
    (∃ n, ofRate fps = .every n) ↔ IsRate fps ∧ twoTo (-64) < fps := by
  refine ⟨fun ⟨n, h⟩ => ?_, fun h => exists_ofRate_eq_every h.1 h.2⟩
  have hsuits := suits_ofRate fps
  rwa [h] at hsuits

/-! ## Times beyond the clock -/

section Clock

open Decimal (roundHalfEven)

variable {seconds : Float} {m n : Nat} {e : Int} {hm : 0 < m}

theorem roundHalfEven_one (n : Nat) : roundHalfEven n 1 = n := by
  simp [roundHalfEven, Nat.mod_one]

/-- Rounding adds one to what rounding down gives, or nothing. -/
theorem roundHalfEven_le (num den : Nat) : roundHalfEven num den ≤ num / den + 1 := by
  simp only [roundHalfEven]
  split
  next => omega
  next =>
    split
    next => exact Nat.le_refl _
    next => omega

/-- A time in nanoseconds, with the mantissa and the exponent of its seconds. -/
theorem nanoseconds?_of_finite (h : seconds.toModel.unpack = .finite .positive m e hm)
    (hn : nanoseconds? seconds = some n) :
    n = roundHalfEven (m * Nat.pow 2 e.toNat * 1000000000) (Nat.pow 2 (-e).toNat) := by
  obtain ⟨-, hmantissa, hexponent⟩ := Binary64.hasParts_of_finite h
  unfold nanoseconds? at hn
  split at hn
  next =>
    simp only [Decimal.quotient, hmantissa, hexponent, Option.some.injEq] at hn
    exact hn.symm
  next => cases hn

/-- A time of at least `2 ^ 63` seconds is a whole number of seconds, and beyond the clock. -/
theorem clockEnd_le_of_large (h : seconds.toModel.unpack = .finite .positive m e hm)
    (hn : nanoseconds? seconds = some n) (he : 11 ≤ e) (hlead : 2 ^ 52 ≤ m) : clockEnd ≤ n := by
  have hwhole : (-e).toNat = 0 := by omega
  have hpow : 2 ^ 11 ≤ 2 ^ e.toNat := Nat.pow_le_pow_right (by decide) (by omega)
  rw [nanoseconds?_of_finite h hn, hwhole, show Nat.pow 2 0 = 1 from rfl, roundHalfEven_one]
  refine Nat.mul_le_mul_right _ ?_
  calc Nat.pow 2 63 = 2 ^ 52 * 2 ^ 11 := by decide
    _ ≤ m * 2 ^ e.toNat := Nat.mul_le_mul hlead hpow

/-- A shorter time can be read off the clock. If it has a fraction of a second its mantissa is all
there is of it, and that is far below. -/
theorem lt_clockEnd_of_small (h : seconds.toModel.unpack = .finite .positive m e hm)
    (hn : nanoseconds? seconds = some n) (he : e < 11) (hlt : m < 2 ^ 53) : n < clockEnd := by
  rw [nanoseconds?_of_finite h hn]
  by_cases hwhole : 0 ≤ e
  · have hden : (-e).toNat = 0 := by omega
    have hpow : 2 ^ e.toNat ≤ 2 ^ 10 := Nat.pow_le_pow_right (by decide) (by omega)
    rw [hden, show Nat.pow 2 0 = 1 from rfl, roundHalfEven_one]
    refine Nat.mul_lt_mul_of_pos_right ?_ (by decide)
    calc m * 2 ^ e.toNat ≤ m * 2 ^ 10 := Nat.mul_le_mul_left _ hpow
      _ < 2 ^ 53 * 2 ^ 10 := Nat.mul_lt_mul_of_pos_right hlt (by decide)
      _ = Nat.pow 2 63 := by decide
  · have hnum : e.toNat = 0 := by omega
    rw [hnum]
    calc roundHalfEven (m * Nat.pow 2 0 * 1000000000) (Nat.pow 2 (-e).toNat)
        ≤ m * Nat.pow 2 0 * 1000000000 / Nat.pow 2 (-e).toNat + 1 := roundHalfEven_le _ _
      _ ≤ m * Nat.pow 2 0 * 1000000000 + 1 := Nat.succ_le_succ (Nat.div_le_self _ _)
      _ = m * 1000000000 + 1 := by rw [show Nat.pow 2 0 = 1 from rfl, Nat.mul_one]
      _ < 2 ^ 53 * 1000000000 + 1 :=
        Nat.succ_lt_succ (Nat.mul_lt_mul_of_pos_right hlt (by decide))
      _ ≤ clockEnd := by decide

/-- **The time between two frames is beyond the clock** for the rates up to `2 ^ -63`. The
reciprocal is compared with `2 ^ 63` seconds as a number, rounding included, and then as a whole
number of nanoseconds. -/
theorem clockEnd_le_iff (h : ofRate fps = .every n) : clockEnd ≤ n ↔ fps ≤ twoTo (-63) := by
  have hrate : IsRate fps := (ofRate_eq_every_iff.mp ⟨n, h⟩).1
  have hn : nanoseconds? (1.0 / fps) = some n := by
    rw [ofRate_of_isRate hrate] at h
    split at h
    next m hm => cases h; exact hm
    next => cases h
  have hfinite := ((isSome_nanoseconds? _).mp (Option.isSome_of_eq_some hn)).1
  have hlow : Binary64.IsPower (twoTo (-63)) (-63) := ⟨by decide, rfl⟩
  rcases Binary64.one_div_cases (by decide) (by decide) hlow hrate.1 hrate.2 with
    ⟨hle, hinf | ⟨m, e, hm, hq, he, hlead⟩⟩ | ⟨hle, m, e, hm, hq, he, hlt⟩
  · have : (1.0 / fps).isFinite = (1.0 / fps).toModel.unpack.isFinite := rfl
    rw [this, hinf] at hfinite
    cases hfinite
  · exact iff_of_true (clockEnd_le_of_large hq hn he hlead) hle
  · exact iff_of_false (Nat.not_le_of_lt (lt_clockEnd_of_small hq hn he hlt)) hle

end Clock

end Pace

namespace CommandLine

/-- The codes of endings that are told: well, or one for each kind of failure. The code of a program
that is aborted is none of them. -/
theorem Ending.exitCode_outcome (e : Ending) (json : Bool) :
    (e.outcome json).exitCode ∈ [0, 10, 11, 12, 14] := by
  unfold outcome
  rcases e.result with cause | _
  · cases cause <;> simp [CommandError.exitCode]
  · simp

/-- What is asked for is a schedule, or else what halts the command. -/
theorem RenderArgs.scheduler_of_rate {args : RenderArgs} {fps : Float}
    (hfps : args.fps = some fps) :
    (Pace.IsTooSlow fps → args.scheduler = .error (.aborted .duration)) ∧
      (¬Pace.IsRate fps →
        args.scheduler = .error (.failed (.setup (.invalidParameter "fps" (.notPositive fps))))) := by
  unfold scheduler
  rw [hfps, Option.map_some]
  refine ⟨fun hslow => ?_, fun hrate => ?_⟩
  · rw [Pace.ofRate_of_isTooSlow hslow]
  · rw [Pace.ofRate_of_not_isRate hrate]
    rfl

/-- A schedule that is to be had at a rate has not begun. Its period is that of the rate, and its
first tick is due at once. -/
theorem RenderArgs.every_of_scheduler {args : RenderArgs} {fps : Float} {scheduler : Scheduler}
    (hfps : args.fps = some fps) (h : args.scheduler = .ok scheduler) :
    ∃ period, Pace.ofRate fps = .every period ∧ scheduler = .fixedRate period none := by
  unfold RenderArgs.scheduler at h
  rw [hfps, Option.map_some] at h
  cases hrate : Pace.ofRate fps with
  | every period =>
    rw [hrate] at h
    exact ⟨period, rfl, (Except.ok.inj h).symm⟩
  | refused _ | overflow =>
    rw [hrate] at h
    cases h

/-- No schedule is aborted for another reason than a rate that is too slow. What a wait may abort is
the run, once it has its schedule. -/
theorem RenderArgs.isTooSlow_of_aborted {args : RenderArgs} {cause : Overflow}
    (h : args.scheduler = .error (.aborted cause)) :
    cause = .duration ∧ ∃ fps, args.fps = some fps ∧ Pace.IsTooSlow fps := by
  unfold scheduler at h
  cases hfps : args.fps with
  | none =>
    rw [hfps] at h
    cases h
  | some fps =>
    rw [hfps, Option.map_some] at h
    cases hrate : Pace.ofRate fps with
    | every n | refused _ =>
      rw [hrate] at h
      cases h
    | overflow =>
      rw [hrate] at h
      cases h
      exact ⟨rfl, fps, rfl, Pace.ofRate_eq_overflow_iff.mp hrate⟩

section Command

variable {μ : Type} (host : Host (StateM μ)) (args : RenderArgs) (json : Bool) (machine : μ)
  {config : Config} {fps : Float}

/-- What becomes of a run that is prepared: a wait aborts it, or it comes to an ending. The run has
started its loop, so by what is known of its ticks only the waits decide between the two. -/
theorem render_of_prepared {run : Prepared}
    (h : args.prepare (lookUp host args machine).1 = .ok run) :
    let waited := waits host args.ticks run.scheduler (lookUp host args machine).2
    (waited.1 = none →
      render host args json machine = ((Halt.aborted .instant).outcome json, waited.2)) ∧
    (waited.1 ≠ none →
      ∃ ending : Ending, (render host args json machine).1 = ending.outcome json) := by
  intro waited
  obtain ⟨-, -, hbegun⟩ := (prepare_eq_ok_iff args).mp h
  obtain ⟨-, begun, played, -, -, hsame, -, hadvance⟩ :=
    start_eq_ok host (start_of_begun hbegun) args.ticks
  obtain rfl : begun = run.played := Except.ok.inj (hsame.symm.trans hbegun)
  have hrun := hadvance run.scheduler (lookUp host args machine).2
  refine ⟨fun hlate => ?_, fun hlasts => ?_⟩
  · rw [show (waits host args.ticks run.scheduler (lookUp host args machine).2).1 = none
      from hlate] at hrun
    exact render_of_aborted host args json machine h hrun
  · obtain ⟨left, hleft⟩ := Option.ne_none_iff_exists'.mp hlasts
    rw [show (waits host args.ticks run.scheduler (lookUp host args machine).2).1 = some left
      from hleft] at hrun
    rw [render_apply, h]
    dsimp only
    rw [bind_apply, hrun]
    dsimp only [Option.map_some]
    cases played.rendered args json run.config with
    | error cause => exact ⟨.failed cause, rfl⟩
    | ok r => exact ⟨(save host args.output r waited.2).1, rfl⟩

/-- A configuration and a rate that is too slow for it: the schedule aborts the command, before the
run has begun. -/
theorem render_of_isTooSlow (hconfig : args.toConfig (lookUp host args machine).1 = .ok config)
    (hfps : args.fps = some fps) (hslow : Pace.IsTooSlow fps) :
    render host args json machine =
      ((Halt.aborted .duration).outcome json, (lookUp host args machine).2) :=
  render_of_halt host args json machine
    (prepare_of_scheduler args hconfig ((RenderArgs.scheduler_of_rate hfps).1 hslow))

/-- What neither a rate nor a wait aborts comes to an ending. Everything else that can keep a command
from its run has a code of its own. -/
theorem exists_ending
    (hfast : (∃ config, args.toConfig (lookUp host args machine).1 = .ok config) →
      ∀ fps, args.fps = some fps → ¬Pace.IsTooSlow fps)
    (hlasts : ∀ run, args.prepare (lookUp host args machine).1 = .ok run →
      (waits host args.ticks run.scheduler (lookUp host args machine).2).1 ≠ none) :
    ∃ ending : Ending, (render host args json machine).1 = ending.outcome json := by
  cases hprepare : args.prepare (lookUp host args machine).1 with
  | ok run => exact (render_of_prepared host args json machine hprepare).2 (hlasts run hprepare)
  | error halt =>
    rw [render_of_halt host args json machine hprepare]
    cases halt with
    | failed cause => exact ⟨.failed cause, rfl⟩
    | aborted cause =>
      obtain ⟨hconfigured, hscheduler⟩ := scheduler_of_aborted args hprepare
      obtain ⟨-, fps, hfps, hslow⟩ := RenderArgs.isTooSlow_of_aborted hscheduler
      exact absurd hslow (hfast hconfigured fps hfps)

/-- **A rate that passes the check may still abort the program.** It does up to `2 ^ -64`, where the
time between two frames does not fit. What is not a rate is refused, and every faster rate is paced;
the time is beyond the readings of the clock up to `2 ^ -63`.

So is the command. It is aborted in two cases only: there is a configuration, and the rate is too
slow; or there is a run, and its clock does not last for its waits. The first leaves the machine as it
was when the configuration had been looked for, and the second as the waits have left it. A run that
is not paced is never aborted, and one whose period is beyond the clock always is, by its first wait.
With what is not a rate the command fails and says so. Otherwise it comes to an ending that is told. -/
theorem aborts_iff_time_overflows :
    (∀ fps : Float,
      (Pace.ofRate fps = .refused (.invalidParameter "fps" (.notPositive fps)) ↔
        ¬Pace.IsRate fps) ∧
      (Pace.ofRate fps = .overflow ↔ Pace.IsTooSlow fps) ∧
      ((∃ n, Pace.ofRate fps = .every n) ↔ Pace.IsRate fps ∧ Binary64.twoTo (-64) < fps) ∧
      ∀ n, Pace.ofRate fps = .every n → (clockEnd ≤ n ↔ fps ≤ Binary64.twoTo (-63))) ∧
    let found := lookUp host args machine
    let configured := ∃ config, args.toConfig found.1 = .ok config
    let slow := configured ∧ ∃ fps, args.fps = some fps ∧ Pace.IsTooSlow fps
    let late := ∃ run, args.prepare found.1 = .ok run ∧
      (waits host args.ticks run.scheduler found.2).1 = none
    ((render host args json machine).1.exitCode = 101 ↔ slow ∨ late) ∧
      (slow → render host args json machine = ((Halt.aborted .duration).outcome json, found.2)) ∧
      (∀ run, args.prepare found.1 = .ok run →
        let waited := waits host args.ticks run.scheduler found.2
        (waited.1 = none →
          render host args json machine = ((Halt.aborted .instant).outcome json, waited.2)) ∧
        (args.fps = none → waited.1 ≠ none) ∧
        (∀ fps, args.fps = some fps → fps ≤ Binary64.twoTo (-63) → 1 ≤ args.ticks →
          waited = (none, (host.now found.2).2))) ∧
      (∀ fps, configured → args.fps = some fps → ¬Pace.IsRate fps →
        render host args json machine =
          ((Ending.failed (.setup (.invalidParameter "fps" (.notPositive fps)))).outcome json,
            found.2)) ∧
      (¬slow → ¬late → ∃ ending : Ending,
        (render host args json machine).1 = ending.outcome json ∧
          (ending.outcome json).exitCode ∈ [0, 10, 11, 12, 14]) := by
  refine ⟨fun fps => ⟨Pace.ofRate_eq_refused_iff, Pace.ofRate_eq_overflow_iff,
    Pace.ofRate_eq_every_iff, fun n => Pace.clockEnd_le_iff⟩, ?_⟩
  intro found configured slow late
  have hslow : slow →
      render host args json machine = ((Halt.aborted .duration).outcome json, found.2) := by
    rintro ⟨⟨config, hconfig⟩, fps, hfps, htooSlow⟩
    exact render_of_isTooSlow host args json machine hconfig hfps htooSlow
  have htold : ¬slow → ¬late → ∃ ending : Ending,
      (render host args json machine).1 = ending.outcome json := by
    intro hfast hearly
    refine exists_ending host args json machine (fun hconfigured fps hfps htooSlow => ?_)
      fun run hprepare hnone => hearly ⟨run, hprepare, hnone⟩
    exact hfast ⟨hconfigured, fps, hfps, htooSlow⟩
  have hlate : late → (render host args json machine).1 = (Halt.aborted .instant).outcome json := by
    rintro ⟨run, hprepare, hnone⟩
    rw [(render_of_prepared host args json machine hprepare).1 hnone]
  refine ⟨⟨fun hexit => ?_, ?_⟩, hslow, fun run hprepare => ⟨?_, fun hfps => ?_, ?_⟩, ?_, ?_⟩
  · by_contra hneither
    obtain ⟨hfast, hearly⟩ := not_or.mp hneither
    obtain ⟨ending, hending⟩ := htold hfast hearly
    have hcode := ending.exitCode_outcome json
    rw [← hending, hexit] at hcode
    exact absurd hcode (by decide)
  · rintro (h | h)
    · rw [hslow h]
      rfl
    · rw [hlate h]
      rfl
  · exact (render_of_prepared host args json machine hprepare).1
  · obtain ⟨-, hscheduler, -⟩ := (prepare_eq_ok_iff args).mp hprepare
    rw [scheduler_of_no_rate hfps hscheduler, waits_unthrottled]
    nofun
  · intro fps hfps hle hticks
    obtain ⟨-, hscheduler, -⟩ := (prepare_eq_ok_iff args).mp hprepare
    obtain ⟨period, hrate, hperiod⟩ := RenderArgs.every_of_scheduler hfps hscheduler
    obtain ⟨ticks, hsucc⟩ := Nat.exists_eq_succ_of_ne_zero (Nat.ne_of_gt hticks)
    rw [hperiod, hsucc, waits_of_clockEnd_le ((Pace.clockEnd_le_iff hrate).mpr hle)]
  · rintro fps ⟨config, hconfig⟩ hfps hrate
    exact render_of_halt host args json machine
      (prepare_of_scheduler args hconfig ((RenderArgs.scheduler_of_rate hfps).2 hrate))
  · intro hfast hearly
    obtain ⟨ending, hending⟩ := htold hfast hearly
    exact ⟨ending, hending, ending.exitCode_outcome json⟩

/-- A run of a rotation, with one frame in `10 ^ 300` seconds. -/
def slowRun : RenderArgs := { blankRun with dx := some "-y", dy := some "x", fps := some 1e-300 }

/-- The rate of that run is finite and above zero, and the run aborts: there is no schedule for
it. -/
theorem slowRun_aborts :
    (1e-300 : Float).isFinite = true ∧ (0.0 : Float) < 1e-300 ∧ Pace.ofRate 1e-300 = .overflow ∧
      (render FileTree.host slowRun false (.ofFiles [] [])).1.exitCode = 101 := by
  have hslow : Pace.IsTooSlow 1e-300 := ⟨by decide +kernel, by decide +kernel⟩
  have hconfig : slowRun.toConfig (lookUp FileTree.host slowRun (.ofFiles [] [])).1 =
      .ok { blankConfig with dx := "-y", dy := "x" } := rfl
  refine ⟨by decide +kernel, hslow.1, Pace.ofRate_of_isTooSlow hslow, ?_⟩
  rw [render_of_isTooSlow FileTree.host slowRun false (.ofFiles [] []) hconfig rfl hslow]
  rfl

end Command

end CommandLine

end PhasePortrait
