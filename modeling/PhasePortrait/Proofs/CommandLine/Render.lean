import PhasePortrait.CommandLine.FileTree
import PhasePortrait.CommandLine.Program
import PhasePortrait.Proofs.CommandLine.Waiting
import PhasePortrait.Proofs.Draw
import PhasePortrait.Proofs.Field
import PhasePortrait.Proofs.Flow.Scene
import PhasePortrait.Proofs.Raster.Frame
import PhasePortrait.Proofs.Simulation.Run

/-!
# A run keeps its picture

A command that renders has many ways to end without a picture: the loop may stop early, the renderer
may have no frame, the frame may be too large for a file or have pixels of another number. Once the
loop has started none of these is left (`start_eq_ok`): the size that was checked at the start is the
size of each scene, so the renderer draws on one frame from the first tick to the last.

One way is left, and it is not the loop's. A wait between two ticks may abort the program, and then
there is no picture (`render_of_aborted`, `distantRun_loses_its_picture`). The run that is described
here is the one that its clock lasts for.

What is still open then is whether the machine writes the file. If it does, the command fails only
where the last tick had particles and no velocity for any of them.
-/

namespace PhasePortrait.CommandLine

open Simulation (tick_of_running rebuild_cases start_of_not_running)

/-! ## Ticks of a run -/

section Ticks

variable {config : Config} {fresh : Flow} {n : Nat} {p : Played}

/-- The last of some ticks, apart: the induction over a run adds ticks at its end. -/
theorem performAll_replicate_succ (fresh : Flow) (n : Nat) :
    fresh.performAll (List.replicate (n + 1) .step) =
      (fresh.performAll (List.replicate n .step)).step.2 := by
  rw [List.replicate_succ', Flow.performAll_append]
  rfl

/-- Ticks leave the canvas as it is: every scene of a run has the size that the configuration asked
for. -/
theorem size_of_ticks (hfresh : Flow.ofConfig config = .ok fresh) (n : Nat) :
    (fresh.performAll (List.replicate n .step)).scene.width = config.width ∧
      (fresh.performAll (List.replicate n .step)).scene.height = config.height := by
  have hsize : (List.replicate n Flow.Operation.step).foldl Flow.Operation.sizeAfter
      (config.width, config.height) = (config.width, config.height) := by
    induction n with
    | zero => rfl
    | succ n ih => exact ih
  have hshowing := (Flow.showing_of_ofConfig hfresh).performAll (List.replicate n .step)
  rw [hsize] at hshowing
  exact ⟨hshowing.width, hshowing.height⟩

/-- **The invariant of a run**, after some of its ticks. It holds the flow as the ticks alone have
made it: what was waited for in between has left no trace in it. -/
structure Drawn (config : Config) (fresh : Flow) (n : Nat) (p : Played) : Prop where
  engine : p.loop.engine = some (fresh.performAll (List.replicate n .step))
  lowered : p.loop.cancelled = false
  ticks : p.loop.ticks = n
  sound : p.renderer.IsSound
  /-- There is a frame from the first tick on. -/
  frame : 0 < n → ∃ f, p.renderer.frame = some f ∧ f.IsFull ∧ f.width = config.width ∧
    f.height = config.height
  /-- What is told is told by the last tick. -/
  told : ∀ m, n = m + 1 →
    let report := (fresh.performAll (List.replicate m .step)).step.1
    p.last = some report ∧ p.loop.status = report.status?

variable {μ : Type} (host : Host (StateM μ))

/-- A run that is waiting for a tick takes it, unless the wait aborts the run. The size that was
checked at the start is that of the scene, so the renderer has a frame after the tick, whatever it
had before. -/
theorem Drawn.advance_succ (hfresh : Flow.ofConfig config = .ok fresh)
    (hcanvas : IsCanvas config.width config.height) (h : Drawn config fresh n p) :
    ∃ next, Drawn config fresh (n + 1) next ∧ ∀ k scheduler machine,
      p.advance host (k + 1) scheduler machine =
        match host.waitNext scheduler machine with
        | (none, machine) => (none, machine)
        | (some scheduler, machine) => next.advance host k scheduler machine := by
  have htick := tick_of_running h.engine h.lowered drawPicture p.renderer
  obtain ⟨hwidth, hheight⟩ := size_of_ticks hfresh (n + 1)
  have hscene : IsCanvas (fresh.performAll (List.replicate (n + 1) .step)).scene.width
      (fresh.performAll (List.replicate (n + 1) .step)).scene.height := by
    rw [hwidth, hheight]
    exact hcanvas
  obtain ⟨f, hf⟩ := Renderer.exists_frame_render (r := p.renderer) hscene
  obtain ⟨hfull, hfwidth, hfheight⟩ := Renderer.shape_of_render h.sound hf
  refine ⟨⟨(p.loop.tick drawPicture p.renderer).1, (p.loop.tick drawPicture p.renderer).2.1,
    (p.loop.tick drawPicture p.renderer).2.2⟩, ?_, fun k scheduler machine => ?_⟩
  · rw [htick]
    rw [performAll_replicate_succ] at hf
    refine
      { engine := ?_
        lowered := rfl
        ticks := congrArg (· + 1) h.ticks
        sound := h.sound.render _
        frame := fun _ => ⟨f, hf, hfull, hfwidth.trans hwidth, hfheight.trans hheight⟩
        told := ?_ }
    · rw [performAll_replicate_succ]
      rfl
    · rintro m hm
      obtain rfl := Nat.succ.inj hm
      exact ⟨rfl, rfl⟩
  · rw [Played.advance, bind_apply, htick]
    cases host.waitNext scheduler machine with
    | mk answer machine => cases answer <;> rfl

/-- What a run leaves behind is decided by its ticks, and whether it leaves anything by its waits.
The induction is on the ticks that are left; the waits are those of a list of ticks without a
run. -/
theorem Drawn.advance (hfresh : Flow.ofConfig config = .ok fresh)
    (hcanvas : IsCanvas config.width config.height) (h : Drawn config fresh n p) (k : Nat) :
    ∃ played, Drawn config fresh (n + k) played ∧ ∀ scheduler machine,
      p.advance host k scheduler machine =
        ((waits host k scheduler machine).1.map fun _ => played,
          (waits host k scheduler machine).2) := by
  induction k generalizing n p with
  | zero => exact ⟨p, h, fun scheduler machine => rfl⟩
  | succ k ih =>
    obtain ⟨next, hnext, hadvance⟩ := h.advance_succ host hfresh hcanvas
    obtain ⟨played, hplayed, hrest⟩ := ih hnext
    rw [Nat.add_assoc, Nat.add_comm 1 k] at hplayed
    refine ⟨played, hplayed, fun scheduler machine => ?_⟩
    rw [hadvance, waits_succ]
    cases host.waitNext scheduler machine with
    | mk answer machine =>
      cases answer with
      | none => rfl
      | some scheduler => exact hrest scheduler machine

/-- A loop that is about to be started. -/
def wantedLoop (config : Config) : FlowLoop := { Simulation.idle config () with wanted := true }

/-- A loop that was just started has drawn nothing, so the invariant holds of no ticks. -/
theorem drawn_of_started (fresh : Flow) :
    Drawn config fresh 0
      { last := none, loop := { wantedLoop config with engine := some fresh }
        renderer := .empty } where
  engine := rfl
  lowered := rfl
  ticks := rfl
  sound := Renderer.isSound_empty
  frame := nofun
  told := nofun

/-- A run begins if its loop starts. -/
theorem start_of_begun {begun : Played} (h : Played.start config = .ok begun) :
    ((Simulation.idle config ()).start flowFactory).1 = .ok () := by
  unfold Played.start at h
  split at h
  next => cases h
  next hstarted => rw [hstarted]

/-- **A loop that starts is drawn to the end**, if its waits let it. Starting it has checked the
configuration and built a flow, and that is all that the invariant of a run asks for. -/
theorem start_eq_ok (hstart : ((Simulation.idle config ()).start flowFactory).1 = .ok ())
    (ticks : Nat) :
    ∃ fresh begun played, Flow.ofConfig config = .ok fresh ∧ IsCanvas config.width config.height ∧
      Played.start config = .ok begun ∧ Drawn config fresh ticks played ∧ ∀ scheduler machine,
        begun.advance host ticks scheduler machine =
          ((waits host ticks scheduler machine).1.map fun _ => played,
            (waits host ticks scheduler machine).2) := by
  have hrebuild : (Simulation.idle config ()).start flowFactory =
      (wantedLoop config).rebuild flowFactory := start_of_not_running rfl flowFactory
  have hrebuilt := rebuild_cases flowFactory (wantedLoop config)
  unfold Played.start
  rw [hrebuild] at hstart ⊢
  generalize (wantedLoop config).rebuild flowFactory = result at hstart hrebuilt ⊢
  cases hrebuilt with
  | refused | failed => cases hstart
  | built hcheck hmade =>
    rename_i fresh state
    have hfresh : Flow.ofConfig config = .ok fresh := congrArg Prod.fst hmade
    have hcanvas : IsCanvas config.width config.height := (Config.check_eq_ok.mp hcheck).2.1
    obtain ⟨played, hplayed, hadvance⟩ :=
      (drawn_of_started fresh).advance host hfresh hcanvas ticks
    rw [Nat.zero_add] at hplayed
    exact ⟨fresh, _, played, hfresh, hcanvas, rfl, hplayed, hadvance⟩

end Ticks

/-! ## What comes of a run -/

section Ending

variable {config : Config} {p : Played}

/-- A run with a full frame of the size of a canvas has a picture. Its sides fit, and its bytes are
as many as a writer asks for, so neither check can refuse it. -/
theorem picture_eq_ok {f : Frame Float} (hframe : p.renderer.frame = some f) (hfull : f.IsFull)
    (hcanvas : IsCanvas f.width f.height) :
    p.picture = .ok { width := f.width, height := f.height, bytes := f.rgbaBytes } := by
  unfold Played.picture
  rw [hframe]
  dsimp only
  rw [Picture.ofFrame_eq_ok hcanvas hfull]
  rfl

/-- **A run that has ticked has a picture**, of the size that was asked for and with all its pixels.
The invariant has the frame, and the size was checked before the run began. -/
theorem Drawn.exists_picture {fresh : Flow} {n : Nat} (h : Drawn config fresh n p) (hticks : 1 ≤ n)
    (hcanvas : IsCanvas config.width config.height) :
    ∃ frame, p.renderer.frame = some frame ∧ frame.width = config.width ∧
      frame.height = config.height ∧ frame.pixels.size = config.width * config.height ∧
      p.picture = .ok ⟨config.width, config.height, frame.rgbaBytes⟩ := by
  obtain ⟨frame, hframe, hfull, hwidth, hheight⟩ := h.frame hticks
  rw [← hwidth, ← hheight] at hcanvas ⊢
  exact ⟨frame, hframe, rfl, rfl, hfull, picture_eq_ok hframe hfull hcanvas⟩

/-- A run fails on its last tick or not at all. The status is that of the last tick, so where the
tick is invalid there is something to tell. -/
theorem verdict_cases {report : Report} (hlast : p.last = some report)
    (hstatus : p.loop.status = report.status?) :
    (report.isInvalid = true ∧ ∃ message, p.verdict = .error (.expression message)) ∨
      (report.isInvalid = false ∧ p.verdict = .ok ()) := by
  unfold Played.verdict
  rw [hlast, hstatus]
  cases hinvalid : report.isInvalid with
  | true =>
    obtain ⟨message, hmessage⟩ := Report.exists_status?_of_isInvalid hinvalid
    exact .inl ⟨rfl, message, by simp only [hmessage, hinvalid, if_true]⟩
  | false =>
    refine .inr ⟨rfl, ?_⟩
    cases report.status? <;> simp [hinvalid]

/-- The code of an ending is read off the last tick: the expressions are at fault exactly if that
was invalid. -/
theorem exitCode_of_verdict {report : Report} (hlast : p.last = some report)
    (hstatus : p.loop.status = report.status?) {ending : Ending}
    (hresult : ending.result = p.verdict) (json : Bool) :
    (ending.outcome json).exitCode = if report.isInvalid = true then 14 else 0 := by
  unfold Ending.outcome
  rw [hresult]
  rcases verdict_cases hlast hstatus with ⟨hinvalid, message, hverdict⟩ | ⟨hvalid, hverdict⟩
  · rw [hverdict, if_pos hinvalid]
    rfl
  · rw [hverdict, if_neg (by rw [hvalid]; nofun)]

/-- With a picture there is nothing left that could go wrong before it is written. -/
theorem rendered_eq_ok {picture : Picture} (hpicture : p.picture = .ok picture)
    (args : RenderArgs) (json : Bool) (config : Config) :
    ∃ r, p.rendered args json config = .ok r ∧ r.picture = picture ∧
      r.ending.result = p.verdict := by
  unfold Played.rendered
  rw [hpicture]
  exact ⟨_, rfl, rfl, rfl⟩

end Ending

/-! ## The command -/

section Command

variable {μ : Type} (host : Host (StateM μ)) (args : RenderArgs) (json : Bool) (machine : μ)

/-- What the machine finds in the configuration file, if one is named, and the machine after it has
looked there. -/
def lookUp : Option (Except FileFault String) × μ :=
  match args.config with
  | some path => (some (host.readText path machine).1, (host.readText path machine).2)
  | none => (none, machine)

variable {config : Config}

theorem scheduler_of_no_rate {args : RenderArgs} {scheduler : Scheduler} (hfps : args.fps = none)
    (h : args.scheduler = .ok scheduler) : scheduler = .unthrottled := by
  unfold RenderArgs.scheduler at h
  rw [hfps] at h
  exact (Except.ok.inj h).symm

/-- The first tick of a paced run is due at once. -/
theorem scheduler_of_every {args : RenderArgs} {fps : Float} {period : Nat}
    (hfps : args.fps = some fps) (hrate : Pace.ofRate fps = .every period) :
    args.scheduler = .ok (.fixedRate period none) := by
  unfold RenderArgs.scheduler
  rw [hfps, Option.map_some, hrate]

/-- A run is prepared where the configuration, the schedule and the loop that are asked for are all to
be had. -/
theorem prepare_eq_ok_iff {contents : Option (Except FileFault String)} {run : Prepared} :
    args.prepare contents = .ok run ↔ args.toConfig contents = .ok run.config ∧
      args.scheduler = .ok run.scheduler ∧ Played.start run.config = .ok run.played := by
  unfold RenderArgs.prepare
  constructor
  · intro h
    obtain ⟨config, hconfig, h⟩ := bind_eq_ok.mp h
    obtain ⟨scheduler, hscheduler, h⟩ := bind_eq_ok.mp h
    obtain ⟨begun, hbegun, h⟩ := bind_eq_ok.mp h
    cases h
    exact ⟨mapError_eq_ok.mp hconfig, hscheduler, mapError_eq_ok.mp hbegun⟩
  · rintro ⟨hconfig, hscheduler, hbegun⟩
    refine bind_eq_ok.mpr ⟨_, mapError_eq_ok.mpr hconfig, ?_⟩
    refine bind_eq_ok.mpr ⟨_, hscheduler, ?_⟩
    exact bind_eq_ok.mpr ⟨_, mapError_eq_ok.mpr hbegun, rfl⟩

/-- The schedule is looked at behind the configuration and before the loop. -/
theorem prepare_of_scheduler {contents : Option (Except FileFault String)} {halt : Halt}
    (hconfig : args.toConfig contents = .ok config) (hscheduler : args.scheduler = .error halt) :
    args.prepare contents = .error halt := by
  unfold RenderArgs.prepare
  rw [hconfig, hscheduler]
  rfl

/-- A command that is aborted before its run has a configuration, and it is the schedule that aborts
it: all else that may go wrong has a code. -/
theorem scheduler_of_aborted {contents : Option (Except FileFault String)} {cause : Overflow}
    (h : args.prepare contents = .error (.aborted cause)) :
    (∃ config, args.toConfig contents = .ok config) ∧ args.scheduler = .error (.aborted cause) := by
  unfold RenderArgs.prepare at h
  cases hconfig : args.toConfig contents with
  | error fault =>
    rw [hconfig] at h
    cases h
  | ok config =>
    rw [hconfig] at h
    refine ⟨⟨config, rfl⟩, ?_⟩
    cases hscheduler : args.scheduler with
    | error halt =>
      rw [hscheduler] at h
      cases h
      rfl
    | ok scheduler =>
      rw [hscheduler] at h
      change ((Played.start config).mapError _ >>= _) = _ at h
      cases hbegun : Played.start config <;> rw [hbegun] at h <;> cases h

/-- What the command does once it has looked for its configuration. From here on a command with a
file and one without are the same. -/
theorem render_apply :
    render host args json machine =
      (match args.prepare (lookUp host args machine).1 with
        | .error halt => (pure (halt.outcome json) : StateM μ Outcome)
        | .ok run => do
          match ← run.played.advance host args.ticks run.scheduler with
          | none => return (Halt.aborted .instant).outcome json
          | some played =>
            match played.rendered args json run.config with
            | .error cause => return (Ending.failed cause).outcome json
            | .ok r => return (← save host args.output r).outcome json)
        (lookUp host args machine).2 := by
  unfold render lookUp
  cases args.config <;> rfl

/-- A command that does not come to a run leaves the machine as it was. -/
theorem render_of_halt {halt : Halt} (h : args.prepare (lookUp host args machine).1 = .error halt) :
    render host args json machine = (halt.outcome json, (lookUp host args machine).2) := by
  rw [render_apply, h]
  rfl

/-- A command whose run is aborted by a wait leaves the machine as that wait has left it. Nothing is
written. -/
theorem render_of_aborted {run : Prepared} {machine' : μ}
    (h : args.prepare (lookUp host args machine).1 = .ok run)
    (hadvance : run.played.advance host args.ticks run.scheduler (lookUp host args machine).2 =
      (none, machine')) :
    render host args json machine = ((Halt.aborted .instant).outcome json, machine') := by
  rw [render_apply, h]
  dsimp only
  rw [bind_apply, hadvance]
  rfl

/-- A command whose run leaves a picture saves it and ends. The machine it saves with is the one
that the waits have left. -/
theorem render_of_rendered {run : Prepared} {machine' : μ} {played : Played} {r : Rendered}
    (h : args.prepare (lookUp host args machine).1 = .ok run)
    (hadvance : run.played.advance host args.ticks run.scheduler (lookUp host args machine).2 =
      (some played, machine'))
    (hrendered : played.rendered args json run.config = .ok r) :
    render host args json machine =
      ((save host args.output r machine').1.outcome json,
        (save host args.output r machine').2) := by
  rw [render_apply, h]
  dsimp only
  rw [bind_apply, hadvance]
  simp only [hrendered]
  rfl

/-- What becomes of a machine that saves a picture is what becomes of it when it writes the file. -/
theorem machine_save {path : String} (hformat : PictureName.format? path = .ok .png)
    (r : Rendered) :
    (save host path r machine).2 = (host.write path (some r.picture) machine).2 := by
  unfold save
  simp only [hformat, if_true, bind_apply]
  cases (host.write path (some r.picture) machine).1 <;> rfl

/-- If the machine has written the file, the ending is the one that the run had prepared. -/
theorem save_of_written {path : String} (hformat : PictureName.format? path = .ok .png)
    {r : Rendered} (hwritten : (host.write path (some r.picture) machine).1 = .ok ()) :
    (save host path r machine).1 = r.ending := by
  unfold save
  simp only [hformat, if_true, bind_apply, hwritten]
  rfl

/-- A picture that is to be had is handed to the machine. If that writes it, the last tick decides how
the command ends. -/
theorem render_of_picture {run : Prepared} {machine' : μ} {played : Played} {picture : Picture}
    {report : Report} (h : args.prepare (lookUp host args machine).1 = .ok run)
    (hadvance : run.played.advance host args.ticks run.scheduler (lookUp host args machine).2 =
      (some played, machine'))
    (hpicture : played.picture = .ok picture) (hlast : played.last = some report)
    (hstatus : played.loop.status = report.status?)
    (hformat : PictureName.format? args.output = .ok .png) :
    let written := host.write args.output (some picture) machine'
    (render host args json machine).2 = written.2 ∧
      (written.1 = .ok () →
        (render host args json machine).1.exitCode = if report.isInvalid = true then 14 else 0) := by
  obtain ⟨r, hrendered, rfl, hresult⟩ := rendered_eq_ok hpicture args json run.config
  rw [render_of_rendered host args json machine h hadvance hrendered]
  refine ⟨machine_save host machine' hformat r, fun hwritten => ?_⟩
  dsimp only
  rw [save_of_written host machine' hformat hwritten]
  exact exitCode_of_verdict hlast hstatus hresult json

/-- **A run keeps its picture, if the clock lasts for it.** Let a configuration and a schedule come of
the arguments, and let a loop of the configuration start. Then only the waits can keep the command
from a picture. Those of a run that is not paced cannot, nor can those of one whose periods all fit
behind whatever the clock reads. Where they abort the run, nothing is written.

Otherwise the loop takes exactly the ticks that are asked for. The frame that is left has the size of
the configuration and all of its pixels, so there is a picture to be written, and it goes to the
machine. If that writes it, the command ends well or says that the expressions are at fault: the
latter if the last tick found particles and a velocity for none. -/
theorem render_keeps_its_picture (hticks : 1 ≤ args.ticks)
    (hconfig : args.toConfig (lookUp host args machine).1 = .ok config) {scheduler : Scheduler}
    (hscheduler : args.scheduler = .ok scheduler)
    (hstart : ((Simulation.idle config ()).start flowFactory).1 = .ok ()) :
    let found := (lookUp host args machine).2
    let waited := waits host args.ticks scheduler found
    (args.fps = none → waited = (some scheduler, found)) ∧
    (∀ period, scheduler = .fixedRate period none →
      (∀ machine, (host.now machine).1.nanoseconds + args.ticks * period < clockEnd) →
      waited.1 ≠ none) ∧
    (waited.1 = none →
      render host args json machine = ((Halt.aborted .instant).outcome json, waited.2)) ∧
    (waited.1 ≠ none → ∃ fresh begun played frame, Flow.ofConfig config = .ok fresh ∧
      Played.start config = .ok begun ∧
      begun.advance host args.ticks scheduler found = (some played, waited.2) ∧
      played.loop.ticks = args.ticks ∧
      played.loop.engine = some (fresh.performAll (List.replicate args.ticks .step)) ∧
      played.renderer.frame = some frame ∧
      frame.width = config.width ∧ frame.height = config.height ∧
      frame.pixels.size = config.width * config.height ∧
      frame.rgbaBytes.length = 4 * (config.width * config.height) ∧
      let picture : Picture := ⟨config.width, config.height, frame.rgbaBytes⟩
      played.picture = .ok picture ∧
      (PictureName.format? args.output = .ok .png →
        let written := host.write args.output (some picture) waited.2
        let last := fresh.performAll (List.replicate (args.ticks - 1) .step)
        let unmoved := last.population.particles ≠ [] ∧
          ∀ particle ∈ last.population.particles, ∀ v,
            last.field.velocityAt particle.position ≠ .ok v
        (render host args json machine).2 = written.2 ∧
        (written.1 = .ok () →
          ((render host args json machine).1.exitCode = 14 ↔ unmoved) ∧
          ((render host args json machine).1.exitCode = 0 ↔ ¬unmoved)))) := by
  intro found waited
  obtain ⟨fresh, begun, played, hfresh, hcanvas, hbegun, hdrawn, hadvance⟩ :=
    start_eq_ok host hstart args.ticks
  have hprepared : args.prepare (lookUp host args machine).1 = .ok ⟨config, scheduler, begun⟩ :=
    (prepare_eq_ok_iff args).mpr ⟨hconfig, hscheduler, hbegun⟩
  have hrun : begun.advance host args.ticks scheduler found =
      (waited.1.map fun _ => played, waited.2) := hadvance scheduler found
  refine ⟨fun hfps => ?_, fun period hperiod hearly => ?_, fun hlate => ?_, fun hlasts => ?_⟩
  · obtain rfl := scheduler_of_no_rate hfps hscheduler
    exact waits_unthrottled args.ticks found
  · subst hperiod
    exact Option.isSome_iff_ne_none.mp (isSome_waits_of_early hearly found)
  · rw [hlate] at hrun
    exact render_of_aborted host args json machine hprepared hrun
  obtain ⟨left, hleft⟩ := Option.ne_none_iff_exists'.mp hlasts
  rw [hleft] at hrun
  obtain ⟨frame, hframe, hwidth, hheight, hsize, hpicture⟩ := hdrawn.exists_picture hticks hcanvas
  obtain ⟨hlast, hstatus⟩ := hdrawn.told (args.ticks - 1) (by omega)
  refine ⟨fresh, begun, played, frame, hfresh, hbegun, hrun, hdrawn.ticks, hdrawn.engine, hframe,
    hwidth, hheight, hsize, ?_, hpicture, fun hformat => ?_⟩
  · rw [Frame.length_rgbaBytes, hsize]
  · intro written last unmoved
    have hinvalid : last.step.1.isInvalid = true ↔ unmoved :=
      Population.isInvalid_step_velocityAt last.population last.field
    obtain ⟨hmachine, hexit⟩ := render_of_picture host args json machine hprepared hrun hpicture
      hlast hstatus hformat
    refine ⟨hmachine, fun hwritten => ?_⟩
    have hcode : (render host args json machine).1.exitCode =
        if last.step.1.isInvalid = true then 14 else 0 := hexit hwritten
    rw [hcode, ← hinvalid]
    cases last.step.1.isInvalid <;> decide

/-- Whether there is a time between two frames, and it passes a test. A pace is not compared as a
whole, since a rate that is refused is among what it holds. -/
def isEvery (test : Nat → Bool) : Pace → Bool
  | .every n => test n
  | .refused _ | .overflow => false

/-- A pace that passes a test is a time between two frames. The test is computed, and the time need
not be written out. -/
theorem exists_every {test : Nat → Bool} {pace : Pace} (h : isEvery test pace = true) :
    ∃ n, pace = .every n ∧ test n = true := by
  cases pace with
  | every n => exact ⟨n, rfl, h⟩
  | refused | overflow => cases h

/-- One paced tick of a system whose first equation is blank, on a canvas of four by three pixels.
The run has a picture, and its expressions are at fault. -/
def blankRun : RenderArgs where
  config := none
  dx := some " ;"
  dy := none
  a := none
  b := none
  xMin := none
  xMax := none
  yMin := none
  yMax := none
  width := some 4
  height := some 3
  seed := none
  scheme := none
  background := none
  trace := false
  params := none
  ticks := 1
  fps := some 25.0
  output := "field.png"

/-- The configuration of that run. -/
def blankConfig : Config := { Config.default with dx := " ;", width := 4, height := 3 }

/-- On a machine without files, whose clock stands still, the picture of that run is written with its
twelve pixels, and then the command says that the expressions are at fault. -/
theorem blankRun_keeps_its_picture :
    1 ≤ blankRun.ticks ∧
      blankRun.toConfig (lookUp FileTree.host blankRun (.ofFiles [] [])).1 = .ok blankConfig ∧
      (∃ scheduler, blankRun.scheduler = .ok scheduler ∧
        (waits FileTree.host 1 scheduler (.ofFiles [] [])).1 ≠ none) ∧
      ((Simulation.idle blankConfig ()).start flowFactory).1 = .ok () ∧
      ∃ (played : Played) (frame : Frame Float), played.loop.ticks = 1 ∧
        played.renderer.frame = some frame ∧ frame.pixels.size = 12 ∧
        (render FileTree.host blankRun false (.ofFiles [] [])).1.exitCode = 14 := by
  have hconfig : blankRun.toConfig (lookUp FileTree.host blankRun (.ofFiles [] [])).1 =
      .ok blankConfig := rfl
  have hfits : isEvery (· < clockEnd) (.ofRate 25.0) = true := by decide +kernel
  obtain ⟨period, hrate, hperiod⟩ := exists_every hfits
  have hscheduler : blankRun.scheduler = .ok (.fixedRate period none) :=
    scheduler_of_every rfl hrate
  have hfirst : 0 + period < clockEnd := by
    rw [Nat.zero_add]
    exact of_decide_eq_true hperiod
  -- The wait for the only tick reads the clock, and leaves the machine as it is.
  have hwaits : waits FileTree.host 1 (.fixedRate period none) (.ofFiles [] []) =
      (some (.fixedRate period (some ⟨0 + period, hfirst⟩)), .ofFiles [] []) := by
    rw [waits_succ, waitNext_first, show (FileTree.host.now (.ofFiles [] [])).1 = ⟨0, by decide⟩
      from rfl, Scheduler.after?_of_lt hfirst]
    rfl
  have hlasts : (waits FileTree.host 1 (.fixedRate period none) (.ofFiles [] [])).1 ≠ none := by
    rw [hwaits]
    nofun
  have hstart : ((Simulation.idle blankConfig ()).start flowFactory).1 = .ok () :=
    eq_ok_of_toOption (by decide +kernel)
  have hformat : PictureName.format? blankRun.output = .ok .png :=
    eq_ok_of_toOption (by decide +kernel)
  have hcount : (Params.ofJson blankConfig.params).toOption.map Params.particleCount =
      some (Params.default : Params Float).particleCount := by decide +kernel
  obtain ⟨-, -, -, hkept⟩ := render_keeps_its_picture FileTree.host blankRun false (.ofFiles [] [])
    (Nat.le_refl 1) hconfig hscheduler hstart
  obtain ⟨fresh, begun, played, frame, hfresh, -, -, hticks, -, hframe, -, -, hsize, -, -, hrender⟩ :=
    hkept hlasts
  refine ⟨Nat.le_refl 1, hconfig, ⟨_, hscheduler, hlasts⟩, hstart, played, frame, hticks, hframe,
    hsize, ?_⟩
  have hwritten : (FileTree.host.write blankRun.output
      (some ⟨blankConfig.width, blankConfig.height, frame.rgbaBytes⟩)
      (waits FileTree.host 1 (.fixedRate period none) (.ofFiles [] [])).2).1 = .ok () := by
    rw [hwaits]
    rfl
  refine ((hrender hformat).2 hwritten).1.mpr ?_
  obtain ⟨params, hread, -, rfl⟩ := Flow.eq_of_ofConfig hfresh
  rw [hread] at hcount
  have hmany : params.particleCount = (Params.default : Params Float).particleCount :=
    Option.some.inj hcount
  -- The tick finds the particles of the seed, and the blank equation has no value for any of them.
  refine ⟨fun hnone => ?_, fun particle _ v hv => ?_⟩
  · have hlength := Draw.length_times params.particleCount
      (Particle.spawn blankConfig.bounds params) (.ofSeed blankConfig.seed)
    rw [show (Draw.times _ _ _).1 = [] from hnone, hmany] at hlength
    cases hlength
  · have hdx := (VectorField.velocityAt_eq_ok.mp hv).1
    cases hdx

/-- The same canvas under a rotation, with a tick in `10 ^ 19` seconds. -/
def distantRun : RenderArgs := { blankRun with dx := some "-y", dy := some "x", fps := some 1e-19 }

/-- The rate of that run is paced and its loop starts. But the clock cannot read the instant at which
a second tick would be due: the first wait aborts the run, and no picture is written. -/
theorem distantRun_loses_its_picture :
    let config : Config := { blankConfig with dx := "-y", dy := "x" }
    1 ≤ distantRun.ticks ∧
      distantRun.toConfig (lookUp FileTree.host distantRun (.ofFiles [] [])).1 = .ok config ∧
      (∃ period, Pace.ofRate 1e-19 = .every period ∧
        distantRun.scheduler = .ok (.fixedRate period none)) ∧
      ((Simulation.idle config ()).start flowFactory).1 = .ok () ∧
      (render FileTree.host distantRun false (.ofFiles [] [])).1.exitCode = 101 ∧
      (render FileTree.host distantRun false (.ofFiles [] [])).2 = .ofFiles [] [] := by
  intro config
  have hconfig : distantRun.toConfig (lookUp FileTree.host distantRun (.ofFiles [] [])).1 =
      .ok config := rfl
  have hlong : isEvery (clockEnd ≤ ·) (.ofRate 1e-19) = true := by decide +kernel
  obtain ⟨period, hrate, hperiod⟩ := exists_every hlong
  have hscheduler : distantRun.scheduler = .ok (.fixedRate period none) :=
    scheduler_of_every rfl hrate
  have hstart : ((Simulation.idle config ()).start flowFactory).1 = .ok () :=
    eq_ok_of_toOption (by decide +kernel)
  obtain ⟨fresh, begun, played, -, -, hbegun, -, hadvance⟩ :=
    start_eq_ok FileTree.host hstart distantRun.ticks
  have hrun := hadvance (.fixedRate period none) (.ofFiles [] [])
  rw [show distantRun.ticks = 0 + 1 from rfl, waits_of_clockEnd_le (of_decide_eq_true hperiod)] at hrun
  have hprepared : distantRun.prepare (lookUp FileTree.host distantRun (.ofFiles [] [])).1 =
      .ok ⟨config, .fixedRate period none, begun⟩ :=
    (prepare_eq_ok_iff distantRun).mpr ⟨hconfig, hscheduler, hbegun⟩
  have hrender := render_of_aborted FileTree.host distantRun false (.ofFiles [] []) hprepared hrun
  refine ⟨Nat.le_refl 1, hconfig, ⟨period, hrate, hscheduler⟩, hstart, ?_, ?_⟩
  · rw [hrender]
    rfl
  · rw [hrender]
    rfl

end Command

end PhasePortrait.CommandLine
