import PhasePortrait.Proofs.Config.Agreement
import PhasePortrait.Proofs.Flow.Scene
import PhasePortrait.Proofs.Json.Members

/-!
# Parameters as objects

Parameters are written as an object with a member for each of them. They are read from any object,
by name: a member that is missing has its default, one of the wrong kind is refused, and members of
other names are not looked at. So **an object that has the members of some parameters reads as these
parameters, whatever else it has** (`Params.ofJson_of_members`): their own object does, and so does
the one a flow answers with, in which the equations, the scheme and the traces stand beside them.

Two of the readers refuse values that a number of the model may have: a word has 32 bits, and a
number is finite. The first is what the words of parameters are made of (`Params.AreWords`), and
what is read is; the second follows from the check.
-/

namespace PhasePortrait

/-! ## Members -/

namespace Json

variable {v : Json} {name : String}

/-- A member that is there and is not null is given. -/
theorem given?_of_get? {member : Json} (h : v.get? name = some member)
    (hnull : member.isNull = false) : v.given? name = some member := by
  simp [given?, h, hnull]

theorem countOr_of_get? {n : Nat} (h : v.get? name = some (natural n)) (default : Nat) :
    v.countOr name default = .ok n := by
  simp only [countOr, given?_of_get? h rfl, natural, toNat?]

theorem wordOr_of_get? {n : Nat} (h : v.get? name = some (natural n)) (hword : n < UInt32.size)
    (default : Nat) : v.wordOr name default = .ok n := by
  simp only [wordOr, given?_of_get? h rfl, natural, toNat?, Option.filter, decide_eq_true hword,
    if_true]

theorem numberOr_of_get? {x : Float} (h : v.get? name = some (real x)) (hx : x.isFinite = true)
    (default : Float) : v.numberOr name default = .ok x := by
  simp only [numberOr, given?_of_get? h rfl, real, toFloat?, Number.toFloat, Option.filter, hx,
    if_true]

/-- A word that is read has 32 bits, if the default has. -/
theorem lt_of_wordOr {default n : Nat} (hdefault : default < UInt32.size)
    (h : v.wordOr name default = .ok n) : n < UInt32.size := by
  unfold wordOr at h
  split at h
  · cases h
    exact hdefault
  · split at h
    next hword =>
      cases h
      simpa using (Option.filter_eq_some_iff.mp hword).2
    next => cases h

end Json

/-! ## Reading -/

namespace Params

/-- The members that parameters are written as. -/
def members (p : Params Float) : List (String × Json) := [
  ("particle_count", .natural p.particleCount),
  ("max_age", .natural p.maxAge),
  ("fade_in", .natural p.fadeIn),
  ("fade_out", .natural p.fadeOut),
  ("recycle_stride", .natural p.recycleStride),
  ("recycle_alpha", .real p.recycleAlpha),
  ("exit_decay", .real p.exitDecay),
  ("dt", .real p.dt),
  ("step_scale", .real p.stepScale),
  ("trace_count", .natural p.traceCount),
  ("trace_length", .natural p.traceLength)]

/-- The times of parameters are words of 32 bits. -/
structure AreWords (p : Params Float) : Prop where
  maxAge : p.maxAge < UInt32.size
  fadeIn : p.fadeIn < UInt32.size
  fadeOut : p.fadeOut < UInt32.size
  recycleStride : p.recycleStride < UInt32.size

variable {p : Params Float} {v : Json}

theorem toJson_eq (p : Params Float) : p.toJson = .ofMembers p.members := rfl

/-- No two parameters have one name, so each is found by its own. -/
theorem nodup_members (p : Params Float) : (p.members.map Prod.fst).Nodup := by
  simp [members]

/-- Reading an object and checking what was read are one after the other. -/
theorem ofJson_eq_ok : ofJson v = .ok p ↔ read v = .ok p ∧ p.check = .ok () := by
  unfold ofJson
  simp only [bind_eq_ok]
  constructor
  · rintro ⟨_, hread, ⟨⟩, hcheck, ⟨⟩⟩
    exact ⟨hread, hcheck⟩
  · rintro ⟨hread, hcheck⟩
    exact ⟨p, hread, (), hcheck, rfl⟩

/-- Reading is eleven look-ups, each of one member by its name and each for itself. So two objects
that agree on these members are read as the same parameters. -/
theorem read_eq_ok :
    read v = .ok p ↔
      v.countOr "particle_count" (default : Params Float).particleCount = .ok p.particleCount ∧
      v.wordOr "max_age" (default : Params Float).maxAge = .ok p.maxAge ∧
      v.wordOr "fade_in" (default : Params Float).fadeIn = .ok p.fadeIn ∧
      v.wordOr "fade_out" (default : Params Float).fadeOut = .ok p.fadeOut ∧
      v.wordOr "recycle_stride" (default : Params Float).recycleStride = .ok p.recycleStride ∧
      v.numberOr "recycle_alpha" (default : Params Float).recycleAlpha = .ok p.recycleAlpha ∧
      v.numberOr "exit_decay" (default : Params Float).exitDecay = .ok p.exitDecay ∧
      v.numberOr "dt" (default : Params Float).dt = .ok p.dt ∧
      v.numberOr "step_scale" (default : Params Float).stepScale = .ok p.stepScale ∧
      v.countOr "trace_count" (default : Params Float).traceCount = .ok p.traceCount ∧
      v.countOr "trace_length" (default : Params Float).traceLength = .ok p.traceLength := by
  unfold read
  simp only [bind_eq_ok]
  constructor
  · rintro ⟨_, h1, _, h2, _, h3, _, h4, _, h5, _, h6, _, h7, _, h8, _, h9, _, h10, _, h11, ⟨⟩⟩
    exact ⟨h1, h2, h3, h4, h5, h6, h7, h8, h9, h10, h11⟩
  · rintro ⟨h1, h2, h3, h4, h5, h6, h7, h8, h9, h10, h11⟩
    exact ⟨_, h1, _, h2, _, h3, _, h4, _, h5, _, h6, _, h7, _, h8, _, h9, _, h10, _, h11, rfl⟩

theorem areWords_of_read (h : read v = .ok p) : p.AreWords := by
  obtain ⟨-, hmaxAge, hfadeIn, hfadeOut, hstride, -⟩ := read_eq_ok.mp h
  exact ⟨Json.lt_of_wordOr (by decide) hmaxAge, Json.lt_of_wordOr (by decide) hfadeIn,
    Json.lt_of_wordOr (by decide) hfadeOut, Json.lt_of_wordOr (by decide) hstride⟩

/-- The check that a number is a part asks whether it is finite, too. -/
theorem isFinite_of_isPart {x : Float} (h : isPart x = true) : x.isFinite = true := by
  obtain ⟨hlow, hhigh⟩ := Bool.and_eq_true_iff.mp h
  exact Binary64.isFinite_of_between (by decide +kernel) (by decide +kernel)
    (of_decide_eq_true hlow) (of_decide_eq_true hhigh)

/-- **An object with the members of valid parameters reads as these parameters**, whatever else it
has. -/
theorem ofJson_of_members (hwords : p.AreWords) (hcheck : p.check = .ok ())
    (h : ∀ m ∈ p.members, v.get? m.1 = some m.2) : ofJson v = .ok p := by
  obtain ⟨-, -, -, -, -, halpha, hdecay, ⟨hdt, -⟩, hscale, -⟩ := check_eq_ok.mp hcheck
  refine ofJson_eq_ok.mpr ⟨read_eq_ok.mpr ?_, hcheck⟩
  simp only [members, List.forall_mem_cons] at h
  obtain ⟨h1, h2, h3, h4, h5, h6, h7, h8, h9, h10, h11, -⟩ := h
  exact ⟨Json.countOr_of_get? h1 _, Json.wordOr_of_get? h2 hwords.maxAge _,
    Json.wordOr_of_get? h3 hwords.fadeIn _, Json.wordOr_of_get? h4 hwords.fadeOut _,
    Json.wordOr_of_get? h5 hwords.recycleStride _,
    Json.numberOr_of_get? h6 (isFinite_of_isPart halpha) _,
    Json.numberOr_of_get? h7 (isFinite_of_isPart hdecay) _, Json.numberOr_of_get? h8 hdt _,
    Json.numberOr_of_get? h9 hscale _, Json.countOr_of_get? h10 _, Json.countOr_of_get? h11 _⟩

/-- Each member is found in the object that the parameters are written as. -/
theorem get?_toJson (p : Params Float) {m : String × Json} (hm : m ∈ p.members) :
    p.toJson.get? m.1 = some m.2 := by
  rw [toJson_eq]
  exact Json.get?_ofMembers p.nodup_members hm

end Params

/-! ## Flows -/

namespace Flow

/-- What stands beside the parameters of the particles. -/
def described (f : Flow) : List (String × Json) := [
  ("dx", .string f.field.dx.source),
  ("dy", .string f.field.dy.source),
  ("scheme", .string f.scheme.name),
  ("trace", .bool f.population.traceEnabled)]

/-- A flow writes its parameters, and lays over them what stands beside them. -/
theorem params_eq (f : Flow) :
    f.params = .object (Json.putAll (Json.putAll [] f.population.params.members) f.described) := rfl

/-- None of it has the name of a parameter. -/
theorem get?_params (f : Flow) {m : String × Json} (hm : m ∈ f.population.params.members) :
    f.params.get? m.1 = some m.2 := by
  have hother : m.1 ∉ f.described.map Prod.fst := by
    have hname : m.1 ∈ f.population.params.members.map Prod.fst := List.mem_map_of_mem hm
    revert hname
    generalize m.1 = name
    simp only [Params.members, described, List.map_cons, List.map_nil, List.mem_cons,
      List.not_mem_nil, or_false]
    rintro (rfl | rfl | rfl | rfl | rfl | rfl | rfl | rfl | rfl | rfl | rfl) <;> decide
  rw [params_eq, Json.get?_putAll_of_not_mem hother]
  exact f.population.params.get?_toJson hm

/-- The parameters of a flow are those it was made with. -/
theorem params_perform (f : Flow) (op : Operation) :
    (f.perform op).population.params = f.population.params := by
  cases op with
  | step | clearTraces => rfl
  | resize width height =>
    rw [perform_resize]
    split <;> rfl

theorem params_performAll (f : Flow) (ops : List Operation) :
    (f.performAll ops).population.params = f.population.params := by
  induction ops generalizing f with
  | nil => rfl
  | cons op ops ih => exact (ih (f.perform op)).trans (params_perform f op)

/-- They come from the configuration of the flow, read and checked. -/
theorem params_of_ofConfig {c : Config} {f : Flow} (h : ofConfig c = .ok f) :
    Params.ofJson c.params = .ok f.population.params := by
  obtain ⟨params, hread, -, rfl⟩ := eq_of_ofConfig h
  rw [hread]
  dsimp only
  split <;> rfl

end Flow

namespace Params

/-- **Parameters survive being written and read.** Valid parameters are read back from their object
as they are. What is read is valid, so it can be written and read again. And whatever was done with
a flow since it was made from a configuration, what it answers for its parameters reads as the
parameters of its particles, which are those of the configuration. -/
theorem params_round_trip :
    (∀ p : Params Float, p.AreWords → p.check = .ok () → ofJson p.toJson = .ok p) ∧
    (∀ v p, ofJson v = .ok p → p.check = .ok () ∧ p.AreWords ∧ ofJson p.toJson = .ok p) ∧
    (∀ c f (ops : List Flow.Operation), Flow.ofConfig c = .ok f →
      let g := f.performAll ops
      ofJson g.params = .ok g.population.params ∧
        ofJson c.params = .ok g.population.params) := by
  have hself : ∀ p : Params Float, p.AreWords → p.check = .ok () → ofJson p.toJson = .ok p := by
    intro p hwords hcheck
    exact ofJson_of_members hwords hcheck fun m hm => p.get?_toJson hm
  refine ⟨hself, ?_, ?_⟩
  · intro v p h
    obtain ⟨hread, hcheck⟩ := ofJson_eq_ok.mp h
    exact ⟨hcheck, areWords_of_read hread, hself p (areWords_of_read hread) hcheck⟩
  · intro c f ops hf g
    have hparams : ofJson c.params = .ok g.population.params := by
      rw [Flow.params_performAll]
      exact Flow.params_of_ofConfig hf
    obtain ⟨hread, hcheck⟩ := ofJson_eq_ok.mp hparams
    refine ⟨?_, hparams⟩
    exact ofJson_of_members (areWords_of_read hread) hcheck fun m hm => g.get?_params hm

/-- Parameters at the ends of their ranges, with a zero of either sign. -/
def extremes : Params Float where
  particleCount := 0
  maxAge := 4294967295
  fadeIn := 0
  fadeOut := 4294967295
  recycleStride := 4294967295
  recycleAlpha := -0.0
  exitDecay := 1.0
  dt := Float.ofBits 1
  stepScale := -0.0
  traceCount := maxTraceCount
  traceLength := maxTraceLength

/-- The parameters at the ends of their ranges are valid, and are read back with the signs of their
zeros. -/
theorem params_round_trip_of_extremes :
    extremes.AreWords ∧ extremes.check = .ok () ∧ ofJson extremes.toJson = .ok extremes := by
  have hwords : extremes.AreWords := ⟨by decide, by decide, by decide, by decide⟩
  have hcheck : extremes.check = .ok () := check_eq_ok.mpr (by decide +kernel)
  exact ⟨hwords, hcheck, params_round_trip.1 extremes hwords hcheck⟩

end Params

end PhasePortrait
