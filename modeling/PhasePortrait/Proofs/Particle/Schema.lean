import PhasePortrait.Proofs.Binary64.Decimals
import PhasePortrait.Proofs.Particle.RoundTrip

/-!
# What the schema promises

The parameters of the particles describe themselves: for each of them the schema has an entry with
its type, its least value and, for some, its largest one. The reader has its own words, and the
check has its own ranges. **They agree, one parameter at a time**
(`Params.schema_agrees_with_reader`): what an entry forbids is refused, by the name of the
parameter, and what it allows is taken.

The schema does not say everything. A number of ticks has 32 bits, and an age that is allowed may be
too short for the fading out (`Params.allowed_and_refused`).

The bounds are compared with exact values (`Json.Number.value`). The reader compares what it has
rounded to a binary64 value, and no rounding carries a number across zero or one
(`Json.Number.sameSide_toFloat`).
-/

namespace PhasePortrait

/-! ## Numbers of JSON -/

namespace Json.Number

/-- The numbers that a JSON text can have. -/
def IsJson : Number → Prop
  | natural n => n < 2 ^ 64
  | negative n => 0 < n ∧ n ≤ 2 ^ 63
  | real x => x.isFinite = true

instance : DecidablePred IsJson
  | natural n => inferInstanceAs (Decidable (n < 2 ^ 64))
  | negative n => inferInstanceAs (Decidable (0 < n ∧ n ≤ 2 ^ 63))
  | real x => inferInstanceAs (Decidable (x.isFinite = true))

/-- Whether the number is written as a whole one. -/
def isWhole : Number → Bool
  | natural _ | negative _ => true
  | real _ => false

/-- The whole number that is not negative; any other number has none, and zero is taken. -/
def whole : Number → Nat
  | natural n => n
  | negative _ | real _ => 0

/-- The exact value. -/
def value : Number → ℚ
  | natural n => n
  | negative n => -n
  | real x => Binary64.value x

/-- As a binary64 value, the number is on the same side of zero and of one. -/
structure SameSide (v : ℚ) (x : Float) : Prop where
  isFinite : x.isFinite = true
  nonneg : 0 ≤ Binary64.value x ↔ 0 ≤ v
  nonpos : Binary64.value x ≤ 0 ↔ v ≤ 0
  le_one : Binary64.value x ≤ 1 ↔ v ≤ 1

/-- A finite value is on the same side of zero and of one as itself, so a real number needs no
rounding. -/
theorem SameSide.self {x : Float} (h : x.isFinite = true) : SameSide (Binary64.value x) x :=
  ⟨h, .rfl, .rfl, .rfl⟩

/-- A whole number of a JSON text is below `2 ^ 64`. Rounding may change it, but zero and one are
kept, and what is larger stays larger than one. -/
theorem sameSide_ofNat {n : Nat} (h : n < 2 ^ 64) : SameSide n (Float.ofNat n) := by
  rcases Nat.eq_zero_or_pos n with rfl | hpos
  · have hzero : Float.ofNat 0 = 0.0 := rfl
    have hvalue : Binary64.value 0.0 = 0 := rfl
    rw [hzero, Nat.cast_zero, ← hvalue]
    exact .self rfl
  · obtain ⟨v, hv, hn⟩ := Binary64.exists_isPositive_ofNat hpos h
    have hvpos := hv.pos
    have hnpos : (0 : ℚ) < n := by exact_mod_cast hpos
    refine ⟨hv.isFinite, ?_, ?_, ?_⟩ <;> rw [hv.value_eq]
    · exact ⟨fun _ => hnpos.le, fun _ => hvpos.le⟩
    · exact ⟨fun h => absurd hvpos h.not_gt, fun h => absurd hnpos h.not_gt⟩
    · rcases hn with rfl | ⟨hlarge, hlarge'⟩
      · rfl
      · have hn : (1 : ℚ) < n := by exact_mod_cast (show 1 < n by omega)
        have hv : 1 < v := lt_of_lt_of_le (by norm_num) hlarge'
        exact ⟨fun h => absurd hv h.not_gt, fun h => absurd hn h.not_gt⟩

/-- A negative whole number is rounded to a negative value, which is below zero and one as well. -/
theorem sameSide_negative {n : Nat} (hpos : 0 < n) (h : n ≤ 2 ^ 63) :
    SameSide (-n) (-Float.ofNat n) := by
  obtain ⟨v, hv, -⟩ := Binary64.exists_isPositive_ofNat hpos (by omega)
  have hvpos := hv.pos
  have hnpos : (0 : ℚ) < n := by exact_mod_cast hpos
  obtain ⟨hfinite, hvalue⟩ := hv.neg
  refine ⟨hfinite, ?_, ?_, ?_⟩ <;> rw [hvalue] <;> constructor <;> intro h <;> linarith

/-- **Rounding carries no number across zero or one.** So a bound of zero or one is kept by the
value that the reader has exactly if it is kept by the number that the text has. -/
theorem sameSide_toFloat {v : Number} (h : v.IsJson) : SameSide v.value v.toFloat := by
  cases v with
  | natural n => exact sameSide_ofNat h
  | negative n => exact sameSide_negative h.1 h.2
  | real x => exact .self h

end Json.Number

/-! ## Entries of the schema -/

namespace Json

/-- Whether a number is of the type that an entry of a schema states. -/
def Describes (entry : Json) (v : Number) : Prop :=
  match entry.get? "type" with
  | some (.string "integer") => v.isWhole = true
  | some (.string "number") => True
  | _ => False

/-- The value of a bound that an entry of a schema states. -/
def bound? (entry : Json) (name : String) : Option ℚ :=
  match entry.get? name with
  | some (.number bound) => some bound.value
  | _ => none

/-- Whether a number is within the bounds that an entry of a schema states. -/
def Allows (entry : Json) (v : Number) : Prop :=
  (∀ least, entry.bound? "min" = some least → least ≤ v.value) ∧
    ∀ most, entry.bound? "max" = some most → v.value ≤ most

variable {object member : Json} {name : String}

/-- A member that is not given is read as its default, of each of the three kinds. This is what
leaves all parameters but one at their defaults. -/
theorem countOr_of_given?_none (h : object.given? name = none) (default : Nat) :
    object.countOr name default = .ok default := by
  simp only [countOr, h]

theorem wordOr_of_given?_none (h : object.given? name = none) (default : Nat) :
    object.wordOr name default = .ok default := by
  simp only [wordOr, h]

theorem numberOr_of_given?_none (h : object.given? name = none) (default : Float) :
    object.numberOr name default = .ok default := by
  simp only [numberOr, h]

/-- A member that is given and is of no use is refused by its name, of each of the three kinds. -/
theorem countOr_eq_error (h : object.given? name = some member) (hmember : member.toNat? = none)
    (default : Nat) :
    object.countOr name default = .error (.invalidParameter name (.notACount member)) := by
  simp only [countOr, h, hmember]

theorem wordOr_eq_error (h : object.given? name = some member)
    (hmember : member.toNat?.filter (· < UInt32.size) = none) (default : Nat) :
    object.wordOr name default = .error (.invalidParameter name (.notAWord member)) := by
  simp only [wordOr, h, hmember]

theorem numberOr_eq_error (h : object.given? name = some member)
    (hmember : member.toFloat?.filter Float.isFinite = none) (default : Float) :
    object.numberOr name default = .error (.invalidParameter name (.notANumber member)) := by
  simp only [numberOr, h, hmember]

end Json

namespace Params

/-- The parameters, by name. -/
inductive Key where
  | particleCount | maxAge | fadeIn | fadeOut | recycleStride | recycleAlpha | exitDecay | dt
  | stepScale | traceCount | traceLength
deriving DecidableEq

namespace Key

/-- The name that a parameter has in objects. -/
def name : Key → String
  | particleCount => "particle_count"
  | maxAge => "max_age"
  | fadeIn => "fade_in"
  | fadeOut => "fade_out"
  | recycleStride => "recycle_stride"
  | recycleAlpha => "recycle_alpha"
  | exitDecay => "exit_decay"
  | dt => "dt"
  | stepScale => "step_scale"
  | traceCount => "trace_count"
  | traceLength => "trace_length"

/-- The parameters with another value for one of them. -/
def put (key : Key) (v : Json.Number) (p : Params Float) : Params Float :=
  match key with
  | particleCount => { p with particleCount := v.whole }
  | maxAge => { p with maxAge := v.whole }
  | fadeIn => { p with fadeIn := v.whole }
  | fadeOut => { p with fadeOut := v.whole }
  | recycleStride => { p with recycleStride := v.whole }
  | recycleAlpha => { p with recycleAlpha := v.toFloat }
  | exitDecay => { p with exitDecay := v.toFloat }
  | dt => { p with dt := v.toFloat }
  | stepScale => { p with stepScale := v.toFloat }
  | traceCount => { p with traceCount := v.whole }
  | traceLength => { p with traceLength := v.whole }

/-- Whether the parameter is a number of ticks, for which there are words of 32 bits. -/
def isTicks : Key → Bool
  | maxAge | fadeIn | fadeOut | recycleStride => true
  | _ => false

/-- Whether the parameter is a whole number. -/
def isWhole : Key → Bool
  | recycleAlpha | exitDecay | dt | stepScale => false
  | _ => true

/-- The least value. -/
def least : Key → Json.Number
  | recycleStride => .natural 1
  | recycleAlpha | exitDecay | dt | stepScale => .real 0.0
  | _ => .natural 0

/-- The largest value, if there is one. -/
def most? : Key → Option Json.Number
  | particleCount => some (.natural maxParticleCount)
  | recycleAlpha | exitDecay => some (.real 1.0)
  | traceCount => some (.natural maxTraceCount)
  | traceLength => some (.natural maxTraceLength)
  | _ => none

end Key

/-! ## What the schema states -/

section Entries

/-- An entry of the schema, of either type. -/
def entry (type : String) (default least : Json.Number) (description : String)
    (most? : Option Json.Number) : Json :=
  .ofMembers ([("type", .string type), ("default", .number default), ("min", .number least),
    ("description", .string description)] ++
      (most?.map fun most => ("max", Json.number most)).toList)

/-- **The schema has an entry for each parameter**, which states its type and its bounds. -/
theorem get?_schema (key : Key) :
    ∃ default description, schema.get? key.name =
      some (entry (if key.isWhole then "integer" else "number") default key.least description
        key.most?) := by
  cases key <;>
    simp only [schema, Key.name, Json.ofMembers, Json.putAll, List.foldl, Json.get?_put] <;>
    simp only [String.reduceEq, if_true, if_false] <;>
    exact ⟨_, _, rfl⟩

/-- There are no other entries. Each name in the schema is tried in turn, so an entry that was added
to it would have to be given a key. -/
theorem exists_key {name : String} {entry : Json} (h : schema.get? name = some entry) :
    ∃ key : Key, key.name = name := by
  by_contra hnone
  simp only [not_exists] at hnone
  have hnot : schema.get? name = none := by
    refine Json.get?_putAll_of_not_mem ?_ []
    simp only [List.map_cons, List.map_nil, List.mem_cons, List.not_mem_nil, or_false]
    rintro (rfl | rfl | rfl | rfl | rfl | rfl | rfl | rfl | rfl | rfl | rfl)
    exacts [hnone .particleCount rfl, hnone .maxAge rfl, hnone .fadeIn rfl, hnone .fadeOut rfl,
      hnone .recycleStride rfl, hnone .recycleAlpha rfl, hnone .exitDecay rfl, hnone .dt rfl,
      hnone .stepScale rfl, hnone .traceCount rfl, hnone .traceLength rfl]
  rw [hnot] at h
  cases h

variable {type : String} {default least v : Json.Number} {description : String}
  {most? : Option Json.Number}

/-- An entry for an integer describes whole numbers, and one for a number describes all of them. -/
theorem describes_entry :
    (entry type default least description most?).Describes v ↔
      (type = "integer" ∧ v.isWhole = true) ∨ type = "number" := by
  have htype : (entry type default least description most?).get? "type" = some (.string type) := by
    cases most? <;> simp [entry, Json.ofMembers, Json.putAll, Json.get?_put]
  unfold Json.Describes
  rw [htype]
  split <;> simp_all

/-- An entry allows what its bounds allow, which stand in it as they were given. -/
theorem allows_entry :
    (entry type default least description most?).Allows v ↔
      least.value ≤ v.value ∧ ∀ most ∈ most?, v.value ≤ most.value := by
  have hleast : (entry type default least description most?).bound? "min" = some least.value := by
    cases most? <;> simp [Json.bound?, entry, Json.ofMembers, Json.putAll, Json.get?_put]
  have hmost : (entry type default least description most?).bound? "max" =
      most?.map Json.Number.value := by
    have hnone : (Json.object []).get? "max" = none := rfl
    cases most? <;> simp [Json.bound?, entry, Json.ofMembers, Json.putAll, Json.get?_put, hnone]
  simp [Json.Allows, hleast, hmost]

end Entries

/-! ## What the reader takes -/

section Bind

variable {ε β : Type}

/-- The reader and the check are chains of steps. These three lemmas run such a chain step by
step. -/
theorem ok_bind {γ : Type} (x : γ) (f : γ → Except ε β) : (Except.ok x >>= f) = f x := rfl

theorem error_bind {γ : Type} (cause : ε) (f : γ → Except ε β) :
    (Except.error cause >>= f) = .error cause := rfl

theorem bind_ok (x : Except ε Unit) : (x >>= fun _ => Except.ok ()) = x := by
  cases x <;> rfl

end Bind

section Reading

variable {key : Key} {v : Json.Number}

/-- The object with one parameter alone. -/
def single (key : Key) (v : Json.Number) : Json := .object [(key.name, .number v)]

/-- The object with one parameter alone gives that parameter and no other. -/
theorem given?_single (key : Key) (v : Json.Number) (name : String) :
    (single key v).given? name = if key.name = name then some (.number v) else none := by
  by_cases h : key.name = name <;> simp [single, Json.given?, Json.get?, h, Json.isNull]

/-- Whether the reader of a parameter takes a number. -/
def Key.Reads (key : Key) (v : Json.Number) : Prop :=
  if key.isWhole then ∃ n, v = .natural n ∧ (key.isTicks = true → n < UInt32.size)
  else v.toFloat.isFinite = true

/-- A parameter that is taken is the only one that is not the default. -/
theorem read_single (h : key.Reads v) : read (single key v) = .ok (key.put v default) := by
  cases key <;>
    simp only [Key.Reads, Key.isWhole, Key.isTicks, if_true, Bool.false_eq_true, if_false] at h
  case recycleAlpha | exitDecay | dt | stepScale =>
    simp [read_eq_ok, Json.countOr, Json.wordOr, Json.numberOr, given?_single, Key.name, Key.put,
      Json.toFloat?, Option.filter, h]
  all_goals
    obtain ⟨n, rfl, hn⟩ := h
    simp [read_eq_ok, Json.countOr, Json.wordOr, Json.numberOr, given?_single, Key.name, Key.put,
      Json.Number.whole, Json.toNat?, Option.filter, hn]

/-- One that is not taken is named. The look-ups before it find nothing and take their defaults, and
its own is the first that fails. -/
theorem read_single_error (h : ¬key.Reads v) :
    ∃ fault, read (single key v) = .error (.invalidParameter key.name fault) := by
  have hgiven : ∀ name, key.name = name → (single key v).given? name = some (.number v) := by
    rintro _ rfl
    rw [given?_single, if_pos rfl]
  have hother : ∀ name, key.name ≠ name → (single key v).given? name = none := fun name hname => by
    rw [given?_single, if_neg hname]
  cases key <;>
    simp only [Key.Reads, Key.isWhole, Key.isTicks, Key.name, if_true, Bool.false_eq_true, if_false]
      at h hgiven hother ⊢
  case recycleAlpha | exitDecay | dt | stepScale =>
    have hnumber : (Json.number v).toFloat?.filter Float.isFinite = none := by
      simp [Json.toFloat?, Option.filter, h]
    refine ⟨.notANumber (.number v), ?_⟩
    simp [read, Json.countOr_of_given?_none, Json.wordOr_of_given?_none,
      Json.numberOr_of_given?_none, hother, Json.numberOr_eq_error (hgiven _ rfl) hnumber, ok_bind,
      error_bind]
  case particleCount | traceCount | traceLength =>
    have hcount : (Json.number v).toNat? = none := by
      cases v with
      | natural n => exact absurd ⟨n, rfl, False.elim⟩ h
      | negative | real => rfl
    refine ⟨.notACount (.number v), ?_⟩
    simp [read, Json.countOr_of_given?_none, Json.wordOr_of_given?_none,
      Json.numberOr_of_given?_none, hother, Json.countOr_eq_error (hgiven _ rfl) hcount, ok_bind,
      error_bind]
  case maxAge | fadeIn | fadeOut | recycleStride =>
    have hword : (Json.number v).toNat?.filter (· < UInt32.size) = none := by
      cases v with
      | natural n =>
        have hn : ¬n < UInt32.size := fun hn => h ⟨n, rfl, fun _ => hn⟩
        simp [Json.toNat?, Option.filter, hn]
      | negative | real => rfl
    refine ⟨.notAWord (.number v), ?_⟩
    simp [read, Json.countOr_of_given?_none, Json.wordOr_of_given?_none,
      Json.numberOr_of_given?_none, hother, Json.wordOr_eq_error (hgiven _ rfl) hword, ok_bind,
      error_bind]

end Reading

/-! ## What the check takes -/

section Checking

open Json.Number (SameSide)

/-- The defaults pass the check, so what is refused of parameters with one value of their own is
refused because of that value. -/
theorem check_default : (default : Params Float).check = .ok () := rfl

/-- The two values that the check compares with, zero and one, are exact. -/
theorem value_zero : Binary64.value 0.0 = 0 := rfl

theorem value_one : Binary64.value 1.0 = 1 := by
  have hone : (1.0 : Float).toModel.unpack = .finite .positive (2 ^ 52) (-52) (by decide) := rfl
  rw [Binary64.value, hone]
  norm_num [Binary64.valueOf, Float.Model.UnpackedFloat.Sign.apply]

variable {key : Key} {v : Json.Number} {q : ℚ} {x : Float}

/-- The four comparisons that the check makes of a value, each in terms of the number it was read
from. -/
theorem zero_le_iff (h : SameSide q x) : 0.0 ≤ x ↔ 0 ≤ q := by
  rw [Binary64.le_iff_value rfl h.isFinite, value_zero, h.nonneg]

theorem le_zero_iff (h : SameSide q x) : x ≤ 0.0 ↔ q ≤ 0 := by
  rw [Binary64.le_iff_value h.isFinite rfl, value_zero, h.nonpos]

theorem lt_zero_iff (h : SameSide q x) : x < 0.0 ↔ q < 0 := by
  rw [Binary64.lt_iff_not_le h.isFinite rfl, zero_le_iff h, not_le]

theorem isPart_iff (h : SameSide q x) : isPart x = true ↔ 0 ≤ q ∧ q ≤ 1 := by
  have hone : x ≤ 1.0 ↔ q ≤ 1 := by
    rw [Binary64.le_iff_value h.isFinite rfl, value_one, h.le_one]
  rw [isPart, Bool.and_eq_true, decide_eq_true_iff, decide_eq_true_iff, zero_le_iff h, hone]

/-- Whether a number is finite and above zero. -/
def isStep {α : Type} [Scalar α] (x : α) : Bool := Scalar.isFinite x && !decide (x ≤ 0.0)

/-- Whether a number is finite and not below zero. -/
def isScale {α : Type} [Scalar α] (x : α) : Bool := Scalar.isFinite x && !decide (x < 0.0)

/-- Whether the check lets a number of one parameter pass, the others apart. -/
def Key.passes (key : Key) (v : Json.Number) : Bool :=
  match key with
  | particleCount => v.whole ≤ maxParticleCount
  | recycleStride => v.whole != 0
  | recycleAlpha | exitDecay => isPart v.toFloat
  | dt => isStep v.toFloat
  | stepScale => isScale v.toFloat
  | traceCount => v.whole ≤ maxTraceCount
  | traceLength => v.whole ≤ maxTraceLength
  | maxAge | fadeIn | fadeOut => true

theorem require_true {α : Type} (name : String) (fault : Fault α) :
    require true name fault = .ok () := rfl

/-- The check of parameters that are the defaults but for one: of the two ages that are compared,
and of that one alone. -/
theorem check_put (key : Key) (v : Json.Number) :
    ∃ fault, (key.put v default).check = (do
      require ((key.put v default).fadeOut ≤ (key.put v default).maxAge) "fade_out"
        (.longerThanLife (key.put v default).maxAge (key.put v default).fadeOut)
      require (key.passes v) key.name fault) := by
  have hdefault := check_eq_ok.mp check_default
  have hstride : ((default : Params Float).recycleStride != 0) = true := rfl
  cases key <;>
    simp only [Key.passes, Key.put, Key.name, check, isStep, isScale, hdefault, hstride,
      require_true, ok_bind, bind_ok, decide_true, decide_false, Bool.not_false, Bool.and_self]
  case maxAge | fadeIn | fadeOut => exact ⟨.zero, trivial⟩
  all_goals exact ⟨_, rfl⟩

/-- Whether a number is within the bounds of a parameter. -/
def Key.Allows (key : Key) (v : Json.Number) : Prop :=
  key.least.value ≤ v.value ∧ ∀ most ∈ key.most?, v.value ≤ most.value

/-- No parameter has a least value below zero. So a negative whole number, which is not read, is not
allowed either. -/
theorem zero_le_least (key : Key) : 0 ≤ key.least.value := by
  cases key
  case recycleStride => exact Nat.cast_nonneg 1
  case recycleAlpha | exitDecay | dt | stepScale => exact value_zero.ge
  all_goals exact (Nat.cast_zero (R := ℚ)).ge

/-- What is read is of the type of the schema, not below zero, and not too large for its word. Of
the numbers that a JSON text can have, a count takes the whole ones and a number takes all. -/
theorem reads_iff (hjson : v.IsJson) :
    key.Reads v ↔ (key.isWhole = true → v.isWhole = true ∧ 0 ≤ v.value) ∧
      (key.isTicks = true → v.value < 2 ^ 32) := by
  have hticks : key.isTicks = true → key.isWhole = true := by cases key <;> decide
  unfold Key.Reads
  split
  next hwhole =>
    simp only [hwhole, true_imp_iff]
    cases v with
    | natural n =>
      have hword : (n : ℚ) < 2 ^ 32 ↔ n < UInt32.size := by exact_mod_cast Iff.rfl
      simp [Json.Number.isWhole, Json.Number.value, hword]
    | negative n =>
      have hneg : ¬(0 : ℚ) ≤ -n := by
        have hpos : (0 : ℚ) < n := by exact_mod_cast hjson.1
        linarith
      simp [Json.Number.isWhole, Json.Number.value, hneg]
    | real x => simp [Json.Number.isWhole]
  next hwhole =>
    have hno : ¬key.isTicks = true := fun h => hwhole (hticks h)
    have hfinite := (Json.Number.sameSide_toFloat hjson).isFinite
    simp [hwhole, hno, hfinite]

/-- What the check asks of a step, in terms of the number: it is above zero. -/
theorem isStep_iff (h : SameSide q x) : isStep x = true ↔ 0 < q := by
  have hfinite : Scalar.isFinite x = true := h.isFinite
  have hpos : ¬x ≤ 0.0 ↔ 0 < q := (le_zero_iff h).not.trans not_le
  rw [isStep, hfinite, Bool.true_and, Bool.not_eq_true', decide_eq_false_iff_not]
  exact hpos

/-- What the check asks of a scale, in terms of the number: it is not below zero. -/
theorem isScale_iff (h : SameSide q x) : isScale x = true ↔ 0 ≤ q := by
  have hfinite : Scalar.isFinite x = true := h.isFinite
  have hnonneg : ¬x < 0.0 ↔ 0 ≤ q := (lt_zero_iff h).not.trans not_lt
  rw [isScale, hfinite, Bool.true_and, Bool.not_eq_true', decide_eq_false_iff_not]
  exact hnonneg

/-- What is read passes if it is within the bounds of the schema, but for a step of zero. Whole
numbers are compared as they are. The bounds of the others are zero or one, and on these the value
that is read and the number in the text agree. -/
theorem passes_iff (hjson : v.IsJson) (hreads : key.Reads v) :
    key.passes v = true ↔ key.Allows v ∧ (key = .dt → v.value ≠ 0) := by
  have hside := Json.Number.sameSide_toFloat hjson
  have hzero : (Json.Number.real 0.0).value = 0 := value_zero
  have hone : (Json.Number.real 1.0).value = 1 := value_one
  have hnatural : ∀ n, (Json.Number.natural n).value = n := fun _ => rfl
  cases key <;>
    simp only [Key.Reads, Key.isWhole, Bool.false_eq_true, if_true, if_false] at hreads <;>
    simp only [Key.passes, Key.Allows, Key.least, Key.most?, Option.mem_def, Option.some_inj,
      forall_eq', hzero, hone, reduceCtorEq, false_imp_iff, implies_true, and_true, true_imp_iff,
      decide_eq_true_eq, bne_iff_ne]
  case recycleAlpha | exitDecay => exact isPart_iff hside
  case dt => exact (isStep_iff hside).trans (by rw [lt_iff_le_and_ne, ne_comm])
  case stepScale => exact isScale_iff hside
  all_goals
    obtain ⟨n, rfl, -⟩ := hreads
    simp only [hnatural, Json.Number.whole, Nat.cast_nonneg, Nat.cast_le, Nat.cast_zero, true_and,
      Nat.one_le_iff_ne_zero]

end Checking

/-! ## The schema and the reader -/

section Agreement

variable {key : Key} {v : Json.Number}

/-- Reading the object with one parameter alone. All others have their defaults, which pass their
checks, so what remains are the bounds of that one and the comparison of two fields. -/
theorem ofJson_single (h : key.Reads v) :
    ∃ fault, ofJson (single key v) = (do
      require ((key.put v default).fadeOut ≤ (key.put v default).maxAge) "fade_out"
        (.longerThanLife (key.put v default).maxAge (key.put v default).fadeOut)
      require (key.passes v) key.name fault
      return key.put v default) := by
  obtain ⟨fault, hcheck⟩ := check_put key v
  refine ⟨fault, ?_⟩
  rw [ofJson, read_single h]
  show ((key.put v default).check >>= fun _ => _) = _
  rw [hcheck]
  exact bind_assoc _ _ _

/-- A number that the reader does not take is refused by the name of its parameter, before the check
is made. -/
theorem ofJson_single_error (h : ¬key.Reads v) :
    ∃ fault, ofJson (single key v) = .error (.invalidParameter key.name fault) := by
  obtain ⟨fault, hread⟩ := read_single_error h
  exact ⟨fault, by rw [ofJson, hread]; rfl⟩

/-- The entry of a parameter describes the numbers of its kind, and allows those within bounds. -/
theorem entry_iff {entry : Json} (h : schema.get? key.name = some entry) (v : Json.Number) :
    (entry.Describes v ↔ (key.isWhole = true → v.isWhole = true)) ∧
      (entry.Allows v ↔ key.Allows v) := by
  obtain ⟨default, description, hentry⟩ := get?_schema key
  obtain rfl := Option.some.inj (hentry.symm.trans h)
  refine ⟨?_, allows_entry⟩
  rw [describes_entry]
  cases key.isWhole <;> simp

/-- A number is refused by name that is of another kind, out of bounds, or too large for a word. The
reader refuses the first and the last, and the check what is out of bounds. -/
theorem ofJson_single_refused (hjson : v.IsJson)
    (h : ¬(key.isWhole = true → v.isWhole = true) ∨ ¬key.Allows v ∨
      (key.isTicks = true ∧ 2 ^ 32 ≤ v.value)) :
    ∃ fault, ofJson (single key v) = .error (.invalidParameter key.name fault) := by
  by_cases hreads : key.Reads v
  · obtain ⟨hwhole, hticks⟩ := (reads_iff hjson).mp hreads
    have hallows : ¬key.Allows v := by
      rcases h with hkind | hallows | ⟨hword, hlarge⟩
      · exact absurd (fun hw => (hwhole hw).1) hkind
      · exact hallows
      · exact absurd (hticks hword) hlarge.not_gt
    have hpasses : key.passes v = false := by
      rw [← Bool.not_eq_true, passes_iff hjson hreads]
      exact fun hpasses => hallows hpasses.1
    have hfade : (key.put v default).fadeOut ≤ (key.put v default).maxAge := by
      have hdefault := fadeOut_le_of_check check_default
      cases key
      case maxAge | fadeOut => cases hpasses
      all_goals exact hdefault
    obtain ⟨fault, hread⟩ := ofJson_single hreads
    rw [hread, decide_eq_true hfade, hpasses]
    exact ⟨fault, rfl⟩
  · exact ofJson_single_error hreads

/-- Every other number is taken, if the ages are in order, and the step is not zero. These two
conditions are not in the schema: one compares two parameters, and the other is a bound that does
not count as allowed. -/
theorem ofJson_single_taken (hjson : v.IsJson) (hkind : key.isWhole = true → v.isWhole = true)
    (hallows : key.Allows v) (hword : key.isTicks = true → v.value < 2 ^ 32) :
    ((key.put v default).maxAge < (key.put v default).fadeOut →
      ofJson (single key v) = .error (.invalidParameter "fade_out"
        (.longerThanLife (key.put v default).maxAge (key.put v default).fadeOut))) ∧
    ((key.put v default).fadeOut ≤ (key.put v default).maxAge → (key = .dt → v.value ≠ 0) →
      ofJson (single key v) = .ok (key.put v default)) := by
  have hnonneg : 0 ≤ v.value := (zero_le_least key).trans hallows.1
  have hreads : key.Reads v := (reads_iff hjson).mpr ⟨fun hw => ⟨hkind hw, hnonneg⟩, hword⟩
  obtain ⟨fault, hread⟩ := ofJson_single hreads
  rw [hread]
  constructor
  · intro hfade
    rw [decide_eq_false hfade.not_ge]
    rfl
  · intro hfade hdt
    rw [decide_eq_true hfade, (passes_iff hjson hreads).mpr ⟨hallows, hdt⟩]
    rfl

/-- **The schema and the reader agree**, on each parameter alone and on every number that JSON has.
The parameters of the schema are those that are read. A number of the wrong type or out of a bound
that the schema states is refused by name, and so is a number of ticks that has no word of 32 bits,
which the schema does not say. All others are taken, and change the one parameter. Two ages are
compared with each other all the same: if the defaults leave no room for the one that is given, the
fading out is named.

A step of zero is left open: the least step of the schema is zero. -/
theorem schema_agrees_with_reader :
    (∀ name, (∃ entry, schema.get? name = some entry) ↔ ∃ key : Key, key.name = name) ∧
    ∀ (key : Key) (entry : Json), schema.get? key.name = some entry →
      ∀ v : Json.Number, v.IsJson →
        (¬entry.Describes v ∨ ¬entry.Allows v ∨ (key.isTicks = true ∧ 2 ^ 32 ≤ v.value) →
          ∃ fault, ofJson (.object [(key.name, .number v)]) =
            .error (.invalidParameter key.name fault)) ∧
        (entry.Describes v → entry.Allows v → (key.isTicks = true → v.value < 2 ^ 32) →
          ((key.put v default).maxAge < (key.put v default).fadeOut →
            ofJson (.object [(key.name, .number v)]) = .error (.invalidParameter "fade_out"
              (.longerThanLife (key.put v default).maxAge (key.put v default).fadeOut))) ∧
          ((key.put v default).fadeOut ≤ (key.put v default).maxAge → (key = .dt → v.value ≠ 0) →
            ofJson (.object [(key.name, .number v)]) = .ok (key.put v default))) := by
  refine ⟨fun name => ⟨fun ⟨_, h⟩ => exists_key h, ?_⟩, ?_⟩
  · rintro ⟨key, rfl⟩
    obtain ⟨default, description, hentry⟩ := get?_schema key
    exact ⟨_, hentry⟩
  · intro key entry hentry v hjson
    obtain ⟨hdescribes, hallows⟩ := entry_iff hentry v
    rw [hdescribes, hallows]
    exact ⟨ofJson_single_refused hjson, ofJson_single_taken hjson⟩

/-- A part that is one is taken, an age below zero is refused, and an age that is allowed leaves no
room for the fading out. -/
theorem answers_of_schema :
    ofJson (.object [("exit_decay", .natural 1)]) =
        .ok { default with exitDecay := Float.ofNat 1 } ∧
      (∃ fault, ofJson (.object [("max_age", .number (.negative 1))]) =
        .error (.invalidParameter "max_age" fault)) ∧
      ofJson (.object [("max_age", .natural 10)]) =
        .error (.invalidParameter "fade_out" (.longerThanLife 10 30)) := by
  obtain ⟨hkeys, hagree⟩ := schema_agrees_with_reader
  obtain ⟨decay, hdecay⟩ := (hkeys "exit_decay").mpr ⟨.exitDecay, rfl⟩
  obtain ⟨age, hage⟩ := (hkeys "max_age").mpr ⟨.maxAge, rfl⟩
  have hdecays := entry_iff (show schema.get? Key.exitDecay.name = some decay from hdecay)
  have hages := entry_iff (show schema.get? Key.maxAge.name = some age from hage)
  have hdecay' : decay.Describes (.natural 1) ∧ decay.Allows (.natural 1) := by
    rw [(hdecays _).1, (hdecays _).2]
    refine ⟨fun _ => rfl, ?_, ?_⟩
    · exact value_zero.trans_le (Nat.cast_nonneg 1)
    · rintro _ ⟨⟩
      exact (Nat.cast_one.trans value_one.symm).le
  have hage' : age.Describes (.natural 10) ∧ age.Allows (.natural 10) := by
    rw [(hages _).1, (hages _).2]
    exact ⟨fun _ => rfl, Nat.cast_le.mpr (Nat.zero_le 10), nofun⟩
  have hbelow : ¬age.Allows (.negative 1) := by
    rw [(hages _).2]
    rintro ⟨hleast, -⟩
    norm_num [Key.least, Json.Number.value] at hleast
  have htaken := (hagree .exitDecay decay hdecay (.natural 1) (by decide)).2 hdecay'.1 hdecay'.2
    nofun
  have hrefused := (hagree .maxAge age hage (.negative 1) (by decide)).1 (.inr (.inl hbelow))
  have hnamed := (hagree .maxAge age hage (.natural 10) (by decide)).2 hage'.1 hage'.2
    fun _ => by norm_num [Json.Number.value]
  exact ⟨htaken.2 (by decide) nofun, hrefused, hnamed.1 (by decide)⟩

/-- The schema allows an age that is refused because of another one, and numbers of ticks that have
no word. -/
theorem allowed_and_refused :
    ∃ maxAge fadeIn, schema.get? "max_age" = some maxAge ∧ maxAge.Describes (.natural 10) ∧
      maxAge.Allows (.natural 10) ∧
      ofJson (.object [("max_age", .natural 10)]) =
        .error (.invalidParameter "fade_out" (.longerThanLife 10 30)) ∧
      schema.get? "fade_in" = some fadeIn ∧ fadeIn.Describes (.natural (2 ^ 32)) ∧
      fadeIn.Allows (.natural (2 ^ 32)) ∧
      ofJson (.object [("fade_in", .natural (2 ^ 32))]) =
        .error (.invalidParameter "fade_in" (.notAWord (.natural (2 ^ 32)))) := by
  obtain ⟨_, _, hage⟩ := get?_schema .maxAge
  obtain ⟨_, _, hfade⟩ := get?_schema .fadeIn
  refine ⟨_, _, hage, (entry_iff hage _).1.mpr fun _ => rfl, (entry_iff hage _).2.mpr ?_, rfl,
    hfade, (entry_iff hfade _).1.mpr fun _ => rfl, (entry_iff hfade _).2.mpr ?_, rfl⟩
  · exact ⟨Nat.cast_le.mpr (Nat.zero_le 10), nofun⟩
  · exact ⟨Nat.cast_le.mpr (Nat.zero_le _), nofun⟩

end Agreement

end Params

end PhasePortrait
