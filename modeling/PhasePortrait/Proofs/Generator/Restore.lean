import PhasePortrait.Proofs.Generator.Calls
import PhasePortrait.Proofs.Json.Naturals

/-!
# Generators as texts

A generator is written as an object with its state, a whole number, and every generator is read back
from what is written of it, in either layout (`Generator.ofText?_compact`,
`Generator.ofText?_pretty`).

What else is read is said by `GivesState`: an array of the state alone, or an object in which one
member has the name of the state and every other one has a name at all. The state may be any whole
number that 64 bits hold. **Zero is one of them**, the one number that `Generator.ofSeed` replaces.
So it depends on the text alone whether a generator that is read is stuck.
-/

namespace PhasePortrait

namespace Json

theorem joined_singleton (separator piece : String) : joined separator [piece] = piece := rfl

namespace Source

/-! ## Members of a name -/

/-- The members of an object that have a name, each by the string it is written for. -/
def named (members : List (List Letter × Source)) : List (String × Source) :=
  members.filterMap fun m => (string? m.1).map fun name => (name, m.2)

/-- The values of the members of a name, in their order. -/
def valuesOf (name : String) (members : List (List Letter × Source)) : List Source :=
  ((named members).filter fun m => m.1 == name).map fun m => m.2

/-- The members of an object are named all together, or not at all: one name that is no text spoils
the object, wherever it stands. -/
theorem mapM_names_iff {members : List (List Letter × Source)} {names : List (String × Source)} :
    (members.mapM fun m => return (← string? m.1, m.2)) = some names ↔
      (∀ m ∈ members, string? m.1 ≠ none) ∧ names = named members := by
  induction members generalizing names with
  | nil => simp [named, eq_comm]
  | cons m members ih =>
    rw [List.mapM_cons, List.forall_mem_cons]
    cases hname : string? m.1 with
    | none => simp
    | some name =>
      have hnamed : named (m :: members) = (name, m.2) :: named members := by
        simp [named, hname]
      rw [hnamed]
      simp only [Option.bind_eq_bind, Option.bind_some, Option.pure_def, Option.bind_eq_some_iff]
      constructor
      · rintro ⟨rest, hrest, hall⟩
        obtain ⟨hnames, rfl⟩ := ih.mp hrest
        exact ⟨⟨Option.some_ne_none name, hnames⟩, (Option.some.inj hall).symm⟩
      · rintro ⟨⟨-, hnames⟩, rfl⟩
        exact ⟨named members, ih.mpr ⟨hnames, rfl⟩, rfl⟩

/-- A field is found if it is given once. A second member of its name makes the record useless, even
if it gives the same value again. -/
theorem field?_eq_some_iff {members : List (List Letter × Source)} {name : String}
    {value : Source} :
    field? (named members) name = some (some value) ↔ valuesOf name members = [value] := by
  unfold field? valuesOf
  split
  next hnone => simp [hnone]
  next m hone => simp [hone]
  next hnone hmany =>
    constructor
    · intro h
      cases h
    · intro h
      obtain ⟨m, hm, -⟩ := List.map_eq_singleton_iff.mp h
      exact absurd hm (hmany m)

/-- **A record of one field is given by the only member of its name**, where every member has a
name. -/
theorem fields?_object_iff {members : List (List Letter × Source)} {name : String}
    {value : Source} :
    (Source.object members).fields? [name] = some [some value] ↔
      (∀ m ∈ members, string? m.1 ≠ none) ∧ valuesOf name members = [value] := by
  have hfield : [name].mapM (field? (named members)) = some [some value] ↔
      valuesOf name members = [value] := by
    rw [← field?_eq_some_iff]
    simp [Option.bind_eq_some_iff]
  unfold fields?
  rw [Option.bind_eq_bind, Option.bind_eq_some_iff]
  simp only [mapM_names_iff]
  constructor
  · rintro ⟨names, ⟨hnames, rfl⟩, hvalue⟩
    exact ⟨hnames, hfield.mp hvalue⟩
  · rintro ⟨hnames, hvalues⟩
    exact ⟨named members, ⟨hnames, rfl⟩, hfield.mpr hvalues⟩

/-! ## An object with a state alone -/

/-- The shape of an object with a state alone. -/
def ofState (n : Nat) : Source :=
  .object [("state".toList.map .char, .number (Literal.ofNat n))]

/-- Neither a blank nor the brace that closes an object could go on with a number, so the number in
front of them is read to its own end. -/
theorem EndsNumber.of_blanks {blanks : List Char} (hblanks : ∀ c ∈ blanks, isBlank c = true) :
    EndsNumber (blanks ++ ['\x7d']) := by
  intro c hc
  cases blanks with
  | nil =>
    cases hc
    decide
  | cons b blanks =>
    obtain rfl : b = c := Option.some.inj hc
    have hb := hblanks b List.mem_cons_self
    simp only [isBlank, Bool.or_eq_true, beq_iff_eq] at hb
    obtain ((rfl | rfl) | rfl) | rfl := hb <;> decide

theorem value?_object {text rest : List Char} {c : Char} (htext : skipBlanks text = c :: rest)
    (hc : c ≠ '\x7d') (fuel : Nat) :
    value? (fuel + 1) ('\x7b' :: text) = members? fuel [] text := by
  have hbrace : skipBlanks ('\x7b' :: text) = '\x7b' :: text := skipBlanks_cons (by decide) text
  simp [value?, hbrace, htext, hc]

/-- An object with a state alone is read, whatever blanks stand around its parts. Both layouts are
cases of this, and so is every text in between. -/
theorem value?_ofState {before between after : List Char}
    (hbefore : ∀ c ∈ before, isBlank c = true) (hbetween : ∀ c ∈ between, isBlank c = true)
    (hafter : ∀ c ∈ after, isBlank c = true) (fuel n : Nat) :
    value? (fuel + 3) ('\x7b' :: (before ++ ("\"state\":".toList ++
        (between ++ (Nat.toDigits 10 n ++ (after ++ ['\x7d'])))))) =
      some (ofState n, []) := by
  have hclose : skipBlanks (after ++ ['\x7d']) = ['\x7d'] := by
    rw [skipBlanks_append hafter, skipBlanks_cons (by decide)]
  have hstate : value? (fuel + 1) (between ++ (Nat.toDigits 10 n ++ (after ++ ['\x7d']))) =
      some (.number (Literal.ofNat n), after ++ ['\x7d']) := by
    rw [value?_append_blanks hbetween, value?_digits (.of_blanks hafter)]
  generalize between ++ (Nat.toDigits 10 n ++ (after ++ ['\x7d'])) = state at hstate ⊢
  have hname : letters? [] ("state\":".toList ++ state) =
      some ("state".toList.map .char, ':' :: state) := rfl
  have hopen : skipBlanks (before ++ ("\"state\":".toList ++ state)) =
      '"' :: ("state\":".toList ++ state) := by
    rw [skipBlanks_append hbefore]
    rfl
  have hcolon : skipBlanks (':' :: state) = ':' :: state := skipBlanks_cons (by decide) state
  have hmember : members? (fuel + 2) [] (before ++ ("\"state\":".toList ++ state)) =
      some (ofState n, []) := by
    simp only [members?, hopen, hname, hcolon, hstate, hclose, Option.bind_eq_bind,
      Option.bind_some]
    rfl
  rw [value?_object hopen (by decide), hmember]

/-- The shape of a state alone gives the state as the only field. -/
theorem fields?_ofState (n : Nat) :
    (ofState n).fields? ["state"] = some [some (.number (Literal.ofNat n))] := rfl

end Source

end Json

namespace Generator

open Json.Source

variable {g : Generator} {text : String}

/-! ## What is read -/

/-- The shapes that give a generator its state: an array of it alone, or an object in which one
member has its name, and every other one has a name at all. -/
inductive GivesState (n : Nat) : Json.Source → Prop
  | array {state : Json.Source} (hstate : state.toNat? = some n) : GivesState n (.array [state])
  | object {members : List (List Letter × Json.Source)} {state : Json.Source}
      (hnames : ∀ m ∈ members, string? m.1 ≠ none) (honly : valuesOf "state" members = [state])
      (hstate : state.toNat? = some n) : GivesState n (.object members)

/-- The shapes that give a state are those that the reader of records finds one in, and no
others. -/
theorem givesState_iff {n : Nat} {shape : Json.Source} :
    GivesState n shape ↔
      ∃ state, shape.fields? ["state"] = some [some state] ∧ state.toNat? = some n := by
  constructor
  · intro h
    cases h with
    | @array state hstate => exact ⟨state, rfl, hstate⟩
    | @object members state hnames honly hstate =>
      exact ⟨state, fields?_object_iff.mpr ⟨hnames, honly⟩, hstate⟩
  · rintro ⟨state, hfields, hstate⟩
    cases shape with
    | null | bool | number | string => cases hfields
    | object members =>
      obtain ⟨hnames, honly⟩ := fields?_object_iff.mp hfields
      exact .object hnames honly hstate
    | array items =>
      obtain ⟨item, rfl⟩ : ∃ item, items = [item] := by
        cases items with
        | nil => cases hfields
        | cons item rest =>
          cases rest with
          | nil => exact ⟨item, rfl⟩
          | cons second rest => cases hfields
      cases hfields
      exact .array hstate

/-- A state is a word: the reader of whole numbers has an end at 64 bits. -/
theorem lt_of_toNat? {state : Json.Source} {n : Nat} (h : state.toNat? = some n) :
    n < UInt64.size := by
  cases state with
  | null | bool | string | array | object => cases h
  | number literal =>
    obtain ⟨value, hvalue, hn⟩ := Option.bind_eq_some_iff.mp h
    cases value with
    | negative | real => cases hn
    | natural =>
      cases hn
      exact Json.Literal.lt_of_number? hvalue

/-- A whole number that is read is not cut to a word: it is one. -/
theorem toNat_ofNat_of_toNat? {state : Json.Source} {n : Nat} (h : state.toNat? = some n) :
    (UInt64.ofNat n).toNat = n :=
  UInt64.toNat_ofNat_of_lt' (lt_of_toNat? h)

/-- **A text is read as a generator where its shape gives the state.** What the reader of records
finds is compared with the shapes that give a state; the number that is given needs no cutting,
since it is a word. -/
theorem ofText?_eq_some_iff :
    ofText? text = some g ↔
      ∃ shape, Json.Source.ofText? text = some shape ∧ GivesState g.state.toNat shape := by
  unfold ofText?
  cases Json.Source.ofText? text with
  | none => simp
  | some shape =>
    simp only [Option.bind_eq_bind, Option.bind_some, Option.some.injEq, exists_eq_left',
      givesState_iff]
    constructor
    · intro hg
      obtain ⟨fields, hfields, hg⟩ := Option.bind_eq_some_iff.mp hg
      split at hg
      next state =>
        obtain ⟨n, hstate, hn⟩ := Option.bind_eq_some_iff.mp hg
        cases hn
        refine ⟨state, hfields, ?_⟩
        rw [toNat_ofNat_of_toNat? hstate]
        exact hstate
      next => cases hg
    · rintro ⟨state, hfields, hstate⟩
      simp [hfields, hstate]

/-! ## What is written -/

/-- What is written of a generator is read as that generator, with blanks around its parts or
without. -/
theorem ofText?_of_letters (before between after : List Char)
    (hbefore : ∀ c ∈ before, isBlank c = true) (hbetween : ∀ c ∈ between, isBlank c = true)
    (hafter : ∀ c ∈ after, isBlank c = true)
    (htext : text.toList = '\x7b' :: (before ++ ("\"state\":".toList ++
        (between ++ (Nat.toDigits 10 g.state.toNat ++ (after ++ ['\x7d'])))))) :
    ofText? text = some g := by
  obtain ⟨fuel, hfuel⟩ : ∃ fuel, 2 * text.toList.length + 1 = fuel + 3 := by
    refine ⟨2 * text.toList.length - 2, ?_⟩
    have hlength := congrArg List.length htext
    rw [List.length_cons] at hlength
    omega
  have hshape : Json.Source.ofText? text = some (ofState g.state.toNat) := by
    unfold Json.Source.ofText?
    dsimp only
    rw [hfuel, htext, value?_ofState hbefore hbetween hafter]
    rfl
  have hstate : toNat? (.number (Json.Literal.ofNat g.state.toNat)) = some g.state.toNat := by
    rw [toNat?, Json.Literal.number?_ofNat g.state.toNat_lt]
    rfl
  rw [ofText?_eq_some_iff]
  exact ⟨_, hshape, givesState_iff.mpr ⟨_, fields?_ofState _, hstate⟩⟩

theorem toJson_eq (g : Generator) : g.toJson = .object [("state", .natural g.state.toNat)] := rfl

theorem ofText?_compact (g : Generator) : ofText? g.toJson.compact = some g := by
  apply ofText?_of_letters [] [] [] (by simp) (by simp) (by simp)
  simp [toJson_eq, Json.compact, Json.compactMembers, Json.joined_singleton, Json.quote,
    Json.letterText, Json.natural, Json.Number.text]

theorem ofText?_pretty (g : Generator) : ofText? g.toJson.pretty = some g := by
  apply ofText?_of_letters ['\n', ' ', ' '] [' '] ['\n'] (by simp [isBlank]) (by simp [isBlank])
    (by simp [isBlank])
  simp [toJson_eq, Json.pretty, Json.prettyAt, Json.prettyMembers, Json.joined_singleton, Json.quote,
    Json.letterText, Json.natural, Json.Number.text, Json.margin]

/-- A generator is read from every text that gives a state, whichever it is. -/
theorem exists_ofText? {n : Nat} {shape : Json.Source}
    (hshape : Json.Source.ofText? text = some shape) (hgives : GivesState n shape) :
    ∃ g, ofText? text = some g ∧ g.state.toNat = n := by
  obtain ⟨state, -, hstate⟩ := givesState_iff.mp hgives
  have hword := toNat_ofNat_of_toNat? hstate
  refine ⟨⟨UInt64.ofNat n⟩, ofText?_eq_some_iff.mpr ⟨shape, hshape, ?_⟩, hword⟩
  rw [hword]
  exact hgives

/-- **A generator that is read goes on where the one that was written stood, and is stuck where the
text says so.** What is written of a generator is read as the same generator, whatever was drawn
from it before.

Other texts are read too, and these are all that give a state. Zero is one of the states that can be
given. From then on every word is zero; from any other state none is, whatever is asked of the
generator in between. -/
theorem restored_as_written (α : Type) [Scalar α] :
    (∀ g : Generator, ofText? g.toJson.compact = some g ∧ ofText? g.toJson.pretty = some g) ∧
    (∀ text g, ofText? text = some g ↔
      ∃ shape, Json.Source.ofText? text = some shape ∧ GivesState g.state.toNat shape) ∧
    (∀ text shape n, Json.Source.ofText? text = some shape → GivesState n shape →
      ∃ g, ofText? text = some g ∧ g.state.toNat = n ∧
        ∀ calls : List (Call α), (Draw.word (g.afterAll calls)).1 = 0 ↔ n = 0) := by
  refine ⟨?_, fun text g => ofText?_eq_some_iff, ?_⟩
  · intro g
    exact ⟨ofText?_compact g, ofText?_pretty g⟩
  · intro text shape n hshape hgives
    obtain ⟨g, hg, hn⟩ := exists_ofText? hshape hgives
    refine ⟨g, hg, hn, fun calls => ?_⟩
    calc (Draw.word (g.afterAll calls)).1 = 0
        ↔ g.state = 0 := by rw [word_eq_zero, state_afterAll_eq_zero]
      _ ↔ n = 0 := by
        rw [← hn, ← UInt64.toNat_inj]
        rfl

/-- The state zero is read, and left as it is by every word. The seed zero stands for another. -/
theorem zero_restored :
    ofText? "\x7b\"state\":0\x7d" = some ⟨0⟩ ∧ (Draw.word ⟨0⟩).1 = 0 ∧ (Draw.word ⟨0⟩).2 = ⟨0⟩ ∧
      ofSeed 0 ≠ ⟨0⟩ := by
  decide +kernel

end Generator

end PhasePortrait
