import Mathlib.Data.String.Basic
import PhasePortrait.Proofs.Expr.Separators

/-!
# Scanning byte by byte

A text is kept as bytes, and a character that is not ASCII is two to four of them. A scan that goes
along the bytes and cuts the pieces out between two of their places (`Expr.scanFrom`) could cut
inside a character, and it needs a value for a piece that is no number. It does neither: it is the
scan along the characters (`Expr.scanFrom_eq_tokenize`).

What carries this is that the scan only ever stands where a character starts, or inside one that it
passes over (`Expr.Reads`), and that all bytes of such a character are 128 or more, so none of them
is taken for a digit, a letter or a symbol.
-/

namespace PhasePortrait.Expr

/-! ## The scan -/

/-- The byte at a place of a text, as the character with its number. -/
def byteChar? (text : String) (i : Nat) : Option Char :=
  text.toByteArray.data[i]?.map fun byte => Char.ofNat byte.toNat

/-- There is a character at places inside the text only, so a scan that finds one has not ended. -/
theorem lt_of_byteChar? {text : String} {i : Nat} {c : Char} (h : byteChar? text i = some c) :
    i < text.toByteArray.data.size := by
  rw [byteChar?, Option.map_eq_some_iff] at h
  obtain ⟨byte, hbyte, -⟩ := h
  exact (Array.getElem?_eq_some_iff.mp hbyte).1

/-- The end of a run of bytes of one kind. -/
def runEnd (kind : Char → Bool) (text : String) (i : Nat) : Nat :=
  match h : byteChar? text i with
  | none => i
  | some c => if kind c then runEnd kind text (i + 1) else i
termination_by text.toByteArray.data.size - i
decreasing_by
  have := lt_of_byteChar? h
  omega

theorem le_runEnd (kind : Char → Bool) (text : String) (i : Nat) : i ≤ runEnd kind text i := by
  fun_induction runEnd kind text i with
  | case1 => exact Nat.le_refl _
  | case2 i c h hkind ih => omega
  | case3 => exact Nat.le_refl _

/-- The text between two places, unless one of them is inside a character. -/
def slice? (text : String) (first last : Nat) : Option String :=
  if first ≤ last ∧ String.Pos.Raw.IsValid text ⟨first⟩ ∧ String.Pos.Raw.IsValid text ⟨last⟩ then
    some (String.Pos.Raw.extract text ⟨first⟩ ⟨last⟩)
  else none

/-- Where the scan goes on after the token that starts with a byte. -/
def stopAfter (text : String) (i : Nat) (c : Char) : Nat :=
  if c.isDigit then
    let whole := runEnd Char.isDigit text (i + 1)
    if byteChar? text whole = some '.' then runEnd Char.isDigit text (whole + 1) else whole
  else if c.isAlpha then runEnd Char.isAlpha text (i + 1)
  else i + 1

/-- Every step goes on by at least one byte, so the scan ends. -/
theorem lt_stopAfter (text : String) (i : Nat) (c : Char) : i < stopAfter text i c := by
  have hdigit := le_runEnd Char.isDigit text (i + 1)
  have hfraction := le_runEnd Char.isDigit text (runEnd Char.isDigit text (i + 1) + 1)
  have halpha := le_runEnd Char.isAlpha text (i + 1)
  unfold stopAfter
  dsimp only
  split_ifs <;> omega

/-- The token that starts with a byte, if one does; and no answer if its text is not cut out between
characters. The fallback is the value of a number whose text cannot be read. -/
def tokenAt (fallback : Float) (text : String) (i : Nat) (c : Char) :
    Option (Option (Token Float)) :=
  if c.isDigit then
    (slice? text i (stopAfter text i c)).map fun piece =>
      some (.number ((Binary64.read? piece).getD fallback))
  else if c.isAlpha then
    (slice? text i (stopAfter text i c)).map fun piece => some (.ofWord piece)
  else some ((Symbol.ofChar? c).map .symbol)

/-- The tokens of a text from a place on, byte by byte; and no answer if a piece is not cut out
between characters. -/
def scanFrom (fallback : Float) (text : String) (i : Nat) : Option (List (Token Float)) :=
  match _ : byteChar? text i with
  | none => some []
  | some c => do
    let token ← tokenAt fallback text i c
    (scanFrom fallback text (stopAfter text i c)).map (token.toList ++ ·)
termination_by text.toByteArray.data.size - i
decreasing_by
  have := lt_of_byteChar? ‹_›
  have := lt_stopAfter text i c
  omega

/-! ## The steps of the scan -/

variable {text : String} {i : Nat}

/-- A byte of the kind belongs to the run, which ends where the run from the next byte does. -/
theorem runEnd_of_any {kind : Char → Bool} (h : (byteChar? text i).any kind = true) :
    runEnd kind text i = runEnd kind text (i + 1) := by
  rw [runEnd]
  split
  next hnone => rw [hnone] at h; cases h
  next c hc =>
    rw [hc] at h
    exact if_pos h

/-- A byte of another kind, or the end of the text, ends the run. -/
theorem runEnd_of_not_any {kind : Char → Bool} (h : (byteChar? text i).any kind = false) :
    runEnd kind text i = i := by
  rw [runEnd]
  split
  next => rfl
  next c hc =>
    rw [hc] at h
    exact if_neg (Bool.eq_false_iff.mp h)

theorem scanFrom_of_none (fallback : Float) (h : byteChar? text i = none) :
    scanFrom fallback text i = some [] := by
  rw [scanFrom]
  split
  next => rfl
  next c hc => rw [h] at hc; cases hc

/-- The scan goes on from a byte: the token that starts with it, if one does, and those behind
it. -/
theorem scanFrom_of_some (fallback : Float) {c : Char} (h : byteChar? text i = some c) :
    scanFrom fallback text i = (tokenAt fallback text i c).bind fun token =>
      (scanFrom fallback text (stopAfter text i c)).map (token.toList ++ ·) := by
  rw [scanFrom]
  split
  next hnone => rw [h] at hnone; cases hnone
  next c' hc =>
    obtain rfl := Option.some.inj (h.symm.trans hc)
    rfl

/-- A byte that is not ASCII is passed over, and the scan goes on with the next one. It starts no
number, no word and no symbol, as these tests are for ASCII. -/
theorem scanFrom_of_not_ascii (fallback : Float) {c : Char} (h : byteChar? text i = some c)
    (hc : 128 ≤ c.toNat) : scanFrom fallback text i = scanFrom fallback text (i + 1) := by
  obtain ⟨⟨hdigit, halpha, -⟩, hsymbol⟩ := skipped_of_not_ascii hc
  have hstop : stopAfter text i c = i + 1 := by
    rw [stopAfter, if_neg (by simp [hdigit]), if_neg (by simp [halpha])]
  have htoken : tokenAt fallback text i c = some none := by
    rw [tokenAt, if_neg (by simp [hdigit]), if_neg (by simp [halpha]), hsymbol]
    rfl
  rw [scanFrom_of_some fallback h, htoken, hstop]
  simp

/-! ## Bytes of characters -/

/-- The bytes of a text are those of its characters, one after another. -/
theorem byteChar?_ofList (letters : List Char) (i : Nat) :
    byteChar? (String.ofList letters) i =
      (letters.flatMap String.utf8EncodeChar)[i]?.map fun byte => Char.ofNat byte.toNat := by
  rw [byteChar?, String.toByteArray_ofList, List.utf8Encode, List.data_toByteArray,
    List.getElem?_toArray]

/-- The bytes of a text are as many as its characters say, which is how places are counted. -/
theorem length_flatMap_utf8EncodeChar (letters : List Char) :
    (letters.flatMap String.utf8EncodeChar).length = String.utf8Len letters := by
  induction letters with
  | nil => rfl
  | cons c rest ih =>
    rw [List.flatMap_cons, List.length_append, ih, String.length_utf8EncodeChar, String.utf8Len,
      Nat.add_comm]

theorem utf8Size_of_ascii {c : Char} (hc : c.toNat < 128) : c.utf8Size = 1 :=
  Char.utf8Size_eq_one_iff.mpr (UInt32.le_iff_toNat_le.mpr (Nat.le_of_lt_succ hc))

theorem utf8Len_of_ascii {piece : List Char} (h : ∀ c ∈ piece, c.toNat < 128) :
    String.utf8Len piece = piece.length := by
  induction piece with
  | nil => rfl
  | cons c rest ih =>
    obtain ⟨hc, hrest⟩ := List.forall_mem_cons.mp h
    rw [String.utf8Len, ih hrest, utf8Size_of_ascii hc, List.length_cons]

theorem toNat_ofNat_of_lt {n : Nat} (h : n < 256) : (Char.ofNat n).toNat = n := by
  rw [Char.ofNat, dif_pos (.inl (by omega))]
  rfl

/-- All bytes of a character that is not ASCII are 128 or more: the first one tells how many there
are, and each of the others is marked as one that goes on. -/
theorem le_of_mem_utf8EncodeChar {c : Char} (hc : 128 ≤ c.toNat) {byte : UInt8}
    (hbyte : byte ∈ String.utf8EncodeChar c) : 128 ≤ byte.toNat := by
  have hval : ¬c.val.toNat ≤ 127 := by
    have : 128 ≤ c.val.toNat := hc
    omega
  unfold String.utf8EncodeChar at hbyte
  dsimp only at hbyte
  rw [if_neg hval] at hbyte
  split_ifs at hbyte <;>
    simp only [List.mem_cons, List.not_mem_nil, or_false] at hbyte <;>
    rcases hbyte with rfl | rfl | rfl | rfl <;>
    simp only [UInt8.toNat_ofNat'] <;> omega

/-! ## Where the scan stands -/

/-- At the place a character starts, and from there on the text has these letters. -/
def Reads (text : String) (i : Nat) (letters : List Char) : Prop :=
  ∃ before, text = String.ofList (before ++ letters) ∧ i = String.utf8Len before

/-- The scan stands where a character starts when it starts itself. -/
theorem reads_start (text : String) : Reads text 0 text.toList :=
  ⟨[], String.ofList_toList.symm, rfl⟩

namespace Reads

variable {c : Char} {letters rest piece : List Char} {kind : Char → Bool}

/-- Behind a piece, whatever is in it, a character starts again. -/
theorem after (h : Reads text i (piece ++ rest)) :
    Reads text (i + String.utf8Len piece) rest := by
  obtain ⟨before, rfl, rfl⟩ := h
  exact ⟨before ++ piece, by rw [List.append_assoc], (String.utf8Len_append _ _).symm⟩

/-- A place where a character starts is one that a text may be cut at. -/
theorem isValid (h : Reads text i letters) : String.Pos.Raw.IsValid text ⟨i⟩ := by
  obtain ⟨before, rfl, rfl⟩ := h
  exact String.Pos.Raw.isValid_iff_exists_append.mpr
    ⟨String.ofList before, String.ofList letters, String.ofList_append,
      (String.rawEndPos_ofList before).symm⟩

/-- **A piece between two characters is cut out.** -/
theorem slice?_eq (h : Reads text i (piece ++ rest)) :
    slice? text i (i + String.utf8Len piece) = some (String.ofList piece) := by
  rw [slice?, if_pos ⟨Nat.le_add_right _ _, h.isValid, h.after.isValid⟩]
  obtain ⟨before, rfl, rfl⟩ := h
  rw [← List.append_assoc, String.extract_of_valid]

/-- The bytes from a place on are those of the letters there. -/
theorem byteChar?_add (h : Reads text i letters) (j : Nat) :
    byteChar? text (i + j) =
      (letters.flatMap String.utf8EncodeChar)[j]?.map fun byte => Char.ofNat byte.toNat := by
  obtain ⟨before, rfl, rfl⟩ := h
  rw [byteChar?_ofList, List.flatMap_append,
    List.getElem?_append_right (by rw [length_flatMap_utf8EncodeChar]; omega),
    length_flatMap_utf8EncodeChar, Nat.add_sub_cancel_left]

theorem byteChar?_nil (h : Reads text i []) : byteChar? text i = none :=
  h.byteChar?_add 0

theorem byteChar?_of_ascii (h : Reads text i (c :: rest)) (hc : c.toNat < 128) :
    byteChar? text i = some c := by
  have hbyte := h.byteChar?_add 0
  rw [List.flatMap_cons, String.utf8EncodeChar_eq_singleton (utf8Size_of_ascii hc)] at hbyte
  have hnat : c.val.toUInt8.toNat = c.toNat := by
    rw [UInt32.toNat_toUInt8]
    exact Nat.mod_eq_of_lt (by change c.toNat < 256; omega)
  rw [Nat.add_zero] at hbyte
  rw [hbyte]
  change some (Char.ofNat c.val.toUInt8.toNat) = some c
  rw [hnat, Char.ofNat_toNat]

/-- In a character that is not ASCII no byte is ASCII. -/
theorem byteChar?_of_not_ascii (h : Reads text i (c :: rest)) (hc : 128 ≤ c.toNat) {j : Nat}
    (hj : j < c.utf8Size) : ∃ b : Char, byteChar? text (i + j) = some b ∧ 128 ≤ b.toNat := by
  have hlt : j < (String.utf8EncodeChar c).length := by rwa [String.length_utf8EncodeChar]
  refine ⟨Char.ofNat (String.utf8EncodeChar c)[j].toNat, ?_, ?_⟩
  · rw [h.byteChar?_add, List.flatMap_cons, List.getElem?_append_left hlt,
      List.getElem?_eq_getElem hlt, Option.map_some]
  · have hle := le_of_mem_utf8EncodeChar hc (List.getElem_mem hlt)
    have hbyte := (String.utf8EncodeChar c)[j].toNat_lt
    rwa [toNat_ofNat_of_lt hbyte]

/-- Behind a piece in ASCII, which is as many bytes as letters. -/
theorem after_ascii (h : Reads text i (piece ++ rest)) (hpiece : ∀ c ∈ piece, c.toNat < 128) :
    Reads text (i + piece.length) rest := by
  rw [← utf8Len_of_ascii hpiece]
  exact h.after

theorem tail (h : Reads text i (c :: rest)) (hc : c.toNat < 128) : Reads text (i + 1) rest := by
  have hone : ∀ d ∈ [c], d.toNat < 128 := List.forall_mem_singleton.mpr hc
  exact h.after_ascii hone

/-- A piece in ASCII is cut out between the numbers of its first letter and of the one behind its
last. -/
theorem slice?_of_ascii (h : Reads text i (piece ++ rest)) (hpiece : ∀ c ∈ piece, c.toNat < 128) :
    slice? text i (i + piece.length) = some (String.ofList piece) := by
  rw [← utf8Len_of_ascii hpiece]
  exact h.slice?_eq

/-- A kind of ASCII is tested on the byte with the same answer as on the letter, whether the letter
is ASCII or not. -/
theorem any_byteChar? (h : Reads text i (c :: rest)) (hkind : Text.IsAsciiTest kind) :
    (byteChar? text i).any kind = kind c := by
  rcases Nat.lt_or_ge c.toNat 128 with hascii | hlarge
  · rw [h.byteChar?_of_ascii hascii, Option.any_some]
  · obtain ⟨b, hb, hble⟩ := h.byteChar?_of_not_ascii hlarge c.utf8Size_pos
    rw [Nat.add_zero] at hb
    rw [hb, Option.any_some, hkind.eq_false hble, hkind.eq_false hlarge]

/-- **A run of bytes is a run of characters.** The run goes on from letter to letter, and ends in
front of a character beyond ASCII, whose first byte fails the test just as the character does. -/
theorem runEnd_eq (h : Reads text i letters) (hkind : Text.IsAsciiTest kind) :
    runEnd kind text i = i + (letters.takeWhile kind).length := by
  induction letters generalizing i with
  | nil =>
    rw [runEnd_of_not_any (by rw [h.byteChar?_nil]; rfl)]
    rfl
  | cons c rest ih =>
    have hany := h.any_byteChar? hkind
    cases htest : kind c with
    | false =>
      rw [htest] at hany
      rw [runEnd_of_not_any hany, List.takeWhile_cons, if_neg (by simp [htest])]
      rfl
    | true =>
      rw [htest] at hany
      rw [runEnd_of_any hany, ih (h.tail (hkind c htest)), List.takeWhile_cons, if_pos htest,
        List.length_cons]
      omega

/-- The run, and where the text goes on behind it. -/
theorem after_run (h : Reads text i letters) (hkind : Text.IsAsciiTest kind) :
    Reads text (runEnd kind text i) (letters.dropWhile kind) := by
  rw [h.runEnd_eq hkind]
  rw [← List.takeWhile_append_dropWhile (p := kind) (l := letters)] at h
  exact h.after_ascii fun c hc => hkind c (List.mem_takeWhile_imp hc)

theorem byteChar?_eq_point_iff (h : Reads text i letters) :
    byteChar? text i = some '.' ↔ ∃ fraction, letters = '.' :: fraction := by
  constructor
  · intro hpoint
    cases letters with
    | nil =>
      rw [h.byteChar?_nil] at hpoint
      cases hpoint
    | cons c rest =>
      have hascii : Text.IsAsciiTest (· == '.') := by
        intro d hd
        obtain rfl := eq_of_beq hd
        decide
      have hany := h.any_byteChar? hascii
      rw [hpoint] at hany
      obtain rfl := eq_of_beq hany.symm
      exact ⟨rest, rfl⟩
  · rintro ⟨fraction, rfl⟩
    exact h.byteChar?_of_ascii (by decide)

end Reads

/-! ## The whole scan -/

section Steps

variable {first : Char} {rest : List Char}

/-- What one step makes of a text: a piece of ASCII at its front, whose end is where the step stops,
and what is behind it. -/
structure Step (text : String) (i : Nat) (first : Char) (letters piece rest : List Char) :
    Prop where
  whole : piece ++ rest = letters
  isAscii : ∀ c ∈ piece, c.toNat < 128
  stop : stopAfter text i first = i + piece.length

theorem Step.slice? {letters piece : List Char} (hstep : Step text i first letters piece rest)
    (h : Reads text i letters) :
    slice? text i (stopAfter text i first) = some (String.ofList piece) := by
  obtain ⟨rfl, hascii, hstop⟩ := hstep
  rw [hstop]
  exact h.slice?_of_ascii hascii

theorem Step.after {letters piece : List Char} (hstep : Step text i first letters piece rest)
    (h : Reads text i letters) : Reads text (stopAfter text i first) rest := by
  obtain ⟨rfl, hascii, hstop⟩ := hstep
  rw [hstop]
  exact h.after_ascii hascii

/-- **The text of a number.** It is one run of digits, or two with a point between them, and in
either case it is cut out between characters. -/
theorem exists_number_step (h : Reads text i (first :: rest)) (hfirst : first.isDigit = true) :
    ∃ piece, Step text i first (first :: rest) piece (scanNumber (α := Float) first rest).2 ∧
      Binary64.read? (String.ofList piece) = some (scanNumber first rest).1 := by
  have hascii := Text.isAsciiTest_isDigit
  have hwhole : ∀ c ∈ first :: rest.takeWhile Char.isDigit, c.isDigit = true :=
    List.forall_mem_cons.mpr ⟨hfirst, fun c hc => List.mem_takeWhile_imp hc⟩
  have hrest := h.tail (hascii first hfirst)
  have hbehind := hrest.after_run hascii
  have hend := hrest.runEnd_eq hascii
  by_cases hpoint : ∃ fraction, rest.dropWhile Char.isDigit = '.' :: fraction
  · obtain ⟨fraction, heq⟩ := hpoint
    have hfraction : ∀ c ∈ fraction.takeWhile Char.isDigit, c.isDigit = true := fun c hc =>
      List.mem_takeWhile_imp hc
    rw [scanNumber_of_point heq]
    refine ⟨first :: rest.takeWhile Char.isDigit ++ '.' :: fraction.takeWhile Char.isDigit,
      ⟨?_, ?_, ?_⟩, Binary64.read?_fraction (List.cons_ne_nil _ _) hwhole hfraction⟩
    · rw [List.append_assoc, List.cons_append, List.cons_append, List.takeWhile_append_dropWhile,
        ← heq, List.takeWhile_append_dropWhile]
    · intro c hc
      rcases List.mem_append.mp hc with hc | hc
      · exact hascii c (hwhole c hc)
      · obtain rfl | hc := List.mem_cons.mp hc
        · decide
        · exact hascii c (hfraction c hc)
    · rw [heq] at hbehind
      have hfractionEnd := (hbehind.tail (by decide)).runEnd_eq hascii
      rw [stopAfter, if_pos hfirst, if_pos (hbehind.byteChar?_of_ascii (by decide)), hfractionEnd,
        hend, List.length_append, List.length_cons, List.length_cons]
      omega
  · rw [scanNumber_of_no_point hpoint]
    refine ⟨first :: rest.takeWhile Char.isDigit, ⟨?_, fun c hc => hascii c (hwhole c hc), ?_⟩,
      Binary64.read?_whole (List.cons_ne_nil _ _) hwhole⟩
    · rw [List.cons_append, List.takeWhile_append_dropWhile]
    · rw [stopAfter, if_pos hfirst, if_neg (mt hbehind.byteChar?_eq_point_iff.mp hpoint), hend,
        List.length_cons]
      omega

/-- The text of a word. -/
theorem word_step (h : Reads text i (first :: rest)) (hfirst : first.isAlpha = true) :
    Step text i first (first :: rest) (first :: rest.takeWhile Char.isAlpha)
      (rest.dropWhile Char.isAlpha) := by
  have hascii := Text.isAsciiTest_isAlpha
  refine ⟨?_, ?_, ?_⟩
  · rw [List.cons_append, List.takeWhile_append_dropWhile]
  · exact List.forall_mem_cons.mpr
      ⟨hascii first hfirst, fun c hc => hascii c (List.mem_takeWhile_imp hc)⟩
  · rw [stopAfter, if_neg (by simp [isDigit_of_isAlpha hfirst]), if_pos hfirst,
      (h.tail (hascii first hfirst)).runEnd_eq hascii, List.length_cons]
    omega

/-- **A step along the bytes is a step along the characters**, where the next one is ASCII. The two
branches that read more than one character have a step of their own, and all others pass over one
byte. -/
theorem step_of_ascii (fallback : Float) (h : Reads text i (first :: rest))
    (hfirst : first.toNat < 128) :
    tokenAt fallback text i first = some (scanToken first rest).1 ∧
      Reads text (stopAfter text i first) (scanToken (α := Float) first rest).2 := by
  unfold tokenAt scanToken
  split
  next hdigit =>
    obtain ⟨piece, hstep, hread⟩ := exists_number_step h hdigit
    refine ⟨?_, hstep.after h⟩
    rw [hstep.slice? h, Option.map_some, hread, Option.getD_some]
  next hdigit =>
    split
    next halpha =>
      have hstep := word_step h halpha
      refine ⟨?_, hstep.after h⟩
      rw [hstep.slice? h]
      rfl
    next halpha =>
      refine ⟨rfl, ?_⟩
      rw [stopAfter, if_neg hdigit, if_neg halpha]
      exact h.tail hfirst

/-- The bytes of a character that is not ASCII are passed over one by one. The induction is on how
many of them are passed, since none of them looks like a character of its own. -/
theorem scanFrom_character (fallback : Float) (h : Reads text i (first :: rest))
    (hfirst : 128 ≤ first.toNat) :
    scanFrom fallback text i = scanFrom fallback text (i + first.utf8Size) := by
  have hbytes : ∀ j ≤ first.utf8Size,
      scanFrom fallback text i = scanFrom fallback text (i + j) := by
    intro j
    induction j with
    | zero => exact fun _ => rfl
    | succ j ih =>
      intro hj
      obtain ⟨b, hb, hle⟩ := h.byteChar?_of_not_ascii hfirst hj
      rw [ih (Nat.le_of_succ_le hj), scanFrom_of_not_ascii fallback hb hle, Nat.add_assoc]
  exact hbytes _ (Nat.le_refl _)

end Steps

/-- **The scan along the bytes is the scan along the characters**, from each place at which a
character starts. -/
theorem scanFrom_of_reads (fallback : Float) {letters : List Char} (h : Reads text i letters) :
    scanFrom fallback text i = some (tokenize letters) := by
  induction letters using tokenize.induct (α := Float) generalizing i with
  | case1 => rw [scanFrom_of_none fallback h.byteChar?_nil, tokenize]
  | case2 first rest ih =>
    rw [tokenize_cons]
    rcases Nat.lt_or_ge first.toNat 128 with hascii | hlarge
    · obtain ⟨htoken, hafter⟩ := step_of_ascii fallback h hascii
      rw [scanFrom_of_some fallback (h.byteChar?_of_ascii hascii), htoken, Option.bind_some,
        ih hafter, Option.map_some]
    · have hskip := skipped_of_not_ascii hlarge
      have hafter : Reads text (i + first.utf8Size) rest := by
        have hone : Reads text i ([first] ++ rest) := h
        have hafter := hone.after
        rwa [String.utf8Len, String.utf8Len, Nat.zero_add] at hafter
      have hscan : scanToken (α := Float) first rest = (none, rest) := by
        rw [scanToken, if_neg (by simp [hskip.1.1]), if_neg (by simp [hskip.1.2.1]), hskip.2]
        rfl
      rw [hscan] at ih ⊢
      rw [scanFrom_character fallback h hlarge, ih hafter]
      rfl

theorem mem_symbolChars {c : Char} : c ∈ "+-*/^()".toList ↔ ∃ s : Symbol, s.char = c := by
  constructor
  · intro hc
    obtain ⟨s, -, rfl⟩ : ∃ s ∈ Symbol.all, s.char = c := List.mem_map.mp hc
    exact ⟨s, rfl⟩
  · rintro ⟨s, rfl⟩
    cases s <;> decide

/-- The text of a number is one token, and it reads as the value of the token. -/
theorem exists_read?_tokenize {whole tail : List Char} (hne : whole ≠ [])
    (hwhole : ∀ c ∈ whole, c.isDigit = true)
    (htail : tail = [] ∨ ∃ fraction, tail = '.' :: fraction ∧ ∀ c ∈ fraction, c.isDigit = true) :
    ∃ x, Binary64.read? (String.ofList (whole ++ tail)) = some x ∧
      tokenize (whole ++ tail) = [.number x] := by
  obtain rfl | ⟨fraction, rfl, hfraction⟩ := htail
  · rw [List.append_nil]
    exact ⟨_, Binary64.read?_whole hne hwhole, tokenize_whole hne hwhole⟩
  · exact ⟨_, Binary64.read?_fraction hne hwhole hfraction,
      tokenize_fraction hne hwhole hfraction⟩

/-- **How a text is cut into tokens.** A symbol, wherever it stands, cuts the text in two and is a
token of its own; so does any other character that no number and no word contains, and leaves no
token. Letters are one token, and so are digits, with or without a point behind them and more digits:
these read as the number they are. The scan along the bytes never cuts inside a character and never
needs its fallback. So an equation has the tokens of the text it was made of. -/
theorem tokenize_splits_at_separators :
    (∀ c ∈ "+-*/^()".toList, ∃ s : Symbol, s.char = c ∧ ∀ u v : List Char,
      tokenize (α := Float) (u ++ c :: v) = tokenize u ++ [.symbol s] ++ tokenize v) ∧
    (∀ c ∉ "+-*/^()".toList, c.isAlpha = false → c.isDigit = false → c ≠ '.' →
      ∀ u v : List Char, tokenize (α := Float) (u ++ c :: v) = tokenize u ++ tokenize v) ∧
    (∀ word : List Char, word ≠ [] → (∀ c ∈ word, c.isAlpha = true) →
      tokenize (α := Float) word = [.ofWord (String.ofList word)]) ∧
    (∀ whole tail : List Char, whole ≠ [] → (∀ c ∈ whole, c.isDigit = true) →
      (tail = [] ∨ ∃ fraction, tail = '.' :: fraction ∧ ∀ c ∈ fraction, c.isDigit = true) →
      ∃ x, Binary64.read? (String.ofList (whole ++ tail)) = some x ∧
        tokenize (whole ++ tail) = [.number x]) ∧
    (∀ (fallback : Float) (text : String),
      scanFrom fallback text 0 = some (tokenize text.toList)) ∧
    ∀ text : String, (Expression.ofText (α := Float) text).tokens = tokenize text.toList := by
  refine ⟨?symbol, ?skipped, fun _ => tokenize_word, fun _ _ => exists_read?_tokenize,
    fun fallback text => scanFrom_of_reads fallback (reads_start text), Expression.tokenize_clean⟩
  case symbol =>
    intro c hc
    obtain ⟨s, rfl⟩ := mem_symbolChars.mp hc
    refine ⟨s, rfl, fun u v => ?_⟩
    rw [tokenize_cut (separates_char s), symbolTokens, Symbol.ofChar?_eq_some.mpr rfl]
    rfl
  case skipped =>
    intro c hc halpha hdigit hpoint u v
    have hskip : Skipped c := ⟨⟨hdigit, halpha, hpoint⟩,
      Symbol.ofChar?_eq_none.mpr fun s hs => hc (mem_symbolChars.mpr ⟨s, hs⟩)⟩
    rw [tokenize_cut hskip.1, hskip.symbolTokens_eq, List.append_nil]

end PhasePortrait.Expr
