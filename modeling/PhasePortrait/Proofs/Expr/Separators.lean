import Mathlib.Data.List.TakeWhile
import PhasePortrait.Expr.Expression
import PhasePortrait.Proofs.Ascii

/-!
# Where a text may be cut

Numbers and words are as long as they can be, so a scan depends on what stands next to what. But no
number and no word goes on over a character that is neither a digit, nor a letter, nor a point
(`Expr.Separates`). There the scan of a text falls into the scans of its two sides, with the symbol
between them that the character is, if it is one (`Expr.tokenize_cut`).

Blanks and semicolons separate and are no symbols, so they may be taken off the ends of a text
without a trace (`Expression.tokenize_clean`).

A word and a number on their own are one token each, and the text of a number reads as the value
that the token has (`Expr.tokenize_word`, `Expr.tokenize_whole`, `Expr.tokenize_fraction`).
-/

namespace PhasePortrait

namespace Expr

variable {α : Type}

/-- No number and no word goes on over the character. Points are among those that do not separate,
since a number may have one. -/
def Separates (c : Char) : Prop := c.isDigit = false ∧ c.isAlpha = false ∧ c ≠ '.'

instance (c : Char) : Decidable (Separates c) := inferInstanceAs (Decidable (_ ∧ _ ∧ _))

/-- The tokens of a separating character alone: the symbol that it is, if it is one. -/
def symbolTokens (c : Char) : List (Token α) := ((Symbol.ofChar? c).map Token.symbol).toList

/-- A separating character that is no symbol. -/
def Skipped (c : Char) : Prop := Separates c ∧ Symbol.ofChar? c = none

instance (c : Char) : Decidable (Skipped c) := inferInstanceAs (Decidable (_ ∧ _))

/-- Every symbol separates, so texts may be put together around one. -/
theorem separates_char (s : Symbol) : Separates s.char := by
  cases s <;> decide

/-- What is not ASCII is passed over. -/
theorem skipped_of_not_ascii {c : Char} (hc : 128 ≤ c.toNat) : Skipped c := by
  refine ⟨⟨Text.isAsciiTest_isDigit.eq_false hc, Text.isAsciiTest_isAlpha.eq_false hc, ?_⟩,
    Symbol.ofChar?_of_not_ascii hc⟩
  rintro rfl
  exact absurd hc (by decide)

theorem skipped_of_isBlank {c : Char} (hblank : Text.isBlank c = true) : Skipped c := by
  rcases Nat.lt_or_ge c.toNat 128 with hascii | hlarge
  · revert hblank
    apply Text.forall_ascii (P := fun c => Text.isBlank c = true → Skipped c) ?_ hascii
    decide
  · exact skipped_of_not_ascii hlarge

theorem Skipped.symbolTokens_eq {c : Char} (hc : Skipped c) :
    symbolTokens (α := α) c = [] := by
  rw [symbolTokens, hc.2]
  rfl

variable [Scalar α]

/-! ## Cutting -/

/-- Taking letters stops at the first one that fails the test, so what is behind such a letter does
not matter. -/
theorem takeWhile_cut {test : Char → Bool} {c : Char} (hc : test c = false)
    (u v : List Char) : (u ++ c :: v).takeWhile test = u.takeWhile test := by
  induction u with
  | nil => simp [hc]
  | cons first rest ih =>
    rw [List.cons_append, List.takeWhile_cons, List.takeWhile_cons, ih]

/-- Dropping letters stops there as well, and leaves the rest of the text with that letter in
front. -/
theorem dropWhile_cut {test : Char → Bool} {c : Char} (hc : test c = false)
    (u v : List Char) : (u ++ c :: v).dropWhile test = u.dropWhile test ++ c :: v := by
  induction u with
  | nil => simp [hc]
  | cons first rest ih =>
    rw [List.cons_append, List.dropWhile_cons, List.dropWhile_cons, ih]
    split <;> rfl

/-- The two forms of a number, by what stands behind its leading digits. Where that is a point, the
digits behind the point belong to the number too. -/
theorem scanNumber_of_point {first : Char} {rest fraction : List Char}
    (h : rest.dropWhile Char.isDigit = '.' :: fraction) :
    scanNumber (α := α) first rest =
      (literal (first :: rest.takeWhile Char.isDigit) (fraction.takeWhile Char.isDigit),
        fraction.dropWhile Char.isDigit) := by
  rw [scanNumber, h]
  rfl

theorem scanNumber_of_no_point {first : Char} {rest : List Char}
    (h : ¬∃ fraction, rest.dropWhile Char.isDigit = '.' :: fraction) :
    scanNumber (α := α) first rest =
      (literal (first :: rest.takeWhile Char.isDigit) [], rest.dropWhile Char.isDigit) := by
  rw [scanNumber]
  split
  next fraction heq => exact absurd ⟨fraction, heq⟩ h
  next => rfl

/-- A number ends at a separating character if it has not ended before: such a character is no
digit, and no point. -/
theorem scanNumber_cut {c : Char} (hc : Separates c) (first : Char) (u v : List Char) :
    scanNumber (α := α) first (u ++ c :: v) =
      ((scanNumber first u).1, (scanNumber (α := α) first u).2 ++ c :: v) := by
  obtain ⟨hdigit, -, hpoint⟩ := hc
  have hdrop := dropWhile_cut hdigit u v
  by_cases h : ∃ fraction, u.dropWhile Char.isDigit = '.' :: fraction
  · obtain ⟨fraction, heq⟩ := h
    rw [heq, List.cons_append] at hdrop
    rw [scanNumber_of_point hdrop, scanNumber_of_point heq, takeWhile_cut hdigit,
      takeWhile_cut hdigit, dropWhile_cut hdigit]
  · -- The separating character is no point, so it makes none.
    have hcut : ¬∃ fraction, (u ++ c :: v).dropWhile Char.isDigit = '.' :: fraction := by
      rintro ⟨fraction, heq⟩
      rw [hdrop] at heq
      rcases List.append_eq_cons_iff.mp heq with ⟨-, heq⟩ | ⟨rest, heq, -⟩
      · exact hpoint (List.cons.inj heq).1
      · exact h ⟨rest, heq⟩
    rw [scanNumber_of_no_point hcut, scanNumber_of_no_point h, takeWhile_cut hdigit, hdrop]

/-- The first token of a text and what follows it, where the text goes on behind a separating
character. -/
theorem scanToken_cut {c : Char} (hc : Separates c) (first : Char) (u v : List Char) :
    scanToken (α := α) first (u ++ c :: v) =
      ((scanToken first u).1, (scanToken (α := α) first u).2 ++ c :: v) := by
  unfold scanToken
  split
  next => rw [scanNumber_cut hc]
  next =>
    split
    next => rw [scanWord, scanWord, takeWhile_cut hc.2.1, dropWhile_cut hc.2.1]
    next => rfl

/-- A scan is the token at its front, if one is found there, and the scan of what that token
leaves. -/
theorem tokenize_cons (first : Char) (rest : List Char) :
    tokenize (α := α) (first :: rest) =
      (scanToken first rest).1.toList ++ tokenize (scanToken (α := α) first rest).2 := by
  rw [tokenize]

/-- A separating character is never taken into a number or a word, so the scan goes on right behind
it. -/
theorem tokenize_cons_of_separates {c : Char} (hc : Separates c) (v : List Char) :
    tokenize (α := α) (c :: v) = symbolTokens c ++ tokenize v := by
  rw [tokenize_cons, scanToken, if_neg (by simp [hc.1]), if_neg (by simp [hc.2.1])]
  rfl

/-- **A text falls apart at a separating character.** The induction is on the text before it: its
first token ends before that character, whichever token it is. -/
theorem tokenize_cut {c : Char} (hc : Separates c) (u v : List Char) :
    tokenize (α := α) (u ++ c :: v) = tokenize u ++ symbolTokens c ++ tokenize v := by
  induction u using tokenize.induct (α := α) with
  | case1 =>
    rw [List.nil_append, tokenize_cons_of_separates hc, tokenize, List.nil_append]
  | case2 first rest ih =>
    -- The first token of the whole is that of the left side, and the rest of it is cut as well.
    rw [List.cons_append, tokenize_cons, tokenize_cons, scanToken_cut hc, ih]
    simp only [List.append_assoc]

/-- A text falls apart at a symbol. -/
theorem tokenize_symbol (s : Symbol) (u v : List Char) :
    tokenize (α := α) (u ++ s.char :: v) = tokenize u ++ .symbol s :: tokenize v := by
  have hsymbol : symbolTokens (α := α) s.char = [.symbol s] := by
    rw [symbolTokens, Symbol.ofChar?_eq_some.mpr rfl]
    rfl
  rw [tokenize_cut (separates_char s), hsymbol, List.append_assoc, List.singleton_append]

/-! ## Ends of a text -/

/-- Characters in front of a text that are passed over may be left out. -/
theorem tokenize_append_of_skipped {front : List Char} (h : ∀ c ∈ front, Skipped c)
    (v : List Char) : tokenize (α := α) (front ++ v) = tokenize v := by
  induction front with
  | nil => rfl
  | cons c rest ih =>
    obtain ⟨hc, hrest⟩ := List.forall_mem_cons.mp h
    rw [List.cons_append, tokenize_cons_of_separates hc.1, hc.symbolTokens_eq, List.nil_append,
      ih hrest]

theorem tokenize_append_skipped {back : List Char} (h : ∀ c ∈ back, Skipped c) (u : List Char) :
    tokenize (α := α) (u ++ back) = tokenize u := by
  cases back with
  | nil => rw [List.append_nil]
  | cons c rest =>
    obtain ⟨hc, hrest⟩ := List.forall_mem_cons.mp h
    have hback := tokenize_append_of_skipped (α := α) hrest []
    rw [List.append_nil] at hback
    rw [tokenize_cut hc.1, hc.symbolTokens_eq, hback, tokenize, List.append_nil, List.append_nil]

/-- Taking characters off the front by a test, as cleaning a text does, if the test takes only such
as are passed over. -/
theorem tokenize_dropWhile {test : Char → Bool} (h : ∀ c, test c = true → Skipped c)
    (text : List Char) : tokenize (α := α) (text.dropWhile test) = tokenize text := by
  have hfront : ∀ c ∈ text.takeWhile test, Skipped c := fun c hc =>
    h c (List.mem_takeWhile_imp hc)
  rw [← tokenize_append_of_skipped hfront, List.takeWhile_append_dropWhile]

theorem tokenize_dropEnd {test : Char → Bool} (h : ∀ c, test c = true → Skipped c)
    (text : List Char) : tokenize (α := α) (Text.dropEnd test text) = tokenize text := by
  have hback : ∀ c ∈ (text.reverse.takeWhile test).reverse, Skipped c := fun c hc =>
    h c (List.mem_takeWhile_imp (List.mem_reverse.mp hc))
  have hwhole : Text.dropEnd test text ++ (text.reverse.takeWhile test).reverse = text := by
    rw [Text.dropEnd, ← List.reverse_append, List.takeWhile_append_dropWhile, List.reverse_reverse]
  rw [← tokenize_append_skipped hback, hwhole]

/-! ## Words and numbers -/

/-- A letter is no digit, so the scan of a word does not start a number. -/
theorem isDigit_of_isAlpha {c : Char} (hc : c.isAlpha = true) : c.isDigit = false := by
  have hascii := Text.isAsciiTest_isAlpha c hc
  revert hc
  apply Text.forall_ascii (P := fun c => c.isAlpha = true → c.isDigit = false) ?_ hascii
  decide

/-- A word is one token. -/
theorem tokenize_word {word : List Char} (hne : word ≠ []) (hword : ∀ c ∈ word, c.isAlpha = true) :
    tokenize (α := α) word = [.ofWord (String.ofList word)] := by
  cases word with
  | nil => exact absurd rfl hne
  | cons first rest =>
    obtain ⟨hfirst, hrest⟩ := List.forall_mem_cons.mp hword
    rw [tokenize_cons, scanToken, if_neg (by simp [isDigit_of_isAlpha hfirst]), if_pos hfirst,
      scanWord, List.takeWhile_eq_self_iff.mpr hrest, List.dropWhile_eq_nil_iff.mpr hrest, tokenize]
    rfl

theorem tokenize_digit {first : Char} (hfirst : first.isDigit = true) (rest : List Char) :
    tokenize (α := α) (first :: rest) =
      .number (scanNumber first rest).1 :: tokenize (scanNumber (α := α) first rest).2 := by
  rw [tokenize_cons, scanToken, if_pos hfirst]
  rfl

/-- Digits are one token. -/
theorem tokenize_whole {whole : List Char} (hne : whole ≠ [])
    (hwhole : ∀ c ∈ whole, c.isDigit = true) :
    tokenize (α := α) whole = [.number (literal whole [])] := by
  cases whole with
  | nil => exact absurd rfl hne
  | cons first rest =>
    obtain ⟨hfirst, hrest⟩ := List.forall_mem_cons.mp hwhole
    have hdrop : rest.dropWhile Char.isDigit = [] := List.dropWhile_eq_nil_iff.mpr hrest
    have hnone : ¬∃ fraction, rest.dropWhile Char.isDigit = '.' :: fraction := by simp [hdrop]
    rw [tokenize_digit hfirst, scanNumber_of_no_point hnone,
      List.takeWhile_eq_self_iff.mpr hrest, hdrop, tokenize]

/-- Digits, a point and digits or nothing are one token. There have to be digits in front, because a
point alone begins nothing. -/
theorem tokenize_fraction {whole fraction : List Char} (hne : whole ≠ [])
    (hwhole : ∀ c ∈ whole, c.isDigit = true) (hfraction : ∀ c ∈ fraction, c.isDigit = true) :
    tokenize (α := α) (whole ++ '.' :: fraction) = [.number (literal whole fraction)] := by
  cases whole with
  | nil => exact absurd rfl hne
  | cons first rest =>
    obtain ⟨hfirst, hrest⟩ := List.forall_mem_cons.mp hwhole
    have hpoint : Char.isDigit '.' = false := by decide
    have hdrop : (rest ++ '.' :: fraction).dropWhile Char.isDigit = '.' :: fraction := by
      rw [dropWhile_cut hpoint, List.dropWhile_eq_nil_iff.mpr hrest, List.nil_append]
    rw [List.cons_append, tokenize_digit hfirst, scanNumber_of_point hdrop, takeWhile_cut hpoint,
      List.takeWhile_eq_self_iff.mpr hrest, List.takeWhile_eq_self_iff.mpr hfraction,
      List.dropWhile_eq_nil_iff.mpr hfraction, tokenize]

/-- The name of a variable, as a text of its own, is the token of that variable. -/
theorem tokenize_var (v : Var) : tokenize (α := α) v.name.toList = [.var v] := by
  have hword : v.name.toList.all Char.isAlpha = true := by cases v <;> decide
  rw [tokenize_word (by cases v <;> decide) (List.all_eq_true.mp hword), String.ofList_toList]
  cases v <;> rfl

theorem tokenize_func (f : Func) : tokenize (α := α) f.name.toList = [.func f] := by
  have hword : f.name.toList.all Char.isAlpha = true := by cases f <;> decide
  rw [tokenize_word (by cases f <;> decide) (List.all_eq_true.mp hword), String.ofList_toList]
  cases f <;> rfl

end Expr

namespace Expression

open PhasePortrait.Expr

variable {α : Type} [Scalar α]

/-- **Cleaning a text leaves its tokens alone.** It takes off blanks and semicolons at the ends, and
all of these are passed over by a scan. -/
theorem tokenize_clean (text : String) :
    tokenize (α := α) (clean text) = tokenize text.toList := by
  have hsemicolon : ∀ c : Char, (c == ';') = true → Skipped c := by
    intro c hc
    obtain rfl := eq_of_beq hc
    decide
  have hblank : ∀ c : Char, Text.isBlank c = true → Skipped c := fun _ => skipped_of_isBlank
  rw [clean, tokenize_dropEnd hsemicolon, Text.trim, tokenize_dropEnd hblank,
    tokenize_dropWhile hblank]

end Expression

namespace Binary64

open PhasePortrait.Expr (literal takeWhile_cut dropWhile_cut)

/-- A decimal may have a sign in front. A token that starts with a digit has none. -/
theorem takeSign_of_digit {first : Char} (hfirst : first.isDigit = true) (rest : List Char) :
    takeSign (first :: rest) = (false, first :: rest) := by
  unfold takeSign
  split
  next heq =>
    obtain ⟨rfl, -⟩ := List.cons.inj heq
    exact absurd hfirst (by decide)
  next heq =>
    obtain ⟨rfl, -⟩ := List.cons.inj heq
    exact absurd hfirst (by decide)
  next => rfl

/-- A text that starts with a digit has no sign, and is not the name of a value such as an infinity.
So it is read as a decimal and as nothing else. -/
theorem read?_of_digit {first : Char} (hfirst : first.isDigit = true) (rest : List Char) :
    read? (String.ofList (first :: rest)) = unsigned? (first :: rest) := by
  have hlower : first.toLower.isDigit = true := by
    have hascii := Text.isAsciiTest_isDigit first hfirst
    revert hfirst
    apply Text.forall_ascii (P := fun c => c.isDigit = true → c.toLower.isDigit = true) ?_ hascii
    decide
  have hname : ∀ {head : Char} {tail : List Char}, head.isDigit = false →
      (first :: rest).map Char.toLower ≠ head :: tail := by
    intro head tail hhead heq
    rw [(List.cons.inj heq).1, hhead] at hlower
    cases hlower
  have hinf : ¬((first :: rest).map Char.toLower = "inf".toList ∨
      (first :: rest).map Char.toLower = "infinity".toList) := by
    rintro (h | h)
    · exact hname (by decide) h
    · exact hname (by decide) h
  have hnan : (first :: rest).map Char.toLower ≠ "nan".toList := hname (by decide)
  unfold read?
  rw [String.toList_ofList, takeSign_of_digit hfirst]
  dsimp only
  rw [if_neg hinf, if_neg hnan]
  simp

/-- A decimal without an exponent has the value of the number with these digits. -/
theorem ofDecimal_eq_literal (whole fraction : List Char) :
    ofDecimal (digitsValue (whole ++ fraction)) (0 - fraction.length) =
      literal whole fraction := by
  have hexponent : (0 - (fraction.length : Int)) ≤ 0 := by omega
  have hplaces : (-(0 - (fraction.length : Int))).toNat = fraction.length := by omega
  rw [ofDecimal, if_pos hexponent, hplaces, literal]

/-- **The text of a number is read**, and its value is that of the token. So a scan never has to
make up a value for a number that it found. -/
theorem read?_whole {whole : List Char} (hne : whole ≠ [])
    (hwhole : ∀ c ∈ whole, c.isDigit = true) :
    read? (String.ofList whole) = some (literal whole []) := by
  cases whole with
  | nil => exact absurd rfl hne
  | cons first rest =>
    rw [read?_of_digit (hwhole first List.mem_cons_self), unsigned?,
      List.takeWhile_eq_self_iff.mpr hwhole, List.dropWhile_eq_nil_iff.mpr hwhole,
      ← ofDecimal_eq_literal]
    rfl

theorem read?_fraction {whole fraction : List Char} (hne : whole ≠ [])
    (hwhole : ∀ c ∈ whole, c.isDigit = true) (hfraction : ∀ c ∈ fraction, c.isDigit = true) :
    read? (String.ofList (whole ++ '.' :: fraction)) = some (literal whole fraction) := by
  have hpoint : Char.isDigit '.' = false := by decide
  have hread : read? (String.ofList (whole ++ '.' :: fraction)) =
      unsigned? (whole ++ '.' :: fraction) := by
    cases whole with
    | nil => exact absurd rfl hne
    | cons first rest => exact read?_of_digit (hwhole first List.mem_cons_self) _
  have hempty : (whole.isEmpty && fraction.isEmpty) = false := by
    rw [List.isEmpty_eq_false_iff.mpr hne, Bool.false_and]
  rw [hread, unsigned?, takeWhile_cut hpoint, dropWhile_cut hpoint,
    List.takeWhile_eq_self_iff.mpr hwhole, List.dropWhile_eq_nil_iff.mpr hwhole]
  simp only [List.nil_append, List.takeWhile_eq_self_iff.mpr hfraction,
    List.dropWhile_eq_nil_iff.mpr hfraction, hempty, exponent?, Bool.false_eq_true, if_false,
    Option.map_some, ofDecimal_eq_literal]

end Binary64

end PhasePortrait
