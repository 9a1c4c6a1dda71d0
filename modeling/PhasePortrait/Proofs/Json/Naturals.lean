import PhasePortrait.Json.Print
import PhasePortrait.Json.Source

/-!
# Whole numbers in JSON texts

A whole number is written as its decimal digits and nothing else. Wherever a value may stand, these
digits are read again, up to the first character that cannot go on with a number (`EndsNumber`), and
where 64 bits hold the number they stand for it (`Literal.number?_ofNat`).

The other way round, nothing that 64 bits do not hold is ever read as a whole number
(`Literal.lt_of_number?`): longer literals are no whole numbers any more.
-/

namespace PhasePortrait.Json

namespace Literal

/-- A digit more is taken as long as 64 bits hold the number, and left where they do not. -/
theorem takeDigits_cons (n : Nat) (c : Char) (rest : List Char) :
    takeDigits n (c :: rest) =
      if 10 * n + (c.toNat - 48) < UInt64.size then takeDigits (10 * n + (c.toNat - 48)) rest
      else (n, c :: rest) := by
  simp [takeDigits, Binary64.digitsValue]

/-- All digits are taken, if 64 bits hold what they stand for. Fewer digits stand for less, so none
of them is refused on the way. -/
theorem takeDigits_of_lt {digits : List Char} {n : Nat}
    (h : Nat.ofDigitChars 10 digits n < UInt64.size) :
    takeDigits n digits = (Nat.ofDigitChars 10 digits n, []) := by
  induction digits generalizing n with
  | nil => rfl
  | cons c rest ih =>
    rw [Nat.ofDigitChars_cons] at h ⊢
    change Nat.ofDigitChars 10 rest (10 * n + (c.toNat - 48)) < UInt64.size at h
    have hfirst : 10 * n + (c.toNat - 48) < UInt64.size := by
      refine Nat.lt_of_le_of_lt ?_ h
      rw [Nat.ofDigitChars_eq_ofDigitChars_zero]
      have hpow : 0 < 10 ^ rest.length := Nat.pow_pos (by decide)
      have hscale := Nat.le_mul_of_pos_left (10 * n + (c.toNat - 48)) hpow
      omega
    rw [takeDigits_cons, if_pos hfirst]
    exact ih h

/-- What is taken is held by 64 bits, whatever the digits are. -/
theorem takeDigits_lt {n : Nat} (hn : n < UInt64.size) (digits : List Char) :
    (takeDigits n digits).1 < UInt64.size := by
  induction digits generalizing n with
  | nil => exact hn
  | cons c rest ih =>
    rw [takeDigits_cons]
    split
    next hlonger => exact ih hlonger
    next => exact hn

/-- A literal that is a whole number is one that 64 bits hold. Digits are taken only while they fit,
and a literal with more of them is a decimal number. -/
theorem lt_of_number? {literal : Literal} {n : Nat} (h : literal.number? = some (.natural n)) :
    n < UInt64.size := by
  have hdigits : literal.decimal.digits < UInt64.size :=
    takeDigits_lt (takeDigits_lt (by decide) _) _
  unfold number? at h
  dsimp only at h
  split at h
  · cases h
    exact hdigits
  · split at h
    · cases h
    · obtain ⟨x, -, hx⟩ := Option.map_eq_some_iff.mp h
      cases hx

/-- The literal that a whole number is written as. -/
def ofNat (n : Nat) : Literal where
  negative := false
  whole := Nat.toDigits 10 n
  fraction := []
  exponent := none

/-- The literal of a whole number that 64 bits hold stands for that number. -/
theorem number?_ofNat {n : Nat} (hn : n < UInt64.size) :
    (ofNat n).number? = some (.natural n) := by
  have hvalue : Nat.ofDigitChars 10 (Nat.toDigits 10 n) 0 = n := Nat.ofDigitChars_ten_toDigits
  have htaken : takeDigits 0 (Nat.toDigits 10 n) = (n, []) := by
    rw [takeDigits_of_lt (by rwa [hvalue]), hvalue]
  simp [number?, decimal, isWhole, ofNat, htaken, takeDigits]

end Literal

namespace Source

/-! ## Blanks in a text -/

theorem skipBlanks_cons {c : Char} (hc : isBlank c = false) (rest : List Char) :
    skipBlanks (c :: rest) = c :: rest := by
  simp [skipBlanks, hc]

theorem skipBlanks_append {blanks : List Char} (hblanks : ∀ c ∈ blanks, isBlank c = true)
    (text : List Char) : skipBlanks (blanks ++ text) = skipBlanks text :=
  List.dropWhile_append_of_pos hblanks

/-- A value may stand after any blanks. -/
theorem value?_append_blanks {blanks : List Char} (hblanks : ∀ c ∈ blanks, isBlank c = true)
    (fuel : Nat) (text : List Char) : value? fuel (blanks ++ text) = value? fuel text := by
  cases fuel with
  | zero => rfl
  | succ fuel => simp only [value?, skipBlanks_append hblanks]

/-! ## Digits in a text -/

/-- Whether a text cannot go on with a number. -/
def EndsNumber (rest : List Char) : Prop :=
  ∀ c ∈ rest.head?, c.isDigit = false ∧ c ≠ '.' ∧ c ≠ 'e' ∧ c ≠ 'E'

theorem isDigit_of_mem_digits {n : Nat} {c : Char} (hc : c ∈ Nat.toDigits 10 n) :
    c.isDigit = true :=
  Nat.isDigit_of_mem_toDigits (by decide) (by decide) hc

/-- A whole number starts with a digit, and only zero with a zero. So what is written of it is a
literal: these may not start with a zero and go on. -/
theorem exists_first_digit (n : Nat) :
    ∃ first more, Nat.toDigits 10 n = first :: more ∧ first.isDigit = true ∧
      (first = '0' → n = 0) := by
  induction n using Nat.strongRecOn with
  | ind n ih =>
    rw [Nat.toDigits_eq_if (by decide)]
    split
    next hsmall =>
      refine ⟨_, [], rfl, ?_, Nat.digitChar_eq_zero.mp⟩
      rw [Nat.isDigit_digitChar]
      exact decide_eq_true hsmall
    next hlarge =>
      obtain ⟨first, more, hdigits, hfirst, hzero⟩ := ih (n / 10) (by omega)
      rw [hdigits]
      refine ⟨first, more ++ _, rfl, hfirst, fun h => ?_⟩
      have hquotient := hzero h
      omega

variable {rest : List Char}

/-- The digits of a number are read up to a character that is none. What stands behind them does not
go on with them, by assumption, and all of them are taken. -/
theorem digits?_append (hrest : EndsNumber rest) (n : Nat) :
    digits? (Nat.toDigits 10 n ++ rest) = some (Nat.toDigits 10 n, rest) := by
  have hstop : rest.takeWhile Char.isDigit = [] ∧ rest.dropWhile Char.isDigit = rest := by
    cases rest with
    | nil => exact ⟨rfl, rfl⟩
    | cons c rest =>
      obtain ⟨hdigit, -⟩ := hrest c rfl
      simp [hdigit]
  have htake : (Nat.toDigits 10 n ++ rest).takeWhile Char.isDigit = Nat.toDigits 10 n := by
    rw [List.takeWhile_append_of_pos fun c hc => isDigit_of_mem_digits hc, hstop.1, List.append_nil]
  have hdrop : (Nat.toDigits 10 n ++ rest).dropWhile Char.isDigit = rest := by
    rw [List.dropWhile_append_of_pos fun c hc => isDigit_of_mem_digits hc, hstop.2]
  unfold digits?
  rw [htake, hdrop]
  split
  next hnil => exact absurd hnil Nat.toDigits_ne_nil
  next => rfl

/-- Where no zero stands before another digit, the whole part is a run of digits. -/
theorem whole?_of_no_zero {text : List Char}
    (h : ∀ c rest, text = '0' :: c :: rest → c.isDigit = false) : whole? text = digits? text := by
  unfold whole?
  split
  next c rest =>
    have hdigit := h c rest rfl
    simp [hdigit, digits?]
  next => rfl

/-- The whole part of a literal is read as the digits of the number, which have no zero in front.
The number zero is the one whose only digit is a zero. -/
theorem whole?_append (hrest : EndsNumber rest) (n : Nat) :
    whole? (Nat.toDigits 10 n ++ rest) = some (Nat.toDigits 10 n, rest) := by
  rw [whole?_of_no_zero, digits?_append hrest]
  intro c tail htext
  obtain ⟨first, more, hdigits, -, hzero⟩ := exists_first_digit n
  rw [hdigits, List.cons_append, List.cons.injEq] at htext
  -- The zero is all of the digits, and what follows it is the rest.
  obtain rfl := hzero htext.1
  have hmore : more = [] := by
    rw [Nat.toDigits_zero, List.cons.injEq] at hdigits
    exact hdigits.2.symm
  rw [hmore, List.nil_append] at htext
  rw [htext.2] at hrest
  exact (hrest c rfl).1

/-- **The digits of a whole number are read as its literal**, and no further. No point and no
exponent stands behind them, so the literal is a whole number. -/
theorem number?_append (hrest : EndsNumber rest) (n : Nat) :
    number? (Nat.toDigits 10 n ++ rest) = some (.number (Literal.ofNat n), rest) := by
  have hfraction : fraction? rest = some ([], rest) := by
    unfold fraction?
    split
    next => exact absurd rfl (hrest '.' rfl).2.1
    next => rfl
  have hexponent : exponent? rest = some (none, rest) := by
    unfold exponent?
    split
    · rfl
    next mark tail =>
      obtain ⟨-, -, hlower, hupper⟩ := hrest mark rfl
      simp [hlower, hupper]
  have hwhole := whole?_append hrest n
  obtain ⟨first, more, hdigits, hfirst, -⟩ := exists_first_digit n
  rw [hdigits, List.cons_append] at hwhole ⊢
  have hsign : first ≠ '-' := by
    rintro rfl
    revert hfirst
    decide
  unfold number?
  split
  next heq =>
    split at heq
    next htext => exact absurd (List.cons.inj htext).1 hsign
    next =>
      cases heq
      simp [hwhole, hfraction, hexponent, Literal.ofNat, hdigits]

/-- A digit starts a number. Each other kind of value starts with a character of its own, and none
of these is a digit. -/
theorem value?_of_isDigit {c : Char} (hc : c.isDigit = true) (fuel : Nat) (rest : List Char) :
    value? (fuel + 1) (c :: rest) = number? (c :: rest) := by
  have hother : ∀ d : Char, d.isDigit = false → c ≠ d := by
    rintro d hd rfl
    rw [hc] at hd
    cases hd
  have hblank : isBlank c = false := by
    simp [isBlank, hother ' ', hother '\n', hother '\t', hother '\r']
  unfold value?
  rw [skipBlanks_cons hblank]
  -- Every other value starts with a character that is no digit.
  split <;> first
    | rfl
    | next heq => exact absurd (List.cons.inj heq).1 (hother _ (by decide))

/-- A whole number where a value may stand is read as its literal. -/
theorem value?_digits (hrest : EndsNumber rest) (fuel n : Nat) :
    value? (fuel + 1) (Nat.toDigits 10 n ++ rest) =
      some (.number (Literal.ofNat n), rest) := by
  have hnumber := number?_append hrest n
  obtain ⟨first, more, hdigits, hfirst, -⟩ := exists_first_digit n
  rw [hdigits, List.cons_append] at hnumber ⊢
  rw [value?_of_isDigit hfirst, hnumber]

end Source

end PhasePortrait.Json
