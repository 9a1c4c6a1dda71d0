import PhasePortrait.Binary64.Read
import PhasePortrait.Expr.Token

/-!
# Scanning

A text is cut into numbers, words and symbols, each as long as it can be; every other character is
passed over. Nothing is refused here: a word that names nothing becomes a token of its own.

Each step reads at least one character, which is what ends the scan.
-/

namespace PhasePortrait.Expr

variable {α : Type}

/-- The number written with these digits before and after the point. -/
def literal [Scalar α] (whole fraction : List Char) : α :=
  OfScientific.ofScientific (Binary64.digitsValue (whole ++ fraction)) true fraction.length

/-- The number that starts with a digit, and the text after it. A point belongs to the number, with
or without digits behind it. -/
def scanNumber [Scalar α] (first : Char) (text : List Char) : α × List Char :=
  let whole := first :: text.takeWhile Char.isDigit
  match text.dropWhile Char.isDigit with
  | '.' :: rest => (literal whole (rest.takeWhile Char.isDigit), rest.dropWhile Char.isDigit)
  | rest => (literal whole [], rest)

/-- The word that starts with a letter, and the text after it. -/
def scanWord (first : Char) (text : List Char) : String × List Char :=
  (String.ofList (first :: text.takeWhile Char.isAlpha), text.dropWhile Char.isAlpha)

/-- The token that starts with a character, if one does, and the text after it. -/
def scanToken [Scalar α] (first : Char) (text : List Char) : Option (Token α) × List Char :=
  if first.isDigit then
    let (value, rest) := scanNumber first text
    (some (.number value), rest)
  else if first.isAlpha then
    let (word, rest) := scanWord first text
    (some (.ofWord word), rest)
  else ((Symbol.ofChar? first).map .symbol, text)

theorem scanNumber_length_le [Scalar α] (first : Char) (text : List Char) :
    (scanNumber (α := α) first text).2.length ≤ text.length := by
  have hdrop : ∀ l : List Char, (l.dropWhile Char.isDigit).length ≤ l.length := fun l =>
    (List.dropWhile_sublist _).length_le
  have h := hdrop text
  unfold scanNumber
  split
  next rest heq =>
    have := hdrop rest
    rw [heq] at h
    simp only [List.length_cons] at h ⊢
    omega
  next => exact h

/-- A step leaves no more text than it is given behind its first character. -/
theorem scanToken_length_le [Scalar α] (first : Char) (text : List Char) :
    (scanToken (α := α) first text).2.length ≤ text.length := by
  unfold scanToken
  split
  · exact scanNumber_length_le first text
  · split
    · exact (List.dropWhile_sublist _).length_le
    · exact Nat.le_refl _

/-- The tokens of a text. -/
def tokenize [Scalar α] (text : List Char) : List (Token α) :=
  match text with
  | [] => []
  | first :: rest =>
    (scanToken first rest).1.toList ++ tokenize (scanToken (α := α) first rest).2
termination_by text.length
decreasing_by
  have := scanToken_length_le (α := α) first rest
  simp only [List.length_cons]
  omega

end PhasePortrait.Expr
