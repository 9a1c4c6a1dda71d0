import PhasePortrait.Binary64.Basic

/-!
# Reading binary64 values

A decimal reads as the value nearest it. The written forms are a sign, digits with a point before,
among or after them, and an exponent; or the names of the values that are not finite, in any case.
-/

namespace PhasePortrait.Binary64

/-- The value of a run of digits read as one whole number. -/
def digitsValue (digits : List Char) : Nat :=
  digits.foldl (fun n c => 10 * n + (c.toNat - 48)) 0

/-- The value nearest `digits * 10 ^ exponent`. -/
def ofDecimal (digits : Nat) (exponent : Int) : Float :=
  if exponent ≤ 0 then OfScientific.ofScientific digits true (-exponent).toNat
  else OfScientific.ofScientific digits false exponent.toNat

/-- A sign, if there is one, and what follows it. -/
def takeSign : List Char → Bool × List Char
  | '-' :: rest => (true, rest)
  | '+' :: rest => (false, rest)
  | rest => (false, rest)

/-- The exponent that a text is, all of it: nothing, or a mark, a sign and at least one digit. -/
def exponent? : List Char → Option Int
  | [] => some 0
  | mark :: rest =>
    if mark == 'e' || mark == 'E' then
      let (negative, digits) := takeSign rest
      if digits.isEmpty || !digits.all Char.isDigit then none
      else
        let size := (digitsValue digits : Int)
        some (if negative then -size else size)
    else none

/-- The value of an unsigned decimal text, with at least one digit before or after the point. -/
def unsigned? (text : List Char) : Option Float :=
  let whole := text.takeWhile Char.isDigit
  let (fraction, rest) := match text.dropWhile Char.isDigit with
    | '.' :: rest => (rest.takeWhile Char.isDigit, rest.dropWhile Char.isDigit)
    | rest => ([], rest)
  if whole.isEmpty && fraction.isEmpty then none
  else (exponent? rest).map fun exponent =>
    ofDecimal (digitsValue (whole ++ fraction)) (exponent - fraction.length)

/-- The value that a text is, all of it. -/
def read? (text : String) : Option Float :=
  let (negative, body) := takeSign text.toList
  let name := body.map Char.toLower
  let size :=
    if name = "inf".toList ∨ name = "infinity".toList then some infinity
    else if name = "nan".toList then some notANumber
    else unsigned? body
  size.map fun x => if negative then -x else x

end PhasePortrait.Binary64
