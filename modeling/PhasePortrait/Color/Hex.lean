import PhasePortrait.Color.Basic
import PhasePortrait.Text.Hex
import PhasePortrait.Text.Quoted

/-!
# Colours as hexadecimal digits

The text of a colour is `#` and two hexadecimal digits per part. A reader may leave out the `#`. A
part is read as a number in base sixteen, for which a sign `+` may stand before the digit.
-/

namespace PhasePortrait

/-- A part of a colour. -/
inductive Channel where
  | red
  | green
  | blue
deriving DecidableEq, Repr

/-- The name of a part. -/
def Channel.name : Channel → String
  | red => "red"
  | green => "green"
  | blue => "blue"

/-- Why a text is no colour. The text is kept as it was given. -/
inductive ColorFault where
  /-- It has not six ASCII characters after the `#`. -/
  | notSixDigits (text : String)
  /-- The two characters of a part are no number. -/
  | badChannel (channel : Channel) (text : String)
deriving DecidableEq, Repr

/-- What is told to the user. -/
def ColorFault.message : ColorFault → String
  | notSixDigits text => "expected 6 hex digits, got " ++ Text.quoted text
  | badChannel channel text =>
    "invalid " ++ channel.name ++ " in " ++ Text.quoted text ++ ": invalid digit found in string"

namespace Rgb

variable {α : Type} [Scalar α]

/-- The text of a colour, in lower case. -/
def toHex (c : Rgb α) : String := String.ofList ('#' :: c.bytes.flatMap Text.hexPair)

/-- The whole number that two characters are in base sixteen. -/
def channelByte? : Char → Char → Option Nat
  | '+', low => Text.hexDigit? low
  | high, low => do return 16 * (← Text.hexDigit? high) + (← Text.hexDigit? low)

/-- The part of a colour that two characters give. -/
def readChannel (channel : Channel) (text : String) (high low : Char) : Except ColorFault α :=
  match channelByte? high low with
  | some n => .ok ((n : α) / 255.0)
  | none => .error (.badChannel channel text)

/-- The colour of a text. -/
def ofHex (text : String) : Except ColorFault (Rgb α) :=
  let digits := match text.toList with
    | '#' :: rest => rest
    | letters => letters
  match digits with
  | [r₁, r₂, g₁, g₂, b₁, b₂] =>
    if digits.all fun c => c.toNat < 128 then do
      let r ← readChannel .red text r₁ r₂
      let g ← readChannel .green text g₁ g₂
      let b ← readChannel .blue text b₁ b₂
      return ⟨r, g, b⟩
    else .error (.notSixDigits text)
  | _ => .error (.notSixDigits text)

end Rgb

end PhasePortrait
