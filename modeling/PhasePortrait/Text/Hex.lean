/-!
# Hexadecimal digits
-/

namespace PhasePortrait.Text

/-- The value of a hexadecimal digit, of either case. -/
def hexDigit? (c : Char) : Option Nat :=
  if c.isDigit then some (c.toNat - 48)
  else if 'a' ≤ c ∧ c ≤ 'f' then some (c.toNat - 87)
  else if 'A' ≤ c ∧ c ≤ 'F' then some (c.toNat - 55)
  else none

/-- The hexadecimal digit of a value below 16, in lower case. -/
def hexChar (n : Nat) : Char := Nat.digitChar n

/-- The two hexadecimal digits of a value below 256. -/
def hexPair (n : Nat) : List Char := [hexChar (n / 16), hexChar (n % 16)]

/-- A digit reads back. -/
theorem hexDigit?_hexChar {n : Nat} (h : n < 16) : hexDigit? (hexChar n) = some n := by
  revert n; decide

end PhasePortrait.Text
