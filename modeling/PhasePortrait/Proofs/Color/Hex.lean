import PhasePortrait.Binary64.Basic
import PhasePortrait.Color.Hex
import PhasePortrait.Proofs.Ascii
import PhasePortrait.Proofs.Setup

/-!
# Which texts are colours

The text of a colour is said to be six hexadecimal digits behind a `#` that may be left out. That is
what writing makes, and every text of this form is read. But each part is read as a number in base
sixteen, and such a number may have a sign: the first of the two characters of a part may be a `+`,
which then counts as a zero (`Rgb.plus_is_read`). So the texts that are read are exactly those of
three parts, each of a digit or a `+` and of a digit (`Rgb.AreParts`), and what is said of them holds
for the texts without a `+`.

A colour that was read is written with the digits it was read from, and reads back as it is
(`Rgb.ofHex_reads_parts`): each of the 256 values of a part is one that rounding leaves alone.
-/

namespace PhasePortrait

namespace Text

/-- A hexadecimal digit, of either case. -/
def IsHexDigit (c : Char) : Prop :=
  ('0' ≤ c ∧ c ≤ '9') ∨ ('a' ≤ c ∧ c ≤ 'f') ∨ ('A' ≤ c ∧ c ≤ 'F')

instance (c : Char) : Decidable (IsHexDigit c) := inferInstanceAs (Decidable (_ ∨ _ ∨ _))

/-- Hexadecimal digits are characters of ASCII, so what holds of them is decided by looking at 128
characters. -/
theorem IsHexDigit.isAscii {c : Char} (h : IsHexDigit c) : c.toNat < 128 := by
  have hle : ∀ d : Char, c ≤ d → c.toNat ≤ d.toNat := fun d hd => hd
  obtain ⟨-, h⟩ | ⟨-, h⟩ | ⟨-, h⟩ := h
  · exact Nat.lt_of_le_of_lt (hle _ h) (by decide)
  · exact Nat.lt_of_le_of_lt (hle _ h) (by decide)
  · exact Nat.lt_of_le_of_lt (hle _ h) (by decide)

/-- The reader takes hexadecimal digits only. Its three ranges are those of the digits, so each of
its branches is one case. -/
theorem isHexDigit_of_hexDigit? {c : Char} {n : Nat} (h : hexDigit? c = some n) :
    IsHexDigit c := by
  unfold hexDigit? at h
  split at h
  next hdigit =>
    rw [Char.isDigit, Bool.and_eq_true, decide_eq_true_eq, decide_eq_true_eq] at hdigit
    exact .inl hdigit
  next =>
    split at h
    next hsmall => exact .inr (.inl hsmall)
    next =>
      split at h
      next hlarge => exact .inr (.inr hlarge)
      next => cases h

/-- **A digit is read, and is written in lower case.** -/
theorem exists_hexDigit? {c : Char} (h : IsHexDigit c) :
    ∃ n < 16, hexDigit? c = some n ∧ hexChar n = c.toLower := by
  have hascii := h.isAscii
  revert h
  apply forall_ascii (P := fun c => IsHexDigit c →
    ∃ n < 16, hexDigit? c = some n ∧ hexChar n = c.toLower) ?_ hascii
  decide

end Text

open Text

namespace Rgb

/-! ## Parts -/

/-- Two characters that are read as a part of a colour: a digit or a sign `+`, and a digit. -/
def IsPart (high low : Char) : Prop := (high = '+' ∨ IsHexDigit high) ∧ IsHexDigit low

/-- What a character of a part is written as. -/
def written (c : Char) : Char := if c = '+' then '0' else c.toLower

/-- A part that is read has the form of one: a sign or a digit, and then a digit. -/
theorem isPart_of_channelByte? {high low : Char} {n : Nat} (h : channelByte? high low = some n) :
    IsPart high low := by
  unfold channelByte? at h
  split at h
  next => exact ⟨.inl rfl, isHexDigit_of_hexDigit? h⟩
  next =>
    obtain ⟨_, hhigh, h⟩ := Option.bind_eq_some_iff.mp h
    obtain ⟨_, hlow, -⟩ := Option.bind_eq_some_iff.mp h
    exact ⟨.inr (isHexDigit_of_hexDigit? hhigh), isHexDigit_of_hexDigit? hlow⟩

theorem written_of_isHexDigit {c : Char} (h : IsHexDigit c) : written c = c.toLower := by
  have hne : c ≠ '+' := by
    rintro rfl
    exact absurd h (by decide)
  rw [written, if_neg hne]

/-- A part is read as a number of one byte, and writing that number gives the characters back: a
sign as zero, and digits in lower case. -/
theorem exists_channelByte? {high low : Char} (h : IsPart high low) :
    ∃ n < 256, channelByte? high low = some n ∧ hexPair n = [written high, written low] := by
  obtain ⟨hhigh, hlow⟩ := h
  obtain ⟨l, hl, hreadLow, hshownLow⟩ := exists_hexDigit? hlow
  rw [written_of_isHexDigit hlow, ← hshownLow]
  rcases hhigh with rfl | hhigh
  · refine ⟨l, by omega, hreadLow, ?_⟩
    have hzero : written '+' = hexChar 0 := by decide
    rw [hexPair, Nat.div_eq_of_lt hl, Nat.mod_eq_of_lt hl, hzero]
  · obtain ⟨k, hk, hreadHigh, hshownHigh⟩ := exists_hexDigit? hhigh
    rw [written_of_isHexDigit hhigh, ← hshownHigh]
    refine ⟨16 * k + l, by omega, ?_, ?_⟩
    · unfold channelByte?
      split
      next => exact absurd hhigh (by decide)
      next => rw [hreadHigh, hreadLow]; rfl
    · have hdiv : (16 * k + l) / 16 = k := by omega
      have hmod : (16 * k + l) % 16 = l := by omega
      rw [hexPair, hdiv, hmod]

theorem channelByte?_lt {high low : Char} {n : Nat} (h : channelByte? high low = some n) :
    n < 256 := by
  obtain ⟨m, hm, hread, -⟩ := exists_channelByte? (isPart_of_channelByte? h)
  obtain rfl := Option.some.inj (hread.symm.trans h)
  exact hm

/-- The two digits that a part is written as read back. -/
theorem channelByte?_hexPair {n : Nat} (h : n < 256) :
    channelByte? (hexChar (n / 16)) (hexChar (n % 16)) = some n := by
  have hhigh : n / 16 < 16 := by omega
  have hne : ∀ k < 16, hexChar k ≠ '+' := by decide
  unfold channelByte?
  split
  next hsign => exact absurd hsign (hne _ hhigh)
  next =>
    rw [hexDigit?_hexChar hhigh, hexDigit?_hexChar (Nat.mod_lt n (by decide))]
    exact congrArg some (Nat.div_add_mod n 16)

/-! ## Texts -/

/-- The text is some letters, with or without a `#` before them. -/
def Behind (text : String) (letters : List Char) : Prop :=
  text.toList = letters ∨ text.toList = '#' :: letters

theorem Behind.subset {text : String} {letters : List Char} (h : Behind text letters) :
    letters ⊆ text.toList := by
  rcases h with h | h <;> rw [h]
  · exact List.Subset.refl _
  · exact List.subset_cons_self _ _

/-- The letters are those of three parts. -/
def AreParts : List Char → Prop
  | [r₁, r₂, g₁, g₂, b₁, b₂] => IsPart r₁ r₂ ∧ IsPart g₁ g₂ ∧ IsPart b₁ b₂
  | _ => False

/-- The letters are six hexadecimal digits. -/
def AreSixDigits (letters : List Char) : Prop := letters.length = 6 ∧ ∀ c ∈ letters, IsHexDigit c

theorem AreSixDigits.areParts {letters : List Char} (h : AreSixDigits letters) :
    AreParts letters := by
  obtain ⟨hlength, hdigits⟩ := h
  match letters, hlength with
  | [_, _, _, _, _, _], _ =>
    simp only [List.forall_mem_cons] at hdigits
    obtain ⟨hr₁, hr₂, hg₁, hg₂, hb₁, hb₂, -⟩ := hdigits
    exact ⟨⟨.inr hr₁, hr₂⟩, ⟨.inr hg₁, hg₂⟩, .inr hb₁, hb₂⟩

/-- And three parts without a `+` are six digits: the sign is all that a part may have besides
digits. -/
theorem AreParts.areSixDigits {letters : List Char} (h : AreParts letters)
    (hsign : '+' ∉ letters) : AreSixDigits letters := by
  match letters, h with
  | [_, _, _, _, _, _], ⟨⟨hr₁, hr₂⟩, ⟨hg₁, hg₂⟩, hb₁, hb₂⟩ =>
    simp only [List.mem_cons, not_or, ← ne_eq] at hsign
    obtain ⟨hr, -, hg, -, hb, -⟩ := hsign
    refine ⟨rfl, ?_⟩
    simp only [List.forall_mem_cons]
    exact ⟨hr₁.resolve_left hr.symm, hr₂, hg₁.resolve_left hg.symm, hg₂,
      hb₁.resolve_left hb.symm, hb₂, List.forall_mem_nil _⟩

section Read

variable {α : Type} [Scalar α]

/-- A channel is read if its two characters are a part, and it has the value of their number. -/
theorem readChannel_eq_ok {channel : Channel} {text : String} {high low : Char} {part : α} :
    readChannel channel text high low = .ok part ↔
      ∃ n, channelByte? high low = some n ∧ part = (n : α) / 255.0 := by
  unfold readChannel
  split
  next n h => simp [h, eq_comm]
  next h => simp [h]

/-- The colour of three values of its parts. -/
def ofBytes (r g b : Nat) : Rgb α := ⟨(r : α) / 255.0, (g : α) / 255.0, (b : α) / 255.0⟩

/-- The letters of a text without a `#` before them. -/
def letters (text : String) : List Char :=
  match text.toList with
  | '#' :: rest => rest
  | letters => letters

/-- Every text is its letters with a `#` before them, or without one. -/
theorem behind_letters (text : String) : Behind text (letters text) := by
  unfold letters
  split
  next h => exact .inr h
  next => exact .inl rfl

/-- The letters behind a `#` are what reading makes of the text. Without a `#` the text has to be
taken as it is, so its letters must not start with another one. -/
theorem letters_of_behind {text : String} {digits : List Char} (h : Behind text digits)
    (hsign : digits.head? ≠ some '#') : letters text = digits := by
  unfold letters
  rcases h with h | h
  · rw [h]
    split
    next => exact absurd rfl hsign
    next => rfl
  · rw [h]
    rfl

/-- A part is in ASCII, so its characters are as many as its bytes. -/
theorem IsPart.isAscii {high low : Char} (h : IsPart high low) :
    high.toNat < 128 ∧ low.toNat < 128 := by
  refine ⟨?_, h.2.isAscii⟩
  rcases h.1 with rfl | hhigh
  · decide
  · exact hhigh.isAscii

/-- **What is read.** Six letters behind the `#` are three parts, each read as a number of its own.
Any other number of letters is refused, and so is a letter beyond ASCII. -/
theorem ofHex_eq_ok {text : String} {c : Rgb α} :
    ofHex text = .ok c ↔
      ∃ r₁ r₂ g₁ g₂ b₁ b₂ r g b, letters text = [r₁, r₂, g₁, g₂, b₁, b₂] ∧
        channelByte? r₁ r₂ = some r ∧ channelByte? g₁ g₂ = some g ∧
        channelByte? b₁ b₂ = some b ∧ c = ofBytes r g b := by
  have hofHex : (ofHex text : Except ColorFault (Rgb α)) =
      match letters text with
      | [r₁, r₂, g₁, g₂, b₁, b₂] =>
        if (letters text).all fun c => c.toNat < 128 then do
          let r ← readChannel .red text r₁ r₂
          let g ← readChannel .green text g₁ g₂
          let b ← readChannel .blue text b₁ b₂
          return ⟨r, g, b⟩
        else .error (.notSixDigits text)
      | _ => .error (.notSixDigits text) := rfl
  rw [hofHex]
  constructor
  · intro h
    split at h
    next r₁ r₂ g₁ g₂ b₁ b₂ hletters =>
      split at h
      next =>
        obtain ⟨_, hred, h⟩ := bind_eq_ok.mp h
        obtain ⟨_, hgreen, h⟩ := bind_eq_ok.mp h
        obtain ⟨_, hblue, h⟩ := bind_eq_ok.mp h
        obtain ⟨r, hr, rfl⟩ := readChannel_eq_ok.mp hred
        obtain ⟨g, hg, rfl⟩ := readChannel_eq_ok.mp hgreen
        obtain ⟨b, hb, rfl⟩ := readChannel_eq_ok.mp hblue
        exact ⟨r₁, r₂, g₁, g₂, b₁, b₂, r, g, b, hletters, hr, hg, hb, (Except.ok.inj h).symm⟩
      next => cases h
    next => cases h
  · rintro ⟨r₁, r₂, g₁, g₂, b₁, b₂, r, g, b, hletters, hr, hg, hb, rfl⟩
    have hascii : ((letters text).all fun c => decide (c.toNat < 128)) = true := by
      obtain ⟨hr₁, hr₂⟩ := (isPart_of_channelByte? hr).isAscii
      obtain ⟨hg₁, hg₂⟩ := (isPart_of_channelByte? hg).isAscii
      obtain ⟨hb₁, hb₂⟩ := (isPart_of_channelByte? hb).isAscii
      simp [hletters, hr₁, hr₂, hg₁, hg₂, hb₁, hb₂]
    rw [hascii, hletters]
    simp only [if_true, bind_eq_ok, readChannel_eq_ok]
    exact ⟨_, ⟨r, hr, rfl⟩, _, ⟨g, hg, rfl⟩, _, ⟨b, hb, rfl⟩, rfl⟩

end Read

/-! ## Reading and writing -/

/-- **A part that was read is not changed by rounding.** -/
theorem byte_div {n : Nat} (h : n < 256) : byte ((n : Float) / 255.0) = n := by
  revert n
  decide +kernel

/-- A colour whose parts are whole numbers of a byte is written with the pairs of digits for these
numbers. -/
theorem toHex_ofBytes {r g b : Nat} (hr : r < 256) (hg : g < 256) (hb : b < 256) :
    (ofBytes r g b : Rgb Float).toHex =
      String.ofList ('#' :: (hexPair r ++ hexPair g ++ hexPair b)) := by
  simp [toHex, bytes, ofBytes, byte_div hr, byte_div hg, byte_div hb]

/-- A colour that was read from some letters is written with them, in lower case and with zeros for
signs. Each part is a whole number of a byte, and rounding leaves these alone. -/
theorem exists_ofHex_of_parts {text : String} {digits : List Char} (hbehind : Behind text digits)
    (hparts : AreParts digits) :
    ∃ c : Rgb Float, ofHex text = .ok c ∧
      c.toHex = String.ofList ('#' :: digits.map written) := by
  match digits, hparts with
  | [r₁, r₂, g₁, g₂, b₁, b₂], ⟨hred, hgreen, hblue⟩ =>
    obtain ⟨r, hr, hreadRed, hshownRed⟩ := exists_channelByte? hred
    obtain ⟨g, hg, hreadGreen, hshownGreen⟩ := exists_channelByte? hgreen
    obtain ⟨b, hb, hreadBlue, hshownBlue⟩ := exists_channelByte? hblue
    have hsign : [r₁, r₂, g₁, g₂, b₁, b₂].head? ≠ some '#' := by
      rintro ⟨⟩
      exact absurd hred.1 (by decide)
    refine ⟨ofBytes r g b, ?_, ?_⟩
    · exact ofHex_eq_ok.mpr ⟨r₁, r₂, g₁, g₂, b₁, b₂, r, g, b, letters_of_behind hbehind hsign,
        hreadRed, hreadGreen, hreadBlue, rfl⟩
    · rw [toHex_ofBytes hr hg hb, hshownRed, hshownGreen, hshownBlue]
      rfl

/-- What was read was read from three parts. -/
theorem areParts_of_ofHex {α : Type} [Scalar α] {text : String} {c : Rgb α}
    (h : ofHex text = .ok c) : AreParts (letters text) := by
  obtain ⟨r₁, r₂, g₁, g₂, b₁, b₂, r, g, b, hletters, hr, hg, hb, -⟩ := ofHex_eq_ok.mp h
  rw [hletters]
  exact ⟨isPart_of_channelByte? hr, isPart_of_channelByte? hg, isPart_of_channelByte? hb⟩

/-- **What was read reads back.** It is written with six digits behind a `#`, and these are parts;
the colour is that of the same numbers. -/
theorem ofHex_toHex {text : String} {c : Rgb Float} (h : ofHex text = .ok c) :
    (ofHex c.toHex : Except ColorFault (Rgb Float)) = .ok c := by
  obtain ⟨_, _, _, _, _, _, r, g, b, -, hred, hgreen, hblue, rfl⟩ := ofHex_eq_ok.mp h
  have hr := channelByte?_lt hred
  have hg := channelByte?_lt hgreen
  have hb := channelByte?_lt hblue
  rw [toHex_ofBytes hr hg hb]
  exact ofHex_eq_ok.mpr ⟨_, _, _, _, _, _, r, g, b, by rw [letters, String.toList_ofList]; rfl,
    channelByte?_hexPair hr, channelByte?_hexPair hg, channelByte?_hexPair hb, rfl⟩

/-- **Which texts are colours.** A text is read if and only if it is three parts, each of a digit or
a `+` and of a digit, behind a `#` or not; without a `+`, if and only if it is six hexadecimal
digits, behind a `#` or not. A colour that was read from six digits is written as these digits in
lower case, behind a `#`; one that was read from parts with a `+` has zeros there. What was read is
written so that it reads back. -/
theorem ofHex_reads_parts (text : String) :
    ((∃ c : Rgb Float, ofHex text = .ok c) ↔
      ∃ digits, Behind text digits ∧ AreParts digits) ∧
    ('+' ∉ text.toList → ((∃ c : Rgb Float, ofHex text = .ok c) ↔
      ∃ digits, Behind text digits ∧ AreSixDigits digits)) ∧
    (∀ digits, Behind text digits → AreSixDigits digits → ∃ c : Rgb Float, ofHex text = .ok c ∧
      c.toHex = String.ofList ('#' :: digits.map Char.toLower)) ∧
    (∀ digits, Behind text digits → AreParts digits → ∃ c : Rgb Float, ofHex text = .ok c ∧
      c.toHex = String.ofList ('#' :: digits.map written)) ∧
    ∀ c : Rgb Float, ofHex text = .ok c →
      (ofHex c.toHex : Except ColorFault (Rgb Float)) = .ok c := by
  have hiff : (∃ c : Rgb Float, ofHex text = .ok c) ↔
      ∃ digits, Behind text digits ∧ AreParts digits := by
    constructor
    · rintro ⟨c, hc⟩
      exact ⟨letters text, behind_letters text, areParts_of_ofHex hc⟩
    · rintro ⟨digits, hbehind, hparts⟩
      obtain ⟨c, hc, -⟩ := exists_ofHex_of_parts hbehind hparts
      exact ⟨c, hc⟩
  refine ⟨hiff, ?_, ?_, fun _ => exists_ofHex_of_parts, fun _ => ofHex_toHex⟩
  · intro hsign
    rw [hiff]
    constructor
    · rintro ⟨digits, hbehind, hparts⟩
      exact ⟨digits, hbehind, hparts.areSixDigits fun h => hsign (hbehind.subset h)⟩
    · rintro ⟨digits, hbehind, hdigits⟩
      exact ⟨digits, hbehind, hdigits.areParts⟩
  · intro digits hbehind hdigits
    obtain ⟨c, hc, hhex⟩ := exists_ofHex_of_parts hbehind hdigits.areParts
    refine ⟨c, hc, ?_⟩
    rw [hhex, List.map_congr_left fun d hd => written_of_isHexDigit (hdigits.2 d hd)]

/-- A text that is not six digits and is read. -/
theorem plus_is_read :
    (∃ c : Rgb Float, ofHex "#+f0000" = .ok c) ∧
      ¬∃ digits, Behind "#+f0000" digits ∧ AreSixDigits digits := by
  constructor
  · refine ⟨ofBytes 15 0 0, ofHex_eq_ok.mpr
      ⟨'+', 'f', '0', '0', '0', '0', 15, 0, 0, ?_, ?_, ?_, ?_, rfl⟩⟩ <;> decide
  · rintro ⟨digits, rfl | hbehind, hlength, hdigits⟩
    · exact absurd hlength (by decide)
    · obtain rfl := List.tail_eq_of_cons_eq hbehind
      exact absurd (hdigits '+' (by decide)) (by decide)

end Rgb

end PhasePortrait
