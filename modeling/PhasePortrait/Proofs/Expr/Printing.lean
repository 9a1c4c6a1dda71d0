import PhasePortrait.Proofs.Binary64.ReadBack
import PhasePortrait.Proofs.Expr.Separators

/-!
# Tokens read back from their texts

The text of a token is scanned as that token alone, if the token can be scanned from any text
(`Token.IsScannable`). A space belongs to no token and ends whatever stands before it, so tokens
that are written with spaces between them neither merge nor split: **they are scanned as they are**
(`tokens_read_back`).

Every token that was scanned is one that can be, unless it is a number that was too large. So to
scan, to write and to scan again is to scan once.
-/

namespace PhasePortrait.Expr

/-- The texts of tokens, with a space between any two. -/
def spaced {α : Type} [Numeral α] (tokens : List (Token α)) : String :=
  " ".intercalate (tokens.map Token.text)

/-- A token that can be scanned from a text. A number is finite and has no sign bit, so that it
prints as a numeral: "minus zero" prints with a minus sign, which is a token of its own. -/
def Token.IsScannable : Token Float → Prop
  | .number value => value.isFinite = true ∧ (Binary64.parts value).negative = false
  | .unknown word => word ≠ "" ∧ (∀ c ∈ word.toList, c.isAlpha = true) ∧
      (∀ v : Var, v.name ≠ word) ∧ ∀ f : Func, f.name ≠ word
  | .var _ | .func _ | .symbol _ => True

/-! ## One token -/

section Words

variable {α : Type} {word : String}

theorem ofWord_of_no_name (hvar : ∀ v : Var, v.name ≠ word) (hfunc : ∀ f : Func, f.name ≠ word) :
    Token.ofWord (α := α) word = .unknown word := by
  have hvars : (Var.all.find? fun v => v.name == word) = none :=
    List.find?_eq_none.mpr fun v _ => by simp [hvar v]
  have hfuncs : (Func.all.find? fun f => f.name == word) = none :=
    List.find?_eq_none.mpr fun f _ => by simp [hfunc f]
  rw [Token.ofWord, hvars, hfuncs]

theorem isScannable_ofWord (hne : word ≠ "") (hword : ∀ c ∈ word.toList, c.isAlpha = true) :
    (Token.ofWord (α := Float) word).IsScannable := by
  unfold Token.ofWord
  split
  next => trivial
  next hvars =>
    split
    next => trivial
    next hfuncs =>
      rw [List.find?_eq_none] at hvars hfuncs
      refine ⟨hne, hword, fun v hv => hvars v ?_ (beq_iff_eq.mpr hv), fun f hf =>
        hfuncs f ?_ (beq_iff_eq.mpr hf)⟩
      · cases v <;> decide
      · cases f <;> decide

end Words

theorem tokenize_numeral {α : Type} [Scalar α] {text whole fraction : List Char}
    (h : Decimal.IsNumeral text whole fraction) :
    tokenize (α := α) text = [.number (literal whole fraction)] := by
  obtain ⟨hne, hwhole, hfraction, ⟨rfl, rfl⟩ | rfl⟩ := h
  · exact tokenize_whole hne hwhole
  · exact tokenize_fraction hne hwhole hfraction

/-- **The text of a token is scanned as the token.** Numbers are the case that matters: what is
written of one is the shortest decimal that is read back, and it has no sign. -/
theorem Token.IsScannable.tokenize_text {t : Token Float} (h : t.IsScannable) :
    tokenize t.text.toList = [t] := by
  cases t with
  | number value =>
    obtain ⟨whole, fraction, hnumeral, hvalue⟩ := Binary64.plain_reads_back h.1 h.2
    have hscan := tokenize_numeral (α := Float) hnumeral
    rw [hvalue] at hscan
    exact hscan
  | var v => exact tokenize_var v
  | func f => exact tokenize_func f
  | symbol s =>
    have hcut := tokenize_symbol (α := Float) s [] []
    rw [tokenize] at hcut
    rw [Token.text, String.toList_singleton]
    exact hcut
  | unknown word =>
    obtain ⟨hne, hword, hvar, hfunc⟩ := h
    have hne' : word.toList ≠ [] := fun hnil => hne (String.toList_eq_nil_iff.mp hnil)
    have hscan := tokenize_word (α := Float) hne' hword
    rwa [String.ofList_toList, ofWord_of_no_name hvar hfunc] at hscan

/-! ## Tokens in a row -/

theorem tokenize_spaced {tokens : List (Token Float)} (h : ∀ t ∈ tokens, t.IsScannable) :
    tokenize (spaced tokens).toList = tokens := by
  have hspace : Skipped ' ' := by decide
  induction tokens with
  | nil => simp [spaced, tokenize]
  | cons t rest ih =>
    obtain ⟨ht, hrest⟩ := List.forall_mem_cons.mp h
    cases rest with
    | nil => simpa [spaced] using ht.tokenize_text
    | cons next rest =>
      have htext : (spaced (t :: next :: rest)).toList =
          t.text.toList ++ ' ' :: (spaced (next :: rest)).toList := by
        simp [spaced, String.intercalate_cons_cons]
      rw [htext, tokenize_cut hspace.1, hspace.symbolTokens_eq, ht.tokenize_text, ih hrest]
      rfl

/-! ## Scanned tokens -/

theorem exists_literal_scanNumber {α : Type} [Scalar α] (first : Char) (text : List Char) :
    ∃ whole fraction, (scanNumber (α := α) first text).1 = literal whole fraction := by
  unfold scanNumber
  dsimp only
  split <;> exact ⟨_, _, rfl⟩

theorem isScannable_scanToken {first : Char} {text : List Char} {t : Token Float}
    (h : (scanToken first text).1 = some t) (hfinite : ∀ value, t = .number value →
      value.isFinite = true) : t.IsScannable := by
  unfold scanToken at h
  split at h
  next =>
    obtain ⟨whole, fraction, hvalue⟩ := exists_literal_scanNumber (α := Float) first text
    obtain rfl := Option.some.inj h
    rw [hvalue] at hfinite ⊢
    exact ⟨hfinite _ rfl, Binary64.negative_parts_literal (hfinite _ rfl)⟩
  next =>
    split at h
    next hfirst =>
      obtain rfl := Option.some.inj h
      refine isScannable_ofWord (by simp [scanWord]) fun c hc => ?_
      rw [scanWord, String.toList_ofList] at hc
      rcases List.mem_cons.mp hc with rfl | hc
      · exact hfirst
      · exact List.mem_takeWhile_imp hc
    next =>
      obtain ⟨s, -, rfl⟩ := Option.map_eq_some_iff.mp h
      trivial

/-- **What was scanned can be scanned again**, but for numbers that were too large. A name is one of
those known or has letters alone, and a number that was read from digits has no sign. -/
theorem isScannable_of_mem_tokenize {source : List Char}
    (hfinite : ∀ value, Token.number value ∈ tokenize (α := Float) source →
      value.isFinite = true) : ∀ t ∈ tokenize source, t.IsScannable := by
  induction source using tokenize.induct (α := Float) with
  | case1 =>
    intro t ht
    rw [tokenize] at ht
    exact absurd ht List.not_mem_nil
  | case2 first rest ih =>
    rw [tokenize_cons] at hfinite ⊢
    intro t ht
    rcases List.mem_append.mp ht with hfirst | hrest
    · refine isScannable_scanToken (Option.mem_toList.mp hfirst) fun value hvalue =>
        hfinite value (List.mem_append_left _ ?_)
      rwa [hvalue] at hfirst
    · exact ih (fun value hvalue => hfinite value (List.mem_append_right _ hvalue)) t hrest

/-- **Tokens read back from their texts.** Written with spaces between them, tokens that can be
scanned are scanned as they are, in their order and with nothing between them. Those of any text are
such, if none of its numbers is too large: what was scanned and written is scanned again alike. -/
theorem tokens_read_back :
    (∀ tokens : List (Token Float), (∀ t ∈ tokens, t.IsScannable) →
      tokenize (spaced tokens).toList = tokens) ∧
    ∀ source : List Char,
      (∀ value, Token.number value ∈ tokenize (α := Float) source → value.isFinite = true) →
      tokenize (spaced (tokenize (α := Float) source)).toList = tokenize (α := Float) source :=
  ⟨fun _ => tokenize_spaced, fun _ hfinite => tokenize_spaced (isScannable_of_mem_tokenize hfinite)⟩

/-- A multiple of a word that is no name reads back. So do the tokens of a text in which a point
stands before a number and is passed over. -/
theorem word_and_point_read_back :
    (∀ t ∈ [Token.number 2.5, .symbol .times, .unknown "xy"], t.IsScannable) ∧
    tokenize (spaced [Token.number (2.5 : Float), .symbol .times, .unknown "xy"]).toList =
      [.number 2.5, .symbol .times, .unknown "xy"] ∧
    (∀ value, Token.number value ∈ tokenize (α := Float) ".5*x".toList → value.isFinite = true) ∧
    tokenize (spaced (tokenize (α := Float) ".5*x".toList)).toList =
      tokenize (α := Float) ".5*x".toList := by
  have htokens : ∀ t ∈ [Token.number 2.5, .symbol .times, .unknown "xy"], t.IsScannable := by
    simp only [List.forall_mem_cons, List.not_mem_nil, false_imp_iff, implies_true, and_true]
    exact ⟨⟨by decide, by decide⟩, trivial, by decide, List.all_eq_true.mp (by decide),
      by rintro ⟨⟩ <;> decide, by rintro ⟨⟩ <;> decide⟩
  have hsource : ∀ value, Token.number value ∈ tokenize (α := Float) ".5*x".toList →
      value.isFinite = true := by
    have hscan : tokenize (α := Float) ".5*x".toList =
        [.number (literal ['5'] []), .symbol .times, .var .x] := by
      simp [tokenize, scanToken, scanNumber, scanWord]
      rfl
    rw [hscan]
    intro value hvalue
    obtain rfl : value = literal ['5'] [] := by simpa using hvalue
    decide
  exact ⟨htokens, tokens_read_back.1 _ htokens, hsource, tokens_read_back.2 _ hsource⟩

end PhasePortrait.Expr
