/-
The tokens of a text are its literals and marks, with blanks between them.

* `skipText_written`, `exists_pieces`: the end of a text literal is found exactly after its pieces;
* `textValue_written`: and what it says is what the pieces say together;
* `lexUnsigned_written`, `exists_unsigned`: the same for number literals;
* `lex_text`, `lex_number`: a literal is one token, whatever its form;
* `exists_written_of_lex`: a token that is not broken is written where it was found, after blanks.
-/
import Rollout.Proofs.Except
import Rollout.Proofs.Json.Grammar
import Rollout.Proofs.Json.Token

namespace Rollout.Json

/-! ### Texts -/

theorem simpleEscape?_eq_some_iff {letter c : Char} :
    simpleEscape? letter = some c ↔ (letter, c) ∈ shortEscapes := by
  constructor
  · intro h
    unfold simpleEscape? at h
    split at h <;> first | (cases h; decide) | nomatch h
  · intro h
    simp only [shortEscapes, List.mem_cons, Prod.mk.injEq, List.not_mem_nil, or_false] at h
    rcases h with ⟨rfl, rfl⟩ | ⟨rfl, rfl⟩ | ⟨rfl, rfl⟩ | ⟨rfl, rfl⟩ | ⟨rfl, rfl⟩ | ⟨rfl, rfl⟩
      | ⟨rfl, rfl⟩ | ⟨rfl, rfl⟩ <;> rfl

theorem hexValue?_written {n : Nat} {c : Char} (h : HexWritten n c) : hexValue? c = some n := by
  have hall : ∀ n < 16, hexValue? (Nat.digitChar n) = some n
      ∧ hexValue? (Nat.digitChar n).toUpper = some n := by decide
  obtain ⟨hn, hc⟩ := h
  simp only [List.mem_cons, List.not_mem_nil, or_false] at hc
  rcases hc with rfl | rfl
  · exact (hall n hn).1
  · exact (hall n hn).2

theorem hexWritten_of_hexValue? {n : Nat} {c : Char} (h : hexValue? c = some n) :
    HexWritten n c := by
  have hall : ∀ m < 128, ∀ n < 16, hexValue? (Char.ofNat m) = some n →
      Char.ofNat m ∈ [Nat.digitChar n, (Nat.digitChar n).toUpper] := by decide +kernel
  have hbounds : n < 16 ∧ c.toNat < 128 := by
    have h0 : '0'.toNat = 48 := rfl
    have h9 : '9'.toNat = 57 := rfl
    have ha : 'a'.toNat = 97 := rfl
    have hf : 'f'.toNat = 102 := rfl
    have hA : 'A'.toNat = 65 := rfl
    have hF : 'F'.toNat = 70 := rfl
    unfold hexValue? at h
    simp only [Bool.and_eq_true, decide_eq_true_eq, Char.le_def, UInt32.le_iff_toNat_le,
      Char.toNat_val] at h
    split at h
    · simp at h; omega
    · split at h
      · simp at h; omega
      · split at h
        · simp at h; omega
        · simp at h
  have hc := hall c.toNat hbounds.2 n hbounds.1
  rw [Char.ofNat_toNat] at hc
  exact ⟨hbounds.1, hc h⟩

/-- The four digits of a code unit, in every spelling. -/
theorem exists_of_hex4 {s rest : List Symbol} {n : Nat} (h : hex4 s = .ok (n, rest)) :
    ∃ t, s = t ++ rest ∧ (Piece.unit n).Written (some '\\' :: some 'u' :: t) := by
  unfold hex4 at h
  split at h
  next a b c d rest' =>
    split at h
    · simp at h
    · split at h
      next i j k l ha hb hc hd =>
        obtain ⟨rfl, rfl⟩ : _ ∧ _ := by simpa using h
        exact ⟨[some a, some b, some c, some d], rfl,
          .unit (hexWritten_of_hexValue? ha) (hexWritten_of_hexValue? hb)
            (hexWritten_of_hexValue? hc) (hexWritten_of_hexValue? hd)⟩
      · simp at h
  · simp at h

/-- A code unit as it is written. -/
theorem hex4_of_written {n : Nat} {s : List Symbol} (h : (Piece.unit n).Written s) :
    ∃ t, s = some '\\' :: some 'u' :: t ∧ ∀ rest, hex4 (t ++ rest) = .ok (n, rest) := by
  cases h with
  | unit ha hb hc hd =>
    exact ⟨_, rfl, fun rest => hex4_digits rest (hexValue?_written ha) (hexValue?_written hb)
      (hexValue?_written hc) (hexValue?_written hd)⟩

theorem isControl_eq_false_iff {c : Char} : isControl c = false ↔ 0x20 ≤ c.toNat := by
  simp [isControl]

theorem skipText_unit {t rest : List Symbol} {n : Nat} (h : hex4 t = .ok (n, rest)) :
    skipText (some '\\' :: some 'u' :: t) = skipText rest := by
  rw [skipText]
  simp only [beq_self_eq_true, ↓reduceIte]
  split <;> simp_all

/-- The end of a text literal is looked for after each piece. -/
theorem skipText_piece {p : Piece} {s : List Symbol} (h : p.Written s) (rest : List Symbol) :
    skipText (s ++ rest) = skipText rest := by
  cases h with
  | plain control quote escape =>
    simp [skipText, escape, isControl_eq_false_iff.mpr control]
  | short h =>
    have hletter := simpleEscape?_eq_some_iff.mpr h
    rename_i letter c
    have hu : letter ≠ 'u' := by rintro rfl; simp [simpleEscape?] at hletter
    simp [skipText, hu, hletter]
  | unit ha hb hc hd =>
    exact skipText_unit (hex4_digits rest (hexValue?_written ha) (hexValue?_written hb)
      (hexValue?_written hc) (hexValue?_written hd))
  | stray => simp [skipText]

theorem skipText_written {ps : List Piece} {s : List Symbol} (h : PiecesWritten ps s)
    (rest : List Symbol) : skipText (s ++ some '"' :: rest) = .ok rest := by
  induction h with
  | nil => simp [skipText]
  | cons first _ ih => rw [List.append_assoc, skipText_piece first, ih]

/-- What stands before the end of a text literal is pieces. -/
theorem exists_pieces {s rest : List Symbol} (h : skipText s = .ok rest) :
    ∃ ps t, s = t ++ some '"' :: rest ∧ PiecesWritten ps t := by
  -- one more piece in front
  have cons : ∀ {p : Piece} {a s : List Symbol}, p.Written a →
      (∃ ps t, s = t ++ some '"' :: rest ∧ PiecesWritten ps t) →
      ∃ ps t, a ++ s = t ++ some '"' :: rest ∧ PiecesWritten ps t := by
    rintro p a s hp ⟨ps, t, rfl, hps⟩
    exact ⟨p :: ps, a ++ t, by simp, .cons hp hps⟩
  fun_induction skipText s with
  | case1 => simp at h
  | case2 s ih => exact cons .stray (ih h)
  | case3 s =>
    obtain rfl : s = rest := by simpa using h
    exact ⟨[], [], rfl, .nil⟩
  | case4 => simp at h
  | case5 => simp at h
  | case6 => simp at h
  | case7 c s' hc n tail hhex hlen ih =>
    obtain ⟨t, rfl, ht⟩ := exists_of_hex4 hhex
    obtain rfl : c = 'u' := by simpa using hc
    exact cons ht (ih h)
  | case8 c s' hc hescape ih =>
    obtain ⟨c', hc'⟩ := Option.isSome_iff_exists.mp hescape
    exact cons (.short (simpleEscape?_eq_some_iff.mp hc')) (ih h)
  | case9 => simp at h
  | case10 => simp at h
  | case11 c s' hquote hend hstray hletter hcontrol ih =>
    have hslash : c ≠ '\\' := by
      intro hc
      cases s' with
      | nil => exact hend rfl hc
      | cons x s' =>
        cases x with
        | none => exact hstray s' rfl hc
        | some c' => exact hletter c' s' rfl hc
    have hplain : (Piece.char c).Written [some c] :=
      .plain (isControl_eq_false_iff.mp (by simpa using hcontrol)) hquote hslash
    exact cons hplain (ih h)

theorem toOption_prepend (c : Char) (x : Except Stop (List Char)) :
    (prepend c x).toOption = x.toOption.map (c :: ·) := by
  cases x <;> rfl

/-- How a code unit goes on: alone, or with a second one. -/
theorem textValue_unit {n : Nat} {s : List Symbol} (h : (Piece.unit n).Written s)
    (rest : List Symbol) :
    (textValue (s ++ rest)).toOption =
      if isHighSurrogate n then
        match secondUnit rest with
        | .error _ => none
        | .ok (m, tail) =>
          if isLowSurrogate m then (textValue tail).toOption.map (pairChar n m :: ·) else none
      else if isLowSurrogate n then none
      else (textValue rest).toOption.map (Char.ofNat n :: ·) := by
  obtain ⟨t, rfl, ht⟩ := hex4_of_written h
  rw [List.cons_append, List.cons_append, textValue]
  simp only [beq_self_eq_true, ↓reduceIte]
  split
  · simp_all
  · rename_i n' rest' heq
    obtain ⟨rfl, rfl⟩ : n = n' ∧ rest = rest' := by simpa [ht] using heq
    by_cases hhigh : isHighSurrogate n = true
    · rw [if_pos hhigh, if_pos hhigh]
      split
      · simp_all [Except.toOption]
      · rename_i m tail hsecond
        simp only [hsecond]
        split
        · exact toOption_prepend _ _
        · rfl
    · rw [if_neg hhigh, if_neg hhigh]
      split
      · rfl
      · exact toOption_prepend _ _

theorem textValue_stray (rest : List Symbol) : (textValue (none :: rest)).toOption = none := by
  rw [textValue]
  cases textValue rest <;> rfl

theorem textValue_char {c : Char} {s : List Symbol} (h : (Piece.char c).Written s)
    (rest : List Symbol) :
    (textValue (s ++ rest)).toOption = (textValue rest).toOption.map (c :: ·) := by
  rw [← toOption_prepend]
  cases h with
  | plain control quote escape =>
    simp [textValue, escape, isControl_eq_false_iff.mpr control]
  | short h =>
    have hletter := simpleEscape?_eq_some_iff.mpr h
    rename_i letter
    have hu : letter ≠ 'u' := by rintro rfl; simp [simpleEscape?] at hletter
    simp [textValue, hu, hletter]

/-- After the first half of a pair only another code unit can follow. -/
theorem secondUnit_unit {n : Nat} {s : List Symbol} (h : (Piece.unit n).Written s)
    (rest : List Symbol) : secondUnit (s ++ rest) = .ok (n, rest) := by
  obtain ⟨t, rfl, ht⟩ := hex4_of_written h
  exact ht rest

theorem secondUnit_other {ps : List Piece} {s : List Symbol} (h : PiecesWritten ps s)
    (hps : ∀ n ps', ps ≠ .unit n :: ps') (rest : List Symbol) :
    ∃ e, secondUnit (s ++ some '"' :: rest) = .error e := by
  cases h with
  | nil => exact ⟨_, rfl⟩
  | cons first rest =>
    cases first with
    | plain control quote escape =>
      simp [secondUnit, escape]
    | short h =>
      rename_i letter c
      have hu : letter ≠ 'u' := by
        rintro rfl
        have hletter := simpleEscape?_eq_some_iff.mpr h
        simp [simpleEscape?] at hletter
      simp [secondUnit, hu]
    | unit => exact absurd rfl (hps _ _)
    | stray => exact ⟨_, rfl⟩

/-- What a text literal says is what its pieces say together. -/
theorem textValue_written {ps : List Piece} {s : List Symbol} (h : PiecesWritten ps s)
    (rest : List Symbol) : (textValue (s ++ some '"' :: rest)).toOption = meaning? ps := by
  fun_induction meaning? ps generalizing s with
  | case1 =>
    cases h
    simp [textValue, Except.toOption]
  | case2 c ps ih =>
    cases h with
    | cons first h => rw [List.append_assoc, textValue_char first, ih h]
  | case3 ps =>
    cases h with
    | cons first h =>
      cases first
      exact textValue_stray _
  | case4 n ps hn ih =>
    -- a code unit that stands for itself
    cases h with
    | cons first h =>
      have hhigh : isHighSurrogate n = false := by simp [isHighSurrogate]; omega
      have hlow : isLowSurrogate n = false := by simp [isLowSurrogate]; omega
      rw [List.append_assoc, textValue_unit first, hhigh, hlow, ← ih h]
      rfl
  | case5 n hn m ps hpair ih =>
    -- a pair of them
    cases h with
    | cons first h =>
      cases h with
      | cons second h =>
        have hhigh : isHighSurrogate n = true := by simp [isHighSurrogate]; omega
        have hlow : isLowSurrogate m = true := by simp [isLowSurrogate]; omega
        rw [List.append_assoc, textValue_unit first, hhigh, List.append_assoc,
          secondUnit_unit second, ← ih h]
        simp [hlow]
  | case6 n hn m ps hpair =>
    -- two that make no pair
    cases h with
    | cons first h =>
      cases h with
      | cons second h =>
        rw [List.append_assoc, textValue_unit first, List.append_assoc, secondUnit_unit second]
        simp only [isHighSurrogate, isLowSurrogate, Bool.and_eq_true, decide_eq_true_eq]
        split
        · rw [if_neg (by omega)]
        · rw [if_pos (by omega)]
  | case7 n ps hn hother =>
    -- one that is left alone
    cases h with
    | cons first h =>
      obtain ⟨e, he⟩ := secondUnit_other h hother rest
      rw [List.append_assoc, textValue_unit first, he]
      simp only [isHighSurrogate, isLowSurrogate, Bool.and_eq_true, decide_eq_true_eq]
      split
      · rfl
      · rw [if_pos (by omega)]

/-- A text literal is cut off where its pieces end. -/
theorem lexText_written {ps : List Piece} {s : List Symbol} (h : PiecesWritten ps s)
    (rest : List Symbol) : ∃ value, value.toOption = (meaning? ps).map String.ofList
      ∧ lexText (s ++ some '"' :: rest) = (.text value, rest) := by
  refine ⟨(textValue (s ++ some '"' :: rest)).map String.ofList, ?_, ?_⟩
  · rw [← textValue_written h rest]
    cases textValue (s ++ some '"' :: rest) <;> rfl
  · simp [lexText, skipText_written h]

theorem exists_of_lexText {s rest : List Symbol} {t : Token} (h : lexText s = (t, rest))
    (ht : ∀ b, t ≠ .broken b) :
    ∃ value w, t = .text value ∧ some '"' :: s = w ++ rest ∧ TextWritten value.toOption w := by
  unfold lexText at h
  split at h
  · rename_i rest' hskip
    obtain ⟨rfl, rfl⟩ : _ = t ∧ rest' = rest := by simpa using h
    obtain ⟨ps, w, rfl, hps⟩ := exists_pieces hskip
    refine ⟨_, some '"' :: (w ++ [some '"']), rfl, by simp, ps, w, rfl, hps, ?_⟩
    rw [← textValue_written hps rest']
    cases textValue (w ++ some '"' :: rest') <;> rfl
  · exact absurd (congrArg Prod.fst h).symm (ht _)

/-! ### Numbers -/

theorem digit?_eq_some_iff {x : Symbol} {d : Nat} :
    digit? x = some d ↔ d < 10 ∧ x = some (Nat.digitChar d) := by
  constructor
  · intro h
    cases x with
    | none => simp [digit?] at h
    | some c =>
      obtain ⟨hc, rfl⟩ : c.isDigit ∧ c.toNat - '0'.toNat = d := by simpa [digit?] using h
      have h0 : '0'.toNat = 48 := rfl
      simp only [Char.isDigit, Bool.and_eq_true, decide_eq_true_eq, UInt32.le_iff_toNat_le,
        ge_iff_le, Char.toNat_val] at hc
      have hlow : 48 ≤ c.toNat := hc.1
      have hhigh : c.toNat ≤ 57 := hc.2
      have hlt : c.toNat - 48 < 10 := by omega
      refine ⟨hlt, congrArg some (Char.toNat_inj.mp ?_)⟩
      rw [h0, Nat.toNat_digitChar_of_lt_ten hlt]
      omega
  · rintro ⟨hd, rfl⟩
    have hall : ∀ d < 10, digit? (some (Nat.digitChar d)) = some d := by decide
    exact hall d hd

/-- The first symbol, if there is one, is no digit. -/
def NoDigit (s : List Symbol) : Prop :=
  ∀ x ∈ s.head?, digit? x = none

theorem takeNumerals_written {ds : List Nat} {s rest : List Symbol} (h : Numerals ds s)
    (hrest : NoDigit rest) : takeNumerals (s ++ rest) = (ds, rest) := by
  induction h with
  | nil =>
    cases rest with
    | nil => rfl
    | cons x rest => simp [takeNumerals, hrest x rfl]
  | cons hd _ ih => simp [takeNumerals, digit?_eq_some_iff.mpr hd, ih]

theorem exists_numerals {s rest : List Symbol} {ds : List Nat} (h : takeNumerals s = (ds, rest)) :
    ∃ t, s = t ++ rest ∧ Numerals ds t := by
  induction s generalizing ds with
  | nil =>
    obtain ⟨rfl, rfl⟩ : [] = ds ∧ [] = rest := by simpa [takeNumerals] using h
    exact ⟨[], rfl, .nil⟩
  | cons x s ih =>
    rw [takeNumerals] at h
    split at h
    · rename_i d hd
      obtain ⟨rfl, hrest⟩ : _ = ds ∧ _ = rest := by simpa using h
      obtain ⟨t, rfl, ht⟩ := ih (Prod.ext rfl hrest)
      exact ⟨x :: t, rfl, .cons (digit?_eq_some_iff.mp hd) ht⟩
    · obtain ⟨rfl, rfl⟩ : [] = ds ∧ x :: s = rest := by simpa using h
      exact ⟨[], rfl, .nil⟩

theorem lexWhole_written {ds : List Nat} {s rest : List Symbol} (h : WholeWritten ds s)
    (hrest : NoDigit rest) : lexWhole (s ++ rest) = .ok (ds, rest) := by
  obtain ⟨hds, hne, hzero⟩ := h
  rw [lexWhole, takeNumerals_written hds hrest]
  split
  · simp_all
  · simp_all
  · simp_all

theorem exists_whole {s rest : List Symbol} {ds : List Nat} (h : lexWhole s = .ok (ds, rest)) :
    ∃ t, s = t ++ rest ∧ WholeWritten ds t := by
  unfold lexWhole at h
  split at h
  · simp at h
  · simp at h
  · rename_i ds' rest' hne hzero heq
    obtain ⟨rfl, rfl⟩ : ds' = ds ∧ rest' = rest := by simpa using h
    obtain ⟨t, rfl, ht⟩ := exists_numerals heq
    refine ⟨t, rfl, ht, fun hnil => hne hnil, fun hhead => ?_⟩
    cases ds' with
    | nil => exact absurd hhead nofun
    | cons d ds =>
      obtain rfl : d = 0 := by simpa using hhead
      cases ds with
      | nil => rfl
      | cons d' ds => exact absurd rfl (hzero d' ds)

theorem lexFraction_written {fraction : Option (List Nat)} {s rest : List Symbol}
    (h : FractionWritten fraction s) (hrest : NoDigit rest)
    (hpoint : rest.head? ≠ some (some '.')) :
    lexFraction (s ++ rest) = .ok (fraction, rest) := by
  cases fraction with
  | none =>
    obtain rfl : s = [] := h
    unfold lexFraction
    split
    · simp_all
    · rfl
  | some ds =>
    obtain ⟨t, rfl, hds, hne⟩ := h
    rw [List.cons_append, lexFraction, takeNumerals_written hds hrest]
    split
    · simp_all
    · simp_all

theorem exists_fraction {s rest : List Symbol} {fraction : Option (List Nat)}
    (h : lexFraction s = .ok (fraction, rest)) :
    ∃ t, s = t ++ rest ∧ FractionWritten fraction t := by
  unfold lexFraction at h
  split at h
  · rename_i s'
    split at h
    · simp at h
    · rename_i ds rest' hne heq
      obtain ⟨rfl, rfl⟩ : some ds = fraction ∧ rest' = rest := by simpa using h
      obtain ⟨t, rfl, ht⟩ := exists_numerals heq
      exact ⟨some '.' :: t, rfl, t, rfl, ht, hne⟩
  · obtain ⟨rfl, rfl⟩ : none = fraction ∧ s = rest := by simpa using h
    exact ⟨[], rfl, rfl⟩

theorem Delimited.noDigit {s : List Symbol} (h : Delimited s) : NoDigit s := by
  cases s with
  | nil => exact nofun
  | cons x s => rintro _ ⟨⟩; exact h.1

theorem head_of_numerals {ds : List Nat} {s : List Symbol} (h : Numerals ds s) (hne : ds ≠ []) :
    ∃ c s', s = some c :: s' ∧ c.isDigit := by
  cases h with
  | nil => exact absurd rfl hne
  | @cons d x ds s' hd _ =>
    refine ⟨Nat.digitChar d, s', by rw [hd.2], ?_⟩
    have hall : ∀ d < 10, (Nat.digitChar d).isDigit := by decide
    exact hall d hd.1

theorem lexExponent_written {exponent : Option Int} {s rest : List Symbol}
    (h : ExponentWritten exponent s) (hrest : Delimited rest) :
    lexExponent (s ++ rest) = .ok (exponent, rest) := by
  cases exponent with
  | none =>
    obtain rfl : s = [] := h
    cases rest with
    | nil => rfl
    | cons x rest => cases x <;> simp_all [lexExponent, Delimited]
  | some e =>
    obtain ⟨mark, hmark, sign, hsign, ds, t, rfl, hds, hne, rfl⟩ := h
    have hmark' : (mark == 'e' || mark == 'E') = true := by simpa using hmark
    have hdigits := takeNumerals_written hds hrest.noDigit
    simp only [exponentSigns, List.mem_cons, List.not_mem_nil, or_false] at hsign
    rcases hsign with rfl | rfl | rfl
    · obtain ⟨c, t, rfl, hc⟩ := head_of_numerals hds hne
      have hplus : c ≠ '+' := by rintro rfl; exact absurd hc (by decide)
      have hminus : c ≠ '-' := by rintro rfl; exact absurd hc (by decide)
      rw [List.cons_append] at hdigits
      simp [lexExponent, hmark', hplus, hminus, hdigits]
    · simp [lexExponent, hmark', hdigits]
    · simp [lexExponent, hmark', hdigits]

theorem exists_exponent {s rest : List Symbol} {exponent : Option Int}
    (h : lexExponent s = .ok (exponent, rest)) :
    ∃ t, s = t ++ rest ∧ ExponentWritten exponent t := by
  unfold lexExponent at h
  split at h
  · rename_i mark s'
    split at h
    · rename_i hmark
      split at h
      rename_i sign s'' hsign
      obtain ⟨w, hw, rfl⟩ : ∃ w, (w, sign) ∈ exponentSigns ∧ s' = w ++ s'' := by
        split at hsign
        · obtain ⟨rfl, rfl⟩ := Prod.mk.inj hsign
          exact ⟨[some '+'], by decide, rfl⟩
        · obtain ⟨rfl, rfl⟩ := Prod.mk.inj hsign
          exact ⟨[some '-'], by decide, rfl⟩
        · obtain ⟨rfl, rfl⟩ := Prod.mk.inj hsign
          exact ⟨[], by decide, rfl⟩
      split at h
      · simp at h
      · rename_i ds rest' hne heq
        obtain ⟨rfl, rfl⟩ : _ = exponent ∧ rest' = rest := by simpa using h
        obtain ⟨t, rfl, ht⟩ := exists_numerals heq
        exact ⟨some mark :: (w ++ t), by simp, mark, by simpa using hmark, (w, sign), hw, ds, t,
          rfl, ht, hne, rfl⟩
    · obtain ⟨rfl, rfl⟩ : none = exponent ∧ _ = rest := by simpa using h
      exact ⟨[], rfl, rfl⟩
  · obtain ⟨rfl, rfl⟩ : none = exponent ∧ s = rest := by simpa using h
    exact ⟨[], rfl, rfl⟩

/-- What may stand behind the digits of a number: a point or an exponent, or nothing of it. -/
theorem noDigit_exponent {exponent : Option Int} {s rest : List Symbol}
    (h : ExponentWritten exponent s) (hrest : Delimited rest) :
    NoDigit (s ++ rest) ∧ (s ++ rest).head? ≠ some (some '.') := by
  cases exponent with
  | none =>
    obtain rfl : s = [] := h
    refine ⟨hrest.noDigit, ?_⟩
    cases rest with
    | nil => exact nofun
    | cons x rest => simpa using hrest.2.1
  | some e =>
    obtain ⟨mark, hmark, sign, -, ds, t, rfl, -⟩ := h
    simp only [List.mem_cons, List.not_mem_nil, or_false] at hmark
    rcases hmark with rfl | rfl
    · exact ⟨by rintro _ ⟨⟩; decide, by simp⟩
    · exact ⟨by rintro _ ⟨⟩; decide, by simp⟩

theorem noDigit_fraction {fraction : Option (List Nat)} {s rest : List Symbol}
    (h : FractionWritten fraction s) (hrest : NoDigit rest) : NoDigit (s ++ rest) := by
  cases fraction with
  | none =>
    obtain rfl : s = [] := h
    exact hrest
  | some ds =>
    obtain ⟨t, rfl, -⟩ := h
    rintro _ ⟨⟩
    decide

/-- A number literal is cut off where nothing goes on with it. -/
theorem lexUnsigned_written {n : Number} {s rest : List Symbol} (h : n.UnsignedWritten s)
    (hrest : Delimited rest) : lexUnsigned n.negative (s ++ rest) = .ok (n, rest) := by
  obtain ⟨whole, fraction, exponent, rfl, hwhole, hfraction, hexponent⟩ := h
  obtain ⟨hdigit, hpoint⟩ := noDigit_exponent hexponent hrest
  rw [lexUnsigned, List.append_assoc, List.append_assoc,
    lexWhole_written hwhole (noDigit_fraction hfraction hdigit)]
  simp [bind, Except.bind, lexFraction_written hfraction hdigit hpoint,
    lexExponent_written hexponent hrest]

theorem exists_unsigned {negative : Bool} {s rest : List Symbol} {n : Number}
    (h : lexUnsigned negative s = .ok (n, rest)) :
    ∃ t, s = t ++ rest ∧ n.negative = negative ∧ n.UnsignedWritten t := by
  obtain ⟨⟨whole, s₁⟩, hwhole, h⟩ := bind_eq_ok_iff.mp h
  obtain ⟨⟨fraction, s₂⟩, hfraction, h⟩ := bind_eq_ok_iff.mp h
  obtain ⟨⟨exponent, s₃⟩, hexponent, h⟩ := bind_eq_ok_iff.mp h
  obtain ⟨rfl, rfl⟩ : _ = n ∧ s₃ = rest := by simpa using h
  obtain ⟨w, rfl, hw⟩ := exists_whole hwhole
  obtain ⟨f, rfl, hf⟩ := exists_fraction hfraction
  obtain ⟨e, rfl, he⟩ := exists_exponent hexponent
  exact ⟨w ++ (f ++ e), by simp, rfl, w, f, e, rfl, hw, hf, he⟩

theorem exists_of_lexNumber {negative : Bool} {s rest : List Symbol} {t : Token}
    (h : lexNumber negative s = (t, rest)) (ht : ∀ b, t ≠ .broken b) :
    ∃ n w, t = .number n ∧ s = w ++ rest ∧ n.negative = negative ∧ n.UnsignedWritten w := by
  unfold lexNumber at h
  split at h
  · rename_i n rest' hlex
    obtain ⟨rfl, rfl⟩ : _ = t ∧ rest' = rest := by simpa using h
    obtain ⟨w, rfl, hneg, hw⟩ := exists_unsigned hlex
    exact ⟨n, w, rfl, rfl, hneg, hw⟩
  · exact absurd (congrArg Prod.fst h).symm (ht _)

/-! ### All tokens -/

/-- How a token is written; a text whatever it says. -/
def Token.Written : Token → List Symbol → Prop
  | .openList, s => s = [some '[']
  | .closeList, s => s = [some ']']
  | .openObject, s => s = [some '\x7b']
  | .closeObject, s => s = [some '\x7d']
  | .comma, s => s = [some ',']
  | .colon, s => s = [some ':']
  | .null, s => s = symbols "null"
  | .bool b, s => s = symbols (if b then "true" else "false")
  | .number n, s => n.Written s
  | .text value, s => TextWritten value.toOption s
  | .broken _, _ => False

theorem exists_of_lexWord {t t' : Token} {kind : Break.Kind} {cs : List Char}
    {s rest : List Symbol} (h : lexWord t kind cs s = (t', rest)) (ht : ∀ b, t' ≠ .broken b) :
    t' = t ∧ s = cs.map some ++ rest := by
  induction cs generalizing s with
  | nil =>
    obtain ⟨rfl, rfl⟩ := Prod.mk.inj h
    exact ⟨rfl, rfl⟩
  | cons c cs ih =>
    cases s with
    | nil => exact absurd (congrArg Prod.fst h).symm (ht _)
    | cons x s =>
      rw [lexWord] at h
      split at h
      · rename_i hx
        obtain ⟨rfl, rfl⟩ := ih h
        exact ⟨rfl, by simpa using hx⟩
      · exact absurd (congrArg Prod.fst h).symm (ht _)

/-- What is read as a token is written as one. -/
theorem exists_of_lexOne {x : Symbol} {s rest : List Symbol} {t : Token}
    (h : lexOne x s = (t, rest)) (ht : ∀ b, t ≠ .broken b) :
    ∃ w, x :: s = w ++ rest ∧ t.Written w := by
  unfold lexOne at h
  split at h
  case h_1 | h_2 | h_3 | h_4 | h_5 | h_6 =>
    obtain ⟨rfl, rfl⟩ := Prod.mk.inj h
    exact ⟨_, rfl, rfl⟩
  case h_7 =>
    obtain ⟨value, w, rfl, hs, hw⟩ := exists_of_lexText h ht
    exact ⟨w, hs, hw⟩
  case h_8 =>
    obtain ⟨n, w, rfl, rfl, hneg, hw⟩ := exists_of_lexNumber h ht
    exact ⟨some '-' :: w, rfl, w, by simp [hneg], hw⟩
  case h_9 | h_10 | h_11 =>
    obtain ⟨rfl, rfl⟩ := exists_of_lexWord h ht
    exact ⟨_, List.cons_append .., rfl⟩
  case h_12 =>
    split at h
    · obtain ⟨n, w, rfl, hs, hneg, hw⟩ := exists_of_lexNumber h ht
      exact ⟨w, hs, w, by simp [hneg], hw⟩
    · exact absurd (congrArg Prod.fst h).symm (ht _)

theorem isSpace_iff {x : Symbol} :
    isSpace x = true ↔ x ∈ [some ' ', some '\n', some '\t', some '\r'] := by
  simp [isSpace, or_assoc]

theorem lex_blank {b : List Symbol} (hb : Blank b) (s : List Symbol) : lex (b ++ s) = lex s := by
  induction b with
  | nil => rfl
  | cons x b ih =>
    rw [List.cons_append, lex, if_pos (isSpace_iff.mpr (hb x List.mem_cons_self))]
    exact ih fun y hy => hb y (List.mem_cons_of_mem x hy)

theorem delimited_blank {b s : List Symbol} (hb : Blank b) (hs : Delimited s) :
    Delimited (b ++ s) := by
  cases b with
  | nil => exact hs
  | cons x b =>
    have hx := hb x List.mem_cons_self
    simp only [List.mem_cons, List.not_mem_nil, or_false] at hx
    rcases hx with rfl | rfl | rfl | rfl <;> exact ⟨by decide, by decide, by decide, by decide⟩

theorem lex_text {value : Option String} {w : List Symbol} (h : TextWritten value w)
    (rest : List Symbol) :
    ∃ v, v.toOption = value ∧ lex (w ++ rest) = .text v :: lex rest := by
  obtain ⟨ps, t, rfl, hps, rfl⟩ := h
  obtain ⟨v, hv, hlex⟩ := lexText_written hps rest
  refine ⟨v, hv, ?_⟩
  rw [List.cons_append, List.append_assoc, lex_cons (by decide), lexOne, List.cons_append,
    List.nil_append, hlex]

theorem lex_number {n : Number} {w rest : List Symbol} (h : n.Written w) (hrest : Delimited rest) :
    lex (w ++ rest) = .number n :: lex rest := by
  obtain ⟨t, rfl, ht⟩ := h
  have hlex : lexNumber n.negative (t ++ rest) = (.number n, rest) := by
    rw [lexNumber, lexUnsigned_written ht hrest]
  cases hneg : n.negative with
  | true =>
    rw [hneg] at hlex
    rw [if_pos rfl, List.append_assoc, List.singleton_append, lex_cons (by decide), lexOne, hlex]
  | false =>
    -- the literal begins with a digit, since it has one before the point
    obtain ⟨whole, _, _, rfl, ⟨hwhole, hne, -⟩, -⟩ := ht
    obtain ⟨c, s, rfl, hc⟩ := head_of_numerals hwhole hne
    rw [hneg, List.cons_append, List.cons_append] at hlex
    rw [if_neg (by decide), List.nil_append, List.cons_append, List.cons_append,
      lex_cons (isSpace_digit hc), lexOne_digit hc, hlex]

/-- A token that is not broken is written where it was found, with blanks in front of it. -/
theorem exists_written_of_lex {s : List Symbol} {t : Token} {ts : List Token} (h : lex s = t :: ts)
    (ht : ∀ b, t ≠ .broken b) :
    ∃ b w rest, s = b ++ (w ++ rest) ∧ Blank b ∧ t.Written w ∧ lex rest = ts := by
  induction s with
  | nil => simp [lex] at h
  | cons x s ih =>
    rw [lex] at h
    split at h
    · rename_i hx
      obtain ⟨b, w, rest, rfl, hb, hw, hrest⟩ := ih h
      exact ⟨x :: b, w, rest, rfl, List.forall_mem_cons.mpr ⟨isSpace_iff.mp hx, hb⟩, hw, hrest⟩
    · obtain ⟨htoken, hts⟩ := List.cons.inj h
      obtain ⟨w, hs, hw⟩ := exists_of_lexOne (Prod.ext htoken rfl) ht
      exact ⟨[], w, _, hs, List.forall_mem_nil _, hw, hts⟩

theorem blank_of_lex_nil {s : List Symbol} (h : lex s = []) : Blank s := by
  induction s with
  | nil => exact List.forall_mem_nil _
  | cons x s ih =>
    rw [lex] at h
    split at h
    · rename_i hx
      exact List.forall_mem_cons.mpr ⟨isSpace_iff.mp hx, ih h⟩
    · exact absurd h (List.cons_ne_nil _ _)

end Rollout.Json
