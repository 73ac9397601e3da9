/-
The one-line form of a document is cut back into its tokens.

* `ofDigits_numerals`: the digits of a number spell that number;
* `lexNumber_decimal`, `lexText_quote`: the literals of an integer and of a text are one token;
* `lex_compactChars`: the characters of a document, with something behind them that does not go on
  with a number, give the tokens of the document and then those of what is behind them.

The tokens say about a number how it is written (`Number.ofInt`) and about a text what it says, so
all escapes are dealt with here.
-/
import Mathlib.Tactic.FinCases
import Rollout.Json.Token
import Rollout.Json.Value

namespace Rollout.Json

/-! ### Numbers -/

/-- The values of the decimal digits of a number. -/
def numerals (n : Nat) : List Nat :=
  (Nat.toDigits 10 n).map fun c => c.toNat - '0'.toNat

/-- The literal that an integer is written as. -/
def Number.ofInt (i : Int) : Number :=
  ⟨decide (i < 0), numerals i.natAbs, none, none⟩

theorem ofDigits_numerals (n : Nat) : Number.ofDigits (numerals n) = n := by
  have h : Nat.ofDigitChars 10 (Nat.toDigits 10 n) 0 = n := Nat.ofDigitChars_ten_toDigits
  rw [Nat.ofDigitChars_eq_foldl] at h
  rw [Number.ofDigits, numerals, List.foldl_map]
  simpa only [Nat.mul_comm 10] using h

/-- A number of several digits does not begin with zero. -/
theorem numerals_head_pos {n d : Nat} {ds : List Nat} (hn : 0 < n)
    (h : numerals n = d :: ds) : 0 < d := by
  induction n using Nat.strongRecOn generalizing d ds with
  | _ n ih =>
    rcases Nat.lt_or_ge n 10 with hlt | hge
    · rw [numerals, Nat.toDigits_of_lt_base hlt] at h
      have hd : n = d := by
        simpa [Nat.toNat_digitChar_sub_48_of_lt_ten hlt] using (List.cons.inj h).1
      omega
    · rw [numerals, Nat.toDigits_of_base_le (by decide) hge, List.map_append] at h
      obtain ⟨e, es, he⟩ : ∃ e es, numerals (n / 10) = e :: es :=
        List.exists_cons_of_ne_nil (by simp [numerals])
      rw [← numerals, he] at h
      rw [← (List.cons.inj h).1]
      exact ih (n / 10) (by omega) (by omega) he

/-- Nothing at the front that goes on with a number. -/
def Delimited : List Symbol → Prop
  | [] => True
  | x :: _ => digit? x = none ∧ x ≠ some '.' ∧ x ≠ some 'e' ∧ x ≠ some 'E'

theorem delimited_mark {c : Char} (h : c ∈ [',', ']', '}']) (rest : List Symbol) :
    Delimited (some c :: rest) := by
  fin_cases h <;> exact ⟨by decide, by decide, by decide, by decide⟩

theorem takeNumerals_of_delimited {rest : List Symbol} (h : Delimited rest) :
    takeNumerals rest = ([], rest) := by
  cases rest with
  | nil => rfl
  | cons x rest => simp [takeNumerals, h.1]

theorem takeNumerals_digits {cs : List Char} {rest : List Symbol}
    (hcs : ∀ c ∈ cs, c.isDigit) (h : Delimited rest) :
    takeNumerals (cs.map some ++ rest) = (cs.map fun c => c.toNat - '0'.toNat, rest) := by
  induction cs with
  | nil => exact takeNumerals_of_delimited h
  | cons c cs ih =>
    have hc : digit? (some c) = some (c.toNat - '0'.toNat) :=
      if_pos (hcs c List.mem_cons_self)
    simp [takeNumerals, hc, ih fun c' hc' => hcs c' (List.mem_cons_of_mem c hc')]

theorem lexWhole_decimal (n : Nat) {rest : List Symbol} (h : Delimited rest) :
    lexWhole ((Nat.toDigits 10 n).map some ++ rest) = .ok (numerals n, rest) := by
  have hdigits : ∀ c ∈ Nat.toDigits 10 n, c.isDigit := fun c hc =>
    Nat.isDigit_of_mem_toDigits (by decide) (by decide) hc
  rw [lexWhole, takeNumerals_digits hdigits h, ← numerals]
  obtain ⟨d, ds, hds⟩ : ∃ d ds, numerals n = d :: ds :=
    List.exists_cons_of_ne_nil (by simp [numerals])
  rcases Nat.eq_zero_or_pos n with rfl | hn
  · simp [numerals]
  · have := numerals_head_pos hn hds
    rw [hds]
    split
    · simp_all
    · rename_i heq
      simp only [Prod.mk.injEq, List.cons.injEq] at heq
      omega
    · simp_all

/-- The digits of a number are read as one literal. -/
theorem lexNumber_decimal (negative : Bool) (n : Nat) {rest : List Symbol} (h : Delimited rest) :
    lexNumber negative ((Nat.toDigits 10 n).map some ++ rest)
      = (.number ⟨negative, numerals n, none, none⟩, rest) := by
  have hfraction : lexFraction rest = .ok (none, rest) := by
    cases rest with
    | nil => rfl
    | cons x rest => unfold lexFraction; split <;> simp_all [Delimited]
  have hexponent : lexExponent rest = .ok (none, rest) := by
    cases rest with
    | nil => rfl
    | cons x rest => cases x <;> simp_all [lexExponent, Delimited]
  simp [lexNumber, lexUnsigned, lexWhole_decimal n h, hfraction, hexponent, bind, Except.bind]

/-! ### Texts -/

theorem hex4_digits {a b c d : Char} {i j k l : Nat} (s : List Symbol)
    (ha : hexValue? a = some i) (hb : hexValue? b = some j)
    (hc : hexValue? c = some k) (hd : hexValue? d = some l) :
    hex4 (some a :: some b :: some c :: some d :: s)
      = .ok (((i * 16 + j) * 16 + k) * 16 + l, s) := by
  have := a.utf8Size_pos
  have := b.utf8Size_pos
  have := c.utf8Size_pos
  have := d.utf8Size_pos
  have hcount : ¬ byteCount [some a, some b, some c, some d] < 4 := by
    simp [byteCount]
    omega
  simp [hex4, hcount, ha, hb, hc, hd]

/-- The escape of a control character holds its number. -/
theorem hex4_control {c : Char} (hc : c.toNat < 0x20) (s : List Symbol) :
    hex4 (some '0' :: some '0' :: some (hexDigit (c.toNat / 16)) :: some (hexDigit c.toNat) :: s)
      = .ok (c.toNat, s) := by
  have hvalues : ∀ n < 0x20, hexValue? (hexDigit (n / 16)) = some (n / 16)
      ∧ hexValue? (hexDigit n) = some (n % 16) := by decide
  obtain ⟨hhigh, hlow⟩ := hvalues c.toNat hc
  have hzero : hexValue? '0' = some 0 := by decide
  rw [hex4_digits s hzero hzero hhigh hlow]
  congr 2
  omega

/-- Every way to write a character inside a text: the character itself, a short escape, or the
number of a control character. -/
theorem escapeChar_cases (c : Char) :
    (escapeChar c = [c] ∧ c ≠ '"' ∧ c ≠ '\\' ∧ isControl c = false)
    ∨ (∃ e, escapeChar c = ['\\', e] ∧ e ≠ 'u' ∧ simpleEscape? e = some c)
    ∨ (escapeChar c = ['\\', 'u', '0', '0', hexDigit (c.toNat / 16), hexDigit c.toNat]
      ∧ c.toNat < 0x20) := by
  unfold escapeChar
  simp only [beq_iff_eq]
  repeat' split
  all_goals first
    | subst c; exact .inr (.inl ⟨_, rfl, by decide, by decide⟩)
    | skip
  · exact .inr (.inr ⟨rfl, ‹_›⟩)
  · refine .inl ⟨rfl, ‹_›, ‹_›, ?_⟩
    simpa [isControl] using ‹¬ c.toNat < 0x20›

theorem skipText_escapeChar (c : Char) (s : List Symbol) :
    skipText ((escapeChar c).map some ++ s) = skipText s := by
  obtain ⟨h, hquote, hslash, hcontrol⟩ | ⟨e, h, hu, he⟩ | ⟨h, hc⟩ := escapeChar_cases c
  · simp [h, skipText, hslash, hcontrol]
  · simp [h, skipText, hu, he]
  · simp only [h, List.map_cons, List.map_nil, List.cons_append, List.nil_append]
    rw [skipText]
    simp only [beq_self_eq_true, ↓reduceIte]
    split <;> simp_all [hex4_control hc]

theorem textValue_escapeChar (c : Char) (s : List Symbol) :
    textValue ((escapeChar c).map some ++ s) = prepend c (textValue s) := by
  obtain ⟨h, hquote, hslash, hcontrol⟩ | ⟨e, h, hu, he⟩ | ⟨h, hc⟩ := escapeChar_cases c
  · simp [h, textValue, hslash, hcontrol]
  · simp [h, textValue, hu, he]
  · have hhigh : isHighSurrogate c.toNat = false := by simp [isHighSurrogate]; omega
    have hlow : isLowSurrogate c.toNat = false := by simp [isLowSurrogate]; omega
    simp only [h, List.map_cons, List.map_nil, List.cons_append, List.nil_append]
    rw [textValue]
    simp only [beq_self_eq_true, ↓reduceIte]
    split
    · simp_all [hex4_control hc]
    · rename_i heq
      rw [hex4_control hc, Except.ok.injEq, Prod.mk.injEq] at heq
      obtain ⟨rfl, rfl⟩ := heq
      simp [hhigh, hlow]

theorem skipText_escaped (cs : List Char) (s : List Symbol) :
    skipText ((cs.flatMap escapeChar).map some ++ some '"' :: s) = .ok s := by
  induction cs with
  | nil => simp [skipText]
  | cons c cs ih => simpa [skipText_escapeChar] using ih

theorem textValue_escaped (cs : List Char) (s : List Symbol) :
    textValue ((cs.flatMap escapeChar).map some ++ some '"' :: s) = .ok cs := by
  induction cs with
  | nil => simp [textValue]
  | cons c cs ih =>
    rw [List.flatMap_cons, List.map_append, List.append_assoc, textValue_escapeChar, ih]
    rfl

/-- A text between quotes is read as one literal that says the text. -/
theorem lexText_quote (t : String) (s : List Symbol) :
    lexText ((t.toList.flatMap escapeChar).map some ++ some '"' :: s) = (.text (.ok t), s) := by
  simp [lexText, skipText_escaped, textValue_escaped, Except.map]

/-! ### Documents -/

mutual

/-- The tokens of a document. -/
def tokens : Value → List Token
  | .null => [.null]
  | .bool b => [.bool b]
  | .int i => [.number (.ofInt i)]
  | .text s => [.text (.ok s)]
  | .list items => .openList :: (itemTokens items ++ [.closeList])
  | .object fields => .openObject :: (fieldTokens fields ++ [.closeObject])

def itemTokens : List Value → List Token
  | [] => []
  | [v] => tokens v
  | v :: w :: rest => tokens v ++ .comma :: itemTokens (w :: rest)

def fieldTokens : List (String × Value) → List Token
  | [] => []
  | [(k, v)] => .text (.ok k) :: .colon :: tokens v
  | (k, v) :: f :: rest =>
    .text (.ok k) :: .colon :: (tokens v ++ .comma :: fieldTokens (f :: rest))

end

theorem lex_cons {x : Symbol} {rest : List Symbol} (h : isSpace x = false) :
    lex (x :: rest) = (lexOne x rest).1 :: lex (lexOne x rest).2 := by
  rw [lex, h]
  rfl

theorem lexOne_digit {c : Char} (h : c.isDigit) (rest : List Symbol) :
    lexOne (some c) rest = lexNumber false (some c :: rest) := by
  have hdigit : (digit? (some c)).isSome := by simp [digit?, h]
  unfold lexOne
  split <;> simp_all

theorem isSpace_digit {c : Char} (h : c.isDigit) : isSpace (some c) = false := by
  simp only [isSpace, Bool.or_eq_false_iff, beq_eq_false_iff_ne, ne_eq, Option.some.injEq]
  refine ⟨⟨⟨?_, ?_⟩, ?_⟩, ?_⟩ <;> (rintro rfl; exact absurd h (by decide))

theorem digits_ofNat (n : Nat) : digits (.ofNat n) = Nat.toDigits 10 n := by
  simp [digits, toString, Int.repr, Nat.toList_repr]

theorem digits_negSucc (n : Nat) : digits (.negSucc n) = '-' :: Nat.toDigits 10 (n + 1) := by
  simp [digits, toString, Int.repr, Nat.toList_repr]

/-- An integer is one token. -/
theorem lex_digits (i : Int) {rest : List Symbol} (h : Delimited rest) :
    lex ((digits i).map some ++ rest) = .number (.ofInt i) :: lex rest := by
  cases i with
  | ofNat n =>
    obtain ⟨c, cs, hcs⟩ : ∃ c cs, Nat.toDigits 10 n = c :: cs :=
      List.exists_cons_of_ne_nil (by simp)
    have hc : c.isDigit :=
      Nat.isDigit_of_mem_toDigits (by decide) (by decide) (hcs ▸ List.mem_cons_self)
    have hnumber := lexNumber_decimal false n h
    rw [hcs, List.map_cons, List.cons_append] at hnumber
    rw [digits_ofNat, hcs, List.map_cons, List.cons_append, lex_cons (isSpace_digit hc),
      lexOne_digit hc, hnumber]
    simp [Number.ofInt]
  | negSucc n =>
    rw [digits_negSucc, List.map_cons, List.cons_append, lex_cons (by decide), lexOne,
      lexNumber_decimal true (n + 1) h]
    simp [Number.ofInt]

/-- A text between quotes is one token. -/
theorem lex_quote (t : String) (rest : List Symbol) :
    lex ((quote t).map some ++ rest) = .text (.ok t) :: lex rest := by
  have h := lexText_quote t rest
  simp only [quote, List.map_cons, List.map_append, List.map_nil, List.cons_append,
    List.append_assoc, List.nil_append]
  rw [lex_cons (by decide), lexOne, h]

/-- A mark of one character is one token. -/
theorem lex_mark {c : Char} {t : Token} (rest : List Symbol) (hspace : isSpace (some c) = false)
    (h : lexOne (some c) rest = (t, rest)) : lex (some c :: rest) = t :: lex rest := by
  rw [lex_cons hspace, h]

mutual

/-- The characters of a document give its tokens. -/
theorem lex_compactChars (v : Value) {rest : List Symbol} (h : Delimited rest) :
    lex (v.compactChars.map some ++ rest) = tokens v ++ lex rest := by
  cases v with
  | null => simp [Value.compactChars, tokens, lex_cons, isSpace, lexOne, lexWord]
  | bool b => cases b <;> simp [Value.compactChars, tokens, lex_cons, isSpace, lexOne, lexWord]
  | int i => simpa [Value.compactChars, tokens] using lex_digits i h
  | text t => simpa [Value.compactChars, tokens] using lex_quote t rest
  | list items =>
    have hitems := lex_compactItems items (delimited_mark (c := ']') (by decide) rest)
    simp only [Value.compactChars, tokens, List.map_cons, List.map_append, List.map_nil,
      List.cons_append, List.append_assoc, List.nil_append]
    rw [lex_mark _ (by decide) rfl, hitems, lex_mark _ (by decide) rfl]
  | object fields =>
    have hfields := lex_compactFields fields (delimited_mark (c := '}') (by decide) rest)
    simp only [Value.compactChars, tokens, List.map_cons, List.map_append, List.map_nil,
      List.cons_append, List.append_assoc, List.nil_append]
    rw [lex_mark _ (by decide) rfl, hfields, lex_mark _ (by decide) rfl]

theorem lex_compactItems (items : List Value) {rest : List Symbol} (h : Delimited rest) :
    lex ((Value.compactItems items).map some ++ rest) = itemTokens items ++ lex rest := by
  match items with
  | [] => simp [Value.compactItems, itemTokens]
  | [v] => simpa [Value.compactItems, itemTokens] using lex_compactChars v h
  | v :: w :: items =>
    have hitems := lex_compactItems (w :: items) h
    simp only [Value.compactItems, itemTokens, List.map_cons, List.map_append,
      List.cons_append, List.append_assoc]
    rw [lex_compactChars v (delimited_mark (by decide) _), lex_mark _ (by decide) rfl, hitems]

theorem lex_compactFields (fields : List (String × Value)) {rest : List Symbol}
    (h : Delimited rest) :
    lex ((Value.compactFields fields).map some ++ rest) = fieldTokens fields ++ lex rest := by
  match fields with
  | [] => simp [Value.compactFields, fieldTokens]
  | [(k, v)] =>
    simp only [Value.compactFields, fieldTokens, List.map_cons, List.map_append,
      List.cons_append, List.append_assoc]
    rw [lex_quote, lex_mark _ (by decide) rfl, lex_compactChars v h]
  | (k, v) :: f :: fields =>
    have hfields := lex_compactFields (f :: fields) h
    simp only [Value.compactFields, fieldTokens, List.map_cons, List.map_append,
      List.cons_append, List.append_assoc]
    rw [lex_quote, lex_mark _ (by decide) rfl, lex_compactChars v (delimited_mark (by decide) _),
      lex_mark _ (by decide) rfl, hfields]

end

end Rollout.Json
