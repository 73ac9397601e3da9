/-
Texts on one line: where their characters are, and how scalars are read of them.

* `locate_cons`, `length_locate_append`: characters that end no line have their places in a row;
* `doubleQuoted_escaped`: an escaped text is read back, up to its closing quote;
* `plain_word`: a word or a number is read up to the mark that stands behind it.

A quoted text is read with a gap: blanks wait there until it is known that no line ends behind them.
On one line it does not matter whether a blank waits or is part of the text already.
-/
import Rollout.Json.Value
import Rollout.Proofs.Json.Literal
import Rollout.Yaml.Scalar

namespace Rollout.Yaml

/-! ### Places -/

/-- How many bytes some characters take. -/
def width : List Char → Nat
  | [] => 0
  | c :: cs => c.utf8Size + width cs

@[simp] theorem width_nil : width [] = 0 := rfl

@[simp] theorem width_cons (c : Char) (cs : List Char) :
    width (c :: cs) = c.utf8Size + width cs := rfl

@[simp] theorem width_append (cs ds : List Char) : width (cs ++ ds) = width cs + width ds := by
  induction cs with
  | nil => simp
  | cons c cs ih => simp [ih, Nat.add_assoc]

/-- No line ends among these characters. -/
def Unbroken (cs : List Char) : Prop :=
  ∀ c ∈ cs, isBreak c = false

variable {line column offset : Nat} {cs rest : List Char}

theorem locate_cons {c : Char} (hc : isBreak c = false) :
    locate line column offset (c :: cs)
      = ⟨c, line, column, offset⟩ :: locate line (column + 1) (offset + c.utf8Size) cs := by
  rw [locate]
  · simp [hc]
  · rintro _ rfl
    exact absurd hc (by decide)

theorem length_locate_append (h : Unbroken cs) :
    (locate line column offset (cs ++ rest)).length
      = cs.length + (locate line (column + cs.length) (offset + width cs) rest).length := by
  induction cs generalizing column offset with
  | nil => simp
  | cons c cs ih =>
    obtain ⟨hc, hcs⟩ := List.forall_mem_cons.mp h
    rw [List.cons_append, locate_cons hc, List.length_cons, ih hcs, width_cons, List.length_cons]
    simp only [Nat.add_assoc, Nat.add_comm 1]

/-- A document mark stands at the front of a line and begins with itself. -/
theorem isDocumentMark_of_ne {mark : Char} {c : Cell} {cells : List Cell}
    (h : c.column ≠ 0 ∨ c.char ≠ mark) : isDocumentMark mark (c :: cells) = false := by
  unfold isDocumentMark
  split
  · next heq =>
    obtain ⟨rfl, -⟩ := List.cons.inj heq
    rcases h with h | h <;> simp [h]
  · rfl

theorem isDocumentMark_of_column {mark : Char} {c : Cell} {cells : List Cell}
    (h : c.column ≠ 0) : isDocumentMark mark (c :: cells) = false :=
  isDocumentMark_of_ne (.inl h)

theorem isAnyDocumentMark_of_column {c : Cell} {cells : List Cell} (h : c.column ≠ 0) :
    isAnyDocumentMark (c :: cells) = false := by
  simp [isAnyDocumentMark, isDocumentMark_of_column h]

/-! ### Quoted scalars -/

/-- A character that a quoted scalar may hold on one line, as it is or escaped: no delete or C1
control character, no separator of lines or paragraphs, no byte order mark and no noncharacter. -/
def Legible (c : Char) : Prop :=
  ¬ (0x7f ≤ c.toNat ∧ c.toNat ≤ 0x9f) ∧ c.toNat ∉ [0x2028, 0x2029, 0xfeff, 0xfffe, 0xffff]

instance : DecidablePred Legible := fun _ => inferInstanceAs (Decidable (_ ∧ _))

theorem Legible.isBreak {c : Char} (h : Legible c) (hcontrol : 0x20 ≤ c.toNat) :
    isBreak c = false := by
  obtain ⟨hrange, hmarks⟩ := h
  simp only [Yaml.isBreak, Bool.or_eq_false_iff, beq_eq_false_iff_ne]
  refine ⟨⟨⟨⟨?_, ?_⟩, ?_⟩, ?_⟩, ?_⟩ <;> rintro rfl
  · exact absurd hcontrol (by decide)
  · exact absurd hcontrol (by decide)
  · exact hrange (by decide)
  · exact hmarks (by decide)
  · exact hmarks (by decide)

theorem Legible.isAllowed {c : Char} (h : Legible c) (hcontrol : 0x20 ≤ c.toNat) :
    isAllowed c = true := by
  obtain ⟨hrange, hmarks⟩ := h
  have hvalid : c.toNat < 0xd800 ∨ 0xdfff < c.toNat := c.valid.imp id And.left
  simp only [List.mem_cons, List.not_mem_nil, or_false, not_or] at hmarks
  simp only [Yaml.isAllowed, Bool.or_eq_true, Bool.and_eq_true, decide_eq_true_eq, beq_iff_eq]
  omega

theorem isBreak_hexDigit (n : Nat) : isBreak (Json.hexDigit n) = false := by
  have hall : ∀ m < 16, isBreak (Nat.digitChar m) = false := by decide
  exact hall (n % 16) (Nat.mod_lt n (by decide))

theorem isAllowed_hexDigit (n : Nat) : isAllowed (Json.hexDigit n) = true := by
  have hall : ∀ m < 16, isAllowed (Nat.digitChar m) = true := by decide
  exact hall (n % 16) (Nat.mod_lt n (by decide))

theorem hexDigit?_hexDigit (n : Nat) : hexDigit? (Json.hexDigit n) = some (n % 16) := by
  have hall : ∀ m < 16, hexDigit? (Nat.digitChar m) = some m := by decide
  exact hall (n % 16) (Nat.mod_lt n (by decide))

/-- The short escapes of JSON mean the same here. -/
theorem simpleEscape?_of_json {e c : Char} (h : Json.simpleEscape? e = some c) :
    simpleEscape? e = some c ∧ isBreak e = false ∧ isAllowed e = true := by
  have hmem := Json.simpleEscape?_eq_some_iff.mp h
  simp only [Json.shortEscapes, List.mem_cons, Prod.mk.injEq, List.not_mem_nil, or_false] at hmem
  rcases hmem with ⟨rfl, rfl⟩ | ⟨rfl, rfl⟩ | ⟨rfl, rfl⟩ | ⟨rfl, rfl⟩ | ⟨rfl, rfl⟩ | ⟨rfl, rfl⟩ |
    ⟨rfl, rfl⟩ | ⟨rfl, rfl⟩ <;> decide

theorem ofCodePoint_toNat (c : Char) : ofCodePoint c.toNat = .ok c := by
  have hvalid : c.toNat.isValidChar := c.valid
  rw [ofCodePoint, dif_pos hvalid]
  rfl

/-- What is written for a legible character may stand in a text and ends no line. -/
theorem Legible.of_mem_escapeChar {c x : Char} (h : Legible c) (hx : x ∈ Json.escapeChar c) :
    Yaml.isBreak x = false ∧ Yaml.isAllowed x = true := by
  obtain ⟨hwritten, -, -, hcontrol⟩ | ⟨e, hwritten, -, he⟩ | ⟨hwritten, -⟩ :=
    Json.escapeChar_cases c
  · rw [hwritten, List.mem_singleton] at hx
    have hcontrol := Json.isControl_eq_false_iff.mp hcontrol
    exact hx ▸ ⟨h.isBreak hcontrol, h.isAllowed hcontrol⟩
  · rw [hwritten, List.mem_cons, List.mem_singleton] at hx
    obtain rfl | rfl := hx
    · decide
    · exact (simpleEscape?_of_json he).2
  · simp only [hwritten, List.mem_cons, List.not_mem_nil, or_false] at hx
    rcases hx with rfl | rfl | rfl | rfl | rfl | rfl
    iterate 4 decide
    all_goals exact ⟨isBreak_hexDigit _, isAllowed_hexDigit _⟩

theorem all_isAllowed_quote {t : String} (ht : ∀ c ∈ t.toList, Legible c) :
    (Json.quote t).all isAllowed = true := by
  have hquote : isAllowed '"' = true := by decide
  simp only [Json.quote, List.all_cons, List.all_append, List.all_flatMap, List.all_nil, hquote,
    Bool.true_and, Bool.and_true, List.all_eq_true]
  exact fun c hc x hx => ((ht c hc).of_mem_escapeChar hx).2

theorem unbroken_quote {t : String} (ht : ∀ c ∈ t.toList, Legible c) :
    Unbroken (Json.quote t) := by
  intro x hx
  simp only [Json.quote, List.mem_cons, List.mem_append, List.mem_flatMap, List.not_mem_nil,
    or_false] at hx
  rcases hx with rfl | ⟨c, hc, hx⟩ | rfl
  · decide
  · exact ((ht c hc).of_mem_escapeChar hx).1
  · decide

section Quoted

variable {text : List Char} {gap : Gap} {cells : List Cell} {c : Char}

theorem Gap.folded_of_unbroken (h : gap.broken = false) : gap.folded = gap.blanks := by
  simp [folded, h]

/-- Any other character than a blank, a quote or a backslash stands for itself. -/
theorem doubleQuoted_plain (hbreak : isBreak c = false) (hblank : isBlank c = false)
    (hend : c ≠ endMark) (hquote : c ≠ '"') (hescape : c ≠ '\\') (hcolumn : column ≠ 0) :
    doubleQuoted text gap .none (⟨c, line, column, offset⟩ :: cells)
      = doubleQuoted (c :: gap.folded ++ text) {} .none cells := by
  rw [doubleQuoted.eq_def]
  simp [hbreak, hblank, hend, hquote, hescape, isAnyDocumentMark_of_column, hcolumn]

theorem doubleQuoted_blank (hblank : isBlank c = true) :
    doubleQuoted text gap .none (⟨c, line, column, offset⟩ :: cells)
      = doubleQuoted text (gap.blank c) .none cells := by
  rw [doubleQuoted.eq_def]
  simp [hblank]

theorem doubleQuoted_close (hcolumn : column ≠ 0) :
    doubleQuoted text gap .none (⟨'"', line, column, offset⟩ :: cells)
      = .ok (ofReversed (gap.folded ++ text), cells) := by
  rw [doubleQuoted.eq_def]
  simp [isBlank, isBreak, endMark, isAnyDocumentMark_of_column, hcolumn]

theorem doubleQuoted_short {e : Char} {next : Cell} (hnext : next.char = e)
    (hbreak : isBreak e = false) (hescape : simpleEscape? e = some c) (hcolumn : column ≠ 0) :
    doubleQuoted text gap .none (⟨'\\', line, column, offset⟩ :: next :: cells)
      = doubleQuoted (c :: gap.folded ++ text) {} .none cells := by
  subst hnext
  have hslash : isBlank '\\' = false ∧ isBreak '\\' = false ∧ ('\\' == endMark) = false := by decide
  rw [doubleQuoted.eq_def]
  simp [hslash, isAnyDocumentMark_of_column, hcolumn, hbreak, hescape]

theorem doubleQuoted_unicode {next : Cell} (hnext : next.char = 'u') (hcolumn : column ≠ 0) :
    doubleQuoted text gap .none (⟨'\\', line, column, offset⟩ :: next :: cells)
      = doubleQuoted (gap.folded ++ text) {} (.hex 4 0) cells := by
  have hslash : isBlank '\\' = false ∧ isBreak '\\' = false ∧ ('\\' == endMark) = false := by decide
  have hunicode : isBreak 'u' = false ∧ simpleEscape? 'u' = none ∧ escapeDigits? 'u' = some 4 := by
    decide
  rw [doubleQuoted.eq_def]
  simp [hslash, isAnyDocumentMark_of_column, hcolumn, hnext, hunicode]

theorem doubleQuoted_digit {x : Cell} {left value d : Nat} (hd : hexDigit? x.char = some d) :
    doubleQuoted text gap (.hex (left + 2) value) (x :: cells)
      = doubleQuoted text gap (.hex (left + 1) (value * 16 + d)) cells := by
  rw [doubleQuoted.eq_def]
  simp [hd]

theorem doubleQuoted_lastDigit {x : Cell} {value d : Nat} (hd : hexDigit? x.char = some d)
    (hc : ofCodePoint (value * 16 + d) = .ok c) :
    doubleQuoted text gap (.hex 1 value) (x :: cells)
      = doubleQuoted (c :: text) {} .none cells := by
  rw [doubleQuoted.eq_def]
  simp [hd, hc]

end Quoted

/-- One character of a text, however it is escaped: it stands behind what was read before. -/
theorem doubleQuoted_escapeChar (line offset : Nat) (rest text : List Char) {c : Char}
    (hc : Legible c) {gap : Gap} (hgap : gap.broken = false) (hcolumn : column ≠ 0) :
    ∃ text' gap', gap'.broken = false ∧ gap'.blanks ++ text' = c :: (gap.blanks ++ text) ∧
      doubleQuoted text gap .none (locate line column offset (Json.escapeChar c ++ rest))
        = doubleQuoted text' gap' .none (locate line (column + (Json.escapeChar c).length)
          (offset + width (Json.escapeChar c)) rest) := by
  have hfolded := Gap.folded_of_unbroken hgap
  obtain ⟨h, hquote, hslash, hcontrol⟩ | ⟨e, h, hu, he⟩ | ⟨h, hlow⟩ := Json.escapeChar_cases c
  · have hbreak := hc.isBreak (Json.isControl_eq_false_iff.mp hcontrol)
    rw [h, List.singleton_append, locate_cons hbreak]
    by_cases hblank : isBlank c = true
    · -- the blank waits in the gap, in front of what is in the text
      refine ⟨text, gap.blank c, ?_, ?_, ?_⟩
      · simp [Gap.blank, hgap]
      · simp [Gap.blank, hgap]
      · rw [doubleQuoted_blank hblank]
        simp
    · have hend : c ≠ endMark := by
        rintro rfl
        exact absurd hcontrol (by decide)
      refine ⟨c :: gap.folded ++ text, {}, rfl, by simp [hfolded], ?_⟩
      rw [doubleQuoted_plain hbreak (by simpa using hblank) hend hquote hslash hcolumn]
      simp
  · -- a letter behind the backslash
    obtain ⟨hescape, hbreak, -⟩ := simpleEscape?_of_json he
    refine ⟨c :: gap.folded ++ text, {}, rfl, by simp [hfolded], ?_⟩
    rw [h, List.cons_append, List.singleton_append, locate_cons (by decide), locate_cons hbreak,
      doubleQuoted_short rfl hbreak hescape hcolumn]
    simp [Nat.add_assoc]
  · -- four digits, of which the first two are zero
    have hzero : hexDigit? '0' = some 0 := by decide
    have hvalue : ((0 * 16 + 0) * 16 + 0) * 16 + c.toNat / 16 % 16 = c.toNat / 16 := by omega
    have hcode : ofCodePoint (c.toNat / 16 * 16 + c.toNat % 16) = .ok c := by
      rw [Nat.div_add_mod', ofCodePoint_toNat]
    refine ⟨c :: (gap.folded ++ text), {}, rfl, by simp [hfolded], ?_⟩
    simp only [h, List.cons_append, List.nil_append]
    rw [locate_cons (by decide), locate_cons (by decide), locate_cons (by decide),
      locate_cons (by decide), locate_cons (isBreak_hexDigit _), locate_cons (isBreak_hexDigit _),
      doubleQuoted_unicode rfl hcolumn, doubleQuoted_digit hzero, doubleQuoted_digit hzero,
      doubleQuoted_digit (hexDigit?_hexDigit _), hvalue,
      doubleQuoted_lastDigit (hexDigit?_hexDigit _) hcode]
    simp [Nat.add_assoc]

/-- **Quoted texts**: an escaped text is read back, up to its closing quote. -/
theorem doubleQuoted_escaped {t : List Char} (ht : ∀ c ∈ t, Legible c) {text : List Char}
    {gap : Gap} (hgap : gap.broken = false) (hcolumn : column ≠ 0) :
    doubleQuoted text gap .none
        (locate line column offset (t.flatMap Json.escapeChar ++ '"' :: rest))
      = .ok (ofReversed (t.reverse ++ (gap.blanks ++ text)),
        locate line (column + (t.flatMap Json.escapeChar ++ ['"']).length)
          (offset + width (t.flatMap Json.escapeChar ++ ['"'])) rest) := by
  induction t generalizing text gap column offset with
  | nil =>
    rw [List.flatMap_nil, List.nil_append, locate_cons (by decide), doubleQuoted_close hcolumn,
      Gap.folded_of_unbroken hgap]
    rfl
  | cons c t ih =>
    obtain ⟨hc, ht⟩ := List.forall_mem_cons.mp ht
    obtain ⟨text', gap', hgap', hread, hstep⟩ := doubleQuoted_escapeChar line offset
      (t.flatMap Json.escapeChar ++ '"' :: rest) text hc hgap hcolumn
    rw [List.flatMap_cons, List.append_assoc, hstep, ih ht hgap' (by omega), hread]
    simp [Nat.add_assoc]

/-! ### Words -/

/-- A mark that ends what stands before it inside brackets. -/
def FlowEnd (cs : List Char) : Prop :=
  ∃ m rest, cs = m :: rest ∧ m ∈ [',', ']', '\x7d']

/-- Blanks, line ends, and the marks that names do not have. -/
def marks : List Char :=
  [' ', '\t', '\r', '\n', '\u0085', '\u2028', '\u2029', endMark, '#', ':', ',', '[', ']', '\x7b',
    '\x7d', '?', '*', '&', '!', '|', '>', '\'', '"', '%', '@', '\x60', '.']

theorem notMem_marks {c : Char} (h : isNameChar c = true) : c ∉ marks := by
  intro hmem
  have hall : marks.all (!isNameChar ·) = true := by decide
  simpa [h] using List.all_eq_true.mp hall c hmem

/-- Letters and digits are printable ASCII characters. -/
theorem printable_of_isAlphanum {c : Char} (h : c.isAlphanum = true) :
    0x20 ≤ c.toNat ∧ c.toNat ≤ 0x7e := by
  have hranges : ((65 ≤ c.toNat ∧ c.toNat ≤ 90) ∨ 97 ≤ c.toNat ∧ c.toNat ≤ 122) ∨
      48 ≤ c.toNat ∧ c.toNat ≤ 57 := by
    delta Char.isAlphanum Char.isAlpha Char.isUpper Char.isLower Char.isDigit at h
    simpa [UInt32.le_iff_toNat_le] using h
  omega

theorem isAllowed_of_isNameChar {c : Char} (h : isNameChar c = true) : isAllowed c = true := by
  simp only [isNameChar, Bool.or_eq_true, beq_iff_eq] at h
  rcases h with (h | rfl) | rfl
  · simp [isAllowed, printable_of_isAlphanum h]
  · decide
  · decide

theorem isBreak_of_notMem {c : Char} (h : c ∉ marks) : isBreak c = false := by
  simp only [marks, List.mem_cons, not_or] at h
  simp [isBreak, h]

theorem charAt_locate {c : Char} (h : isBreak c = false) :
    charAt (locate line column offset (c :: cs)) = c := by
  rw [locate_cons h, charAt]

/-- Neither a word nor what ends one begins with a blank or at the end of a line. -/
theorem isBlankOrEnd_charAt (hcs : ∀ c ∈ cs, isNameChar c = true) (hrest : FlowEnd rest) :
    isBlankOrEnd (charAt (locate line column offset (cs ++ rest))) = false := by
  cases cs with
  | nil =>
    obtain ⟨m, rest, rfl, hm⟩ := hrest
    have hmark : isBreak m = false ∧ isBlankOrEnd m = false := by fin_cases hm <;> decide
    rw [List.nil_append, charAt_locate hmark.1, hmark.2]
  | cons c cs =>
    have hmarks := notMem_marks (hcs c List.mem_cons_self)
    have hbreak := isBreak_of_notMem hmarks
    simp only [marks, List.mem_cons, not_or] at hmarks
    rw [List.cons_append, charAt_locate hbreak]
    simp [isBlankOrEnd, isBlank, isBreakOrEnd, hbreak, hmarks]

theorem isNameChar_digits (i : Int) : ∀ c ∈ Json.digits i, isNameChar c = true := by
  have hdigits (n : Nat) : ∀ c ∈ Nat.toDigits 10 n, isNameChar c = true := fun c hc => by
    have hdigit := Nat.isDigit_of_mem_toDigits (by decide) (by decide) hc
    simp [isNameChar, Char.isAlphanum, hdigit]
  cases i with
  | ofNat n => rw [Json.digits_ofNat]; exact hdigits n
  | negSucc n =>
    rw [Json.digits_negSucc]
    exact List.forall_mem_cons.mpr ⟨by decide, hdigits _⟩

theorem digits_ne_nil (i : Int) : Json.digits i ≠ [] := by
  cases i with
  | ofNat n => rw [Json.digits_ofNat]; simp
  | negSucc n => rw [Json.digits_negSucc]; simp

/-- **Words**: a word or a number is read up to the mark that stands behind it. -/
theorem plain_word (hcs : ∀ c ∈ cs, isNameChar c = true) (hrest : FlowEnd rest)
    (hcolumn : column ≠ 0) (indent : Nat) (text : List Char) (word : Bool) :
    plain true indent text {} word (locate line column offset (cs ++ rest))
      = .ok ⟨ofReversed (cs.reverse ++ text), false,
        locate line (column + cs.length) (offset + width cs) rest⟩ := by
  induction cs generalizing text word column offset with
  | nil =>
    obtain ⟨m, rest, rfl, hm⟩ := hrest
    have hmark : isBlank m = false ∧ isBreak m = false ∧ m ≠ endMark ∧ m ≠ '#' ∧ m ≠ ':' ∧
        isFlowMark m = true := by
      fin_cases hm <;> decide
    rw [List.nil_append, locate_cons hmark.2.1, plain]
    simp [hmark, isAnyDocumentMark_of_column, hcolumn, locate_cons]
  | cons c cs ih =>
    obtain ⟨hc, hcs⟩ := List.forall_mem_cons.mp hcs
    have hmarks := notMem_marks hc
    have hbreak := isBreak_of_notMem hmarks
    simp only [marks, List.mem_cons, not_or] at hmarks
    rw [List.cons_append, locate_cons hbreak, plain]
    simp [isBlank, hbreak, isFlowMark, hmarks, isAnyDocumentMark_of_column, hcolumn, Gap.folded,
      ih hcs, Nat.add_assoc, Nat.add_comm 1]

end Rollout.Yaml
