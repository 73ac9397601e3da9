/-
The tokens of a JSON text.

`lex` cuts a text into tokens up to its end, or up to the first place that is no token.

Design notes:
* a text is read as symbols: characters, and bytes that belong to no character, which may stand
  in a text literal that nobody asks for;
* a text literal has two readings.  `skipText` finds where it ends; `textValue` finds what it
  says, and is stricter: half a surrogate pair or a stray byte has an end but says nothing;
* where reading stops it either met something wrong or the end of the text (`Stop`), and for a
  literal that depends on whether its value is wanted (`Break`).
-/
import Rollout.Json.Number
import Rollout.Text.Utf8

namespace Rollout.Json

/-- A character, or a byte that belongs to no character. -/
abbrev Symbol := Option Char

/-- The symbols of a text. -/
def symbols (s : String) : List Symbol :=
  s.toList.map some

/-- Why reading stops: at something that cannot stand there, or at the end of the text. -/
inductive Stop where
  | malformed
  | truncated
  deriving DecidableEq, Repr, Inhabited

/-- What kind of thing was being read when reading stopped. -/
inductive Break.Kind where
  | nothing
  | text
  | nullWord
  | other
  deriving DecidableEq, Repr, Inhabited

/-- A place where reading stops. -/
structure Break where
  kind : Break.Kind
  /-- The reason when the value is wanted. -/
  wanted : Stop
  /-- The reason when it is passed over. -/
  passed : Stop
  deriving DecidableEq, Repr, Inhabited

/-- The end of the text where something should follow. -/
def Break.atEnd : Break := ⟨.nothing, .truncated, .truncated⟩

/-- Something that cannot stand where it stands. -/
def Break.atOther : Break := ⟨.other, .malformed, .malformed⟩

inductive Token where
  | openList | closeList | openObject | closeObject | comma | colon
  | null
  | bool (b : Bool)
  | number (n : Number)
  /-- A text literal that ends, and what it says. -/
  | text (value : Except Stop String)
  | broken (b : Break)

/-! ### Text literals -/

/-- The value of a hexadecimal digit. -/
def hexValue? (c : Char) : Option Nat :=
  if '0' ≤ c && c ≤ '9' then some (c.toNat - '0'.toNat)
  else if 'a' ≤ c && c ≤ 'f' then some (c.toNat - 'a'.toNat + 10)
  else if 'A' ≤ c && c ≤ 'F' then some (c.toNat - 'A'.toNat + 10)
  else none

/-- The bytes that some symbols take. -/
def byteCount (s : List Symbol) : Nat :=
  s.foldl (fun n x => n + (x.map Char.utf8Size).getD 1) 0

/-- The number after `\u`.  With fewer than four bytes left the text has ended. -/
def hex4 : List Symbol → Except Stop (Nat × List Symbol)
  | s@(some a :: some b :: some c :: some d :: rest) =>
    if byteCount (s.take 4) < 4 then .error .truncated
    else match hexValue? a, hexValue? b, hexValue? c, hexValue? d with
      | some a, some b, some c, some d => .ok (((a * 16 + b) * 16 + c) * 16 + d, rest)
      | _, _, _, _ => .error .malformed
  | s => .error (if byteCount (s.take 4) < 4 then .truncated else .malformed)

theorem length_hex4 {s rest : List Symbol} {n : Nat} (h : hex4 s = .ok (n, rest)) :
    rest.length < s.length := by
  unfold hex4 at h
  split at h
  · split at h
    · simp at h
    · split at h
      · simp only [Except.ok.injEq, Prod.mk.injEq] at h
        simp [h.2.symm]; omega
      · simp at h
  · simp at h

/-- The character that a one-letter escape stands for. -/
def simpleEscape? (c : Char) : Option Char :=
  match c with
  | '"' => some '"'
  | '\\' => some '\\'
  | '/' => some '/'
  | 'b' => some '\x08'
  | 'f' => some '\x0c'
  | 'n' => some '\n'
  | 'r' => some '\r'
  | 't' => some '\t'
  | _ => none

def isControl (c : Char) : Bool := c.toNat < 0x20

/-- Finds the end of a text literal. -/
def skipText : List Symbol → Except Stop (List Symbol)
  | [] => .error .truncated
  | none :: rest => skipText rest
  | some '"' :: rest => .ok rest
  | [some '\\'] => .error .truncated
  | some '\\' :: none :: _ => .error .malformed
  | some '\\' :: some c :: rest =>
    if c == 'u' then
      match h : hex4 rest with
      | .error e => .error e
      | .ok (_, rest') =>
        have : rest'.length < rest.length := length_hex4 h
        skipText rest'
    else if (simpleEscape? c).isSome then skipText rest
    else .error .malformed
  | some c :: rest => if isControl c then .error .malformed else skipText rest
termination_by s => s.length

theorem length_skipText {s rest : List Symbol} (h : skipText s = .ok rest) :
    rest.length < s.length := by
  fun_induction skipText s with
  | case1 => simp at h
  | case2 s ih => have := ih h; simp; omega
  | case3 s => simp only [Except.ok.injEq] at h; simp [h]
  | case4 => simp at h
  | case5 => simp at h
  | case6 => simp at h
  | case7 _ _ _ _ _ _ hlen ih => have := ih h; simp; omega
  | case8 _ _ _ _ ih => have := ih h; simp; omega
  | case9 => simp at h
  | case10 => simp at h
  | case11 _ _ _ _ _ _ _ ih => have := ih h; simp; omega

/-- A code unit that begins a surrogate pair. -/
def isHighSurrogate (n : Nat) : Bool := 0xD800 ≤ n && n < 0xDC00

/-- A code unit that ends a surrogate pair. -/
def isLowSurrogate (n : Nat) : Bool := 0xDC00 ≤ n && n < 0xE000

/-- Puts a character in front of what follows, if that can be read. -/
def prepend (c : Char) (rest : Except Stop (List Char)) : Except Stop (List Char) :=
  rest.map (c :: ·)

/-- The code unit of an escape that has to follow another one, and the symbols after it. -/
def secondUnit : List Symbol → Except Stop (Nat × List Symbol)
  | [] => .error .truncated
  | [some '\\'] => .error .truncated
  | some '\\' :: some 'u' :: rest => hex4 rest
  | _ => .error .malformed

theorem length_secondUnit {s rest : List Symbol} {n : Nat} (h : secondUnit s = .ok (n, rest)) :
    rest.length < s.length := by
  unfold secondUnit at h
  split at h
  · simp at h
  · simp at h
  · have := length_hex4 h
    simp only [List.length_cons]
    omega
  · simp at h

/-- What the symbols of a text literal say, up to the closing quote. -/
def textValue : List Symbol → Except Stop (List Char)
  | [] => .error .truncated
  | none :: rest => do
    let _ ← textValue rest
    .error .malformed
  | some '"' :: _ => .ok []
  | [some '\\'] => .error .truncated
  | some '\\' :: none :: _ => .error .malformed
  | some '\\' :: some c :: rest =>
    if c == 'u' then
      match h : hex4 rest with
      | .error e => .error e
      | .ok (n, rest') =>
        have : rest'.length < rest.length := length_hex4 h
        if isHighSurrogate n then
          match h' : secondUnit rest' with
          | .error e => .error e
          | .ok (m, tail) =>
            have : tail.length < rest'.length := length_secondUnit h'
            if isLowSurrogate m then
              prepend (Char.ofNat (0x10000 + (n - 0xD800) * 0x400 + (m - 0xDC00))) (textValue tail)
            else .error .malformed
        else if isLowSurrogate n then .error .malformed
        else prepend (Char.ofNat n) (textValue rest')
    else match simpleEscape? c with
      | some c => prepend c (textValue rest)
      | none => .error .malformed
  | some c :: rest => if isControl c then .error .malformed else prepend c (textValue rest)
termination_by s => s.length
decreasing_by
  all_goals simp only [List.length_cons]
  all_goals omega

/-- A token for the text literal after its opening quote, and the symbols after it. -/
def lexText (s : List Symbol) : Token × List Symbol :=
  match skipText s with
  | .ok rest => (.text ((textValue s).map String.ofList), rest)
  | .error passed =>
    let wanted := match textValue s with
      | .error e => e
      | .ok _ => passed
    (.broken ⟨.text, wanted, passed⟩, [])

/-! ### Numbers and words -/

def digit? : Symbol → Option Nat
  | some c => if c.isDigit then some (c.toNat - '0'.toNat) else none
  | none => none

/-- The digits at the front. -/
def takeNumerals : List Symbol → List Nat × List Symbol
  | [] => ([], [])
  | x :: rest =>
    match digit? x with
    | some d => (d :: (takeNumerals rest).1, (takeNumerals rest).2)
    | none => ([], x :: rest)

theorem length_takeNumerals (s : List Symbol) : (takeNumerals s).2.length ≤ s.length := by
  induction s with
  | nil => simp [takeNumerals]
  | cons x rest ih =>
    simp only [takeNumerals]
    split
    · exact Nat.le_succ_of_le ih
    · exact Nat.le_refl _

/-- Reading stops inside a number; a number that is passed over counts as wrong at the end too. -/
def numberBreak (rest : List Symbol) : Break :=
  ⟨.other, if rest.isEmpty then .truncated else .malformed, .malformed⟩

/-- The digits before the point: no zero in front of another digit. -/
def lexWhole (s : List Symbol) : Except Break (List Nat × List Symbol) :=
  match takeNumerals s with
  | ([], rest) => .error (numberBreak rest)
  | (0 :: _ :: _, _) => .error .atOther
  | (ds, rest) => .ok (ds, rest)

/-- The point and the digits after it, if there is a point. -/
def lexFraction (s : List Symbol) : Except Break (Option (List Nat) × List Symbol) :=
  match s with
  | some '.' :: rest =>
    match takeNumerals rest with
    | ([], rest') => .error (numberBreak rest')
    | (ds, rest') => .ok (some ds, rest')
  | _ => .ok (none, s)

/-- The exponent, if there is one. -/
def lexExponent (s : List Symbol) : Except Break (Option Int × List Symbol) :=
  match s with
  | some c :: rest =>
    if c == 'e' || c == 'E' then
      let (sign, rest) : Int × List Symbol := match rest with
        | some '+' :: r => (1, r)
        | some '-' :: r => (-1, r)
        | r => (1, r)
      match takeNumerals rest with
      | ([], rest') => .error (numberBreak rest')
      | (ds, rest') => .ok (some (sign * Number.ofDigits ds), rest')
    else .ok (none, s)
  | _ => .ok (none, s)

/-- A number literal without its sign. -/
def lexUnsigned (negative : Bool) (s : List Symbol) : Except Break (Number × List Symbol) := do
  let (whole, s) ← lexWhole s
  let (fraction, s) ← lexFraction s
  let (exponent, s) ← lexExponent s
  .ok (⟨negative, whole, fraction, exponent⟩, s)

/-- A token for a number, and the symbols after it. -/
def lexNumber (negative : Bool) (s : List Symbol) : Token × List Symbol :=
  match lexUnsigned negative s with
  | .ok (n, rest) => (.number n, rest)
  | .error b => (.broken b, [])

/-- A token for a word whose first letter was seen, and the symbols after it. -/
def lexWord (t : Token) (kind : Break.Kind) : List Char → List Symbol → Token × List Symbol
  | [], s => (t, s)
  | _ :: _, [] => (.broken ⟨kind, .truncated, .truncated⟩, [])
  | c :: cs, x :: rest =>
    if x == some c then lexWord t kind cs rest else (.broken ⟨kind, .malformed, .malformed⟩, [])

/-! ### All tokens -/

def isSpace (x : Symbol) : Bool :=
  x == some ' ' || x == some '\n' || x == some '\t' || x == some '\r'

/-- The token that begins with a given symbol, and the symbols after it. -/
def lexOne (x : Symbol) (rest : List Symbol) : Token × List Symbol :=
  match x with
  | some '[' => (.openList, rest)
  | some ']' => (.closeList, rest)
  | some '{' => (.openObject, rest)
  | some '}' => (.closeObject, rest)
  | some ',' => (.comma, rest)
  | some ':' => (.colon, rest)
  | some '"' => lexText rest
  | some '-' => lexNumber true rest
  | some 'n' => lexWord .null .nullWord ['u', 'l', 'l'] rest
  | some 't' => lexWord (.bool true) .other ['r', 'u', 'e'] rest
  | some 'f' => lexWord (.bool false) .other ['a', 'l', 's', 'e'] rest
  | x => if (digit? x).isSome then lexNumber false (x :: rest) else (.broken .atOther, [])

theorem length_lexText (s : List Symbol) : (lexText s).2.length ≤ s.length := by
  unfold lexText
  split
  · rename_i h; exact Nat.le_of_lt (length_skipText h)
  · simp

theorem length_lexFraction {s rest : List Symbol} {f} (h : lexFraction s = .ok (f, rest)) :
    rest.length ≤ s.length := by
  unfold lexFraction at h
  split at h
  · rename_i r
    have := length_takeNumerals r
    split at h
    · simp at h
    · rename_i heq
      simp only [Except.ok.injEq, Prod.mk.injEq] at h
      simp only [heq, h.2] at this
      simp only [List.length_cons]; omega
  · simp only [Except.ok.injEq, Prod.mk.injEq] at h
    simp [h.2]

theorem length_lexExponent {s rest : List Symbol} {e} (h : lexExponent s = .ok (e, rest)) :
    rest.length ≤ s.length := by
  unfold lexExponent at h
  split at h
  · rename_i c r
    split at h
    · split at h
      rename_i sign r' hr
      have hle : r'.length ≤ r.length := by
        split at hr <;> simp only [Prod.mk.injEq] at hr <;> simp [← hr.2]
      have := length_takeNumerals r'
      split at h
      · simp at h
      · rename_i heq
        simp only [Except.ok.injEq, Prod.mk.injEq] at h
        simp only [heq, h.2] at this
        simp only [List.length_cons]; omega
    · simp only [Except.ok.injEq, Prod.mk.injEq] at h
      simp [← h.2]
  · simp only [Except.ok.injEq, Prod.mk.injEq] at h
    simp [h.2]

theorem length_lexWhole {s rest : List Symbol} {ds} (h : lexWhole s = .ok (ds, rest)) :
    rest.length < s.length := by
  unfold lexWhole at h
  split at h
  · simp at h
  · simp at h
  · rename_i hne _ ds' r heq
    simp only [Except.ok.injEq, Prod.mk.injEq] at h
    obtain ⟨rfl, rfl⟩ := h
    cases s with
    | nil => simp [takeNumerals] at heq; simp_all
    | cons x t =>
      simp only [takeNumerals] at heq
      split at heq
      · simp only [Prod.mk.injEq] at heq
        have := length_takeNumerals t
        rw [heq.2] at this
        simp only [List.length_cons]; omega
      · simp_all

theorem length_lexUnsigned {neg : Bool} {s rest : List Symbol} {n}
    (h : lexUnsigned neg s = .ok (n, rest)) : rest.length < s.length := by
  unfold lexUnsigned at h
  cases h1 : lexWhole s with
  | error e => simp [h1, bind, Except.bind] at h
  | ok p =>
    cases h2 : lexFraction p.2 with
    | error e => simp [h1, h2, bind, Except.bind] at h
    | ok p2 =>
      cases h3 : lexExponent p2.2 with
      | error e => simp [h1, h2, h3, bind, Except.bind] at h
      | ok p3 =>
        simp [h1, h2, h3, bind, Except.bind] at h
        have a := length_lexWhole h1
        have b := length_lexFraction h2
        have c := length_lexExponent h3
        rw [← h.2]; omega

theorem length_lexNumber_lt (neg : Bool) {s : List Symbol} (hs : s ≠ []) :
    (lexNumber neg s).2.length < s.length := by
  unfold lexNumber
  split
  · rename_i h; exact length_lexUnsigned h
  · exact List.length_pos_iff.mpr hs

theorem length_lexNumber (neg : Bool) (s : List Symbol) :
    (lexNumber neg s).2.length ≤ s.length := by
  by_cases h : s = []
  · subst h; simp [lexNumber, lexUnsigned, lexWhole, takeNumerals, bind, Except.bind]
  · exact Nat.le_of_lt (length_lexNumber_lt neg h)

theorem length_lexWord (t : Token) (k : Break.Kind) (cs : List Char) (s : List Symbol) :
    (lexWord t k cs s).2.length ≤ s.length := by
  induction cs generalizing s with
  | nil => simp [lexWord]
  | cons c cs ih =>
    cases s with
    | nil => simp [lexWord]
    | cons x rest =>
      simp only [lexWord]
      split
      · exact Nat.le_succ_of_le (ih rest)
      · simp

theorem length_lexOne (x : Symbol) (rest : List Symbol) :
    (lexOne x rest).2.length ≤ rest.length := by
  unfold lexOne
  split
  all_goals first
    | exact Nat.le_refl _
    | exact length_lexText _
    | exact length_lexNumber _ _
    | exact length_lexWord ..
    | skip
  split
  · have := length_lexNumber_lt false (List.cons_ne_nil x rest)
    simp only [List.length_cons] at this; omega
  · simp

/-- Cuts symbols into tokens; a broken token is the last one. -/
def lex : List Symbol → List Token
  | [] => []
  | x :: rest =>
    if isSpace x then lex rest
    else (lexOne x rest).1 :: lex (lexOne x rest).2
termination_by s => s.length
decreasing_by
  · simp
  · exact Nat.lt_succ_of_le (length_lexOne x rest)

end Rollout.Json
