/-
What a JSON text is and what it says, apart from how it is read.

* `Tree`: what a text says, with the members of an object in the order of the text;
* `Number.Written`, `TextWritten`: how the literals are written;
* `Written`, `WrittenItems`, `WrittenMembers`: how a value, the inside of a list and the inside
  of an object are written;
* `Tree.Document`: a whole text, which is one value with blanks around it.

A text literal is made of pieces.  What its pieces say together is `meaning?`, which is nothing when
half of a surrogate pair or a stray byte is among them; such a literal is well formed all the same.
-/
import Mathlib.Data.List.Forall2
import Rollout.Json.Token

namespace Rollout.Json

/-- What a JSON text says.  A text of no meaning is `none`. -/
inductive Tree where
  | null
  | bool (b : Bool)
  | number (n : Number)
  | text (value : Option String)
  | list (items : List Tree)
  | object (members : List (Option String × Tree))

/-- Only blanks. -/
def Blank (s : List Symbol) : Prop :=
  ∀ x ∈ s, x ∈ [some ' ', some '\n', some '\t', some '\r']

/-! ### Numbers -/

/-- Decimal digits. -/
def Numerals : List Nat → List Symbol → Prop :=
  List.Forall₂ fun d x => d < 10 ∧ x = some (Nat.digitChar d)

/-- At least one digit, and no zero in front of another. -/
def WholeWritten (ds : List Nat) (s : List Symbol) : Prop :=
  Numerals ds s ∧ ds ≠ [] ∧ (ds.head? = some 0 → ds = [0])

/-- Nothing, or a point and at least one digit. -/
def FractionWritten : Option (List Nat) → List Symbol → Prop
  | none, s => s = []
  | some ds, s => ∃ t, s = some '.' :: t ∧ Numerals ds t ∧ ds ≠ []

/-- The signs of an exponent. -/
def exponentSigns : List (List Symbol × Int) := [([], 1), ([some '+'], 1), ([some '-'], -1)]

/-- Nothing, or a letter, perhaps a sign, and at least one digit. -/
def ExponentWritten : Option Int → List Symbol → Prop
  | none, s => s = []
  | some e, s => ∃ mark ∈ ['e', 'E'], ∃ sign ∈ exponentSigns, ∃ ds t,
      s = some mark :: (sign.1 ++ t) ∧ Numerals ds t ∧ ds ≠ [] ∧ e = sign.2 * Number.ofDigits ds

namespace Number

/-- A number literal without its sign. -/
def UnsignedWritten (n : Number) (s : List Symbol) : Prop :=
  ∃ whole fraction exponent, s = whole ++ (fraction ++ exponent)
    ∧ WholeWritten n.whole whole ∧ FractionWritten n.fraction fraction
    ∧ ExponentWritten n.exponent exponent

/-- A number literal. -/
def Written (n : Number) (s : List Symbol) : Prop :=
  ∃ t, s = (if n.negative then [some '-'] else []) ++ t ∧ n.UnsignedWritten t

end Number

/-! ### Texts -/

/-- What one step inside a text literal gives. -/
inductive Piece where
  | char (c : Char)
  /-- A code unit of UTF-16. -/
  | unit (n : Nat)
  /-- A byte that belongs to no character. -/
  | stray

/-- The letters of the short escapes and what they stand for. -/
def shortEscapes : List (Char × Char) :=
  [('"', '"'), ('\\', '\\'), ('/', '/'), ('b', '\x08'), ('f', '\x0c'), ('n', '\n'), ('r', '\r'),
    ('t', '\t')]

/-- A hexadecimal digit, small or capital. -/
def HexWritten (n : Nat) (c : Char) : Prop :=
  n < 16 ∧ c ∈ [Nat.digitChar n, (Nat.digitChar n).toUpper]

/-- How a piece is written. -/
inductive Piece.Written : Piece → List Symbol → Prop
  | plain {c : Char} (control : 0x20 ≤ c.toNat) (quote : c ≠ '"') (escape : c ≠ '\\') :
    Written (.char c) [some c]
  | short {letter c : Char} (h : (letter, c) ∈ shortEscapes) :
    Written (.char c) [some '\\', some letter]
  | unit {i j k l : Nat} {a b c d : Char} (ha : HexWritten i a) (hb : HexWritten j b)
    (hc : HexWritten k c) (hd : HexWritten l d) :
    Written (.unit (((i * 16 + j) * 16 + k) * 16 + l))
      [some '\\', some 'u', some a, some b, some c, some d]
  | stray : Written .stray [none]

/-- Pieces one after another. -/
inductive PiecesWritten : List Piece → List Symbol → Prop
  | nil : PiecesWritten [] []
  | cons {p : Piece} {ps : List Piece} {s t : List Symbol} (first : p.Written s)
    (rest : PiecesWritten ps t) : PiecesWritten (p :: ps) (s ++ t)

/-- The character of a pair of code units. -/
def pairChar (high low : Nat) : Char :=
  Char.ofNat (0x10000 + (high - 0xD800) * 0x400 + (low - 0xDC00))

/-- What pieces say together: code units from U+D800 to U+DFFF count only in pairs. -/
def meaning? : List Piece → Option (List Char)
  | [] => some []
  | .char c :: ps => (meaning? ps).map (c :: ·)
  | .stray :: _ => none
  | .unit n :: ps =>
    if n < 0xD800 ∨ 0xE000 ≤ n then (meaning? ps).map (Char.ofNat n :: ·)
    else match ps with
      | .unit m :: ps =>
        if n < 0xDC00 ∧ 0xDC00 ≤ m ∧ m < 0xE000 then (meaning? ps).map (pairChar n m :: ·)
        else none
      | _ => none

/-- A text literal: its pieces between quotes. -/
def TextWritten (value : Option String) (s : List Symbol) : Prop :=
  ∃ ps t, s = some '"' :: (t ++ [some '"']) ∧ PiecesWritten ps t
    ∧ value = (meaning? ps).map String.ofList

/-! ### Values -/

mutual

/-- How a value is written. -/
inductive Written : Tree → List Symbol → Prop
  | null : Written .null (symbols "null")
  | bool (b : Bool) : Written (.bool b) (symbols (if b then "true" else "false"))
  | number {n : Number} {s : List Symbol} (h : n.Written s) : Written (.number n) s
  | text {value : Option String} {s : List Symbol} (h : TextWritten value s) :
    Written (.text value) s
  | list {items : List Tree} {s b : List Symbol} (inside : WrittenItems items s) (hb : Blank b) :
    Written (.list items) (some '[' :: (s ++ (b ++ [some ']'])))
  | object {members : List (Option String × Tree)} {s b : List Symbol}
    (inside : WrittenMembers members s) (hb : Blank b) :
    Written (.object members) (some '\x7b' :: (s ++ (b ++ [some '\x7d'])))

/-- How the items of a list are written: commas stand between them, blanks before everything. -/
inductive WrittenItems : List Tree → List Symbol → Prop
  | nil : WrittenItems [] []
  | one {t : Tree} {b s : List Symbol} (hb : Blank b) (h : Written t s) :
    WrittenItems [t] (b ++ s)
  | more {t u : Tree} {rest : List Tree} {b s c s' : List Symbol} (hb : Blank b) (h : Written t s)
    (hc : Blank c) (more : WrittenItems (u :: rest) s') :
    WrittenItems (t :: u :: rest) (b ++ (s ++ (c ++ some ',' :: s')))

/-- How the members of an object are written: a name, a colon and a value each. -/
inductive WrittenMembers : List (Option String × Tree) → List Symbol → Prop
  | nil : WrittenMembers [] []
  | one {m : Option String × Tree} {b n c d s : List Symbol} (hb : Blank b)
    (name : TextWritten m.1 n) (hc : Blank c) (hd : Blank d) (h : Written m.2 s) :
    WrittenMembers [m] (b ++ (n ++ (c ++ some ':' :: (d ++ s))))
  | more {m m' : Option String × Tree} {rest : List (Option String × Tree)}
    {b n c d s e s' : List Symbol} (hb : Blank b) (name : TextWritten m.1 n) (hc : Blank c)
    (hd : Blank d) (h : Written m.2 s) (he : Blank e) (more : WrittenMembers (m' :: rest) s') :
    WrittenMembers (m :: m' :: rest)
      (b ++ (n ++ (c ++ some ':' :: (d ++ (s ++ (e ++ some ',' :: s'))))))

end

/-- A whole text: one value, with blanks around it. -/
def Tree.Document (t : Tree) (s : List Symbol) : Prop :=
  ∃ b v c, s = b ++ (v ++ c) ∧ Blank b ∧ Written t v ∧ Blank c

end Rollout.Json
