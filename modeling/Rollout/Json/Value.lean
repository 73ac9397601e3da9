/-
JSON documents and their two printed forms.

* `Value.compact` writes a document on one line, without blanks;
* `Value.pretty` writes one item a line, two blanks a level.

Both keep the order of the fields.  Inside a text the quote, the backslash and the control
characters below U+0020 are escaped, all else stands as it is.
-/

namespace Rollout.Json

/-- A document that can be written: fields are ordered, numbers are integers. -/
inductive Value where
  | null
  | bool (b : Bool)
  | int (i : Int)
  | text (s : String)
  | list (items : List Value)
  | object (fields : List (String × Value))
  deriving Repr, Inhabited

/-- A lower-case hexadecimal digit. -/
def hexDigit (n : Nat) : Char :=
  Nat.digitChar (n % 16)

/-- How one character is written inside a text. -/
def escapeChar (c : Char) : List Char :=
  if c == '"' then ['\\', '"']
  else if c == '\\' then ['\\', '\\']
  else if c == '\n' then ['\\', 'n']
  else if c == '\r' then ['\\', 'r']
  else if c == '\t' then ['\\', 't']
  else if c == '\x08' then ['\\', 'b']
  else if c == '\x0c' then ['\\', 'f']
  else if c.toNat < 0x20 then ['\\', 'u', '0', '0', hexDigit (c.toNat / 16), hexDigit c.toNat]
  else [c]

/-- A text between quotes. -/
def quote (s : String) : List Char :=
  '"' :: (s.toList.flatMap escapeChar ++ ['"'])

/-- An integer in decimal digits. -/
def digits (i : Int) : List Char :=
  (toString i).toList

namespace Value

mutual

/-- The characters of the one-line form. -/
def compactChars : Value → List Char
  | null => "null".toList
  | bool b => (if b then "true" else "false").toList
  | int i => digits i
  | text s => quote s
  | list items => '[' :: (compactItems items ++ [']'])
  | object fields => '{' :: (compactFields fields ++ ['}'])

def compactItems : List Value → List Char
  | [] => []
  | [v] => compactChars v
  | v :: w :: rest => compactChars v ++ ',' :: compactItems (w :: rest)

def compactFields : List (String × Value) → List Char
  | [] => []
  | [(k, v)] => quote k ++ ':' :: compactChars v
  | (k, v) :: f :: rest => quote k ++ ':' :: (compactChars v ++ ',' :: compactFields (f :: rest))

end

/-- A line end and the blanks of a level. -/
def newline (level : Nat) : List Char :=
  '\n' :: List.replicate (2 * level) ' '

mutual

/-- The characters of the form with one item a line, at a level. -/
def prettyChars (level : Nat) : Value → List Char
  | null => "null".toList
  | bool b => (if b then "true" else "false").toList
  | int i => digits i
  | text s => quote s
  | list [] => ['[', ']']
  | list (v :: rest) =>
    '[' :: (newline (level + 1) ++ prettyItems (level + 1) (v :: rest) ++ newline level ++ [']'])
  | object [] => ['{', '}']
  | object (f :: rest) =>
    '{' :: (newline (level + 1) ++ prettyFields (level + 1) (f :: rest) ++ newline level ++ ['}'])

def prettyItems (level : Nat) : List Value → List Char
  | [] => []
  | [v] => prettyChars level v
  | v :: w :: rest => prettyChars level v ++ ',' :: (newline level ++ prettyItems level (w :: rest))

def prettyFields (level : Nat) : List (String × Value) → List Char
  | [] => []
  | [(k, v)] => quote k ++ ':' :: ' ' :: prettyChars level v
  | (k, v) :: f :: rest =>
    quote k ++ ':' :: ' ' ::
      (prettyChars level v ++ ',' :: (newline level ++ prettyFields level (f :: rest)))

end

/-- The one-line form. -/
def compact (v : Value) : String :=
  String.ofList v.compactChars

/-- The form with one item a line. -/
def pretty (v : Value) : String :=
  String.ofList (v.prettyChars 0)

/-- A field that is left out when there is nothing to say. -/
def optionalField (name : String) (v : Option Value) : List (String × Value) :=
  v.toList.map (name, ·)

/-- A list field that is left out when it is empty. -/
def listField (name : String) (items : List Value) : List (String × Value) :=
  if items.isEmpty then [] else [(name, list items)]

end Value

end Rollout.Json
