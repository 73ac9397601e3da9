/-
Tags, and the directives at the head of a document.

A tag is kept as bytes, since an escape in it may spell any byte.
-/
import Rollout.Yaml.Scalar
import Rollout.Text.Utf8

namespace Rollout.Yaml

/-- A tag as written: a handle and what stands behind it. -/
structure TagName where
  handle : String
  suffix : Bytes
  deriving DecidableEq, Repr, Inhabited

/-- Characters of a tag; `<...>` admits some more. -/
def isTagChar (verbatim : Bool) (c : Char) : Bool :=
  isNameChar c || ";/?:@&=+$.%!~*'()".toList.contains c
    || (verbatim && (c == ',' || c == '[' || c == ']'))

/-- How many bytes a character takes whose first byte is given. -/
def leadingWidth? (octet : Nat) : Option Nat :=
  if octet < 0x80 then some 1
  else if octet / 32 == 6 then some 2
  else if octet / 16 == 14 then some 3
  else if octet / 8 == 30 then some 4
  else none

/-- The bytes of the characters of a tag and the cells behind it.  Escapes spell the bytes of whole
characters; `left` counts the bytes of a character that still have to follow. -/
def tagBytes (verbatim : Bool) (left : Nat) : List Cell → Except Error (Bytes × List Cell)
  | a :: b :: c :: rest =>
    if a.char == '%' then
      match hexDigit? b.char, hexDigit? c.char with
      | some high, some low =>
        let octet := high * 16 + low
        let left' := if left == 0 then leadingWidth? octet
          else if octet / 64 == 2 then some left else none
        match left' with
        | none => .error .badTag
        | some n =>
          match tagBytes verbatim (n - 1) rest with
          | .error e => .error e
          | .ok (bs, rest) => .ok (UInt8.ofNat octet :: bs, rest)
      | _, _ => .error .badTag
    else if left != 0 then .error .badTag
    else if isTagChar verbatim a.char then
      match tagBytes verbatim 0 (b :: c :: rest) with
      | .error e => .error e
      | .ok (bs, rest) => .ok (UInt8.ofNat a.char.toNat :: bs, rest)
    else .ok ([], a :: b :: c :: rest)
  | a :: rest =>
    if left != 0 || a.char == '%' then .error .badTag
    else if isTagChar verbatim a.char then
      match tagBytes verbatim 0 rest with
      | .error e => .error e
      | .ok (bs, rest) => .ok (UInt8.ofNat a.char.toNat :: bs, rest)
    else .ok ([], a :: rest)
  | [] => if left != 0 then .error .badTag else .ok ([], [])

/-- A tag ends at a zero byte. -/
def upToZero (bs : Bytes) : Bytes := bs.takeWhile (· != 0)

/-- Reads a tag that must not be empty. -/
def tagText (verbatim : Bool) (cs : List Cell) : Except Error (Bytes × List Cell) := do
  let (bs, rest) ← tagBytes verbatim 0 cs
  if bs.isEmpty then .error .badTag else .ok (upToZero bs, rest)

/-- The name between the exclamation marks of a handle; the cells start behind the first mark.
There is a second mark or none. -/
def tagHandle (cs : List Cell) : List Char × Bool × List Cell :=
  let (name, rest) := spanChars isNameChar cs
  if charAt rest == '!' then (name, true, rest.drop 1) else (name, false, rest)

/-- The handle with a name. -/
def namedHandle (name : List Char) : String := "!" ++ String.ofList name ++ "!"

/-- Reads a tag behind its exclamation mark: `!<...>`, `!handle!suffix`, `!suffix` or `!` alone. -/
def readTag (cs : List Cell) : Except Error (TagName × List Cell) := do
  if charAt cs == '<' then
    let (suffix, rest) ← tagText true (cs.drop 1)
    if charAt rest == '>' then .ok (⟨"", suffix⟩, rest.drop 1) else .error .badTag
  else
    let (name, closed, rest) := tagHandle cs
    if closed then
      let (suffix, rest) ← tagText false rest
      .ok (⟨namedHandle name, suffix⟩, rest)
    else
      let (more, rest) ← tagBytes false 0 rest
      let suffix := upToZero (Utf8.encode (String.ofList name) ++ more)
      .ok (if suffix.isEmpty then ⟨"", Utf8.encode "!"⟩ else ⟨"!", suffix⟩, rest)

/-! ### Directives -/

inductive Directive where
  | version (major minor : Nat)
  /-- A handle stands for the beginning of a tag. -/
  | tag (handle : String) (expansion : Bytes)
  deriving DecidableEq, Repr, Inhabited

/-- The greatest number of digits in a version number. -/
def maxVersionDigits : Nat := 9

/-- Reads a number of a version. -/
def versionNumber (cs : List Cell) : Except Error (Nat × List Cell) :=
  let (digits, rest) := spanChars Char.isDigit cs
  if digits.isEmpty || maxVersionDigits < digits.length then .error .badDirective
  else .ok (digits.foldl (fun n d => n * 10 + (d.toNat - '0'.toNat)) 0, rest)

/-- Reads the value of a version directive. -/
def versionDirective (cs : List Cell) : Except Error (Directive × List Cell) := do
  let (major, rest) ← versionNumber (skipChars isBlank cs)
  if charAt rest != '.' then .error .badDirective
  let (minor, rest) ← versionNumber (rest.drop 1)
  .ok (.version major minor, rest)

/-- Reads the value of a tag directive. -/
def tagDirective (cs : List Cell) : Except Error (Directive × List Cell) := do
  let cs := skipChars isBlank cs
  if charAt cs != '!' then .error .badDirective
  let (name, closed, rest) := tagHandle (cs.drop 1)
  if !closed && !name.isEmpty then .error .badDirective
  if !isBlank (charAt rest) then .error .badDirective
  let (expansion, rest) ← tagText true (skipChars isBlank rest)
  if !isBlankOrEnd (charAt rest) then .error .badDirective
  .ok (.tag (if closed then namedHandle name else "!") expansion, rest)

/-- Reads a directive with its line, behind the percent sign. -/
def readDirective (cs : List Cell) : Except Error (Directive × List Cell) := do
  let (name, rest) := spanChars isNameChar cs
  if !isBlankOrEnd (charAt rest) then .error .badDirective
  let (directive, rest) ← match String.ofList name with
    | "YAML" => versionDirective rest
    | "TAG" => tagDirective rest
    | _ => .error .badDirective
  let rest ← restOfLine rest .badDirective
  .ok (directive, rest)

end Rollout.Yaml
