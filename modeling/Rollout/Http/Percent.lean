/-
Percent encoding: bytes as a percent sign and two hexadecimal digits.
-/
import Rollout.Text.Utf8

namespace Rollout.Http

/-- The value of a hexadecimal digit, as a byte. -/
def hexByte? (b : UInt8) : Option Nat :=
  let n := b.toNat
  if 0x30 ≤ n && n ≤ 0x39 then some (n - 0x30)
  else if 0x61 ≤ n && n ≤ 0x66 then some (n - 0x61 + 10)
  else if 0x41 ≤ n && n ≤ 0x46 then some (n - 0x41 + 10)
  else none

/-- Replaces every complete escape by its byte; other percent signs stay. -/
def percentDecode : Bytes → Bytes
  | a :: b :: c :: rest =>
    if a == 0x25 then
      match hexByte? b, hexByte? c with
      | some high, some low => UInt8.ofNat (high * 16 + low) :: percentDecode rest
      | _, _ => a :: percentDecode (b :: c :: rest)
    else a :: percentDecode (b :: c :: rest)
  | bs => bs

/-- A text with its escapes replaced, if that is a text. -/
def percentDecodeText? (s : String) : Option String :=
  Utf8.decode? (percentDecode (Utf8.encode s))

/-- A hexadecimal digit in upper case. -/
def upperHex (n : Nat) : Char :=
  if n < 10 then Char.ofNat (0x30 + n) else Char.ofNat (0x41 + n - 10)

/-- A byte as an escape. -/
def escapeByte (b : UInt8) : List Char :=
  ['%', upperHex (b.toNat / 16), upperHex (b.toNat % 16)]

/-- A text in which some ASCII characters, and all others, are escaped. -/
def percentEncode (escaped : Char → Bool) (cs : List Char) : List Char :=
  cs.flatMap fun c =>
    if c.toNat < 0x80 && !escaped c then [c]
    else (Utf8.encode (String.ofList [c])).flatMap escapeByte

/-! ### Forms -/

/-- Characters that a form keeps. -/
def isFormChar (c : Char) : Bool :=
  c.isAlphanum || c == '*' || c == '-' || c == '.' || c == '_'

/-- A name or a value in a form; a space becomes a plus sign. -/
def formEncode (s : String) : String :=
  String.ofList (s.toList.flatMap fun c =>
    if c == ' ' then ['+'] else percentEncode (!isFormChar ·) [c])

/-- Pairs as a query. -/
def formQuery (pairs : List (String × String)) : String :=
  "&".intercalate (pairs.map fun (k, v) => formEncode k ++ "=" ++ formEncode v)

end Rollout.Http
