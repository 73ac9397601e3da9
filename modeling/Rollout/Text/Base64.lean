/-
Base64: four characters for three bytes.

Only the canonical form is read: padding is complete, and the bits that it leaves over are zero.
-/
import Rollout.Text.Utf8

namespace Rollout.Text.Base64

/-- The six bits that a character stands for. -/
def value? (c : Char) : Option Nat :=
  if 'A' ≤ c && c ≤ 'Z' then some (c.toNat - 'A'.toNat)
  else if 'a' ≤ c && c ≤ 'z' then some (c.toNat - 'a'.toNat + 26)
  else if '0' ≤ c && c ≤ '9' then some (c.toNat - '0'.toNat + 52)
  else if c == '+' then some 62
  else if c == '/' then some 63
  else none

/-- The first so many bytes of 24 bits; the bits after them are zero. -/
def bytesOf? (count bits : Nat) : Option Bytes :=
  let unused := match count with
    | 1 => 65536
    | 2 => 256
    | _ => 1
  let all := [UInt8.ofNat (bits / 65536), UInt8.ofNat (bits / 256), UInt8.ofNat bits]
  if bits % unused == 0 then some (all.take count) else none

/-- The bytes of four characters. -/
def quantum? (a b c d : Char) : Option Bytes := do
  let a ← value? a
  let b ← value? b
  let head := a * 262144 + b * 4096
  if c == '=' && d == '=' then bytesOf? 1 head
  else
    let c ← value? c
    let head := head + c * 64
    if d == '=' then bytesOf? 2 head
    else bytesOf? 3 (head + (← value? d))

/-- The bytes of some characters.  Padding stands at the end only. -/
def decodeChars? : List Char → Option Bytes
  | [] => some []
  | a :: b :: c :: d :: rest => do
    let bs ← quantum? a b c d
    if d == '=' && !rest.isEmpty then none
    else .some (bs ++ (← decodeChars? rest))
  | _ => none

def decode? (s : String) : Option Bytes := decodeChars? s.toList

end Rollout.Text.Base64
