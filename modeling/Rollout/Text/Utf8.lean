/-
UTF-8: texts as bytes, and bytes read back as text.

* `encode` writes a text;
* `scan` reads any bytes: each item is a character, or `none` for a maximal stretch of bytes that
  begins no character;
* `decode?` accepts well-formed bytes only, `decodeLossy` shows each bad stretch as U+FFFD.

Design notes: the reader takes the range allowed for the second byte from the first one, so
overlong forms, surrogates and values beyond U+10FFFF stop at the byte that betrays them.
-/

namespace Rollout

/-- What files, pipes and message bodies hold. -/
abbrev Bytes := List UInt8

namespace Utf8

/-- The bytes of a text. -/
def encode (s : String) : Bytes :=
  s.toList.flatMap String.utf8EncodeChar

/-- What the first byte of a longer form says about the rest of it. -/
structure Lead where
  /-- The least and the greatest second byte. -/
  low : UInt8
  high : UInt8
  /-- How many bytes follow. -/
  more : Nat
  /-- The bits that the first byte contributes. -/
  bits : Nat

/-- The first bytes of the forms of two, three and four bytes. -/
def Lead.ofByte? (b : UInt8) : Option Lead :=
  let n := b.toNat
  if b < 0xC2 then none
  else if b < 0xE0 then some ⟨0x80, 0xBF, 1, n - 0xC0⟩
  else if b == 0xE0 then some ⟨0xA0, 0xBF, 2, 0⟩
  else if b == 0xED then some ⟨0x80, 0x9F, 2, n - 0xE0⟩
  else if b < 0xF0 then some ⟨0x80, 0xBF, 2, n - 0xE0⟩
  else if b == 0xF0 then some ⟨0x90, 0xBF, 3, 0⟩
  else if b < 0xF4 then some ⟨0x80, 0xBF, 3, n - 0xF0⟩
  else if b == 0xF4 then some ⟨0x80, 0x8F, 3, 4⟩
  else none

/-- Reads the bytes after the first one; stops before a byte out of range. -/
def continueWith (low high : UInt8) : Nat → Nat → Bytes → Option Char × Bytes
  | 0, value, rest => (some (Char.ofNat value), rest)
  | _ + 1, _, [] => (none, [])
  | more + 1, value, b :: rest =>
    if low ≤ b && b ≤ high then continueWith 0x80 0xBF more (value * 64 + b.toNat % 64) rest
    else (none, b :: rest)

theorem length_continueWith_le (low high : UInt8) (more value : Nat) (bs : Bytes) :
    (continueWith low high more value bs).2.length ≤ bs.length := by
  induction more generalizing low high value bs with
  | zero => simp [continueWith]
  | succ n ih =>
    cases bs with
    | nil => simp [continueWith]
    | cons b rest =>
      simp only [continueWith]
      split
      · exact Nat.le_succ_of_le (ih ..)
      · exact Nat.le_refl _

/-- Reads one character or one bad stretch. -/
def next (b : UInt8) (rest : Bytes) : Option Char × Bytes :=
  if b < 0x80 then (some (Char.ofNat b.toNat), rest)
  else match Lead.ofByte? b with
    | none => (none, rest)
    | some l => continueWith l.low l.high l.more l.bits rest

theorem length_next_le (b : UInt8) (rest : Bytes) : (next b rest).2.length ≤ rest.length := by
  unfold next
  split
  · exact Nat.le_refl _
  · split
    · exact Nat.le_refl _
    · exact length_continueWith_le ..

/-- The characters of some bytes, with `none` for every bad stretch. -/
def scan : Bytes → List (Option Char)
  | [] => []
  | b :: rest => (next b rest).1 :: scan (next b rest).2
termination_by bs => bs.length
decreasing_by exact Nat.lt_succ_of_le (length_next_le b rest)

/-- The text of well-formed bytes. -/
def decode? (bs : Bytes) : Option String :=
  (scan bs).mapM id |>.map String.ofList

/-- The text of any bytes, with U+FFFD for every bad stretch. -/
def decodeLossy (bs : Bytes) : String :=
  String.ofList ((scan bs).map (·.getD '\uFFFD'))

end Utf8

end Rollout
