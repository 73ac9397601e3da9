/-
Sections of armoured text: base64 between a line that begins a section and one that ends it.

`sections` lists the sections of a text in order, each with its label and its bytes.  What stands
outside sections is passed over, and so are sections with unknown labels.

Design notes: a line that begins a section inside another one starts over under the new label, and
the characters so far stay.  Padding and the bits that it leaves over are not looked at.
-/
import Rollout.Text.Base64

namespace Rollout.Security

/-- What a section holds. -/
inductive Label where
  | certificate
  /-- A private key with a note on its algorithm. -/
  | privateKey
  | rsaPrivateKey
  | ecPrivateKey
  | publicKey
  | revocationList
  | signingRequest
  deriving DecidableEq, Repr, Inhabited

/-- The label of a name. -/
def Label.ofName? : String → Option Label
  | "CERTIFICATE" => some certificate
  | "PRIVATE KEY" => some privateKey
  | "RSA PRIVATE KEY" => some rsaPrivateKey
  | "EC PRIVATE KEY" => some ecPrivateKey
  | "PUBLIC KEY" => some publicKey
  | "X509 CRL" => some revocationList
  | "CERTIFICATE REQUEST" => some signingRequest
  | _ => none

/-- A section with its bytes. -/
structure Section where
  label : Label
  content : Bytes
  deriving DecidableEq, Repr, Inhabited

/-! ### Lines -/

/-- The bytes at the end of a line that do not count. -/
def isLineEnd (b : UInt8) : Bool := b == 0x0A || b == 0x0D || b == 0x20

/-- A line without its end. -/
def withoutEnd (line : Bytes) : Bytes := (line.reverse.dropWhile isLineEnd).reverse

/-- The lines of a text; a carriage return ends one as well. -/
def linesOf : Bytes → List Bytes
  | [] => []
  | b :: rest =>
    if b == 0x0A || b == 0x0D then [] :: linesOf rest
    else match linesOf rest with
      | [] => [[b]]
      | line :: more => (b :: line) :: more

/-- What begins a section. -/
def beginMark : Bytes := Utf8.encode "-----BEGIN "

/-- What ends the section of a name. -/
def endMark (name : Bytes) : Bytes :=
  Utf8.encode "-----END " ++ name ++ Utf8.encode "-----"

/-- The name in a line that begins a section; five dashes have to follow it. -/
def beginName? (line : Bytes) : Option Bytes :=
  let line := withoutEnd line
  let name := (line.reverse.dropWhile (· == 0x2D)).reverse
  if line.length = name.length + 5 then some (name.drop beginMark.length) else none

/-! ### Base64 -/

/-- The six bits of the characters in front of the padding, or nothing for any other byte. -/
def sextets? : Bytes → Option (List Nat)
  | [] => some []
  | b :: rest =>
    if b == 0x09 || isLineEnd b then sextets? rest
    else if b == 0x3D then if rest.all (· == 0x3D) then some [] else none
    else do
      let n ← Text.Base64.value? (Char.ofNat b.toNat)
      some (n :: (← sextets? rest))

/-- The whole bytes in some groups of six bits. -/
def bytesOfSextets : List Nat → Option Bytes
  | [] => some []
  | [_] => none
  | [a, b] => some [UInt8.ofNat (a * 4 + b / 16)]
  | [a, b, c] => some [UInt8.ofNat (a * 4 + b / 16), UInt8.ofNat (b * 16 + c / 4)]
  | a :: b :: c :: d :: rest => do
    some (UInt8.ofNat (a * 4 + b / 16) :: UInt8.ofNat (b * 16 + c / 4)
      :: UInt8.ofNat (c * 64 + d) :: (← bytesOfSextets rest))

/-- The bytes of the characters in a section. -/
def unarmour? (characters : Bytes) : Option Bytes := do
  bytesOfSextets (← sextets? characters)

/-! ### Sections -/

/-- The section under way: its name and its characters so far. -/
structure Open where
  name : Bytes
  characters : Bytes := []

/-- The sections in some lines, or nothing when one is malformed or not ended. -/
def sectionsFrom : Option Open → List Bytes → Option (List Section)
  | none, [] => some []
  | some _, [] => none
  | current, line :: rest =>
    if beginMark.isPrefixOf line then do
      let name ← beginName? line
      sectionsFrom (some ⟨name, (current.map (·.characters)).getD []⟩) rest
    else match current with
      | none => sectionsFrom none rest
      | some o =>
        if (endMark o.name).isPrefixOf line then
          match (Utf8.decode? o.name).bind Label.ofName? with
          | none => sectionsFrom none rest
          | some label => do
            let content ← unarmour? o.characters
            some (⟨label, content⟩ :: (← sectionsFrom none rest))
        else sectionsFrom (some ⟨o.name, o.characters ++ withoutEnd line⟩) rest

/-- The sections of a text, in order. -/
def sections (text : Bytes) : Option (List Section) :=
  sectionsFrom none (linesOf text)

end Rollout.Security
