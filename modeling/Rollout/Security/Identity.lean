/-
Certificates and private keys, as far as a connection looks at them.

* `subjectKey?` finds the public key that a certificate speaks for;
* `Identity.ofPem?` takes certificates and a key out of an armoured text;
* `Identity.isUsable` says whether the key is one and belongs to the first certificate.

Design notes: signatures are not checked.  The public half of a key is looked up in the key itself;
where it is not written there, the key is trusted to fit.
-/
import Rollout.Security.Der
import Rollout.Security.Pem

namespace Rollout.Security

open Element (integerTag bitStringTag octetStringTag sequenceTag partTag)

/-- The tags of some elements. -/
def tags (es : List Element) : List UInt8 := es.map (·.tag)

/-! ### Certificates -/

/-- The bits of a public key with a note on its algorithm. -/
def keyBits? (e : Element) : Option Bytes := do
  let es ← elements? e.content
  if tags es == [sequenceTag, bitStringTag] then es[1]?.map (·.content) else none

/-- The public key in the signed part of a certificate, after version, number, signature, issuer,
validity and subject. -/
def signedKey? (signed : List Element) : Option Bytes :=
  let fields := signed.dropWhile (·.tag == partTag 0)
  if (tags fields).take 6 == integerTag :: List.replicate 5 sequenceTag then
    fields[6 - 1]?.bind keyBits?
  else none

/-- The public key that a certificate speaks for. -/
def subjectKey? (certificate : Bytes) : Option Bytes := do
  let es ← sequence? certificate
  if tags es != [sequenceTag, sequenceTag, bitStringTag] then none
  else signedKey? (← elements? (← es.head?).content)

/-! ### Private keys -/

/-- The public half of a key: written down, or not known. -/
abbrev PublicHalf := Option Bytes

/-- A key for an elliptic curve: a version, the secret, and perhaps the public half. -/
def ecPublicHalf? (key : Bytes) : Option PublicHalf := do
  let es ← sequence? key
  if (tags es).take 2 != [integerTag, octetStringTag] then none
  else match es.find? (·.tag == partTag 1) with
    | none => some none
    | some part =>
      match ← elements? part.content with
      | [e] => if e.tag == bitStringTag then some (some e.content) else none
      | _ => none

/-- The bits of the public key with this modulus and this exponent. -/
def rsaBits (modulus exponent : Element) : Bytes :=
  let content := modulus.written ++ exponent.written
  let length := content.length
  let written :=
    if length < 0x80 then [UInt8.ofNat length]
    else if length < 0x100 then [0x81, UInt8.ofNat length]
    else [0x82, UInt8.ofNat (length / 0x100), UInt8.ofNat length]
  0 :: sequenceTag :: written ++ content

/-- A key of two primes: a version, the modulus, both exponents and five more numbers. -/
def rsaPublicHalf? (key : Bytes) : Option PublicHalf := do
  let es ← sequence? key
  if tags es != List.replicate 9 integerTag then none
  else some (some (rsaBits (← es[1]?) (← es[2]?)))

/-- A key with a note on its algorithm: the form of the key itself shows which one it is. -/
def notedPublicHalf? (key : Bytes) : Option PublicHalf := do
  let es ← sequence? key
  if (tags es).take 3 != [integerTag, sequenceTag, octetStringTag] then none
  else
    let inner := (← es[2]?).content
    match rsaPublicHalf? inner with
    | some half => some half
    | none =>
      match ecPublicHalf? inner with
      | some half => some half
      | none =>
        match elements? inner with
        | some [e] => if e.tag == octetStringTag then some none else none
        | _ => none

/-! ### Identities -/

/-- Who a client is: certificates, its own first, and the private key. -/
structure Identity where
  certificates : List Bytes
  keyLabel : Label
  key : Bytes
  deriving DecidableEq, Repr, Inhabited

def isKeyLabel : Label → Bool
  | .privateKey | .rsaPrivateKey | .ecPrivateKey => true
  | _ => false

namespace Identity

/-- The identity in an armoured text of certificates and keys only; the last key counts. -/
def ofPem? (text : Bytes) : Option Identity := do
  let all ← sections text
  let certificates := (all.filter (·.label == .certificate)).map (·.content)
  let keys := all.filter (isKeyLabel ·.label)
  if all.any fun s => s.label != .certificate && !isKeyLabel s.label then none
  else match certificates, keys.getLast? with
    | _ :: _, some key => some ⟨certificates, key.label, key.content⟩
    | _, _ => none

/-- The public half of the key, if it is a key of its label. -/
def publicHalf? (i : Identity) : Option PublicHalf :=
  match i.keyLabel with
  | .rsaPrivateKey => rsaPublicHalf? i.key
  | .ecPrivateKey => ecPublicHalf? i.key
  | _ => notedPublicHalf? i.key

/-- The key is one, and the first certificate speaks for its public half. -/
def isUsable (i : Identity) : Bool :=
  match i.publicHalf?, i.certificates.head?.bind subjectKey? with
  | some (some half), some subject => half == subject
  | some none, some _ => true
  | _, _ => false

end Identity

/-- The certificates in an armoured text, all of which must be certificates. -/
def authorities? (text : Bytes) : Option (List Bytes) := do
  let all ← sections text
  let certificates := (all.filter (·.label == .certificate)).map (·.content)
  if certificates.all fun c => (subjectKey? c).isSome then some certificates else none

end Rollout.Security
