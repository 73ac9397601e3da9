/-
What a server makes of a text that a client has percent-encoded.

* `unescaped` is what is read of some characters: each escape among them is taken for its byte, and
  every other character is itself;
* `percentDecode_percentEncode`: decoding an encoded text gives this.  The encoder leaves percent
  signs alone, so an escape that was in the text already is decoded too;
* `unescaped_eq_iff`: a text is read as itself when it holds no escape, and only then.
-/
import Mathlib.Data.List.Basic
import Rollout.Http.Percent

namespace Rollout.Http

/-- The bytes of some characters. -/
def bytesOf (cs : List Char) : Bytes := cs.flatMap String.utf8EncodeChar

@[simp] theorem encode_ofList (cs : List Char) : Utf8.encode (String.ofList cs) = bytesOf cs := by
  rw [Utf8.encode, String.toList_ofList, bytesOf]

@[simp] theorem bytesOf_nil : bytesOf [] = [] := rfl

@[simp] theorem bytesOf_cons (c : Char) (cs : List Char) :
    bytesOf (c :: cs) = String.utf8EncodeChar c ++ bytesOf cs := List.flatMap_cons

@[simp] theorem bytesOf_append (cs ds : List Char) :
    bytesOf (cs ++ ds) = bytesOf cs ++ bytesOf ds := List.flatMap_append

/-- What a part of a text lacks, it lacks with at least one byte each. -/
theorem length_bytesOf_of_sublist {cs ds : List Char} (h : cs.Sublist ds) :
    (bytesOf cs).length + ds.length ≤ (bytesOf ds).length + cs.length := by
  induction h with
  | slnil => exact Nat.le_refl _
  | cons d _ ih =>
    have := d.utf8Size_pos
    simp only [bytesOf_cons, List.length_append, List.length_cons, String.length_utf8EncodeChar]
    omega
  | cons_cons d _ ih =>
    simp only [bytesOf_cons, List.length_append, List.length_cons]
    omega

theorem utf8EncodeChar_ascii {c : Char} (h : c.toNat < 0x80) :
    String.utf8EncodeChar c = [UInt8.ofNat c.toNat] := by
  have h' : c.val.toNat ≤ 0x7f := Nat.le_of_lt_succ h
  simp only [String.utf8EncodeChar, h', if_true]
  rfl

/-! ### Escapes -/

/-- The value of a hexadecimal digit. -/
def hexChar? (c : Char) : Option Nat :=
  if c.toNat < 0x80 then hexByte? (UInt8.ofNat c.toNat) else none

/-- The byte of an escape at the front, and what follows it. -/
def escape? : List Char → Option (UInt8 × List Char)
  | '%' :: a :: b :: rest =>
    match hexChar? a, hexChar? b with
    | some high, some low => some (UInt8.ofNat (high * 16 + low), rest)
    | _, _ => none
  | _ => none

theorem length_escape? {cs rest : List Char} {b : UInt8} (h : escape? cs = some (b, rest)) :
    rest.length < cs.length := by
  unfold escape? at h
  split at h
  · split at h
    · obtain ⟨-, rfl⟩ : _ ∧ _ = rest := by simpa using h
      simp only [List.length_cons]
      omega
    · simp at h
  · simp at h

/-- The bytes that are read of some characters. -/
def unescaped (cs : List Char) : Bytes :=
  match h : escape? cs with
  | some (b, rest) =>
    have := length_escape? h
    b :: unescaped rest
  | none =>
    match cs with
    | [] => []
    | c :: rest => String.utf8EncodeChar c ++ unescaped rest
termination_by cs.length

/-- No escape stands anywhere in the characters. -/
def EscapeFree : List Char → Prop
  | [] => True
  | c :: rest => escape? (c :: rest) = none ∧ EscapeFree rest

instance EscapeFree.decidable : (cs : List Char) → Decidable (EscapeFree cs)
  | [] => .isTrue trivial
  | c :: rest =>
    have := EscapeFree.decidable rest
    inferInstanceAs (Decidable (escape? (c :: rest) = none ∧ EscapeFree rest))

/-! ### Decoding -/

theorem percentDecode_of_ne {a : UInt8} (h : a ≠ 0x25) (rest : Bytes) :
    percentDecode (a :: rest) = a :: percentDecode rest := by
  match rest with
  | [] | [_] => rfl
  | _ :: _ :: _ => rw [percentDecode, if_neg (by simpa using h)]

theorem percentDecode_escapeByte (b : UInt8) (rest : Bytes) :
    percentDecode (bytesOf (escapeByte b) ++ rest) = b :: percentDecode rest := by
  have hb : b.toNat < 256 := b.toNat_lt
  have hdigit : ∀ n < 16, (upperHex n).toNat < 0x80 ∧
      hexByte? (UInt8.ofNat (upperHex n).toNat) = some n := by decide
  obtain ⟨hhigh, hhigh'⟩ := hdigit (b.toNat / 16) (by omega)
  obtain ⟨hlow, hlow'⟩ := hdigit (b.toNat % 16) (by omega)
  have hvalue : b.toNat / 16 * 16 + b.toNat % 16 = b.toNat := by omega
  simp [escapeByte, utf8EncodeChar_ascii (show '%'.toNat < 0x80 by decide),
    utf8EncodeChar_ascii hhigh, utf8EncodeChar_ascii hlow, percentDecode, hhigh', hlow', hvalue]

theorem percentDecode_escapeBytes (bs rest : Bytes) :
    percentDecode (bytesOf (bs.flatMap escapeByte) ++ rest) = bs ++ percentDecode rest := by
  induction bs with
  | nil => simp
  | cons b bs ih =>
    rw [List.flatMap_cons, bytesOf_append, List.append_assoc, percentDecode_escapeByte, ih,
      List.cons_append]

section Encoded

variable {escaped : Char → Bool}

theorem percentEncode_cons (c : Char) (cs : List Char) :
    percentEncode escaped (c :: cs)
      = (if c.toNat < 0x80 && !escaped c then [c]
        else (String.utf8EncodeChar c).flatMap escapeByte) ++ percentEncode escaped cs := by
  rw [percentEncode, List.flatMap_cons, encode_ofList, bytesOf_cons, bytesOf_nil, List.append_nil]
  rfl

variable (escaped) in
/-- A character that is kept is one byte; any other one begins with a percent sign. -/
theorem bytesOf_percentEncode_cons (c : Char) (cs : List Char) :
    (c.toNat < 0x80 ∧ escaped c = false ∧ bytesOf (percentEncode escaped (c :: cs))
        = UInt8.ofNat c.toNat :: bytesOf (percentEncode escaped cs)) ∨
      (¬ (c.toNat < 0x80 ∧ escaped c = false) ∧ ∃ more,
        bytesOf (percentEncode escaped (c :: cs)) = 0x25 :: more) := by
  rw [percentEncode_cons]
  by_cases hkept : c.toNat < 0x80 ∧ escaped c = false
  · left
    obtain ⟨hascii, hescaped⟩ := hkept
    simp [hascii, hescaped, utf8EncodeChar_ascii hascii]
  · right
    obtain ⟨b, more, hbytes⟩ : ∃ b more, String.utf8EncodeChar c = b :: more :=
      List.exists_cons_of_ne_nil String.utf8EncodeChar_ne_nil
    have hfalse : (decide (c.toNat < 0x80) && !escaped c) = false := by simpa using hkept
    refine ⟨hkept, ?_⟩
    simp [hfalse, hbytes, escapeByte, utf8EncodeChar_ascii (show '%'.toNat < 0x80 by decide)]

/-- A hexadecimal digit at the front of an encoded text is one of the text. -/
theorem hexChar?_of_front {cs : List Char} {x : UInt8} {more : Bytes} {n : Nat}
    (h : bytesOf (percentEncode escaped cs) = x :: more) (hx : hexByte? x = some n) :
    ∃ a rest, cs = a :: rest ∧ hexChar? a = some n ∧
      more = bytesOf (percentEncode escaped rest) := by
  cases cs with
  | nil => simp [percentEncode] at h
  | cons a rest =>
    obtain ⟨hascii, -, hbytes⟩ | ⟨-, more', hbytes⟩ :=
      bytesOf_percentEncode_cons escaped a rest
    · rw [hbytes, List.cons.injEq] at h
      obtain ⟨rfl, rfl⟩ := h
      exact ⟨a, rest, rfl, by rw [hexChar?, if_pos hascii, hx], rfl⟩
    · rw [hbytes, List.cons.injEq] at h
      have hpercent : hexByte? 0x25 = none := by decide
      rw [← h.1, hpercent] at hx
      exact absurd hx nofun

theorem escape?_eq_some {cs rest : List Char} {b : UInt8} (h : escape? cs = some (b, rest)) :
    ∃ a c high low, cs = '%' :: a :: c :: rest ∧ hexChar? a = some high ∧ hexChar? c = some low ∧
      b = UInt8.ofNat (high * 16 + low) := by
  unfold escape? at h
  split at h
  · split at h
    · next ha hc =>
      simp only [Option.some.injEq, Prod.mk.injEq] at h
      obtain ⟨rfl, rfl⟩ := h
      exact ⟨_, _, _, _, rfl, ha, hc, rfl⟩
    · simp at h
  · simp at h

variable (hpercent : escaped '%' = false)
  (hhex : ∀ c n, hexChar? c = some n → escaped c = false)

include hpercent in
/-- A percent sign that begins no escape is read as itself. -/
theorem percentDecode_percent {cs : List Char} (h : escape? ('%' :: cs) = none) :
    percentDecode (bytesOf (percentEncode escaped ('%' :: cs)))
      = 0x25 :: percentDecode (bytesOf (percentEncode escaped cs)) := by
  obtain ⟨-, -, hbytes⟩ | ⟨hkept, -⟩ := bytesOf_percentEncode_cons escaped '%' cs
  swap
  · exact absurd ⟨by decide, hpercent⟩ hkept
  rw [hbytes]
  match hfront : bytesOf (percentEncode escaped cs) with
  | [] | [_] => rfl
  | x :: y :: more =>
    rw [percentDecode, if_pos (by decide)]
    split
    · next high low hx hy =>
      -- two digits behind it would be digits of the text, and so an escape
      obtain ⟨a, rest, rfl, ha, hrest⟩ := hexChar?_of_front hfront hx
      obtain ⟨b, rest, rfl, hb, -⟩ := hexChar?_of_front hrest.symm hy
      simp [escape?, ha, hb] at h
    · rfl

include hpercent hhex in
/-- **Decoding an encoded text** reads every escape that was in the text already, and the rest of
the text as it is. -/
theorem percentDecode_percentEncode (cs : List Char) :
    percentDecode (bytesOf (percentEncode escaped cs)) = unescaped cs := by
  have hkeep : ∀ {c n} (rest : List Char), hexChar? c = some n →
      hexByte? (UInt8.ofNat c.toNat) = some n ∧ bytesOf (percentEncode escaped (c :: rest))
        = UInt8.ofNat c.toNat :: bytesOf (percentEncode escaped rest) := by
    intro c n rest hc
    have hascii : c.toNat < 0x80 := by
      by_contra hn
      simp [hexChar?, hn] at hc
    rw [hexChar?, if_pos hascii] at hc
    obtain ⟨-, -, hbytes⟩ | ⟨hkept, -⟩ := bytesOf_percentEncode_cons escaped c rest
    · exact ⟨hc, hbytes⟩
    · exact absurd ⟨hascii, hhex c n (by rw [hexChar?, if_pos hascii, hc])⟩ hkept
  fun_induction unescaped cs with
  | case1 cs b rest h _ ih =>
    -- an escape of the text: none of its three characters is encoded
    obtain ⟨a, c, high, low, rfl, ha, hc, rfl⟩ := escape?_eq_some h
    obtain ⟨hxa, ha⟩ := hkeep (c :: rest) ha
    obtain ⟨hxc, hc⟩ := hkeep rest hc
    obtain ⟨-, -, hbytes⟩ | ⟨hkept, -⟩ :=
      bytesOf_percentEncode_cons escaped '%' (a :: c :: rest)
    swap
    · exact absurd ⟨by decide, hpercent⟩ hkept
    rw [hbytes, ha, hc, percentDecode, if_pos (by decide), hxa, hxc, ih]
  | case2 h => rfl
  | case3 c rest h ih =>
    by_cases hc : c = '%'
    · subst hc
      rw [percentDecode_percent hpercent h, ih]
      rfl
    · rw [percentEncode_cons]
      split
      · next hkept =>
        obtain ⟨hascii, -⟩ : c.toNat < 0x80 ∧ _ := by simpa using hkept
        have hne : UInt8.ofNat c.toNat ≠ 0x25 := by
          intro he
          have hbyte : c.toNat % 256 = 0x25 := by simpa using congrArg UInt8.toNat he
          exact hc (Char.toNat_inj.mp (show c.toNat = 0x25 by omega))
        rw [List.singleton_append, bytesOf_cons, utf8EncodeChar_ascii hascii,
          List.singleton_append, percentDecode_of_ne hne, ih]
        rfl
      · rw [bytesOf_append, percentDecode_escapeBytes, ih]

end Encoded

/-! ### Texts without escapes -/

theorem unescaped_nil : unescaped [] = [] := by
  rw [unescaped]
  rfl

theorem unescaped_cons {c : Char} {cs : List Char} (h : escape? (c :: cs) = none) :
    unescaped (c :: cs) = String.utf8EncodeChar c ++ unescaped cs := by
  rw [unescaped]
  split
  · next hsome => simp [h] at hsome
  · rfl

theorem unescaped_of_escapeFree {cs : List Char} (h : EscapeFree cs) :
    unescaped cs = bytesOf cs := by
  induction cs with
  | nil => exact unescaped_nil
  | cons c cs ih => rw [unescaped_cons h.1, ih h.2, bytesOf_cons]

theorem length_unescaped_le (cs : List Char) : (unescaped cs).length ≤ (bytesOf cs).length := by
  fun_induction unescaped cs with
  | case1 cs b rest h _ ih =>
    obtain ⟨a, c, -, -, rfl, -, -, -⟩ := escape?_eq_some h
    simp only [List.length_cons, bytesOf_cons, List.length_append]
    have := '%'.utf8Size_pos
    rw [String.length_utf8EncodeChar]
    omega
  | case2 h => simp
  | case3 c rest h ih =>
    simp only [List.length_append, bytesOf_cons]
    omega

/-- An escape makes what is read shorter. -/
theorem length_unescaped_lt {cs : List Char} (h : ¬ EscapeFree cs) :
    (unescaped cs).length < (bytesOf cs).length := by
  fun_induction unescaped cs with
  | case1 cs b rest hsome _ ih =>
    obtain ⟨a, c, -, -, rfl, -, -, -⟩ := escape?_eq_some hsome
    have hle := length_unescaped_le rest
    have := '%'.utf8Size_pos
    have := a.utf8Size_pos
    simp only [List.length_cons, bytesOf_cons, List.length_append, String.length_utf8EncodeChar]
    omega
  | case2 hnone => exact absurd trivial h
  | case3 c rest hnone ih =>
    have hlt := ih fun hrest => h ⟨hnone, hrest⟩
    simp only [List.length_append, bytesOf_cons]
    omega

/-- A text is read as itself when it holds no escape, and only then. -/
theorem unescaped_eq_iff (cs : List Char) : unescaped cs = bytesOf cs ↔ EscapeFree cs := by
  refine ⟨fun h => ?_, unescaped_of_escapeFree⟩
  by_contra hn
  have := length_unescaped_lt hn
  rw [h] at this
  exact absurd this (Nat.lt_irrefl _)

end Rollout.Http
