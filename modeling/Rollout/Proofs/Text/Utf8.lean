/-
Every text is read back from its bytes.

* `next_utf8EncodeChar`: the bytes of a character in front of others are read as that character;
* `scan_encode`, `decode?_encode`: so are all characters of a text, one after another;
* `length_encode_le`: there is no shorter way to write a text;
* `scan_append_ascii`: bytes can be cut at a byte of ASCII, whatever stands before it;
* `toNat_eq_of_next`: a character of ASCII is read of its own byte only, so a text that is read of
  bytes without it has none (`notMem_decodeLossy`).

The cases are the four lengths.  In the longer forms the second byte has a range of its own after
some first bytes, which a character of that form always meets.
-/
import Mathlib.Algebra.Group.Nat.Defs
import Mathlib.Data.List.Basic
import Mathlib.Data.List.Monad
import Rollout.Text.Utf8

namespace Rollout.Utf8

/-! ### Bytes as numbers -/

theorem toNat_ofNat_byte {n : Nat} (h : n < 256) : (UInt8.ofNat n).toNat = n := by
  simpa using h

/-- What a first byte says, by its number. -/
theorem Lead.ofByte?_ofNat {n : Nat} (h : n < 256) :
    Lead.ofByte? (UInt8.ofNat n)
      = if n < 0xC2 then none
        else if n < 0xE0 then some ⟨0x80, 0xBF, 1, n - 0xC0⟩
        else if n = 0xE0 then some ⟨0xA0, 0xBF, 2, 0⟩
        else if n = 0xED then some ⟨0x80, 0x9F, 2, n - 0xE0⟩
        else if n < 0xF0 then some ⟨0x80, 0xBF, 2, n - 0xE0⟩
        else if n = 0xF0 then some ⟨0x90, 0xBF, 3, 0⟩
        else if n < 0xF4 then some ⟨0x80, 0xBF, 3, n - 0xF0⟩
        else if n = 0xF4 then some ⟨0x80, 0x8F, 3, 4⟩
        else none := by
  simp only [Lead.ofByte?, UInt8.lt_iff_toNat_lt, beq_iff_eq, ← UInt8.toNat_inj,
    toNat_ofNat_byte h]
  rfl

theorem continueWith_byte {low high : UInt8} {m : Nat} (hlow : low.toNat ≤ m)
    (hhigh : m ≤ high.toNat) (more value : Nat) (rest : Bytes) :
    continueWith low high (more + 1) value (UInt8.ofNat m :: rest)
      = continueWith 0x80 0xBF more (value * 64 + m % 64) rest := by
  have hm : m < 256 := Nat.lt_of_le_of_lt hhigh high.toNat_lt
  have hrange : low ≤ UInt8.ofNat m ∧ UInt8.ofNat m ≤ high := by
    simp only [UInt8.le_iff_toNat_le, toNat_ofNat_byte hm]
    exact ⟨hlow, hhigh⟩
  simp [continueWith, hrange, toNat_ofNat_byte hm]

theorem next_lead {n : Nat} (hn : 0x80 ≤ n) (hn' : n < 256) {l : Lead}
    (hl : Lead.ofByte? (UInt8.ofNat n) = some l) (rest : Bytes) :
    next (UInt8.ofNat n) rest = continueWith l.low l.high l.more l.bits rest := by
  have hbyte : ¬ UInt8.ofNat n < 0x80 := by
    rw [UInt8.lt_iff_toNat_lt, toNat_ofNat_byte hn']
    exact Nat.not_lt.mpr hn
  simp [next, hbyte, hl]

/-! ### Characters by the length of their form -/

section Forms

variable {v : Nat} (rest : Bytes)

theorem next_one (h : v ≤ 0x7f) : next (UInt8.ofNat v) rest = (some (Char.ofNat v), rest) := by
  have hbyte : UInt8.ofNat v < 0x80 := by
    rw [UInt8.lt_iff_toNat_lt, toNat_ofNat_byte (by omega)]
    exact Nat.lt_of_le_of_lt h (by decide)
  simp [next, hbyte, toNat_ofNat_byte (show v < 256 by omega)]

theorem next_two (h : 0x80 ≤ v) (h' : v ≤ 0x7ff) :
    next (UInt8.ofNat (v / 64 % 0x20 + 0xc0)) (UInt8.ofNat (v % 0x40 + 0x80) :: rest)
      = (some (Char.ofNat v), rest) := by
  have hlead := Lead.ofByte?_ofNat (show v / 64 % 0x20 + 0xc0 < 256 by omega)
  rw [if_neg (by omega), if_pos (by omega)] at hlead
  rw [next_lead (by omega) (by omega) hlead, continueWith_byte (by simp) (by simp; omega),
    continueWith]
  dsimp only
  congr 3
  omega

theorem next_three (h : 0x800 ≤ v) (h' : v ≤ 0xffff) (hv : v < 0xD800 ∨ 0xDFFF < v) :
    next (UInt8.ofNat (v / 4096 % 0x10 + 0xe0))
        (UInt8.ofNat (v / 64 % 0x40 + 0x80) :: UInt8.ofNat (v % 0x40 + 0x80) :: rest)
      = (some (Char.ofNat v), rest) := by
  -- the range of the second byte depends on the first one
  obtain ⟨l, hlead, hlow, hhigh, hmore, hbits⟩ : ∃ l,
      Lead.ofByte? (UInt8.ofNat (v / 4096 % 0x10 + 0xe0)) = some l ∧
      l.low.toNat ≤ v / 64 % 0x40 + 0x80 ∧ v / 64 % 0x40 + 0x80 ≤ l.high.toNat ∧
      l.more = 2 ∧ l.bits = v / 4096 := by
    rw [Lead.ofByte?_ofNat (by omega), if_neg (by omega), if_neg (by omega)]
    split
    · exact ⟨_, rfl, by simp; omega, by simp; omega, rfl, by simp; omega⟩
    split
    · exact ⟨_, rfl, by simp, by simp; omega, rfl, by simp; omega⟩
    rw [if_pos (by omega)]
    exact ⟨_, rfl, by simp, by simp; omega, rfl, by simp; omega⟩
  rw [next_lead (by omega) (by omega) hlead, hmore, hbits, continueWith_byte hlow hhigh,
    continueWith_byte (by simp) (by simp; omega), continueWith]
  congr 3
  omega

theorem next_four (h : 0x10000 ≤ v) (h' : v < 0x110000) :
    next (UInt8.ofNat (v / 262144 % 0x08 + 0xf0))
        (UInt8.ofNat (v / 4096 % 0x40 + 0x80) :: UInt8.ofNat (v / 64 % 0x40 + 0x80)
          :: UInt8.ofNat (v % 0x40 + 0x80) :: rest)
      = (some (Char.ofNat v), rest) := by
  obtain ⟨l, hlead, hlow, hhigh, hmore, hbits⟩ : ∃ l,
      Lead.ofByte? (UInt8.ofNat (v / 262144 % 0x08 + 0xf0)) = some l ∧
      l.low.toNat ≤ v / 4096 % 0x40 + 0x80 ∧ v / 4096 % 0x40 + 0x80 ≤ l.high.toNat ∧
      l.more = 3 ∧ l.bits = v / 262144 := by
    rw [Lead.ofByte?_ofNat (by omega), if_neg (by omega), if_neg (by omega), if_neg (by omega),
      if_neg (by omega), if_neg (by omega)]
    split
    · exact ⟨_, rfl, by simp; omega, by simp; omega, rfl, by simp; omega⟩
    split
    · exact ⟨_, rfl, by simp, by simp; omega, rfl, by simp; omega⟩
    rw [if_pos (by omega)]
    exact ⟨_, rfl, by simp, by simp; omega, rfl, by simp; omega⟩
  rw [next_lead (by omega) (by omega) hlead, hmore, hbits, continueWith_byte hlow hhigh,
    continueWith_byte (by simp) (by simp; omega), continueWith_byte (by simp) (by simp; omega),
    continueWith]
  congr 3
  omega

end Forms

/-- The bytes of a character in front of others are read as that character. -/
theorem next_utf8EncodeChar (c : Char) (rest : Bytes) :
    ∃ b more, String.utf8EncodeChar c = b :: more ∧ next b (more ++ rest) = (some c, rest) := by
  have hvalid : c.val.toNat < 0xD800 ∨ 0xDFFF < c.val.toNat ∧ c.val.toNat < 0x110000 := c.valid
  have hchar : Char.ofNat c.val.toNat = c := c.ofNat_toNat
  unfold String.utf8EncodeChar
  generalize c.val.toNat = v at hvalid hchar
  subst hchar
  dsimp only
  split
  · exact ⟨_, _, rfl, next_one rest ‹_›⟩
  split
  · exact ⟨_, _, rfl, next_two rest (by omega) ‹_›⟩
  split
  · exact ⟨_, _, rfl, next_three rest (by omega) ‹_› (hvalid.imp id And.left)⟩
  · exact ⟨_, _, rfl, next_four rest (by omega) (by omega)⟩

/-! ### Texts -/

theorem scan_utf8EncodeChar (c : Char) (rest : Bytes) :
    scan (String.utf8EncodeChar c ++ rest) = some c :: scan rest := by
  obtain ⟨b, more, hbytes, hnext⟩ := next_utf8EncodeChar c rest
  rw [hbytes, List.cons_append, scan, hnext]

/-- The bytes of a text hold its characters and nothing else. -/
theorem scan_encode (s : String) : scan (encode s) = s.toList.map some := by
  unfold encode
  induction s.toList with
  | nil => simp [scan]
  | cons c cs ih => rw [List.flatMap_cons, scan_utf8EncodeChar, ih, List.map_cons]

/-- The bytes of a text are read back as that text. -/
theorem decode?_encode (s : String) : decode? (encode s) = some s := by
  have hchars : (s.toList.map some).mapM id = some s.toList := by
    have hpure := List.mapM_pure (m := Option) (f := (id : Char → Char)) (l := s.toList)
    rw [List.map_id] at hpure
    rw [List.mapM_map]
    exact hpure
  rw [decode?, scan_encode, hchars, Option.map_some, String.ofList_toList]

theorem encode_inj {s t : String} (h : encode s = encode t) : s = t := by
  have hread := decode?_encode s
  rw [h, decode?_encode] at hread
  exact (Option.some.inj hread).symm

theorem decodeLossy_encode (s : String) : decodeLossy (encode s) = s := by
  rw [decodeLossy, scan_encode, List.map_map]
  exact (congrArg String.ofList (List.map_id' s.toList)).trans s.ofList_toList

/-! ### Numbers of bytes -/

/-- Reading the bytes after the first one takes as many as announced, six bits from each. -/
theorem continueWith_eq_some {low high : UInt8} {more value : Nat} {bs rest : Bytes} {c : Char}
    (h : continueWith low high more value bs = (some c, rest)) :
    ∃ v < (value + 1) * 64 ^ more, c = Char.ofNat v ∧ bs.length = more + rest.length := by
  induction more generalizing low high value bs with
  | zero =>
    obtain ⟨rfl, rfl⟩ : Char.ofNat value = c ∧ bs = rest := by simpa [continueWith] using h
    exact ⟨value, by simp, rfl, by simp⟩
  | succ more ih =>
    cases bs with
    | nil => simp [continueWith] at h
    | cons b bs =>
      rw [continueWith] at h
      split at h
      · obtain ⟨v, hv, rfl, hlength⟩ := ih h
        refine ⟨v, Nat.lt_of_lt_of_le hv ?_, rfl, ?_⟩
        · calc (value * 64 + b.toNat % 64 + 1) * 64 ^ more
              ≤ ((value + 1) * 64) * 64 ^ more := Nat.mul_le_mul_right _ (by omega)
            _ = (value + 1) * 64 ^ (more + 1) := by rw [Nat.mul_assoc, Nat.pow_succ']
        · rw [List.length_cons, hlength]
          omega
      · simp at h

theorem toNat_ofNat_le (v : Nat) : (Char.ofNat v).toNat ≤ v := by
  by_cases h : v.isValidChar
  · rw [Char.ofNat, dif_pos h]
    exact Nat.le_refl _
  · rw [Char.ofNat, dif_neg h]
    exact Nat.zero_le _

theorem utf8Size_eq (c : Char) :
    c.utf8Size = if c.toNat ≤ 0x7f then 1 else if c.toNat ≤ 0x7ff then 2
      else if c.toNat ≤ 0xffff then 3 else 4 := rfl

theorem utf8Size_le_one {c : Char} (h : c.toNat < 0x80) : c.utf8Size ≤ 1 := by
  rw [utf8Size_eq]
  exact Nat.le_of_eq (if_pos (by omega))

theorem utf8Size_le_two {c : Char} (h : c.toNat < 0x800) : c.utf8Size ≤ 2 := by
  rw [utf8Size_eq]
  split
  · omega
  · exact Nat.le_of_eq (if_pos (by omega))

theorem utf8Size_le_three {c : Char} (h : c.toNat < 0x10000) : c.utf8Size ≤ 3 := by
  rw [utf8Size_eq]
  split
  · omega
  split
  · omega
  · exact Nat.le_of_eq (if_pos (by omega))

/-- The first byte leaves room for no more than its form can hold. -/
theorem Lead.bits_lt {b : UInt8} {l : Lead} (h : Lead.ofByte? b = some l) :
    l.more = 1 ∧ l.bits < 0x20 ∨ l.more = 2 ∧ l.bits < 0x10 ∨ l.more = 3 := by
  have hb : b.toNat < 256 := b.toNat_lt
  have hlead := Lead.ofByte?_ofNat hb
  rw [UInt8.ofNat_toNat, h] at hlead
  generalize b.toNat = n at hlead
  split_ifs at hlead
  all_goals
    obtain rfl := Option.some_inj.mp hlead
    simp
  all_goals omega

/-- A character is read from at least as many bytes as its form has. -/
theorem length_next {b : UInt8} {bs rest : Bytes} {c : Char} (h : next b bs = (some c, rest)) :
    c.utf8Size + rest.length ≤ bs.length + 1 := by
  rw [next] at h
  split at h
  · next hb =>
    obtain ⟨rfl, rfl⟩ : Char.ofNat b.toNat = c ∧ bs = rest := by simpa using h
    have hle := Nat.lt_of_le_of_lt (toNat_ofNat_le b.toNat) (UInt8.lt_iff_toNat_lt.mp hb)
    have hsize := utf8Size_le_one hle
    omega
  · split at h
    · simp at h
    · next l hl =>
      obtain ⟨v, hv, rfl, hlength⟩ := continueWith_eq_some h
      have hle := Nat.lt_of_le_of_lt (toNat_ofNat_le v) hv
      -- the value is too small for a longer form
      obtain ⟨hmore, hbits⟩ | ⟨hmore, hbits⟩ | hmore := Lead.bits_lt hl
      · rw [hmore] at hle hlength
        have hsize := utf8Size_le_two (c := Char.ofNat v) (by omega)
        omega
      · rw [hmore] at hle hlength
        have hsize := utf8Size_le_three (c := Char.ofNat v) (by omega)
        omega
      · have hsize := (Char.ofNat v).utf8Size_le_four
        omega

/-- No bytes are read as a text that has more bytes. -/
theorem length_encode_le {bs : Bytes} {s : String} (h : decode? bs = some s) :
    (encode s).length ≤ bs.length := by
  obtain ⟨cs, hcs, rfl⟩ := Option.map_eq_some_iff.mp h
  rw [encode, String.toList_ofList]
  clear h
  fun_induction scan bs generalizing cs with
  | case1 =>
    obtain rfl : cs = [] := by simpa [eq_comm] using hcs
    exact Nat.le_refl _
  | case2 b bs ih =>
    rw [List.mapM_cons] at hcs
    obtain ⟨c, hc, hcs⟩ := Option.bind_eq_some_iff.mp hcs
    obtain ⟨more, hmore, hcs⟩ := Option.bind_eq_some_iff.mp hcs
    obtain rfl : c :: more = cs := by simpa using hcs
    have hnext := length_next (show next b bs = (some c, (next b bs).2) from Prod.ext hc rfl)
    have hrest := ih more hmore
    rw [List.flatMap_cons, List.length_append, String.length_utf8EncodeChar, List.length_cons]
    omega

/-! ### ASCII -/

/-- What the first two bytes of a longer form say is too much for ASCII. -/
theorem Lead.least {b : UInt8} {l : Lead} (h : Lead.ofByte? b = some l) :
    ∃ more, l.more = more + 1 ∧ 0x80 ≤ (l.bits * 64 + (l.low.toNat - 0x80)) * 64 ^ more ∧
      0x80 ≤ l.low.toNat ∧ l.high.toNat ≤ 0xBF := by
  have hb : b.toNat < 256 := b.toNat_lt
  have hlead := Lead.ofByte?_ofNat hb
  rw [UInt8.ofNat_toNat, h] at hlead
  generalize b.toNat = n at hlead
  split_ifs at hlead
  all_goals
    obtain rfl := Option.some_inj.mp hlead
    refine ⟨_, rfl, ?_, by simp, by simp⟩
    simp
  all_goals omega

theorem continueWith_append_ascii {low high b : UInt8} (hlow : 0x80 ≤ low.toNat) (hb : b < 0x80)
    (more value : Nat) (bs rest : Bytes) :
    continueWith low high more value (bs ++ b :: rest)
      = ((continueWith low high more value bs).1,
        (continueWith low high more value bs).2 ++ b :: rest) := by
  induction more generalizing low high value bs with
  | zero => rfl
  | succ more ih =>
    cases bs with
    | nil =>
      have hout : ¬ (low ≤ b && b ≤ high) = true := by
        rw [UInt8.lt_iff_toNat_lt] at hb
        simp only [Bool.and_eq_true, decide_eq_true_eq, UInt8.le_iff_toNat_le]
        have h80 : (0x80 : UInt8).toNat = 0x80 := rfl
        omega
      rw [List.nil_append, continueWith, continueWith, if_neg hout, List.nil_append]
    | cons c bs =>
      rw [List.cons_append, continueWith, continueWith]
      split
      · exact ih (by decide) _ _
      · rfl

theorem next_append_ascii {b : UInt8} (hb : b < 0x80) (c : UInt8) (bs rest : Bytes) :
    next c (bs ++ b :: rest) = ((next c bs).1, (next c bs).2 ++ b :: rest) := by
  rw [next, next]
  split
  · rfl
  · split
    · rfl
    · next l hl =>
      obtain ⟨-, -, -, hlow, -⟩ := Lead.least hl
      exact continueWith_append_ascii hlow hb _ _ _ _

/-- A byte of ASCII ends whatever stands before it, so that it is read by itself. -/
theorem scan_append_ascii {b : UInt8} (hb : b < 0x80) (bs rest : Bytes) :
    scan (bs ++ b :: rest) = scan bs ++ some (Char.ofNat b.toNat) :: scan rest := by
  fun_induction scan bs with
  | case1 => rw [List.nil_append, scan, next, if_pos hb, List.nil_append]
  | case2 c bs ih => rw [List.cons_append, scan, next_append_ascii hb, ih, List.cons_append]

/-- The bytes after the first one only add to the value. -/
theorem le_of_continueWith {low high : UInt8} {more value : Nat} {bs rest : Bytes} {c : Char}
    (hlow : 0x80 ≤ low.toNat) (hhigh : high.toNat ≤ 0xBF)
    (h : continueWith low high (more + 1) value bs = (some c, rest)) :
    ∃ v, (value * 64 + (low.toNat - 0x80)) * 64 ^ more ≤ v ∧ c = Char.ofNat v := by
  induction more generalizing low high value bs with
  | zero =>
    cases bs with
    | nil => simp [continueWith] at h
    | cons b bs =>
      rw [continueWith] at h
      split at h
      · next hrange =>
        simp only [Bool.and_eq_true, decide_eq_true_eq, UInt8.le_iff_toNat_le] at hrange
        obtain ⟨rfl, -⟩ : Char.ofNat (value * 64 + b.toNat % 64) = c ∧ bs = rest := by
          simpa [continueWith] using h
        exact ⟨_, by omega, rfl⟩
      · simp at h
  | succ more ih =>
    cases bs with
    | nil => simp [continueWith] at h
    | cons b bs =>
      rw [continueWith] at h
      split at h
      · next hrange =>
        simp only [Bool.and_eq_true, decide_eq_true_eq, UInt8.le_iff_toNat_le] at hrange
        obtain ⟨v, hv, rfl⟩ := ih (by decide) (by decide) h
        refine ⟨v, Nat.le_trans ?_ hv, rfl⟩
        calc (value * 64 + (low.toNat - 0x80)) * 64 ^ (more + 1)
            = (value * 64 + (low.toNat - 0x80)) * 64 * 64 ^ more := by
              rw [Nat.pow_succ', Nat.mul_assoc]
          _ ≤ ((value * 64 + b.toNat % 64) * 64 + (UInt8.toNat 0x80 - 0x80)) * 64 ^ more :=
              Nat.mul_le_mul_right _ (by omega)
      · simp at h

theorem continueWith_suffix (low high : UInt8) (more value : Nat) (bs : Bytes) :
    (continueWith low high more value bs).2 <:+ bs := by
  induction more generalizing low high value bs with
  | zero => exact List.suffix_refl bs
  | succ more ih =>
    cases bs with
    | nil => exact List.suffix_refl []
    | cons b bs =>
      rw [continueWith]
      split
      · exact (ih ..).trans (List.suffix_cons b bs)
      · exact List.suffix_refl _

theorem next_suffix (b : UInt8) (bs : Bytes) : (next b bs).2 <:+ bs := by
  rw [next]
  split
  · exact List.suffix_refl bs
  · split
    · exact List.suffix_refl bs
    · exact continueWith_suffix ..

/-- A character of ASCII is read of its own byte only. -/
theorem toNat_eq_of_next {b : UInt8} {bs rest : Bytes} {c : Char}
    (h : next b bs = (some c, rest)) (hc : c.toNat < 0x80) (hnul : c.toNat ≠ 0) :
    b.toNat = c.toNat := by
  rw [next] at h
  split at h
  · next hb =>
    obtain ⟨rfl, -⟩ : Char.ofNat b.toNat = c ∧ bs = rest := by simpa using h
    have hb : b.toNat < 0x80 := UInt8.lt_iff_toNat_lt.mp hb
    have hvalid : b.toNat.isValidChar := .inl (by omega)
    rw [Char.ofNat, dif_pos hvalid]
    rfl
  · split at h
    · simp at h
    · next l hl =>
      obtain ⟨more, hmore, hleast, hlow, hhigh⟩ := Lead.least hl
      rw [hmore] at h
      obtain ⟨v, hv, rfl⟩ := le_of_continueWith hlow hhigh h
      -- the value is too great for ASCII, or it is none of a character
      by_cases hvalid : v.isValidChar
      · rw [Char.ofNat, dif_pos hvalid] at hc
        have hvalue : (Char.ofNatAux v hvalid).toNat = v := rfl
        omega
      · rw [Char.ofNat, dif_neg hvalid] at hnul
        exact absurd rfl hnul

theorem exists_byte_of_mem_scan {bs : Bytes} {c : Char} (h : some c ∈ scan bs)
    (hc : c.toNat < 0x80) (hnul : c.toNat ≠ 0) : ∃ b ∈ bs, b.toNat = c.toNat := by
  fun_induction scan bs with
  | case1 => simp at h
  | case2 b bs ih =>
    rcases List.mem_cons.mp h with h | h
    · exact ⟨b, List.mem_cons_self, toNat_eq_of_next (Prod.ext h.symm rfl) hc hnul⟩
    · obtain ⟨x, hx, hxc⟩ := ih h
      exact ⟨x, List.mem_cons_of_mem b ((next_suffix b bs).subset hx), hxc⟩

/-- A text has a character of ASCII only if the bytes that it is read of have its byte. -/
theorem notMem_decodeLossy {bs : Bytes} {c : Char} (hc : c.toNat < 0x80) (hnul : c.toNat ≠ 0)
    (h : UInt8.ofNat c.toNat ∉ bs) : c ∉ (decodeLossy bs).toList := by
  rw [decodeLossy, String.toList_ofList, List.mem_map]
  rintro ⟨o, ho, hoc⟩
  cases o with
  | none =>
    obtain rfl : '\uFFFD' = c := hoc
    exact absurd hc (by decide)
  | some d =>
    obtain rfl : d = c := hoc
    obtain ⟨b, hb, hbd⟩ := exists_byte_of_mem_scan ho hc hnul
    refine h ?_
    rwa [← hbd, UInt8.ofNat_toNat]

end Rollout.Utf8
