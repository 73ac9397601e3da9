/-
Texts that a URL carries in a segment of its own.

A client puts a text into a path as it stands, and a server cuts the path and decodes what it finds.
What the reader of URLs does in between may drop a part of the text, resolve it against the path or
split it, and decoding takes escapes in it for characters.

* `Carried` and `CarriedAtEnd`: the texts that come through all of this, with something behind them
  and at the end of a path;
* `resolve_between` and `resolve_atEnd`: what becomes of such a text;
* `mem_done_of_mark`, `carried_of_foldl_enter` and `carriedAtEnd_of_resolve`: no other text is found
  again.
-/
import Rollout.Proofs.Http.Url
import Rollout.Proofs.Text.Split
import Rollout.Proofs.Text.Utf8

namespace Rollout.Http.Url

/-! ### Decoding segments -/

/-- A segment is decoded to what is read of its characters. -/
theorem percentDecodeText?_segment (cs : List Char) :
    percentDecodeText? (segment cs) = Utf8.decode? (unescaped cs) := by
  have hdigit : ∀ n < 0x80, (hexByte? (UInt8.ofNat n)).isSome →
      escapedInPath (Char.ofNat n) = false := by decide
  have hhex : ∀ c n, hexChar? c = some n → escapedInPath c = false := by
    intro c n hc
    rw [hexChar?] at hc
    split at hc
    · next hascii =>
      rw [← c.ofNat_toNat]
      exact hdigit c.toNat hascii (by rw [hc]; rfl)
    · simp at hc
  rw [percentDecodeText?, segment, encode_ofList,
    percentDecode_percentEncode (by decide) hhex]

/-- A text that is read of a part of itself is read of the whole, and has no escape. -/
theorem eq_of_decode_segment {cs piece : List Char} (hpart : piece.Sublist cs)
    (h : percentDecodeText? (segment piece) = some (.ofList cs)) :
    piece = cs ∧ EscapeFree cs := by
  rw [percentDecodeText?_segment] at h
  have hread := Utf8.length_encode_le h
  have hle := length_unescaped_le piece
  have hbytes := length_bytesOf_of_sublist hpart
  rw [encode_ofList] at hread
  obtain rfl : piece = cs := hpart.eq_of_length_le (by omega)
  refine ⟨rfl, ?_⟩
  by_contra hescape
  have hlt := length_unescaped_lt hescape
  omega

theorem decode_empty : percentDecodeText? "" = some "" := Utf8.decode?_encode ""

/-! ### Cutting paths -/

/-- A path is cut into its segments again. -/
theorem splitOn_path {u : Url} (hne : u.segments ≠ [])
    (hslash : ∀ x ∈ u.segments, '/' ∉ x.toList) : u.path.splitOn "/" = "" :: u.segments := by
  have hpath : u.path = "/".intercalate ("" :: u.segments) := by
    obtain ⟨x, xs, hx⟩ := List.exists_cons_of_ne_nil hne
    rw [path, hx, String.intercalate_cons_cons, String.empty_append]
  rw [hpath, Text.splitOn_intercalate_slash (by simp)]
  simpa using hslash

theorem slash_notMem_of_mem_resolve {done : List String} (hdone : ∀ x ∈ done, '/' ∉ x.toList)
    {cs : List Char} : ∀ x ∈ resolve done (pieces isSlash cs), '/' ∉ x.toList := by
  intro x hx
  rcases of_mem_resolve hx with hx | rfl | ⟨p, hp, rfl⟩
  · exact hdone x hx
  · simp
  · refine slash_not_mem_segment fun hmem => ?_
    exact absurd ((of_mem_pieces hp).2 _ hmem) (by decide)

/-! ### Texts -/

/-- The characters that mean something to the reader, or are dropped. -/
theorem notMem_special_iff {c : Char} : c ∉ ['/', '\\', '?', '#', '\t', '\n', '\r'] ↔
    (isTabOrLineEnd c = false ∧ c ≠ '#' ∧ c ≠ '?') ∧ isSlash c = false := by
  simp [isSlash, isTabOrLineEnd]
  tauto

/-- The characters of a text mean nothing to the reader just when it is left whole and in one
piece. -/
theorem plain_iff_whole {cs : List Char} :
    ((∀ c ∈ cs, c ∉ ['/', '\\', '?', '#', '\t', '\n', '\r']) ∧ ∀ c ∈ cs.getLast?, ' ' < c) ↔
      pathPart cs = cs ∧ ∀ c ∈ cs, isSlash c = false := by
  have hlast : ∀ c : Char, ' ' < c ↔ isControlOrSpace c = false := by
    intro c
    rw [isControlOrSpace, decide_eq_false_iff_not, Nat.not_le]
    rfl
  rw [pathPart_eq_self_iff]
  constructor
  · rintro ⟨hplain, hend⟩
    exact ⟨⟨fun c hc => (notMem_special_iff.mp (hplain c hc)).1,
      fun c hc => (hlast c).mp (hend c hc)⟩,
      fun c hc => (notMem_special_iff.mp (hplain c hc)).2⟩
  · rintro ⟨⟨hplain, hend⟩, hslash⟩
    exact ⟨fun c hc => notMem_special_iff.mpr ⟨hplain c hc, hslash c hc⟩,
      fun c hc => (hlast c).mpr (hend c hc)⟩

/-- A text that a URL carries as it stands, in a segment of its own that is not the last one. -/
structure Carried (text : String) : Prop where
  /-- No character begins another segment, a query or a fragment, or is dropped. -/
  plain : ∀ c ∈ text.toList, c ∉ ['/', '\\', '?', '#', '\t', '\n', '\r']
  /-- It is no dot segment. -/
  notDots : dots text.toList ≠ some 1 ∧ dots text.toList ≠ some 2
  /-- Nothing in it is taken for an escape. -/
  escapeFree : EscapeFree text.toList

/-- A text that a URL carries as it stands in its last segment, where no blanks may be dropped. -/
structure CarriedAtEnd (text : String) : Prop extends Carried text where
  last : ∀ c ∈ text.toList.getLast?, ' ' < c

instance (text : String) : Decidable (Carried text) :=
  have : Decidable (∀ c ∈ text.toList, c ∉ ['/', '\\', '?', '#', '\t', '\n', '\r']) :=
    List.decidableBAll _ _
  decidable_of_iff
    ((∀ c ∈ text.toList, c ∉ ['/', '\\', '?', '#', '\t', '\n', '\r']) ∧
      (dots text.toList ≠ some 1 ∧ dots text.toList ≠ some 2) ∧ EscapeFree text.toList)
    ⟨fun ⟨h₁, h₂, h₃⟩ => ⟨h₁, h₂, h₃⟩, fun ⟨h₁, h₂, h₃⟩ => ⟨h₁, h₂, h₃⟩⟩

instance (text : String) : Decidable (CarriedAtEnd text) :=
  have : Decidable (∀ c ∈ text.toList.getLast?, ' ' < c) := Option.decidableForallMem _
  decidable_of_iff (Carried text ∧ ∀ c ∈ text.toList.getLast?, ' ' < c)
    ⟨fun ⟨h, hlast⟩ => ⟨h, hlast⟩, fun h => ⟨h.toCarried, h.last⟩⟩

namespace Carried

variable {text : String}

theorem unmarked (h : Carried text) : Unmarked text.toList :=
  fun c hc => (notMem_special_iff.mp (h.plain c hc)).1.2

theorem filter_eq (h : Carried text) :
    text.toList.filter (!isTabOrLineEnd ·) = text.toList :=
  List.filter_eq_self.mpr fun c hc => by
    rw [(notMem_special_iff.mp (h.plain c hc)).1.1]
    rfl

theorem pieces_eq (h : Carried text) : pieces isSlash text.toList = [text.toList] :=
  pieces_of_forall fun c hc => (notMem_special_iff.mp (h.plain c hc)).2

theorem enter_eq (h : Carried text) (done : List String) :
    enter done text.toList = segment text.toList :: done := by
  rw [enter]
  split
  · next hd => exact absurd hd h.notDots.1
  · next hd => exact absurd hd h.notDots.2
  · rfl

/-- What a server reads of the segment is the text. -/
theorem decode_segment (h : Carried text) :
    percentDecodeText? (segment text.toList) = some text := by
  rw [percentDecodeText?_segment, unescaped_of_escapeFree h.escapeFree]
  exact Utf8.decode?_encode text

end Carried

/-! ### What becomes of a text -/

/-- The pieces of a text enter the path before what follows it. -/
theorem resolve_pathPart_append {cs : List Char} (h : Unmarked cs) (done : List String)
    (rest : List Char) :
    resolve done (pieces isSlash (pathPart (cs ++ '/' :: rest)))
      = resolve ((pieces isSlash (cs.filter (!isTabOrLineEnd ·))).foldl enter done)
          (pieces isSlash (pathPart rest)) := by
  obtain ⟨q, qs, hq⟩ := List.exists_cons_of_ne_nil (pieces_ne_nil isSlash (pathPart rest))
  rw [pathPart_append_slash h, pieces_append (by decide), hq, resolve_append]

theorem resolve_between {text : String} (h : Carried text) (done : List String)
    (rest : List Char) :
    resolve done (pieces isSlash (pathPart (text.toList ++ '/' :: rest)))
      = resolve (segment text.toList :: done) (pieces isSlash (pathPart rest)) := by
  rw [resolve_pathPart_append h.unmarked, h.filter_eq, h.pieces_eq, List.foldl_cons, h.enter_eq,
    List.foldl_nil]

theorem resolve_atEnd {text : String} (h : CarriedAtEnd text) (done : List String) :
    resolve done (pieces isSlash (pathPart text.toList))
      = done.reverse ++ [segment text.toList] := by
  rw [(plain_iff_whole.mp ⟨h.plain, h.last⟩).1, h.pieces_eq, resolve_last h.notDots.1 h.notDots.2,
    List.reverse_cons]

/-- A path that begins with words. -/
def under (words : List String) (rest : List Char) : List Char :=
  words.foldr (fun word rest => word.toList ++ '/' :: rest) rest

theorem under_append (words : List String) (rest more : List Char) :
    under words rest ++ more = under words (rest ++ more) := by
  induction words with
  | nil => rfl
  | cons word words ih =>
    rw [under, List.foldr_cons, List.append_assoc, List.cons_append, ← under, ih]
    rfl

theorem unmarked_under {words : List String} (h : ∀ word ∈ words, Unmarked word.toList)
    {rest : List Char} (hrest : Unmarked rest) : Unmarked (under words rest) := by
  induction words with
  | nil => exact hrest
  | cons word words ih =>
    exact (h word List.mem_cons_self).append_slash
      (ih fun w hw => h w (List.mem_cons_of_mem word hw))

theorem resolve_under {words : List String}
    (h : ∀ word ∈ words, Carried word ∧ segment word.toList = word) (done : List String)
    (rest : List Char) :
    resolve done (pieces isSlash (pathPart (under words rest)))
      = resolve (words.reverse ++ done) (pieces isSlash (pathPart rest)) := by
  induction words generalizing done with
  | nil => rfl
  | cons word words ih =>
    obtain ⟨hcarried, hsegment⟩ := h word List.mem_cons_self
    rw [under, List.foldr_cons, ← under, resolve_between hcarried, hsegment,
      ih fun w hw => h w (List.mem_cons_of_mem word hw), List.reverse_cons, List.append_assoc]
    rfl

/-! ### Texts that are found again -/

theorem of_mem_foldl_enter {ps : List (List Char)} {done : List String} {x : String}
    (h : x ∈ ps.foldl enter done) : x ∈ done ∨ ∃ p ∈ ps, x = segment p := by
  induction ps generalizing done with
  | nil => exact .inl h
  | cons p ps ih =>
    rcases ih h with h | ⟨q, hq, rfl⟩
    · rcases of_mem_enter h with h | rfl
      · exact .inl h
      · exact .inr ⟨p, List.mem_cons_self, rfl⟩
    · exact .inr ⟨q, List.mem_cons_of_mem _ hq, rfl⟩

/-- A text in which a fragment or a query begins is not found in what is left of it. -/
theorem mem_done_of_mark {text : String} {done : List String} {rest : List Char} {x : String}
    (hmark : ¬Unmarked text.toList)
    (hx : x ∈ resolve done (pieces isSlash (pathPart (text.toList ++ '/' :: rest))))
    (hdecode : percentDecodeText? x = some text) : x ∈ done := by
  unfold Unmarked at hmark
  push Not at hmark
  obtain ⟨c, hc, hmark⟩ := hmark
  obtain ⟨before, after, hsplit⟩ := List.append_of_mem hc
  have hpath : (pathPart (text.toList ++ '/' :: rest)).Sublist before := by
    rw [hsplit, List.append_assoc, List.cons_append]
    exact pathPart_append_mark (or_iff_not_imp_left.mpr hmark) _ _
  rcases of_mem_resolve hx with hx | rfl | ⟨p, hp, rfl⟩
  · exact hx
  · rw [decode_empty, Option.some_inj] at hdecode
    rw [← hdecode] at hc
    cases hc
  · -- the whole text would be a part of what stands in front of the mark
    have hpart : p.Sublist before := (of_mem_pieces hp).1.trans hpath
    have hbefore : before.Sublist text.toList := by
      rw [hsplit]
      exact List.sublist_append_left _ _
    obtain ⟨rfl, -⟩ := eq_of_decode_segment (hpart.trans hbefore)
      (by rw [hdecode, String.ofList_toList])
    have hle := hpart.length_le
    rw [hsplit, List.length_append, List.length_cons] at hle
    omega

/-- A text is carried when the pieces of it add one segment, and that is read as the text. -/
theorem carried_of_foldl_enter {text : String} (hmarks : Unmarked text.toList)
    {done more : List String} {x : String}
    (h : (pieces isSlash (text.toList.filter (!isTabOrLineEnd ·))).foldl enter done = x :: more)
    (hlength : more.length = done.length) (hdecode : percentDecodeText? x = some text) :
    x ∈ done ∨ Carried text := by
  rcases of_mem_foldl_enter (h ▸ List.mem_cons_self : x ∈ _) with hx | ⟨p, hp, rfl⟩
  · exact .inl hx
  right
  obtain ⟨hpart, hone⟩ := of_mem_pieces hp
  obtain ⟨rfl, hescapeFree⟩ : p = text.toList ∧ EscapeFree text.toList :=
    eq_of_decode_segment (hpart.trans List.filter_sublist) (by rw [hdecode, String.ofList_toList])
  have hwhole : text.toList.filter (!isTabOrLineEnd ·) = text.toList :=
    List.filter_sublist.eq_of_length_le hpart.length_le
  have hkept : ∀ c ∈ text.toList, isTabOrLineEnd c = false := by
    simpa using List.filter_eq_self.mp hwhole
  -- a dot segment would have added nothing
  rw [hwhole, pieces_of_forall hone, List.foldl_cons, List.foldl_nil, enter] at h
  refine ⟨fun c hc => notMem_special_iff.mpr ⟨⟨hkept c hc, hmarks c hc⟩, hone c hc⟩,
    ⟨fun hdots => ?_, fun hdots => ?_⟩, hescapeFree⟩
  all_goals
    rw [hdots] at h
    have hlengths := congrArg List.length h
    simp only [List.length_drop, List.length_cons] at hlengths
    omega

/-- A text is carried at the end of a path when the last segment is read as the text. -/
theorem carriedAtEnd_of_resolve {text : String} {done : List String} {x : String}
    (hx : (resolve done (pieces isSlash (pathPart text.toList))).getLast? = some x)
    (hdecode : percentDecodeText? x = some text) : CarriedAtEnd text := by
  have hempty : x = "" → CarriedAtEnd text := by
    rintro rfl
    obtain rfl := Option.some_inj.mp (decode_empty.symm.trans hdecode)
    decide
  obtain ⟨ps, p, hps⟩ := (List.eq_nil_or_concat _).resolve_left
    (pieces_ne_nil isSlash (pathPart text.toList))
  rw [List.concat_eq_append] at hps
  rw [hps, resolve_append, resolve, List.getLast?_reverse] at hx
  split at hx
  · exact hempty (Option.some_inj.mp hx).symm
  · exact hempty (Option.some_inj.mp hx).symm
  · next hone htwo =>
    obtain rfl : segment p = x := Option.some_inj.mp hx
    obtain ⟨hpart, hfree⟩ : p.Sublist (pathPart text.toList) ∧ ∀ c ∈ p, isSlash c = false :=
      of_mem_pieces (by rw [hps]; simp)
    have hpath := pathPart_sublist text.toList
    obtain ⟨rfl, hescapeFree⟩ : p = text.toList ∧ EscapeFree text.toList :=
      eq_of_decode_segment (hpart.trans hpath) (by rw [hdecode, String.ofList_toList])
    obtain ⟨hplain, hlast⟩ :=
      plain_iff_whole.mpr ⟨hpath.eq_of_length_le hpart.length_le, hfree⟩
    exact ⟨⟨hplain, ⟨hone, htwo⟩, hescapeFree⟩, hlast⟩

end Rollout.Http.Url
