/-
URLs below a base.

A client puts a path behind the base of a server, and the reader of URLs takes the whole text apart
again.  Where the base is the root of the server, the segments of the URL are those of the path
alone.

* `clean_append_slash`, `cut_append`, `pieces_append`, `resolve_append`: each stage of the reader
  takes the base and the path apart;
* `pathPart` is what is left of a path when the stages before the last one have seen it:
  `pathPart_eq_self_iff` says which paths are left whole, `pathPart_append_slash` and
  `pathPart_append_mark` what becomes of the parts of a path;
* `of_mem_resolve`: where the segments of a URL come from;
* `parse?_under`: a base that leads to one segment leads to the segments of every path.
-/
import Mathlib.Data.List.TakeWhile
import Rollout.Http.Url
import Rollout.Proofs.Http.Percent

namespace Rollout.Http.Url

/-! ### Cutting -/

theorem cut_of_forall {p : Char → Bool} {cs : List Char} (h : ∀ c ∈ cs, p c = false) :
    cut p cs = (cs, none) := by
  induction cs with
  | nil => rfl
  | cons c cs ih =>
    rw [cut, h c List.mem_cons_self, ih fun d hd => h d (List.mem_cons_of_mem c hd)]
    rfl

/-- A part without a separator stands in front of the piece. -/
theorem cut_append {p : Char → Bool} {cs : List Char} (h : ∀ c ∈ cs, p c = false)
    (ds : List Char) : cut p (cs ++ ds) = (cs ++ (cut p ds).1, (cut p ds).2) := by
  induction cs with
  | nil => rfl
  | cons c cs ih =>
    rw [List.cons_append, cut, h c List.mem_cons_self,
      ih fun d hd => h d (List.mem_cons_of_mem c hd)]
    rfl

/-- A text is a part without a separator, or that and a first separator. -/
theorem split_first (p : Char → Bool) (cs : List Char) :
    (∀ c ∈ cs, p c = false) ∨
      ∃ before c after, cs = before ++ c :: after ∧ (∀ d ∈ before, p d = false) ∧ p c = true := by
  induction cs with
  | nil => exact .inl (by simp)
  | cons c cs ih =>
    cases hc : p c with
    | true => exact .inr ⟨[], c, cs, rfl, by simp, hc⟩
    | false =>
      rcases ih with h | ⟨before, d, after, rfl, hbefore, hd⟩
      · left
        intro d hd
        rcases List.mem_cons.mp hd with rfl | hd
        · exact hc
        · exact h d hd
      · refine .inr ⟨c :: before, d, after, rfl, ?_, hd⟩
        intro e he
        rcases List.mem_cons.mp he with rfl | he
        · exact hc
        · exact hbefore e he

theorem cut_first {p : Char → Bool} {before after : List Char} {c : Char}
    (h : ∀ d ∈ before, p d = false) (hc : p c = true) :
    cut p (before ++ c :: after) = (before, some after) := by
  simp [cut_append h, cut, hc]

theorem cut_fst (p : Char → Bool) (cs : List Char) : (cut p cs).1 = cs.takeWhile (!p ·) := by
  induction cs with
  | nil => rfl
  | cons c cs ih =>
    rw [cut, List.takeWhile_cons]
    cases p c with
    | true => rfl
    | false => exact congrArg (c :: ·) ih

theorem cut_sublist (p : Char → Bool) (cs : List Char) : (cut p cs).1.Sublist cs := by
  induction cs with
  | nil => exact List.nil_sublist _
  | cons c cs ih =>
    rw [cut]
    split
    · exact List.nil_sublist _
    · exact ih.cons_cons c

theorem eq_false_of_mem_cut {p : Char → Bool} {cs : List Char} {c : Char}
    (h : c ∈ (cut p cs).1) : p c = false := by
  induction cs with
  | nil => simp [cut] at h
  | cons d cs ih =>
    rw [cut] at h
    split at h
    · simp at h
    · next hd =>
      rcases List.mem_cons.mp h with rfl | h
      · simpa using hd
      · exact ih h

theorem dropWhile_of_forall {p : Char → Bool} {cs : List Char} (h : ∀ c ∈ cs, p c = false) :
    cs.dropWhile p = cs := by
  rw [List.dropWhile_eq_self_iff]
  intro hpos
  simpa using h _ (List.getElem_mem hpos)

/-! ### Pieces -/

theorem pieces_ne_nil (p : Char → Bool) (cs : List Char) : pieces p cs ≠ [] := by
  cases cs with
  | nil => simp [pieces]
  | cons c cs =>
    rw [pieces]
    split
    · simp
    · split <;> simp

theorem pieces_append {p : Char → Bool} {c : Char} (hc : p c = true) (cs ds : List Char) :
    pieces p (cs ++ c :: ds) = pieces p cs ++ pieces p ds := by
  induction cs with
  | nil => simp [pieces, hc]
  | cons d cs ih =>
    rw [List.cons_append, pieces, pieces, ih]
    split
    · rfl
    · obtain ⟨piece, more, h⟩ := List.exists_cons_of_ne_nil (pieces_ne_nil p cs)
      rw [h]
      rfl

theorem pieces_of_forall {p : Char → Bool} {cs : List Char} (h : ∀ c ∈ cs, p c = false) :
    pieces p cs = [cs] := by
  induction cs with
  | nil => rfl
  | cons c cs ih =>
    rw [pieces, h c List.mem_cons_self, ih fun d hd => h d (List.mem_cons_of_mem c hd)]
    rfl

/-- A piece is a part of the text without a separator. -/
theorem of_mem_pieces {p : Char → Bool} {cs piece : List Char} (h : piece ∈ pieces p cs) :
    piece.Sublist cs ∧ ∀ c ∈ piece, p c = false := by
  induction cs generalizing piece with
  | nil =>
    obtain rfl : piece = [] := by simpa [pieces] using h
    simp
  | cons d cs ih =>
    rw [pieces] at h
    split at h
    · rcases List.mem_cons.mp h with rfl | h
      · simp
      · exact (ih h).imp (·.cons d) id
    · next hd =>
      -- the character joins the first piece
      obtain ⟨first, more, hfirst⟩ := List.exists_cons_of_ne_nil (pieces_ne_nil p cs)
      rw [hfirst] at h ih
      rcases List.mem_cons.mp h with rfl | h
      · obtain ⟨hsub, hfree⟩ := ih List.mem_cons_self
        refine ⟨hsub.cons_cons d, fun c hc => ?_⟩
        rcases List.mem_cons.mp hc with rfl | hc
        · simpa using hd
        · exact hfree c hc
      · exact (ih (List.mem_cons_of_mem _ h)).imp (·.cons d) id

/-! ### Dot segments -/

/-- A segment as it stands in a URL. -/
def segment (piece : List Char) : String := String.ofList (percentEncode escapedInPath piece)

theorem segment_ne_empty {piece : List Char} (h : piece ≠ []) : segment piece ≠ "" := by
  obtain ⟨c, rest, rfl⟩ := List.exists_cons_of_ne_nil h
  obtain ⟨b, more, hbytes⟩ : ∃ b more, String.utf8EncodeChar c = b :: more :=
    List.exists_cons_of_ne_nil String.utf8EncodeChar_ne_nil
  rw [segment, percentEncode_cons, hbytes, Ne, String.ofList_eq_empty_iff]
  split <;> simp [escapeByte]

/-- The segments so far, newest first, after a piece that is not the last one. -/
def enter (done : List String) (piece : List Char) : List String :=
  match dots piece with
  | some 1 => done
  | some 2 => done.drop 1
  | _ => segment piece :: done

theorem resolve_cons_cons (done : List String) (p q : List Char) (qs : List (List Char)) :
    resolve done (p :: q :: qs) = resolve (enter done p) (q :: qs) := by
  rw [resolve, enter]
  · split <;> simp_all [segment]
  · simp

theorem resolve_append (done : List String) (ps : List (List Char)) (q : List Char)
    (qs : List (List Char)) :
    resolve done (ps ++ q :: qs) = resolve (ps.foldl enter done) (q :: qs) := by
  induction ps generalizing done with
  | nil => rfl
  | cons p ps ih =>
    obtain ⟨r, rs, hr⟩ : ∃ r rs, ps ++ q :: qs = r :: rs :=
      List.exists_cons_of_ne_nil (by simp)
    rw [List.cons_append, hr, resolve_cons_cons, ← hr, ih, List.foldl_cons]

theorem resolve_last {piece : List Char} (h : dots piece ≠ some 1) (h' : dots piece ≠ some 2)
    (done : List String) : resolve done [piece] = (segment piece :: done).reverse := by
  rw [resolve]
  split
  · next hd => exact absurd hd h
  · next hd => exact absurd hd h'
  · rfl

theorem of_mem_enter {done : List String} {piece : List Char} {x : String}
    (h : x ∈ enter done piece) : x ∈ done ∨ x = segment piece := by
  rw [enter] at h
  split at h
  · exact .inl h
  · exact .inl (List.mem_of_mem_drop h)
  · exact (List.mem_cons.mp h).symm

/-- A resolved segment was there before, is empty, or is that of a piece. -/
theorem of_mem_resolve {done : List String} {ps : List (List Char)} {x : String}
    (h : x ∈ resolve done ps) : x ∈ done ∨ x = "" ∨ ∃ p ∈ ps, x = segment p := by
  induction ps generalizing done with
  | nil => exact .inl (by simpa [resolve] using h)
  | cons p ps ih =>
    cases ps with
    | nil =>
      rw [resolve, List.mem_reverse] at h
      split at h
      · exact (List.mem_cons.mp h).elim (fun h => .inr (.inl h)) .inl
      · exact (List.mem_cons.mp h).elim (fun h => .inr (.inl h))
          fun h => .inl (List.mem_of_mem_drop h)
      · exact (List.mem_cons.mp h).elim (fun h => .inr (.inr ⟨p, by simp, h⟩)) .inl
    | cons q qs =>
      rw [resolve_cons_cons] at h
      rcases ih h with h | h | ⟨r, hr, rfl⟩
      · rcases of_mem_enter h with h | rfl
        · exact .inl h
        · exact .inr (.inr ⟨p, by simp, rfl⟩)
      · exact .inr (.inl h)
      · exact .inr (.inr ⟨r, List.mem_cons_of_mem _ hr, rfl⟩)

theorem resolve_ne_nil (done : List String) {ps : List (List Char)} (h : ps ≠ []) :
    resolve done ps ≠ [] := by
  induction ps generalizing done with
  | nil => exact absurd rfl h
  | cons p ps ih =>
    cases ps with
    | nil =>
      rw [resolve]
      split <;> simp
    | cons q qs =>
      rw [resolve_cons_cons]
      exact ih _ (by simp)

theorem slash_not_mem_segment {piece : List Char} (h : '/' ∉ piece) :
    '/' ∉ (segment piece).toList := by
  rw [segment, String.toList_ofList, percentEncode, List.mem_flatMap]
  rintro ⟨c, hc, hmem⟩
  split at hmem
  · rw [List.mem_singleton] at hmem
    exact h (hmem ▸ hc)
  · obtain ⟨b, -, hmem⟩ := List.mem_flatMap.mp hmem
    have hdigit : ∀ n < 16, upperHex n ≠ '/' := by decide
    have hb : b.toNat < 256 := b.toNat_lt
    rcases List.mem_cons.mp hmem with hmem | hmem
    · exact absurd hmem (by decide)
    rcases List.mem_pair.mp hmem with hmem | hmem
    · exact hdigit _ (by omega) hmem.symm
    · exact hdigit _ (by omega) hmem.symm

/-! ### Cleaning -/

/-- A path without the characters at its end and in it that do not count. -/
def tidy (cs : List Char) : List Char :=
  (cs.reverse.dropWhile isControlOrSpace).reverse.filter (!isTabOrLineEnd ·)

/-- Nothing at the front of a slash and what follows it is dropped. -/
theorem dropWhile_append_slash {p : Char → Bool} {c : Char} (hc : p c = false)
    (cs ds : List Char) : (cs ++ c :: ds).dropWhile p = cs.dropWhile p ++ c :: ds := by
  rw [List.dropWhile_append]
  split
  · next h =>
    rw [List.isEmpty_iff.mp h, List.nil_append, List.dropWhile_cons_of_neg (by simp [hc])]
  · rfl

theorem takeWhile_append_slash {p : Char → Bool} {c : Char} (hc : p c = false)
    (cs ds : List Char) : (cs ++ c :: ds).takeWhile p = cs.takeWhile p := by
  induction cs with
  | nil => rw [List.nil_append, List.takeWhile_cons_of_neg (by simp [hc]), List.takeWhile_nil]
  | cons d cs ih => rw [List.cons_append, List.takeWhile_cons, List.takeWhile_cons, ih]

theorem isTabOrLineEnd_of_not_control {c : Char} (hc : isControlOrSpace c = false) :
    isTabOrLineEnd c = false := by
  by_contra hn
  simp only [isTabOrLineEnd, Bool.not_eq_false, Bool.or_eq_true, beq_iff_eq] at hn
  obtain (rfl | rfl) | rfl := hn <;> exact absurd hc (by decide)

theorem tidy_append {c : Char} (hc : isControlOrSpace c = false) (cs ds : List Char) :
    tidy (cs ++ c :: ds) = cs.filter (!isTabOrLineEnd ·) ++ c :: tidy ds := by
  have hreverse : (cs ++ c :: ds).reverse = ds.reverse ++ c :: cs.reverse := by simp
  rw [tidy, hreverse, dropWhile_append_slash hc]
  simp [tidy, isTabOrLineEnd_of_not_control hc]

theorem tidy_append_slash (cs ds : List Char) :
    tidy (cs ++ '/' :: ds) = cs.filter (!isTabOrLineEnd ·) ++ '/' :: tidy ds :=
  tidy_append (by decide) cs ds

theorem clean_append_slash (b ds : List Char) :
    clean (String.ofList (b ++ '/' :: ds))
      = (b.dropWhile isControlOrSpace).filter (!isTabOrLineEnd ·) ++ '/' :: tidy ds := by
  rw [clean, String.toList_ofList, dropWhile_append_slash (by decide)]
  exact tidy_append_slash _ _

theorem tidy_sublist (cs : List Char) : (tidy cs).Sublist cs := by
  refine List.filter_sublist.trans ?_
  rw [← List.reverse_sublist, List.reverse_reverse]
  exact List.dropWhile_sublist _

/-- A text is its own tidy form when nothing in it and at its end would be dropped. -/
theorem tidy_eq_self_iff {cs : List Char} :
    tidy cs = cs ↔ (∀ c ∈ cs, isTabOrLineEnd c = false) ∧
      ∀ c ∈ cs.getLast?, isControlOrSpace c = false := by
  constructor
  · intro h
    refine ⟨fun c hc => ?_, fun c hc => ?_⟩
    · rw [← h, tidy] at hc
      simpa using List.of_mem_filter hc
    · have hdrop : cs.reverse.dropWhile isControlOrSpace = cs.reverse := by
        refine (List.dropWhile_sublist _).eq_of_length_le ?_
        have hle := (List.filter_sublist (p := (!isTabOrLineEnd ·))
          (l := (cs.reverse.dropWhile isControlOrSpace).reverse)).length_le
        rw [← tidy, h, List.length_reverse] at hle
        simpa using hle
      have hnot := List.head?_dropWhile_not isControlOrSpace cs.reverse
      rw [hdrop, List.head?_reverse, Option.mem_def.mp hc] at hnot
      simpa using hnot
  · rintro ⟨h, hlast⟩
    have hdrop : cs.reverse.dropWhile isControlOrSpace = cs.reverse := by
      cases hr : cs.reverse with
      | nil => rfl
      | cons c rest =>
        have hc : cs.getLast? = some c := by rw [← List.head?_reverse, hr, List.head?_cons]
        rw [List.dropWhile_cons_of_neg (by simp [hlast c hc])]
    rw [tidy, hdrop, List.reverse_reverse, List.filter_eq_self]
    intro c hc
    rw [h c hc]
    rfl

/-- What is left of a path when blanks, fragment and query have been taken away. -/
def pathPart (cs : List Char) : List Char :=
  (cut (· == '?') (cut (· == '#') (tidy cs)).1).1

theorem pathPart_sublist (cs : List Char) : (pathPart cs).Sublist cs :=
  (cut_sublist _ _).trans ((cut_sublist _ _).trans (tidy_sublist cs))

theorem pathPart_eq_takeWhile (cs : List Char) :
    pathPart cs = (tidy cs).takeWhile fun c => c != '?' && c != '#' := by
  rw [pathPart, cut_fst, cut_fst, List.takeWhile_takeWhile]
  congr 1
  funext c
  rw [Bool.eq_iff_iff]
  simp

/-- No fragment and no query begin in a text. -/
def Unmarked (cs : List Char) : Prop := ∀ c ∈ cs, c ≠ '#' ∧ c ≠ '?'

theorem Unmarked.append_slash {cs ds : List Char} (h : Unmarked cs) (h' : Unmarked ds) :
    Unmarked (cs ++ '/' :: ds) := by
  intro c hc
  rcases List.mem_append.mp hc with hc | hc
  · exact h c hc
  · rcases List.mem_cons.mp hc with rfl | hc
    · decide
    · exact h' c hc

/-- What stands in front of a slash stays there when no fragment and no query begin in it. -/
theorem pathPart_append_slash {cs : List Char} (h : Unmarked cs) (ds : List Char) :
    pathPart (cs ++ '/' :: ds) = cs.filter (!isTabOrLineEnd ·) ++ '/' :: pathPart ds := by
  rw [pathPart_eq_takeWhile, pathPart_eq_takeWhile, tidy_append_slash,
    List.takeWhile_append_of_pos]
  · rfl
  · intro c hc
    obtain ⟨hfragment, hquery⟩ := h c (List.mem_of_mem_filter hc)
    simp [hfragment, hquery]

/-- Nothing stays of what begins a fragment or a query. -/
theorem pathPart_append_mark {c : Char} (hc : c = '#' ∨ c = '?') (cs ds : List Char) :
    (pathPart (cs ++ c :: ds)).Sublist cs := by
  have hcontrol : isControlOrSpace c = false := by rcases hc with rfl | rfl <;> decide
  rw [pathPart_eq_takeWhile, tidy_append hcontrol, takeWhile_append_slash]
  · exact (List.takeWhile_sublist _).trans List.filter_sublist
  · rcases hc with rfl | rfl <;> decide

/-- Nothing of a path is taken away when it has no place for that. -/
theorem pathPart_eq_self_iff {cs : List Char} :
    pathPart cs = cs ↔ (∀ c ∈ cs, isTabOrLineEnd c = false ∧ c ≠ '#' ∧ c ≠ '?') ∧
      ∀ c ∈ cs.getLast?, isControlOrSpace c = false := by
  constructor
  · intro h
    -- each stage takes a part, so that none of them took anything
    have hfragment : (pathPart cs).Sublist (cut (· == '#') (tidy cs)).1 := cut_sublist _ _
    have htidy : tidy cs = cs := by
      refine (tidy_sublist cs).eq_of_length_le ?_
      have hle := (hfragment.trans (cut_sublist _ _)).length_le
      rwa [h] at hle
    obtain ⟨hplain, hlast⟩ := tidy_eq_self_iff.mp htidy
    refine ⟨fun c hc => ⟨hplain c hc, ?_, ?_⟩, hlast⟩
    · rw [h] at hfragment
      simpa using eq_false_of_mem_cut (hfragment.subset hc)
    · rw [← h, pathPart] at hc
      simpa using eq_false_of_mem_cut hc
  · rintro ⟨hplain, hlast⟩
    rw [pathPart, tidy_eq_self_iff.mpr ⟨fun c hc => (hplain c hc).1, hlast⟩,
      cut_of_forall fun c hc => beq_eq_false_iff_ne.mpr (hplain c hc).2.1,
      cut_of_forall fun c hc => beq_eq_false_iff_ne.mpr (hplain c hc).2.2]

/-! ### Paths -/

/-- The segments of a path behind a slash, when something stands in front of it. -/
theorem segmentsOf_append_slash {front : List Char} (h : ∀ c ∈ front.head?, isSlash c = true) :
    ∃ ps, ∀ path, segmentsOf (front ++ '/' :: path) = resolve [] (ps ++ pieces isSlash path) := by
  cases front with
  | nil => exact ⟨[], fun path => rfl⟩
  | cons c front =>
    have hc : isSlash c = true := h c rfl
    refine ⟨pieces isSlash front, fun path => ?_⟩
    rw [List.cons_append, segmentsOf, if_pos hc, pieces_append (by decide)]

/-! ### Whole texts -/

/-- A base as far as the reader takes it apart: a scheme, and what stands between the slashes behind
it and the path. -/
structure Base (b : List Char) where
  scheme : List Char
  rest : List Char
  /-- The host, with what may stand behind it. -/
  front : List Char
  cleaned : (b.dropWhile isControlOrSpace).filter (!isTabOrLineEnd ·) = scheme ++ ':' :: rest
  colon : ∀ c ∈ scheme, (c == ':') = false
  slashes : rest.dropWhile isSlash = front
  nonempty : front ≠ []
  fragment : ∀ c ∈ front, (c == '#') = false
  query : ∀ c ∈ front, (c == '?') = false

namespace Base

variable {b : List Char}

theorem schemeOf?_append_slash (base : Base b) (ds : List Char) :
    schemeOf? (clean (String.ofList (b ++ '/' :: ds)))
      = let scheme := String.ofList (base.scheme.map Char.toLower)
        if scheme == "http" || scheme == "https" then
          some (scheme, base.front ++ '/' :: tidy ds)
        else none := by
  have hslashes : (base.rest ++ '/' :: tidy ds).dropWhile isSlash
      = base.front ++ '/' :: tidy ds := by
    rw [List.dropWhile_append, base.slashes, if_neg]
    simpa using base.nonempty
  rw [clean_append_slash, base.cleaned, List.append_assoc, List.cons_append, schemeOf?,
    cut_first base.colon (by decide)]
  simp only [hslashes]

/-- The URL of a path below the base. -/
theorem parse?_append_slash (base : Base b) (ds : List Char) :
    parse? (String.ofList (b ++ '/' :: ds))
      = let scheme := String.ofList (base.scheme.map Char.toLower)
        if scheme == "http" || scheme == "https" then
          (authorityOf? scheme (base.front.takeWhile (!isSlash ·))).map fun authority =>
            { scheme, authority
              segments := segmentsOf (base.front.dropWhile (!isSlash ·) ++ '/' :: pathPart ds)
              query := (cut (· == '?') (cut (· == '#') (tidy ds)).1).2.map
                fun q => String.ofList (percentEncode escapedInQuery q) }
        else none := by
  have hfragment : cut (· == '#') (base.front ++ '/' :: tidy ds)
      = (base.front ++ '/' :: (cut (· == '#') (tidy ds)).1, (cut (· == '#') (tidy ds)).2) := by
    rw [cut_append base.fragment]
    rfl
  have hquery : ∀ es, cut (· == '?') (base.front ++ '/' :: es)
      = (base.front ++ '/' :: (cut (· == '?') es).1, (cut (· == '?') es).2) := by
    intro es
    rw [cut_append base.query]
    rfl
  have hauthority : ∀ es, (base.front ++ '/' :: es).takeWhile (!isSlash ·)
      = base.front.takeWhile (!isSlash ·) :=
    takeWhile_append_slash (by decide) base.front
  have hpath : ∀ es, (base.front ++ '/' :: es).dropWhile (!isSlash ·)
      = base.front.dropWhile (!isSlash ·) ++ '/' :: es :=
    dropWhile_append_slash (by decide) base.front
  rw [parse?, base.schemeOf?_append_slash]
  dsimp only
  split
  · simp only [Option.bind_eq_bind, Option.bind_some, hfragment, hquery, hauthority, hpath]
    cases authorityOf? _ _ <;> rfl
  · rfl

end Base

/-! ### Words -/

/-- A character that means nothing to the reader. -/
def isPlain (c : Char) : Bool :=
  !(isControlOrSpace c || isSlash c || c == ':' || c == '#' || c == '?')

/-- A segment that is written as it stands. -/
structure Word (d : List Char) : Prop where
  nonempty : d ≠ []
  plain : ∀ c ∈ d, isPlain c = true

namespace Word

variable {d : List Char}

theorem facts (h : Word d) {c : Char} (hc : c ∈ d) :
    isControlOrSpace c = false ∧ isSlash c = false ∧ (c == ':') = false ∧ (c == '#') = false ∧
      (c == '?') = false := by
  simpa [isPlain, and_assoc] using h.plain c hc

theorem isTabOrLineEnd_eq_false (h : Word d) {c : Char} (hc : c ∈ d) :
    isTabOrLineEnd c = false :=
  isTabOrLineEnd_of_not_control (h.facts hc).1

theorem tidy_eq (h : Word d) : tidy d = d :=
  tidy_eq_self_iff.mpr ⟨fun _ hc => h.isTabOrLineEnd_eq_false hc,
    fun _ hc => (h.facts (List.mem_of_getLast? hc)).1⟩

theorem pathPart_eq (h : Word d) : pathPart d = d := by
  rw [pathPart, h.tidy_eq, cut_of_forall fun c hc => (h.facts hc).2.2.2.1,
    cut_of_forall fun c hc => (h.facts hc).2.2.2.2]

/-- A word in front of a slash stays in front of what is left of the path. -/
theorem pathPart_append_slash (h : Word d) (ds : List Char) :
    pathPart (d ++ '/' :: ds) = d ++ '/' :: pathPart ds := by
  have hfilter : d.filter (!isTabOrLineEnd ·) = d :=
    List.filter_eq_self.mpr fun c hc => by rw [h.isTabOrLineEnd_eq_false hc]; rfl
  rw [Url.pathPart_append_slash, hfilter]
  intro c hc
  obtain ⟨-, -, -, hfragment, hquery⟩ := h.facts hc
  exact ⟨by simpa using hfragment, by simpa using hquery⟩

theorem pieces_eq (h : Word d) : pieces isSlash d = [d] :=
  pieces_of_forall fun _ hc => (h.facts hc).2.1

end Word

/-- The path and the query of a URL are those behind its scheme, as far as a number sign. -/
theorem parse?_eq_some {s : String} {u : Url} (h : parse? s = some u) :
    ∃ scheme rest, schemeOf? (clean s) = some (scheme, rest) ∧
      u.segments
        = segmentsOf ((cut (· == '?') (cut (· == '#') rest).1).1.dropWhile (!isSlash ·)) ∧
      u.query = (cut (· == '?') (cut (· == '#') rest).1).2.map
        fun q => String.ofList (percentEncode escapedInQuery q) := by
  rw [parse?] at h
  obtain ⟨⟨scheme, rest⟩, hscheme, h⟩ := Option.bind_eq_some_iff.mp h
  obtain ⟨authority, -, h⟩ := Option.bind_eq_some_iff.mp h
  obtain rfl := Option.some_inj.mp h
  exact ⟨scheme, rest, hscheme, rfl, rfl⟩

/-- A base whose URLs can be read, where a word stands below it and is not taken for a host. -/
theorem Base.exists_of_parse? {b d : List Char} (hb : '#' ∉ b) (hd : Word d) {u : Url}
    (hu : parse? (String.ofList (b ++ '/' :: d)) = some u) (hquery : u.query = none)
    (hsegments : u.segments ≠ [""]) : Nonempty (Base b) := by
  obtain ⟨name, behind, hscheme, husegments, huquery⟩ := parse?_eq_some hu
  rw [clean_append_slash, hd.tidy_eq] at hscheme
  rcases split_first (· == ':') ((b.dropWhile isControlOrSpace).filter (!isTabOrLineEnd ·))
    with hnone | ⟨scheme, c, rest, hB, hcolon, hc⟩
  · -- without a colon there is no scheme
    rw [schemeOf?, cut_append hnone, cut, cut_of_forall fun c hc => (hd.facts hc).2.2.1] at hscheme
    exact absurd hscheme nofun
  obtain rfl : c = ':' := by simpa using hc
  have hbehind : behind = (rest ++ '/' :: d).dropWhile isSlash := by
    rw [hB, List.append_assoc, List.cons_append, schemeOf?, cut_first hcolon (by decide)] at hscheme
    dsimp only at hscheme
    split at hscheme
    · simp only [Option.some.injEq, Prod.mk.injEq] at hscheme
      exact hscheme.2.symm
    · exact absurd hscheme nofun
  by_cases hfront : rest.dropWhile isSlash = []
  · -- without a host the word is taken for one, and there is no path
    have hword : behind = d := by
      rw [hbehind, List.dropWhile_append, hfront, List.isEmpty_nil, if_pos rfl,
        List.dropWhile_cons_of_pos (by decide), dropWhile_of_forall fun c hc => (hd.facts hc).2.1]
    rw [hword, cut_of_forall fun c hc => (hd.facts hc).2.2.2.1,
      cut_of_forall fun c hc => (hd.facts hc).2.2.2.2, List.dropWhile_eq_nil_iff.mpr] at husegments
    · exact absurd husegments hsegments
    · intro c hc
      rw [(hd.facts hc).2.1]
      rfl
  have hfragment : ∀ c ∈ rest.dropWhile isSlash, (c == '#') = false := by
    intro c hc
    rw [beq_eq_false_iff_ne]
    rintro rfl
    have hmem : '#' ∈ (b.dropWhile isControlOrSpace).filter (!isTabOrLineEnd ·) := by
      rw [hB]
      exact List.mem_append_right _
        (List.mem_cons_of_mem _ ((List.dropWhile_sublist _).subset hc))
    exact hb ((List.dropWhile_sublist _).subset (List.mem_of_mem_filter hmem))
  refine ⟨⟨scheme, rest, _, hB, hcolon, rfl, hfront, hfragment, ?_⟩⟩
  -- a question mark in front of the word would begin a query
  rcases split_first (· == '?') (rest.dropWhile isSlash) with hnone | ⟨before, c, after, h, hm, hc⟩
  · exact hnone
  · rw [hbehind, List.dropWhile_append, if_neg (by simpa using hfront), cut_append hfragment, h,
      List.append_assoc, List.cons_append, cut_first hm hc, hquery] at huquery
    exact absurd huquery nofun

/-- **Paths below the root.**  Where a word below a base is read as the whole path, every path below
the base is read as if nothing stood in front of it. -/
theorem parse?_under {b d : List Char} (hb : '#' ∉ b) (hd : Word d)
    (hdots : dots d ≠ some 1 ∧ dots d ≠ some 2) {u : Url}
    (hu : parse? (String.ofList (b ++ '/' :: d)) = some u) (hquery : u.query = none)
    (hsegments : u.segments = [segment d]) (path : List Char) :
    ∃ u', parse? (String.ofList (b ++ '/' :: path)) = some u' ∧
      u'.segments = resolve [] (pieces isSlash (pathPart path)) := by
  obtain ⟨base⟩ := Base.exists_of_parse? hb hd hu hquery
    (by simpa [hsegments] using segment_ne_empty hd.nonempty)
  have hhead : ∀ c ∈ (base.front.dropWhile (!isSlash ·)).head?, isSlash c = true := by
    intro c hc
    have hnot := List.head?_dropWhile_not (!isSlash ·) base.front
    rw [Option.mem_def.mp hc] at hnot
    simpa using hnot
  obtain ⟨ps, hps⟩ := segmentsOf_append_slash hhead
  rw [base.parse?_append_slash] at hu ⊢
  dsimp only at hu ⊢
  split at hu
  · next hscheme =>
    rw [if_pos hscheme]
    obtain ⟨authority, hauthority, rfl⟩ := Option.map_eq_some_iff.mp hu
    rw [hauthority]
    refine ⟨_, rfl, ?_⟩
    -- the pieces in front of the word leave nothing
    have hempty : ps.foldl enter [] = [] := by
      simp only [hps, hd.pathPart_eq, hd.pieces_eq, resolve_append,
        resolve_last hdots.1 hdots.2] at hsegments
      simpa using hsegments
    obtain ⟨q, qs, hq⟩ := List.exists_cons_of_ne_nil (pieces_ne_nil isSlash (pathPart path))
    simp only [hps, hq, resolve_append, hempty]
  · exact absurd hu nofun

end Rollout.Http.Url
