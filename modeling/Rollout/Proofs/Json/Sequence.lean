/-
Documents one after another, each with a line end behind it.

A document may have blanks around it, line ends among them, so that a line end alone does not say
where a document is over.

* `IsDocument`, `SplitsInto`: bytes that are one document, and bytes cut into documents;
* `Tree.Document.blank_of_append`: only blanks make a document longer and leave it a document;
* `splitsInto_iff`: objects that are written one after another are cut apart in one way only.

An object begins and ends with a brace, which no blank is.  So neither can a piece reach into the
next object, nor can it be over before its own object is.
-/
import Rollout.Proofs.Json.Pretty

namespace Rollout.Json

/-- The bytes are a document. -/
def IsDocument (bs : Bytes) : Prop :=
  ∃ t : Tree, t.Document (Utf8.scan bs)

/-- The bytes are these documents, each with a line end behind it. -/
def SplitsInto (bs : Bytes) (pieces : List Bytes) : Prop :=
  (∀ piece ∈ pieces, IsDocument piece) ∧ bs = pieces.flatMap (· ++ [0x0A])

/-! ### Longer documents -/

/-- Only blanks make a document longer and leave it a document. -/
theorem Tree.Document.blank_of_append {t t' : Tree} {s rest : List Symbol} (h : t.Document s)
    (hrest : Delimited rest) (h' : t'.Document (s ++ rest)) : Blank rest := by
  obtain ⟨b, w, c, rfl, hb, hw, hc⟩ := h
  obtain ⟨v, hv, hlex⟩ := lex_of_written hw (delimited_blank hc hrest)
  -- the reader completes the shorter document before it looks at what follows
  have hread : Document.read (b ++ (w ++ c) ++ rest) = ⟨v, !(lex rest).isEmpty⟩ := by
    rw [Document.read, List.append_assoc, List.append_assoc, lex_blank hb, hlex, lex_blank hc,
      Document.build_tokens v hv, Document.complete]
  have hsays := Document.read_says_iff.mpr h'
  rw [hread] at hsays
  exact blank_of_lex_nil (by simpa using hsays.1)

/-- What stands behind a line end that a longer document goes over is blank. -/
theorem IsDocument.blank_of_newline {bs rest : Bytes} (h : IsDocument bs)
    (h' : IsDocument (bs ++ 0x0A :: rest)) : Blank (Utf8.scan rest) := by
  obtain ⟨t, ht⟩ := h
  obtain ⟨t', ht'⟩ := h'
  rw [Utf8.scan_append_ascii (by decide)] at ht'
  have hnewline : Delimited (some (Char.ofNat (0x0A : UInt8).toNat) :: Utf8.scan rest) :=
    show _ ∧ _ from ⟨by decide, by decide, by decide, by decide⟩
  exact fun x hx => ht.blank_of_append hnewline ht' x (List.mem_cons_of_mem _ hx)

/-! ### Objects -/

/-- The bytes begin and end with the braces of an object. -/
def Braced (bs : Bytes) : Prop :=
  bs.head? = some 0x7B ∧ bs.getLast? = some 0x7D

theorem braced_pretty (fields : List (String × Value)) :
    Braced (Utf8.encode (Value.object fields).pretty) := by
  have hopen : String.utf8EncodeChar '\x7b' = [0x7B] := by decide
  have hclose : String.utf8EncodeChar '\x7d' = [0x7D] := by decide
  cases fields <;>
    simp [Braced, Utf8.encode, Value.pretty, Value.prettyChars, hopen, hclose,
      List.getLast?_cons, List.getLast?_append]

theorem isDocument_pretty (v : Value) : IsDocument (Utf8.encode v.pretty) := by
  obtain ⟨t, ht⟩ := exists_tree_ofValue v
  have hread := Document.ofText_pretty v
  rw [Document.ofText, symbols, ← Utf8.scan_encode] at hread
  refine ⟨t, Document.read_says_iff.mp ?_⟩
  rw [hread]
  exact ⟨rfl, ht⟩

theorem not_blank_of_mem {b : UInt8} {bs : Bytes} (hb : b = 0x7B ∨ b = 0x7D) (h : b ∈ bs) :
    ¬ Blank (Utf8.scan bs) := by
  obtain ⟨s, t, rfl⟩ := List.append_of_mem h
  intro hblank
  have hmem := hblank (some (Char.ofNat b.toNat))
    (by rw [Utf8.scan_append_ascii (by rcases hb with rfl | rfl <;> decide)]; simp)
  rcases hb with rfl | rfl <;> exact absurd hmem (by decide)

/-- What an object has behind a line end is not blank. -/
theorem Braced.not_blank_behind {bs rest : Bytes} (h : Braced (bs ++ 0x0A :: rest)) :
    ¬ Blank (Utf8.scan rest) := by
  have hlast : (rest.getLast?).getD 0x0A = 0x7D := by
    simpa [List.getLast?_append, List.getLast?_cons] using h.2
  cases hrest : rest.getLast? with
  | none => simp [hrest] at hlast
  | some b =>
    rw [hrest] at hlast
    exact not_blank_of_mem (.inr hlast) (List.mem_of_getLast? hrest)

/-- What stands before the first line end behind objects is not blank. -/
theorem not_blank_before {docs : List Bytes} (hdocs : ∀ d ∈ docs, Braced d) {bs rest : Bytes}
    (h : docs.flatMap (· ++ [0x0A]) = bs ++ 0x0A :: rest) : ¬ Blank (Utf8.scan bs) := by
  have hhead : (docs.flatMap (· ++ [0x0A])).head? = some 0x7B := by
    cases docs with
    | nil => simp at h
    | cons d docs => simp [(hdocs d List.mem_cons_self).1]
  rw [h] at hhead
  cases bs with
  | nil => simp at hhead
  | cons b bs => exact not_blank_of_mem (.inl (by simpa using hhead)) List.mem_cons_self

/-- **Unique splitting**: objects that are written one after another, each with a line end behind
it, are cut into documents in this way only. -/
theorem splitsInto_iff {docs : List Bytes} (hdocs : ∀ d ∈ docs, IsDocument d ∧ Braced d)
    {pieces : List Bytes} :
    SplitsInto (docs.flatMap (· ++ [0x0A])) pieces ↔ pieces = docs := by
  constructor
  · rintro ⟨hpieces, hbytes⟩
    induction docs generalizing pieces with
    | nil =>
      cases pieces with
      | nil => rfl
      | cons piece pieces => simp at hbytes
    | cons d docs ih =>
      obtain ⟨⟨hd, hbraced⟩, hmore⟩ := List.forall_mem_cons.mp hdocs
      cases pieces with
      | nil => simp at hbytes
      | cons piece pieces =>
        obtain ⟨hpiece, hrest⟩ := List.forall_mem_cons.mp hpieces
        simp only [List.flatMap_cons, List.append_assoc, List.cons_append,
          List.nil_append] at hbytes
        -- the first piece and the first object begin together: they end together, or one goes over
        -- the line end of the other
        obtain ⟨m, hm, hbytes⟩ | ⟨m, hm, hbytes⟩ := List.append_eq_append_iff.mp hbytes
        · cases m with
          | nil =>
            rw [hm, List.append_nil, ih hmore hrest (List.cons.inj hbytes).2]
          | cons b m =>
            obtain ⟨rfl, hover⟩ := List.cons.inj hbytes
            exact absurd (hd.blank_of_newline (hm ▸ hpiece))
              (not_blank_before (fun d h => (hmore d h).2) hover)
        · cases m with
          | nil =>
            rw [hm, List.append_nil, ih hmore hrest (List.cons.inj hbytes).2.symm]
          | cons b m =>
            obtain ⟨rfl, -⟩ := List.cons.inj hbytes
            exact absurd (hpiece.blank_of_newline (hm ▸ hd))
              (Braced.not_blank_behind (hm ▸ hbraced))
  · rintro rfl
    exact ⟨fun piece h => (hdocs piece h).1, rfl⟩

end Rollout.Json
