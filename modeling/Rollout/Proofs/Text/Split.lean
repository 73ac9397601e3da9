/-
Splitting a text at a character.

`splitOn` walks over the text by byte positions.  `splitOnAux_singleton` follows the walk with the
characters before it (`l`), those of the piece under way (`m`) and those ahead (`r`), after which it
is the splitting of the list of characters.
-/
import Mathlib.Data.List.Induction
import Mathlib.Data.String.Basic

namespace Rollout.Text

open String (splitOnAux utf8Len utf8Len_append)
open String.Pos (Raw)
open List (splitOnPPrepend splitOnPPrepend_cons_eq_if)

/-- A separator of one character is read to its end by one step. -/
theorem read_singleton (d : Char) :
    Raw.get (.singleton d) 0 = d ∧ Raw.next (.singleton d) 0 = ⟨d.utf8Size⟩ ∧
      Raw.atEnd (.singleton d) ⟨d.utf8Size⟩ = true := by
  have hd : String.singleton d = .ofList ([] ++ [d]) := by simp
  have hget := String.get_of_valid [] [d]
  have hnext := String.next_of_valid [] d []
  have hend := (String.atEnd_of_valid [d] []).mpr rfl
  rw [hd]
  refine ⟨by simpa using hget, by simpa using hnext, by simpa using hend⟩

theorem splitOnAux_singleton (d : Char) (l m r : List Char) (acc : List String) :
    splitOnAux (.ofList (l ++ m ++ r)) (.singleton d) ⟨utf8Len l⟩ ⟨utf8Len l + utf8Len m⟩ 0 acc
      = acc.reverse ++ (splitOnPPrepend (· == d) r m.reverse).map .ofList := by
  induction r generalizing l m acc with
  | nil =>
    have hend : Raw.atEnd (.ofList (l ++ m ++ [])) ⟨utf8Len l + utf8Len m⟩ = true := by
      rw [← utf8Len_append, String.atEnd_of_valid]
    rw [splitOnAux, hend, if_pos rfl, String.extract_of_valid]
    simp
  | cons c r ih =>
    have hend : Raw.atEnd (.ofList (l ++ m ++ c :: r)) ⟨utf8Len l + utf8Len m⟩ = false := by
      rw [← utf8Len_append, Bool.eq_false_iff, Ne, String.atEnd_of_valid]
      simp
    have hget := String.get_of_valid (l ++ m) (c :: r)
    have hnext := String.next_of_valid (l ++ m) c r
    rw [utf8Len_append] at hget hnext
    have hstay : (⟨utf8Len l + utf8Len m⟩ : Raw).unoffsetBy 0 = ⟨utf8Len l + utf8Len m⟩ := rfl
    obtain ⟨hfirst, hsecond, hlast⟩ := read_singleton d
    rw [splitOnAux, hend, if_neg Bool.false_ne_true, hget, hfirst, hsecond, hstay, hnext,
      splitOnPPrepend_cons_eq_if]
    by_cases hc : c = d
    · subst hc
      have hback : (⟨utf8Len l + utf8Len m + c.utf8Size⟩ : Raw).unoffsetBy ⟨c.utf8Size⟩
          = ⟨utf8Len l + utf8Len m⟩ := by
        simp [Raw.unoffsetBy]
      have hextract := String.extract_of_valid l m (c :: r)
      simp only [List.headD_cons, beq_self_eq_true, if_true, hlast, hback, hextract]
      rw [List.splitOnP_eq_splitOnPPrepend]
      simpa [Nat.add_assoc] using ih (l ++ m ++ [c]) [] (.ofList m :: acc)
    · simpa [hc, Nat.add_assoc] using ih l (m ++ [c]) acc

theorem splitOn_singleton (d : Char) (s : String) :
    s.splitOn (.singleton d) = (s.toList.splitOn d).map .ofList := by
  have hne : (String.singleton d == "") = false := by simp
  rw [String.splitOn, hne, if_neg Bool.false_ne_true, List.splitOn,
    List.splitOnP_eq_splitOnPPrepend]
  simpa using splitOnAux_singleton d [] [] s.toList []

theorem splitOn_slash (s : String) : s.splitOn "/" = (s.toList.splitOn '/').map .ofList :=
  splitOn_singleton '/' s

theorem splitOn_dot (s : String) : s.splitOn "." = (s.toList.splitOn '.').map .ofList :=
  splitOn_singleton '.' s

theorem notMem_of_mem_splitOn {α : Type} [DecidableEq α] {d : α} {l piece : List α}
    (h : piece ∈ l.splitOn d) : d ∉ piece := by
  induction l generalizing piece with
  | nil =>
    rw [List.splitOn_nil] at h
    rw [List.mem_singleton.mp h]
    exact List.not_mem_nil
  | cons x l ih =>
    rw [List.splitOn_cons_eq_if_modifyHead] at h
    obtain ⟨first, rest, hl⟩ := List.exists_cons_of_ne_nil (List.splitOn_ne_nil d l)
    rw [hl] at h ih
    split at h
    · rcases List.mem_cons.mp h with rfl | h
      · exact List.not_mem_nil
      · exact ih h
    · rename_i hx
      rcases List.mem_cons.mp h with rfl | h
      · have hne : d ≠ x := fun hdx => hx (by simp [hdx])
        exact fun hd => (List.mem_cons.mp hd).elim hne (ih List.mem_cons_self)
      · exact ih (List.mem_cons_of_mem _ h)

/-- What follows a list without a separator in it is part of the last piece. -/
theorem exists_splitOn_append {α : Type} [DecidableEq α] (d : α) (l : List α) :
    ∃ pieces last, ∀ m, d ∉ m → (l ++ m).splitOn d = pieces ++ [last ++ m] := by
  induction l using List.reverseRec with
  | nil => exact ⟨[], [], fun m hm => List.splitOn_eq_singleton hm⟩
  | append_singleton l x ih =>
    by_cases hx : x = d
    · subst hx
      refine ⟨l.splitOn x, [], fun m hm => ?_⟩
      rw [List.append_assoc, List.singleton_append, List.splitOn_append_cons_self,
        List.splitOn_eq_singleton hm, List.nil_append]
    · -- the item belongs to what follows
      obtain ⟨pieces, last, h⟩ := ih
      refine ⟨pieces, last ++ [x], fun m hm => ?_⟩
      rw [List.append_assoc, List.append_assoc, List.singleton_append]
      exact h (x :: m) fun hd => (List.mem_cons.mp hd).elim (Ne.symm hx) hm

theorem exists_splitOn_slash_append (s : String) : ∃ pieces last, ∀ t : String, '/' ∉ t.toList →
    (s ++ t).splitOn "/" = pieces ++ [last ++ t] := by
  obtain ⟨pieces, last, h⟩ := exists_splitOn_append '/' s.toList
  refine ⟨pieces.map .ofList, .ofList last, fun t ht => ?_⟩
  rw [splitOn_slash, String.toList_append, h t.toList ht, List.map_append, List.map_singleton,
    String.ofList_append, String.ofList_toList]

theorem splitOn_slash_append (s t : String) :
    (s ++ "/" ++ t).splitOn "/" = s.splitOn "/" ++ t.splitOn "/" := by
  have hchars : (s ++ "/" ++ t).toList = s.toList ++ '/' :: t.toList := by simp
  rw [splitOn_slash, splitOn_slash, splitOn_slash, hchars, List.splitOn_append_cons_self,
    List.map_append]

theorem endsWith_slash_iff (s : String) : s.endsWith "/" = true ↔ ['/'] <:+ s.toList := by
  show s.toSlice.endsWith "/" = true ↔ _
  rw [String.Slice.endsWith_string_iff, String.copy_toSlice]
  rfl

/-- No piece between slashes has a slash. -/
theorem slash_notMem_of_mem_splitOn {s piece : String} (h : piece ∈ s.splitOn "/") :
    '/' ∉ piece.toList := by
  rw [splitOn_slash] at h
  obtain ⟨chars, hchars, rfl⟩ := List.mem_map.mp h
  simpa using notMem_of_mem_splitOn hchars

/-- Pieces without a character that are put together with it are found again. -/
theorem splitOn_intercalate (d : Char) {segments : List String} (hne : segments ≠ [])
    (h : ∀ t ∈ segments, d ∉ t.toList) :
    ((String.singleton d).intercalate segments).splitOn (.singleton d) = segments := by
  have hlist : ∀ cs ∈ segments.map String.toList, d ∉ cs := by
    intro cs hcs
    obtain ⟨t, ht, rfl⟩ := List.mem_map.mp hcs
    exact h t ht
  rw [splitOn_singleton, String.toList_intercalate, String.toList_singleton,
    List.splitOn_intercalate d hlist (by simpa using hne), List.map_map]
  simp

theorem splitOn_intercalate_slash {segments : List String} (hne : segments ≠ [])
    (h : ∀ t ∈ segments, '/' ∉ t.toList) : ("/".intercalate segments).splitOn "/" = segments :=
  splitOn_intercalate '/' hne h

theorem splitOn_intercalate_comma {segments : List String} (hne : segments ≠ [])
    (h : ∀ t ∈ segments, ',' ∉ t.toList) : (",".intercalate segments).splitOn "," = segments :=
  splitOn_intercalate ',' hne h

end Rollout.Text
