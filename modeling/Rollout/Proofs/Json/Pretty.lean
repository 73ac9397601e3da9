/-
The form with one item a line is read back as its document, so that it says what the document is.

* `lex_prettyChars`: the characters of that form give the tokens of the document, whatever the
  level, since only blanks come between them;
* `Document.ofText_pretty`: the whole text is read back;
* `Node.ofValue_inj`: nothing of a document is lost on the way;
* `pretty_inj`: documents with one form are equal.
-/
import Rollout.Proofs.Json.Document

namespace Rollout.Json

/-! ### Reading -/

theorem blank_newline (level : Nat) : Blank ((Value.newline level).map some) := by
  intro x hx
  simp only [Value.newline, List.map_cons, List.map_replicate, List.mem_cons,
    List.mem_replicate] at hx
  rcases hx with rfl | ⟨-, rfl⟩ <;> simp

theorem lex_newline (level : Nat) (rest : List Symbol) :
    lex ((Value.newline level).map some ++ rest) = lex rest :=
  lex_blank (blank_newline level) rest

/-- The blanks before the end of a list or an object end a number. -/
theorem delimited_newline (level : Nat) (rest : List Symbol) :
    Delimited ((Value.newline level).map some ++ rest) :=
  ⟨by decide, by decide, by decide, by decide⟩

mutual

/-- The characters of a document, with one item a line, give its tokens. -/
theorem lex_prettyChars (v : Value) (level : Nat) {rest : List Symbol} (h : Delimited rest) :
    lex ((v.prettyChars level).map some ++ rest) = tokens v ++ lex rest := by
  match v with
  | .null => simp [Value.prettyChars, tokens, lex_cons, isSpace, lexOne, lexWord]
  | .bool b => cases b <;> simp [Value.prettyChars, tokens, lex_cons, isSpace, lexOne, lexWord]
  | .int i => simpa [Value.prettyChars, tokens] using lex_digits i h
  | .text t => simpa [Value.prettyChars, tokens] using lex_quote t rest
  | .list [] =>
    simp only [Value.prettyChars, tokens, itemTokens, List.map_cons, List.map_nil,
      List.cons_append, List.nil_append]
    rw [lex_mark _ (by decide) rfl, lex_mark _ (by decide) rfl]
  | .object [] =>
    simp only [Value.prettyChars, tokens, fieldTokens, List.map_cons, List.map_nil,
      List.cons_append, List.nil_append]
    rw [lex_mark _ (by decide) rfl, lex_mark _ (by decide) rfl]
  | .list (v :: items) =>
    have hitems := lex_prettyItems (v :: items) (level + 1) (delimited_newline level
      (some ']' :: rest))
    simp only [Value.prettyChars, tokens, List.map_cons, List.map_append, List.map_nil,
      List.cons_append, List.append_assoc, List.nil_append]
    rw [lex_mark _ (by decide) rfl, lex_newline, hitems, lex_newline, lex_mark _ (by decide) rfl]
  | .object (f :: fields) =>
    have hfields := lex_prettyFields (f :: fields) (level + 1) (delimited_newline level
      (some '}' :: rest))
    simp only [Value.prettyChars, tokens, List.map_cons, List.map_append, List.map_nil,
      List.cons_append, List.append_assoc, List.nil_append]
    rw [lex_mark _ (by decide) rfl, lex_newline, hfields, lex_newline, lex_mark _ (by decide) rfl]

theorem lex_prettyItems (items : List Value) (level : Nat) {rest : List Symbol}
    (h : Delimited rest) :
    lex ((Value.prettyItems level items).map some ++ rest) = itemTokens items ++ lex rest := by
  match items with
  | [] => simp [Value.prettyItems, itemTokens]
  | [v] => simpa [Value.prettyItems, itemTokens] using lex_prettyChars v level h
  | v :: w :: items =>
    have hitems := lex_prettyItems (w :: items) level h
    simp only [Value.prettyItems, itemTokens, List.map_cons, List.map_append,
      List.cons_append, List.append_assoc]
    rw [lex_prettyChars v level (delimited_mark (by decide) _), lex_mark _ (by decide) rfl,
      lex_newline, hitems]

theorem lex_prettyFields (fields : List (String × Value)) (level : Nat) {rest : List Symbol}
    (h : Delimited rest) :
    lex ((Value.prettyFields level fields).map some ++ rest) = fieldTokens fields ++ lex rest := by
  have hspace (s : List Symbol) : lex (some ' ' :: s) = lex s :=
    lex_blank (b := [some ' ']) (by simp [Blank]) s
  match fields with
  | [] => simp [Value.prettyFields, fieldTokens]
  | [(k, v)] =>
    simp only [Value.prettyFields, fieldTokens, List.map_cons, List.map_append,
      List.cons_append, List.append_assoc]
    rw [lex_quote, lex_mark _ (by decide) rfl, hspace, lex_prettyChars v level h]
  | (k, v) :: f :: fields =>
    have hfields := lex_prettyFields (f :: fields) level h
    simp only [Value.prettyFields, fieldTokens, List.map_cons, List.map_append,
      List.cons_append, List.append_assoc]
    rw [lex_quote, lex_mark _ (by decide) rfl, hspace,
      lex_prettyChars v level (delimited_mark (by decide) _), lex_mark _ (by decide) rfl,
      lex_newline, hfields]

end

/-- The form with one item a line is read back as that document. -/
theorem Document.ofText_pretty (v : Value) : ofText v.pretty = ⟨Node.ofValue v, false⟩ := by
  refine read_of_lex ?_
  have hlex := lex_prettyChars v 0 (show Delimited [] from trivial)
  simpa [symbols, Value.pretty, lex] using hlex

/-! ### Nothing is lost -/

theorem Number.ofInt_inj {i j : Int} (h : ofInt i = ofInt j) : i = j := by
  have hsign : decide (i < 0) = decide (j < 0) := congrArg (·.negative) h
  have hdigits : numerals i.natAbs = numerals j.natAbs := congrArg (·.whole) h
  have habs := congrArg ofDigits hdigits
  rw [ofDigits_numerals, ofDigits_numerals] at habs
  simp only [decide_eq_decide] at hsign
  omega

mutual

theorem Node.ofValue_inj {v w : Value} (h : ofValue v = ofValue w) : v = w := by
  match v, w with
  | .null, .null => rfl
  | .bool a, .bool b => exact congrArg Value.bool (Node.bool.inj h)
  | .int i, .int j => exact congrArg Value.int (Number.ofInt_inj (Node.number.inj h))
  | .text s, .text t => exact congrArg Value.text (Except.ok.inj (Node.text.inj h))
  | .list items, .list items' => exact congrArg Value.list (Node.ofItems_inj (Node.list.inj h).1)
  | .object fields, .object fields' =>
    exact congrArg Value.object (Node.ofFields_inj (Node.object.inj h).1)

theorem Node.ofItems_inj {items items' : List Value} (h : ofItems items = ofItems items') :
    items = items' := by
  match items, items' with
  | [], [] => rfl
  | v :: items, w :: items' =>
    obtain ⟨hv, hitems⟩ := List.cons_eq_cons.mp h
    rw [Node.ofValue_inj hv, Node.ofItems_inj hitems]

theorem Node.ofFields_inj {fields fields' : List (String × Value)}
    (h : ofFields fields = ofFields fields') : fields = fields' := by
  match fields, fields' with
  | [], [] => rfl
  | (k, v) :: fields, (l, w) :: fields' =>
    obtain ⟨hfield, hfields⟩ := List.cons_eq_cons.mp h
    obtain ⟨hk, hv⟩ := Prod.mk.inj hfield
    rw [Except.ok.inj hk, Node.ofValue_inj hv, Node.ofFields_inj hfields]

end

/-- Documents are told apart by the form with one item a line. -/
theorem pretty_inj {v w : Value} (h : v.pretty = w.pretty) : v = w := by
  have hread := Document.ofText_pretty v
  rw [h, Document.ofText_pretty w, Document.mk.injEq] at hread
  exact (Node.ofValue_inj hread.1).symm

end Rollout.Json
