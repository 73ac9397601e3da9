/-
The one-line form of a document is read back as that document.

* `tokens_ofValue`: the node of a document is made of the tokens of the document;
* `Document.ofText_compact`, `Document.ofBytes_encode`: the whole text, and its bytes.
-/
import Rollout.Proofs.Json.Tree
import Rollout.Proofs.Text.Utf8

namespace Rollout.Json

mutual

/-- The node of a document. -/
def Node.ofValue : Value → Node
  | .null => .null
  | .bool b => .bool b
  | .int i => .number (.ofInt i)
  | .text s => .text (.ok s)
  | .list items => .list (Node.ofItems items) .closed
  | .object fields => .object (Node.ofFields fields) .closed

def Node.ofItems : List Value → List Node
  | [] => []
  | v :: rest => Node.ofValue v :: Node.ofItems rest

def Node.ofFields : List (String × Value) → List (Except Stop String × Node)
  | [] => []
  | (k, v) :: rest => (.ok k, Node.ofValue v) :: Node.ofFields rest

end

mutual

theorem tokens_ofValue (v : Value) : (Node.ofValue v).tokens = tokens v := by
  match v with
  | .null | .bool _ | .int _ | .text _ => rfl
  | .list items => simp [Node.ofValue, Node.tokens, tokens, itemTokens_ofItems items]
  | .object fields => simp [Node.ofValue, Node.tokens, tokens, memberTokens_ofFields fields]

theorem itemTokens_ofItems (items : List Value) :
    Node.itemTokens (Node.ofItems items) = itemTokens items := by
  match items with
  | [] => rfl
  | [v] => exact tokens_ofValue v
  | v :: w :: items =>
    have hrest := itemTokens_ofItems (w :: items)
    rw [Node.ofItems] at hrest
    rw [Node.ofItems, Node.ofItems, Node.itemTokens, hrest, tokens_ofValue v, itemTokens]

theorem memberTokens_ofFields (fields : List (String × Value)) :
    Node.memberTokens (Node.ofFields fields) = fieldTokens fields := by
  match fields with
  | [] => rfl
  | [(k, v)] => simp [Node.ofFields, Node.memberTokens, fieldTokens, tokens_ofValue v]
  | (k, v) :: (l, w) :: fields =>
    have hrest := memberTokens_ofFields ((l, w) :: fields)
    rw [Node.ofFields] at hrest
    rw [Node.ofFields, Node.ofFields, Node.memberTokens, hrest, tokens_ofValue v, fieldTokens]

end

mutual

/-- Nothing is broken in the node of a document. -/
theorem exists_tree_ofValue (v : Value) : ∃ t, (Node.ofValue v).tree? = some t := by
  match v with
  | .null | .bool _ | .int _ | .text _ => exact ⟨_, rfl⟩
  | .list items =>
    obtain ⟨ts, hts⟩ := exists_trees_ofItems items
    exact ⟨.list ts, Node.tree?_list.mpr ⟨rfl, ts, hts, rfl⟩⟩
  | .object fields =>
    obtain ⟨ts, hts⟩ := exists_trees_ofFields fields
    exact ⟨.object ts, Node.tree?_object.mpr ⟨rfl, ts, hts, rfl⟩⟩

theorem exists_trees_ofItems (items : List Value) :
    ∃ ts, trees? (Node.ofItems items) = some ts := by
  match items with
  | [] => exact ⟨[], rfl⟩
  | v :: items =>
    obtain ⟨t, ht⟩ := exists_tree_ofValue v
    obtain ⟨ts, hts⟩ := exists_trees_ofItems items
    exact ⟨t :: ts, trees?_cons.mpr ⟨t, ts, ht, hts, rfl⟩⟩

theorem exists_trees_ofFields (fields : List (String × Value)) :
    ∃ ts, memberTrees? (Node.ofFields fields) = some ts := by
  match fields with
  | [] => exact ⟨[], rfl⟩
  | (k, v) :: fields =>
    obtain ⟨t, ht⟩ := exists_tree_ofValue v
    obtain ⟨ts, hts⟩ := exists_trees_ofFields fields
    exact ⟨_, memberTrees?_cons.mpr ⟨t, ts, ht, hts, rfl⟩⟩

end

namespace Document

/-- What is made of the tokens of a document is its node. -/
theorem read_of_lex {s : List Symbol} {v : Value} (h : lex s = Json.tokens v) :
    read s = ⟨Node.ofValue v, false⟩ := by
  obtain ⟨t, ht⟩ := exists_tree_ofValue v
  have hbuild := build_tokens (Node.ofValue v) ht [] []
  rw [List.append_nil, complete, tokens_ofValue, ← h] at hbuild
  exact hbuild

/-- The one-line form of a document is read back as that document. -/
theorem ofText_compact (v : Value) : ofText v.compact = ⟨Node.ofValue v, false⟩ := by
  refine read_of_lex ?_
  have hlex := lex_compactChars v (show Delimited [] from trivial)
  simpa [symbols, Value.compact, lex] using hlex

/-- Bytes of a text are read as that text. -/
theorem ofBytes_encode (s : String) : ofBytes (Utf8.encode s) = ofText s := by
  rw [ofBytes, Utf8.scan_encode, ofText, symbols]

end Document

end Rollout.Json
