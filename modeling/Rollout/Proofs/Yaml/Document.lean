/-
The one-line form of a JSON document is read as the YAML document of the same shape.

* `Node.ofValue`: that shape;
* `Builder.foldlM_flowTokens`: the tokens of a document make its node, whatever is open around it;
* `Document.ofText_compact`: the whole text.
-/
import Rollout.Proofs.Except
import Rollout.Proofs.Yaml.Flow
import Rollout.Yaml.Node

namespace Rollout.Yaml

open Json (Value)

mutual

/-- The node of a document. -/
def Node.ofValue : Value → Node
  | .null => .scalar {} .plain "null"
  | .bool b => .scalar {} .plain (if b then "true" else "false")
  | .int i => .scalar {} .plain (toString i)
  | .text t => .scalar {} .quoted t
  | .list items => .sequence {} (Node.ofItems items)
  | .object fields => .mapping {} (Node.ofFields fields)

def Node.ofItems : List Value → List Node
  | [] => []
  | v :: rest => Node.ofValue v :: Node.ofItems rest

def Node.ofFields : List (String × Value) → List (Node × Node)
  | [] => []
  | (k, v) :: rest => (.scalar {} .quoted k, Node.ofValue v) :: Node.ofFields rest

end

namespace Builder

variable {b b' : Builder} {t : Token} {ts us : List Token} {n key : Node} {items : List Node}
  {members : List (Node × Node)} {stack : List Frame} {handles : List (String × Bytes)}
  {names : List (String × Nat)}

/-! ### Steps -/

theorem foldlM_cons_of_step (h : b.step t = .ok b') :
    (t :: ts).foldlM step b = ts.foldlM step b' := by
  rw [List.foldlM_cons, h]
  rfl

theorem foldlM_append_of_eq (h : ts.foldlM step b = .ok b') :
    (ts ++ us).foldlM step b = us.foldlM step b' := by
  rw [List.foldlM_append, h]
  rfl

theorem step_flowSequenceStart :
    step ⟨.node {}, stack, handles, names⟩ .flowSequenceStart
      = .ok ⟨.node {}, .flowSequence {} [] :: stack, handles, names⟩ := rfl

theorem step_flowMappingStart :
    step ⟨.node {}, stack, handles, names⟩ .flowMappingStart
      = .ok ⟨.node {}, .flowMapping {} [] :: stack, handles, names⟩ := rfl

/-- A comma behind an item. -/
theorem step_nextItem :
    step ⟨.done n, .flowSequence {} items :: stack, handles, names⟩ .flowEntry
      = .ok ⟨.node {}, .flowSequence {} (n :: items) :: stack, handles, names⟩ := rfl

theorem step_endSequence :
    step ⟨.done n, .flowSequence {} items :: stack, handles, names⟩ .flowSequenceEnd
      = .ok ⟨.done (.sequence {} (n :: items).reverse), stack, handles, names⟩ := rfl

/-- A comma behind the value of a member. -/
theorem step_nextMember :
    step ⟨.done n, .flowMember {} members key :: stack, handles, names⟩ .flowEntry
      = .ok ⟨.node {}, .flowMapping {} ((key, n) :: members) :: stack, handles, names⟩ := rfl

theorem step_endMapping :
    step ⟨.done n, .flowMember {} members key :: stack, handles, names⟩ .flowMappingEnd
      = .ok ⟨.done (.mapping {} ((key, n) :: members).reverse), stack, handles, names⟩ := rfl

/-- A key with its colon: the value of the member is due. -/
theorem foldlM_key (k : String) :
    [Token.key, .scalar .quoted k, .value].foldlM step
        ⟨.node {}, .flowMapping {} members :: stack, handles, names⟩
      = .ok ⟨.node {}, .flowMember {} members (.scalar {} .quoted k) :: stack, handles, names⟩ :=
  rfl

/-! ### Documents -/

mutual

/-- Where a node is due, the tokens of a document make its node. -/
theorem foldlM_flowTokens (v : Value) (stack : List Frame) :
    (flowTokens v).foldlM step ⟨.node {}, stack, handles, names⟩
      = .ok ⟨.done (Node.ofValue v), stack, handles, names⟩ := by
  -- brackets with nothing between them close where a node is due, all others behind a node
  match v with
  | .null | .bool _ | .int _ | .text _ => rfl
  | .list [] => rfl
  | .object [] => rfl
  | .list (v :: items) =>
    rw [flowTokens, foldlM_cons_of_step step_flowSequenceStart, foldlM_itemTokens v items [] stack]
    rfl
  | .object ((k, v) :: fields) =>
    rw [flowTokens, foldlM_cons_of_step step_flowMappingStart,
      foldlM_fieldTokens k v fields [] stack]
    rfl
termination_by sizeOf v

/-- Inside an open sequence, the tokens of items and its end make the sequence. -/
theorem foldlM_itemTokens (v : Value) (items : List Value) (before : List Node)
    (stack : List Frame) :
    (itemTokens (v :: items) ++ [Token.flowSequenceEnd]).foldlM step
        ⟨.node {}, .flowSequence {} before :: stack, handles, names⟩
      = .ok ⟨.done (.sequence {} (before.reverse ++ Node.ofItems (v :: items))), stack, handles,
        names⟩ := by
  match items with
  | [] =>
    rw [itemTokens, foldlM_append_of_eq (foldlM_flowTokens v _),
      foldlM_cons_of_step step_endSequence, List.reverse_cons]
    rfl
  | w :: items =>
    rw [itemTokens, List.append_assoc, List.cons_append,
      foldlM_append_of_eq (foldlM_flowTokens v _), foldlM_cons_of_step step_nextItem,
      foldlM_itemTokens w items _ stack, List.reverse_cons, List.append_assoc]
    rfl
termination_by sizeOf (v :: items)

/-- Inside an open mapping, the tokens of members and its end make the mapping. -/
theorem foldlM_fieldTokens (k : String) (v : Value) (fields : List (String × Value))
    (before : List (Node × Node)) (stack : List Frame) :
    (fieldTokens ((k, v) :: fields) ++ [Token.flowMappingEnd]).foldlM step
        ⟨.node {}, .flowMapping {} before :: stack, handles, names⟩
      = .ok ⟨.done (.mapping {} (before.reverse ++ Node.ofFields ((k, v) :: fields))), stack,
        handles, names⟩ := by
  match fields with
  | [] =>
    have htokens : fieldTokens [(k, v)] ++ [Token.flowMappingEnd]
        = [.key, .scalar .quoted k, .value] ++ (flowTokens v ++ [.flowMappingEnd]) := rfl
    rw [htokens, foldlM_append_of_eq (foldlM_key k), foldlM_append_of_eq (foldlM_flowTokens v _),
      foldlM_cons_of_step step_endMapping, List.reverse_cons]
    rfl
  | (l, w) :: fields =>
    have htokens : fieldTokens ((k, v) :: (l, w) :: fields) ++ [Token.flowMappingEnd]
        = [.key, .scalar .quoted k, .value] ++ (flowTokens v ++ .flowEntry ::
          (fieldTokens ((l, w) :: fields) ++ [.flowMappingEnd])) := by
      simp [fieldTokens]
    rw [htokens, foldlM_append_of_eq (foldlM_key k), foldlM_append_of_eq (foldlM_flowTokens v _),
      foldlM_cons_of_step step_nextMember, foldlM_fieldTokens l w fields _ stack,
      List.reverse_cons, List.append_assoc]
    rfl
termination_by sizeOf ((k, v) :: fields)

end

end Builder

namespace Document

/-- At the beginning a node is due as well, with the handles that need no directive. -/
theorem ofTokens_flowTokens (fields : List (String × Value)) :
    ofTokens (flowTokens (.object fields)) = .ok ⟨some (Node.ofValue (.object fields))⟩ := by
  have hbuild : (flowTokens (.object fields)).foldlM Builder.step ⟨.node {}, [], defaultHandles, []⟩
      = .ok ⟨.done (Node.ofValue (.object fields)), [], defaultHandles, []⟩ :=
    Builder.foldlM_flowTokens (.object fields) []
  have hopen : Builder.step {} .flowMappingStart
      = .ok ⟨.node {}, [.flowMapping {} []], defaultHandles, []⟩ := rfl
  rw [flowTokens, Builder.foldlM_cons_of_step Builder.step_flowMappingStart] at hbuild
  rw [ofTokens, flowTokens, Builder.foldlM_cons_of_step hopen, hbuild]
  rfl

/-- **JSON documents**: the one-line form of an object is read as the mapping of its fields. -/
theorem ofText_compact {fields : List (String × Value)} (h : LegibleFields fields) :
    ofText (Value.object fields).compact = .ok ⟨some (Node.ofValue (.object fields))⟩ := by
  rw [ofText, tokens_compact fields h, ← ofTokens_flowTokens]
  rfl

end Document

end Rollout.Yaml
