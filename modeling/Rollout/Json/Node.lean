/-
JSON texts as trees, as far as they can be read.

`Document.read` never fails: where reading stops, the tree says so in place, and what stands before
that place can still be looked at.  A document is well formed when nothing in it is broken.

Design notes: the tree is built by a fold over the tokens with a stack of open lists and objects,
so its depth is bounded by memory alone.  `Phase` is what the innermost of them waits for.
-/
import Rollout.Json.Token

namespace Rollout.Json

mutual

/-- A value as read. -/
inductive Node where
  | null
  | bool (b : Bool)
  | number (n : Number)
  | text (value : Except Stop String)
  | list (items : List Node) (ending : Ending)
  | object (members : List (Except Stop String × Node)) (ending : Ending)
  | broken (b : Break)

/-- How a list or an object ends. -/
inductive Ending where
  | closed
  /-- Reading stops there, or with an unclosed last item; `afterComma` when a comma came last. -/
  | broken (b : Break) (afterComma : Bool)
  /-- Something other than a text stands where a name is due. -/
  | oddName (found : Node) (afterComma : Bool)

end

instance : Inhabited Node := ⟨.null⟩

/-- A whole text: a value, and whether something follows it. -/
structure Document where
  root : Node
  trailing : Bool

/-- A list or an object that is still open; the newest item comes first. -/
inductive Frame where
  | list (items : List Node)
  | object (members : List (Except Stop String × Node))
  /-- An object whose last name waits for its value. -/
  | member (members : List (Except Stop String × Node)) (name : Except Stop String)

/-- What the innermost open list or object waits for. -/
inductive Phase where
  /-- A value. -/
  | value
  /-- A first item or the end. -/
  | first
  /-- A comma or the end. -/
  | next
  /-- A name after a comma. -/
  | name
  /-- The colon after a name. -/
  | colon

namespace Node

/-- The value that a token is or begins. -/
def ofToken : Token → Node
  | .null => null
  | .bool b => bool b
  | .number n => number n
  | .text value => text value
  | .openList => list [] .closed
  | .openObject => object [] .closed
  | .broken b => broken b
  | .closeList | .closeObject | .comma | .colon => broken .atOther

/-- Puts a complete value into an open list or object. -/
def intoFrame (v : Node) : Frame → Frame
  | .list items => .list (v :: items)
  | .object members => .object members
  | .member members name => .object ((name, v) :: members)

/-- Closes every open list and object around a value that is the last thing read. -/
def unwind (v : Node) : List Frame → Node
  | [] => v
  | .list items :: outer =>
    unwind (list (v :: items).reverse (.broken .atOther false)) outer
  | .object members :: outer =>
    unwind (object members.reverse (.broken .atOther false)) outer
  | .member members name :: outer =>
    unwind (object ((name, v) :: members).reverse (.broken .atOther false)) outer

/-- Reading stops while the innermost list or object waits for the next item. -/
def stopIn (ending : Ending) : List Frame → Node
  | [] => broken .atOther
  | .list items :: outer => unwind (list items.reverse ending) outer
  | .object members :: outer => unwind (object members.reverse ending) outer
  | .member members name :: outer =>
    unwind (object ((name, broken .atOther) :: members).reverse (.broken .atOther false)) outer

end Node

namespace Document

/-- The document when the tokens are used up. -/
def atEnd (phase : Phase) (stack : List Frame) : Document :=
  match phase with
  | .value =>
    match stack with
    | .list items :: outer => ⟨.stopIn (.broken .atEnd true) (.list items :: outer), false⟩
    | _ => ⟨(Node.broken .atEnd).unwind stack, false⟩
  | .first | .next => ⟨.stopIn (.broken .atEnd false) stack, false⟩
  | .name => ⟨.stopIn (.broken .atEnd true) stack, false⟩
  | .colon => ⟨(Node.broken .atEnd).unwind stack, false⟩

/-- Something other than a complete text stands where a name is due. -/
def oddName (t : Token) (afterComma : Bool) (stack : List Frame) : Node :=
  match t with
  | .broken b =>
    if b.kind = .text then .stopIn (.broken b afterComma) stack
    else .stopIn (.oddName (.broken b) afterComma) stack
  | t => .stopIn (.oddName (Node.ofToken t) afterComma) stack

/-- The tokens go on with the end of a list. -/
def closesList : List Token → Bool
  | .closeList :: _ => true
  | _ => false

mutual

/-- A value is complete; what follows belongs to the list or object around it. -/
def complete (v : Node) (stack : List Frame) (ts : List Token) : Document :=
  match stack with
  | [] => ⟨v, !ts.isEmpty⟩
  | frame :: outer => build .next (v.intoFrame frame :: outer) ts
termination_by (ts.length, 1)

/-- Reads tokens in a phase, inside the open lists and objects of a stack. -/
def build (phase : Phase) (stack : List Frame) (tokens : List Token) : Document :=
  match tokens with
  | [] => atEnd phase stack
  | t :: ts =>
    match phase with
    | .value => begin t stack ts
    | .first =>
      match stack, t with
      | .list items :: outer, .closeList => complete (.list items.reverse .closed) outer ts
      | .list _ :: _, t => begin t stack ts
      | .object members :: outer, .closeObject =>
        complete (.object members.reverse .closed) outer ts
      | .object members :: outer, .text name => build .colon (.member members name :: outer) ts
      | stack, t => ⟨oddName t false stack, false⟩
    | .next =>
      match stack, t with
      | .list items :: outer, .closeList => complete (.list items.reverse .closed) outer ts
      | .list items :: outer, .comma =>
        if closesList ts then ⟨.stopIn (.broken .atOther true) (.list items :: outer), false⟩
        else build .value (.list items :: outer) ts
      | .object members :: outer, .closeObject =>
        complete (.object members.reverse .closed) outer ts
      | .object members :: outer, .comma => build .name (.object members :: outer) ts
      | stack, _ => ⟨.stopIn (.broken .atOther false) stack, false⟩
    | .name =>
      match stack, t with
      | .object members :: outer, .text name => build .colon (.member members name :: outer) ts
      | stack, t => ⟨oddName t true stack, false⟩
    | .colon =>
      match t with
      | .colon => build .value stack ts
      | _ => ⟨(Node.broken .atOther).unwind stack, false⟩
termination_by (tokens.length, 0)

/-- Begins a value with a token. -/
def begin (t : Token) (stack : List Frame) (ts : List Token) : Document :=
  match t with
  | .openList => build .first (.list [] :: stack) ts
  | .openObject => build .first (.object [] :: stack) ts
  | .null | .bool _ | .number _ | .text _ => complete (Node.ofToken t) stack ts
  | .broken _ | .closeList | .closeObject | .comma | .colon =>
    ⟨(Node.ofToken t).unwind stack, false⟩
termination_by (ts.length, 2)

end

/-- Reads symbols as one document. -/
def read (s : List Symbol) : Document :=
  build .value [] (lex s)

/-- Reads a text as one document. -/
def ofText (s : String) : Document :=
  read (symbols s)

/-- Reads bytes as one document. -/
def ofBytes (bs : Bytes) : Document :=
  read (Utf8.scan bs)

end Document

/-! ### Passing over values -/

/-- What reading past an ending yields. -/
def Ending.pass : Ending → Except Stop Unit
  | .closed => .ok ()
  | .broken b _ => .error b.passed
  | .oddName .. => .error .malformed

mutual

/-- Whether a value that nobody asks for can be passed over. -/
def Node.pass : Node → Except Stop Unit
  | .null | .bool _ | .number _ | .text _ => .ok ()
  | .list items ending => do passItems items; ending.pass
  | .object members ending => do passMembers members; ending.pass
  | .broken b => .error b.passed

def passItems : List Node → Except Stop Unit
  | [] => .ok ()
  | v :: rest => do v.pass; passItems rest

def passMembers : List (Except Stop String × Node) → Except Stop Unit
  | [] => .ok ()
  | (_, v) :: rest => do v.pass; passMembers rest

end

end Rollout.Json
