/-
YAML documents as trees of nodes.

* `Document.ofText` reads a text that holds one document, or none;
* `Document.anchored?` finds the node that an alias stands for.

Design notes: the tree is built by a fold over the tokens.  `Builder` holds the open collections and
what the innermost of them waits for.  A finished node waits for the next token, since only that
token tells whether a value follows a key and whether a sequence without indentation goes on.
-/
import Rollout.Yaml.Token

namespace Rollout.Yaml

/-- What may stand before a node. -/
structure Props where
  anchor : Option Nat := none
  tag : Option Bytes := none
  deriving DecidableEq, Repr, Inhabited

/-- A node.  Anchors and aliases go by numbers. -/
inductive Node where
  | scalar (props : Props) (style : Style) (text : String)
  | sequence (props : Props) (items : List Node)
  | mapping (props : Props) (members : List (Node × Node))
  | reference (number : Nat)
  deriving Repr, Inhabited

namespace Node

def props : Node → Props
  | scalar p .. | sequence p _ | mapping p _ => p
  | reference _ => {}

/-- A scalar that is left out. -/
def empty (p : Props) : Node := scalar p .plain ""

mutual

/-- The nodes with an anchor, in the order in which they begin. -/
def anchors (n : Node) : List (Nat × Node) :=
  let own := match n.props.anchor with
    | some a => [(a, n)]
    | none => []
  own ++ match n with
    | scalar .. | reference _ => []
    | sequence _ items => anchorsOfItems items
    | mapping _ members => anchorsOfMembers members

def anchorsOfItems : List Node → List (Nat × Node)
  | [] => []
  | n :: rest => n.anchors ++ anchorsOfItems rest

def anchorsOfMembers : List (Node × Node) → List (Nat × Node)
  | [] => []
  | (k, v) :: rest => k.anchors ++ v.anchors ++ anchorsOfMembers rest

end

mutual

/-- How many events it takes to tell of a node: one for a scalar or an alias, and a start and an end
for a collection. -/
def size : Node → Nat
  | scalar .. | reference _ => 1
  | sequence _ items => 2 + sizeOfItems items
  | mapping _ members => 2 + sizeOfMembers members

def sizeOfItems : List Node → Nat
  | [] => 0
  | n :: rest => n.size + sizeOfItems rest

def sizeOfMembers : List (Node × Node) → Nat
  | [] => 0
  | (k, v) :: rest => k.size + v.size + sizeOfMembers rest

end

end Node

/-! ### Open collections -/

/-- An open collection, newest parts first.  A member is the place of a value, with its key. -/
inductive Frame where
  | blockSequence (props : Props) (items : List Node)
  /-- A sequence as the value of a key, no deeper than the key. -/
  | indentless (props : Props) (items : List Node)
  | blockMapping (props : Props) (members : List (Node × Node))
  | blockMember (props : Props) (members : List (Node × Node)) (key : Node)
  | flowSequence (props : Props) (items : List Node)
  /-- The place of the key in a pair that is an item of a sequence. -/
  | flowPair (props : Props) (items : List Node)
  | flowPairMember (props : Props) (items : List Node) (key : Node)
  | flowMapping (props : Props) (members : List (Node × Node))
  /-- The place of a key behind its indicator. -/
  | flowKey (props : Props) (members : List (Node × Node))
  | flowMember (props : Props) (members : List (Node × Node)) (key : Node)
  deriving Repr, Inhabited

/-- What is waited for. -/
inductive Phase where
  /-- The document, after some directives. -/
  | start (directives : List Directive)
  /-- A node, whose properties so far are given. -/
  | node (props : Props)
  /-- An indicator of the innermost collection. -/
  | next
  /-- Whatever follows a finished node. -/
  | done (n : Node)
  deriving Repr, Inhabited

structure Builder where
  phase : Phase := .start []
  stack : List Frame := []
  /-- The handles of tags. -/
  handles : List (String × Bytes) := []
  /-- The names of anchors with their numbers. -/
  names : List (String × Nat) := []
  deriving Repr, Inhabited

/-! ### Directives and properties -/

/-- The handles that need no directive. -/
def defaultHandles : List (String × Bytes) :=
  [("!", Utf8.encode "!"), ("!!", Utf8.encode "tag:yaml.org,2002:")]

/-- The handles that directives define.  There is one version at most, and no handle twice. -/
def handlesOf (ds : List Directive) : Except Error (List (String × Bytes)) := do
  let versions := ds.filterMap fun d => match d with
    | .version major minor => some (major, minor)
    | .tag .. => none
  let handles := ds.filterMap fun d => match d with
    | .version .. => none
    | .tag handle expansion => some (handle, expansion)
  if 1 < versions.length || versions.any (fun v => v != (1, 1) && v != (1, 2)) then
    .error .badDirective
  let names := handles.map Prod.fst
  if names.eraseDups.length < names.length then .error .badDirective
  .ok (handles ++ defaultHandles)

/-- A tag in full. -/
def fullTag (handles : List (String × Bytes)) (t : TagName) : Except Error Bytes :=
  if t.handle.isEmpty then .ok t.suffix
  else match handles.lookup t.handle with
    | some expansion => .ok (expansion ++ t.suffix)
    | none => .error .unknownTagHandle

/-- The tag of a scalar that says nothing. -/
def plainTag : Bytes := Utf8.encode "!"

/-- Names an anchor.  It goes by the number of the names before it; a name given again counts
anew. -/
def nameAnchor (names : List (String × Nat)) (name : String) : Nat × List (String × Nat) :=
  let number := names.length
  (number, (name, number) :: names.filter (·.1 != name))

namespace Builder

/-! ### Finished nodes -/

/-- Puts a finished node where it belongs, given the token that follows it. -/
def settle (n : Node) (t : Token) : List Frame → Phase × List Frame
  | [] => (.done n, [])
  | .blockSequence p items :: outer => (.next, .blockSequence p (n :: items) :: outer)
  | .indentless p items :: outer =>
    if t = .blockEntry then (.next, .indentless p (n :: items) :: outer)
    else settle (.sequence p (n :: items).reverse) t outer
  | .blockMapping p members :: outer =>
    (.next, if t = .value then .blockMember p members n :: outer
      else .blockMapping p ((n, .empty {}) :: members) :: outer)
  | .blockMember p members key :: outer =>
    (.next, .blockMapping p ((key, n) :: members) :: outer)
  | .flowSequence p items :: outer => (.next, .flowSequence p (n :: items) :: outer)
  | .flowPair p items :: outer =>
    (.next, if t = .value then .flowPairMember p items n :: outer
      else .flowSequence p (.mapping {} [(n, .empty {})] :: items) :: outer)
  | .flowPairMember p items key :: outer =>
    (.next, .flowSequence p (.mapping {} [(key, n)] :: items) :: outer)
  | .flowMapping p members :: outer =>
    (.next, .flowMapping p ((n, .empty {}) :: members) :: outer)
  | .flowKey p members :: outer =>
    (.next, if t = .value then .flowMember p members n :: outer
      else .flowMapping p ((n, .empty {}) :: members) :: outer)
  | .flowMember p members key :: outer =>
    (.next, .flowMapping p ((key, n) :: members) :: outer)

/-- A node is due here in block style. -/
def isBlock : List Frame → Bool
  | [] | .blockSequence .. :: _ | .indentless .. :: _ | .blockMapping .. :: _
  | .blockMember .. :: _ => true
  | _ => false

/-- A sequence without indentation may begin here. -/
def admitsIndentless : List Frame → Bool
  | .blockMapping .. :: _ | .blockMember .. :: _ => true
  | _ => false

/-- A token in whose place a node may be left out. -/
def endsEmpty (t : Token) : List Frame → Bool
  | .blockSequence .. :: _ => t = .blockEntry || t = .blockEnd
  | .indentless .. :: _ => t = .blockEntry || t = .key || t = .value || t = .blockEnd
  | .blockMapping .. :: _ | .blockMember .. :: _ => t = .key || t = .value || t = .blockEnd
  | .flowPairMember .. :: _ => t = .flowEntry || t = .flowSequenceEnd
  | .flowKey .. :: _ => t = .value || t = .flowEntry || t = .flowMappingEnd
  | .flowMember .. :: _ => t = .flowEntry || t = .flowMappingEnd
  | _ => false

/-- A token before which the key of a pair is left out; it counts as read. -/
def endsPairKey (t : Token) : Bool :=
  t = .value || t = .flowEntry || t = .flowSequenceEnd

/-! ### Steps -/

/-- Takes an indicator of the innermost collection. -/
def indicator (b : Builder) (t : Token) : Except Error Builder :=
  match b.stack with
  | .blockSequence p items :: outer =>
    if t = .blockEntry then .ok { b with phase := .node {} }
    else if t = .blockEnd then
      .ok { b with phase := .done (.sequence p items.reverse), stack := outer }
    else .error .unexpectedToken
  | .indentless .. :: _ =>
    if t = .blockEntry then .ok { b with phase := .node {} } else .error .unexpectedToken
  | .blockMapping p members :: outer =>
    if t = .key then .ok { b with phase := .node {} }
    else if t = .blockEnd then
      .ok { b with phase := .done (.mapping p members.reverse), stack := outer }
    else .error .unexpectedToken
  | .flowSequence p items :: outer =>
    if t = .flowEntry then .ok { b with phase := .node {} }
    else if t = .flowSequenceEnd then
      .ok { b with phase := .done (.sequence p items.reverse), stack := outer }
    else .error .unexpectedToken
  | .flowMapping p members :: outer =>
    if t = .flowEntry then .ok { b with phase := .node {} }
    else if t = .flowMappingEnd then
      .ok { b with phase := .done (.mapping p members.reverse), stack := outer }
    else .error .unexpectedToken
  | .blockMember .. :: _ | .flowPairMember .. :: _ | .flowMember .. :: _ =>
    if t = .value then .ok { b with phase := .node {} } else .error .unexpectedToken
  | .flowPair .. :: _ | .flowKey .. :: _ | [] => .error .unexpectedToken

/-- Takes the token that follows a finished node. -/
def follow (b : Builder) (n : Node) (t : Token) : Except Error Builder :=
  match settle n t b.stack with
  | (.done n, []) =>
    if t = .documentEnd then .ok { b with phase := .done n, stack := [] }
    else .error .severalDocuments
  | (phase, stack) => { b with phase, stack }.indicator t

/-- Opens a collection. -/
def enter (b : Builder) (phase : Phase) (f : Frame) : Except Error Builder :=
  .ok { b with phase, stack := f :: b.stack }

/-- Takes a token where a node is due and the token begins none. -/
def withoutNode (b : Builder) (p : Props) (t : Token) : Except Error Builder :=
  if p != {} then b.follow (.empty p) t
  else match b.stack, t with
    | .flowSequence p items :: outer, .flowSequenceEnd =>
      .ok { b with phase := .done (.sequence p items.reverse), stack := outer }
    | .flowSequence p items :: outer, .key =>
      .ok { b with phase := .node {}, stack := .flowPair p items :: outer }
    | .flowMapping p members :: outer, .flowMappingEnd =>
      .ok { b with phase := .done (.mapping p members.reverse), stack := outer }
    | .flowMapping p members :: outer, .key =>
      .ok { b with phase := .node {}, stack := .flowKey p members :: outer }
    | .flowPair .. :: _, t =>
      if endsPairKey t then .ok { b with phase := .done (.empty {}) } else .error .unexpectedToken
    | [], .documentEnd => b.follow (.empty {}) t
    | stack, t => if endsEmpty t stack then b.follow (.empty {}) t else .error .unexpectedToken

/-- Takes a token where a node is due. -/
def beginNode (b : Builder) (p : Props) (t : Token) : Except Error Builder :=
  match t with
  | .scalar style text =>
    let p := if p.tag == some plainTag then { p with tag := none } else p
    .ok { b with phase := .done (.scalar p style text) }
  | .flowSequenceStart => b.enter (.node {}) (.flowSequence p [])
  | .flowMappingStart => b.enter (.node {}) (.flowMapping p [])
  | .blockSequenceStart =>
    if isBlock b.stack then b.enter .next (.blockSequence p []) else b.withoutNode p t
  | .blockMappingStart =>
    if isBlock b.stack then b.enter .next (.blockMapping p []) else b.withoutNode p t
  | .blockEntry =>
    if admitsIndentless b.stack then b.enter (.node {}) (.indentless p []) else b.withoutNode p t
  | .reference name =>
    if p != {} then b.withoutNode p t
    else match b.names.lookup name with
      | some number => .ok { b with phase := .done (.reference number) }
      | none => .error (.unknownAnchor name)
  | .anchor name =>
    if p.anchor.isSome then b.withoutNode p t
    else
      let (number, names) := nameAnchor b.names name
      .ok { b with phase := .node { p with anchor := some number }, names }
  | .tag t' =>
    if p.tag.isSome then b.withoutNode p t
    else do
      let tag ← fullTag b.handles t'
      .ok { b with phase := .node { p with tag := some tag } }
  | t => b.withoutNode p t

/-- Takes one token. -/
def step (b : Builder) (t : Token) : Except Error Builder :=
  match b.phase with
  | .start directives =>
    match t with
    | .directive d => .ok { b with phase := .start (directives ++ [d]) }
    | .documentStart => do
      .ok { b with phase := .node {}, handles := ← handlesOf directives }
    | .documentEnd => .error .unexpectedToken
    | t =>
      if directives.isEmpty then { b with handles := defaultHandles }.beginNode {} t
      else .error .unexpectedToken
  | .node p => b.beginNode p t
  | .next => b.indicator t
  | .done n => b.follow n t

/-- What is there when the tokens are used up. -/
def finish (b : Builder) : Except Error (Option Node) :=
  match b.phase, b.stack with
  | .start [], [] => .ok none
  | .node p, [] => .ok (some (.empty p))
  | .done n, [] => .ok (some n)
  | _, _ => .error .unexpectedToken

end Builder

/-! ### Documents -/

/-- A document; an empty text has no root. -/
structure Document where
  root : Option Node
  deriving Repr, Inhabited

namespace Document

/-- Builds the document of some tokens. -/
def ofTokens (ts : List Token) : Except Error Document := do
  let b ← ts.foldlM Builder.step {}
  .ok ⟨← b.finish⟩

/-- Reads a text. -/
def ofText (text : String) : Except Error Document := do
  ofTokens (← tokens text)

/-- The nodes with an anchor. -/
def anchors (d : Document) : List (Nat × Node) :=
  (d.root.map Node.anchors).getD []

/-- The node that an alias stands for: the last one with that number. -/
def anchored? (d : Document) (number : Nat) : Option Node :=
  d.anchors.reverse.lookup number

/-- How many events it takes to tell of a document. -/
def size (d : Document) : Nat :=
  (d.root.map Node.size).getD 1

end Document

end Rollout.Yaml
