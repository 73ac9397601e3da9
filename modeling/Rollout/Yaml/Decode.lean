/-
Values of a known type from YAML documents.

* a text is any scalar, as written; integers and booleans are plain scalars;
* a list or a record may be left out, which stands for an empty one; it may not be `null`;
* a value that is optional may be left out or be `null`;
* a record is a mapping; names that it does not know are passed over, and so are their values.

Aliases are followed where a value is wanted.  How often is limited by the size of the document, so
a small text cannot stand for a huge value.
-/
import Rollout.Format
import Rollout.Yaml.Node
import Rollout.Yaml.Resolve

namespace Rollout.Yaml

/-- A computation that counts the aliases it follows. -/
abbrev Reading := StateT Nat (Except Error)

/-- Reads one value from a node of a document. -/
abbrev Decoder (α : Type) := Document → Node → Reading α

/-- How many aliases may be followed, for every event of a document. -/
def aliasesPerEvent : Nat := 100

/-- The node itself, or the node that an alias stands for. -/
def Document.follow (d : Document) (n : Node) : Reading Node :=
  match n with
  | .reference number => do
    let followed ← get
    if d.size * aliasesPerEvent < followed + 1 then throw .tooManyAliases
    set (followed + 1)
    match d.anchored? number with
    | some n => pure n
    | none => throw (.unknownAnchor (toString number))
  | n => pure n

/-! ### Tags -/

/-- The tag of a type that every document knows. -/
def coreTag (name : String) : Bytes := Utf8.encode ("tag:yaml.org,2002:" ++ name)

/-- The name of a tag of the application's own. -/
def ownTag? (tag : Option Bytes) : Option String :=
  match tag with
  | some (0x21 :: rest) => Utf8.decode? (if rest.isEmpty then [0x21] else rest)
  | _ => none

/-- A scalar may stand for something other than a text. -/
def isResolved (core : String) (props : Props) (style : Style) : Bool :=
  match style with
  | .plain => true
  | .literal => props.tag == some (coreTag core)
  | .quoted | .folded => false

/-- A scalar that is left out. -/
def isLeftOut (style : Style) (text : String) : Bool :=
  style = .plain && text.isEmpty

namespace Decoder

protected def map (f : α → β) (item : Decoder α) : Decoder β := fun d n => f <$> item d n

def text : Decoder String := fun d n => do
  match ← d.follow n with
  | .scalar _ _ s => pure s
  | _ => throw (.unexpectedType "a string")

def bool : Decoder Bool := fun d n => do
  match ← d.follow n with
  | .scalar p style s =>
    match isResolved "bool" p style, boolWord? s with
    | true, some b => pure b
    | _, _ => throw (.unexpectedType "a boolean")
  | _ => throw (.unexpectedType "a boolean")

/-- A number that a scalar spells in one way or another. -/
def number (read : String → Option α) (expected : String) : Decoder α := fun d n => do
  match ← d.follow n with
  | .scalar p style s =>
    match isResolved "int" p style, read s with
    | true, some a => pure a
    | _, _ => throw (.unexpectedType expected)
  | _ => throw (.unexpectedType expected)

def integer (low high : Int) (expected : String) : Decoder Int := fun d n => do
  let i ← number integer? expected d n
  if low ≤ i ∧ i ≤ high then pure i else throw (.outOfRange expected)

def natural (bound : Nat) (expected : String) : Decoder Nat := fun d n => do
  let i ← number natural? expected d n
  if i < bound then pure i else throw (.outOfRange expected)

def list (item : Decoder α) : Decoder (List α) := fun d n => do
  match ← d.follow n with
  | .sequence _ items => items.mapM (item d)
  | .scalar _ style s =>
    if isLeftOut style s then pure [] else throw (.unexpectedType "a sequence")
  | _ => throw (.unexpectedType "a sequence")

/-- A node stands for nothing. -/
def isNothing (p : Props) (style : Style) (s : String) : Except Error Bool :=
  match style, p.tag with
  | .plain, none => .ok (s.isEmpty || isNullWord s)
  | .plain, some tag =>
    if tag == coreTag "null" then
      if isNullWord s then .ok true else .error (.unexpectedType "null")
    else .ok false
  | _, _ => .ok false

def optional (item : Decoder α) : Decoder (Option α) := fun d n => do
  match ← d.follow n with
  | .scalar p style s =>
    if ← isNothing p style s then pure none else some <$> item d (.scalar p style s)
  | n => some <$> item d n

/-- The value behind the tag of a variant that has no parts. -/
def isUnit (style : Style) (s : String) : Bool :=
  style = .plain && (s.isEmpty || isNullWord s)

def variantName (known : List (String × α)) (s : String) : Except Error α :=
  match known.lookup s with
  | some a => .ok a
  | none => .error (.unknownVariant s (known.map Prod.fst))

/-- One of some names, as a scalar or as a tag with nothing behind it. -/
def variant (known : List (String × α)) : Decoder α := fun d n => do
  match ← d.follow n with
  | .scalar p style s =>
    match ownTag? p.tag with
    | some name =>
      let a ← variantName known name
      if isUnit style s then pure a else throw (.unexpectedType "unit")
    | none => variantName known s
  | _ => throw (.unexpectedType "a YAML tag starting with '!'")

end Decoder

/-! ### Records -/

/-- Some fields of a record: their names, and how they are read from the members. -/
structure Fields (α : Type) where
  names : List String
  read : Document → List (String × Node) → Reading α

namespace Fields

def required (name : String) (item : Decoder α) : Fields α where
  names := [name]
  read d members :=
    match members.lookup name with
    | some n => item d n
    | none => throw (.missingField name)

def field (name : String) (item : Decoder α) (default : α) : Fields α where
  names := [name]
  read d members :=
    match members.lookup name with
    | some n => item d n
    | none => pure default

protected def map (f : α → β) (x : Fields α) : Fields β where
  names := x.names
  read d members := f <$> x.read d members

protected def seq (f : Fields (α → β)) (x : Unit → Fields α) : Fields β where
  names := f.names ++ (x ()).names
  read d members := f.read d members <*> (x ()).read d members

instance : Functor Fields where
  map := Fields.map

instance : Seq Fields where
  seq := Fields.seq

end Fields

/-- The members of a mapping by name. -/
def named (d : Document) (members : List (Node × Node)) : Reading (List (String × Node)) :=
  members.mapM fun (k, v) => do pure (← Decoder.text d k, v)

/-- Refuses a name that is known and given twice. -/
def checkNames (known : List String) : List (String × Node) → Except Error Unit
  | [] => .ok ()
  | (name, _) :: rest =>
    if known.contains name && (rest.lookup name).isSome then .error (.duplicateField name)
    else checkNames known rest

/-- The members of a mapping by name, among which no known name stands twice. -/
def Document.members (d : Document) (known : List String) (n : Node) (expected : String) :
    Reading (List (String × Node)) := do
  match ← d.follow n with
  | .mapping _ members =>
    let members ← named d members
    checkNames known members
    pure members
  | .scalar _ style s =>
    if isLeftOut style s then pure [] else throw (.unexpectedType expected)
  | _ => throw (.unexpectedType expected)

def Decoder.record (name : String) (fields : Fields α) : Decoder α := fun d n => do
  fields.read d (← d.members fields.names n s!"struct {name}")

/-- The format of YAML documents. -/
def format : Format Decoder Fields where
  text := Decoder.text
  bool := Decoder.bool
  integer := Decoder.integer
  natural := Decoder.natural
  list := Decoder.list
  optional := Decoder.optional
  variant := Decoder.variant
  map := Decoder.map
  required := Fields.required
  field := Fields.field
  record := Decoder.record

/-- Reads a record from a document; an empty text is a mapping without members. -/
def Document.decode (item : Decoder α) (d : Document) : Except Error α :=
  (item d (d.root.getD (.mapping {} []))).run' 0

/-- Reads a record from a text. -/
def decodeText (item : Decoder α) (text : String) : Except Error α := do
  (← Document.ofText text).decode item

end Rollout.Yaml
