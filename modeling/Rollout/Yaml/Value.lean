/-
YAML nodes as values with a type of their own.

A scalar gets the type that its tag or its spelling gives it.  Some records keep parts of themselves
as such values before it is known what they are: there a text has to be a text, and a number is none.
-/
import Rollout.Yaml.Decode

namespace Rollout.Yaml

inductive Value where
  | null
  | bool (b : Bool)
  /-- An integer without a minus sign. -/
  | natural (n : Nat)
  | integer (i : Int)
  | float (spelling : String)
  | text (s : String)
  | list (items : List Value)
  | map (members : List (Value × Value))
  deriving Repr, Inhabited

namespace Value

/-- The integer that a scalar spells, if it spells one that 128 bits hold; only 64 bits will do. -/
def ofInteger? (s : String) : Except Error (Option Value) :=
  match natural? s, integer? s with
  | some n, _ =>
    if n < UInt64.size then .ok (some (natural n))
    else if n < Decimal.twoTo 128 then .error (.outOfRange "an integer of 64 bits")
    else .ok none
  | none, some i =>
    if Int64.minValue.toInt ≤ i then .ok (some (integer i))
    else if -(Decimal.twoTo 127 : Int) ≤ i then .error (.outOfRange "an integer of 64 bits")
    else .ok none
  | none, none => .ok none

/-- The value of a plain scalar. -/
def ofPlain (s : String) : Except Error Value :=
  if s.isEmpty || isNullWord s then .ok null
  else match boolWord? s with
    | some b => .ok (bool b)
    | none => do
      match ← ofInteger? s with
      | some v => .ok v
      | none => .ok (if isFloat s then float s else text s)

/-- The value of a scalar whose tag names a type. -/
def ofTagged (tag : Bytes) (s : String) : Except Error Value :=
  if tag == coreTag "bool" then
    match boolWord? s with
    | some b => .ok (bool b)
    | none => .error (.unexpectedType "a boolean")
  else if tag == coreTag "int" then do
    match ← ofInteger? s with
    | some v => .ok v
    | none => .error (.unexpectedType "an integer")
  else if tag == coreTag "float" then
    if isFloat s then .ok (float s) else .error (.unexpectedType "a float")
  else if tag == coreTag "null" then
    if isNullWord s then .ok null else .error (.unexpectedType "null")
  else .ok (text s)

/-- The value of a scalar. -/
def ofScalar (p : Props) (style : Style) (s : String) : Except Error Value :=
  match p.tag, style with
  | some tag, _ => ofTagged tag s
  | none, .plain => ofPlain s
  | none, _ => .ok (text s)

end Value

/-- How deep collections may lie in each other. -/
def maxDepth : Nat := 128

/-- The value of a node, down to a depth; a tag of the application's own has none. -/
def Document.value (d : Document) (depth : Nat) (n : Node) : Reading Value := do
  let n ← d.follow n
  if (ownTag? n.props.tag).isSome then throw (.unexpectedType "a value without a tag")
  match depth, n with
  | _, .scalar p style s => Value.ofScalar p style s
  | depth + 1, .sequence _ items => .list <$> items.mapM (d.value depth)
  | depth + 1, .mapping _ members =>
    .map <$> members.mapM fun (k, v) => do pure (← d.value depth k, ← d.value depth v)
  | 0, _ => throw .tooDeep
  | _, .reference _ => throw .tooDeep

namespace Value

/-- Reads one thing from a value. -/
abbrev Decoder (α : Type) := Value → Except Error α

def asText : Decoder String
  | text s => .ok s
  | _ => .error (.unexpectedType "a string")

def asBool : Decoder Bool
  | bool b => .ok b
  | _ => .error (.unexpectedType "a boolean")

/-- `null` is nothing. -/
def asOptional (item : Decoder α) : Decoder (Option α)
  | null => .ok none
  | v => some <$> item v

/-- The field that a key stands for: by its name, or by its number. -/
def fieldOf? (names : List String) : Value → Except Error (Option Nat)
  | text s => .ok (names.findIdx? (· == s))
  | natural n => .ok (if n < names.length then some n else none)
  | _ => .error (.unexpectedType "field identifier")

/-- Files the members of a mapping under the fields of a record. -/
def fileMembers (names : List String) (found : List (Option Value)) :
    List (Value × Value) → Except Error (List (Option Value))
  | [] => .ok found
  | (k, v) :: rest => do
    match ← fieldOf? names k with
    | none => fileMembers names found rest
    | some i =>
      if (found[i]?.join).isSome then .error (.duplicateField (names[i]?.getD ""))
      else fileMembers names (found.set i (some v)) rest

/-- The fields of a record, which is a mapping or a list of its fields in order. -/
def fields (names : List String) : Decoder (List (Option Value))
  | map members => fileMembers names (names.map fun _ => none) members
  | list items =>
    if names.length < items.length then .error (.wrongLength s!"{names.length} fields")
    else .ok (names.mapIdx fun i _ => items[i]?)
  | _ => .error (.unexpectedType "a record")

/-- A field that must be there. -/
def required (names : List String) (found : List (Option Value)) (i : Nat) (item : Decoder α) :
    Except Error α :=
  match found[i]?.join with
  | some v => item v
  | none => .error (.missingField (names[i]?.getD ""))

/-- A field with a default. -/
def field (found : List (Option Value)) (i : Nat) (item : Decoder α) (default : α) :
    Except Error α :=
  match found[i]?.join with
  | some v => item v
  | none => .ok default

end Value

end Rollout.Yaml
