/-
Values of a known type from JSON documents.

A `Decoder` reads one value.  A record is an object or, less usually, a list of its fields in
order; its `Fields` are read by name, and the first fault in reading order wins.

Main definitions:
* `Decoder.text`, `bool`, `integer`, `list`, `optional`, `variant` for the simple shapes;
* `Fields.required`, `Fields.field` and `Decoder.record` for records;
* `decodeText` for a whole text.

Design notes: every field finds its value by look-up, so the order of the names in the text does
not matter for the value.  For the fault it does, so each fault of a field carries the position
of the member it comes from, and the least position wins.
-/
import Rollout.Format
import Rollout.Json.Fault

namespace Rollout.Json

/-- Reads one value from a document. -/
abbrev Decoder (α : Type) := Node → Except Fault α

/-- What a node is, once it can be read at all. -/
def Node.found : Node → Except Stop Found
  | .null => .ok .null
  | .bool b => .ok (.bool b)
  | .number n =>
    match n.meaning with
    | .int i => .ok (.int i)
    | .float f => .ok (.float f)
    | .outOfRange => .error .malformed
  | .text value => value.map .text
  | .list .. => .ok .sequence
  | .object .. => .ok .map
  | .broken b => .error b.wanted

/-- The fault of a node where something else is expected. -/
def Node.unexpected (v : Node) (expected : String) : Fault :=
  match v.found with
  | .ok found => .ofMismatch (.type found expected)
  | .error s => .ofStop s

namespace Decoder

protected def map (f : α → β) (item : Decoder α) : Decoder β := fun v => f <$> item v

def text : Decoder String
  | .text (.ok s) => .ok s
  | v => .error (v.unexpected "a string")

def bool : Decoder Bool
  | .bool b => .ok b
  | v => .error (v.unexpected "a boolean")

/-- An integer between two bounds, named by its type. -/
def integer (low high : Int) (expected : String) : Decoder Int
  | .number n =>
    match n.meaning with
    | .int i =>
      if low ≤ i ∧ i ≤ high then .ok i
      else .error (.ofMismatch (.range (.int i) expected))
    | .float f => .error (.ofMismatch (.type (.float f) expected))
    | .outOfRange => .error (.ofStop .malformed)
  | v => .error (v.unexpected expected)

/-- A natural number below a bound, named by its type. -/
def natural (bound : Nat) (expected : String) : Decoder Nat := fun v =>
  (integer 0 (bound - 1) expected v).map Int.toNat

/-- Whether an ending closes what it ends. -/
def closed : Ending → Except Fault Unit
  | .closed => .ok ()
  | .broken b _ => .error (.ofStop b.wanted)
  | .oddName .. => .error (.ofStop .malformed)

/-- The items of a list, in order. -/
def items (item : Decoder α) (index : Nat) : List Node → Except Fault (List α)
  | [] => .ok []
  | v :: rest => do
    let a ← (item v).mapError (.under (.index index))
    let as ← items item (index + 1) rest
    .ok (a :: as)

def list (item : Decoder α) : Decoder (List α)
  | .list vs ending => do
    let as ← items item 0 vs
    closed ending
    .ok as
  | v => .error (v.unexpected "a sequence")

/-- `null` is nothing. -/
def optional (item : Decoder α) : Decoder (Option α)
  | .null => .ok none
  | .broken ⟨.nullWord, wanted, _⟩ => .error (.ofStop wanted)
  | v => (item v).map some

/-- The fault of a place that holds neither a text nor an object. -/
def notVariant : Node → Fault
  | .broken b =>
    .ofStop (match b.kind with
      | .nothing => .truncated
      | .text => b.wanted
      | .nullWord | .other => .malformed)
  | _ => .ofStop .malformed

/-- One of some names. -/
def variantName (known : List (String × α)) (s : String) : Except Fault α :=
  match known.lookup s with
  | some a => .ok a
  | none => .error (.ofMismatch (.variant s (known.map Prod.fst)))

/-- What may follow the only member of an object that stands for a variant. -/
def afterOnlyMember : Ending → Except Fault Unit
  | .closed => .ok ()
  | .broken b false => .error (.ofStop b.wanted)
  | .broken _ true | .oddName .. => .error (.ofStop .malformed)

/-- One of some names, as a text or as an object with `null` under that name. -/
def variant (known : List (String × α)) : Decoder α
  | .text (.ok s) => variantName known s
  | .text (.error s) => .error (.ofStop s)
  | .object [] (.oddName found _) => .error (found.unexpected "variant identifier")
  | .object [] (.broken b _) => .error (.ofStop b.wanted)
  | .object [] .closed => .error (.ofStop .malformed)
  | .object ((name, v) :: more) ending => do
    let s ← name.mapError .ofStop
    let a ← variantName known s
    match v with
    | .null => .ok ()
    | v => .error ((v.unexpected "unit").under (.name s))
    if more.isEmpty then afterOnlyMember ending else .error (.ofStop .malformed)
    .ok a
  | v => .error (notVariant v)

end Decoder

/-! ### Records -/

/-- A fault with the position of the member it comes from. -/
abbrev Placed := Nat × Fault

/-- The fault that comes first in the text; of two at one place the left one. -/
def earlier (a b : Placed) : Placed := if b.1 < a.1 then b else a

/-- A field as found: its position, the step to it, its value. -/
structure Slot where
  position : Nat
  step : Step
  value : Node

/-- What a document says about the fields of a record. -/
structure Slots where
  /-- The fields in declaration order. -/
  found : List (Option Slot)
  /-- The first fault outside the fields' values. -/
  fault : Option Placed
  /-- The position after everything read. -/
  size : Nat
  /-- The mismatch when a required field is not there. -/
  absent : Nat → String → Mismatch

/-- Some fields of a record: their names, and how they are read from the slots at an offset. -/
structure Fields (α : Type) where
  names : List String
  read : Nat → Slots → Except Placed α

namespace Fields

/-- The slot of a field read by a decoder. -/
def ofSlot (item : Decoder α) (slot : Slot) : Except Placed α :=
  (item slot.value).mapError fun f => (slot.position, f.under slot.step)

/-- A field that must be there. -/
def required (name : String) (item : Decoder α) : Fields α where
  names := [name]
  read offset slots :=
    match slots.found[offset]?.join with
    | some slot => ofSlot item slot
    | none => .error (slots.size, .ofMismatch (slots.absent offset name))

/-- A field with a default. -/
def field (name : String) (item : Decoder α) (default : α) : Fields α where
  names := [name]
  read offset slots :=
    match slots.found[offset]?.join with
    | some slot => ofSlot item slot
    | none => .ok default

protected def map (f : α → β) (x : Fields α) : Fields β where
  names := x.names
  read offset slots := (x.read offset slots).map f

/-- Both results, or the earlier fault. -/
def both (f : Except Placed (α → β)) (x : Except Placed α) : Except Placed β :=
  match f, x with
  | .ok f, .ok a => .ok (f a)
  | .error e, .ok _ => .error e
  | .ok _, .error e => .error e
  | .error e, .error e' => .error (earlier e e')

protected def seq (f : Fields (α → β)) (x : Unit → Fields α) : Fields β where
  names := f.names ++ (x ()).names
  read offset slots :=
    both (f.read offset slots) ((x ()).read (offset + f.names.length) slots)

instance : Functor Fields where
  map := Fields.map

instance : Seq Fields where
  seq := Fields.seq

end Fields

/-- The position of a name among some names. -/
def positionOf? (names : List String) (name : String) : Option Nat :=
  names.findIdx? (· == name)

/-- Files the members of an object under the names of a record, up to the first fault. -/
def fileMembers (names : List String) (position : Nat) (found : List (Option Slot)) :
    List (Except Stop String × Node) → List (Option Slot) × Option Placed
  | [] => (found, none)
  | (.error s, _) :: _ => (found, some (position, .ofStop s))
  | (.ok name, v) :: rest =>
    match positionOf? names name with
    | some i =>
      if (found[i]?.join).isSome then (found, some (position, .ofMismatch (.duplicate name)))
      else fileMembers names (position + 1)
        (found.set i (some ⟨position, .name name, v⟩)) rest
    | none =>
      match v.pass with
      | .error s => (found, some (position, .ofStop s))
      | .ok () => fileMembers names (position + 1) found rest

/-- A record that is written as a list of so many fields. -/
def describeRecord (record : String) (size : Nat) : String :=
  s!"struct {record} with {size} element" ++ (if size == 1 then "" else "s")

namespace Slots

/-- The slots of a record written as an object. -/
def ofObject (names : List String) (members : List (Except Stop String × Node))
    (ending : Ending) : Slots :=
  let (found, fault) := fileMembers names 0 (names.map fun _ => none) members
  let atEnd := match Decoder.closed ending with
    | .ok () => none
    | .error f => some (members.length, f)
  ⟨found, fault.or atEnd, members.length, fun _ name => .missing name⟩

/-- The slots of a record written as a list. -/
def ofList (record : String) (names : List String) (items : List Node) (ending : Ending) : Slots :=
  let found := names.mapIdx fun i _ => items[i]?.map fun v => ⟨i, .index i, v⟩
  let fault : Option Fault :=
    if items.length < names.length then
      match Decoder.closed ending with
      | .ok () => none
      | .error f => some f
    else if names.length < items.length then some (.ofStop .malformed)
    else match ending with
      | .closed => none
      | .broken b afterComma => some (.ofStop (if afterComma then .malformed else b.wanted))
      | .oddName .. => some (.ofStop .malformed)
  ⟨found, fault.map (min items.length names.length, ·), items.length,
    fun i _ => .length i (describeRecord record names.length)⟩

/-- Reads fields from slots; a fault outside their values counts where it stands. -/
def decode (slots : Slots) (fields : Fields α) : Except Fault α :=
  match slots.fault, fields.read 0 slots with
  | none, .ok a => .ok a
  | none, .error e => .error e.2
  | some e, .ok _ => .error e.2
  | some e, .error e' => .error (earlier e e').2

end Slots

/-- A record of a given name. -/
def Decoder.record (name : String) (fields : Fields α) : Decoder α
  | .object members ending => (Slots.ofObject fields.names members ending).decode fields
  | .list items ending => (Slots.ofList name fields.names items ending).decode fields
  | v => .error (v.unexpected s!"struct {name}")

/-- The format of JSON texts. -/
def format : Format Decoder Fields where
  text := Decoder.text
  bool := Decoder.bool
  integer := Decoder.integer
  natural := Decoder.natural
  list := Decoder.list
  optional := Decoder.optional
  variant := Decoder.variant
  map := Decoder.map
  required := Fields.required
  field := Fields.field
  record := Decoder.record

/-! ### Whole texts -/

/-- Reads a whole document: the value, and nothing after it. -/
def Document.decode (item : Decoder α) (d : Document) : Except Fault α := do
  let a ← item d.root
  if d.trailing then .error (.ofStop .malformed) else .ok a

/-- Reads a text. -/
def decodeText (item : Decoder α) (s : String) : Except Fault α :=
  (Document.ofText s).decode item

/-- Reads bytes. -/
def decodeBytes (item : Decoder α) (bs : Bytes) : Except Fault α :=
  (Document.ofBytes bs).decode item

end Rollout.Json
