/-
What it means that a format reads what was written.

A record is written in JSON form.  A format reads it back if each of its decoders does so for the
values that it is made for, whatever the format makes of the document.

* `Format.Laws`: what has to hold of a format;
* `Format.Laws.optionalField`, `Format.Laws.listField`: fields that are left out when empty;
* `Json.format_laws`: the decoders of JSON.
-/
import Rollout.Format
import Rollout.Proofs.Json.Decode

namespace Rollout

open Json (Value presentFields)

variable {D F : Type → Type} [Functor F] [Seq F]

/-- The decoders of a format find values in documents: `Reads item v a` says so of a decoder, and
`FieldsRead fields names vs a` says so of fields with these names, of which some are there. -/
structure Format.Laws (f : Format D F) (Reads : {α : Type} → D α → Value → α → Prop)
    (FieldsRead : {α : Type} → F α → List String → List (Option Value) → α → Prop) : Prop where
  text (s : String) : Reads f.text (.text s) s
  bool (b : Bool) : Reads f.bool (.bool b) b
  integer {low high i : Int} (expected : String) (h : low ≤ i ∧ i ≤ high)
    (hexact : Json.Number.Exact i) : Reads (f.integer low high expected) (.int i) i
  natural {bound n : Nat} (expected : String) (h : n < bound)
    (hexact : n ≤ Json.Number.maxUnsigned) : Reads (f.natural bound expected) (.int n) n
  list {α : Type} {item : D α} {toJson : α → Value} (as : List α)
    (h : ∀ a, Reads item (toJson a) a) : Reads (f.list item) (.list (as.map toJson)) as
  /-- What is not `null` is a value that is there. -/
  optional {α : Type} {item : D α} {v : Value} {a : α} (h : Reads item v a) (hv : v ≠ .null) :
    Reads (f.optional item) v (some a)
  variant {α : Type} {known : List (String × α)} {name : String} {a : α}
    (h : known.lookup name = some a) : Reads (f.variant known) (.text name) a
  map {α β : Type} {item : D α} {v : Value} {a : α} {g : α → β} {b : β} (h : Reads item v a)
    (hb : g a = b) : Reads (f.map g item) v b
  required {α : Type} {item : D α} {v : Value} {a : α} (name : String) (h : Reads item v a) :
    FieldsRead (f.required name item) [name] [some v] a
  field {α : Type} {item : D α} {v : Value} {a : α} (name : String) (default : α)
    (h : Reads item v a) : FieldsRead (f.field name item default) [name] [some v] a
  /-- A field that is not there has its default. -/
  absent {α : Type} (item : D α) (name : String) (default : α) :
    FieldsRead (f.field name item default) [name] [none] default
  mapFields {α β : Type} {fields : F α} {names : List String} {vs : List (Option Value)} {a : α}
    (g : α → β) (h : FieldsRead fields names vs a) : FieldsRead (g <$> fields) names vs (g a)
  seq {α β : Type} {fields : F (α → β)} {x : F α} {names names' : List String}
    {vs ws : List (Option Value)} {g : α → β} {a : α} (hfields : FieldsRead fields names vs g)
    (hx : FieldsRead x names' ws a) :
    FieldsRead (fields <*> x) (names ++ names') (vs ++ ws) (g a)
  /-- A record is read back from the object of its fields that are there. -/
  record {α : Type} {fields : F α} {names : List String} {vs : List (Option Value)} {a : α}
    (name : String) {members : List (String × Value)} (h : FieldsRead fields names vs a)
    (hnames : names.Nodup) (hmembers : members = presentFields names vs) :
    Reads (f.record name fields) (.object members) a

namespace Format.Laws

variable {f : Format D F} {Reads : {α : Type} → D α → Value → α → Prop}
  {FieldsRead : {α : Type} → F α → List String → List (Option Value) → α → Prop} {α : Type}
  {item : D α} {toJson : α → Value}

/-- An option that is left out when it is empty. -/
theorem optionalField (laws : f.Laws Reads FieldsRead) (name : String) (o : Option α)
    (h : ∀ a, Reads item (toJson a) a) (hnull : ∀ a, toJson a ≠ .null) :
    FieldsRead (f.field name (f.optional item) none) [name] [o.map toJson] o := by
  cases o with
  | none => exact laws.absent _ name none
  | some a => exact laws.field name none (laws.optional (h a) (hnull a))

/-- A list that is left out when it is empty. -/
theorem listField (laws : f.Laws Reads FieldsRead) (name : String) (as : List α)
    (h : ∀ a, Reads item (toJson a) a) :
    FieldsRead (f.field name (f.list item) []) [name]
      [if as.isEmpty then none else some (.list (as.map toJson))] as := by
  cases as with
  | nil => exact laws.absent _ name []
  | cons a as => exact laws.field name [] (laws.list (a :: as) h)

end Format.Laws

/-! ### JSON -/

/-- The fields have these names and find the value when these documents stand under them. -/
def Json.FieldsRead {α : Type} (fields : Json.Fields α) (names : List String)
    (vs : List (Option Value)) (a : α) : Prop :=
  fields.names = names ∧ fields.Reads vs a

theorem Json.format_laws : Json.format.Laws @Json.Reads @Json.FieldsRead where
  text := Reads.text
  bool := Reads.bool
  integer := Reads.integer
  natural := Reads.natural
  list as h := Reads.list as h
  optional h hv := h.optional hv
  variant h := Reads.variant h
  map h hb := h.map hb
  required name h := ⟨rfl, .required name h⟩
  field name default h := ⟨rfl, .field name default h⟩
  absent item name default := ⟨rfl, .absent item name default⟩
  mapFields g h := ⟨h.1, h.2.map g⟩
  seq hfields hx := ⟨by rw [← hfields.1, ← hx.1]; rfl, hfields.2.seq hx.2⟩
  record name _ h hnames hmembers := by
    obtain ⟨rfl, h⟩ := h
    exact .record name h hnames hmembers

end Rollout
