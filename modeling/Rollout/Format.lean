/-
What every data format can read.

A schema is a function of a format: it says once which fields a record has and what they hold, and
each format gives a decoder for it.
-/

namespace Rollout

/-- A data format with decoders `D`, in which some fields of a record are read by an `F`. -/
structure Format (D F : Type → Type) where
  text : D String
  bool : D Bool
  /-- An integer between two bounds, named by its type. -/
  integer : (low high : Int) → (expected : String) → D Int
  /-- A natural number below a bound, named by its type. -/
  natural : (bound : Nat) → (expected : String) → D Nat
  list : {α : Type} → D α → D (List α)
  /-- A value that may be left out in its place. -/
  optional : {α : Type} → D α → D (Option α)
  /-- One of some names. -/
  variant : {α : Type} → List (String × α) → D α
  map : {α β : Type} → (α → β) → D α → D β
  /-- A field that must be there. -/
  required : {α : Type} → String → D α → F α
  /-- A field with a default. -/
  field : {α : Type} → String → D α → α → F α
  /-- A record of a given name. -/
  record : {α : Type} → String → F α → D α

end Rollout
