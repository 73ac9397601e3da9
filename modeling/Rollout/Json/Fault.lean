/-
Why a JSON text does not give a value of the expected type.

A fault is the first one in reading order.  It is either a stop of the reader or a mismatch between
what stands in the text and what is expected, and it says where in the document it happened.
-/
import Rollout.Json.Node
import Rollout.Decimal.Shortest
import Rollout.Text.Literal

namespace Rollout.Json

/-- What stands in a text where something else is expected. -/
inductive Found where
  | bool (b : Bool)
  | int (i : Int)
  | float (f : Float)
  | text (s : String)
  | null
  | sequence
  | map

def Found.describe : Found → String
  | bool true => "boolean `true`"
  | bool false => "boolean `false`"
  | int i => s!"integer `{i}`"
  | float f => s!"floating point `{Decimal.Shortest.text f}`"
  | text s => s!"string {Text.literal s}"
  | null => "null"
  | sequence => "sequence"
  | map => "map"

/-- A well-formed part of a document that does not fit the expected type. -/
inductive Mismatch where
  | type (found : Found) (expected : String)
  /-- A number of the right type out of range. -/
  | range (found : Found) (expected : String)
  /-- A record written as a list that ends too early. -/
  | length (n : Nat) (expected : String)
  | missing (name : String)
  | duplicate (name : String)
  | variant (found : String) (known : List String)

/-- The names of variants in backquotes: one, two, or a list. -/
def describeVariants : List String → String
  | [] => "there are no variants"
  | [a] => s!"expected `{a}`"
  | [a, b] => s!"expected `{a}` or `{b}`"
  | many => "expected one of " ++ ", ".intercalate (many.map fun a => s!"`{a}`")

def Mismatch.message : Mismatch → String
  | type found expected => s!"invalid type: {found.describe}, expected {expected}"
  | range found expected => s!"invalid value: {found.describe}, expected {expected}"
  | length n expected => s!"invalid length {n}, expected {expected}"
  | missing name => s!"missing field `{name}`"
  | duplicate name => s!"duplicate field `{name}`"
  | variant found known => s!"unknown variant `{found}`, {describeVariants known}"

/-- One step into a document. -/
inductive Step where
  | name (s : String)
  | index (i : Nat)
  deriving DecidableEq, Repr

/-- The way to a place in a document, such as `services[0].replicas`. -/
def describePath (path : List Step) : String :=
  let text := path.foldl (fun acc step => match step with
    | .name s => acc ++ "." ++ s
    | .index i => acc ++ s!"[{i}]") ""
  if text.startsWith "." then (text.drop 1).toString else text

inductive Cause where
  | stop (s : Stop)
  | mismatch (m : Mismatch)

/-- The first thing that is wrong, and where. -/
structure Fault where
  path : List Step
  cause : Cause

namespace Fault

def ofStop (s : Stop) : Fault := ⟨[], .stop s⟩

def ofMismatch (m : Mismatch) : Fault := ⟨[], .mismatch m⟩

def message (f : Fault) : String :=
  match f.cause with
  | .stop .malformed => "the text is not well formed"
  | .stop .truncated => "the text ends too early"
  | .mismatch m => m.message

/-- The fault seen from one level further out. -/
def under (step : Step) (f : Fault) : Fault := { f with path := step :: f.path }

end Fault

end Rollout.Json
