/-
The registry as a web service.

* `GET /specs` lists the specifications in the order of their names;
* `GET`, `PUT` and `DELETE` on `/specs/NAME` fetch, store and remove one;
* `GET /healthz` says that the service is there.

`respond` answers one request.  A body is stored when it is a specification of the name in the path
that breaks no rule; every other answer in the four hundreds leaves the store as it is.
-/
import Rollout.Http.MediaType
import Rollout.Http.Message
import Rollout.Registry.Store
import Rollout.Spec.Validation
import Rollout.Spec.Wire

namespace Rollout.Registry

open Http (Request Response)
open Spec (Application)

/-! ### Errors -/

/-- What the body of a failure says. -/
structure Failure where
  status : Nat
  code : String
  message : String
  details : List String := []
  deriving DecidableEq, Repr, Inhabited

def Failure.toJson (f : Failure) : Json.Value :=
  .object ([("code", .text f.code), ("message", .text f.message)]
    ++ Json.Value.listField "details" (f.details.map .text))

def Failure.response (f : Failure) : Response := .json f.status f.toJson

def notFound (name : String) : Failure :=
  ⟨404, "spec_not_found", s!"no specification named '{name}'", []⟩

def invalidBody (message : String) : Failure := ⟨400, "invalid_body", message, []⟩

/-! ### Bodies -/

/-- The greatest number of bytes in a body. -/
def maxBody : Nat := 2 * 1024 * 1024

/-- The message for a body that does not fit the schema, with the place in front. -/
def mismatchMessage (f : Json.Fault) (m : Json.Mismatch) : String :=
  let place := Json.describePath f.path
  "Failed to deserialize the JSON body into the target type: "
    ++ (if place.isEmpty then "" else place ++ ": ") ++ m.message

/-- Why a body is no specification. -/
def bodyFault (f : Json.Fault) : String :=
  match f.cause with
  | .stop _ => s!"Failed to parse the request body as JSON: {f.message}"
  | .mismatch m => mismatchMessage f m

/-- Reads the body of a request as a specification. -/
def readBody (r : Request) : Except Failure Application :=
  if !((r.headers.lookup "content-type").map Http.isJsonType).getD false then
    .error (invalidBody "Expected request with \x60Content-Type: application/json\x60")
  else if maxBody < r.body.length then
    .error (invalidBody "Failed to buffer the request body: length limit exceeded")
  else (Json.decodeBytes (Application.schema Json.format) r.body).mapError
    fun f => invalidBody (bodyFault f)

/-- The specification in a body, if it may be stored under a name. -/
def accept (name : String) (r : Request) : Except Failure Application := do
  let a ← readBody r
  if a.name != name then
    .error ⟨400, "name_mismatch", s!"path names '{name}' but body names '{a.name}'", []⟩
  match a.validate with
  | .ok () => .ok a
  | .error vs =>
    .error ⟨400, "invalid_spec", Spec.Violation.report vs, vs.map (·.message)⟩

/-! ### Handlers -/

/-- Tells that the service is there. -/
def health : Response :=
  .json 200 (.object [("status", .text "ok"), ("service", .text "topo-registry"),
    ("version", .text "0.1.0")])

namespace Store

def list (s : Store) : Response := .json 200 (.list (s.specs.map (·.toJson)))

def fetch (s : Store) (name : String) : Response :=
  match s.get? name with
  | some a => .json 200 a.toJson
  | none => (notFound name).response

def put (s : Store) (name : String) (r : Request) : Response × Store :=
  match accept name r with
  | .error f => (f.response, s)
  | .ok a => (.json (if s.contains name then 200 else 201) a.toJson, s.insert a)

def remove (s : Store) (name : String) : Response × Store :=
  if s.contains name then ({ status := 204 }, s.erase name)
  else ((notFound name).response, s)

end Store

/-! ### Routes -/

inductive Route where
  | health
  | all
  /-- One specification; the name is as it stands in the path. -/
  | one (segment : String)
  deriving DecidableEq, Repr, Inhabited

/-- The route of a path. -/
def Route.ofPath? (path : String) : Option Route :=
  match path.splitOn "/" with
  | ["", "healthz"] => some health
  | ["", "specs"] => some all
  | ["", "specs", segment] => if segment.isEmpty then none else some (one segment)
  | _ => none

/-- The methods of a route, in the order in which they are told. -/
def Route.methods : Route → List String
  | health | all => ["GET", "HEAD"]
  | one _ => ["GET", "HEAD", "PUT", "DELETE"]

/-- The response to a method that a route does not have. -/
def methodNotAllowed (route : Route) : Response :=
  { status := 405, headers := [("allow", ",".intercalate route.methods)] }

/-- The response to a name that is no text. -/
def badName : Response :=
  { status := 400, headers := [("content-type", "text/plain; charset=utf-8")]
    body := Utf8.encode "Invalid URL: Invalid UTF-8 in \x60name\x60" }

/-- Answers a request on one specification. -/
def Store.respondOne (s : Store) (segment : String) (r : Request) : Response × Store :=
  match Http.percentDecodeText? segment with
  | none => (badName, s)
  | some name =>
    match r.method with
    | "PUT" => s.put name r
    | "DELETE" => s.remove name
    | _ => (s.fetch name, s)

/-- A response to `HEAD` has no body. -/
def withoutBody (method : String) (r : Response) : Response :=
  if method == "HEAD" then { r with body := [] } else r

/-- Answers a request. -/
def Store.respond (s : Store) (r : Request) : Response × Store :=
  match Route.ofPath? r.path with
  | none => ({ status := 404 }, s)
  | some route =>
    if !route.methods.contains r.method then (methodNotAllowed route, s)
    else
      let (response, s) := match route with
        | .health => (health, s)
        | .all => (s.list, s)
        | .one segment => s.respondOne segment r
      (withoutBody r.method response, s)

end Rollout.Registry
